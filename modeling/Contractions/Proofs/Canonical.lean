/-
# Contractions.Proofs.Canonical — which elements are stored without loss.

A word is never changed by being read and stored again.  An element may be, in two ways: a payload
is cut to 24 bits, and a direct element whose word has the layout of a reference reads back as that
reference.  `Element.Canonical` is what is left, and it is exactly what reading yields.  So to store
an element and read it again is to normalise it, and there is one canonical element for each word.

A handle always fits.  The one payload among those that fit which names no node is the greatest.
-/
import Contractions.Proofs.Operations

namespace Contractions

namespace Handle

/-- Of all contents of the low 24 bits only the greatest names no node. -/
theorem ofPayload?_eq_none_iff {payload : UInt32} :
    ofPayload? payload = none ↔ payload.toNat % 2 ^ 24 = 2 ^ 24 - 1 := by
  unfold ofPayload?
  rw [← Option.not_isSome_iff_eq_none, ofNat?_isSome_iff, Element.toNat_and_payloadMask, count]
  omega

end Handle

namespace Element

variable {element other : Element}

/-- An element that is stored as it is: a reference whose payload fits, or a direct element whose
word does not have the layout of a reference. -/
def Canonical : Element → Prop
  | direct word => isReferenceWord word = false
  | reference payload => payload.toNat < 2 ^ 24

instance : DecidablePred Canonical
  | direct word => inferInstanceAs (Decidable (isReferenceWord word = false))
  | reference payload => inferInstanceAs (Decidable (payload.toNat < 2 ^ 24))

/-! ## Reading yields canonical elements, and only these -/

theorem canonical_unpack (word : UInt32) : (unpack word).Canonical := by
  by_cases isReference : isReferenceWord word = true
  · rw [unpack_eq_reference isReference]
    show (word &&& payloadMask).toNat < 2 ^ 24
    rw [toNat_and_payloadMask]
    exact Nat.mod_lt _ (by decide)
  · have other : isReferenceWord word = false := by simpa using isReference
    rw [unpack_eq_direct other]
    exact other

theorem Canonical.unpack_pack (canonical : element.Canonical) : unpack element.pack = element := by
  cases element with
  | direct word => exact unpack_eq_direct canonical
  | reference payload => exact unpack_pack_reference canonical

/-- Nothing is lost exactly where the element is canonical. -/
theorem unpack_pack_eq_iff : unpack element.pack = element ↔ element.Canonical := by
  constructor
  · intro same
    rw [← same]
    exact canonical_unpack _
  · exact Canonical.unpack_pack

/-- Different canonical elements are stored as different words. -/
theorem Canonical.pack_inj (canonical : element.Canonical) (canonical' : other.Canonical)
    (same : element.pack = other.pack) : element = other := by
  rw [← canonical.unpack_pack, same, canonical'.unpack_pack]

/-! ## References apart from direct elements -/

/-- No reference, whether it fits or not, is stored as a canonical direct element is. -/
theorem pack_reference_ne_direct {payload word : UInt32} (canonical : (direct word).Canonical) :
    (reference payload).pack ≠ (direct word).pack := by
  intro same
  have isReference := isReferenceWord_pack_reference payload
  rw [same, pack_direct, show isReferenceWord word = false from canonical] at isReference
  cases isReference

theorem canonical_notFound : notFound.Canonical := isReferenceWord_pack_notFound

/-! ## Elements and handles -/

theorem handle?_eq_none_iff : element.handle? = none ↔
    (∃ word, element = direct word) ∨
      ∃ payload, element = reference payload ∧ payload.toNat % 2 ^ 24 = 2 ^ 24 - 1 := by
  cases element with
  | direct word => simp [handle?]
  | reference payload => simp [handle?, Handle.ofPayload?_eq_none_iff]

/-! ## The codec -/

/-- What is stored and what is read.  Every word survives being read and stored, and its high byte
tells whether it is a reference.  An element survives being stored and read exactly if it is
canonical; in any case what is read is canonical, is stored as the same word, does not change any
more, and is the only canonical element stored as that word.  No reference is mistaken for "not
found" or for any other canonical direct element.  A stored handle reads back as itself, and an
element carries no handle exactly if it is direct or its low 24 bits are all set. -/
theorem codec_exact (word : UInt32) (element : Element) (handle : Handle) :
    ((unpack word).pack = word ∧ isReferenceWord word = (unpack word).isReference ∧
        (isReferenceWord word = true ↔ word.toNat / 2 ^ 24 = 0xF2)) ∧
      (unpack element.pack = element ↔ element.Canonical) ∧
      ((unpack element.pack).Canonical ∧ (unpack element.pack).pack = element.pack ∧
        unpack (unpack element.pack).pack = unpack element.pack ∧
        ∀ other, other.Canonical → other.pack = element.pack → other = unpack element.pack) ∧
      (∀ payload, (reference payload).pack ≠ notFound.pack ∧
        ∀ other, (direct other).Canonical → (reference payload).pack ≠ (direct other).pack) ∧
      ((unpack (ofHandle handle).pack).handle? = some handle ∧
        (element.handle? = none ↔ (∃ other, element = direct other) ∨
          ∃ payload, element = reference payload ∧ payload.toNat % 2 ^ 24 = 2 ^ 24 - 1)) := by
  have canonical := canonical_unpack element.pack
  refine ⟨⟨pack_unpack word, (isReference_unpack word).symm, isReferenceWord_iff word⟩,
    unpack_pack_eq_iff, ⟨canonical, pack_unpack _, canonical.unpack_pack, ?_⟩, fun payload => ?_,
    ?_, ?_⟩
  · intro other canonical' same
    exact canonical'.pack_inj canonical (same.trans (pack_unpack _).symm)
  · exact ⟨pack_reference_ne_direct canonical_notFound, fun other => pack_reference_ne_direct⟩
  · rw [unpack_pack_ofHandle, handle?_ofHandle]
  · exact handle?_eq_none_iff

/-- Two elements that are not canonical are read back as one that is. -/
example : ¬ (direct 0xF2000007).Canonical ∧ ¬ (reference 0x01000007).Canonical ∧
    unpack (direct 0xF2000007).pack = reference 7 ∧
    unpack (reference 0x01000007).pack = reference 7 := by decide

end Element

end Contractions
