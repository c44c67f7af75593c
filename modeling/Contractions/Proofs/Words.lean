/-
# Contractions.Proofs.Words — the packed word as a number.

Every table stores words and reads elements, so each statement about a reference goes through the codec.
Here the masks and shifts of `Contractions.Element` become arithmetic: a word is a reference exactly
when its high byte is `0xF2`, and the payload is what is left below `2 ^ 24`.  From that the two round
trips follow.  Word to element to word loses nothing.  Element to word to element loses only the high
byte of a payload, so nothing at all for handles and for admissible offsets.
-/
import Contractions.Handle
import Contractions.Relocation
import Mathlib.Data.Nat.Bitwise

namespace Contractions

namespace Element

/-! ## Masks as arithmetic -/

/-- A mask further up selects the same bits as the mask at the low end of the shifted number. -/
theorem and_shiftLeft_eq (n mask shift : Nat) :
    n &&& (mask <<< shift) = ((n >>> shift) &&& mask) <<< shift := by
  apply Nat.eq_of_testBit_eq
  intro i
  simp only [Nat.testBit_and, Nat.testBit_shiftLeft, Nat.testBit_shiftRight]
  by_cases h : shift ≤ i <;> simp [h]

/-- Four bits of a number, masked in place. -/
theorem and_nibble (n shift : Nat) : n &&& (15 <<< shift) = (n / 2 ^ shift % 16) * 2 ^ shift := by
  rw [and_shiftLeft_eq, Nat.shiftRight_eq_div_pow, Nat.shiftLeft_eq]
  exact congrArg (· * 2 ^ shift) (Nat.and_two_pow_sub_one_eq_mod _ 4)

theorem toNat_and_payloadMask (word : UInt32) :
    (word &&& payloadMask).toNat = word.toNat % 2 ^ 24 := by
  rw [UInt32.toNat_and]
  exact Nat.and_two_pow_sub_one_eq_mod _ 24

/-! ## Which words are references -/

theorem and_specialMask_eq_iff (word : UInt32) :
    word &&& specialMask = specialMask ↔ word.toNat / 2 ^ 28 = 15 := by
  have bound : word.toNat < 2 ^ 32 := word.toNat_lt
  rw [← UInt32.toNat_inj, UInt32.toNat_and]
  show word.toNat &&& (15 <<< 28) = 15 * 2 ^ 28 ↔ _
  rw [and_nibble]
  omega

theorem tag_eq_iff (word : UInt32) :
    (word &&& tagMask) >>> tagShift = referenceTag ↔ word.toNat / 2 ^ 24 % 16 = 2 := by
  rw [← UInt32.toNat_inj, UInt32.toNat_shiftRight, UInt32.toNat_and]
  show (word.toNat &&& (15 <<< 24)) >>> 24 = 2 ↔ _
  rw [and_nibble, Nat.shiftRight_eq_div_pow]
  omega

/-- Both nibbles together: a word is a reference exactly when its high byte is `0xF2`. -/
theorem isReferenceWord_iff (word : UInt32) :
    isReferenceWord word = true ↔ word.toNat / 2 ^ 24 = 0xF2 := by
  have bound : word.toNat < 2 ^ 32 := word.toNat_lt
  simp only [isReferenceWord, Bool.and_eq_true, beq_iff_eq, and_specialMask_eq_iff, tag_eq_iff]
  omega

/-- Packing a reference puts the high byte in front of the low three of its payload. -/
theorem toNat_pack_reference (payload : UInt32) :
    (reference payload).pack.toNat = 0xF2 * 2 ^ 24 + payload.toNat % 2 ^ 24 := by
  show (0xF2000000 ||| (payload &&& payloadMask)).toNat = _
  have low : payload.toNat % 2 ^ 24 < 2 ^ 24 := Nat.mod_lt _ (by decide)
  rw [UInt32.toNat_or, toNat_and_payloadMask]
  exact (Nat.two_pow_add_eq_or_of_lt low 0xF2).symm

@[simp] theorem isReferenceWord_pack_reference (payload : UInt32) :
    isReferenceWord (reference payload).pack = true := by
  rw [isReferenceWord_iff, toNat_pack_reference]
  omega

@[simp] theorem isReferenceWord_pack_notFound : isReferenceWord notFound.pack = false := by decide

/-! ## Round trips -/

/-- A word is not changed by being read and stored again. -/
@[simp] theorem pack_unpack (word : UInt32) : (unpack word).pack = word := by
  by_cases h : isReferenceWord word = true
  · rw [unpack_eq_reference h, ← UInt32.toNat_inj, toNat_pack_reference, toNat_and_payloadMask]
    have high := (isReferenceWord_iff word).mp h
    omega
  · rw [unpack_eq_direct (by simpa using h), pack_direct]

/-- A stored reference reads back as itself when its payload fits. -/
theorem unpack_pack_reference {payload : UInt32} (h : payload.toNat < 2 ^ 24) :
    unpack (reference payload).pack = reference payload := by
  rw [unpack_eq_reference (isReferenceWord_pack_reference payload)]
  congr 1
  rw [← UInt32.toNat_inj, toNat_and_payloadMask, toNat_pack_reference]
  omega

/-- A word that reads as a reference is the stored form of that reference. -/
theorem eq_pack_of_unpack {word : UInt32} {element : Element} (h : unpack word = element) :
    word = element.pack := by
  rw [← h, pack_unpack]

/-- A word that reads as a direct element is that element's word. -/
theorem eq_of_unpack_direct {word other : UInt32} (h : unpack word = direct other) :
    word = other := eq_pack_of_unpack h

end Element

/-! ## Handles in payloads -/

/-- A payload below the number kept for "no node yet" names the node with that number. -/
theorem Handle.ofPayload?_eq_some {payload : UInt32} (h : payload.toNat < Handle.count) :
    Handle.ofPayload? payload = some ⟨payload.toNat, h⟩ := by
  have small : payload.toNat % 2 ^ 24 = payload.toNat := by
    have : payload.toNat < 0xFFFFFF := h
    omega
  unfold Handle.ofPayload?
  rw [Element.toNat_and_payloadMask, small]
  exact Handle.ofNat?_index ⟨payload.toNat, h⟩

end Contractions
