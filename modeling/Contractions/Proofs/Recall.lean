/-
# Contractions.Proofs.Recall — what is remembered is in order, is right, and is found.

The memory lists words of the main table beside the handles that they stood for, and the table of
that time is kept as the packed table.  A packing replaces both, attaching strikes from the memory
alone, a copy takes both along, and a refused packing leaves both.  So at any time each word that is
listed is the whole of a reference to an offset in the packed table, at the place of the handle
beside it.

No code point is listed twice, and the list ascends, so the interval search misses nothing.  Reading
back therefore turns the word of a code point into a handle exactly where the two are listed
together, and there is one handle that they are listed with.  This holds for any word, whoever may
have written it to the main table.
-/
import Contractions.Proofs.Backing
import Contractions.Proofs.Canonical

namespace Contractions

/-- What a packed table backs was written in full: the offset of the node fits a reference. -/
theorem Packed.Backs.written_eq {packed : Packed} {relocation : Relocation}
    (backs : packed.Backs relocation) :
    ∃ named : relocation.payload.toNat < packed.offsets.size,
      packed.offsets[relocation.payload.toNat] ≤ maxOffset ∧
        relocation.written =
          (Element.reference packed.offsets[relocation.payload.toNat].toUInt32).pack := by
  obtain ⟨target, read, starts⟩ := backs.points
  obtain ⟨named, start⟩ := Array.getElem?_eq_some_iff.mp starts
  have canonical := Element.canonical_unpack relocation.written
  rw [read] at canonical
  refine ⟨named, ?_, ?_⟩
  · -- nothing but what fits is ever read
    rw [start]
    exact Nat.le_of_lt_succ canonical
  · rw [start, Nat.toUInt32_eq, UInt32.ofNat_toNat]
    exact Element.eq_pack_of_unpack read

/-- A code point is listed once at most. -/
theorem Relocation.Ordered.eq_of_mem {memory : Array Relocation} (ordered : Ordered memory)
    {a b : Relocation} (mem : a ∈ memory) (mem' : b ∈ memory)
    (same : a.codePoint = b.codePoint) : a = b := by
  obtain ⟨i, inRange, rfl⟩ := Array.mem_iff_getElem.mp mem
  obtain ⟨j, inRange', rfl⟩ := Array.mem_iff_getElem.mp mem'
  have equal : (⟨i, inRange⟩ : Fin memory.size) = ⟨j, inRange'⟩ :=
    ordered.key_inj (congrArg UInt16.toNat same)
  obtain rfl := Fin.mk.inj equal
  rfl

namespace Tailoring

variable {tailoring : Tailoring}

/-- No node goes away, so the packed table has no more offsets than there are nodes. -/
theorem Reachable.size_offsets_le (reached : tailoring.Reachable) :
    ∀ packed, tailoring.packed = some packed → packed.offsets.size ≤ tailoring.nodes.size := by
  induction reached with
  | opened sizing => exact fun packed there => nomatch there
  | copied _ ih =>
    rw [size_copy]
    exact ih
  | @performed tailoring _ table request ih =>
    intro packed there
    rcases Session.record_perform_cases { tailoring, table } request with
      ⟨same, -⟩ | ⟨base, classOf, -, -, -, laid⟩
    · rw [same] at there
      have grows := Session.perform_grows { tailoring, table } request
      exact Nat.le_trans (ih packed there) grows.size_le
    · rw [laid] at there ⊢
      obtain rfl := Option.some.inj there
      exact Nat.le_of_eq (tailoring.size_offsets base)

/-- What a tailoring remembers. -/
structure Recalls (tailoring : Tailoring) : Prop where
  ascends : tailoring.memory.toList.Pairwise fun a b => a.codePoint < b.codePoint
  /-- Whatever is remembered is backed by the packed table, which is then there: its handle is below
  the number of offsets, so it names a node, and its word is the reference to the offset. -/
  backed : ∀ relocation ∈ tailoring.memory, ∃ packed, tailoring.packed = some packed ∧
    packed.offsets.size ≤ tailoring.nodes.size ∧
    ∃ named : relocation.payload.toNat < packed.offsets.size,
      packed.offsets[relocation.payload.toNat] ≤ maxOffset ∧
        relocation.written =
          (Element.reference packed.offsets[relocation.payload.toNat].toUInt32).pack
  /-- A word that is remembered for a code point is read back as the reference to the handle, and
  there is one such handle. -/
  reads : ∀ codePoint word payload, ⟨codePoint, word, payload⟩ ∈ tailoring.memory →
    Relocation.readBack tailoring.memory codePoint word = (Element.reference payload).pack ∧
      Element.unpack (Element.reference payload).pack = .reference payload ∧
      ∀ other, ⟨codePoint, word, other⟩ ∈ tailoring.memory → other = payload
  /-- Any other word is left as it is. -/
  leaves : ∀ codePoint word, (∀ payload, ⟨codePoint, word, payload⟩ ∉ tailoring.memory) →
    Relocation.readBack tailoring.memory codePoint word = word

/-- However a tailoring came about, and whatever was written to the main tables that it met, what it
remembers is in order, is right, and is found. -/
theorem Reachable.recalls (reached : tailoring.Reachable) : tailoring.Recalls where
  ascends := reached.sound.ordered.imp UInt16.lt_iff_toNat_lt.mpr
  backed := by
    intro relocation mem
    obtain ⟨packed, there, backs⟩ := reached.backed relocation mem
    exact ⟨packed, there, reached.size_offsets_le packed there, backs.written_eq⟩
  reads := by
    intro codePoint word payload mem
    have named : payload.toNat < tailoring.nodes.size := reached.sound.named _ mem
    have handles : tailoring.nodes.size ≤ 0xFFFFFF := reached.sound.handles
    refine ⟨Relocation.readBack_of_mem reached.sound.ordered mem,
      Element.unpack_pack_reference (by omega), fun other mem' => ?_⟩
    have same := reached.sound.ordered.eq_of_mem mem' mem rfl
    exact (Relocation.mk.inj same).2.2
  leaves := fun _ _ => Relocation.readBack_of_forall_notMem

/-- The ring of two nodes, packed from 7 on and copied, remembers one word. -/
theorem Reachable.recalls_ring :
    let tailoring := (Session.ring.perform (.pack 7 fun _ => 0)).2.tailoring.copy
    tailoring.Reachable ∧ tailoring.Recalls ∧
      tailoring.memory = #[⟨2, (Element.reference 9).pack, 1⟩] ∧
      Relocation.readBack tailoring.memory 2 (Element.reference 9).pack =
        (Element.reference 1).pack ∧
      ∀ word, word ≠ (Element.reference 9).pack →
        Relocation.readBack tailoring.memory 2 word = word := by
  intro tailoring
  have reached : tailoring.Reachable :=
    (Session.reachable_ring.performed Session.ring.table (.pack 7 fun _ => 0)).copied
  have recalls := Reachable.recalls reached
  have memory : tailoring.memory = #[⟨2, (Element.reference 9).pack, 1⟩] := by decide +kernel
  refine ⟨reached, recalls, memory, (recalls.reads 2 _ 1 ?_).1, fun word other => ?_⟩
  · rw [memory]
    exact Array.mem_singleton.mpr rfl
  · refine recalls.leaves 2 word fun payload mem => ?_
    rw [memory, Array.mem_singleton] at mem
    exact other (Relocation.mk.inj mem).2.1

end Tailoring

end Contractions
