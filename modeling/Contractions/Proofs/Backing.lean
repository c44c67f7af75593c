/-
# Contractions.Proofs.Backing — the packed table behind what is remembered.

The memory lists offsets, and an offset means a node only beside the packed table in which it was
counted.  The two are replaced by one and the same packing and by nothing else, and what attaching
forgets is no longer listed.  So every remembered offset is at any time the start of a slice in the
packed table of that time, and the slice is that of the node whose handle the offset replaced.
-/
import Contractions.Proofs.PackedForm

namespace Contractions

namespace Packed

/-- A packed table backs a relocation: the starts of its slices ascend, and the word written points
to the start of the node whose handle it replaced. -/
structure Backs (packed : Packed) (relocation : Relocation) : Prop where
  ascends : Ascends id packed.offsets
  points : (Element.unpack relocation.written).PointsTo packed.offsets relocation.payload

/-- The interval search for a backed offset finds the slice of the node. -/
theorem Backs.nodeAt_eq_slice {packed : Packed} {relocation : Relocation} {target : UInt32}
    (backs : packed.Backs relocation)
    (read : Element.unpack relocation.written = .reference target) :
    ∃ slots, packed.nodeAt target.toNat = some slots ∧
      packed.slice relocation.payload.toNat = some slots := by
  obtain ⟨shown, same, starts⟩ := backs.points
  rw [read] at same
  cases same
  obtain ⟨inRange, start⟩ := Array.getElem?_eq_some_iff.mp starts
  have located : bisect id packed.offsets target.toNat =
      some ⟨relocation.payload.toNat, inRange⟩ :=
    (bisect_eq_some_iff backs.ascends).mpr start
  have sliced : (packed.slice relocation.payload.toNat).isSome = true := by
    unfold slice
    rw [starts]
    rfl
  obtain ⟨slots, found⟩ := Option.isSome_iff_exists.mp sliced
  refine ⟨slots, ?_, found⟩
  unfold nodeAt
  rw [located, Option.bind_some]
  exact found

end Packed

namespace Tailoring

/-- Whatever a tailoring remembers is backed by its packed table, which is then there. -/
def Backed (tailoring : Tailoring) : Prop :=
  ∀ relocation ∈ tailoring.memory, ∃ packed,
    tailoring.packed = some packed ∧ packed.Backs relocation

/-- To forget is no harm, as long as the packed table stays. -/
theorem Backed.of_subset {tailoring after : Tailoring} (backed : tailoring.Backed)
    (packed : after.packed = tailoring.packed)
    (memory : ∀ relocation ∈ after.memory, relocation ∈ tailoring.memory) : after.Backed := by
  intro relocation mem
  rw [packed]
  exact backed relocation (memory relocation mem)

theorem Backed.of_eq {tailoring after : Tailoring} (backed : tailoring.Backed)
    (packed : after.packed = tailoring.packed) (memory : after.memory = tailoring.memory) :
    after.Backed :=
  backed.of_subset packed fun _ mem => memory ▸ mem

end Tailoring

namespace Session

/-- A packing remembers what it wrote, and keeps the table that this was counted in. -/
theorem backed_laidOut {session : Session} {base : Nat}
    (packable : session.tailoring.Packable session.table base) (classOf : UInt16 → UInt8) :
    (session.laidOut base classOf).tailoring.Backed := by
  intro relocation mem
  obtain ⟨reference, found, rfl⟩ := List.mem_map.mp (List.mem_toArray.mp mem)
  have named : reference.2.toNat < (startsOf base session.tailoring.nodes.toList).size := by
    rw [size_startsOf]
    exact packable.table_named reference found
  exact ⟨_, rfl, ascends_startsOf base _, pointsTo_movePayload packable.offsets_fit named⟩

theorem backed_perform {session : Session} (backed : session.tailoring.Backed)
    (request : Request) : (session.perform request).2.tailoring.Backed := by
  rcases session.record_perform_cases request with
    ⟨packed, memory⟩ | ⟨base, classOf, -, -, packable, laid⟩
  · exact backed.of_subset packed memory
  · rw [laid]
    exact backed_laidOut packable classOf

end Session

theorem Tailoring.Reachable.backed {tailoring : Tailoring} (reached : tailoring.Reachable) :
    tailoring.Backed := by
  induction reached with
  | opened sizing => exact fun _ mem => absurd mem (Array.not_mem_empty _)
  | copied _ ih => exact ih.of_eq rfl rfl
  | performed _ table request ih => exact Session.backed_perform ih request

end Contractions
