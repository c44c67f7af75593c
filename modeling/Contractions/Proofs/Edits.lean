/-
# Contractions.Proofs.Edits — what an edit does to the slots in use.

A node has slots in use and spare ones, and only those in use are ever read as pairs, copied or
packed.  So what counts of an edit is what it does to `Node.logical`.  A write at a given place
replaces a slot in use or, further back, none; an added slot carries the code point and the element
that were handed to the edit.  In either case nothing that stood in a spare slot comes into use.
-/
import Contractions.Node.Edit
import Contractions.Proofs.SortedPairs

namespace Contractions

namespace Node

variable {node edited : Node}

/-! ## The slots in use after an edit -/

/-- Among the slots in use a write replaces the one it names, if it is one of them. -/
theorem logical_put (node : Node) (offset : Nat) (slot : Slot) :
    (node.put offset slot).logical = node.logical.set offset slot := by
  cases offset with
  | zero => rfl
  | succ k =>
    by_cases inUse : k < node.pairs.length
    · simp only [put, inUse, if_true, logical, List.set_cons_succ]
    · simp only [put, inUse, if_false, logical, List.set_cons_succ]
      rw [List.set_eq_of_length_le (Nat.le_of_not_lt inUse)]

/-- A write behind the slots in use changes a spare slot and nothing else. -/
theorem put_of_length_le {offset : Nat} (behind : node.length ≤ offset) (slot : Slot) :
    ∃ position, node.put offset slot = { node with spare := node.spare.set position slot } := by
  cases offset with
  | zero => exact absurd behind (Nat.not_le_of_lt node.length_pos)
  | succ k =>
    have notInUse : ¬ k < node.pairs.length := by
      simp only [length] at behind
      omega
    refine ⟨k - node.pairs.length, ?_⟩
    simp only [put, notInUse, if_false]

theorem logical_setElement (node : Node) (slot : Nat) (element : Element) :
    (node.setElement slot element).logical = node.logical.modify slot (·.withElement element) := by
  cases slot with
  | zero => rfl
  | succ k => simp only [setElement, logical, List.modify_succ_cons]

theorem apply_overwrite_eq_ok {offset : Nat} {codePoint : UInt16} {element : Element}
    (applied : node.apply (.overwrite offset codePoint element) = .ok edited) :
    offset < node.capacity ∧ edited = node.put offset (.of codePoint element) := by
  simp only [apply, overwrite] at applied
  split at applied
  · rename_i inside
    exact ⟨inside, (Except.ok.inj applied).symm⟩
  · cases applied

theorem apply_overwrite_eq_error {offset : Nat} {codePoint : UInt16} {element : Element}
    {fault : Fault} (refused : node.apply (.overwrite offset codePoint element) = .error fault) :
    fault = .slotOutOfBounds offset node.capacity := by
  simp only [apply, overwrite] at refused
  split at refused
  · cases refused
  · exact (Except.error.inj refused).symm

/-! ## The words in use after an edit -/

/-- The element that is handed to an edit. -/
def Edit.element? : Edit → Option Element
  | .append _ element => some element
  | .insert _ element => some element
  | .overwrite _ _ element => some element
  | .setLast element => some element
  | .grow => none

theorem mem_logical_setElement {slot : Nat} {element : Element} {found : Slot}
    (mem : found ∈ (node.setElement slot element).logical) :
    (∃ old ∈ node.logical, found.word = old.word) ∨ found.word = element.pack := by
  rw [logical_setElement] at mem
  obtain ⟨index, inRange, rfl⟩ := List.mem_iff_getElem.mp mem
  rw [List.length_modify] at inRange
  rw [List.getElem_modify]
  split
  · exact Or.inr rfl
  · exact Or.inl ⟨_, List.getElem_mem inRange, rfl⟩

/-- A word in use after an edit was in use before it or is the packed form of the element that was
handed to it. -/
theorem mem_logical_apply {edit : Edit} (applied : node.apply edit = .ok edited) {found : Slot}
    (mem : found ∈ edited.logical) :
    (∃ old ∈ node.logical, found.word = old.word) ∨
      ∃ element ∈ edit.element?, found.word = element.pack := by
  have old : found ∈ node.logical → (∃ old ∈ node.logical, found.word = old.word) ∨
      ∃ element ∈ edit.element?, found.word = element.pack := fun mem => .inl ⟨found, mem, rfl⟩
  cases edit with
  | append codePoint element =>
    rw [logical_append applied] at mem
    rcases List.mem_append.mp mem with before | here
    · exact old before
    · rw [List.mem_singleton.mp here]
      exact Or.inr ⟨element, rfl, rfl⟩
  | insert codePoint element =>
    rw [logical_insert applied] at mem
    rcases List.mem_cons.mp mem with rfl | inPairs
    · exact old List.mem_cons_self
    · rcases Slot.mem_insertSorted.mp inPairs with rfl | before
      · exact Or.inr ⟨element, rfl, rfl⟩
      · exact old (List.mem_cons_of_mem _ before)
  | overwrite offset codePoint element =>
    obtain ⟨-, rfl⟩ := apply_overwrite_eq_ok applied
    rw [logical_put] at mem
    rcases List.mem_or_eq_of_mem_set mem with before | rfl
    · exact old before
    · exact Or.inr ⟨element, rfl, rfl⟩
  | setLast element =>
    cases applied
    rcases mem_logical_setElement mem with before | same
    · exact Or.inl before
    · exact Or.inr ⟨element, rfl, same⟩
  | grow =>
    rw [logical_grow applied] at mem
    exact old mem

/-! ## Fresh nodes -/

theorem fresh_eq_ok {capacity : Nat} (fresh : Node.fresh capacity = .ok node) :
    node.reserved = .reserved ∧ node.pairs = [] := by
  unfold Node.fresh at fresh
  split at fresh
  · cases fresh
    exact ⟨rfl, rfl⟩
  · cases fresh

end Node

end Contractions
