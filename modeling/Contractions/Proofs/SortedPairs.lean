/-
# Contractions.Proofs.SortedPairs — inserting, locating and replacing in a row of slots.

Sorted insertion, the early-exit scan and the replacement of a located slot are three recursions
over one row.  Each is described here by what it does to the slots of one code point, taken out of
the row in their order: insertion puts the new slot in front of them, replacing a located slot
changes the foremost of them, and neither touches the slots of any other code point.  For this the
row need not be sorted.  Only the scan needs it: on a sorted row it gives up exactly where the code
point is not listed.
-/
import Contractions.Slot
import Mathlib.Data.List.Perm.Basic

namespace Contractions

namespace Slot

/-- The slots of one code point, in their order. -/
def listed (codePoint : UInt16) (slots : List Slot) : List Slot :=
  slots.filter fun slot => slot.codePoint = codePoint

/-- Code points never decrease along the row. -/
def Sorted (slots : List Slot) : Prop :=
  slots.Pairwise fun a b => a.codePoint ≤ b.codePoint

theorem mem_listed {codePoint : UInt16} {slots : List Slot} {slot : Slot} :
    slot ∈ listed codePoint slots ↔ slot ∈ slots ∧ slot.codePoint = codePoint := by
  simp only [listed, List.mem_filter, decide_eq_true_eq]

/-- In a sorted row a code point that is less than the first one is not listed. -/
theorem Sorted.listed_eq_nil_of_lt {codePoint : UInt16} {slot : Slot} {rest : List Slot}
    (sorted : Sorted (slot :: rest)) (less : codePoint < slot.codePoint) :
    listed codePoint (slot :: rest) = [] := by
  rw [List.eq_nil_iff_forall_not_mem]
  intro other found
  obtain ⟨mem, same⟩ := mem_listed.mp found
  rw [← same] at less
  rcases List.mem_cons.mp mem with rfl | behind
  · exact UInt16.lt_irrefl _ less
  · have notLess := (List.pairwise_cons.mp sorted).1 other behind
    exact UInt16.not_lt.mpr notLess less

/-! ## Insertion -/

theorem insertSorted_perm (new : Slot) (slots : List Slot) :
    (insertSorted new slots).Perm (new :: slots) := by
  induction slots with
  | nil => exact .refl _
  | cons slot rest ih =>
    unfold insertSorted
    split
    · exact (ih.cons slot).trans (.swap new slot rest)
    · exact .refl _

theorem mem_insertSorted {new slot : Slot} {slots : List Slot} :
    slot ∈ insertSorted new slots ↔ slot = new ∨ slot ∈ slots :=
  (insertSorted_perm new slots).mem_iff.trans List.mem_cons

theorem Sorted.insertSorted {slots : List Slot} (sorted : Sorted slots) (new : Slot) :
    Sorted (insertSorted new slots) := by
  induction slots with
  | nil => exact List.pairwise_singleton _ new
  | cons slot rest ih =>
    obtain ⟨first, later⟩ := List.pairwise_cons.mp sorted
    unfold Slot.insertSorted
    split
    · rename_i less
      refine List.pairwise_cons.mpr ⟨?_, ih later⟩
      intro other mem
      rcases mem_insertSorted.mp mem with rfl | old
      · exact UInt16.le_of_lt less
      · exact first other old
    · rename_i notLess
      have greater := UInt16.not_lt.mp notLess
      refine List.pairwise_cons.mpr ⟨?_, sorted⟩
      intro other mem
      rcases List.mem_cons.mp mem with rfl | old
      · exact greater
      · exact UInt16.le_trans greater (first other old)

/-- The new slot stands in front of those with its code point, and all others keep their order. -/
theorem listed_insertSorted (codePoint : UInt16) (new : Slot) (slots : List Slot) :
    listed codePoint (insertSorted new slots) =
      if new.codePoint = codePoint then new :: listed codePoint slots
      else listed codePoint slots := by
  induction slots with
  | nil => simp only [insertSorted, listed, List.filter_cons, decide_eq_true_eq]
  | cons slot rest ih =>
    unfold insertSorted
    split
    · -- what is passed over has a smaller code point than the new slot
      rename_i less
      have different : new.codePoint = codePoint → slot.codePoint ≠ codePoint := by
        rintro rfl same
        exact UInt16.lt_irrefl _ (same ▸ less)
      simp only [listed, List.filter_cons] at ih ⊢
      rw [ih]
      split_ifs <;> simp_all
    · simp only [listed, List.filter_cons, decide_eq_true_eq]

/-! ## Locating -/

/-- On a sorted row the scan finds the first slot of a code point wherever there is one. -/
theorem Sorted.locate_eq_findIdx? {slots : List Slot} (sorted : Sorted slots) (codePoint : UInt16) :
    locate codePoint slots = slots.findIdx? fun slot => slot.codePoint = codePoint := by
  induction slots with
  | nil => rfl
  | cons slot rest ih =>
    rw [locate, List.findIdx?_cons, ih (List.pairwise_cons.mp sorted).2]
    by_cases same : slot.codePoint = codePoint
    · simp only [same, UInt16.lt_irrefl, if_false, if_true, decide_true]
    · by_cases less : slot.codePoint < codePoint
      · simp only [less, same, if_true, decide_false, Bool.false_eq_true, if_false]
      · -- the scan gives up, and behind a greater code point there is none to be found
        have greater : codePoint < slot.codePoint :=
          UInt16.lt_of_le_of_ne (UInt16.not_lt.mp less) (Ne.symm same)
        have none := sorted.listed_eq_nil_of_lt greater
        have absent : rest.findIdx? (fun slot => slot.codePoint = codePoint) = .none := by
          rw [List.findIdx?_eq_none_iff]
          intro other mem
          have outside := List.filter_eq_nil_iff.mp none other (List.mem_cons_of_mem _ mem)
          simpa using outside
        simp only [less, same, if_false, decide_false, Bool.false_eq_true, absent, Option.map_none]

theorem Sorted.locate_eq_none_iff {slots : List Slot} (sorted : Sorted slots)
    (codePoint : UInt16) : locate codePoint slots = none ↔ listed codePoint slots = [] := by
  rw [sorted.locate_eq_findIdx?, List.findIdx?_eq_none_iff, listed, List.filter_eq_nil_iff]
  simp only [Bool.not_eq_true]

/-- What the scan stops at is the foremost slot of its code point, on any row. -/
theorem getElem?_of_locate {codePoint : UInt16} {slots : List Slot} {position : Nat}
    (located : locate codePoint slots = some position) :
    slots[position]? = (listed codePoint slots).head? := by
  induction slots generalizing position with
  | nil => cases located
  | cons slot rest ih =>
    unfold locate at located
    split at located
    · rename_i less
      obtain ⟨inner, found, rfl⟩ := Option.map_eq_some_iff.mp located
      have different : slot.codePoint ≠ codePoint := fun same => UInt16.lt_irrefl _ (same ▸ less)
      simpa [listed, different] using ih found
    · split at located
      · rename_i same
        cases located
        simp [listed, same]
      · cases located

/-! ## Replacing -/

/-- To replace the element of a located slot is to replace that of the foremost slot of its code
point. -/
theorem listed_modify_of_locate {codePoint : UInt16} {slots : List Slot} {position : Nat}
    (located : locate codePoint slots = some position) (element : Element) (other : UInt16) :
    listed other (slots.modify position (·.withElement element)) =
      if codePoint = other then (listed codePoint slots).modifyHead (·.withElement element)
      else listed other slots := by
  induction slots generalizing position with
  | nil => cases located
  | cons slot rest ih =>
    have kept : (slot.withElement element).codePoint = slot.codePoint := rfl
    unfold locate at located
    split at located
    · rename_i less
      obtain ⟨inner, found, rfl⟩ := Option.map_eq_some_iff.mp located
      have different : slot.codePoint ≠ codePoint := fun same => UInt16.lt_irrefl _ (same ▸ less)
      have later := ih found
      simp only [listed, List.modify_succ_cons, List.filter_cons] at later ⊢
      rw [later]
      split_ifs <;> simp_all
    · split at located
      · rename_i same
        cases located
        simp only [listed, List.modify_zero_cons, List.filter_cons, kept, same]
        split_ifs <;> simp_all
      · cases located

theorem map_codePoint_modify (slots : List Slot) (position : Nat) (element : Element) :
    (slots.modify position (·.withElement element)).map Slot.codePoint =
      slots.map Slot.codePoint := by
  induction slots generalizing position with
  | nil => rw [List.modify_nil]
  | cons slot rest ih =>
    cases position with
    | zero => rfl
    | succ position => rw [List.modify_succ_cons, List.map_cons, ih, List.map_cons]

/-- Whether a row is sorted is decided by its code points. -/
theorem Sorted.modify {slots : List Slot} (sorted : Sorted slots) (position : Nat)
    (element : Element) : Sorted (slots.modify position (·.withElement element)) := by
  have row : (slots.map Slot.codePoint).Pairwise (· ≤ ·) := List.pairwise_map.mpr sorted
  rw [← map_codePoint_modify slots position element] at row
  exact List.pairwise_map.mp row

end Slot

end Contractions
