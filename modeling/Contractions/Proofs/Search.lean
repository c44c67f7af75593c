/-
# Contractions.Proofs.Search — the interval search finds what there is.

`key_of_bisect` says that a found item has the wanted key, on any array.  The converse needs the keys
to ascend strictly: then the half that is dropped cannot hold the wanted key, so an item that has it
stays inside the interval until the search stands on it.  Offsets of packed nodes and remembered code
points are both looked up this way.
-/
import Contractions.Bisect
import Mathlib.Data.List.Pairwise

namespace Contractions

variable {α : Type}

/-- The key of the item at an index. -/
def keyAt (key : α → Nat) (items : Array α) (index : Fin items.size) : Nat :=
  key (getElem items index.val index.isLt)

/-- The keys of an array ascend strictly. -/
def Ascends (key : α → Nat) (items : Array α) : Prop :=
  items.toList.Pairwise fun a b => key a < key b

theorem Ascends.empty (key : α → Nat) : Ascends key #[] := List.Pairwise.nil

theorem Ascends.filter {key : α → Nat} {items : Array α} (ascends : Ascends key items)
    (keep : α → Bool) : Ascends key (items.filter keep) := by
  unfold Ascends
  rw [Array.toList_filter]
  exact List.Pairwise.filter keep ascends

theorem Ascends.key_lt {key : α → Nat} {items : Array α} (ascends : Ascends key items)
    {i j : Fin items.size} (before : i < j) : keyAt key items i < keyAt key items j := by
  have pairs := List.pairwise_iff_getElem.mp ascends
  exact pairs i j i.isLt j.isLt before

/-- Strict ascent leaves no room for two items with one key. -/
theorem Ascends.key_inj {key : α → Nat} {items : Array α} (ascends : Ascends key items)
    {i j : Fin items.size} (same : keyAt key items i = keyAt key items j) : i = j := by
  rcases Nat.lt_trichotomy i j with before | equal | behind
  · exact absurd same (Nat.ne_of_lt (ascends.key_lt before))
  · exact Fin.ext equal
  · exact absurd same (Nat.ne_of_gt (ascends.key_lt behind))

/-- The invariant of the search is that the item lies between `low` and `high`. -/
theorem bisectBetween_of_key {key : α → Nat} {items : Array α} {wanted low high : Nat}
    {bounded : high ≤ items.size} (ascends : Ascends key items) {target : Fin items.size}
    (hit : keyAt key items target = wanted) (above : low ≤ target.val) (below : target.val < high) :
    bisectBetween key items wanted low high bounded = some target := by
  fun_induction bisectBetween key items wanted low high bounded with
  | case1 low high bounded gap middle inside inRange less ih =>
    -- the middle item is too small, so the target stands behind it
    refine ih ?_ below
    by_contra notBehind
    have small : keyAt key items ⟨middle, inRange⟩ < wanted := less
    rcases Nat.lt_or_eq_of_le (show target.val ≤ middle by omega) with before | equal
    · have := ascends.key_lt (show target < ⟨middle, inRange⟩ from before)
      omega
    · rw [show (⟨middle, inRange⟩ : Fin items.size) = target from Fin.ext equal.symm] at small
      omega
  | case2 low high bounded gap middle inside inRange notLess greater ih =>
    refine ih above ?_
    by_contra notBefore
    have great : wanted < keyAt key items ⟨middle, inRange⟩ := greater
    rcases Nat.lt_or_eq_of_le (show middle ≤ target.val by omega) with before | equal
    · have := ascends.key_lt (show ⟨middle, inRange⟩ < target from before)
      omega
    · rw [show (⟨middle, inRange⟩ : Fin items.size) = target from Fin.ext equal] at great
      omega
  | case3 low high bounded gap middle inside inRange notLess notGreater =>
    -- the search stands on an item with the wanted key, and there is only one
    have low_le : ¬ keyAt key items ⟨middle, inRange⟩ < wanted := notLess
    have le_high : ¬ wanted < keyAt key items ⟨middle, inRange⟩ := notGreater
    congr 1
    apply ascends.key_inj
    omega
  | case4 low high bounded noGap => omega

/-- On a strictly ascending array the search finds exactly the item with the wanted key. -/
theorem bisect_eq_some_iff {key : α → Nat} {items : Array α} (ascends : Ascends key items)
    {wanted : Nat} {found : Fin items.size} :
    bisect key items wanted = some found ↔ keyAt key items found = wanted := by
  constructor
  · exact key_of_bisect
  · intro hit
    exact bisectBetween_of_key ascends hit (Nat.zero_le _) found.isLt

/-- It finds nothing exactly when no item has the key. -/
theorem bisect_eq_none_iff {key : α → Nat} {items : Array α} (ascends : Ascends key items)
    {wanted : Nat} : bisect key items wanted = none ↔ ∀ item ∈ items, key item ≠ wanted := by
  constructor
  · intro missed item mem hit
    obtain ⟨index, inRange, rfl⟩ := Array.mem_iff_getElem.mp mem
    have located : bisect key items wanted = some ⟨index, inRange⟩ :=
      (bisect_eq_some_iff ascends).mpr hit
    rw [missed] at located
    cases located
  · intro absent
    cases found : bisect key items wanted with
    | none => rfl
    | some index => exact absurd (key_of_bisect found) (absent _ (Array.getElem_mem index.isLt))

end Contractions
