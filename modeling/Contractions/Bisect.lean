/-
# Contractions.Bisect — finding an item by its key in an ascending array.

Keys are natural numbers and ascend strictly along the array, so at most one item has the wanted
key.  The search keeps the half of its interval in which that item must lie.
-/

namespace Contractions

variable {α : Type}

/-- The position of the item with the wanted key among those from `low` up to, not including,
`high`. -/
def bisectBetween (key : α → Nat) (items : Array α) (wanted low high : Nat)
    (bounded : high ≤ items.size) : Option (Fin items.size) :=
  if gap : low < high then
    let middle := low + (high - low) / 2
    have inside : middle < high := by omega
    have below : middle < items.size := by omega
    if key items[middle] < wanted then
      bisectBetween key items wanted (middle + 1) high bounded
    else if wanted < key items[middle] then
      bisectBetween key items wanted low middle (by omega)
    else
      some ⟨middle, below⟩
  else
    none
termination_by high - low

/-- The position of the item with the wanted key in an ascending array. -/
def bisect (key : α → Nat) (items : Array α) (wanted : Nat) : Option (Fin items.size) :=
  bisectBetween key items wanted 0 items.size (Nat.le_refl _)

/-- A found item has the wanted key, whether or not the keys ascend. -/
theorem key_of_bisectBetween {key : α → Nat} {items : Array α} {wanted low high : Nat}
    {bounded : high ≤ items.size} {found : Fin items.size}
    (h : bisectBetween key items wanted low high bounded = some found) :
    key items[found] = wanted := by
  fun_induction bisectBetween key items wanted low high bounded with
  | case1 _ _ _ _ _ _ _ _ ih => exact ih h
  | case2 _ _ _ _ _ _ _ _ _ ih => exact ih h
  | case3 low high bounded gap middle inside below notLess notGreater =>
    simp only [Option.some.injEq] at h
    subst h
    simp only [Fin.getElem_fin]
    omega
  | case4 => simp at h

theorem key_of_bisect {key : α → Nat} {items : Array α} {wanted : Nat} {found : Fin items.size}
    (h : bisect key items wanted = some found) : key items[found] = wanted :=
  key_of_bisectBetween h

end Contractions
