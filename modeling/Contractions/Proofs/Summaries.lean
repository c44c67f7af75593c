/-
# Contractions.Proofs.Summaries — what a summary of combining classes says.

To summarise classes is to keep the least and the greatest of them while going through the list,
starting from 255 and 0.  These stand the wrong way round, so where there are no classes they differ
and the summary is not uniform; and where all classes are 255, or all are 0, the two meet as they
should.

The two values that can be read back, the greatest class and the agreement of all classes, say
everything there is in a summary.  Neither depends on the order of the code points, nor on how often
one is listed.
-/
import Contractions.CombiningClass
import Mathlib.Data.Nat.Bitwise

namespace Contractions

/-! ## Classes are ordered by their numbers -/

instance classMax : Std.LawfulOrderMax UInt8 where
  max_eq_or a b := by
    show (if a ≤ b then b else a) = a ∨ (if a ≤ b then b else a) = b
    split
    · exact Or.inr rfl
    · exact Or.inl rfl
  max_le_iff a b c := by
    show (if a ≤ b then b else a) ≤ c ↔ _
    simp only [UInt8.le_iff_toNat_le]
    split <;> omega

instance classMin : Std.LawfulOrderMin UInt8 where
  min_eq_or a b := by
    show (if a ≤ b then a else b) = a ∨ (if a ≤ b then a else b) = b
    split
    · exact Or.inl rfl
    · exact Or.inr rfl
  le_min_iff a b c := by
    show a ≤ (if b ≤ c then b else c) ↔ _
    simp only [UInt8.le_iff_toNat_le]
    split <;> omega

namespace ClassSummary

/-! ## Reading a summary back -/

section Parts

variable (uniform : Bool) (greatest : UInt8)

/-- A summary put together from its two parts. -/
def ofParts : ClassSummary :=
  ⟨(if uniform then uniformBit else 0) + greatest.toUInt16⟩

/-- The class takes the low eight bits and the mark the one above, so neither runs into the other. -/
theorem toNat_bits_ofParts :
    (ofParts uniform greatest).bits.toNat = (if uniform then 256 else 0) + greatest.toNat := by
  have small : greatest.toNat < 256 := greatest.toNat_lt
  cases uniform with
  | false => simp [ofParts]
  | true =>
    simp only [ofParts, if_true, UInt16.toNat_add, UInt8.toNat_toUInt16]
    show (256 + greatest.toNat) % 2 ^ 16 = 256 + greatest.toNat
    omega

@[simp] theorem maxClass_ofParts : (ofParts uniform greatest).maxClass = greatest := by
  have small : greatest.toNat < 256 := greatest.toNat_lt
  rw [← UInt8.toNat_inj, maxClass, UInt16.toNat_toUInt8, toNat_bits_ofParts]
  split <;> omega

@[simp] theorem isUniform_ofParts : (ofParts uniform greatest).isUniform = uniform := by
  have small : greatest.toNat.testBit 8 = false := Nat.testBit_lt_two_pow greatest.toNat_lt
  have mark : (ofParts uniform greatest).bits.toNat.testBit 8 = uniform := by
    rw [toNat_bits_ofParts]
    cases uniform with
    | false => simpa using small
    | true => simpa [small] using Nat.testBit_two_pow_add_eq greatest.toNat 8
  have masked : ((ofParts uniform greatest).bits &&& uniformBit).toNat = uniform.toNat * 2 ^ 8 := by
    rw [UInt16.toNat_and]
    show _ &&& 2 ^ 8 = _
    rw [Nat.and_two_pow, mark]
  unfold isUniform
  rw [Bool.eq_iff_iff, bne_iff_ne, ne_eq, ← UInt16.toNat_inj, masked]
  cases uniform <;> simp

end Parts

/-! ## The greatest class and the agreement of all -/

/-- Going through the classes comes to their greatest, or 0, beside the mark that says whether their
least, or 255, is the same. -/
theorem ofClasses_eq (classes : List UInt8) :
    ofClasses classes = ofParts (classes.min?.getD 255 = classes.max?.getD 0)
      (classes.max?.getD 0) := by
  have greatest : classes.foldl max 0 = classes.max?.getD 0 := by
    rw [List.foldl_max]
    exact if_pos UInt8.zero_le
  have least : classes.foldl min 255 = classes.min?.getD 255 := by
    rw [List.foldl_min]
    generalize classes.min?.getD 255 = found
    have below : found ≤ 255 := UInt8.le_iff_toNat_le.mpr (Nat.le_of_lt_succ found.toNat_lt)
    show (if 255 ≤ found then 255 else found) = found
    split
    · rename_i above
      exact UInt8.le_antisymm above below
    · rfl
  simp only [ofClasses, ofParts, greatest, least, decide_eq_true_eq]

section Classes

variable {classes : List UInt8}

/-- No class is greater than the greatest. -/
theorem le_maxClass_ofClasses {combiningClass : UInt8} (mem : combiningClass ∈ classes) :
    combiningClass ≤ (ofClasses classes).maxClass := by
  rw [ofClasses_eq, maxClass_ofParts]
  cases known : classes.max? with
  | none =>
    rw [List.max?_eq_none_iff.mp known] at mem
    cases mem
  | some greatest => exact (List.max?_eq_some_iff.mp known).2 _ mem

/-- The greatest class is one of the classes, if there are any. -/
theorem maxClass_ofClasses_mem (some : classes ≠ []) : (ofClasses classes).maxClass ∈ classes := by
  rw [ofClasses_eq, maxClass_ofParts]
  cases known : classes.max? with
  | none => exact absurd (List.max?_eq_none_iff.mp known) some
  | some greatest => exact (List.max?_eq_some_iff.mp known).1

/-- A summary is uniform when there are classes and all of them are the greatest one. -/
theorem isUniform_ofClasses_iff : (ofClasses classes).isUniform = true ↔
    classes ≠ [] ∧ ∀ combiningClass ∈ classes, combiningClass = (ofClasses classes).maxClass := by
  rw [ofClasses_eq, isUniform_ofParts, maxClass_ofParts, decide_eq_true_eq]
  cases low : classes.min? with
  | none => simp [List.min?_eq_none_iff.mp low]
  | some least =>
    obtain ⟨least_mem, least_le⟩ := List.min?_eq_some_iff.mp low
    cases high : classes.max? with
    | none => simp [List.max?_eq_none_iff.mp high] at least_mem
    | some greatest =>
      have le_greatest := (List.max?_eq_some_iff.mp high).2
      simp only [Option.getD_some]
      constructor
      · rintro rfl
        refine ⟨List.ne_nil_of_mem least_mem, fun combiningClass mem => ?_⟩
        exact UInt8.le_antisymm (le_greatest _ mem) (least_le _ mem)
      · exact fun ⟨_, same⟩ => same least least_mem

/-- A summary is put together from what can be read back. -/
theorem ofClasses_eq_ofParts (classes : List UInt8) :
    ofClasses classes = ofParts (ofClasses classes).isUniform (ofClasses classes).maxClass := by
  rw [ofClasses_eq, isUniform_ofParts, maxClass_ofParts]

/-- Which classes there are decides the summary, not their order nor how often each is there. -/
theorem ofClasses_congr {others : List UInt8}
    (same : ∀ combiningClass, combiningClass ∈ others ↔ combiningClass ∈ classes) :
    ofClasses others = ofClasses classes := by
  have empty : others = [] ↔ classes = [] := by
    simp only [List.eq_nil_iff_forall_not_mem, same]
  have maxClass : (ofClasses others).maxClass = (ofClasses classes).maxClass := by
    by_cases none : classes = []
    · rw [none, empty.mpr none]
    · have some : others ≠ [] := fun gone => none (empty.mp gone)
      apply UInt8.le_antisymm
      · exact le_maxClass_ofClasses ((same _).mp (maxClass_ofClasses_mem some))
      · exact le_maxClass_ofClasses ((same _).mpr (maxClass_ofClasses_mem none))
  have uniform : (ofClasses others).isUniform = (ofClasses classes).isUniform := by
    rw [Bool.eq_iff_iff, isUniform_ofClasses_iff, isUniform_ofClasses_iff, maxClass]
    simp only [ne_eq, empty, same]
  rw [ofClasses_eq_ofParts, maxClass, uniform, ← ofClasses_eq_ofParts]

/-! ## Two lists in one -/

section Append

variable {front back : List UInt8} (frontSome : front ≠ []) (backSome : back ≠ [])
include frontSome backSome

theorem maxClass_ofClasses_append : (ofClasses (front ++ back)).maxClass =
    max (ofClasses front).maxClass (ofClasses back).maxClass := by
  have some : front ++ back ≠ [] := by simp [frontSome]
  have frontMem := maxClass_ofClasses_mem frontSome
  have backMem := maxClass_ofClasses_mem backSome
  apply UInt8.le_antisymm
  · rcases List.mem_append.mp (maxClass_ofClasses_mem some) with mem | mem
    · exact UInt8.le_trans (le_maxClass_ofClasses mem) Std.left_le_max
    · exact UInt8.le_trans (le_maxClass_ofClasses mem) Std.right_le_max
  · rw [Std.max_le_iff]
    exact ⟨le_maxClass_ofClasses (List.mem_append_left _ frontMem),
      le_maxClass_ofClasses (List.mem_append_right _ backMem)⟩

theorem isUniform_ofClasses_append : (ofClasses (front ++ back)).isUniform = true ↔
    (ofClasses front).isUniform = true ∧ (ofClasses back).isUniform = true ∧
      (ofClasses front).maxClass = (ofClasses back).maxClass := by
  have some : front ++ back ≠ [] := by simp [frontSome]
  have frontMem := maxClass_ofClasses_mem frontSome
  have backMem := maxClass_ofClasses_mem backSome
  simp only [isUniform_ofClasses_iff, maxClass_ofClasses_append frontSome backSome,
    List.forall_mem_append, ne_eq, some, frontSome, backSome, not_false_eq_true, true_and]
  constructor
  · rintro ⟨inFront, inBack⟩
    -- both greatest classes are among those that agree
    have frontSame := inFront _ frontMem
    have backSame := inBack _ backMem
    refine ⟨fun combiningClass mem => ?_, fun combiningClass mem => ?_, ?_⟩
    · rw [inFront _ mem, ← frontSame]
    · rw [inBack _ mem, ← backSame]
    · rw [frontSame, ← backSame]
  · rintro ⟨inFront, inBack, same⟩
    rw [← same, Std.max_self]
    exact ⟨inFront, fun combiningClass mem => (inBack _ mem).trans same.symm⟩

end Append

end Classes

/-! ## Summaries of code points -/

/-- What a summary of the classes of some code points says.  The greatest class is one of theirs, and
none of theirs is greater; without code points it is 0.  The summary is uniform when there are code
points and all have the same class.  Its bits are these two and nothing else.

It depends on which code points are listed, not on their order nor on how often one is listed.  The
summary of two lists in one follows from the summaries of the two. -/
theorem of_exact (classOf : UInt16 → UInt8) (codePoints : List UInt16) :
    let summary := of classOf codePoints
    (∀ codePoint ∈ codePoints, classOf codePoint ≤ summary.maxClass) ∧
      (codePoints ≠ [] → ∃ codePoint ∈ codePoints, classOf codePoint = summary.maxClass) ∧
      (codePoints = [] → summary.maxClass = 0) ∧
      (summary.isUniform = true ↔ codePoints ≠ [] ∧
        ∀ a ∈ codePoints, ∀ b ∈ codePoints, classOf a = classOf b) ∧
      summary.bits.toNat = (if summary.isUniform then 256 else 0) + summary.maxClass.toNat ∧
      (∀ others, (∀ codePoint, codePoint ∈ others ↔ codePoint ∈ codePoints) →
        of classOf others = summary) ∧
      ∀ others, codePoints ≠ [] → others ≠ [] →
        (of classOf (codePoints ++ others)).maxClass =
            max summary.maxClass (of classOf others).maxClass ∧
          ((of classOf (codePoints ++ others)).isUniform = true ↔
            summary.isUniform = true ∧ (of classOf others).isUniform = true ∧
              summary.maxClass = (of classOf others).maxClass) := by
  intro summary
  have bounded : ∀ codePoint ∈ codePoints, classOf codePoint ≤ summary.maxClass :=
    fun codePoint mem => le_maxClass_ofClasses (List.mem_map_of_mem mem)
  have reached : codePoints ≠ [] → ∃ codePoint ∈ codePoints,
      classOf codePoint = summary.maxClass := by
    intro some
    exact List.mem_map.mp (maxClass_ofClasses_mem (by simpa using some))
  have uniform : summary.isUniform = true ↔ codePoints ≠ [] ∧
      ∀ codePoint ∈ codePoints, classOf codePoint = summary.maxClass := by
    refine isUniform_ofClasses_iff.trans ?_
    rw [List.forall_mem_map, ne_eq, List.map_eq_nil_iff]
    rfl
  refine ⟨bounded, reached, ?_, ?_, ?_, ?_, ?_⟩
  · rintro rfl
    rfl
  · rw [uniform]
    refine and_congr_right fun some => ?_
    obtain ⟨greatest, mem, same⟩ := reached some
    constructor
    · intro all a memA b memB
      rw [all a memA, all b memB]
    · intro agree codePoint memA
      rw [agree codePoint memA greatest mem, same]
  · have parts := congrArg (fun found => found.bits.toNat)
      (ofClasses_eq_ofParts (codePoints.map classOf))
    exact parts.trans (toNat_bits_ofParts _ _)
  · intro others same
    refine ofClasses_congr fun combiningClass => ?_
    simp only [List.mem_map, same]
  · intro others some othersSome
    have front : codePoints.map classOf ≠ [] := by simpa using some
    have back : others.map classOf ≠ [] := by simpa using othersSome
    have split : of classOf (codePoints ++ others) =
        ofClasses (codePoints.map classOf ++ others.map classOf) :=
      congrArg ofClasses List.map_append
    rw [split]
    exact ⟨maxClass_ofClasses_append front back, isUniform_ofClasses_append front back⟩

/-- Only of class 255, and no code point at all: the two starting values do no harm. -/
example : (of (fun _ => 255) [7, 7]).bits = 511 ∧ (of (fun _ => 0) [7]).bits = 256 ∧
    (of (fun _ => 255) []).bits = 0 := by decide

end ClassSummary

end Contractions
