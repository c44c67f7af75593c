/-
# Contractions.Proofs.Finding — what the scan finds, in whatever order the pairs stand.

The scan for a code point goes through the pairs from the front and gives up at the first greater
one.  So it finds the code point at a slot exactly if the code points of all pairs in front are
smaller, and then it is listed there for the first time.  The reserved slot and the slots that are
not in use have no part in this, whatever they hold.

Where code points never decrease nothing is missed.  They need not ascend for that, though: the scan
finds every code point that is listed exactly if each of them, where it is listed for the first
time, exceeds all that stand in front of it.
-/
import Mathlib.Data.Nat.Find
import Contractions.Proofs.Doubling

namespace Contractions

namespace Row

/-- A code point stands at a position, and whatever stands in front of it is smaller. -/
def Tops (items : List UInt16) (codePoint : UInt16) (position : Nat) : Prop :=
  items[position]? = some codePoint ∧
    ∀ before < position, ∀ stored, items[before]? = some stored → stored < codePoint

variable {codePoint stored : UInt16} {rest : List UInt16} {position : Nat}

@[simp] theorem tops_cons_zero : Tops (stored :: rest) codePoint 0 ↔ stored = codePoint := by
  simp [Tops]

@[simp] theorem tops_cons_succ : Tops (stored :: rest) codePoint (position + 1) ↔
    stored < codePoint ∧ Tops rest codePoint position := by
  constructor
  · rintro ⟨here, smaller⟩
    refine ⟨smaller 0 (Nat.succ_pos _) stored rfl, here, fun before inFront other there => ?_⟩
    exact smaller (before + 1) (Nat.succ_lt_succ inFront) other there
  · rintro ⟨less, here, smaller⟩
    refine ⟨here, fun before inFront other there => ?_⟩
    cases before with
    | zero =>
      obtain rfl := Option.some.inj there
      exact less
    | succ before => exact smaller before (Nat.lt_of_succ_lt_succ inFront) other there

/-- The scan passes over smaller code points and stops at anything else. -/
theorem scan_eq_some_iff {items : List UInt16} {place found : Nat} :
    scan codePoint place items = some found ↔
      ∃ position, found = position + place ∧ Tops items codePoint position := by
  induction items generalizing place with
  | nil => simp [scan, Tops]
  | cons stored rest ih =>
    rw [← Nat.or_exists_add_one]
    simp only [tops_cons_zero, tops_cons_succ]
    unfold scan
    split
    · -- a smaller one is passed over
      rename_i less
      have different : stored ≠ codePoint := fun same => UInt16.lt_irrefl _ (same ▸ less)
      simp only [ih, less, different, and_false, false_or, true_and, Nat.add_assoc,
        Nat.add_comm 1 place]
    · rename_i notLess
      simp only [notLess, false_and, and_false, exists_false, or_false, Nat.zero_add]
      split
      · rename_i same
        simp only [same, and_true, Option.some.injEq, eq_comm]
      · rename_i different
        simp only [different, and_false, reduceCtorEq]

end Row

namespace Rows

variable {rows : Rows} {codePoint : UInt16} {slot : Nat}

/-- A pair lists a code point: its slot is in use and is not the reserved one. -/
structure ListedAt (rows : Rows) (slot : Nat) (codePoint : UInt16) : Prop where
  pos : 1 ≤ slot
  inUse : slot < rows.used
  holds : rows.codePoints[slot]? = some codePoint

/-- The pair is the first one that lists the code point. -/
def FirstAt (rows : Rows) (slot : Nat) (codePoint : UInt16) : Prop :=
  rows.ListedAt slot codePoint ∧ ∀ before < slot, ¬ rows.ListedAt before codePoint

/-- The pairs in front of a slot list smaller code points only. -/
def Exceeds (rows : Rows) (slot : Nat) (codePoint : UInt16) : Prop :=
  ∀ before < slot, ∀ stored, rows.ListedAt before stored → stored < codePoint

/-- Code points never decrease from pair to pair. -/
def NeverDecreases (rows : Rows) : Prop :=
  ∀ slot stored, rows.ListedAt slot stored → ∀ before < slot, ∀ earlier,
    rows.ListedAt before earlier → earlier ≤ stored

/-! ## The scan -/

/-- Behind the reserved slot the places in use are those of the pairs. -/
theorem listedAt_succ_iff {position : Nat} : rows.ListedAt (position + 1) codePoint ↔
    (rows.codePoints.take rows.used).tail[position]? = some codePoint := by
  rw [List.getElem?_tail, List.getElem?_take]
  split
  · rename_i inUse
    exact ⟨ListedAt.holds, fun holds => ⟨Nat.succ_pos _, inUse, holds⟩⟩
  · rename_i behind
    exact ⟨fun listed => absurd listed.inUse behind, nofun⟩

theorem tops_iff_exceeds {position : Nat} :
    Row.Tops (rows.codePoints.take rows.used).tail codePoint position ↔
      rows.ListedAt (position + 1) codePoint ∧ rows.Exceeds (position + 1) codePoint := by
  unfold Row.Tops Exceeds
  simp only [← listedAt_succ_iff]
  refine and_congr_right fun _ => ⟨fun smaller before inFront stored listed => ?_, ?_⟩
  · obtain ⟨place, rfl⟩ := Nat.exists_eq_add_of_le' listed.pos
    exact smaller place (Nat.lt_of_succ_lt_succ inFront) stored listed
  · intro smaller before inFront
    exact smaller (before + 1) (Nat.succ_lt_succ inFront)

/-- The scan stays within the rows, so there is always an outcome. -/
theorem find_eq_scan (sound : rows.Sound) (codePoint : UInt16) :
    rows.find codePoint =
      some (Row.scan codePoint 1 (rows.codePoints.take rows.used).tail) := by
  unfold find codePointsInUse Row.front
  rw [if_pos sound.within]
  rfl

theorem find_eq_none_iff (sound : rows.Sound) :
    rows.find codePoint = some none ↔ ∀ slot, rows.find codePoint ≠ some (some slot) := by
  simp only [find_eq_scan sound, Option.some.injEq, Option.eq_none_iff_forall_ne_some, ne_eq]

theorem find_eq_some_iff (sound : rows.Sound) :
    rows.find codePoint = some (some slot) ↔
      rows.ListedAt slot codePoint ∧ rows.Exceeds slot codePoint := by
  rw [find_eq_scan sound, Option.some.injEq, Row.scan_eq_some_iff]
  simp only [tops_iff_exceeds]
  constructor
  · rintro ⟨position, rfl, found⟩
    exact found
  · rintro ⟨listed, exceeds⟩
    obtain ⟨position, rfl⟩ := Nat.exists_eq_add_of_le' listed.pos
    exact ⟨position, rfl, listed, exceeds⟩

/-! ## First occurrences -/

/-- What is listed is listed somewhere for the first time. -/
theorem ListedAt.exists_firstAt (listed : rows.ListedAt slot codePoint) :
    ∃ first, rows.FirstAt first codePoint := by
  classical
  have somewhere : ∃ first, rows.ListedAt first codePoint := ⟨slot, listed⟩
  exact ⟨Nat.find somewhere, Nat.find_spec somewhere, fun before => Nat.find_min somewhere⟩

/-- A code point that exceeds all in front of it is not listed there. -/
theorem Exceeds.firstAt (exceeds : rows.Exceeds slot codePoint)
    (listed : rows.ListedAt slot codePoint) : rows.FirstAt slot codePoint :=
  ⟨listed, fun before inFront earlier => UInt16.lt_irrefl _ (exceeds before inFront _ earlier)⟩

theorem FirstAt.unique {other : Nat} (first : rows.FirstAt slot codePoint)
    (firstToo : rows.FirstAt other codePoint) : slot = other := by
  rcases Nat.lt_trichotomy slot other with before | same | behind
  · exact absurd first.1 (firstToo.2 slot before)
  · exact same
  · exact absurd firstToo.1 (first.2 other behind)

theorem FirstAt.exceeds_of_neverDecreases (ascending : rows.NeverDecreases)
    (first : rows.FirstAt slot codePoint) : rows.Exceeds slot codePoint := by
  intro before inFront stored earlier
  refine UInt16.lt_of_le_of_ne (ascending slot codePoint first.1 before inFront stored earlier) ?_
  rintro rfl
  exact first.2 before inFront earlier

/-- Where a code point is listed, it is found exactly if it exceeds, where it is listed for the
first time, all that stand in front of it. -/
theorem FirstAt.find_iff (sound : rows.Sound) (first : rows.FirstAt slot codePoint) :
    (∃ found, rows.find codePoint = some (some found)) ↔ rows.Exceeds slot codePoint := by
  constructor
  · rintro ⟨found, finds⟩
    obtain ⟨listed, exceeds⟩ := (find_eq_some_iff sound).mp finds
    rwa [first.unique (exceeds.firstAt listed)]
  · exact fun exceeds => ⟨slot, (find_eq_some_iff sound).mpr ⟨first.1, exceeds⟩⟩

/-! ## What is found and what is missed -/

/-- What the scan finds in rows that are alike and in use from the front, whatever stands in them.
It finds a code point at a slot exactly if it is listed there and exceeds all that stand in front,
and it is listed there for the first time; in any other case it finds nothing.  On code points that
never decrease it misses none.  It misses none at all exactly if each code point exceeds, where it
is listed for the first time, all that stand in front of it. -/
theorem find_exact (sound : rows.Sound) :
    (∀ codePoint,
      (∀ slot, rows.find codePoint = some (some slot) ↔
        rows.ListedAt slot codePoint ∧ rows.Exceeds slot codePoint) ∧
      (rows.find codePoint = some none ↔
        ∀ slot, ¬ (rows.ListedAt slot codePoint ∧ rows.Exceeds slot codePoint)) ∧
      ∀ slot, rows.find codePoint = some (some slot) → rows.FirstAt slot codePoint) ∧
    (rows.NeverDecreases → ∀ codePoint,
      rows.find codePoint = some none ↔ ∀ slot, ¬ rows.ListedAt slot codePoint) ∧
    ((∀ slot codePoint, rows.ListedAt slot codePoint →
        ∃ found, rows.find codePoint = some (some found)) ↔
      ∀ slot codePoint, rows.FirstAt slot codePoint → rows.Exceeds slot codePoint) := by
  refine ⟨fun codePoint => ⟨fun slot => find_eq_some_iff sound, ?_, ?_⟩, ?_, ?_, ?_⟩
  · simp only [find_eq_none_iff sound, ne_eq, find_eq_some_iff sound]
  · intro slot finds
    obtain ⟨listed, exceeds⟩ := (find_eq_some_iff sound).mp finds
    exact exceeds.firstAt listed
  · intro ascending codePoint
    rw [find_eq_none_iff sound]
    constructor
    · intro missed slot listed
      obtain ⟨first, isFirst⟩ := listed.exists_firstAt
      obtain ⟨found, finds⟩ :=
        (isFirst.find_iff sound).mpr (isFirst.exceeds_of_neverDecreases ascending)
      exact missed found finds
    · intro absent slot finds
      exact absent slot ((find_eq_some_iff sound).mp finds).1
  · intro finds slot codePoint first
    exact (first.find_iff sound).mp (finds slot codePoint first.1)
  · intro exceeds slot codePoint listed
    obtain ⟨first, isFirst⟩ := listed.exists_firstAt
    exact (isFirst.find_iff sound).mpr (exceeds first codePoint isFirst)

/-- Rows with a place that is not in use and pairs that are not in order.  The code point 4 is
listed behind a greater one and is missed.  The code point 5 stands in the place that is not in use,
so it is not listed and is not found. -/
theorem find_exact_unsorted :
    let rows : Rows :=
      { codePoints := [0, 3, 3, 9, 4, 5], words := [70, 71, 72, 73, 74, 75], used := 5 }
    rows.Sound ∧ rows.FirstAt 1 3 ∧ rows.ListedAt 4 4 ∧ rows.find 4 = some none ∧
      ¬ rows.Exceeds 4 4 ∧ ∀ slot, ¬ (rows.ListedAt slot 5 ∧ rows.Exceeds slot 5) := by
  intro rows
  have sound : rows.Sound := ⟨rfl, by decide, by decide⟩
  have listed : rows.ListedAt 4 4 := ⟨by decide, by decide, rfl⟩
  obtain ⟨each, -, -⟩ := find_exact sound
  obtain ⟨-, -, first⟩ := each 3
  obtain ⟨finds, -, -⟩ := each 4
  obtain ⟨-, misses, -⟩ := each 5
  have missed : rows.find 4 = some none := by decide
  refine ⟨sound, first 1 (by decide), listed, missed, fun exceeds => ?_, misses.mp (by decide)⟩
  have found := (finds 4).mpr ⟨listed, exceeds⟩
  rw [missed] at found
  cases found

end Rows

end Contractions
