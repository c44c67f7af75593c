/-
# Contractions.Proofs.Shifting — a packed table further on.

The base of a packing is where the caller wants the row to begin, and nothing but that.  Two packings
of one session whose bases lie a distance apart leave tables that lie that distance apart: every offset
is greater by it, the one in a reference too, and all the rest is equal.

`Packed.Shifts` says so about the rows of two packed tables, without a word on how they came about.
That is enough for everything that is asked of them by offset.  The interval search compares only
differences, a slice is cut where its start and its stop lie behind the base, and the scan reads code
points alone; so each of these takes the distance along, at every offset, whether a slice starts there
or not.

Without nodes there is nothing to lay out and the base is not looked at.  Then both packings succeed
and leave the main table as it was, also a reference in it.
-/
import Contractions.Proofs.Likeness
import Contractions.Proofs.PackedForm

namespace Contractions

/-! ## Further on -/

/-- An element further on: the offset in a reference is greater by the distance, and any other element
is the same. -/
def Element.Shifts (distance : Nat) : Element → Element → Prop
  | .direct word, after => after = .direct word
  | .reference offset, after =>
    ∃ target, after = .reference target ∧ target.toNat = offset.toNat + distance

/-- A slot further on has the same code point, be that a summary or not. -/
structure Slot.Shifts (distance : Nat) (before after : Slot) : Prop where
  codePoint_eq : after.codePoint = before.codePoint
  element : before.element.Shifts distance after.element

/-- A row of slots further on, slot by slot. -/
def Slot.RowShifts (distance : Nat) (slots after : Array Slot) : Prop :=
  List.Forall₂ (Slot.Shifts distance) slots.toList after.toList

/-- A packed table further on. -/
structure Packed.Shifts (distance : Nat) (packed after : Packed) : Prop where
  base_eq : after.base = packed.base + distance
  offsets_eq : after.offsets = packed.offsets.map (· + distance)
  slots : Slot.RowShifts distance packed.slots after.slots

/-- A main table that refers to a packed table further on. -/
structure MainTable.Shifts (distance : Nat) (table after : MainTable) : Prop where
  size_eq : after.size = table.size
  element : ∀ codePoint,
    (Element.unpack (table.get codePoint)).Shifts distance (Element.unpack (after.get codePoint))

/-! ## Asking a packed table by offset -/

/-- Where all keys are greater by a distance, the search for a greater key goes the same way. -/
theorem bisectBetween_map_add (items : Array Nat) (distance : Nat) {wanted low high : Nat}
    (bounded : high ≤ items.size) (bounded' : high ≤ (items.map (· + distance)).size) :
    (bisectBetween id (items.map (· + distance)) (wanted + distance) low high bounded').map Fin.val =
      (bisectBetween id items wanted low high bounded).map Fin.val := by
  -- both searches stand on the same item, and what they compare lies the distance apart
  fun_induction bisectBetween id items wanted low high bounded with
  | case1 low high bounded gap middle inside inRange less ih =>
    rw [bisectBetween]
    simp only [gap, Array.getElem_map, id_eq] at less ⊢
    simpa [middle, less] using ih bounded'
  | case2 low high bounded gap middle inside inRange notLess greater ih =>
    rw [bisectBetween]
    simp only [gap, Array.getElem_map, id_eq] at notLess greater ⊢
    simpa [middle, notLess, greater] using ih (by omega)
  | case3 low high bounded gap middle inside inRange notLess notGreater =>
    rw [bisectBetween]
    simp only [gap, Array.getElem_map, id_eq] at notLess notGreater ⊢
    simp [middle, notLess, notGreater]
  | case4 low high bounded noGap =>
    rw [bisectBetween]
    simp [noGap]

theorem bisect_map_add (items : Array Nat) (distance wanted : Nat) :
    (bisect id (items.map (· + distance)) (wanted + distance)).map Fin.val =
      (bisect id items wanted).map Fin.val := by
  have size : items.size ≤ (items.map (· + distance)).size := Nat.le_of_eq Array.size_map.symm
  have same : (bisectBetween id (items.map (· + distance)) (wanted + distance) 0 items.size size).map
      Fin.val = (bisect id items wanted).map Fin.val := bisectBetween_map_add items distance _ size
  simpa only [bisect, Array.size_map] using same

/-- Locating reads no elements, so it stops at the same position further on. -/
theorem Slot.locate_shifts {distance : Nat} {slots after : List Slot}
    (shifts : List.Forall₂ (Slot.Shifts distance) slots after) (codePoint : UInt16) :
    locate codePoint after = locate codePoint slots := by
  induction shifts with
  | nil => rfl
  | cons first _ ih => simp only [locate, first.codePoint_eq, ih]

namespace Packed.Shifts

variable {distance : Nat} {packed after : Packed} (shifts : packed.Shifts distance after)
include shifts

theorem length_eq : after.length = packed.length := shifts.slots.length_eq.symm

/-- The slices are cut at the same places, counted from the base. -/
theorem slice (index : Nat) :
    Option.Rel (Slot.RowShifts distance) (packed.slice index) (after.slice index) := by
  unfold Packed.slice
  have stop : after.offsets[index + 1]?.getD (after.base + after.length) =
      packed.offsets[index + 1]?.getD (packed.base + packed.length) + distance := by
    rw [shifts.offsets_eq, shifts.base_eq, shifts.length_eq, Array.getElem?_map]
    cases packed.offsets[index + 1]? with
    | none =>
      simp only [Option.map_none, Option.getD_none]
      omega
    | some next => rfl
  have start : after.offsets[index]? = packed.offsets[index]?.map (· + distance) := by
    rw [shifts.offsets_eq, Array.getElem?_map]
  simp only [start, stop]
  rw [shifts.base_eq]
  cases packed.offsets[index]? with
  | none => exact .none
  | some offset =>
    refine .some ?_
    unfold Slot.RowShifts
    simp only [Nat.add_sub_add_right, Array.toList_extract, List.extract_eq_take_drop]
    exact List.forall₂_take _ (List.forall₂_drop _ shifts.slots)

/-- An offset shows further on what it showed before. -/
theorem nodeAt (offset : Nat) :
    Option.Rel (Slot.RowShifts distance) (packed.nodeAt offset)
      (after.nodeAt (offset + distance)) := by
  have same : (bisect id after.offsets (offset + distance)).map Fin.val =
      (bisect id packed.offsets offset).map Fin.val := by
    rw [shifts.offsets_eq]
    exact bisect_map_add packed.offsets distance offset
  unfold Packed.nodeAt
  cases found : bisect id packed.offsets offset with
  | none =>
    rw [found, Option.map_none, Option.map_eq_none_iff] at same
    rw [same]
    exact .none
  | some index =>
    rw [found, Option.map_some, Option.map_eq_some_iff] at same
    obtain ⟨later, foundLater, number⟩ := same
    rw [foundLater, Option.bind_some, Option.bind_some, number]
    exact shifts.slice index

/-- The summary stands where a code point stands, so it is the same. -/
theorem summaryAt (offset : Nat) :
    after.summaryAt (offset + distance) = packed.summaryAt offset := by
  refine (bind_eq_of_rel (shifts.nodeAt offset) fun slots later related => ?_).symm
  rw [← Array.getElem?_toList, ← Array.getElem?_toList]
  unfold Slot.RowShifts at related
  generalize slots.toList = front at related
  generalize later.toList = further at related
  cases related with
  | nil => rfl
  | cons first _ => simp only [List.getElem?_cons_zero, Option.map_some, first.codePoint_eq]

/-- A code point has an element further on where it had one before. -/
theorem lookupAt (offset : Nat) (codePoint : UInt16) :
    Option.Rel (Element.Shifts distance) (packed.lookupAt offset codePoint)
      (after.lookupAt (offset + distance) codePoint) := by
  refine bind_rel (shifts.nodeAt offset) fun slots later related => ?_
  have pairs : List.Forall₂ (Slot.Shifts distance) slots.toList.tail later.toList.tail := by
    simpa only [List.drop_one] using List.forall₂_drop 1 related
  simp only [Slot.locate_shifts pairs]
  cases located : Slot.locate codePoint slots.toList.tail with
  | none => exact .none
  | some position =>
    have inRange := Slot.locate_lt located
    have inRangeLater : position < later.toList.tail.length := pairs.length_eq ▸ inRange
    simp only [Option.bind_some, List.getElem?_eq_getElem inRange,
      List.getElem?_eq_getElem inRangeLater, Option.map_some]
    exact .some (pairs.get inRange inRangeLater).element

end Packed.Shifts

/-! ## Offsets further on -/

theorem slotStarts_add (base distance : Nat) (nodes : List Node) :
    slotStarts (base + distance) nodes = (slotStarts base nodes).map (· + distance) := by
  induction nodes generalizing base with
  | nil => rfl
  | cons node nodes ih =>
    rw [slotStarts, slotStarts, List.map_cons, Nat.add_right_comm, ih]

theorem startsOf_add (base distance : Nat) (nodes : List Node) :
    startsOf (base + distance) nodes = (startsOf base nodes).map (· + distance) := by
  rw [startsOf, slotStarts_add, startsOf, List.map_toArray]

section Words

variable {distance : Nat} {offsets : Array Nat}

theorem Element.PointsTo.shifts {payload : UInt32} {element after : Element}
    (points : element.PointsTo offsets payload)
    (pointsLater : after.PointsTo (offsets.map (· + distance)) payload) :
    element.Shifts distance after := by
  obtain ⟨offset, rfl, start⟩ := points
  obtain ⟨target, rfl, later⟩ := pointsLater
  rw [Array.getElem?_map, start, Option.map_some, Option.some.injEq] at later
  exact ⟨target, rfl, later.symm⟩

/-- One word, written for two packings. -/
theorem BecomesWord.shifts {word before after : UInt32} (becomes : BecomesWord offsets word before)
    (becomesLater : BecomesWord (offsets.map (· + distance)) word after) :
    (Element.unpack before).Shifts distance (Element.unpack after) := by
  unfold BecomesWord at becomes becomesLater
  cases read : Element.unpack word with
  | direct other =>
    rw [read] at becomes becomesLater
    rw [show before = word from becomes, show after = word from becomesLater, read]
    rfl
  | reference payload =>
    rw [read] at becomes becomesLater
    exact becomes.shifts becomesLater

/-- A code point that refers to no node has no reference.  An offset that is remembered would have
been read back, as a reference. -/
theorem MainTable.isReferenceWord_of_not_refers {table : MainTable} {memory : Array Relocation}
    {codePoint : UInt16} (other : ∀ payload, ¬ table.Refers memory codePoint payload) :
    Element.isReferenceWord (table.get codePoint) = false := by
  by_cases inRange : codePoint.toNat < table.size
  · have none : table.reference? memory codePoint = none :=
      Option.eq_none_iff_forall_not_mem.mpr fun payload refers => other payload ⟨inRange, refers⟩
    rw [reference?_eq_none_iff] at none
    rcases Relocation.readBack_eq_or memory codePoint (table.get codePoint) with
      same | ⟨payload, -, back⟩
    · rwa [readThrough, same] at none
    · rw [readThrough, back, Element.isReferenceWord_pack_reference] at none
      cases none
  · rw [get_of_size_le (Nat.le_of_not_lt inRange)]
    exact Element.isReferenceWord_pack_notFound

/-- One main table, readdressed by two packings. -/
theorem MainTable.Readdressed.shifts {table near far : MainTable} {memory : Array Relocation}
    (readdressed : table.Readdressed memory offsets near)
    (readdressedLater : table.Readdressed memory (offsets.map (· + distance)) far) :
    near.Shifts distance far where
  size_eq := readdressedLater.size_eq.trans readdressed.size_eq.symm
  element := by
    intro codePoint
    by_cases refers : ∃ payload, table.Refers memory codePoint payload
    · obtain ⟨payload, refers⟩ := refers
      exact (readdressed.referring codePoint payload refers).shifts
        (readdressedLater.referring codePoint payload refers)
    · have other := not_exists.mp refers
      rw [readdressed.untouched codePoint other, readdressedLater.untouched codePoint other,
        Element.unpack_eq_direct (isReferenceWord_of_not_refers other)]
      rfl

end Words

/-! ## Plans further on -/

/-- The summary changes no word, so every word of a slice was in use. -/
theorem Node.word_mem_of_mem_summarized {node : Node} {classOf : UInt16 → UInt8} {slot : Slot}
    (mem : slot ∈ node.summarized classOf) : ∃ inUse ∈ node.logical, inUse.word = slot.word := by
  rcases List.mem_cons.mp mem with rfl | pair
  · exact ⟨node.reserved, List.mem_cons_self, rfl⟩
  · exact ⟨slot, List.mem_cons_of_mem _ pair, rfl⟩

namespace Tailoring

variable {tailoring : Tailoring} {table : MainTable} {base distance : Nat}

/-- What fits further on fits here, and nothing else that may be in the way depends on the base. -/
theorem Packable.nearer (packable : tailoring.Packable table (base + distance)) :
    tailoring.Packable table base where
  fits := by
    intro start mem
    have fits := packable.fits (start + distance)
    rw [slotStarts_add] at fits
    exact Nat.le_trans (Nat.le_add_right start distance) (fits (List.mem_map_of_mem mem))
  granted := packable.granted
  nodes_named := packable.nodes_named
  table_named := packable.table_named

theorem Packable.plan_shifts (packable : tailoring.Packable table (base + distance))
    (classOf : UInt16 → UInt8) :
    (tailoring.plan table base classOf).packed.Shifts distance
      (tailoring.plan table (base + distance) classOf).packed where
  base_eq := rfl
  offsets_eq := startsOf_add base distance _
  slots := by
    -- both rows are one row of slots, moved slot by slot
    simp only [Slot.RowShifts, plan, Node.moved, ← List.map_flatMap]
    rw [List.forall₂_map_left_iff, List.forall₂_map_right_iff, List.forall₂_same]
    intro slot mem
    obtain ⟨node, made, inSlice⟩ := List.mem_flatMap.mp mem
    obtain ⟨inUse, listed, word⟩ := Node.word_mem_of_mem_summarized inSlice
    have near := packable.nearer.becomes_word made listed
    have far := packable.becomes_word made listed
    rw [word, startsOf_add] at far
    rw [word] at near
    refine ⟨rfl, ?_⟩
    show (Element.unpack (moveWord _ slot.word)).Shifts distance
      (Element.unpack (moveWord _ slot.word))
    rw [startsOf_add]
    exact near.shifts far

end Tailoring

/-! ## Two packings of one session -/

namespace Session

/-- Packing is independent of the position.  A packing that succeeds further on succeeds here, with
the same answer.  The two packed tables and the two main tables lie the distance apart, and so does all
that the packed tables answer by offset.  Without nodes there are no tables to compare: neither
packing changes the session.

Nothing is assumed about the session, so it may be packed already, from any base. -/
theorem pack_shifts {session far : Session} {base distance : Nat} {classOf : UInt16 → UInt8}
    {answer : Answer} (succeeds : session.perform (.pack (base + distance) classOf) =
      (.ok answer, far)) :
    ∃ near, session.perform (.pack base classOf) = (.ok answer, near) ∧
      (session.tailoring.nodes = #[] → answer = .count 0 ∧ near = session ∧ far = session) ∧
      (session.tailoring.nodes ≠ #[] → ∃ packed later,
        near.tailoring.packed = some packed ∧ far.tailoring.packed = some later ∧
        answer = .count packed.length ∧ packed.base = base ∧ packed.Shifts distance later ∧
        near.table.Shifts distance far.table ∧
        ∀ offset,
          Option.Rel (Slot.RowShifts distance) (packed.nodeAt offset)
              (later.nodeAt (offset + distance)) ∧
            later.summaryAt (offset + distance) = packed.summaryAt offset ∧
            ∀ codePoint, Option.Rel (Element.Shifts distance) (packed.lookupAt offset codePoint)
              (later.lookupAt (offset + distance) codePoint)) := by
  cases none : session.tailoring.nodes.isEmpty with
  | true =>
    rw [perform_pack_of_isEmpty none] at succeeds
    obtain ⟨rfl, rfl⟩ : .count 0 = answer ∧ session = far := by simpa using succeeds
    refine ⟨session, perform_pack_of_isEmpty none base classOf, fun _ => ⟨rfl, rfl, rfl⟩, ?_⟩
    exact fun some => absurd (Array.isEmpty_iff.mp none) some
  | false =>
    have packable := packable_of_perform_pack none succeeds
    rw [perform_pack_of_packable none packable] at succeeds
    obtain ⟨rfl, rfl⟩ : .count (slotCount session.tailoring.nodes.toList) = answer ∧
        session.laidOut (base + distance) classOf = far := by simpa using succeeds
    have shifts := packable.plan_shifts classOf
    have readdressed := packable.readdressed classOf
    rw [show (session.tailoring.plan _ (base + distance) classOf).packed.offsets = _ from
      shifts.offsets_eq] at readdressed
    have length : (session.tailoring.plan session.table base classOf).packed.length =
        slotCount session.tailoring.nodes.toList := length_flatMap_moved _ _ _
    refine ⟨_, perform_pack_of_packable none packable.nearer classOf, fun empty => ?_, fun _ => ?_⟩
    · rw [empty] at none
      cases none
    · refine ⟨_, _, rfl, rfl, by rw [length], rfl, shifts, ?_, fun offset => ?_⟩
      · exact (packable.nearer.readdressed classOf).shifts readdressed
      · exact ⟨shifts.nodeAt offset, shifts.summaryAt offset, shifts.lookupAt offset⟩

/-- The ring of two nodes, packed from 100 on already, is packed from 10 on and so from 7 on. -/
theorem pack_shifts_ring :
    let session := (ring.perform (.pack 100 fun _ => 0)).2
    ∃ near far packed later, session.perform (.pack (7 + 3) fun _ => 0) = (.ok (.count 4), far) ∧
      session.perform (.pack 7 fun _ => 0) = (.ok (.count 4), near) ∧
      near.tailoring.packed = some packed ∧ far.tailoring.packed = some later ∧
      packed.Shifts 3 later ∧ near.table.Shifts 3 far.table := by
  intro session
  have outcome : (session.perform (.pack (7 + 3) fun _ => 0)).1 = .ok (.count 4) := by
    decide +kernel
  have some : session.tailoring.nodes ≠ #[] := by decide +kernel
  have succeeds : session.perform (.pack (7 + 3) fun _ => 0) = (.ok (.count 4), _) :=
    Prod.ext outcome rfl
  obtain ⟨near, here, -, tables⟩ := pack_shifts succeeds
  obtain ⟨packed, later, there, thereLater, -, -, shifts, written, -⟩ := tables some
  exact ⟨near, _, packed, later, succeeds, here, there, thereLater, shifts, written⟩

/-- Without nodes a reference of the main table is left as it is by either packing, although both
succeed. -/
theorem pack_without_nodes_shifts_nothing :
    let session : Session := { tailoring := .empty default, table := .filled 1 (.reference 5) }
    session.tailoring.Reachable ∧
      session.perform (.pack 0 fun _ => 0) = (.ok (.count 0), session) ∧
      session.perform (.pack (0 + 1) fun _ => 0) = (.ok (.count 0), session) ∧
      ¬ session.table.Shifts 1 session.table := by
  intro session
  have empty : session.tailoring.nodes.isEmpty = true := rfl
  refine ⟨.opened default, perform_pack_of_isEmpty empty _ _, perform_pack_of_isEmpty empty _ _, ?_⟩
  intro shifts
  have read : Element.unpack (session.table.get 0) = .reference 5 := by decide +kernel
  have element := shifts.element 0
  rw [read] at element
  obtain ⟨target, same, further⟩ := element
  rw [← Element.reference.inj same] at further
  exact absurd further (by decide)

end Session

end Contractions
