/-
# Contractions.Proofs.StoredRows — no access to the rows of a node goes astray.

The operations on `Rows` check every place and every range, and have no outcome where one lies
outside.  On the stored form of a node this never happens: each operation has an outcome, and it is
the stored form of what the operation on the node comes to.  `Node.Stored` says so operation by
operation, and `Node.stored` proves it for every node.

The one operation with an argument in it is sorted insertion.  The place it looks for splits the
pairs where the recursion of `Slot.insertSorted` stops; the slots from there on are moved up by one
in either row, over the first spare slot, which the node has by then because it grew.
-/
import Contractions.Node.Rows
import Contractions.Proofs.Edits

namespace Contractions

/-! ## Single rows -/

namespace Row

variable {α : Type}

theorem put_of_lt {row : List α} {place : Nat} (inside : place < row.length) (item : α) :
    put row place item = some (row.set place item) := if_pos inside

theorem front_append (row rest : List α) : front (row ++ rest) row.length = some row := by
  unfold front
  rw [if_pos (by simp), List.take_left]

theorem resize_of_length {row : List α} {size : Nat} (length : row.length = size) (fill : α) :
    resize row (2 * size) fill = row ++ List.replicate size fill := by
  unfold resize
  rw [List.take_of_length_le (by omega), length, show 2 * size - size = size by omega]

/-- To move a middle part up by one place, and to fill the gap, puts an item in front of that part and
drops the one behind it. -/
theorem put_shift (before middle : List α) (last : α) (rest : List α) (item : α) :
    ((shift (before ++ (middle ++ last :: rest)) before.length (before.length + middle.length)).bind
        fun shifted => put shifted before.length item) =
      some (before ++ item :: (middle ++ rest)) := by
  have inside : before.length ≤ before.length + middle.length ∧
      before.length + middle.length < (before ++ (middle ++ last :: rest)).length := by
    simp only [List.length_append, List.length_cons]
    omega
  -- the row has an item where the gap is going to be
  obtain ⟨first, others, split⟩ : ∃ first others, middle ++ last :: rest = first :: others := by
    cases middle with
    | nil => exact ⟨last, rest, rfl⟩
    | cons first tail => exact ⟨first, tail ++ last :: rest, rfl⟩
  have kept : (before ++ (middle ++ last :: rest)).take (before.length + 1) = before ++ [first] := by
    rw [split, List.take_length_add_append, List.take_succ_cons, List.take_zero]
  have moved : ((before ++ (middle ++ last :: rest)).take (before.length + middle.length)).drop
      before.length = middle := by
    rw [List.take_length_add_append, List.take_left, List.drop_left]
  have behind : (before ++ (middle ++ last :: rest)).drop (before.length + middle.length + 1) =
      rest := by
    rw [Nat.add_assoc, List.drop_length_add_append, List.drop_length_add_append,
      List.drop_succ_cons, List.drop_zero]
  unfold shift
  rw [if_pos inside, Option.bind_some, kept, moved, behind,
    put_of_lt (by simp only [List.length_append, List.length_cons]; omega)]
  simp

/-- The search for the first code point that is not smaller stops behind those that are. -/
theorem firstFrom_eq (codePoint : UInt16) (before items behind : List UInt16) :
    (firstFrom (before ++ (items ++ behind)) codePoint before.length items.length).map
        (·.getD (before.length + items.length)) =
      some (before.length + (items.takeWhile (· < codePoint)).length) := by
  induction items generalizing before with
  | nil => rfl
  | cons stored rest ih =>
    have here : (before ++ (stored :: rest ++ behind))[before.length]? = some stored := by simp
    rw [List.length_cons, firstFrom, here]
    by_cases notSmaller : codePoint ≤ stored
    · have stops : ¬ stored < codePoint := UInt16.not_lt.mpr notSmaller
      simp [notSmaller, stops]
    · have passes : stored < codePoint := UInt16.not_le.mp notSmaller
      have later := ih (before ++ [stored])
      simp only [List.length_append, List.length_cons, List.length_nil, List.append_assoc,
        List.cons_append, List.nil_append, Nat.zero_add] at later
      simp only [Option.bind_eq_bind, Option.bind_some, notSmaller, if_false, List.cons_append,
        List.takeWhile_cons, passes, decide_true, if_true, List.length_cons]
      rw [show before.length + (rest.length + 1) = before.length + 1 + rest.length by omega, later,
        show before.length + 1 + (rest.takeWhile (· < codePoint)).length =
          before.length + ((rest.takeWhile (· < codePoint)).length + 1) by omega]

/-- Scanning code points is locating in the slots that have them, counted from another place. -/
theorem scan_eq (codePoint : UInt16) (place : Nat) (slots : List Slot) :
    scan codePoint place (slots.map Slot.codePoint) =
      (Slot.locate codePoint slots).map (· + place) := by
  induction slots generalizing place with
  | nil => rfl
  | cons slot rest ih =>
    rw [List.map_cons, scan, Slot.locate, ih]
    split
    · rw [Option.map_map]
      refine congrArg (Option.map · _) (funext fun position => ?_)
      show position + (place + 1) = position + 1 + place
      omega
    · split
      · rw [Option.map_some, Nat.zero_add]
      · rfl

end Row

/-- Sorted insertion splits the row behind the slots with smaller code points. -/
theorem Slot.insertSorted_eq (new : Slot) (slots : List Slot) :
    insertSorted new slots =
      slots.takeWhile (·.codePoint < new.codePoint) ++
        new :: slots.dropWhile (·.codePoint < new.codePoint) := by
  induction slots with
  | nil => rfl
  | cons slot rest ih =>
    by_cases less : slot.codePoint < new.codePoint
    · simp [insertSorted, less, ih]
    · simp [insertSorted, less]

theorem Slot.map_word_modify (slots : List Slot) (position : Nat) (element : Element) :
    (slots.modify position (·.withElement element)).map Slot.word =
      (slots.map Slot.word).set position element.pack := by
  induction slots generalizing position with
  | nil => rw [List.modify_nil, List.map_nil, List.set_nil]
  | cons slot rest ih =>
    cases position with
    | zero => rfl
    | succ position =>
      rw [List.modify_succ_cons, List.map_cons, ih, List.map_cons, List.set_cons_succ]

namespace Node

variable {node grown : Node}

@[simp] theorem length_codePoints_rows (node : Node) :
    node.rows.codePoints.length = node.capacity := by
  simp [rows]

@[simp] theorem length_words_rows (node : Node) : node.rows.words.length = node.capacity := by
  simp [rows]

@[simp] theorem used_rows (node : Node) : node.rows.used = node.length := rfl

/-- The row of code points: those in use, and then the spare ones. -/
theorem codePoints_rows (node : Node) :
    node.rows.codePoints =
      node.logical.map Slot.codePoint ++ node.spare.map Slot.codePoint := by
  simp [rows, slots]

theorem words_rows (node : Node) :
    node.rows.words = node.logical.map Slot.word ++ node.spare.map Slot.word := by
  simp [rows, slots]

/-! ## Writes that need no room -/

theorem put_rows {place : Nat} (inside : place < node.capacity) (slot : Slot) :
    node.rows.put place slot = some (node.put place slot).rows := by
  unfold Rows.put
  rw [Row.put_of_lt (by rwa [length_codePoints_rows]), Row.put_of_lt (by rwa [length_words_rows])]
  simp only [Option.bind_eq_bind, Option.bind_some, rows, slots_put, length_put, List.map_set]
  rfl

theorem putWord_rows {place : Nat} (inUse : place < node.length) (element : Element) :
    node.rows.putWord place element.pack = some (node.setElement place element).rows := by
  have inside := Nat.lt_of_lt_of_le inUse node.length_le_capacity
  have spare : (node.setElement place element).spare = node.spare := by
    cases place <;> rfl
  have codePoints : (node.setElement place element).rows.codePoints = node.rows.codePoints := by
    rw [codePoints_rows, codePoints_rows, logical_setElement, Slot.map_codePoint_modify, spare]
  have words : (node.setElement place element).rows.words =
      node.rows.words.set place element.pack := by
    rw [words_rows, words_rows, logical_setElement, Slot.map_word_modify, spare,
      List.set_append_left _ _ (by rwa [List.length_map, length_logical])]
  have used : (node.setElement place element).rows.used = node.rows.used :=
    length_setElement node place element
  unfold Rows.putWord
  rw [Row.put_of_lt (by rwa [length_words_rows]), ← words, ← used, ← codePoints]
  rfl

theorem setElement_rows {place : Nat} (inUse : place < node.length) (element : Element) :
    node.rows.setElement place element = some (node.setElement place element).rows := by
  unfold Rows.setElement
  rw [used_rows, if_pos inUse, putWord_rows inUse]

/-! ## Growing -/

theorem grow_rows (node : Node) : node.rows.grow = node.grow.map Node.rows := by
  unfold Rows.grow Node.grow
  simp only [used_rows, length_codePoints_rows]
  cases spare : node.spare with
  | cons slot rest =>
    have free : node.length < node.capacity := by simp [capacity, spare]
    simp only [free, if_true, List.isEmpty_cons, Bool.false_eq_true, if_false]
    rfl
  | nil =>
    have full : ¬ node.length < node.capacity := by simp [capacity, spare]
    simp only [full, if_false, List.isEmpty_nil, if_true]
    split
    · simp only [Row.resize_of_length (node.length_codePoints_rows) _,
        Row.resize_of_length (node.length_words_rows) _]
      simp [rows, slots, spare, Except.map, logical, length]
    · rfl

/-- A node that made sure of a spare slot has one. -/
theorem spare_of_grow (grows : node.grow = .ok grown) : ∃ slot rest, grown.spare = slot :: rest := by
  unfold grow at grows
  split at grows
  · split at grows
    · cases grows
      refine List.exists_cons_of_length_pos ?_
      rw [List.length_replicate]
      exact Nat.lt_of_lt_of_le node.length_pos node.length_le_capacity
    · cases grows
  · rename_i free
    cases grows
    exact List.exists_cons_of_ne_nil fun none => free (List.isEmpty_iff.mpr none)

theorem growThen_rows {next : Rows → Option Rows} {change : Node → Node}
    (step : ∀ grown, node.grow = .ok grown → next grown.rows = some (change grown).rows) :
    node.rows.growThen next = some ((node.grow.map change).map Node.rows) := by
  unfold Rows.growThen
  rw [grow_rows]
  cases grows : node.grow with
  | error fault => rfl
  | ok grown =>
    simp only [Except.map, step grown grows]
    rfl

/-! ## Writes that need one more slot -/

theorem append_rows (node : Node) (slot : Slot) :
    node.rows.append slot = some ((node.append slot).map Node.rows) := by
  refine growThen_rows fun grown grows => ?_
  obtain ⟨first, rest, spare⟩ := spare_of_grow grows
  have inside : grown.length < grown.capacity := by simp [capacity, spare]
  have put : (grown.put grown.length slot).slots = grown.logical ++ slot :: rest := by
    rw [slots_put, slots, spare, ← length_logical, List.set_append_right _ _ (Nat.le_refl _),
      Nat.sub_self, List.set_cons_zero]
  rw [used_rows, put_rows inside, Option.bind_eq_bind, Option.bind_some]
  simp only [rows, put]
  simp [slots, logical, spare, length]

/-- The slots that stay in front of a pair inserted for a code point: the reserved one, and the pairs
with smaller code points. -/
def inFront (node : Node) (codePoint : UInt16) : List Slot :=
  node.reserved :: node.pairs.takeWhile (·.codePoint < codePoint)

/-- The pairs that move up for it. -/
def movedUp (node : Node) (codePoint : UInt16) : List Slot :=
  node.pairs.dropWhile (·.codePoint < codePoint)

theorem inFront_append_movedUp (node : Node) (codePoint : UInt16) :
    node.inFront codePoint ++ node.movedUp codePoint = node.logical := by
  rw [inFront, movedUp, List.cons_append, List.takeWhile_append_dropWhile]
  rfl

/-- The search stops behind the slots that stay in front. -/
theorem firstFrom_rows (node : Node) (codePoint : UInt16) :
    (Row.firstFrom node.rows.codePoints codePoint 1 (node.rows.used - 1)).map
        (·.getD node.rows.used) = some (node.inFront codePoint).length := by
  have found := Row.firstFrom_eq codePoint [node.reserved.codePoint]
    (node.pairs.map Slot.codePoint) (node.spare.map Slot.codePoint)
  have used : node.rows.used = (node.pairs.map Slot.codePoint).length + 1 := by
    rw [used_rows, Node.length, List.length_map]
  rw [codePoints_rows, used, Nat.add_sub_cancel, Nat.add_comm]
  refine found.trans ?_
  rw [List.takeWhile_map, List.length_map, List.length_singleton, Nat.add_comm]
  rfl

/-- In either row, moving up and filling the gap comes to the row of the node with the slot inserted
and one spare slot less. -/
theorem shift_put_slots {node : Node} {first : Slot} {rest : List Slot}
    (spare : node.spare = first :: rest) (slot : Slot) {β : Type} (part : Slot → β) :
    ((Row.shift (node.slots.map part) (node.inFront slot.codePoint).length node.length).bind
        fun shifted => Row.put shifted (node.inFront slot.codePoint).length (part slot)) =
      some (({ node with
        pairs := Slot.insertSorted slot node.pairs
        spare := node.spare.tail } : Node).slots.map part) := by
  have split := node.inFront_append_movedUp slot.codePoint
  have before : node.slots.map part = (node.inFront slot.codePoint).map part ++
      ((node.movedUp slot.codePoint).map part ++ part first :: rest.map part) := by
    rw [slots, ← split, spare]
    simp
  have length : node.length = ((node.inFront slot.codePoint).map part).length +
      ((node.movedUp slot.codePoint).map part).length := by
    rw [List.length_map, List.length_map, ← List.length_append, split, length_logical]
  have after : ({ node with
      pairs := Slot.insertSorted slot node.pairs
      spare := node.spare.tail } : Node).slots.map part =
      (node.inFront slot.codePoint).map part ++
        part slot :: ((node.movedUp slot.codePoint).map part ++ rest.map part) := by
    rw [slots, logical, Slot.insertSorted_eq, spare]
    simp [inFront, movedUp]
  rw [before, length, after, ← List.length_map (f := part)]
  exact Row.put_shift _ _ _ _ _

theorem insert_rows (node : Node) (slot : Slot) :
    node.rows.insert slot = some ((node.insert slot).map Node.rows) := by
  refine growThen_rows fun grown grows => ?_
  obtain ⟨first, rest, spare⟩ := spare_of_grow grows
  obtain ⟨found, known, place⟩ :=
    Option.map_eq_some_iff.mp (grown.firstFrom_rows slot.codePoint)
  obtain ⟨codePoints, shifted, stored⟩ :=
    Option.bind_eq_some_iff.mp (shift_put_slots spare slot Slot.codePoint)
  obtain ⟨words, shifted', stored'⟩ :=
    Option.bind_eq_some_iff.mp (shift_put_slots spare slot Slot.word)
  rw [known, Option.bind_eq_bind, Option.bind_some, place]
  simp only [Option.bind_eq_bind, rows, shifted, shifted', stored, stored', Rows.put,
    Option.bind_some]
  simp [Node.length]

theorem apply_rows (node : Node) (edit : Edit) :
    node.rows.apply edit = some ((node.apply edit).map Node.rows) := by
  cases edit with
  | append codePoint element => exact node.append_rows _
  | insert codePoint element => exact node.insert_rows _
  | overwrite offset codePoint element =>
    simp only [Rows.apply, Rows.overwrite, Node.apply, overwrite, length_codePoints_rows]
    split
    · rename_i inside
      rw [put_rows inside]
      rfl
    · rfl
  | setLast element =>
    have last : node.pairs.length < node.length := Nat.lt_succ_self _
    simp only [Rows.apply, Rows.setLast, used_rows, Node.apply]
    show (node.rows.putWord node.pairs.length element.pack).map Except.ok = _
    rw [putWord_rows last]
    rfl
  | grow => exact congrArg some node.grow_rows

/-! ## Making, reading and copying -/

theorem fresh_rows (capacity : Nat) :
    Rows.fresh capacity = some ((Node.fresh capacity).map Node.rows) := by
  have size : max 1 capacity = capacity - 1 + 1 := by omega
  have grantable : Grantable elementBytes (max 1 capacity) ↔ Grantable elementBytes capacity := by
    unfold Grantable elementBytes bufferLimit
    omega
  unfold Rows.fresh Node.fresh
  simp only [grantable]
  split
  · rw [size]
    simp [Rows.put, Row.put, rows, slots, logical, Node.length, Except.map, List.replicate_succ,
      List.map_replicate]
  · rfl

theorem codePointsInUse_rows (node : Node) :
    node.rows.codePointsInUse = some (node.logical.map Slot.codePoint) := by
  have front := Row.front_append (node.logical.map Slot.codePoint) (node.spare.map Slot.codePoint)
  rw [List.length_map, length_logical, ← codePoints_rows] at front
  exact front

theorem wordsInUse_rows (node : Node) :
    node.rows.wordsInUse = some (node.logical.map Slot.word) := by
  have front := Row.front_append (node.logical.map Slot.word) (node.spare.map Slot.word)
  rw [List.length_map, length_logical, ← words_rows] at front
  exact front

/-- Every operation on the stored form of a node stays within the rows, and comes to the stored form
of what the operation on the node comes to. -/
structure Stored (node : Node) : Prop where
  edits : ∀ edit, node.rows.apply edit = some ((node.apply edit).map Node.rows)
  /-- A change replaces the element of a pair that was found. -/
  changes : ∀ codePoint slot, node.find codePoint = some slot → ∀ element,
    node.rows.setElement slot element = some (node.setElement slot element).rows
  /-- An attachment replaces the element of the reserved slot. -/
  bases : ∀ element, node.rows.setElement 0 element = some (node.setElement 0 element).rows
  finds : ∀ codePoint, node.rows.find codePoint = some (node.find codePoint)
  reads : ∀ place, node.rows.elementAt place = some (node.elementAt place)
  base : node.rows.base? = some node.base?
  pairs : node.rows.pairs = some node.pairs
  copies : node.rows.copy = some node.copy.rows

theorem stored (node : Node) : node.Stored where
  edits := node.apply_rows
  changes := fun _ _ found => setElement_rows (find_bounds found).2
  bases := setElement_rows node.length_pos
  finds := by
    intro codePoint
    unfold Rows.find
    rw [codePointsInUse_rows]
    show some (Row.scan codePoint 1 (node.pairs.map Slot.codePoint)) = _
    rw [Row.scan_eq]
    rfl
  reads := by
    intro place
    unfold Rows.elementAt
    rw [wordsInUse_rows]
    simp only [Option.bind_eq_bind, Option.bind_some, List.getElem?_map, Option.map_map, elementAt]
    rfl
  base := rfl
  pairs := by
    unfold Rows.pairs
    rw [codePointsInUse_rows, wordsInUse_rows]
    simp [Row.behind, logical, List.zipWith_map, List.zipWith_self]
  copies := by
    unfold Rows.copy
    rw [codePointsInUse_rows, wordsInUse_rows]
    simp [rows, slots, copy, logical, Node.length]

end Node

end Contractions
