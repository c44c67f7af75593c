/-
# Contractions.Proofs.Reading — reading from both ends hands out each pair once.

Two rows are read side by side, each by itself, and the pairs are put together on the way.  As long
as as many items are left of one row as of the other, a move takes the item from either row at the
same place, so it hands out a pair that was stored.  This is a simulation: the two rows of a
`Cursor` are read as the cursor is (`Cursor.take_rows`).

Of the pairs in the cursor, some front has been handed out by moves at the front and some back by
moves at the back, the latter in reverse order, and the rest is still there.  A move moves one pair
from the rest to its side, and one that meets no pair changes nothing (`Cursor.handedOut_walk`).
-/
import Contractions.Node.RowCursor
import Contractions.Proofs.Splicing

namespace Contractions

/-! ## Two rows read as one -/

namespace Cursor

/-- A cursor in its stored form. -/
def rows (cursor : Cursor) : RowCursor where
  codePoints := cursor.remaining.map Slot.codePoint
  words := cursor.remaining.map Slot.word

/-- Both rows have an item at an end, or neither has, and the two belong together. -/
theorem take_rows (cursor : Cursor) (move : End) :
    cursor.rows.take move = ((cursor.take move).1, (cursor.take move).2.rows) := by
  obtain ⟨remaining⟩ := cursor
  cases move with
  | front => cases remaining <;> rfl
  | back =>
    rcases remaining.eq_nil_or_concat with rfl | ⟨before, last, rfl⟩
    · rfl
    · simp [rows, RowCursor.take, Row.pull, take, Slot.pair, Slot.element]

theorem walk_rows (cursor : Cursor) (moves : List End) :
    cursor.rows.walk moves = ((cursor.walk moves).1, (cursor.walk moves).2.rows) := by
  induction moves generalizing cursor with
  | nil => rfl
  | cons move moves ih =>
    rw [RowCursor.walk_cons, walk_cons, take_rows, ih]

end Cursor

theorem Node.cursor_rows (node : Node) : node.rows.cursor = some node.cursor.rows := by
  unfold Rows.cursor
  rw [codePointsInUse_rows, wordsInUse_rows]
  rfl

/-! ## What was handed out -/

namespace Cursor

/-- What the moves at one end handed out, in the order of the moves. -/
def handedOut (side : End) (moves : List End) (answers : List (Option Pair)) : List Pair :=
  (moves.zip answers).filterMap fun (move, answer) => if move = side then answer else none

theorem handedOut_cons_self (side : End) (moves : List End) (answer : Option Pair)
    (answers : List (Option Pair)) :
    handedOut side (side :: moves) (answer :: answers) =
      answer.toList ++ handedOut side moves answers := by
  cases answer <;> simp [handedOut]

theorem handedOut_cons_of_ne {side move : End} (other : move ≠ side) (moves : List End)
    (answer : Option Pair) (answers : List (Option Pair)) :
    handedOut side (move :: moves) (answer :: answers) = handedOut side moves answers := by
  simp [handedOut, other]

/-- A move at the front hands out what the rest starts with. -/
theorem rest_take_front (cursor : Cursor) :
    (cursor.take .front).1.toList ++ (cursor.take .front).2.rest = cursor.rest := by
  obtain ⟨remaining⟩ := cursor
  cases remaining <;> rfl

/-- A move at the back hands out what the rest ends with. -/
theorem rest_take_back (cursor : Cursor) :
    (cursor.take .back).2.rest ++ (cursor.take .back).1.toList = cursor.rest := by
  obtain ⟨remaining⟩ := cursor
  rcases remaining.eq_nil_or_concat with rfl | ⟨before, last, rfl⟩
  · rfl
  · simp [take, rest]

/-- What was handed out at the front, what is left, and what was handed out at the back, read
backwards, are together what there was. -/
theorem handedOut_walk (cursor : Cursor) (moves : List End) :
    handedOut .front moves (cursor.walk moves).1 ++ (cursor.walk moves).2.rest ++
      (handedOut .back moves (cursor.walk moves).1).reverse = cursor.rest := by
  induction moves generalizing cursor with
  | nil => exact List.append_nil _
  | cons move moves ih =>
    have later := ih (cursor.take move).2
    rw [walk_cons]
    cases move with
    | front =>
      rw [handedOut_cons_self, handedOut_cons_of_ne (by decide), List.append_assoc,
        List.append_assoc, ← List.append_assoc (handedOut _ _ _), later, rest_take_front]
    | back =>
      have alone : (cursor.take .back).1.toList.reverse = (cursor.take .back).1.toList := by
        cases (cursor.take .back).1 <;> rfl
      rw [handedOut_cons_of_ne (by decide), handedOut_cons_self, List.reverse_append, alone,
        ← List.append_assoc, later, rest_take_back]

end Cursor

/-! ## What a cursor has left -/

namespace RowCursor

/-- A cursor has some pairs left. -/
structure Holds (cursor : RowCursor) (rest : List Pair) : Prop where
  length_eq : cursor.length? = some rest.length
  bounds_eq : cursor.bounds = (rest.length, some rest.length)
  /-- A move hands out the pair at its end, and nothing only where there is none. -/
  hands : ∀ side, (cursor.take side).1 = (Row.pull rest side).map Prod.fst
  /-- Once there is none, nothing is handed out any more. -/
  spent : rest = [] → ∀ later, ∀ answer ∈ (cursor.walk later).1, answer = none

/-- A cursor without pairs stays as it is and hands out nothing. -/
theorem walk_nil_nil (moves : List Cursor.End) :
    walk ⟨[], []⟩ moves = (List.replicate moves.length none, ⟨[], []⟩) := by
  induction moves with
  | nil => rfl
  | cons move moves ih =>
    have stays : take ⟨[], []⟩ move = (none, ⟨[], []⟩) := by cases move <;> rfl
    rw [walk_cons, stays, ih]
    rfl

theorem holds_rows (cursor : Cursor) : cursor.rows.Holds cursor.rest where
  length_eq := by simp [length?, bounds, Cursor.rows, Cursor.rest]
  bounds_eq := by simp [bounds, Cursor.rows, Cursor.rest]
  hands := by
    intro side
    rw [Cursor.take_rows]
    cases side <;> simp [Cursor.take, Cursor.rest, Row.pull, Function.comp_def]
  spent := by
    intro none later answer mem
    have empty : cursor.remaining = [] := List.map_eq_nil_iff.mp none
    unfold Cursor.rows at mem
    rw [empty, List.map_nil, List.map_nil, walk_nil_nil] at mem
    exact List.eq_of_mem_replicate mem

end RowCursor

/-! ## The pairs of two rows -/

namespace Rows

variable {rows : Rows}

/-- The pairs of two rows, by their places: the code point and the element behind the reserved slot.
-/
structure Lists (rows : Rows) (pairs : List Pair) : Prop where
  count : pairs.length + 1 = rows.used
  each : ∀ place codePoint word, place + 1 < rows.used →
    rows.codePoints[place + 1]? = some codePoint → rows.words[place + 1]? = some word →
    pairs[place]? = some (codePoint, .unpack word)

theorem lists_rows (node : Node) : node.rows.Lists node.cursor.rest where
  count := by simp [Cursor.rest, Node.cursor, Node.length]
  each := by
    intro place codePoint word inUse atCodePoint atWord
    have inPairs : place < node.pairs.length := Nat.lt_of_succ_lt_succ inUse
    have slot : node.slots[place + 1]? = some node.pairs[place] := by
      rw [Node.slots, List.getElem?_append_left (by rwa [Node.length_logical]), Node.logical,
        List.getElem?_cons_succ, List.getElem?_eq_getElem inPairs]
    simp only [Node.rows, List.getElem?_map, slot, Option.map_some, Option.some.injEq]
      at atCodePoint atWord
    show (node.pairs.map Slot.pair)[place]? = _
    rw [List.getElem?_map, List.getElem?_eq_getElem inPairs, ← atCodePoint, ← atWord]
    rfl

/-- Rows that are alike and in use from the front are read from both ends without going astray, and
whatever the moves are, each pair is handed out once.  What the moves at the front have handed out,
what is left, and what the moves at the back have handed out, read backwards, are the pairs in their
order; and the cursor tells at any time how many are left and has nothing else to hand out. -/
theorem reads_each_once (sound : rows.Sound) :
    ∃ cursor pairs, rows.cursor = some cursor ∧ rows.Lists pairs ∧ ∀ moves, ∃ rest,
      Cursor.handedOut .front moves (cursor.walk moves).1 ++ rest ++
          (Cursor.handedOut .back moves (cursor.walk moves).1).reverse = pairs ∧
        (cursor.walk moves).2.Holds rest := by
  obtain ⟨node, rfl⟩ := sound.exists_node
  refine ⟨_, node.cursor.rest, node.cursor_rows, lists_rows node, fun moves => ?_⟩
  rw [Cursor.walk_rows]
  exact ⟨_, Cursor.handedOut_walk node.cursor moves, RowCursor.holds_rows _⟩

/-- Three pairs and a place that is not in use, read from either end in turn until nothing is left.
-/
theorem reads_each_once_three :
    let rows : Rows := { codePoints := [0, 5, 6, 7, 1], words := [70, 71, 72, 73, 74], used := 4 }
    let moves : List Cursor.End := [.front, .back, .front, .back]
    rows.Sound ∧ ∃ cursor pairs, rows.cursor = some cursor ∧ rows.Lists pairs ∧
      (cursor.walk moves).1 =
        [some (5, .direct 71), some (7, .direct 73), some (6, .direct 72), none] ∧
      (cursor.walk moves).2.Holds [] := by
  intro rows moves
  have sound : rows.Sound := ⟨rfl, by decide, by decide⟩
  obtain ⟨cursor, pairs, opens, lists, reads⟩ := reads_each_once sound
  obtain rfl : cursor = ⟨[5, 6, 7], [71, 72, 73]⟩ := Option.some.inj (opens.symm.trans rfl)
  obtain ⟨rest, parts, holds⟩ := reads moves
  have answers : (RowCursor.walk ⟨[5, 6, 7], [71, 72, 73]⟩ moves).1 =
      [some (5, .direct 71), some (7, .direct 73), some (6, .direct 72), none] := by decide
  -- three pairs were handed out, and there are no more
  have none : rest = [] := by
    have count := lists.count
    rw [← parts, answers] at count
    simpa [Cursor.handedOut, moves, rows] using count
  exact ⟨sound, _, pairs, opens, lists, answers, none ▸ holds⟩

end Rows

end Contractions
