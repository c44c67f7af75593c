/-
# Contractions.Node.RowCursor — reading the pairs of a node from its two rows.

A cursor in its stored form: what is left of the row of code points, and what is left of the row of
packed elements.  Neither knows of the other.  A move reads the code points first; where there is
one but no packed element to go with it, the code point is gone and nothing is handed out.  How many
pairs are left is told by the code points alone.
-/
import Contractions.Node.Cursor
import Contractions.Node.Rows

namespace Contractions

/-- The item at one end of a row, if there is any, and the row without it. -/
def Row.pull {α : Type} (row : List α) : Cursor.End → Option (α × List α)
  | .front => row.head?.map (·, row.tail)
  | .back => row.getLast?.map (·, row.dropLast)

/-- What is left to be read of two rows. -/
structure RowCursor where
  codePoints : List UInt16
  words : List UInt32
deriving DecidableEq, Repr

/-- A cursor over the places in use, without the reserved one. -/
def Rows.cursor (rows : Rows) : Option RowCursor := do
  let codePoints ← Row.behind (← rows.codePointsInUse) 1
  let words ← Row.behind (← rows.wordsInUse) 1
  return { codePoints, words }

namespace RowCursor

/-- The least number of pairs that further moves may hand out, and the greatest if there is one. -/
def bounds (cursor : RowCursor) : Nat × Option Nat :=
  (cursor.codePoints.length, some cursor.codePoints.length)

/-- How many pairs are left, provided that the two bounds are the same. -/
def length? (cursor : RowCursor) : Option Nat :=
  if cursor.bounds.2 = some cursor.bounds.1 then some cursor.bounds.1 else none

/-- The pair at one end, if both rows have an item there, and the cursor behind the move. -/
def take (cursor : RowCursor) (move : Cursor.End) : Option Pair × RowCursor :=
  match Row.pull cursor.codePoints move with
  | none => (none, cursor)
  | some (codePoint, codePoints) =>
    match Row.pull cursor.words move with
    | none => (none, { cursor with codePoints })
    | some (word, words) => (some (codePoint, .unpack word), { codePoints, words })

/-- What each of several moves hands out, and the cursor behind them. -/
def walk (cursor : RowCursor) : List Cursor.End → List (Option Pair) × RowCursor
  | [] => ([], cursor)
  | move :: moves =>
    let (pair, cursor) := cursor.take move
    let (pairs, cursor) := cursor.walk moves
    (pair :: pairs, cursor)

theorem walk_cons (cursor : RowCursor) (move : Cursor.End) (moves : List Cursor.End) :
    cursor.walk (move :: moves) =
      ((cursor.take move).1 :: ((cursor.take move).2.walk moves).1,
        ((cursor.take move).2.walk moves).2) := rfl

end RowCursor

end Contractions
