/-
# Contractions.Node.Cursor — reading the pairs of a node from both ends.

A cursor holds the pairs that were not yet handed out.  Each move hands out the foremost or the
hindmost of them; once none is left, every further move hands out nothing.
-/
import Contractions.Node.Basic

namespace Contractions

/-- A pair of a node as a reader sees it: the code point and its element. -/
abbrev Pair := UInt16 × Element

/-- The pair that a slot stores. -/
def Slot.pair (slot : Slot) : Pair :=
  (slot.codePoint, slot.element)

/-- The pairs of a node that were not yet handed out, in their order. -/
structure Cursor where
  remaining : List Slot
deriving DecidableEq, Repr

/-- A cursor over all pairs. -/
def Node.cursor (node : Node) : Cursor :=
  ⟨node.pairs⟩

namespace Cursor

/-- How many pairs are left. -/
def length (cursor : Cursor) : Nat :=
  cursor.remaining.length

/-- The least and the greatest number of pairs that further moves may hand out. -/
def bounds (cursor : Cursor) : Nat × Nat :=
  (cursor.length, cursor.length)

/-- The pairs that are left, in order. -/
def rest (cursor : Cursor) : List Pair :=
  cursor.remaining.map Slot.pair

/-- The end that a move reads from. -/
inductive End where
  | front
  | back
deriving DecidableEq, Repr

/-- The pair at one end, if any is left, and the cursor without it. -/
def take (cursor : Cursor) : End → Option Pair × Cursor
  | .front => (cursor.remaining.head?.map Slot.pair, ⟨cursor.remaining.tail⟩)
  | .back => (cursor.remaining.getLast?.map Slot.pair, ⟨cursor.remaining.dropLast⟩)

/-- What each of several moves hands out, and the cursor behind them. -/
def walk (cursor : Cursor) : List End → List (Option Pair) × Cursor
  | [] => ([], cursor)
  | move :: moves =>
    let (pair, cursor) := cursor.take move
    let (pairs, cursor) := cursor.walk moves
    (pair :: pairs, cursor)

theorem walk_cons (cursor : Cursor) (move : End) (moves : List End) :
    cursor.walk (move :: moves) =
      ((cursor.take move).1 :: ((cursor.take move).2.walk moves).1,
        ((cursor.take move).2.walk moves).2) := rfl

end Cursor

end Contractions
