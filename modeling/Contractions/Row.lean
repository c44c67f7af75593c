/-
# Contractions.Row — checked access to one row.

Slots are stored in rows, one of code points beside one of packed elements.  Access to a row is
checked: where a place or a range lies outside of it there is no outcome at all, not even a fault.
Two scans over a row of code points are shared by nodes and packed tables.
-/

namespace Contractions

namespace Row

variable {α : Type}

/-- Replace the item at a place. -/
def put (row : List α) (place : Nat) (item : α) : Option (List α) :=
  if place < row.length then some (row.set place item) else none

/-- The items at the places below `count`. -/
def front (row : List α) (count : Nat) : Option (List α) :=
  if count ≤ row.length then some (row.take count) else none

/-- The items at the places from `first` on. -/
def behind (row : List α) (first : Nat) : Option (List α) :=
  if first ≤ row.length then some (row.drop first) else none

/-- The items at the places from `first` up to, not including, `stop`. -/
def between (row : List α) (first stop : Nat) : Option (List α) :=
  if first ≤ stop ∧ stop ≤ row.length then some ((row.take stop).drop first) else none

/-- Move the items from `first` up to, not including, `stop` up by one place, over the item there. -/
def shift (row : List α) (first stop : Nat) : Option (List α) :=
  if first ≤ stop ∧ stop < row.length then
    some (row.take (first + 1) ++ (row.take stop).drop first ++ row.drop (stop + 1))
  else none

/-- The row with another length: cut at the end, or filled up there. -/
def resize (row : List α) (size : Nat) (fill : α) : List α :=
  row.take size ++ List.replicate (size - row.length) fill

/-- Of `count` places from `place` on, the first one whose code point is not smaller. -/
def firstFrom (row : List UInt16) (codePoint : UInt16) (place : Nat) :
    (count : Nat) → Option (Option Nat)
  | 0 => some none
  | count + 1 => do
    let stored ← row[place]?
    if codePoint ≤ stored then some (some place) else firstFrom row codePoint (place + 1) count

/-- The place of a code point among those listed from `place` on, given up at the first greater one. -/
def scan (codePoint : UInt16) (place : Nat) : List UInt16 → Option Nat
  | [] => none
  | stored :: rest =>
    if stored < codePoint then scan codePoint (place + 1) rest
    else if stored = codePoint then some place
    else none

end Row

end Contractions
