/-
# Contractions.PackedRows — a packed table as it is stored, with every access checked.

`Packed` holds one row of slots, and cuts slices from it by an operation that can never go astray: a
difference of numbers is never negative, and a cut reaches as far as the row does.  The table is
stored in two rows, though, and there an offset in front of the base and a cut that reaches too far
are mistakes.  In this form either has no outcome at all.
-/
import Contractions.Packed
import Contractions.Row

namespace Contractions

/-- The two rows of a packed table, and where the slices start. -/
structure PackedRows where
  base : Nat
  codePoints : List UInt16
  words : List UInt32
  offsets : Array Nat
deriving DecidableEq, Repr

namespace PackedRows

/-- How far an offset lies behind the base; an offset in front of it has no outcome. -/
def relative (table : PackedRows) (offset : Nat) : Option Nat :=
  if table.base ≤ offset then some (offset - table.base) else none

/-- Where a slice stops: where the next one starts, or at the end. -/
def stop (table : PackedRows) (index : Nat) : Option Nat :=
  match table.offsets[index + 1]? with
  | none => some table.codePoints.length
  | some next => table.relative next

/-- The slice of the node with a given number, from either row. -/
def slice (table : PackedRows) (index : Nat) : Option (Option (List UInt16 × List UInt32)) :=
  match table.offsets[index]? with
  | none => some none
  | some offset => do
    let start ← table.relative offset
    let stop ← table.stop index
    let codePoints ← Row.between table.codePoints start stop
    let words ← Row.between table.words start stop
    return some (codePoints, words)

/-- The slice that starts exactly at an offset. -/
def nodeAt (table : PackedRows) (offset : Nat) : Option (Option (List UInt16 × List UInt32)) :=
  match bisect id table.offsets offset with
  | none => some none
  | some index => table.slice index

/-- The summary kept in the slice that starts at an offset. -/
def summaryAt (table : PackedRows) (offset : Nat) : Option (Option ClassSummary) := do
  let found ← table.nodeAt offset
  return found.bind fun rows => rows.1[0]?.map ClassSummary.mk

/-- The element that the slice at an offset lists for a code point, as far as the scan finds it. -/
def lookupAt (table : PackedRows) (offset : Nat) (codePoint : UInt16) :
    Option (Option Element) := do
  match ← table.nodeAt offset with
  | none => return none
  | some (codePoints, words) =>
    match Row.scan codePoint 1 codePoints.tail with
    | none => return none
    | some place =>
      let word ← words[place]?
      return some (.unpack word)

end PackedRows

/-- The code points and the words of some slots. -/
def Slot.unzip (slots : Array Slot) : List UInt16 × List UInt32 :=
  (slots.toList.map Slot.codePoint, slots.toList.map Slot.word)

/-- A packed table in its stored form. -/
def Packed.rows (table : Packed) : PackedRows where
  base := table.base
  codePoints := (Slot.unzip table.slots).1
  words := (Slot.unzip table.slots).2
  offsets := table.offsets

end Contractions
