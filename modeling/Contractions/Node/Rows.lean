/-
# Contractions.Node.Rows — a node as it is stored: two rows, and how far they are in use.

`Node` keeps the reserved slot, the pairs and the spare slots apart.  They are stored in two rows, one
of code points and one of packed elements, and a number says how many places from the front are in
use.  Nothing in this form keeps the rows alike, or the number within them, so every access is
checked.

A fault is an outcome.  It says that room cannot be granted, or that the caller named a place past
the capacity, and it leaves the rows as they were.
-/
import Contractions.Node.Edit
import Contractions.Row

namespace Contractions

/-- The two rows of a node, and how many places of each are in use. -/
structure Rows where
  codePoints : List UInt16
  words : List UInt32
  used : Nat
deriving DecidableEq, Repr

namespace Rows

/-! ## Making and growing -/

/-- Store a slot at a place of both rows. -/
def put (rows : Rows) (place : Nat) (slot : Slot) : Option Rows := do
  let codePoints ← Row.put rows.codePoints place slot.codePoint
  let words ← Row.put rows.words place slot.word
  return { rows with codePoints, words }

/-- Store a packed element at a place and leave the code point there. -/
def putWord (rows : Rows) (place : Nat) (word : UInt32) : Option Rows := do
  let words ← Row.put rows.words place word
  return { rows with words }

/-- Rows for a new node: at least one place, of which the first is in use. -/
def fresh (capacity : Nat) : Option (Except Fault Rows) :=
  let size := max 1 capacity
  if Grantable elementBytes size then
    let blank : Rows :=
      { codePoints := List.replicate size Slot.blank.codePoint
        words := List.replicate size Slot.blank.word
        used := 1 }
    (blank.put 0 .reserved).map .ok
  else
    some (.error .outOfMemory)

/-- Twice as many places if all are in use. -/
def grow (rows : Rows) : Except Fault Rows :=
  let size := rows.codePoints.length
  if rows.used < size then
    .ok rows
  else if Grantable elementBytes (2 * size) then
    .ok { rows with
      codePoints := Row.resize rows.codePoints (2 * size) Slot.blank.codePoint
      words := Row.resize rows.words (2 * size) Slot.blank.word }
  else
    .error .outOfMemory

/-- Write to rows that have been made to grow if that was needed. -/
def growThen (rows : Rows) (next : Rows → Option Rows) : Option (Except Fault Rows) :=
  match rows.grow with
  | .error fault => some (.error fault)
  | .ok grown => (next grown).map .ok

/-! ## Writing -/

/-- Store a slot behind the places in use. -/
def append (rows : Rows) (slot : Slot) : Option (Except Fault Rows) :=
  rows.growThen fun grown => do
    let stored ← grown.put grown.used slot
    return { stored with used := grown.used + 1 }

/-- Store a slot in code point order: look for its place, move what stands from there on up by one in
either row, and fill the gap. -/
def insert (rows : Rows) (slot : Slot) : Option (Except Fault Rows) :=
  rows.growThen fun grown => do
    let found ← Row.firstFrom grown.codePoints slot.codePoint 1 (grown.used - 1)
    let place := found.getD grown.used
    let codePoints ← Row.shift grown.codePoints place grown.used
    let words ← Row.shift grown.words place grown.used
    let stored ← { grown with codePoints, words : Rows }.put place slot
    return { stored with used := grown.used + 1 }

/-- Replace the slot at a place within the capacity. -/
def overwrite (rows : Rows) (offset : Nat) (slot : Slot) : Option (Except Fault Rows) :=
  if offset < rows.codePoints.length then (rows.put offset slot).map .ok
  else some (.error (.slotOutOfBounds offset rows.codePoints.length))

/-- Replace the element at a place in use. -/
def setElement (rows : Rows) (place : Nat) (element : Element) : Option Rows :=
  if place < rows.used then rows.putWord place element.pack else none

/-- Replace the element at the last place in use; there is none if nothing is in use. -/
def setLast (rows : Rows) (element : Element) : Option Rows :=
  match rows.used with
  | 0 => none
  | last + 1 => rows.putWord last element.pack

/-- The rows after an edit. -/
def apply (rows : Rows) : Node.Edit → Option (Except Fault Rows)
  | .append codePoint element => rows.append (.of codePoint element)
  | .insert codePoint element => rows.insert (.of codePoint element)
  | .overwrite offset codePoint element => rows.overwrite offset (.of codePoint element)
  | .setLast element => (rows.setLast element).map .ok
  | .grow => some rows.grow

/-! ## Reading -/

/-- The code points in use. -/
def codePointsInUse (rows : Rows) : Option (List UInt16) :=
  Row.front rows.codePoints rows.used

/-- The packed elements in use. -/
def wordsInUse (rows : Rows) : Option (List UInt32) :=
  Row.front rows.words rows.used

/-- The slots behind the reserved one. -/
def pairs (rows : Rows) : Option (List Slot) := do
  let codePoints ← Row.behind (← rows.codePointsInUse) 1
  let words ← Row.behind (← rows.wordsInUse) 1
  return List.zipWith Slot.mk codePoints words

/-- The element of the text that leads here, if it has one. -/
def base? (rows : Rows) : Option (Option Element) := do
  let word ← rows.words[0]?
  return if (Element.unpack word).isNotFound then none else some (.unpack word)

/-- The place of the pair that the scan finds for a code point. -/
def find (rows : Rows) (codePoint : UInt16) : Option (Option Nat) := do
  let codePoints ← rows.codePointsInUse
  return Row.scan codePoint 1 codePoints.tail

/-- The element at a place in use. -/
def elementAt (rows : Rows) (place : Nat) : Option (Option Element) := do
  let words ← rows.wordsInUse
  return words[place]?.map Element.unpack

/-- Rows for a copy, with no place that is not in use. -/
def copy (rows : Rows) : Option Rows := do
  let codePoints ← rows.codePointsInUse
  let words ← rows.wordsInUse
  return { codePoints, words, used := rows.used }

end Rows

/-- A node in its stored form. -/
def Node.rows (node : Node) : Rows where
  codePoints := node.slots.map Slot.codePoint
  words := node.slots.map Slot.word
  used := node.length

end Contractions
