/-
# Contractions.Packed — the nodes of a tailoring laid end to end.

A packed table holds the slots in use of all nodes in one row, node after node in the order of their
handles.  Each node is a slice of that row, and its offset is where the slice starts, counted from a
base that the caller chose.  References hold offsets, so a search needs no handles any more.  The
first slot of a slice keeps the element of the reserved slot, and where a node ignores the code point
it keeps the summary of the combining classes.
-/
import Contractions.Bisect
import Contractions.CombiningClass
import Contractions.Handle
import Contractions.Slot

namespace Contractions

/-- The packed form of a tailoring's nodes. -/
structure Packed where
  /-- The offset of the first slot. -/
  base : Nat
  /-- The slots of all nodes, node after node. -/
  slots : Array Slot
  /-- Where the slice of each node starts, by handle. -/
  offsets : Array Nat
deriving DecidableEq, Inhabited, Repr

namespace Packed

/-- How many slots the table has. -/
def length (table : Packed) : Nat :=
  table.slots.size

/-- The slice of the node with a given number: from its offset up to the next one, or to the end. -/
def slice (table : Packed) (index : Nat) : Option (Array Slot) :=
  table.offsets[index]?.map fun start =>
    let stop := table.offsets[index + 1]?.getD (table.base + table.length)
    table.slots.extract (start - table.base) (stop - table.base)

/-! ## By handle -/

/-- Where the slice of a node starts. -/
def offset? (table : Packed) (handle : Handle) : Option Nat :=
  table.offsets[handle.index]?

/-- The slice of a node. -/
def node? (table : Packed) (handle : Handle) : Option (Array Slot) :=
  table.slice handle.index

/-! ## By offset -/

/-- The slice that starts exactly at an offset. -/
def nodeAt (table : Packed) (offset : Nat) : Option (Array Slot) :=
  (bisect id table.offsets offset).bind fun index => table.slice index

/-- The summary kept in the slice that starts at an offset. -/
def summaryAt (table : Packed) (offset : Nat) : Option ClassSummary :=
  (table.nodeAt offset).bind fun slots => slots[0]?.map fun slot => ⟨slot.codePoint⟩

/-- The element that the slice at an offset lists for a code point, as far as the scan finds it. -/
def lookupAt (table : Packed) (offset : Nat) (codePoint : UInt16) : Option Element :=
  (table.nodeAt offset).bind fun slots =>
    let pairs := slots.toList.tail
    (Slot.locate codePoint pairs).bind fun position => pairs[position]?.map Slot.element

/-! ## By handle, through the offset -/

/-- The summary kept for a node. -/
def summary? (table : Packed) (handle : Handle) : Option ClassSummary :=
  (table.offset? handle).bind table.summaryAt

/-- The element that a node lists for a code point. -/
def lookup (table : Packed) (handle : Handle) (codePoint : UInt16) : Option Element :=
  (table.offset? handle).bind fun offset => table.lookupAt offset codePoint

end Packed

end Contractions
