/-
# Contractions.Node.Basic — one contraction node: its pairs, its reserved slot and its spare room.

A node lists what may follow a piece of text: pairs of a code point and the element that the piece
has together with it.  Slot 0 is reserved for the element of the piece standing alone.  Behind the
pairs lie slots that are granted but not in use; they can be written to, and nothing ever reads them
as pairs.

The three parts are kept apart in the type, so a node always has its reserved slot and never more
slots in use than it has been granted.  `slots` is the view in which all of them stand in one row,
numbered from 0.
-/
import Contractions.Fault
import Contractions.Slot
import Contractions.Storage

namespace Contractions

/-- A contraction node. -/
structure Node where
  /-- Slot 0; its element is the one of the text that leads here, its code point is ignored. -/
  reserved : Slot
  /-- The slots from 1 on that are in use. -/
  pairs : List Slot
  /-- The slots that are granted and not in use. -/
  spare : List Slot
deriving DecidableEq, Inhabited, Repr

namespace Node

/-! ## Views -/

/-- The slots in use: the reserved one and the pairs. -/
def logical (node : Node) : List Slot :=
  node.reserved :: node.pairs

/-- All slots, the spare ones included. -/
def slots (node : Node) : List Slot :=
  node.logical ++ node.spare

/-- How many slots are in use. -/
def length (node : Node) : Nat :=
  node.pairs.length + 1

/-- How many slots are granted. -/
def capacity (node : Node) : Nat :=
  node.length + node.spare.length

@[simp] theorem length_logical (node : Node) : node.logical.length = node.length := rfl

@[simp] theorem length_slots (node : Node) : node.slots.length = node.capacity := by
  simp [slots, capacity]

theorem length_pos (node : Node) : 0 < node.length := Nat.succ_pos _

theorem length_le_capacity (node : Node) : node.length ≤ node.capacity := Nat.le_add_right _ _

/-! ## Making and copying -/

/-- A node without pairs and with room for `capacity` slots, the reserved one among them. -/
def fresh (capacity : Nat) : Except Fault Node :=
  if Grantable elementBytes capacity then
    .ok { reserved := .reserved, pairs := [], spare := List.replicate (capacity - 1) .blank }
  else
    .error .outOfMemory

/-- A copy keeps the slots in use and no spare room. -/
def copy (node : Node) : Node :=
  { node with spare := [] }

/-! ## Reading -/

/-- The element of the text that leads here, if it has one. -/
def base? (node : Node) : Option Element :=
  if node.reserved.element.isNotFound then none else some node.reserved.element

/-- The slot of the pair that the scan finds for a code point; never slot 0. -/
def find (node : Node) (codePoint : UInt16) : Option Nat :=
  (Slot.locate codePoint node.pairs).map (· + 1)

/-- The element in a slot in use. -/
def elementAt (node : Node) (slot : Nat) : Option Element :=
  node.logical[slot]?.map Slot.element

/-- The element that the node lists for a code point, as far as the scan finds it. -/
def lookup (node : Node) (codePoint : UInt16) : Option Element :=
  (node.find codePoint).bind node.elementAt

/-- A found slot is in use and is not the reserved one. -/
theorem find_bounds {node : Node} {codePoint : UInt16} {slot : Nat}
    (h : node.find codePoint = some slot) : 1 ≤ slot ∧ slot < node.length := by
  obtain ⟨position, located, rfl⟩ := Option.map_eq_some_iff.1 h
  have := Slot.locate_lt located
  simp only [length]
  omega

end Node

end Contractions
