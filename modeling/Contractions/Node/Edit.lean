/-
# Contractions.Node.Edit — the ways to write to a node.

A write that needs one more slot first makes sure that there is a spare one: a node whose slots are
all in use doubles its capacity.  A write at a given slot may go anywhere within the capacity and
never changes how many slots are in use.  A refused edit leaves the node as it was: it answers a
fault and no node.
-/
import Contractions.Node.Basic

namespace Contractions

namespace Node

/-! ## Writes that need no room -/

/-- Replace the slot at a place within the capacity. -/
def put (node : Node) (offset : Nat) (slot : Slot) : Node :=
  match offset with
  | 0 => { node with reserved := slot }
  | k + 1 =>
    if k < node.pairs.length then { node with pairs := node.pairs.set k slot }
    else { node with spare := node.spare.set (k - node.pairs.length) slot }

/-- Replace the slot at a place, or say that the place is not within the capacity. -/
def overwrite (node : Node) (offset : Nat) (slot : Slot) : Except Fault Node :=
  if offset < node.capacity then .ok (node.put offset slot)
  else .error (.slotOutOfBounds offset node.capacity)

/-- Replace the element of a slot in use and keep its code point. -/
def setElement (node : Node) (slot : Nat) (element : Element) : Node :=
  match slot with
  | 0 => { node with reserved := node.reserved.withElement element }
  | k + 1 => { node with pairs := node.pairs.modify k (·.withElement element) }

/-- Replace the element of the last slot in use, which is the reserved one while there is no pair. -/
def setLast (node : Node) (element : Element) : Node :=
  node.setElement node.pairs.length element

/-! ## Writes that need one more slot -/

/-- Double the capacity of a node whose slots are all in use. -/
def grow (node : Node) : Except Fault Node :=
  if node.spare.isEmpty then
    if Grantable elementBytes (2 * node.capacity) then
      .ok { node with spare := List.replicate node.capacity .blank }
    else
      .error .outOfMemory
  else
    .ok node

/-- Add a pair behind the others; it takes the first spare slot. -/
def append (node : Node) (slot : Slot) : Except Fault Node :=
  node.grow.map fun grown =>
    { grown with pairs := grown.pairs ++ [slot], spare := grown.spare.tail }

/-- Add a pair in front of the first one whose code point is not smaller.  The pairs from there on
move up by one, the last of them into the first spare slot. -/
def insert (node : Node) (slot : Slot) : Except Fault Node :=
  node.grow.map fun grown =>
    { grown with pairs := Slot.insertSorted slot grown.pairs, spare := grown.spare.tail }

/-! ## Edits as data -/

/-- A write to one node. -/
inductive Edit where
  /-- Add a pair behind the others. -/
  | append (codePoint : UInt16) (element : Element)
  /-- Add a pair in code point order. -/
  | insert (codePoint : UInt16) (element : Element)
  /-- Replace the slot at a place within the capacity. -/
  | overwrite (offset : Nat) (codePoint : UInt16) (element : Element)
  /-- Replace the element of the last slot in use. -/
  | setLast (element : Element)
  /-- Make sure that there is a spare slot. -/
  | grow
deriving DecidableEq, Repr

/-- The node after an edit. -/
def apply (node : Node) : Edit → Except Fault Node
  | .append codePoint element => node.append (.of codePoint element)
  | .insert codePoint element => node.insert (.of codePoint element)
  | .overwrite offset codePoint element => node.overwrite offset (.of codePoint element)
  | .setLast element => .ok (node.setLast element)
  | .grow => node.grow

/-! ## First laws -/

/-- In the row of all slots, a write replaces the one it names. -/
theorem slots_put (node : Node) (offset : Nat) (slot : Slot) :
    (node.put offset slot).slots = node.slots.set offset slot := by
  cases offset with
  | zero => rfl
  | succ k =>
    by_cases h : k < node.pairs.length
    · simp [put, slots, logical, h]
    · simp [put, slots, logical, h, List.set_append]

/-- A write at a given place adds and removes no slot in use. -/
theorem length_put (node : Node) (offset : Nat) (slot : Slot) :
    (node.put offset slot).length = node.length := by
  cases offset with
  | zero => rfl
  | succ k => by_cases h : k < node.pairs.length <;> simp [put, length, h]

theorem length_setElement (node : Node) (slot : Nat) (element : Element) :
    (node.setElement slot element).length = node.length := by
  cases slot with
  | zero => rfl
  | succ k => simp [setElement, length]

/-- Growing leaves the slots in use alone. -/
theorem logical_grow {node grown : Node} (h : node.grow = .ok grown) :
    grown.logical = node.logical := by
  unfold grow at h
  split at h
  · split at h
    · simp only [Except.ok.injEq] at h
      rw [← h]
      rfl
    · simp at h
  · simp only [Except.ok.injEq] at h
    rw [← h]

/-- Appending adds one slot behind those in use. -/
theorem logical_append {node edited : Node} {slot : Slot} (h : node.append slot = .ok edited) :
    edited.logical = node.logical ++ [slot] := by
  unfold append at h
  cases grows : node.grow with
  | error fault => simp [grows, Except.map] at h
  | ok grown =>
    simp only [grows, Except.map, Except.ok.injEq] at h
    rw [← h, ← logical_grow grows]
    rfl

/-- Inserting keeps the reserved slot and puts the pair in its place. -/
theorem logical_insert {node edited : Node} {slot : Slot} (h : node.insert slot = .ok edited) :
    edited.logical = node.reserved :: Slot.insertSorted slot node.pairs := by
  unfold insert at h
  cases grows : node.grow with
  | error fault => simp [grows, Except.map] at h
  | ok grown =>
    simp only [grows, Except.map, Except.ok.injEq] at h
    have same := logical_grow grows
    simp only [logical, List.cons.injEq] at same
    rw [← h, ← same.1, ← same.2]
    rfl

end Node

end Contractions
