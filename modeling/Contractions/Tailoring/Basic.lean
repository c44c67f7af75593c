/-
# Contractions.Tailoring.Basic — the nodes of a tailoring and how they are written and read.

A tailoring adds contractions to a main table: sequences of code points that sort as one.  It owns
the nodes of those sequences, numbered by handles in the order in which they were made; no node ever
goes away.  The element of a code point in a node is either final, or a reference to the node where
the next code point is looked up.

Writers take a handle that may be missing or may name no node; then they make a new node and write to
it.  A made node stays even when the write to it is refused, which is why a writer answers both an
outcome and a tailoring.  An operation that happens in full or not at all answers a tailoring only
when it succeeds.
-/
import Contractions.Handle
import Contractions.MainTable
import Contractions.Node.Edit
import Contractions.Packed
import Contractions.Relocation

namespace Contractions

/-- A set of contraction nodes under construction, with its latest packed form. -/
structure Tailoring where
  /-- The room that it and its nodes start with. -/
  sizing : Sizing
  /-- The room for nodes; it doubles as soon as it is used up. -/
  capacity : Nat
  /-- The nodes, by handle. -/
  nodes : Array Node
  /-- The nodes as they were packed last. -/
  packed : Option Packed
  /-- What that packing wrote to the main table, ascending by code point. -/
  memory : Array Relocation
deriving DecidableEq, Repr

namespace Tailoring

/-! ## Making and copying -/

/-- A tailoring without nodes. -/
def empty (sizing : Sizing) : Tailoring :=
  { sizing, capacity := sizing.nodes, nodes := #[], packed := none, memory := #[] }

instance : Inhabited Tailoring := ⟨empty default⟩

/-- A copy shares nothing with the tailoring that it is made from; its nodes have no spare room. -/
def copy (tailoring : Tailoring) : Tailoring :=
  { tailoring with nodes := tailoring.nodes.map Node.copy }

/-! ## Nodes -/

/-- The node that a handle names. -/
def node? (tailoring : Tailoring) (handle : Handle) : Option Node :=
  tailoring.nodes[handle.index]?

/-- Replace the node that a handle names. -/
def putNode (tailoring : Tailoring) (handle : Handle) (node : Node) : Tailoring :=
  { tailoring with nodes := tailoring.nodes.setIfInBounds handle.index node }

/-- Add a node behind the others. -/
def pushNode (tailoring : Tailoring) (node : Node) : Tailoring :=
  { tailoring with
    nodes := tailoring.nodes.push node
    capacity :=
      if tailoring.nodes.size + 1 = tailoring.capacity then 2 * tailoring.capacity
      else tailoring.capacity }

/-- Make a node.  Refused when every handle is taken, or when the nodes or the slots of the new one
cannot be granted. -/
def allocate (tailoring : Tailoring) : Except Fault (Handle × Tailoring) :=
  match Handle.ofNat? tailoring.nodes.size with
  | none => .error .outOfMemory
  | some handle =>
    if Grantable nodeBytes tailoring.capacity then
      (Node.fresh tailoring.sizing.slots).map fun node => (handle, tailoring.pushNode node)
    else
      .error .outOfMemory

/-- The node that a handle names, or a new one where no handle is given. -/
def resolve (tailoring : Tailoring) :
    Option Handle → Except Fault (Option (Handle × Node) × Tailoring)
  | none =>
    tailoring.allocate.map fun (handle, made) => ((made.node? handle).map (handle, ·), made)
  | some handle => .ok ((tailoring.node? handle).map (handle, ·), tailoring)

/-- The handle itself if it names a node, and otherwise that of a new node. -/
def claim (tailoring : Tailoring) : Option Handle → Except Fault (Handle × Tailoring)
  | none => tailoring.allocate
  | some handle =>
    if handle.index < tailoring.nodes.size then .ok (handle, tailoring) else tailoring.allocate

/-! ## Writing -/

/-- Edit the resolved node, if there is one, and answer it as it is afterwards. -/
def edit (tailoring : Tailoring) (target : Option Handle) (change : Node.Edit) :
    Except Fault (Option (Handle × Node)) × Tailoring :=
  match tailoring.resolve target with
  | .error fault => (.error fault, tailoring)
  | .ok (none, resolved) => (.ok none, resolved)
  | .ok (some (handle, node), resolved) =>
    match node.apply change with
    | .error fault => (.error fault, resolved)
    | .ok edited => (.ok (some (handle, edited)), resolved.putNode handle edited)

/-- Edit the claimed node and answer the reference to it. -/
def write (tailoring : Tailoring) (target : Option Handle) (change : Node.Edit) :
    Except Fault Element × Tailoring :=
  match tailoring.claim target with
  | .error fault => (.error fault, tailoring)
  | .ok (handle, claimed) =>
    match claimed.node? handle with
    | none => (.error .notFound, claimed)
    | some node =>
      match node.apply change with
      | .error fault => (.error fault, claimed)
      | .ok edited => (.ok (.ofHandle handle), claimed.putNode handle edited)

/-- Replace the element that a node lists for a code point. -/
def change (tailoring : Tailoring) (handle : Handle) (codePoint : UInt16) (element : Element) :
    Except Fault Tailoring :=
  match tailoring.node? handle with
  | none => .error .notFound
  | some node =>
    match node.find codePoint with
    | none => .error .notFound
    | some slot => .ok (tailoring.putNode handle (node.setElement slot element))

/-- Make a code point of the main table refer to a node, and answer the element it had before.  The
node keeps that element as its own unless it has one already or the element is itself a reference. -/
def attach (tailoring : Tailoring) (table : MainTable) (codePoint : UInt16) (handle : Handle) :
    Except Fault (Element × Tailoring × MainTable) :=
  match tailoring.node? handle with
  | none => .error .notFound
  | some node =>
    let previous := Element.unpack (table.get codePoint)
    let based :=
      if previous.isReference || node.base?.isSome then node else node.setElement 0 previous
    .ok (previous,
      { tailoring.putNode handle based with
        memory := Relocation.forget tailoring.memory codePoint },
      table.set codePoint (Element.ofHandle handle).pack)

/-! ## Reading -/

/-- The element that a node lists for a code point. -/
def lookup (tailoring : Tailoring) (handle : Handle) (codePoint : UInt16) : Option Element :=
  (tailoring.node? handle).bind (·.lookup codePoint)

/-- The slot where a node lists a code point. -/
def find (tailoring : Tailoring) (handle : Handle) (codePoint : UInt16) : Option Nat :=
  (tailoring.node? handle).bind (·.find codePoint)

/-- The element in a slot of a node. -/
def elementAt (tailoring : Tailoring) (handle : Handle) (slot : Nat) : Option Element :=
  (tailoring.node? handle).bind (·.elementAt slot)

/-- The element that a node has for the text that leads to it. -/
def base? (tailoring : Tailoring) (handle : Handle) : Option Element :=
  (tailoring.node? handle).bind Node.base?

/-- Does a sequence of code points, read from a node on, have an element of its own?  A code point 0
ends the sequence.  A final element decides at once, a reference leads on, and where the sequence
ends the node reached decides. -/
def isTailored (tailoring : Tailoring) : Handle → List UInt16 → Bool
  | handle, [] => (tailoring.base? handle).isSome
  | handle, codePoint :: rest =>
    if codePoint = 0 then (tailoring.base? handle).isSome
    else
      match tailoring.lookup handle codePoint with
      | none => false
      | some (.direct word) => !(Element.direct word).isNotFound
      | some (.reference payload) =>
        match Handle.ofPayload? payload with
        | some next => tailoring.isTailored next rest
        | none => false

/-! ## First laws -/

@[simp] theorem size_putNode (tailoring : Tailoring) (handle : Handle) (node : Node) :
    (tailoring.putNode handle node).nodes.size = tailoring.nodes.size := by
  simp [putNode]

@[simp] theorem size_pushNode (tailoring : Tailoring) (node : Node) :
    (tailoring.pushNode node).nodes.size = tailoring.nodes.size + 1 := by
  simp [pushNode]

@[simp] theorem size_copy (tailoring : Tailoring) :
    tailoring.copy.nodes.size = tailoring.nodes.size := by
  simp [copy]

theorem node?_putNode_self {tailoring : Tailoring} {handle : Handle} (node : Node)
    (h : handle.index < tailoring.nodes.size) :
    (tailoring.putNode handle node).node? handle = some node := by
  simp [node?, putNode, h]

theorem node?_putNode_of_ne (tailoring : Tailoring) {written read : Handle} (node : Node)
    (h : written.index ≠ read.index) :
    (tailoring.putNode written node).node? read = tailoring.node? read := by
  simp [node?, putNode, Array.getElem?_setIfInBounds_ne h]

end Tailoring

end Contractions
