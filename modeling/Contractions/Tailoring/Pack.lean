/-
# Contractions.Tailoring.Pack — laying the nodes of a tailoring end to end.

Packing has two parts.  The plan finds an offset for every node, relocates the references in the
nodes and in the main table, and may be refused; it changes nothing.  Carrying out a plan cannot be
refused: it keeps the packed table and the memory of what it writes, and writes the offsets to the
main table.  So a packing that is refused leaves everything as it was.

The nodes themselves keep their handles.  Packing again, after any further changes, starts from them
and from the main table as the memory reads it back.
-/
import Contractions.Tailoring.Basic

namespace Contractions

/-! ## Where the slices start -/

/-- The greatest offset that a packed reference can hold. -/
def maxOffset : Nat := Element.payloadMask.toNat

/-- Where the slices of nodes start when they are laid end to end from `start` on. -/
def slotStarts (start : Nat) : List Node → List Nat
  | [] => []
  | node :: nodes => start :: slotStarts (start + node.length) nodes

/-- How many slots some nodes have in use together. -/
def slotCount : List Node → Nat
  | [] => 0
  | node :: nodes => node.length + slotCount nodes

/-- The offsets of all nodes, or the first one that no packed reference can hold. -/
def placeNodes (base : Nat) (nodes : List Node) : Except Fault (Array Nat) :=
  let starts := slotStarts base nodes
  match starts.find? (maxOffset < ·) with
  | some start => .error (.offsetOverflow start)
  | none => .ok starts.toArray

/-! ## The slices -/

/-- The slots of a node's slice: those in use, relocated, with the summary of the combining classes
as the code point of the first. -/
def packNode (offsets : Array Nat) (classOf : UInt16 → UInt8) (node : Node) :
    Except Fault (List Slot) :=
  let summary := ClassSummary.of classOf (node.pairs.map Slot.codePoint)
  ({ node.reserved with codePoint := summary.bits } :: node.pairs).mapM (relocateSlot offsets)

/-- The slots of all slices, one after the other. -/
def packNodes (offsets : Array Nat) (classOf : UInt16 → UInt8) (nodes : List Node) :
    Except Fault (List Slot) :=
  (nodes.mapM (packNode offsets classOf)).map List.flatten

/-! ## The packed table -/

/-- The packed table of some nodes, laid end to end from `base` on.  Of several reasons to refuse it the
first counts, in this order: an offset that is too great, room that cannot be granted, and a dangling
reference. -/
def Packed.ofNodes (base : Nat) (classOf : UInt16 → UInt8) (nodes : List Node) :
    Except Fault Packed := do
  let offsets ← placeNodes base nodes
  if ¬ Grantable elementBytes (slotCount nodes) then
    throw .outOfMemory
  let slots ← packNodes offsets classOf nodes
  return { base, slots := slots.toArray, offsets }

/-! ## The references of the main table -/

/-- The handle that a code point of the main table refers to, with remembered offsets read back. -/
def MainTable.reference? (table : MainTable) (memory : Array Relocation) (codePoint : UInt16) :
    Option UInt32 :=
  match Element.unpack (Relocation.readBack memory codePoint (table.get codePoint)) with
  | .direct _ => none
  | .reference payload => some payload

/-- The code points of the main table that refer to nodes, in ascending order, with the handles. -/
def MainTable.references (table : MainTable) (memory : Array Relocation) :
    List (UInt16 × UInt32) :=
  (List.range table.size).filterMap fun index =>
    (table.reference? memory index.toUInt16).map (index.toUInt16, ·)

/-- What is to be written to the main table for one of its references. -/
def relocateReference (offsets : Array Nat) (reference : UInt16 × UInt32) :
    Except Fault Relocation :=
  (relocatePayload offsets reference.2).map fun written =>
    { codePoint := reference.1, written, payload := reference.2 }

/-- Write relocations to the main table. -/
def MainTable.relocated (table : MainTable) (relocations : Array Relocation) : MainTable :=
  relocations.foldl (fun table relocation => table.set relocation.codePoint relocation.written) table

/-! ## Packing -/

/-- What a packing is going to keep and to write. -/
structure PackPlan where
  packed : Packed
  relocations : Array Relocation
deriving DecidableEq, Repr

namespace Tailoring

/-- Work out a packing.  It is refused where the packed table of the nodes is, and otherwise where a
reference dangles in the main table. -/
def packPlan (tailoring : Tailoring) (table : MainTable) (base : Nat) (classOf : UInt16 → UInt8) :
    Except Fault PackPlan := do
  let packed ← Packed.ofNodes base classOf tailoring.nodes.toList
  let relocations ← (table.references tailoring.memory).mapM (relocateReference packed.offsets)
  return { packed, relocations := relocations.toArray }

/-- Pack the nodes, and answer how many slots they take.  Without nodes there is nothing to do, and
an earlier packed table stays. -/
def pack (tailoring : Tailoring) (table : MainTable) (base : Nat) (classOf : UInt16 → UInt8) :
    Except Fault (Nat × Tailoring × MainTable) :=
  if tailoring.nodes.isEmpty then
    .ok (0, tailoring, table)
  else
    (tailoring.packPlan table base classOf).map fun plan =>
      (plan.packed.length,
        { tailoring with packed := some plan.packed, memory := plan.relocations },
        table.relocated plan.relocations)

end Tailoring

/-! ## First laws -/

@[simp] theorem length_slotStarts (start : Nat) (nodes : List Node) :
    (slotStarts start nodes).length = nodes.length := by
  induction nodes generalizing start with
  | nil => rfl
  | cons node nodes ih => simp [slotStarts, ih]

/-- Writing relocations adds no slots and removes none. -/
@[simp] theorem MainTable.size_relocated (table : MainTable) (relocations : Array Relocation) :
    (table.relocated relocations).size = table.size := by
  unfold relocated
  rw [← Array.foldl_toList]
  generalize relocations.toList = writes
  induction writes generalizing table with
  | nil => rfl
  | cons write writes ih => simp [ih]

end Contractions
