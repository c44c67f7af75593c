/-
# Contractions.Fault — why an operation on a tailoring is refused.

Each constructor is one cause; the wording stands in `Fault.message` alone.
-/
import Contractions.Text.Hex

namespace Contractions

/-- The cause for which an operation is refused. -/
inductive Fault where
  /-- A buffer cannot be granted, or all handles are taken. -/
  | outOfMemory
  /-- A slot was to be written at or past the capacity of its node. -/
  | slotOutOfBounds (offset capacity : Nat)
  /-- The handle names no node, or the node does not list the code point. -/
  | notFound
  /-- A reference to be packed names no node. -/
  | danglingReference (payload : UInt32)
  /-- A node would start at an offset that does not fit a packed reference. -/
  | offsetOverflow (offset : Nat)
deriving DecidableEq, Repr

namespace Fault

/-- The cause in words. -/
def message : Fault → String
  | outOfMemory => "out of memory for contractions"
  | slotOutOfBounds offset capacity =>
    s!"slot {offset} is out of bounds for an entry of capacity {capacity}"
  | notFound => "no such contraction"
  | danglingReference payload =>
    "contraction reference to unallocated handle " ++ Hex.marked payload.toNat
  | offsetOverflow offset =>
    "flattened offset " ++ Hex.marked offset ++ " does not fit into 24 bits"

end Fault

end Contractions
