/-
# Contractions.Handle — the names of contraction nodes.

Nodes are numbered in the order in which they are made.  A number that fits the payload of a packed
reference is a handle, with one exception: the payload with all 24 bits set means "a node that does
not exist yet" and names none.
-/
import Contractions.Element

namespace Contractions

/-- The number of a contraction node, small enough to stand in a packed reference. -/
structure Handle where
  index : Nat
  index_lt : index < 0xFFFFFF
deriving DecidableEq, Repr

namespace Handle

/-- How many handles there are; as a payload, this number stands for no node. -/
def count : Nat := 0xFFFFFF

/-- The handle with the greatest number. -/
def last : Handle := ⟨0xFFFFFE, by decide⟩

instance : Inhabited Handle := ⟨⟨0, by decide⟩⟩

/-- Handles are ordered by their numbers. -/
instance : Ord Handle := ⟨fun a b => compare a.index b.index⟩

/-- The handle with a given number, if there is one. -/
def ofNat? (index : Nat) : Option Handle :=
  if h : index < 0xFFFFFF then some ⟨index, h⟩ else none

/-- The handle in the low 24 bits of a word or payload. -/
def ofPayload? (payload : UInt32) : Option Handle :=
  ofNat? (payload &&& Element.payloadMask).toNat

/-- The payload that names the node. -/
def payload (handle : Handle) : UInt32 :=
  handle.index.toUInt32

theorem ofNat?_index (handle : Handle) : ofNat? handle.index = some handle := by
  simp [ofNat?, handle.index_lt]

/-- A number names a handle exactly when it is below the number kept for "no node yet". -/
theorem ofNat?_isSome_iff (index : Nat) : (ofNat? index).isSome = true ↔ index < count := by
  unfold ofNat? count
  split <;> simp_all

end Handle

namespace Element

/-- The element that refers to a node. -/
def ofHandle (handle : Handle) : Element :=
  .reference handle.payload

/-- The node that an element refers to: the low 24 bits of a reference, unless they name no node. -/
def handle? : Element → Option Handle
  | direct _ => none
  | reference payload => Handle.ofPayload? payload

end Element

end Contractions
