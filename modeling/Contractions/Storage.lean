/-
# Contractions.Storage — how much room a tailoring starts with and what can be granted at all.

A tailoring begins with room for some number of nodes, and each node with room for some number of
slots; both double when they are used up.  A buffer whose size in bytes does not fit a signed 64-bit
number can never be granted, so a request for one is refused before anything is changed.

Size is the only reason to refuse room here.  That a buffer of a lesser size is refused for want of
memory is left out, wherever one is asked for: for the nodes, for the slots of a node, for the rows,
the offsets and the relocations of a packing, and for a copy.
-/

namespace Contractions

/-! ## What can be granted -/

/-- The greatest size in bytes of any one buffer. -/
def bufferLimit : Nat := 0x7FFFFFFFFFFFFFFF

/-- The bytes of one packed element. -/
def elementBytes : Nat := 4

/-- The bytes of the record that stands for one node. -/
def nodeBytes : Nat := 56

/-- A buffer of `count` items, each of `width` bytes, can be granted. -/
abbrev Grantable (width count : Nat) : Prop :=
  width * count ≤ bufferLimit

/-! ## Initial room -/

/-- The room, in nodes and in slots, where nothing else is asked for. -/
def usualRoom : Nat := 20

/-- The room that a tailoring and each of its nodes start with; never none. -/
structure Sizing where
  nodes : Nat := usualRoom
  slots : Nat := usualRoom
  nodes_pos : 0 < nodes := by decide
  slots_pos : 0 < slots := by decide
deriving DecidableEq, Repr

namespace Sizing

instance : Inhabited Sizing := ⟨{}⟩

/-- Start with room for `count` nodes, but at least one. -/
def withNodes (sizing : Sizing) (count : Nat) : Sizing :=
  { sizing with nodes := max 1 count, nodes_pos := by omega }

/-- Start each node with room for `count` slots, but at least one. -/
def withSlots (sizing : Sizing) (count : Nat) : Sizing :=
  { sizing with slots := max 1 count, slots_pos := by omega }

end Sizing

end Contractions
