/-
# Contractions.Relocation — turning handles into offsets, once.

Packing replaces the handle in every reference by the offset of the node's slice.  A word in the main
table does not show which of the two it carries, so packing keeps a memory of what it wrote there: a
list, ascending by code point, of the word written and the handle it stood for.  A main table slot
that still holds the remembered word is read back as the handle; any other slot was written since
and carries a handle anyway.  So no reference is ever relocated twice.
-/
import Contractions.Bisect
import Contractions.Element
import Contractions.Fault
import Contractions.Slot

namespace Contractions

/-! ## The memory of a packing -/

/-- What a packing wrote to one slot of the main table. -/
structure Relocation where
  codePoint : UInt16
  /-- The word written, a reference to an offset. -/
  written : UInt32
  /-- The handle that the offset replaced. -/
  payload : UInt32
deriving DecidableEq, Inhabited, Repr

namespace Relocation

/-- The word in the slot of a code point, with a remembered offset read back as its handle. -/
def readBack (memory : Array Relocation) (codePoint : UInt16) (word : UInt32) : UInt32 :=
  match bisect (fun relocation => relocation.codePoint.toNat) memory codePoint.toNat with
  | some found =>
    if memory[found].written = word then (Element.reference memory[found].payload).pack else word
  | none => word

/-- The memory without one code point. -/
def forget (memory : Array Relocation) (codePoint : UInt16) : Array Relocation :=
  memory.filter fun relocation => relocation.codePoint ≠ codePoint

/-- Nothing is read back from an empty memory. -/
@[simp] theorem readBack_empty (codePoint : UInt16) (word : UInt32) :
    readBack #[] codePoint word = word := by
  simp [readBack, bisect, bisectBetween]

/-- A code point that was forgotten is in the memory no more. -/
theorem codePoint_ne_of_mem_forget {memory : Array Relocation} {codePoint : UInt16}
    {relocation : Relocation} (h : relocation ∈ forget memory codePoint) :
    relocation.codePoint ≠ codePoint := by
  simp only [forget, Array.mem_filter, decide_eq_true_eq] at h
  exact h.2

end Relocation

/-! ## Relocating references -/

/-- The packed reference to the offset of the node that a payload names. -/
def relocatePayload (offsets : Array Nat) (payload : UInt32) : Except Fault UInt32 :=
  match offsets[payload.toNat]? with
  | some offset => .ok (Element.reference offset.toUInt32).pack
  | none => .error (.danglingReference payload)

/-- A packed element with the handle in a reference replaced by an offset. -/
def relocateWord (offsets : Array Nat) (word : UInt32) : Except Fault UInt32 :=
  match Element.unpack word with
  | .direct word => .ok word
  | .reference payload => relocatePayload offsets payload

/-- A slot with its element relocated. -/
def relocateSlot (offsets : Array Nat) (slot : Slot) : Except Fault Slot :=
  (relocateWord offsets slot.word).map fun word => { slot with word }

end Contractions
