/-
# Contractions.Element — collation elements and the word each is packed into.

A collation element is the weight that a code point sorts by.  Every table keeps its elements as
32-bit words.  A word whose four highest bits are all set is special, and the next four bits say in
which way; tag two means a reference, whose low 24 bits name the node where the search goes on.

    31    28 27    24 23                        0
    +-------+--------+--------------------------+
    |  1111 |  0010  |  handle or flat offset   |
    +-------+--------+--------------------------+

A tailoring writes the handle of a node there; packing the tailoring replaces it by the offset of
the node's slice.  The word alone does not say which of the two it carries.
-/

namespace Contractions

/-! ## Elements -/

/-- A collation element.  A `direct` element is a weight, or a special word that is no reference.
A `reference` carries its payload in full: only packing cuts it to 24 bits. -/
inductive Element where
  | direct (word : UInt32)
  | reference (payload : UInt32)
deriving DecidableEq, Inhabited, Repr

namespace Element

/-! ## The layout of a packed word -/

/-- The four highest bits, all set in a special word. -/
def specialMask : UInt32 := 0xF0000000

/-- The four bits that hold the tag of a special word. -/
def tagMask : UInt32 := 0x0F000000

/-- How far the tag stands from the low end of a word. -/
def tagShift : UInt32 := 24

/-- The tag of a reference. -/
def referenceTag : UInt32 := 2

/-- The 24 bits that hold the payload of a reference. -/
def payloadMask : UInt32 := 0x00FFFFFF

/-- The element of a code point that sorts nowhere: the special word with tag and payload zero. -/
def notFound : Element := .direct specialMask

/-- Does a packed word hold a reference?  It does exactly when it is special and has that tag. -/
def isReferenceWord (word : UInt32) : Bool :=
  word &&& specialMask == specialMask && (word &&& tagMask) >>> tagShift == referenceTag

/-- The word that stores an element.  A reference keeps the low 24 bits of its payload. -/
def pack : Element → UInt32
  | direct word => word
  | reference payload => specialMask ||| (referenceTag <<< tagShift) ||| (payload &&& payloadMask)

/-- The element that a word stores. -/
def unpack (word : UInt32) : Element :=
  if isReferenceWord word then .reference (word &&& payloadMask) else .direct word

/-- Is the element a reference, whatever its payload? -/
def isReference : Element → Bool
  | direct _ => false
  | reference _ => true

/-- Is the element the one of a code point that sorts nowhere? -/
def isNotFound (element : Element) : Bool :=
  element == notFound

/-! ## First laws -/

@[simp] theorem pack_direct (word : UInt32) : (direct word).pack = word := rfl

@[simp] theorem isNotFound_iff (element : Element) :
    element.isNotFound = true ↔ element = notFound := by
  simp [isNotFound]

theorem unpack_eq_reference {word : UInt32} (h : isReferenceWord word = true) :
    unpack word = .reference (word &&& payloadMask) := by
  simp [unpack, h]

theorem unpack_eq_direct {word : UInt32} (h : isReferenceWord word = false) :
    unpack word = .direct word := by
  simp [unpack, h]

/-- Unpacking tells references from other words by the layout alone. -/
theorem isReference_unpack (word : UInt32) : (unpack word).isReference = isReferenceWord word := by
  unfold unpack
  split
  · rename_i h
    simp [isReference, h]
  · rename_i h
    simpa [isReference] using h

@[simp] theorem unpack_pack_notFound : unpack notFound.pack = notFound := by decide

end Element

end Contractions
