/-
# Contractions.MainTable — the packed element of every code point by itself.

The main table has one slot per code point, counted from 0.  It may be shorter than the range of
code points: one past its end reads as "not found", and a write to it is dropped.  Several tailorings
may share a main table, so nothing in it says who wrote a slot.
-/
import Contractions.Element

namespace Contractions

/-- How many 16-bit code points there are. -/
def codePointCount : Nat := 65536

/-- The packed elements of the code points from 0 on. -/
structure MainTable where
  words : Array UInt32
  size_le : words.size ≤ codePointCount
deriving DecidableEq, Repr

namespace MainTable

/-! ## Making a table -/

/-- A table with `size` slots that all hold the same element. -/
def filled (size : Nat) (element : Element) : MainTable where
  words := Array.replicate (min size codePointCount) element.pack
  size_le := by simp only [Array.size_replicate]; omega

/-- A table in which every code point has the same element. -/
def uniform (element : Element) : MainTable :=
  filled codePointCount element

instance : Inhabited MainTable := ⟨filled 0 .notFound⟩

/-! ## Reading and writing -/

/-- How many code points have a slot. -/
def size (table : MainTable) : Nat :=
  table.words.size

/-- The packed element of a code point. -/
def get (table : MainTable) (codePoint : UInt16) : UInt32 :=
  table.words.getD codePoint.toNat Element.notFound.pack

/-- Give a code point a packed element, if it has a slot. -/
def set (table : MainTable) (codePoint : UInt16) (word : UInt32) : MainTable where
  words := table.words.setIfInBounds codePoint.toNat word
  size_le := by simpa using table.size_le

@[simp] theorem size_set (table : MainTable) (codePoint : UInt16) (word : UInt32) :
    (table.set codePoint word).size = table.size := by
  simp [set, size]

/-- A written slot reads as what was written, where there is one. -/
theorem get_set_self {table : MainTable} {codePoint : UInt16} (word : UInt32)
    (h : codePoint.toNat < table.size) : (table.set codePoint word).get codePoint = word := by
  simp only [size] at h
  simp [get, set, h]

/-- A write changes no other code point. -/
theorem get_set_of_ne (table : MainTable) {written read : UInt16} (word : UInt32)
    (h : written ≠ read) : (table.set written word).get read = table.get read := by
  have : written.toNat ≠ read.toNat := fun same => h (UInt16.toNat_inj.1 same)
  simp [get, set, Array.getElem?_setIfInBounds_ne this]

/-- A code point without a slot reads as not found. -/
theorem get_of_size_le {table : MainTable} {codePoint : UInt16}
    (h : table.size ≤ codePoint.toNat) : table.get codePoint = Element.notFound.pack := by
  simp only [size] at h
  simp [get, h]

end MainTable

end Contractions
