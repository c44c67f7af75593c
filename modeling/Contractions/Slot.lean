/-
# Contractions.Slot — one code point beside one packed element.

Nodes and packed tables are sequences of slots.  Two rules about such sequences are shared by both:
how a code point is located, and where a new pair goes in a sorted sequence.

Locating reads from the front and gives up at the first greater code point.  On a sequence whose
code points never decrease this finds a code point whenever it is listed, and of several pairs with
the same code point the foremost.  On any other sequence it may miss some.
-/
import Contractions.Element

namespace Contractions

/-- A code point and the packed element it sorts by. -/
structure Slot where
  codePoint : UInt16
  word : UInt32
deriving DecidableEq, Repr

namespace Slot

/-- The slot that stores an element for a code point. -/
def of (codePoint : UInt16) (element : Element) : Slot :=
  ⟨codePoint, element.pack⟩

/-- The element in the slot. -/
def element (slot : Slot) : Element :=
  .unpack slot.word

/-- The slot with another element for the same code point. -/
def withElement (slot : Slot) (element : Element) : Slot :=
  { slot with word := element.pack }

/-- A slot that nothing was written to. -/
def blank : Slot := ⟨0x4646, 0x46464646⟩

/-- The first slot of a new node: no code point, and an element that stands for none. -/
def reserved : Slot := .of 0 .notFound

instance : Inhabited Slot := ⟨blank⟩

/-! ## Locating a code point -/

/-- The position of the first slot with the code point, given up at the first greater one. -/
def locate (codePoint : UInt16) : List Slot → Option Nat
  | [] => none
  | slot :: rest =>
    if slot.codePoint < codePoint then (locate codePoint rest).map (· + 1)
    else if slot.codePoint = codePoint then some 0
    else none

/-! ## Sorted insertion -/

/-- Put a slot in front of the first one whose code point is not smaller, so that of equal code
points the newest comes first. -/
def insertSorted (new : Slot) : List Slot → List Slot
  | [] => [new]
  | slot :: rest =>
    if slot.codePoint < new.codePoint then slot :: insertSorted new rest else new :: slot :: rest

@[simp] theorem length_insertSorted (new : Slot) (slots : List Slot) :
    (insertSorted new slots).length = slots.length + 1 := by
  induction slots with
  | nil => rfl
  | cons slot rest ih => by_cases h : slot.codePoint < new.codePoint <;> simp [insertSorted, h, ih]

/-- A located position lies within the sequence. -/
theorem locate_lt {codePoint : UInt16} {slots : List Slot} {position : Nat}
    (h : locate codePoint slots = some position) : position < slots.length := by
  induction slots generalizing position with
  | nil => simp [locate] at h
  | cons slot rest ih =>
    unfold locate at h
    split at h
    · obtain ⟨inner, found, rfl⟩ := Option.map_eq_some_iff.1 h
      simpa using ih found
    · split at h
      · simp only [Option.some.injEq] at h
        simp [← h]
      · simp at h

end Slot

end Contractions
