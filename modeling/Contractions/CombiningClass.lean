/-
# Contractions.CombiningClass — the summary of the combining classes of some code points.

Every code point has a combining class between 0 and 255, which decides how combining marks may be
reordered.  A packed node keeps only a summary of the classes of the code points that it lists: the
greatest of them, and whether they are all the same.  That is enough to decide whether a scan for a
mark has to look past others.
-/

namespace Contractions

/-- What a packed node keeps of the classes of its code points: the greatest class in the low eight
bits, and above it one bit that says whether they all agree. -/
structure ClassSummary where
  bits : UInt16
deriving DecidableEq, Inhabited, Repr

namespace ClassSummary

/-- The bit that is set when all classes agree. -/
def uniformBit : UInt16 := 256

/-- The summary of some classes.  The least class of none is 255 and the greatest is 0, so an empty
list does not count as uniform. -/
def ofClasses (classes : List UInt8) : ClassSummary :=
  let least := classes.foldl min 255
  let greatest := classes.foldl max 0
  ⟨(if least = greatest then uniformBit else 0) + greatest.toUInt16⟩

/-- The summary of the classes of some code points. -/
def of (classOf : UInt16 → UInt8) (codePoints : List UInt16) : ClassSummary :=
  ofClasses (codePoints.map classOf)

/-- Do all classes agree?  Never so for an empty list. -/
def isUniform (summary : ClassSummary) : Bool :=
  summary.bits &&& uniformBit != 0

/-- The greatest class, or 0 for an empty list. -/
def maxClass (summary : ClassSummary) : UInt8 :=
  summary.bits.toUInt8

end ClassSummary

end Contractions
