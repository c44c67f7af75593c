/-
# Contractions.Tailoring.FillRows — laying nodes end to end in the two rows they are stored in.

`packNodes` lays out slots.  A packed table is stored in two rows, though, and so are the nodes, and
the rows are filled one beside the other: for each node the summary and the code points of the pairs
go to one row, and all words in use, relocated one by one, go to the other.  Nothing here keeps the
two rows alike.  Every cut is checked; one that lies outside of a row has no outcome.

Of several reasons to refuse a layout the first counts: an offset that is too great, room that cannot
be granted, and a reference that names no node.
-/
import Contractions.Node.Rows
import Contractions.PackedRows
import Contractions.Tailoring.Pack

namespace Contractions

namespace PackedRows

/-- The offsets of nodes, put behind given ones, and where the last of the nodes stops.  Refused at
the first offset that no packed reference can hold. -/
def place (offsets : Array Nat) (next : Nat) : List Rows → Except Fault (Array Nat × Nat)
  | [] => .ok (offsets, next)
  | rows :: later =>
    if next ≤ maxOffset then place (offsets.push next) (next + rows.used) later
    else .error (.offsetOverflow next)

/-- Put the slots in use of a node behind what the rows of a table hold. -/
def fill (table : PackedRows) (classOf : UInt16 → UInt8) (rows : Rows) :
    Option (Except Fault PackedRows) := do
  let pairs ← Row.behind (← rows.codePointsInUse) 1
  let words ← rows.wordsInUse
  let codePoints := table.codePoints ++ (ClassSummary.of classOf pairs).bits :: pairs
  return (words.mapM (relocateWord table.offsets)).map fun relocated =>
    { table with codePoints, words := table.words ++ relocated }

/-- Put the slots in use of several nodes there, node after node. -/
def fillAll (table : PackedRows) (classOf : UInt16 → UInt8) :
    List Rows → Option (Except Fault PackedRows)
  | [] => some (.ok table)
  | rows :: later => do
    match ← table.fill classOf rows with
    | .error fault => return .error fault
    | .ok filled => filled.fillAll classOf later

/-- Lay nodes end to end from an offset on. -/
def lay (base : Nat) (classOf : UInt16 → UInt8) (nodes : List Rows) :
    Option (Except Fault PackedRows) :=
  match place #[] base nodes with
  | .error fault => some (.error fault)
  | .ok (offsets, stop) => do
    let table : PackedRows := { base, codePoints := [], words := [], offsets }
    if Grantable elementBytes (← table.relative stop) then
      table.fillAll classOf nodes
    else
      return .error .outOfMemory

end PackedRows

end Contractions
