/-
# Contractions.Workspace — several tailorings and the main tables they share.

Tailorings are numbered in the order in which they are opened or copied, and each works on one main
table for good.  A copy works on the same main table as the tailoring it was made from, so what one
writes there the other reads.  A closed tailoring keeps its number and answers nothing more.
-/
import Contractions.Session

namespace Contractions

/-- An open tailoring and the number of the main table that it works on. -/
structure Member where
  table : Nat
  tailoring : Tailoring
deriving DecidableEq, Inhabited, Repr

/-- Main tables and the tailorings that work on them. -/
structure Workspace where
  tables : Array MainTable
  /-- By number; `none` stands for a closed tailoring. -/
  members : Array (Option Member) := #[]
deriving DecidableEq, Inhabited, Repr

namespace Workspace

/-! ## Reading -/

/-- The main table with a number. -/
def table (workspace : Workspace) (number : Nat) : MainTable :=
  workspace.tables[number]?.getD default

/-- The tailoring with a number, while it is open. -/
def member? (workspace : Workspace) (number : Nat) : Option Member :=
  workspace.members[number]?.join

/-! ## Opening, copying and closing -/

/-- Add a tailoring and answer its number. -/
def enter (workspace : Workspace) (member : Member) : Nat × Workspace :=
  (workspace.members.size, { workspace with members := workspace.members.push (some member) })

/-- Open an empty tailoring on a main table. -/
def openTailoring (workspace : Workspace) (table : Nat) (sizing : Sizing) : Nat × Workspace :=
  workspace.enter { table, tailoring := .empty sizing }

/-- Copy an open tailoring. -/
def copyTailoring (workspace : Workspace) (number : Nat) : Option (Nat × Workspace) :=
  (workspace.member? number).map fun member =>
    workspace.enter { member with tailoring := member.tailoring.copy }

/-- Close an open tailoring. -/
def closeTailoring (workspace : Workspace) (number : Nat) : Option Workspace :=
  (workspace.member? number).map fun _ =>
    { workspace with members := workspace.members.setIfInBounds number none }

/-! ## Writing -/

/-- Write a packed element straight to a main table. -/
def assign (workspace : Workspace) (table : Nat) (codePoint : UInt16) (element : Element) :
    Workspace :=
  { workspace with tables := workspace.tables.modify table (·.set codePoint element.pack) }

/-- Put the session of a member back. -/
def put (workspace : Workspace) (number : Nat) (member : Member) (session : Session) : Workspace where
  tables := workspace.tables.setIfInBounds member.table session.table
  members := workspace.members.setIfInBounds number
    (some { member with tailoring := session.tailoring })

/-- Perform a request on an open tailoring. -/
def perform (workspace : Workspace) (number : Nat) (request : Session.Request) :
    Option (Except Fault Session.Answer × Workspace) :=
  (workspace.member? number).map fun member =>
    let session := { tailoring := member.tailoring, table := workspace.table member.table }
    let (outcome, session) := Session.perform session request
    (outcome, workspace.put number member session)

end Workspace

end Contractions
