/-
# Contractions.Session — a tailoring at work on a main table.

A session is a tailoring together with the main table that it extends, and a request is one thing
that may be asked of the two.  `perform` gives the answer, or the fault, and the session afterwards;
`run` performs several requests in turn and goes on after a fault.
-/
import Contractions.Session.Packing

namespace Contractions

namespace Session

/-! ## Requests and answers -/

/-- One thing that may be asked of a session. -/
inductive Request where
  /-- Make a node. -/
  | allocate
  /-- Show the node that a handle names, or make one where no handle is given. -/
  | resolve (target : Option Handle)
  /-- Resolve a node and edit it, if there is one. -/
  | edit (target : Option Handle) (change : Node.Edit)
  /-- Edit the node that a handle names, or else a new one. -/
  | write (target : Option Handle) (change : Node.Edit)
  /-- Replace the element that a node lists for a code point. -/
  | change (handle : Handle) (codePoint : UInt16) (element : Element)
  /-- Make a code point of the main table refer to a node. -/
  | attach (codePoint : UInt16) (handle : Handle)
  /-- Write a packed element straight to the main table. -/
  | assign (codePoint : UInt16) (element : Element)
  /-- Lay the nodes end to end. -/
  | pack (base : Nat) (classOf : UInt16 → UInt8)
  /-- The element that a node lists for a code point. -/
  | lookup (handle : Handle) (codePoint : UInt16)
  /-- The slot where a node lists a code point. -/
  | find (handle : Handle) (codePoint : UInt16)
  /-- The element in a slot of a node. -/
  | elementAt (handle : Handle) (slot : Nat)
  /-- Whether a sequence of code points has an element of its own. -/
  | isTailored (handle : Handle) (sequence : List UInt16)

/-- What a request that is not refused answers. -/
inductive Answer where
  | done
  | handle (handle : Handle)
  | node (found : Option (Handle × Node))
  | element (found : Option Element)
  | slot (found : Option Nat)
  | verdict (holds : Bool)
  | count (slots : Nat)
deriving DecidableEq, Repr

/-! ## Performing requests -/

/-- An answer of the tailoring alone, with the table as it was. -/
def ofTailoring {α : Type} (session : Session) (answer : α → Answer)
    (outcome : Except Fault α × Tailoring) : Except Fault Answer × Session :=
  (outcome.1.map answer, { session with tailoring := outcome.2 })

/-- What happens in full or leaves the session as it was. -/
def allOrNothing (session : Session) (outcome : Except Fault (Answer × Session)) :
    Except Fault Answer × Session :=
  match outcome with
  | .ok (answer, after) => (.ok answer, after)
  | .error fault => (.error fault, session)

/-- Perform a request. -/
def perform (session : Session) : Request → Except Fault Answer × Session
  | .allocate =>
    session.allOrNothing <| session.tailoring.allocate.map fun (handle, tailoring) =>
      (.handle handle, { session with tailoring })
  | .resolve target =>
    session.allOrNothing <| (session.tailoring.resolve target).map fun (found, tailoring) =>
      (.node found, { session with tailoring })
  | .edit target change => session.ofTailoring .node (session.tailoring.edit target change)
  | .write target change =>
    session.ofTailoring (fun reference => .element (some reference))
      (session.tailoring.write target change)
  | .change handle codePoint element =>
    session.allOrNothing <| (session.tailoring.change handle codePoint element).map
      fun tailoring => (.handle handle, { session with tailoring })
  | .attach codePoint handle =>
    session.allOrNothing <| (session.tailoring.attach session.table codePoint handle).map
      fun (previous, tailoring, table) => (.element (some previous), { tailoring, table })
  | .assign codePoint element =>
    (.ok .done, { session with table := session.table.set codePoint element.pack })
  | .pack base classOf =>
    let (outcome, after) := (Work.pack base classOf).on session
    (outcome.map .count, after)
  | .lookup handle codePoint =>
    (.ok (.element (session.tailoring.lookup handle codePoint)), session)
  | .find handle codePoint => (.ok (.slot (session.tailoring.find handle codePoint)), session)
  | .elementAt handle slot => (.ok (.element (session.tailoring.elementAt handle slot)), session)
  | .isTailored handle sequence =>
    (.ok (.verdict (session.tailoring.isTailored handle sequence)), session)

/-- Perform requests in turn: their outcomes, and the session behind the last. -/
def run (session : Session) : List Request → List (Except Fault Answer) × Session
  | [] => ([], session)
  | request :: requests =>
    let (outcome, session) := session.perform request
    let (outcomes, session) := session.run requests
    (outcome :: outcomes, session)

/-! ## First laws -/

/-- A refusal of what happens in full or not at all leaves the session as it was. -/
theorem allOrNothing_of_error {session : Session} {outcome : Except Fault (Answer × Session)}
    {fault : Fault} (h : (session.allOrNothing outcome).1 = .error fault) :
    (session.allOrNothing outcome).2 = session := by
  unfold allOrNothing at h ⊢
  split <;> simp_all

end Session

end Contractions
