/-
# Contractions.Proofs.Course — what happens to a session in the long run.

A run performs requests.  A course may do one thing more: put a copy of the tailoring in the place
of the tailoring and go on with the copy, which has the same nodes and no spare room.  The laws that
hold however a session came about are stated for every course from an opened tailoring.
-/
import Contractions.Proofs.Upkeep

namespace Contractions

namespace Session

/-- One thing that can happen to a session. -/
inductive Event where
  /-- A request is performed. -/
  | request (request : Request)
  /-- A copy takes the place of the tailoring. -/
  | copy

/-- The outcome of an event, and the session behind it. -/
def undergo (session : Session) : Event → Except Fault Answer × Session
  | .request request => session.perform request
  | .copy => (.ok .done, { session with tailoring := session.tailoring.copy })

/-- The session behind several events in turn. -/
def after (session : Session) : List Event → Session
  | [] => session
  | event :: events => (session.undergo event).2.after events

/-- The outcomes of several events in turn. -/
def outcomes (session : Session) : List Event → List (Except Fault Answer)
  | [] => []
  | event :: events => (session.undergo event).1 :: (session.undergo event).2.outcomes events

theorem reachable_undergo {session : Session} (reached : session.tailoring.Reachable)
    (event : Event) : (session.undergo event).2.tailoring.Reachable := by
  cases event with
  | request request => exact reached.performed session.table request
  | copy => exact reached.copied

/-- A course from a reachable tailoring ends in one. -/
theorem reachable_after {session : Session} (reached : session.tailoring.Reachable)
    (events : List Event) : (session.after events).tailoring.Reachable := by
  induction events generalizing session with
  | nil => exact reached
  | cons event events ih => exact ih (reachable_undergo reached event)

/-- What all requests and all copies keep, a course keeps. -/
theorem Lasting.after {Q : Tailoring → Prop} (lasting : Lasting Q)
    (copies : ∀ tailoring : Tailoring, Q tailoring → Q tailoring.copy) {session : Session}
    (before : Q session.tailoring) (events : List Event) : Q (session.after events).tailoring := by
  induction events generalizing session with
  | nil => exact before
  | cons event events ih =>
    refine ih ?_
    cases event with
    | request request => exact lasting.perform before request
    | copy => exact copies _ before

/-- No course takes a node away. -/
theorem after_grows (session : Session) (events : List Event) :
    Tailoring.Grows session.tailoring (session.after events).tailoring := by
  refine (Tailoring.Grows.lasting session.tailoring).after ?_ (.refl session.tailoring) events
  intro tailoring grows
  refine ⟨?_, ?_⟩
  · rw [Tailoring.size_copy]
    exact grows.size_le
  · rw [Tailoring.size_copy]
    exact grows.handles

end Session

end Contractions
