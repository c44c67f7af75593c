/-
# Contractions.Proofs.Stranded — what a refused request leaves behind.

To make a node, to change what one lists and to attach one happen in full or not at all.  A writer
has two stages: it claims a node, which makes one where the handle names none, and then it writes to
it. Where the node was there, a refused write leaves everything as it was.  Where it was made just
then, it stays: it takes the next handle, every node made later has a handle further on, and a
packing lays it out with the others.

A new node has room for anything but a slot past its capacity (`Node.apply_fresh_eq_error_iff`), so
this can be told in advance.  `Session.Strands` is the condition, and
`refused_leaves_unless_strands` says that a refused request leaves the session as it was in all
cases but these, and which node is left behind in these.
-/
import Contractions.Proofs.Discipline
import Contractions.Proofs.Splicing

namespace Contractions

namespace Node

variable {node : Node} {capacity : Nat}

/-- One slot of a new node is in use, so that it can grow even if it has no other. -/
theorem grow_fresh (fresh : Node.fresh capacity = .ok node) : ∃ grown, node.grow = .ok grown := by
  have length : node.length = 1 := by
    rw [Node.length, (fresh_eq_ok fresh).2, List.length_nil]
  rw [grow_eq]
  cases granted : room node.length node.spare with
  | ok spare => exact ⟨_, rfl⟩
  | error fault =>
    obtain ⟨-, -, refused⟩ := room_eq_error_iff.mp granted
    rw [length] at refused
    exact absurd (by decide) refused

/-- The one edit that a new node refuses is to replace a slot past its capacity. -/
theorem apply_fresh_eq_error_iff (pos : 0 < capacity) (fresh : Node.fresh capacity = .ok node)
    {change : Node.Edit} {fault : Fault} :
    node.apply change = .error fault ↔
      ∃ offset codePoint element, change = .overwrite offset codePoint element ∧
        capacity ≤ offset ∧ fault = .slotOutOfBounds offset capacity := by
  obtain ⟨grown, grows⟩ := grow_fresh fresh
  constructor
  · intro refused
    cases change with
    | append codePoint element =>
      rw [apply, append, grows] at refused
      cases refused
    | insert codePoint element =>
      rw [apply, insert, grows] at refused
      cases refused
    | overwrite offset codePoint element =>
      rw [apply, overwrite, capacity_fresh pos fresh] at refused
      split at refused
      · cases refused
      · exact ⟨offset, codePoint, element, rfl, by omega, (Except.error.inj refused).symm⟩
    | setLast element => cases refused
    | grow =>
      rw [apply, grows] at refused
      cases refused
  · rintro ⟨offset, codePoint, element, rfl, past, rfl⟩
    rw [apply, overwrite, capacity_fresh pos fresh, if_neg (Nat.not_lt_of_le past)]

end Node

/-! ## A writer that makes a node and is refused -/

namespace Tailoring

variable {tailoring after : Tailoring} {target : Option Handle} {change : Node.Edit} {fault : Fault}

/-- A writer is going to make a node and to be refused then: no node is named, one can be made, and
the edit replaces a slot that a new node does not have. -/
def Strands (tailoring : Tailoring) (target : Option Handle) (change : Node.Edit) : Prop :=
  (∀ handle ∈ target, tailoring.nodes.size ≤ handle.index) ∧
    (∃ made, tailoring.allocate = .ok made) ∧
    ∃ offset codePoint element, change = .overwrite offset codePoint element ∧
      tailoring.sizing.slots ≤ offset

/-- Where the node was there, nothing was made. -/
theorem write_eq_error_of_lt {handle : Handle} (known : handle.index < tailoring.nodes.size)
    (refused : tailoring.write (some handle) change = (.error fault, after)) :
    after = tailoring := by
  have found : tailoring.node? handle = some tailoring.nodes[handle.index] :=
    Array.getElem?_eq_getElem known
  unfold write at refused
  rw [claim_of_lt known] at refused
  simp only [found] at refused
  split at refused
  · exact (Prod.mk.inj refused).2.symm
  · cases refused

/-- Otherwise no node could be made, or the new one refuses the edit and stays. -/
theorem write_eq_error_of_le (unknown : ∀ handle ∈ target, tailoring.nodes.size ≤ handle.index)
    (refused : tailoring.write target change = (.error fault, after)) :
    (∃ cause, tailoring.allocate = .error cause) ∧ after = tailoring ∨
      (∃ made, tailoring.allocate = .ok made) ∧
        ∃ node, Node.fresh tailoring.sizing.slots = .ok node ∧ node.apply change = .error fault ∧
          after = tailoring.pushNode node := by
  unfold write at refused
  rw [claim_of_le unknown] at refused
  rcases allocated : tailoring.allocate with cause | ⟨handle, made⟩
  · rw [allocated] at refused
    exact Or.inl ⟨⟨cause, rfl⟩, (Prod.mk.inj refused).2.symm⟩
  · obtain ⟨node, fresh, last, rfl⟩ := allocate_eq_ok allocated
    have found : (tailoring.pushNode node).node? handle = some node := by
      rw [node?_pushNode, if_pos last]
    rw [allocated] at refused
    simp only [found] at refused
    cases applied : node.apply change with
    | ok edited =>
      rw [applied] at refused
      cases refused
    | error cause =>
      rw [applied] at refused
      obtain ⟨same, rfl⟩ := Prod.mk.inj refused
      obtain rfl := Except.error.inj same
      exact Or.inr ⟨⟨_, rfl⟩, node, fresh, applied, rfl⟩

/-- A refused writer leaves the tailoring as it was, or it leaves a new node behind. -/
theorem write_eq_error (refused : tailoring.write target change = (.error fault, after)) :
    ¬ tailoring.Strands target change ∧ after = tailoring ∨
      tailoring.Strands target change ∧
        ∃ offset codePoint element node, change = .overwrite offset codePoint element ∧
          fault = .slotOutOfBounds offset tailoring.sizing.slots ∧
          Node.fresh tailoring.sizing.slots = .ok node ∧ after = tailoring.pushNode node := by
  rcases tailoring.target_cases target with ⟨handle, rfl, known⟩ | unknown
  · refine Or.inl ⟨fun strands => ?_, write_eq_error_of_lt known refused⟩
    have beyond := strands.1 handle rfl
    omega
  · rcases write_eq_error_of_le unknown refused with
      ⟨⟨cause, none⟩, same⟩ | ⟨made, node, fresh, applied, pushed⟩
    · refine Or.inl ⟨?_, same⟩
      rintro ⟨-, ⟨made, granted⟩, -⟩
      rw [none] at granted
      cases granted
    · obtain ⟨offset, codePoint, element, rfl, past, rfl⟩ :=
        (Node.apply_fresh_eq_error_iff tailoring.sizing.slots_pos fresh).mp applied
      exact Or.inr ⟨⟨unknown, made, offset, codePoint, element, rfl, past⟩, offset, codePoint,
        element, node, rfl, rfl, fresh, pushed⟩

end Tailoring

/-! ## The law of refused requests -/

namespace Session

/-- Requests that build a tailoring up, one step each: to make a node, to write to one, to change
what one lists, and to attach one. -/
def Request.tailors : Request → Bool
  | .allocate => true
  | .write _ _ => true
  | .change _ _ _ => true
  | .attach _ _ => true
  | _ => false

/-- A request is going to leave a node behind when it is refused. -/
def Strands (session : Session) : Request → Prop
  | .write target change => session.tailoring.Strands target change
  | _ => False

/-- A refused request leaves the session exactly as it was, unless it strands a node.  Then the node
is a new one behind the others, and everything else is as it was. -/
theorem refused_leaves_unless_strands {session after : Session} {request : Request}
    (tailors : request.tailors = true) {fault : Fault}
    (refused : session.perform request = (.error fault, after)) :
    (after = session ↔ ¬ session.Strands request) ∧
      (session.Strands request → ∃ target offset codePoint element node,
        request = .write target (.overwrite offset codePoint element) ∧
        fault = .slotOutOfBounds offset session.tailoring.sizing.slots ∧
        Node.fresh session.tailoring.sizing.slots = .ok node ∧
        after = { session with tailoring := session.tailoring.pushNode node }) := by
  -- what happens in full or not at all strands nothing
  have whole : ∀ outcome : Except Fault (Answer × Session),
      session.allOrNothing outcome = (.error fault, after) → after = session := by
    intro outcome same
    have kept := allOrNothing_of_error (congrArg Prod.fst same)
    rwa [same] at kept
  cases request with
  | allocate => exact ⟨iff_of_true (whole _ refused) id, False.elim⟩
  | change handle codePoint element => exact ⟨iff_of_true (whole _ refused) id, False.elim⟩
  | attach codePoint handle => exact ⟨iff_of_true (whole _ refused) id, False.elim⟩
  | write target change =>
    rw [perform, ofTailoring] at refused
    rcases wrote : session.tailoring.write target change with ⟨outcome, left⟩
    rw [wrote] at refused
    obtain ⟨answers, rfl⟩ := Prod.mk.inj refused
    obtain rfl := Fault.map_eq_error answers
    rcases Tailoring.write_eq_error wrote with ⟨keeps, rfl⟩ |
      ⟨strands, offset, codePoint, element, node, rfl, rfl, fresh, rfl⟩
    · exact ⟨iff_of_true rfl keeps, fun strands => absurd strands keeps⟩
    · refine ⟨iff_of_false (fun same => ?_) (not_not_intro strands), fun _ =>
        ⟨target, offset, codePoint, element, node, rfl, rfl, fresh, rfl⟩⟩
      have size := congrArg (fun session : Session => session.tailoring.nodes.size) same
      simp only [Tailoring.size_pushNode] at size
      omega
  | _ => cases tailors

/-- A slot past the capacity of a node that was there. -/
theorem refused_leaves_unless_strands_ring :
    let request : Request := .write (some ⟨0, by decide⟩) (.overwrite 20 5 (.direct 6))
    request.tailors = true ∧ ring.perform request = (.error (.slotOutOfBounds 20 20), ring) := by
  intro request
  have refused : (ring.perform request).1 = .error (.slotOutOfBounds 20 20) := by decide +kernel
  obtain ⟨same, -⟩ := @refused_leaves_unless_strands _ _ request rfl _ (Prod.ext refused rfl)
  refine ⟨rfl, Prod.ext refused (same.mpr ?_)⟩
  rintro ⟨unknown, -⟩
  have beyond : ring.tailoring.nodes.size ≤ 0 := unknown ⟨0, by decide⟩ rfl
  exact absurd beyond (by decide +kernel)

/-- The same slot where no handle is given.  The write is refused, and a session without nodes has
one afterwards. -/
theorem refused_write_strands :
    let request : Request := .write none (.overwrite 20 5 (.direct 6))
    small.tailoring.Reachable ∧ request.tailors = true ∧
      (small.perform request).1 = .error (.slotOutOfBounds 20 20) ∧
      small.tailoring.nodes.size = 0 ∧ (small.perform request).2.tailoring.nodes.size = 1 ∧
      (small.perform request).2 ≠ small := by
  intro request
  have refused : (small.perform request).1 = .error (.slotOutOfBounds 20 20) := by decide +kernel
  have more : (small.perform request).2.tailoring.nodes.size = 1 := by decide +kernel
  refine ⟨.opened default, rfl, refused, rfl, more, fun same => ?_⟩
  rw [same] at more
  cases more

end Session

end Contractions
