/-
# Contractions.Proofs.SideBySide — two sessions at work on the same requests.

`Tailoring.Like` is carried over to sessions: two of them have the same main table, and tailorings
that are related node by node.  Their answers to a request agree, and they are so related
afterwards, as long as what the request does to a node respects the relation.

Which requests may fail to do so is said here too.  Only the edit of a node that is there can, and
of such an edit one lemma says all that it does.
-/
import Contractions.Proofs.Likeness

namespace Contractions

namespace Session

/-! ## Sessions that are related node by node -/

/-- Two sessions have the same main table, and tailorings that are related node by node. -/
structure Like (R : Node → Node → Prop) (a b : Session) : Prop where
  tailoring : Tailoring.Like R a.tailoring b.tailoring
  table : a.table = b.table

/-- Two answers are the same, except that a node that is shown may be another one, related to it. -/
inductive Answer.Like (R : Node → Node → Prop) : Answer → Answer → Prop where
  | same (answer : Answer) : Like R answer answer
  | node {handle : Handle} {x y : Node} (related : R x y) :
      Like R (.node (some (handle, x))) (.node (some (handle, y)))

/-- Two outcomes agree, and so do the sessions behind them. -/
structure Matches (R : Node → Node → Prop) (p q : Except Fault Answer × Session) : Prop where
  outcome : Agree (Answer.Like R) p.1 q.1
  session : Like R p.2 q.2

/-- What a request does to a node respects the relation, if it edits one that is there. -/
def Respects (R : Node → Node → Prop) (a b : Session) : Request → Prop
  | .edit target wanted => Tailoring.Like.Respects R a.tailoring b.tailoring target wanted
  | .write target wanted => Tailoring.Like.Respects R a.tailoring b.tailoring target wanted
  | _ => True

namespace Like

variable {R : Node → Node → Prop} {a b : Session}

theorem refl (reflexive : ∀ node, R node node) (a : Session) : Like R a a :=
  ⟨.refl reflexive a.tailoring, rfl⟩

theorem symm (symmetric : ∀ x y, R x y → R y x) (like : Like R a b) : Like R b a :=
  ⟨like.tailoring.symm symmetric, like.table.symm⟩

theorem trans (transitive : ∀ x y z, R x y → R y z → R x z) {c : Session} (left : Like R a b)
    (right : Like R b c) : Like R a c :=
  ⟨left.tailoring.trans transitive right.tailoring, left.table.trans right.table⟩

theorem answer_of_shown {p q : Option (Handle × Node)} (shown : Tailoring.Like.Shown R p q) :
    Answer.Like R (.node p) (.node q) := by
  cases shown with
  | none => exact .same _
  | @some p q related =>
    obtain ⟨handle, x⟩ := p
    obtain ⟨_, y⟩ := q
    obtain ⟨rfl, related⟩ := related
    exact .node related

/-- What happens in full or not at all happens on both sides or on neither. -/
theorem allOrNothing (like : Like R a b) {first second : Except Fault (Answer × Session)}
    (agree : Agree (fun p q => Answer.Like R p.1 q.1 ∧ Like R p.2 q.2) first second) :
    Matches R (a.allOrNothing first) (b.allOrNothing second) := by
  cases agree with
  | error fault => exact ⟨.error fault, like⟩
  | ok related => exact ⟨.ok related.1, related.2⟩

theorem perform_attach (law : Node.Likeness R) (like : Like R a b) (codePoint : UInt16)
    (handle : Handle) :
    Matches R (a.perform (.attach codePoint handle)) (b.perform (.attach codePoint handle)) := by
  cases found : a.tailoring.node? handle with
  | none =>
    rw [perform_attach_of_none found, perform_attach_of_none (like.tailoring.node?_none found)]
    exact ⟨.error .notFound, like⟩
  | some x =>
    obtain ⟨y, found', related⟩ := like.tailoring.node?_some found
    rw [perform_attach_of_some found, perform_attach_of_some found']
    unfold attached
    rw [like.table, like.tailoring.memory]
    have put := like.tailoring.putNode
      (law.based related (.unpack (b.table.get codePoint))) handle
    exact ⟨.ok (.same _), ⟨put.sizing, put.capacity, put.packed, rfl, put.size, put.nodes⟩, rfl⟩

theorem perform_pack (law : Node.Likeness R) (like : Like R a b) (base : Nat)
    (classOf : UInt16 → UInt8) :
    Matches R (a.perform (.pack base classOf)) (b.perform (.pack base classOf)) := by
  have empty : a.tailoring.nodes.isEmpty = b.tailoring.nodes.isEmpty := by
    rw [Array.isEmpty, Array.isEmpty, like.tailoring.size]
  rw [Session.perform_pack, Session.perform_pack]
  unfold Tailoring.pack
  rw [empty, like.tailoring.packPlan_eq law, like.table]
  cases none : b.tailoring.nodes.isEmpty with
  | true =>
    simp only [if_true]
    exact ⟨.ok (.same _), like.tailoring, rfl⟩
  | false =>
    simp only [Bool.false_eq_true, if_false]
    cases b.tailoring.packPlan b.table base classOf with
    | error fault => exact ⟨.error fault, like⟩
    | ok plan =>
      have tailoring := like.tailoring
      exact ⟨.ok (.same _), ⟨tailoring.sizing, tailoring.capacity, rfl, rfl, tailoring.size,
        tailoring.nodes⟩, rfl⟩

/-- Two sessions that are related node by node give answers that agree, and are so related
afterwards, provided that what is done to a node respects the relation. -/
theorem perform (law : Node.Likeness R) (like : Like R a b) {request : Request}
    (respects : Respects R a b request) : Matches R (a.perform request) (b.perform request) := by
  cases request with
  | allocate =>
    refine like.allOrNothing ((like.tailoring.allocate law).map ?_)
    rintro ⟨handle, made⟩ ⟨_, made'⟩ ⟨rfl, likeAfter, -⟩
    exact ⟨.same _, likeAfter, like.table⟩
  | resolve target =>
    refine like.allOrNothing ((like.tailoring.resolve law target).map ?_)
    rintro ⟨_, after⟩ ⟨_, after'⟩ ⟨likeAfter, ⟨rfl, rfl⟩ | ⟨handle, x, y, rfl, rfl, related, -⟩⟩
    · exact ⟨.same _, likeAfter, like.table⟩
    · exact ⟨.node related, likeAfter, like.table⟩
  | edit target edit =>
    obtain ⟨agree, likeAfter⟩ := like.tailoring.edit law respects
    exact ⟨agree.map fun _ _ => answer_of_shown, likeAfter, like.table⟩
  | write target edit =>
    obtain ⟨agree, likeAfter⟩ := like.tailoring.write law respects
    refine ⟨agree.map ?_, likeAfter, like.table⟩
    rintro reference _ rfl
    exact .same _
  | change handle codePoint element =>
    refine like.allOrNothing ((like.tailoring.change law handle codePoint element).map ?_)
    intro after after' likeAfter
    exact ⟨.same _, likeAfter, like.table⟩
  | attach codePoint handle => exact like.perform_attach law codePoint handle
  | assign codePoint element =>
    refine ⟨.ok (.same _), like.tailoring, ?_⟩
    show a.table.set _ _ = b.table.set _ _
    rw [like.table]
  | pack base classOf => exact like.perform_pack law base classOf
  | lookup handle codePoint =>
    simp only [Session.perform, like.tailoring.lookup_eq law]
    exact ⟨.ok (.same _), like⟩
  | find handle codePoint =>
    simp only [Session.perform, like.tailoring.find_eq law]
    exact ⟨.ok (.same _), like⟩
  | elementAt handle slot =>
    simp only [Session.perform, like.tailoring.elementAt_eq law]
    exact ⟨.ok (.same _), like⟩
  | isTailored handle sequence =>
    simp only [Session.perform, like.tailoring.isTailored_eq law]
    exact ⟨.ok (.same _), like⟩

end Like

/-! ## The edit of a node that is there -/

/-- A request edits the node that a handle names, one way or the other. -/
inductive Request.EditsNode (handle : Handle) (change : Node.Edit) : Request → Prop where
  | edit : EditsNode handle change (.edit (some handle) change)
  | write : EditsNode handle change (.write (some handle) change)

/-- What is answered to the edit of a node. -/
def Request.acknowledged (handle : Handle) (edited : Node) : Request → Answer
  | .edit _ _ => .node (some (handle, edited))
  | _ => .element (some (.ofHandle handle))

theorem Answer.Like.acknowledged {R : Node → Node → Prop} {x y : Node} (related : R x y)
    (request : Request) (handle : Handle) :
    Answer.Like R (request.acknowledged handle x) (request.acknowledged handle y) := by
  cases request with
  | edit target change => exact .node related
  | _ => exact .same _

/-- The edit of a node that is there is carried out at the node and nowhere else, or is refused and
changes nothing. -/
theorem perform_of_edits {session : Session} {request : Request} {handle : Handle}
    {change : Node.Edit} (edits : request.EditsNode handle change) {node : Node}
    (found : session.tailoring.node? handle = some node) :
    session.perform request =
      match node.apply change with
      | .error fault => (.error fault, session)
      | .ok edited => (.ok (request.acknowledged handle edited),
          { session with tailoring := session.tailoring.putNode handle edited }) := by
  cases edits with
  | edit =>
    simp only [perform, ofTailoring, Tailoring.edit, Tailoring.resolve, found, Option.map_some]
    cases node.apply change <;> rfl
  | write =>
    simp only [perform, ofTailoring, Tailoring.write, Tailoring.claim,
      Tailoring.lt_size_of_node? found, if_true, found]
    cases node.apply change <;> rfl

theorem outcome_of_edits {session : Session} {request : Request} {handle : Handle}
    {change : Node.Edit} (edits : request.EditsNode handle change) {node : Node}
    (found : session.tailoring.node? handle = some node) :
    (session.perform request).1 = (node.apply change).map (request.acknowledged handle) := by
  rw [perform_of_edits edits found]
  cases node.apply change <;> rfl

/-- A relation that no write behind the slots in use disturbs relates a session to the one behind
such a write. -/
theorem like_of_overwrite_behind {R : Node → Node → Prop} (reflexive : ∀ node, R node node)
    (undisturbed : ∀ (node : Node) (offset : Nat) (slot : Slot), node.length ≤ offset →
      R node (node.put offset slot))
    {session : Session} {request : Request} {handle : Handle} {offset : Nat} {codePoint : UInt16}
    {element : Element}
    (edits : request.EditsNode handle (.overwrite offset codePoint element)) {node : Node}
    (found : session.tailoring.node? handle = some node) (behind : node.length ≤ offset) :
    Like R session (session.perform request).2 := by
  rw [perform_of_edits edits found]
  cases applied : node.apply (.overwrite offset codePoint element) with
  | error fault => exact .refl reflexive session
  | ok edited =>
    obtain ⟨-, rfl⟩ := Node.apply_overwrite_eq_ok applied
    exact ⟨.of_putNode reflexive found (undisturbed node offset _ behind), rfl⟩

section Respects

variable {R : Node → Node → Prop} {a b : Session} {request : Request}

theorem respects_of_edits {handle : Handle} {change : Node.Edit}
    (edits : request.EditsNode handle change) {x y : Node}
    (found : a.tailoring.node? handle = some x) (found' : b.tailoring.node? handle = some y)
    (agree : Agree R (x.apply change) (y.apply change)) : Respects R a b request := by
  have here : Tailoring.Like.Respects R a.tailoring b.tailoring (some handle) change := by
    intro named x' y' same inA inB
    cases same
    rw [found] at inA
    rw [found'] at inB
    cases inA
    cases inB
    exact agree
  cases edits with
  | edit => exact here
  | write => exact here

/-- Any other request respects every relation. -/
theorem respects_of_not_edits
    (other : ∀ handle change x, request.EditsNode handle change →
      a.tailoring.node? handle ≠ some x) : Respects R a b request := by
  cases request with
  | edit target change =>
    intro handle x y same found _
    cases same
    exact absurd found (other handle change x .edit)
  | write target change =>
    intro handle x y same found _
    cases same
    exact absurd found (other handle change x .write)
  | _ => trivial

end Respects

end Session

end Contractions
