/-
# Contractions.Proofs.History — what was done to the pairs of a node.

The history of a node is the row of `Deed`s that were done to its pairs, the newest first: pairs
inserted, elements changed, and whatever else.  It is read off the requests and their answers alone.
Making nodes, attaching, packing and copying leave no deed.

`Wrought` says how pairs come about by deeds.  One lemma for each kind of edit and one for each kind
of event show that what happened to the pairs of a node is what its history says.
-/
import Contractions.Proofs.Course
import Contractions.Proofs.Edits
import Contractions.Proofs.Operations

namespace Contractions

/-! ## Histories -/

/-- What was done to the pairs of a node. -/
inductive Deed where
  /-- A pair was inserted. -/
  | insert (codePoint : UInt16) (element : Element)
  /-- The element that the node listed for a code point was replaced. -/
  | change (codePoint : UInt16) (element : Element)
  /-- The pairs were written in some other way. -/
  | other
deriving DecidableEq, Repr

namespace Deed

/-- What an edit does to the pairs.  To grow is to do nothing to them. -/
def ofEdit : Node.Edit → List Deed
  | .insert codePoint element => [.insert codePoint element]
  | .grow => []
  | _ => [.other]

/-- The code point of an inserted pair. -/
def inserted? : Deed → Option UInt16
  | .insert codePoint _ => some codePoint
  | _ => none

/-- The element that a deed gives to a code point. -/
def gives? (wanted : UInt16) : Deed → Option Element
  | .insert codePoint element => if codePoint = wanted then some element else none
  | .change codePoint element => if codePoint = wanted then some element else none
  | .other => none

/-- The element that was given last to a code point. -/
def latest (wanted : UInt16) (deeds : List Deed) : Option Element :=
  deeds.findSome? (gives? wanted)

/-- The elements of the pairs inserted for a code point, the newest first.  A change replaces the
one in front. -/
def given (wanted : UInt16) : List Deed → List Element
  | [] => []
  | .insert codePoint element :: earlier =>
    if codePoint = wanted then element :: given wanted earlier else given wanted earlier
  | .change codePoint element :: earlier =>
    if codePoint = wanted then (given wanted earlier).modifyHead fun _ => element
    else given wanted earlier
  | .other :: earlier => given wanted earlier

end Deed

/-- How deeds, the newest first, lead from some pairs to others. -/
inductive Wrought (start : List Slot) : List Deed → List Slot → Prop where
  | nothing : Wrought start [] start
  | insert {deeds : List Deed} {pairs : List Slot} (codePoint : UInt16) (element : Element)
      (before : Wrought start deeds pairs) :
      Wrought start (.insert codePoint element :: deeds)
        (Slot.insertSorted (.of codePoint element) pairs)
  | change {deeds : List Deed} {pairs : List Slot} {codePoint : UInt16} {position : Nat}
      (element : Element) (before : Wrought start deeds pairs)
      (located : Slot.locate codePoint pairs = some position) :
      Wrought start (.change codePoint element :: deeds)
        (pairs.modify position (·.withElement element))
  | other {deeds : List Deed} {pairs : List Slot} (before : Wrought start deeds pairs)
      (after : List Slot) : Wrought start (.other :: deeds) after

theorem Wrought.trans {start middle last : List Slot} {earlier later : List Deed}
    (first : Wrought start earlier middle) (second : Wrought middle later last) :
    Wrought start (later ++ earlier) last := by
  induction second with
  | nothing => exact first
  | insert codePoint element _ ih => exact .insert codePoint element ih
  | change element _ located ih => exact .change element ih located
  | other _ after ih => exact .other ih after

/-! ## What each event does to the pairs of a node -/

namespace Tailoring

/-- The pairs of the node that a handle names; none where there is no node. -/
def pairsOf (tailoring : Tailoring) (handle : Handle) : List Slot :=
  ((tailoring.node? handle).map Node.pairs).getD []

variable {tailoring after : Tailoring} {change : Node.Edit} {written : Option Handle}

theorem pairsOf_putNode (tailoring : Tailoring) {handle : Handle} {node : Node}
    (found : tailoring.node? handle = some node) (edited : Node) (read : Handle) :
    (tailoring.putNode handle edited).pairsOf read =
      if read = handle then edited.pairs else tailoring.pairsOf read := by
  unfold pairsOf
  rw [node?_putNode tailoring edited (lt_size_of_node? found)]
  split <;> rfl

theorem pairsOf_pushNode (tailoring : Tailoring) (node : Node) (read : Handle) :
    (tailoring.pushNode node).pairsOf read =
      if read.index = tailoring.nodes.size then node.pairs else tailoring.pairsOf read := by
  unfold pairsOf
  rw [node?_pushNode]
  split <;> rfl

/-- No node has the number of the next one yet. -/
theorem pairsOf_of_index_eq {handle : Handle} (last : handle.index = tailoring.nodes.size) :
    tailoring.pairsOf handle = [] := by
  unfold pairsOf node?
  rw [Array.getElem?_eq_none (Nat.le_of_eq last.symm)]
  rfl

/-- A fresh node has no more pairs than one that is not there. -/
theorem pairsOf_pushNode_fresh {capacity : Nat} {node : Node}
    (fresh : Node.fresh capacity = .ok node) (read : Handle) :
    (tailoring.pushNode node).pairsOf read = tailoring.pairsOf read := by
  rw [pairsOf_pushNode]
  split
  · rename_i last
    rw [pairsOf_of_index_eq last, (Node.fresh_eq_ok fresh).2]
  · rfl

theorem wrought_apply {node edited : Node} (applied : node.apply change = .ok edited) :
    Wrought node.pairs (Deed.ofEdit change) edited.pairs := by
  cases change with
  | insert codePoint element =>
    have pairs := (List.cons.inj (Node.logical_insert applied)).2
    rw [pairs]
    exact .insert codePoint element .nothing
  | grow =>
    rw [(List.cons.inj (Node.logical_grow applied)).2]
    exact .nothing
  | _ => exact .other .nothing _

theorem wrought_edited (edited : tailoring.Edited change written after) (handle : Handle) :
    Wrought (tailoring.pairsOf handle)
      (if written = some handle then Deed.ofEdit change else []) (after.pairsOf handle) := by
  cases edited with
  | nothing => exact .nothing
  | made fresh =>
    rw [pairsOf_pushNode_fresh fresh]
    exact .nothing
  | @written named node edited found applied =>
    rw [pairsOf_putNode tailoring found]
    by_cases same : handle = named
    · have before : tailoring.pairsOf handle = node.pairs := by
        rw [same, pairsOf, found]
        rfl
      rw [if_pos (congrArg some same.symm), if_pos same, before]
      exact wrought_apply applied
    · rw [if_neg fun names => same (Option.some.inj names).symm, if_neg same]
      exact .nothing
  | @madeWritten named node edited fresh last applied =>
    rw [pairsOf_pushNode]
    by_cases same : handle = named
    · have index : handle.index = tailoring.nodes.size := same ▸ last
      rw [if_pos (congrArg some same.symm), if_pos index, pairsOf_of_index_eq index,
        ← (Node.fresh_eq_ok fresh).2]
      exact wrought_apply applied
    · have index : handle.index ≠ tailoring.nodes.size := by
        intro index
        refine same ?_
        cases handle
        cases named
        simp only [Handle.mk.injEq]
        exact index.trans last.symm
      rw [if_neg fun names => same (Option.some.inj names).symm, if_neg index]
      exact .nothing

end Tailoring

namespace Session

/-- The deeds that a request asks for. -/
def Request.deeds : Request → List Deed
  | .edit _ wanted => Deed.ofEdit wanted
  | .write _ wanted => Deed.ofEdit wanted
  | .change _ codePoint wanted => [.change codePoint wanted]
  | _ => []

/-- The node that an answer names. -/
def Answer.handle? : Answer → Option Handle
  | .handle named => some named
  | .node found => found.map Prod.fst
  | .element found => found.bind Element.handle?
  | _ => none

/-- What a request did to the pairs of a node: what was asked for, if the answer names the node. -/
def deedsAnswered (session : Session) (handle : Handle) (request : Request) : List Deed :=
  if (session.perform request).1.toOption.bind Answer.handle? = some handle then request.deeds
  else []

/-- What an event did to the pairs of a node. -/
def deedsOf (session : Session) (handle : Handle) : Event → List Deed
  | .copy => []
  | .request asked => session.deedsAnswered handle asked

/-- What a course did to the pairs of a node, the newest first. -/
def deeds (session : Session) (handle : Handle) : List Event → List Deed
  | [] => []
  | event :: events =>
    (session.undergo event).2.deeds handle events ++ session.deedsOf handle event

section Step

variable {session : Session} {handle : Handle}

/-- A request that asks for no deed leaves the pairs as they are. -/
theorem wrought_quiet {request : Request} (none : request.deeds = [])
    (same : (session.perform request).2.tailoring.pairsOf handle =
      session.tailoring.pairsOf handle) :
    Wrought (session.tailoring.pairsOf handle) (session.deedsAnswered handle request)
      ((session.perform request).2.tailoring.pairsOf handle) := by
  unfold deedsAnswered
  rw [none, ite_self, same]
  exact .nothing

theorem wrought_edit (target : Option Handle) (edit : Node.Edit) :
    Wrought (session.tailoring.pairsOf handle) (session.deedsAnswered handle (.edit target edit))
      ((session.perform (.edit target edit)).2.tailoring.pairsOf handle) := by
  have names : (session.perform (.edit target edit)).1.toOption.bind Answer.handle? =
      (session.tailoring.edit target edit).1.toOption.join.map Prod.fst := by
    simp only [perform, ofTailoring]
    rcases (session.tailoring.edit target edit).1 with fault | found <;> rfl
  unfold deedsAnswered
  rw [names]
  exact Tailoring.wrought_edited (session.tailoring.edited_edit target edit) handle

theorem wrought_write (target : Option Handle) (edit : Node.Edit) :
    Wrought (session.tailoring.pairsOf handle) (session.deedsAnswered handle (.write target edit))
      ((session.perform (.write target edit)).2.tailoring.pairsOf handle) := by
  have names : (session.perform (.write target edit)).1.toOption.bind Answer.handle? =
      (session.tailoring.write target edit).1.toOption.bind Element.handle? := by
    simp only [perform, ofTailoring]
    rcases (session.tailoring.write target edit).1 with fault | reference <;> rfl
  unfold deedsAnswered
  rw [names]
  exact Tailoring.wrought_edited (session.tailoring.edited_write target edit) handle

theorem wrought_change (changed : Handle) (codePoint : UInt16) (element : Element) :
    Wrought (session.tailoring.pairsOf handle)
      (session.deedsAnswered handle (.change changed codePoint element))
      ((session.perform (.change changed codePoint element)).2.tailoring.pairsOf handle) := by
  unfold deedsAnswered
  cases found : session.tailoring.node? changed with
  | none =>
    rw [perform_change_of_none (by simp [Tailoring.find, found])]
    exact .nothing
  | some node =>
    cases located : Slot.locate codePoint node.pairs with
    | none =>
      rw [perform_change_of_none (by simp [Tailoring.find, found, Node.find, located])]
      exact .nothing
    | some position =>
      have slot : node.find codePoint = some (position + 1) := by
        unfold Node.find
        rw [located, Option.map_some]
      rw [perform_change_of_some found slot]
      show Wrought _ (if some changed = some handle then _ else _)
        ((session.tailoring.putNode changed _).pairsOf handle)
      rw [Tailoring.pairsOf_putNode session.tailoring found]
      by_cases same : handle = changed
      · have before : session.tailoring.pairsOf handle = node.pairs := by
          rw [same, Tailoring.pairsOf, found]
          rfl
        rw [if_pos (congrArg some same.symm), if_pos same, before]
        exact .change element .nothing located
      · rw [if_neg fun names => same (Option.some.inj names).symm, if_neg same]
        exact .nothing

theorem pairs_based (node : Node) (previous : Element) :
    (based node previous).pairs = node.pairs := by
  unfold based
  split <;> rfl

/-- Attaching may replace the element of the reserved slot, and no other. -/
theorem pairsOf_perform_attach (codePoint : UInt16) (attached : Handle) :
    (session.perform (.attach codePoint attached)).2.tailoring.pairsOf handle =
      session.tailoring.pairsOf handle := by
  rcases session.perform_attach_cases codePoint attached with same | ⟨node, found, after⟩
  · rw [same]
  · rw [after]
    refine (Tailoring.pairsOf_putNode session.tailoring found _ handle).trans ?_
    split
    · rename_i same
      rw [pairs_based, same, Tailoring.pairsOf, found]
      rfl
    · rfl

theorem pairsOf_allocate {made : Tailoring} {fresh : Handle}
    (allocated : session.tailoring.allocate = .ok (fresh, made)) :
    made.pairsOf handle = session.tailoring.pairsOf handle := by
  obtain ⟨node, isFresh, -, rfl⟩ := Tailoring.allocate_eq_ok allocated
  exact Tailoring.pairsOf_pushNode_fresh isFresh handle

theorem pairsOf_perform_pack (base : Nat) (classOf : UInt16 → UInt8) :
    (session.perform (.pack base classOf)).2.tailoring.pairsOf handle =
      session.tailoring.pairsOf handle := by
  unfold Tailoring.pairsOf Tailoring.node?
  rw [nodes_perform_pack]

theorem pairsOf_copy :
    session.tailoring.copy.pairsOf handle = session.tailoring.pairsOf handle := by
  unfold Tailoring.pairsOf Tailoring.node? Tailoring.copy
  rw [Array.getElem?_map, Option.map_map]
  rfl

/-- The deeds of an event lead from the pairs before it to those after it. -/
theorem wrought_undergo (event : Event) :
    Wrought (session.tailoring.pairsOf handle) (session.deedsOf handle event)
      ((session.undergo event).2.tailoring.pairsOf handle) := by
  cases event with
  | copy =>
    rw [deedsOf, undergo, pairsOf_copy]
    exact .nothing
  | request request =>
    cases request with
    | allocate =>
      refine wrought_quiet rfl ?_
      simp only [perform]
      cases allocated : session.tailoring.allocate with
      | error fault => rfl
      | ok outcome => exact pairsOf_allocate allocated
    | resolve target =>
      refine wrought_quiet rfl ?_
      cases target with
      | some named => rfl
      | none =>
        simp only [perform, Tailoring.resolve]
        cases allocated : session.tailoring.allocate with
        | error fault => rfl
        | ok outcome => exact pairsOf_allocate allocated
    | edit target edit => exact wrought_edit target edit
    | write target edit => exact wrought_write target edit
    | change changed codePoint element => exact wrought_change changed codePoint element
    | attach codePoint attached =>
      exact wrought_quiet rfl (pairsOf_perform_attach codePoint attached)
    | pack base classOf => exact wrought_quiet rfl (pairsOf_perform_pack base classOf)
    | _ => exact wrought_quiet rfl rfl

/-- So do the deeds of a course. -/
theorem wrought_after (events : List Event) :
    Wrought (session.tailoring.pairsOf handle) (session.deeds handle events)
      ((session.after events).tailoring.pairsOf handle) := by
  induction events generalizing session with
  | nil => exact .nothing
  | cons event events ih => exact (wrought_undergo event).trans ih

end Step

end Session

end Contractions
