/-
# Contractions.Proofs.Discipline — handles mean what they say, and go on to do so.

`Contractions.Proofs.Frame` says what a request leaves alone.  Here is what it works on: which node a
writer writes and names, what resolving shows, and what comes of a handle that names no node.  In the
long run nodes are numbered one by one and none goes away, so a handle that was handed out names the
same node for good, and no other node is ever given that handle.

The numbers end at `Handle.count`.  As a payload that number stands for "no node yet", so it must never
be handed out: where there are so many nodes, every request that would make one is refused
(`perform_of_full`).  What a writer answers is therefore always a reference that can be read back.
-/
import Contractions.Proofs.Frame
import Contractions.Proofs.History

namespace Contractions

namespace Tailoring

variable {tailoring after : Tailoring}

/-- An edit without a handle shows the next node. -/
theorem edit_none_eq_ok {change : Node.Edit} {shown : Option (Handle × Node)}
    (edits : (tailoring.edit none change).1 = .ok shown) :
    ∃ handle node, shown = some (handle, node) ∧ handle.index = tailoring.nodes.size := by
  unfold edit at edits
  rcases resolves : tailoring.resolve none with fault | ⟨found, resolved⟩
  · simp only [resolves, reduceCtorEq] at edits
  · cases resolved_of_resolve resolves with
    | @made handle node fresh last =>
      cases applied : node.apply change with
      | error fault => simp only [resolves, applied, reduceCtorEq] at edits
      | ok edited =>
        simp only [resolves, applied, Except.ok.injEq] at edits
        exact ⟨handle, edited, edits.symm, last⟩

/-- No node can be made where all handles are taken. -/
theorem allocate_of_full (full : tailoring.nodes.size = Handle.count) :
    tailoring.allocate = .error .outOfMemory := by
  unfold allocate
  rw [full]
  rfl

end Tailoring

namespace Session

open Tailoring (writerAim)

variable {session next : Session} {answer : Answer}

/-! ## What a writer comes to -/

theorem perform_write_eq_ok {target : Option Handle} {change : Node.Edit}
    (performed : session.perform (.write target change) = (.ok answer, next)) :
    ∃ handle claimed node edited, session.tailoring.claim target = .ok (handle, claimed) ∧
      claimed.node? handle = some node ∧ node.apply change = .ok edited ∧
      answer = .element (some (.ofHandle handle)) ∧
      next.tailoring = claimed.putNode handle edited := by
  simp only [perform, ofTailoring, Prod.mk.injEq] at performed
  obtain ⟨answers, rfl⟩ := performed
  obtain ⟨reference, wrote, rfl⟩ := Fault.map_eq_ok answers
  obtain ⟨handle, claimed, node, edited, claims, found, applied, rfl, last⟩ :=
    Tailoring.write_eq_ok (Prod.ext wrote rfl)
  exact ⟨handle, claimed, node, edited, claims, found, applied, rfl, last⟩

/-- A writer that is given the handle of a node writes that node, and names it. -/
theorem perform_write_of_lt {handle : Handle} {change : Node.Edit}
    (known : handle.index < session.tailoring.nodes.size)
    (performed : session.perform (.write (some handle) change) = (.ok answer, next)) :
    answer = .element (some (.ofHandle handle)) ∧
      next.tailoring.nodes.size = session.tailoring.nodes.size ∧
      ∃ node edited, session.tailoring.node? handle = some node ∧
        node.apply change = .ok edited ∧ next.tailoring.node? handle = some edited := by
  obtain ⟨named, claimed, node, edited, claims, found, applied, rfl, wrote⟩ :=
    perform_write_eq_ok performed
  rw [Tailoring.claim_of_lt known] at claims
  obtain ⟨rfl, rfl⟩ := Prod.mk.inj (Except.ok.inj claims)
  rw [wrote, Tailoring.size_putNode, Tailoring.node?_putNode_self edited known]
  exact ⟨rfl, rfl, node, edited, found, applied, rfl⟩

/-- A writer that is given no handle, or one that names no node, makes the next node, writes it and
names it. -/
theorem perform_write_of_le {target : Option Handle} {change : Node.Edit}
    (unknown : ∀ handle ∈ target, session.tailoring.nodes.size ≤ handle.index)
    (performed : session.perform (.write target change) = (.ok answer, next)) :
    ∃ handle node edited, handle.index = session.tailoring.nodes.size ∧
      answer = .element (some (.ofHandle handle)) ∧
      next.tailoring.nodes.size = session.tailoring.nodes.size + 1 ∧
      Node.fresh session.tailoring.sizing.slots = .ok node ∧ node.apply change = .ok edited ∧
      next.tailoring.node? handle = some edited := by
  obtain ⟨handle, claimed, node, edited, claims, found, applied, rfl, wrote⟩ :=
    perform_write_eq_ok performed
  rw [Tailoring.claim_of_le unknown] at claims
  obtain ⟨fresh, isFresh, last, rfl⟩ := Tailoring.allocate_eq_ok claims
  rw [Tailoring.node?_pushNode, if_pos last] at found
  obtain rfl := Option.some.inj found
  rw [Tailoring.putNode_pushNode _ _ _ last] at wrote
  refine ⟨handle, fresh, edited, last, rfl, ?_, isFresh, applied, ?_⟩
  · rw [wrote, Tailoring.size_pushNode]
  · rw [wrote, Tailoring.node?_pushNode, if_pos last]

/-- What a writer answers can be read as a handle, also after it was packed into a word, and its node
is there. -/
theorem perform_write_names {target : Option Handle} {change : Node.Edit}
    (performed : session.perform (.write target change) = (.ok answer, next)) :
    ∃ reference handle, answer = .element (some reference) ∧ reference.handle? = some handle ∧
      (Element.unpack reference.pack).handle? = some handle ∧
      handle.index < next.tailoring.nodes.size := by
  obtain ⟨handle, claimed, node, edited, -, found, -, rfl, wrote⟩ := perform_write_eq_ok performed
  refine ⟨.ofHandle handle, handle, rfl, Element.handle?_ofHandle handle, ?_, ?_⟩
  · rw [Element.unpack_pack_ofHandle, Element.handle?_ofHandle]
  · rw [wrote, Tailoring.size_putNode]
    exact Tailoring.lt_size_of_node? found

/-! ## What resolving shows -/

theorem perform_resolve_none (performed : session.perform (.resolve none) = (.ok answer, next)) :
    ∃ handle node, handle.index = session.tailoring.nodes.size ∧
      answer = .node (some (handle, node)) ∧
      next.tailoring.nodes.size = session.tailoring.nodes.size + 1 ∧
      Node.fresh session.tailoring.sizing.slots = .ok node ∧
      next.tailoring.node? handle = some node := by
  simp only [perform] at performed
  rcases resolves : session.tailoring.resolve none with fault | ⟨shown, resolved⟩
  · simp only [resolves, Except.map, allOrNothing, Prod.mk.injEq, reduceCtorEq,
      false_and] at performed
  · simp only [resolves, Except.map, allOrNothing, Prod.mk.injEq, Except.ok.injEq] at performed
    obtain ⟨rfl, rfl⟩ := performed
    cases Tailoring.resolved_of_resolve resolves with
    | @made handle node fresh last =>
      refine ⟨handle, node, last, rfl, ?_, fresh, ?_⟩
      · exact Tailoring.size_pushNode _ _
      · simp only [Tailoring.node?_pushNode, if_pos last]

/-- A handle that names no node resolves to none, cannot be changed and cannot be attached; nothing
comes about in its place. -/
theorem perform_of_unknown {handle : Handle}
    (unknown : session.tailoring.nodes.size ≤ handle.index) :
    session.perform (.resolve (some handle)) = (.ok (.node none), session) ∧
      (∀ change, session.perform (.edit (some handle) change) = (.ok (.node none), session)) ∧
      (∀ codePoint element,
        session.perform (.change handle codePoint element) = (.error .notFound, session)) ∧
      ∀ codePoint, session.perform (.attach codePoint handle) = (.error .notFound, session) := by
  have missing : session.tailoring.node? handle = none := Array.getElem?_eq_none unknown
  refine ⟨?_, ?_, ?_, ?_⟩
  · simp only [perform, Tailoring.resolve, missing]
    rfl
  · intro change
    simp only [perform, Tailoring.edit, Tailoring.resolve, missing]
    rfl
  · exact fun codePoint element =>
      perform_change_of_none (by simp only [Tailoring.find, missing, Option.bind_none]) element
  · exact perform_attach_of_none missing

/-! ## The end of the handles -/

/-- Where all handles are taken, a request that would make a node is refused. -/
theorem perform_of_full (full : session.tailoring.nodes.size = Handle.count) {request : Request}
    (makes : request.aim session.tailoring.nodes.size = some session.tailoring.nodes.size) :
    session.perform request = (.error .outOfMemory, session) := by
  have allocates := Tailoring.allocate_of_full full
  cases request with
  | allocate =>
    simp only [perform, allocates]
    rfl
  | resolve target =>
    cases target with
    | none =>
      simp only [perform, Tailoring.resolve, allocates]
      rfl
    | some handle => cases makes
  | edit target change =>
    cases target with
    | none =>
      simp only [perform, Tailoring.edit, Tailoring.resolve, allocates]
      rfl
    | some handle => exact absurd makes (Tailoring.numberAmong_ne _ handle)
  | write target change =>
    have claims : session.tailoring.claim target = .error .outOfMemory := by
      rw [Tailoring.claim_of_le (Tailoring.le_of_writerAim (Option.some.inj makes)), allocates]
    simp only [perform, Tailoring.write, claims]
    rfl
  | change handle codePoint element => exact absurd makes (Tailoring.numberAmong_ne _ handle)
  | attach codePoint handle => exact absurd makes (Tailoring.numberAmong_ne _ handle)
  | _ => cases makes

/-! ## Handles in the long run -/

/-- A request that made a node and was not refused answers the handle of that node. -/
theorem handle?_of_made {request : Request}
    (performed : session.perform request = (.ok answer, next))
    (made : session.tailoring.nodes.size < next.tailoring.nodes.size) :
    ∃ handle, answer.handle? = some handle ∧ handle.index = session.tailoring.nodes.size := by
  have aims : request.aim session.tailoring.nodes.size = some session.tailoring.nodes.size := by
    have sizes := session.size_perform_cases request
    rw [performed] at sizes
    rcases sizes with same | ⟨aims, -⟩
    · exact absurd same (Nat.ne_of_gt made)
    · exact aims
  cases request with
  | allocate =>
    simp only [perform] at performed
    rcases allocated : session.tailoring.allocate with fault | ⟨handle, tailoring⟩
    · simp only [allocated, Except.map, allOrNothing, Prod.mk.injEq, reduceCtorEq,
        false_and] at performed
    · simp only [allocated, Except.map, allOrNothing, Prod.mk.injEq, Except.ok.injEq] at performed
      obtain ⟨rfl, -⟩ := performed
      obtain ⟨node, -, last, -⟩ := Tailoring.allocate_eq_ok allocated
      exact ⟨handle, rfl, last⟩
  | resolve target =>
    cases target with
    | none =>
      obtain ⟨handle, node, last, rfl, -⟩ := perform_resolve_none performed
      exact ⟨handle, rfl, last⟩
    | some handle => cases aims
  | edit target change =>
    cases target with
    | none =>
      simp only [perform, ofTailoring, Prod.mk.injEq] at performed
      obtain ⟨shown, edits, rfl⟩ := Fault.map_eq_ok performed.1
      obtain ⟨handle, node, rfl, last⟩ := Tailoring.edit_none_eq_ok edits
      exact ⟨handle, rfl, last⟩
    | some handle => exact absurd aims (Tailoring.numberAmong_ne _ handle)
  | write target change =>
    obtain ⟨handle, claimed, node, edited, claims, -, -, rfl, -⟩ := perform_write_eq_ok performed
    exact ⟨handle, Element.handle?_ofHandle handle,
      (Tailoring.claim_aim claims).1.trans (Option.some.inj aims)⟩
  | change handle codePoint element => exact absurd aims (Tailoring.numberAmong_ne _ handle)
  | attach codePoint handle => exact absurd aims (Tailoring.numberAmong_ne _ handle)
  | _ => cases aims

/-- The handle of the node that an event made, as far as its outcome names it. -/
def handleMade (session : Session) (event : Event) : Option Handle :=
  if session.tailoring.nodes.size < (session.undergo event).2.tailoring.nodes.size then
    (session.undergo event).1.toOption.bind Answer.handle?
  else none

/-- The handles of the nodes that a course made, in turn, as far as the outcomes name them. -/
def handlesMade (session : Session) : List Event → List Handle
  | [] => []
  | event :: events =>
    (session.handleMade event).toList ++ (session.undergo event).2.handlesMade events

/-- An event makes one node or none.  One that it made is named unless the event was refused, and then
it has the next number. -/
theorem undergo_cases (session : Session) (event : Event) :
    (session.undergo event).2.tailoring.nodes.size = session.tailoring.nodes.size ∧
        session.handleMade event = none ∨
      (session.undergo event).2.tailoring.nodes.size = session.tailoring.nodes.size + 1 ∧
        ((∃ fault, (session.undergo event).1 = .error fault) ∧ session.handleMade event = none ∨
          ∃ handle, session.handleMade event = some handle ∧
            handle.index = session.tailoring.nodes.size) := by
  cases event with
  | copy =>
    have size : (session.undergo .copy).2.tailoring.nodes.size = session.tailoring.nodes.size :=
      session.tailoring.size_copy
    refine Or.inl ⟨size, if_neg ?_⟩
    omega
  | request request =>
    rcases session.size_perform_cases request with same | ⟨-, more⟩
    · refine Or.inl ⟨same, if_neg ?_⟩
      simp only [undergo, same, Nat.lt_irrefl, not_false_iff]
    · refine Or.inr ⟨more, ?_⟩
      have made : session.tailoring.nodes.size <
          (session.undergo (.request request)).2.tailoring.nodes.size := by
        simp only [undergo, more, Nat.lt_succ_self]
      unfold handleMade
      rw [if_pos made]
      rcases performed : session.undergo (.request request) with ⟨fault | answer, next⟩
      · exact Or.inl ⟨⟨fault, rfl⟩, rfl⟩
      · rw [performed] at made
        obtain ⟨handle, named, last⟩ := handle?_of_made performed made
        exact Or.inr ⟨handle, named, last⟩

/-- The handles made in a course are numbered one by one from the number of nodes at the start; some
numbers are left out, where a node was made by a request that was refused in the end. -/
theorem handlesMade_sublist (session : Session) (events : List Event) :
    ((session.handlesMade events).map Handle.index).Sublist
      (List.range' session.tailoring.nodes.size
        ((session.after events).tailoring.nodes.size - session.tailoring.nodes.size)) := by
  induction events generalizing session with
  | nil => exact List.nil_sublist _
  | cons event events ih =>
    have later := ih (session.undergo event).2
    have grows := ((session.undergo event).2.after_grows events).size_le
    simp only [handlesMade, after, List.map_append]
    rcases session.undergo_cases event with ⟨same, none⟩ | ⟨more, named⟩
    · rwa [none, Option.toList_none, List.map_nil, List.nil_append, ← same]
    · -- the number of the node that was made stands in front of those of the rest
      rw [more] at later grows
      have count : ((session.undergo event).2.after events).tailoring.nodes.size -
          session.tailoring.nodes.size =
          ((session.undergo event).2.after events).tailoring.nodes.size -
            (session.tailoring.nodes.size + 1) + 1 := by omega
      rw [count, List.range'_succ]
      rcases named with ⟨-, none⟩ | ⟨handle, made, last⟩
      · rw [none]
        exact later.cons _
      · rw [made, ← last]
        rw [← last] at later
        exact later.cons_cons _

/-- Where nothing is refused no number is left out. -/
theorem handlesMade_dense (session : Session) {events : List Event}
    (all : ∀ outcome ∈ session.outcomes events, ∃ answer, outcome = .ok answer) :
    (session.handlesMade events).map Handle.index =
      List.range' session.tailoring.nodes.size
        ((session.after events).tailoring.nodes.size - session.tailoring.nodes.size) := by
  refine (session.handlesMade_sublist events).eq_of_length ?_
  rw [List.length_map, List.length_range']
  induction events generalizing session with
  | nil => simp only [handlesMade, after, List.length_nil, Nat.sub_self]
  | cons event events ih =>
    have later := ih (session.undergo event).2 fun outcome mem =>
      all outcome (List.mem_cons_of_mem _ mem)
    have grows := ((session.undergo event).2.after_grows events).size_le
    obtain ⟨answer, granted⟩ := all _ List.mem_cons_self
    simp only [handlesMade, after, List.length_append, later]
    rcases session.undergo_cases event with ⟨same, none⟩ | ⟨more, named⟩
    · rw [none, same]
      exact Nat.zero_add _
    · rcases named with ⟨⟨fault, refused⟩, -⟩ | ⟨handle, made, -⟩
      · rw [refused] at granted
        cases granted
      · rw [made]
        simp only [Option.toList_some, List.length_singleton]
        omega

/-! ## The discipline -/

/-- How handles are used in a session, and what is left alone. -/
structure Disciplined (session : Session) : Prop where
  /-- A writer that is given the handle of a node writes that node. -/
  writes : ∀ {handle : Handle} {change : Node.Edit} {answer : Answer} {next : Session},
    handle.index < session.tailoring.nodes.size →
    session.perform (.write (some handle) change) = (.ok answer, next) →
    answer = .element (some (.ofHandle handle)) ∧
      next.tailoring.nodes.size = session.tailoring.nodes.size ∧
      ∃ node edited, session.tailoring.node? handle = some node ∧
        node.apply change = .ok edited ∧ next.tailoring.node? handle = some edited
  /-- A writer that is given no handle, or one that names no node, makes the next node and writes
  it. -/
  makes : ∀ {target : Option Handle} {change : Node.Edit} {answer : Answer} {next : Session},
    (∀ handle ∈ target, session.tailoring.nodes.size ≤ handle.index) →
    session.perform (.write target change) = (.ok answer, next) →
    ∃ handle node edited, handle.index = session.tailoring.nodes.size ∧
      answer = .element (some (.ofHandle handle)) ∧
      next.tailoring.nodes.size = session.tailoring.nodes.size + 1 ∧
      Node.fresh session.tailoring.sizing.slots = .ok node ∧ node.apply change = .ok edited ∧
      next.tailoring.node? handle = some edited
  /-- To resolve without a handle makes the next node and shows it. -/
  resolves : ∀ {answer : Answer} {next : Session},
    session.perform (.resolve none) = (.ok answer, next) →
    ∃ handle node, handle.index = session.tailoring.nodes.size ∧
      answer = .node (some (handle, node)) ∧
      next.tailoring.nodes.size = session.tailoring.nodes.size + 1 ∧
      Node.fresh session.tailoring.sizing.slots = .ok node ∧
      next.tailoring.node? handle = some node
  /-- A handle shows the node that it names, and nothing is different afterwards. -/
  shows : ∀ handle, session.perform (.resolve (some handle)) =
    (.ok (.node ((session.tailoring.node? handle).map (handle, ·))), session)
  /-- One that names no node shows none, and can neither be edited through nor changed nor
  attached. -/
  unknown : ∀ handle : Handle, session.tailoring.nodes.size ≤ handle.index →
    session.perform (.resolve (some handle)) = (.ok (.node none), session) ∧
      (∀ change, session.perform (.edit (some handle) change) = (.ok (.node none), session)) ∧
      (∀ codePoint element,
        session.perform (.change handle codePoint element) = (.error .notFound, session)) ∧
      ∀ codePoint, session.perform (.attach codePoint handle) = (.error .notFound, session)
  /-- A node is made only where a request works on the next one, and then just one. -/
  sizes : ∀ request,
    (session.perform request).2.tailoring.nodes.size = session.tailoring.nodes.size ∨
      Request.aim session.tailoring.nodes.size request = some session.tailoring.nodes.size ∧
        (session.perform request).2.tailoring.nodes.size = session.tailoring.nodes.size + 1
  /-- Changing, attaching, looking up and packing make none, nor does anything that only resolves a
  handle. -/
  keeps : ∀ request, Request.mayMake request = false →
    (session.perform request).2.tailoring.nodes.size = session.tailoring.nodes.size
  /-- All other nodes stay as they are. -/
  frame : ∀ request index, Request.aim session.tailoring.nodes.size request ≠ some index →
    (session.perform request).2.tailoring.nodes[index]? = session.tailoring.nodes[index]?
  /-- Only a packing replaces the packed table. -/
  packs : ∀ request, (∀ base classOf, request ≠ .pack base classOf) →
    (session.perform request).2.tailoring.packed = session.tailoring.packed
  /-- Code points are written only by the requests that may write them. -/
  maps : ∀ request codePoint, ¬ Request.Writes session.table codePoint request →
    (session.perform request).2.table.get codePoint = session.table.get codePoint
  /-- Every node has a handle. -/
  handles : ∀ index, index < session.tailoring.nodes.size → ∃ handle : Handle, handle.index = index
  /-- No course takes a node away. -/
  grows : ∀ events, session.tailoring.nodes.size ≤ (session.after events).tailoring.nodes.size
  /-- Handles are handed out in ascending order from the next number on, so none is handed out
  again. -/
  ascending : ∀ events, ((session.handlesMade events).map Handle.index).Sublist
    (List.range' session.tailoring.nodes.size
      ((session.after events).tailoring.nodes.size - session.tailoring.nodes.size))
  /-- Where nothing is refused no number is left out. -/
  dense : ∀ events, (∀ outcome ∈ session.outcomes events, ∃ answer, outcome = .ok answer) →
    (session.handlesMade events).map Handle.index =
      List.range' session.tailoring.nodes.size
        ((session.after events).tailoring.nodes.size - session.tailoring.nodes.size)
  /-- Where all handles are taken, nothing that would make a node succeeds. -/
  full : session.tailoring.nodes.size = Handle.count → ∀ request,
    Request.aim session.tailoring.nodes.size request = some session.tailoring.nodes.size →
    session.perform request = (.error .outOfMemory, session)
  /-- What a writer answers can be read as a handle, also after it was packed into a word, and from
  then on its node is there. -/
  names : ∀ {target : Option Handle} {change : Node.Edit} {answer : Answer} {next : Session},
    session.perform (.write target change) = (.ok answer, next) →
    ∃ reference handle, answer = .element (some reference) ∧ reference.handle? = some handle ∧
      (Element.unpack reference.pack).handle? = some handle ∧
      ∀ events, ∃ node, (next.after events).tailoring.node? handle = some node

/-- Handles are used with discipline in every session that comes about. -/
theorem disciplined_of_reachable {session : Session} (reached : session.tailoring.Reachable) :
    session.Disciplined where
  writes := perform_write_of_lt
  makes := perform_write_of_le
  resolves := perform_resolve_none
  shows := fun _ => rfl
  unknown := fun _ => perform_of_unknown
  sizes := session.size_perform_cases
  keeps := fun _ => session.size_perform_of_not_mayMake
  frame := fun request _ => session.getElem?_perform_of_ne request
  packs := session.packed_perform_of_ne
  maps := fun request _ => get_perform_of_not_writes reached.sound request
  handles := fun index there =>
    ⟨⟨index, Nat.lt_of_lt_of_le there reached.sound.handles⟩, rfl⟩
  grows := fun events => (session.after_grows events).size_le
  ascending := session.handlesMade_sublist
  dense := fun _ => session.handlesMade_dense
  full := fun full _ => perform_of_full full
  names := by
    intro target change answer next performed
    obtain ⟨reference, handle, answers, read, readBack, there⟩ := perform_write_names performed
    refine ⟨reference, handle, answers, read, readBack, fun events => ?_⟩
    exact ⟨_, Array.getElem?_eq_getElem
      (Nat.lt_of_lt_of_le there (next.after_grows events).size_le)⟩

/-- The ring has two nodes.  A write through a handle that names neither makes a third one and leaves
the first as it was. -/
theorem disciplined_ring :
    let request := Request.write (some ⟨7, by decide⟩) (.append 8 (.direct 9))
    ring.tailoring.Reachable ∧ ring.Disciplined ∧
      (ring.perform request).1 = .ok (.element (some (.ofHandle ⟨2, by decide⟩))) ∧
      (ring.perform request).2.tailoring.nodes[0]? = ring.tailoring.nodes[0]? := by
  intro request
  have disciplined := disciplined_of_reachable reachable_ring
  exact ⟨reachable_ring, disciplined, by decide +kernel,
    disciplined.frame request 0 (by decide +kernel)⟩

end Session

end Contractions
