/-
# Contractions.Proofs.Operations — all that an edit of a tailoring's nodes can come to.

Two operations edit a node by handle: `Tailoring.write`, which makes a node where the handle names
none, and `Tailoring.edit`, which does so only where no handle is given.  Each has several stages
that may be refused, but there are just four things that either can come to, and `Tailoring.Edited`
lists them: nothing; a node made and not written; a node written; a node made and written.  The
answer of the operation tells which node was written.

Later proofs about the nodes go through this list and never open the two operations again.  With it
stands the frame law of all requests: what fresh nodes have and edits keep, all nodes have.
-/
import Contractions.Proofs.Effects

namespace Contractions

/-! ## Handles and the references that carry them -/

theorem Handle.index_of_ofNat? {index : Nat} {handle : Handle}
    (named : ofNat? index = some handle) : handle.index = index := by
  unfold ofNat? at named
  split at named
  · cases named
    rfl
  · cases named

@[simp] theorem Handle.toNat_payload (handle : Handle) : handle.payload.toNat = handle.index := by
  have index_lt := handle.index_lt
  simp only [payload, Nat.toUInt32_eq, UInt32.toNat_ofNat']
  omega

/-- A reference to a node leads back to its handle. -/
@[simp] theorem Element.handle?_ofHandle (handle : Handle) :
    (Element.ofHandle handle).handle? = some handle := by
  have named : handle.payload.toNat < Handle.count := by
    rw [Handle.toNat_payload]
    exact handle.index_lt
  show Handle.ofPayload? handle.payload = some handle
  rw [Handle.ofPayload?_eq_some named]
  simp only [Handle.toNat_payload]

/-- A handle fits a stored reference. -/
@[simp] theorem Element.unpack_pack_ofHandle (handle : Handle) :
    Element.unpack (Element.ofHandle handle).pack = .ofHandle handle := by
  have index_lt := handle.index_lt
  refine Element.unpack_pack_reference ?_
  rw [Handle.toNat_payload]
  omega

namespace Tailoring

variable {tailoring made after : Tailoring} {handle : Handle} {node : Node} {change : Node.Edit}

/-! ## The node behind a handle -/

theorem lt_size_of_node? (found : tailoring.node? handle = some node) :
    handle.index < tailoring.nodes.size :=
  (Array.getElem?_eq_some_iff.mp found).1

theorem node?_putNode (tailoring : Tailoring) {written : Handle} (node : Node)
    (there : written.index < tailoring.nodes.size) (read : Handle) :
    (tailoring.putNode written node).node? read =
      if read = written then some node else tailoring.node? read := by
  by_cases same : read = written
  · rw [if_pos same, same]
    exact node?_putNode_self node there
  · rw [if_neg same]
    refine node?_putNode_of_ne tailoring node fun index => same ?_
    cases written
    cases read
    simpa using index.symm

theorem node?_pushNode (tailoring : Tailoring) (node : Node) (read : Handle) :
    (tailoring.pushNode node).node? read =
      if read.index = tailoring.nodes.size then some node else tailoring.node? read := by
  simp only [node?, pushNode, Array.getElem?_push]

/-- To make a node and replace it is to make the other one at once. -/
theorem putNode_pushNode (tailoring : Tailoring) (node other : Node)
    (last : handle.index = tailoring.nodes.size) :
    (tailoring.pushNode node).putNode handle other = tailoring.pushNode other := by
  simp [putNode, pushNode, last, Array.setIfInBounds, Array.set_push]

/-- Something holds of every node, by its number. -/
def EachNode (tailoring : Tailoring) (P : Nat → Node → Prop) : Prop :=
  ∀ index node, tailoring.nodes[index]? = some node → P index node

/-- What does not depend on the number holds of the nodes as such. -/
theorem eachNode_iff {P : Node → Prop} :
    tailoring.EachNode (fun _ => P) ↔ ∀ node ∈ tailoring.nodes, P node := by
  constructor
  · intro each node mem
    obtain ⟨index, inRange, rfl⟩ := Array.mem_iff_getElem.mp mem
    exact each index _ (Array.getElem?_eq_getElem inRange)
  · intro each index node found
    exact each node (Array.mem_of_getElem? found)

theorem EachNode.of_node? {P : Nat → Node → Prop} (each : tailoring.EachNode P)
    (found : tailoring.node? handle = some node) : P handle.index node := each _ _ found

theorem EachNode.pushNode {P : Nat → Node → Prop} (before : tailoring.EachNode P)
    (here : P tailoring.nodes.size node) : (tailoring.pushNode node).EachNode P := by
  intro index other found
  rw [Tailoring.pushNode, Array.getElem?_push] at found
  split at found
  · rename_i last
    cases found
    rwa [last]
  · exact before index other found

theorem EachNode.putNode {P : Nat → Node → Prop} (before : tailoring.EachNode P)
    (here : P handle.index node) : (tailoring.putNode handle node).EachNode P := by
  intro index other found
  rw [Tailoring.putNode, Array.getElem?_setIfInBounds] at found
  split at found
  · rename_i same
    split at found
    · cases found
      rwa [← same]
    · cases found
  · exact before index other found

theorem mem_nodes_of_node? (found : tailoring.node? handle = some node) :
    node ∈ tailoring.nodes := by
  obtain ⟨inRange, rfl⟩ := Array.getElem?_eq_some_iff.mp found
  exact Array.getElem_mem inRange

/-! ## Making a node -/

/-- A made node is fresh and stands behind the others. -/
theorem allocate_eq_ok (allocated : tailoring.allocate = .ok (handle, made)) :
    ∃ node, Node.fresh tailoring.sizing.slots = .ok node ∧
      handle.index = tailoring.nodes.size ∧ made = tailoring.pushNode node := by
  unfold allocate at allocated
  cases free : Handle.ofNat? tailoring.nodes.size with
  | none => simp [free] at allocated
  | some next =>
    have index := Handle.index_of_ofNat? free
    by_cases granted : Grantable nodeBytes tailoring.capacity
    · cases fresh : Node.fresh tailoring.sizing.slots with
      | error fault => simp [free, granted, fresh, Except.map] at allocated
      | ok node =>
        simp only [free, granted, if_true, fresh, Except.map, Except.ok.injEq,
          Prod.mk.injEq] at allocated
        obtain ⟨rfl, rfl⟩ := allocated
        exact ⟨node, rfl, index, rfl⟩
    · simp [free, granted] at allocated

/-- A handle is ready to be written through when it names a node, or a node was made for it. -/
inductive Ready (tailoring : Tailoring) : Handle → Node → Tailoring → Prop where
  | there {handle : Handle} {node : Node} (found : tailoring.node? handle = some node) :
      Ready tailoring handle node tailoring
  | made {handle : Handle} {node : Node} (fresh : Node.fresh tailoring.sizing.slots = .ok node)
      (last : handle.index = tailoring.nodes.size) :
      Ready tailoring handle node (tailoring.pushNode node)

theorem ready_of_allocate (allocated : tailoring.allocate = .ok (handle, made)) :
    ∃ node, made.node? handle = some node ∧ tailoring.Ready handle node made := by
  obtain ⟨node, fresh, last, rfl⟩ := allocate_eq_ok allocated
  exact ⟨node, by rw [node?_pushNode, if_pos last], .made fresh last⟩

theorem claim_of_lt (known : handle.index < tailoring.nodes.size) :
    tailoring.claim (some handle) = .ok (handle, tailoring) := if_pos known

theorem claim_of_le {target : Option Handle}
    (unknown : ∀ handle ∈ target, tailoring.nodes.size ≤ handle.index) :
    tailoring.claim target = tailoring.allocate := by
  cases target with
  | none => rfl
  | some handle => exact if_neg (Nat.not_lt_of_le (unknown handle rfl))

/-- A target names a node or it does not, where no handle counts as naming none. -/
theorem target_cases (tailoring : Tailoring) (target : Option Handle) :
    (∃ handle, target = some handle ∧ handle.index < tailoring.nodes.size) ∨
      ∀ handle ∈ target, tailoring.nodes.size ≤ handle.index := by
  cases target with
  | none => exact Or.inr nofun
  | some handle =>
    rcases Nat.lt_or_ge handle.index tailoring.nodes.size with known | unknown
    · exact Or.inl ⟨handle, rfl, known⟩
    · exact Or.inr fun _ named => Option.some.inj named ▸ unknown

theorem ready_of_claim {target : Option Handle}
    (claimed : tailoring.claim target = .ok (handle, after)) :
    ∃ node, after.node? handle = some node ∧ tailoring.Ready handle node after := by
  rcases tailoring.target_cases target with ⟨wanted, rfl, known⟩ | unknown
  · obtain ⟨rfl, rfl⟩ := Prod.mk.inj (Except.ok.inj ((claim_of_lt known).symm.trans claimed))
    have found : tailoring.node? wanted = some tailoring.nodes[wanted.index] :=
      Array.getElem?_eq_getElem known
    exact ⟨_, found, .there found⟩
  · exact ready_of_allocate (claim_of_le unknown ▸ claimed)

/-- What a resolution comes to that is not refused: what it shows, and the tailoring behind it. -/
inductive Resolved (tailoring : Tailoring) :
    Option Handle → Option (Handle × Node) → Tailoring → Prop where
  /-- The handle names no node. -/
  | missing {handle : Handle} (missing : tailoring.node? handle = none) :
      Resolved tailoring (some handle) none tailoring
  | there {handle : Handle} {node : Node} (found : tailoring.node? handle = some node) :
      Resolved tailoring (some handle) (some (handle, node)) tailoring
  | made {handle : Handle} {node : Node} (fresh : Node.fresh tailoring.sizing.slots = .ok node)
      (last : handle.index = tailoring.nodes.size) :
      Resolved tailoring none (some (handle, node)) (tailoring.pushNode node)

theorem resolved_of_resolve {target : Option Handle} {shown : Option (Handle × Node)}
    (resolves : tailoring.resolve target = .ok (shown, after)) :
    tailoring.Resolved target shown after := by
  cases target with
  | none =>
    unfold resolve at resolves
    cases allocated : tailoring.allocate with
    | error fault => simp only [allocated, Except.map, reduceCtorEq] at resolves
    | ok outcome =>
      obtain ⟨handle, made⟩ := outcome
      obtain ⟨node, fresh, last, rfl⟩ := allocate_eq_ok allocated
      simp only [allocated, Except.map, node?_pushNode, if_pos last, Option.map_some,
        Except.ok.injEq, Prod.mk.injEq] at resolves
      obtain ⟨rfl, rfl⟩ := resolves
      exact .made fresh last
  | some handle =>
    simp only [resolve, Except.ok.injEq, Prod.mk.injEq] at resolves
    obtain ⟨rfl, rfl⟩ := resolves
    cases found : tailoring.node? handle with
    | none => exact .missing found
    | some node => exact .there found

/-! ## What an edit comes to -/

/-- What an edit of a node by handle comes to: which node it wrote, if any, and the tailoring behind
it. -/
inductive Edited (tailoring : Tailoring) (change : Node.Edit) :
    Option Handle → Tailoring → Prop where
  /-- It was refused, or there was no node to write, and nothing is different. -/
  | nothing : Edited tailoring change none tailoring
  /-- A node was made, and the write to it was refused. -/
  | made {handle : Handle} {node : Node} (fresh : Node.fresh tailoring.sizing.slots = .ok node)
      (last : handle.index = tailoring.nodes.size) :
      Edited tailoring change none (tailoring.pushNode node)
  /-- A node that was there was written. -/
  | written {handle : Handle} {node edited : Node} (found : tailoring.node? handle = some node)
      (applied : node.apply change = .ok edited) :
      Edited tailoring change (some handle) (tailoring.putNode handle edited)
  /-- A node was made and written. -/
  | madeWritten {handle : Handle} {node edited : Node}
      (fresh : Node.fresh tailoring.sizing.slots = .ok node)
      (last : handle.index = tailoring.nodes.size) (applied : node.apply change = .ok edited) :
      Edited tailoring change (some handle) (tailoring.pushNode edited)

theorem Ready.edited_of_error (ready : tailoring.Ready handle node after) :
    tailoring.Edited change none after := by
  cases ready with
  | there => exact .nothing
  | made fresh last => exact .made fresh last

theorem Ready.edited_of_ok (ready : tailoring.Ready handle node after) {edited : Node}
    (applied : node.apply change = .ok edited) :
    tailoring.Edited change (some handle) (after.putNode handle edited) := by
  cases ready with
  | there found => exact .written found applied
  | made fresh last =>
    rw [putNode_pushNode tailoring node edited last]
    exact .madeWritten fresh last applied

/-- A writer's answer refers to the node that it wrote. -/
theorem edited_write (tailoring : Tailoring) (target : Option Handle) (change : Node.Edit) :
    tailoring.Edited change ((tailoring.write target change).1.toOption.bind Element.handle?)
      (tailoring.write target change).2 := by
  unfold write
  rcases claimed : tailoring.claim target with fault | ⟨handle, after⟩
  · exact .nothing
  · obtain ⟨node, found, ready⟩ := ready_of_claim claimed
    simp only [found]
    cases applied : node.apply change with
    | error fault => exact ready.edited_of_error
    | ok edited =>
      simp only [Except.toOption, Option.bind_some, Element.handle?_ofHandle]
      exact ready.edited_of_ok applied

/-- An edit of a resolved node shows the node that it wrote. -/
theorem edited_edit (tailoring : Tailoring) (target : Option Handle) (change : Node.Edit) :
    tailoring.Edited change ((tailoring.edit target change).1.toOption.join.map Prod.fst)
      (tailoring.edit target change).2 := by
  have shown : ∀ {handle : Handle} {node : Node} {after : Tailoring},
      tailoring.resolve target = .ok (some (handle, node), after) →
      tailoring.Ready handle node after →
      tailoring.Edited change ((tailoring.edit target change).1.toOption.join.map Prod.fst)
        (tailoring.edit target change).2 := by
    intro handle node after resolved ready
    unfold edit
    simp only [resolved]
    cases applied : node.apply change with
    | error fault => exact ready.edited_of_error
    | ok edited => exact ready.edited_of_ok applied
  rcases resolves : tailoring.resolve target with fault | ⟨found, after⟩
  · unfold edit
    simp only [resolves]
    exact .nothing
  · cases resolved_of_resolve resolves with
    | missing =>
      unfold edit
      simp only [resolves]
      exact .nothing
    | there found => exact shown resolves (.there found)
    | made fresh last => exact shown resolves (.made fresh last)

/-- What a fresh node has from its number on and an edit keeps, each node has after the edit if it had
it before. -/
theorem Edited.eachNode {written : Option Handle}
    (edited : tailoring.Edited change written after) {P : Nat → Node → Prop}
    (fresh : ∀ index node, tailoring.nodes.size ≤ index →
      Node.fresh tailoring.sizing.slots = .ok node → P index node)
    (keeps : ∀ index node edited, P index node → node.apply change = .ok edited → P index edited)
    (before : tailoring.EachNode P) : after.EachNode P := by
  cases edited with
  | nothing => exact before
  | made isFresh => exact before.pushNode (fresh _ _ (Nat.le_refl _) isFresh)
  | written found applied => exact before.putNode (keeps _ _ _ (before.of_node? found) applied)
  | madeWritten isFresh last applied =>
    exact before.pushNode (keeps _ _ _ (fresh _ _ (Nat.le_refl _) isFresh) applied)

end Tailoring

namespace Session

/-! ## What a change does to a session -/

theorem perform_change_of_none {session : Session} {handle : Handle} {codePoint : UInt16}
    (missing : session.tailoring.find handle codePoint = none) (element : Element) :
    session.perform (.change handle codePoint element) = (.error .notFound, session) := by
  unfold Tailoring.find at missing
  simp only [perform, Tailoring.change]
  cases found : session.tailoring.node? handle with
  | none => rfl
  | some node =>
    rw [found, Option.bind_some] at missing
    simp only [missing]
    rfl

theorem perform_change_of_some {session : Session} {handle : Handle} {node : Node}
    {codePoint : UInt16} {slot : Nat} (found : session.tailoring.node? handle = some node)
    (located : node.find codePoint = some slot) (element : Element) :
    session.perform (.change handle codePoint element) =
      (.ok (.handle handle), { session with
        tailoring := session.tailoring.putNode handle (node.setElement slot element) }) := by
  simp only [perform, Tailoring.change, found, located]
  rfl

/-- Packing leaves the nodes as they are, with their handles. -/
theorem nodes_perform_pack (session : Session) (base : Nat) (classOf : UInt16 → UInt8) :
    (session.perform (.pack base classOf)).2.tailoring.nodes = session.tailoring.nodes := by
  rcases session.perform_pack_cases base classOf with same | ⟨-, -, laid⟩
  · rw [same]
  · rw [laid]
    rfl

/-! ## What all requests are made of -/

/-- Something that stays true of a tailoring when a node is written, when one is made, and when the
record of the latest packing is replaced. -/
structure Lasting (Q : Tailoring → Prop) : Prop where
  putNode : ∀ {tailoring : Tailoring} (handle : Handle) (node : Node), Q tailoring →
    Q (tailoring.putNode handle node)
  /-- A made node has a number that a handle can carry. -/
  pushNode : ∀ {tailoring : Tailoring} (node : Node), tailoring.nodes.size < Handle.count →
    Q tailoring → Q (tailoring.pushNode node)
  withRecord : ∀ {tailoring : Tailoring} (packed : Option Packed) (memory : Array Relocation),
    Q tailoring → Q (tailoring.withRecord packed memory)

namespace Lasting

variable {Q : Tailoring → Prop} (lasting : Lasting Q) {tailoring after : Tailoring}
include lasting

theorem allocate {handle : Handle} (allocated : tailoring.allocate = .ok (handle, after))
    (before : Q tailoring) : Q after := by
  obtain ⟨node, -, last, rfl⟩ := Tailoring.allocate_eq_ok allocated
  exact lasting.pushNode node (last ▸ handle.index_lt) before

theorem edited {change : Node.Edit} {written : Option Handle}
    (edited : tailoring.Edited change written after) (before : Q tailoring) : Q after := by
  cases edited with
  | nothing => exact before
  | made _ last => exact lasting.pushNode _ (last ▸ Handle.index_lt _) before
  | written => exact lasting.putNode _ _ before
  | madeWritten _ last _ => exact lasting.pushNode _ (last ▸ Handle.index_lt _) before

/-- No request does anything else to a tailoring. -/
theorem perform {session : Session} (before : Q session.tailoring) (request : Request) :
    Q (session.perform request).2.tailoring := by
  cases request with
  | allocate =>
    simp only [Session.perform]
    cases known : session.tailoring.allocate with
    | error fault => exact before
    | ok outcome => exact lasting.allocate known before
  | resolve target =>
    cases target with
    | some handle => exact before
    | none =>
      simp only [Session.perform, Tailoring.resolve]
      cases known : session.tailoring.allocate with
      | error fault => exact before
      | ok outcome => exact lasting.allocate known before
  | edit target change => exact lasting.edited (session.tailoring.edited_edit target change) before
  | write target change => exact lasting.edited (session.tailoring.edited_write target change) before
  | change handle codePoint element =>
    simp only [Session.perform, Tailoring.change]
    cases session.tailoring.node? handle with
    | none => exact before
    | some node =>
      simp only
      cases node.find codePoint with
      | none => exact before
      | some slot => exact lasting.putNode _ _ before
  | attach codePoint handle =>
    rcases session.perform_attach_cases codePoint handle with same | ⟨node, -, attached⟩
    · rwa [same]
    · rw [attached]
      exact lasting.withRecord session.tailoring.packed _ (lasting.putNode handle _ before)
  | pack base classOf =>
    rcases session.perform_pack_cases base classOf with same | ⟨-, -, laid⟩
    · rwa [same]
    · rw [laid]
      exact lasting.withRecord _ _ before
  | _ => exact before

end Lasting

/-! ## The frame of all requests -/

/-- The edits of nodes that a request asks for. -/
def Request.edits : Request → List Node.Edit
  | .edit _ wanted => [wanted]
  | .write _ wanted => [wanted]
  | _ => []

/-- What fresh nodes have, what edits keep, and what stays when the element of a slot in use is
replaced, each node has after a request if it had it before.  A node is known by its number, for
different things may hold of different nodes. -/
theorem eachNode_perform {P : Nat → Node → Prop} (session : Session) (request : Request)
    (fresh : ∀ index node, session.tailoring.nodes.size ≤ index →
      Node.fresh session.tailoring.sizing.slots = .ok node → P index node)
    (edits : ∀ edit ∈ request.edits, ∀ index node edited, P index node →
      node.apply edit = .ok edited → P index edited)
    (changes : ∀ handle codePoint element, request = .change handle codePoint element →
      ∀ index node slot, P index node → P index (node.setElement slot element))
    (bases : ∀ index node word, Element.isReferenceWord word = false → P index node →
      P index (node.setElement 0 (.unpack word)))
    (before : session.tailoring.EachNode P) :
    (session.perform request).2.tailoring.EachNode P := by
  have allocates : ∀ {handle : Handle} {made : Tailoring},
      session.tailoring.allocate = .ok (handle, made) → made.EachNode P := by
    intro handle made allocated
    obtain ⟨node, isFresh, -, rfl⟩ := Tailoring.allocate_eq_ok allocated
    exact before.pushNode (fresh _ node (Nat.le_refl _) isFresh)
  cases request with
  | allocate =>
    simp only [perform]
    cases allocated : session.tailoring.allocate with
    | error fault => exact before
    | ok outcome => exact allocates allocated
  | resolve target =>
    cases target with
    | some handle => exact before
    | none =>
      simp only [perform, Tailoring.resolve]
      cases allocated : session.tailoring.allocate with
      | error fault => exact before
      | ok outcome => exact allocates allocated
  | edit target edit =>
    exact (session.tailoring.edited_edit target edit).eachNode fresh
      (edits edit (List.mem_singleton_self edit)) before
  | write target edit =>
    exact (session.tailoring.edited_write target edit).eachNode fresh
      (edits edit (List.mem_singleton_self edit)) before
  | change handle codePoint element =>
    cases found : session.tailoring.node? handle with
    | none =>
      rw [perform_change_of_none (by simp [Tailoring.find, found])]
      exact before
    | some node =>
      cases located : node.find codePoint with
      | none =>
        rw [perform_change_of_none (by simp [Tailoring.find, found, located])]
        exact before
      | some slot =>
        rw [perform_change_of_some found located]
        exact before.putNode (changes _ _ _ rfl _ node slot (before.of_node? found))
  | attach codePoint handle =>
    rcases session.perform_attach_cases codePoint handle with same | ⟨node, found, attached⟩
    · rw [same]
      exact before
    · rw [attached]
      have here := before.of_node? found
      refine before.putNode ?_
      unfold based
      split
      · exact here
      · -- a node takes no reference for its own element
        rename_i free
        simp only [Bool.or_eq_true, not_or, Bool.not_eq_true, Element.isReference_unpack] at free
        exact bases _ node _ free.1 here
  | pack base classOf =>
    unfold Tailoring.EachNode
    rw [nodes_perform_pack]
    exact before
  | _ => exact before

end Session

end Contractions
