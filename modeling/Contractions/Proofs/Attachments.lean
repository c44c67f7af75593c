/-
# Contractions.Proofs.Attachments — what many attachments in turn come to.

Several code points may be attached to one node, and one code point may be moved from node to node.
Two rules meet in this.  On the side of the nodes the first counts: a node that has no element of
its own keeps the first one that it is offered, and one that has an element keeps that.  On the side
of the main table the last counts: a code point shows the node that it was attached to last.  The
two are tied together by the answers, for what a node is offered is what the code point showed just
before.

`Session.Linked` states both rules for any number of attachments.  It is proved by going through
them one by one, from any session, whatever the main table holds and the tailoring remembers.  A
code point without a slot has no part in it: it offers nothing, and to attach it leaves the session
exactly as it was (`attached_of_size_le`).  That needs the memory to list only code points with a
slot, as it does in every course of events (`inside_after`).
-/
import Contractions.Proofs.Enclosure
import Contractions.Proofs.PackedLookup

namespace Contractions

/-! ## Elements that a node is offered -/

namespace Element

/-- Where there is an element, it is one that can be stored and not the one that stands for none. -/
def Keepable (offer : Option Element) : Prop :=
  ∀ element ∈ offer, unpack element.pack = element ∧ element ≠ .notFound

theorem Keepable.none : Keepable none := nofun

theorem Keepable.or {first second : Option Element} (here : Keepable first)
    (there : Keepable second) : Keepable (first.or second) := by
  cases first with
  | none => exact there
  | some element => exact here

/-- A stored element, unless it is the one that stands for none. -/
theorem keepable_ite (word : UInt32) :
    Keepable (if (unpack word).isNotFound then Option.none else some (unpack word)) := by
  split
  · exact .none
  · rename_i proper
    intro element same
    obtain rfl := Option.some.inj same
    refine ⟨congrArg unpack (pack_unpack word), fun none => proper ?_⟩
    exact (isNotFound_iff _).mpr none

/-- What a node may keep of an element that a code point showed: nothing of a reference and nothing
of "not found". -/
def offer? (shown : Element) : Option Element :=
  if shown.isReference || shown.isNotFound then none else some shown

theorem keepable_offer? (word : UInt32) : Keepable (unpack word).offer? := by
  unfold offer?
  cases (unpack word).isReference with
  | true => exact .none
  | false => exact keepable_ite word

end Element

namespace Node

/-- The node behind the offer of an element for the text that leads to it. -/
def offered (node : Node) (offer : Option Element) : Node :=
  { node with reserved := node.reserved.withElement ((node.base?.or offer).getD .notFound) }

theorem keepable_base? (node : Node) : Element.Keepable node.base? :=
  Element.keepable_ite node.reserved.word

/-- The element in the reserved slot is the node's own, where "not found" stands for none. -/
theorem getD_base? (node : Node) : node.base?.getD .notFound = node.reserved.element := by
  unfold base?
  split
  · rename_i none
    exact ((Element.isNotFound_iff _).mp none).symm
  · rfl

theorem offered_none (node : Node) : node.offered none = node := by
  unfold offered Slot.withElement
  rw [Option.or_none, getD_base?, Slot.element, Element.pack_unpack]

theorem base?_offered (node : Node) {offer : Option Element} (keepable : Element.Keepable offer) :
    (node.offered offer).base? = node.base?.or offer := by
  have either := node.keepable_base?.or keepable
  show (if (Element.unpack ((node.base?.or offer).getD .notFound).pack).isNotFound then none
    else some (Element.unpack ((node.base?.or offer).getD .notFound).pack)) = _
  cases known : node.base?.or offer with
  | none => rfl
  | some element =>
    obtain ⟨stored, proper⟩ := either element known
    rw [Option.getD_some, stored, if_neg fun none => proper ((Element.isNotFound_iff _).mp none)]

/-- Of two offers the first counts. -/
theorem offered_offered (node : Node) {first : Option Element} (keepable : Element.Keepable first)
    (second : Option Element) :
    (node.offered first).offered second = node.offered (first.or second) := by
  show { node with reserved := (node.offered first).reserved.withElement _ } = node.offered _
  rw [base?_offered node keepable, Option.or_assoc]
  rfl

end Node

namespace Session

/-- Attaching offers the node what the code point showed. -/
theorem based_eq_offered (node : Node) (word : UInt32) :
    based node (.unpack word) = node.offered (Element.unpack word).offer? := by
  unfold based Element.offer?
  cases (Element.unpack word).isReference with
  | true => exact (node.offered_none).symm
  | false =>
    cases had : node.base? with
    | some element =>
      -- a node that has an element keeps it
      have none := node.offered_none
      unfold Node.offered at none ⊢
      rw [had] at none ⊢
      exact none.symm
    | none =>
      unfold Node.offered
      rw [had, Option.none_or]
      cases noElement : (Element.unpack word).isNotFound with
      | true =>
        rw [(Element.isNotFound_iff _).mp noElement]
        rfl
      | false => rfl

end Session

/-! ## The two rules -/

/-- A code point to be attached, and the handle of the node that it is attached to. -/
structure Link where
  codePoint : UInt16
  handle : Handle
deriving DecidableEq, Repr

namespace Link

def request (link : Link) : Session.Request :=
  .attach link.codePoint link.handle

/-- The handle that a code point is attached to last, if it is attached at all. -/
def lastHandle (codePoint : UInt16) : List Link → Option Handle
  | [] => none
  | link :: links =>
    (lastHandle codePoint links).or (if link.codePoint = codePoint then some link.handle else none)

/-- What an attachment that answers an element offers to a node: nothing if it is not this node that
is attached. -/
def offer (link : Link) (answer : Element) (handle : Handle) : Option Element :=
  if link.handle = handle then answer.offer? else none

theorem keepable_offer (link : Link) (word : UInt32) (handle : Handle) :
    Element.Keepable (link.offer (.unpack word) handle) := by
  unfold offer
  split
  · exact Element.keepable_offer? word
  · exact .none

/-- The first element that several attachments offer to a node, by what they answer. -/
def firstOffer (handle : Handle) : List Link → List Element → Option Element
  | link :: links, answer :: answers =>
    (link.offer answer handle).or (firstOffer handle links answers)
  | _, _ => none

end Link

namespace Session

open Link (lastHandle firstOffer)

/-- What a code point with a slot shows after some attachments: the node that it was attached to
last, or else the element that it showed at the start. -/
def shown (session : Session) (links : List Link) (codePoint : UInt16) : Element :=
  match lastHandle codePoint links with
  | some handle => .ofHandle handle
  | none => .unpack (session.table.get codePoint)

/-- What several attachments come to, with the elements that they answered. -/
structure Linked (before : Session) (links : List Link) (answers : List Element)
    (after : Session) : Prop where
  /-- The nodes are as many as before, and their room and the packed table are the same. -/
  size_eq : after.tailoring.nodes.size = before.tailoring.nodes.size
  sizing_eq : after.tailoring.sizing = before.tailoring.sizing
  capacity_eq : after.tailoring.capacity = before.tailoring.capacity
  packed_eq : after.tailoring.packed = before.tailoring.packed
  /-- Every node is as it was but for the element in its reserved slot. -/
  node : ∀ handle node, before.tailoring.node? handle = some node →
    after.tailoring.node? handle = some (node.offered (firstOffer handle links answers))
  /-- That is the one that it had before, or else the first one that it was offered. -/
  base : ∀ handle node, before.tailoring.node? handle = some node →
    after.tailoring.base? handle =
      (before.tailoring.base? handle).or (firstOffer handle links answers)
  /-- The code points that were attached are forgotten and no others. -/
  memory : ∀ relocation, relocation ∈ after.tailoring.memory ↔
    relocation ∈ before.tailoring.memory ∧ lastHandle relocation.codePoint links = none
  table_size : after.table.size = before.table.size
  table : ∀ codePoint, codePoint.toNat < before.table.size →
    after.table.get codePoint = (before.shown links codePoint).pack
  /-- There is one answer for each attachment. -/
  length_eq : answers.length = links.length
  /-- It is what the code point showed by then. -/
  answer : ∀ (index : Nat) (link : Link), links[index]? = some link →
    link.codePoint.toNat < before.table.size →
      answers[index]? = some (before.shown (links.take index) link.codePoint)
  /-- A code point without a slot shows "not found" every time. -/
  beyond : ∀ (index : Nat) (link : Link), links[index]? = some link →
    before.table.size ≤ link.codePoint.toNat → answers[index]? = some Element.notFound

/-! ## One attachment after the other -/

section Step

variable {session after : Session} {link : Link} {node : Node}

/-- A node that is not attached is offered nothing and stays as it was. -/
theorem node?_attached (found : session.tailoring.node? link.handle = some node) {handle : Handle}
    {other : Node} (there : session.tailoring.node? handle = some other) :
    (session.attached link.codePoint link.handle node).tailoring.node? handle =
      some (other.offered (link.offer (.unpack (session.table.get link.codePoint)) handle)) := by
  show (session.tailoring.putNode link.handle (based node _)).node? handle = _
  rw [Tailoring.node?_putNode _ _ (Tailoring.lt_size_of_node? found), based_eq_offered, Link.offer]
  by_cases same : handle = link.handle
  · subst same
    obtain rfl := Option.some.inj (found.symm.trans there)
    rw [if_pos rfl, if_pos rfl]
  · rw [if_neg same, if_neg (Ne.symm same), Node.offered_none, there]

theorem shown_attached (links : List Link) {codePoint : UInt16}
    (inRange : codePoint.toNat < session.table.size) :
    (session.attached link.codePoint link.handle node).shown links codePoint =
      session.shown (link :: links) codePoint := by
  unfold shown
  rw [lastHandle]
  cases lastHandle codePoint links with
  | some handle => rfl
  | none =>
    show Element.unpack ((session.table.set link.codePoint _).get codePoint) = _
    by_cases same : link.codePoint = codePoint
    · subst same
      rw [MainTable.get_set_self _ inRange, Element.unpack_pack_ofHandle, Option.none_or,
        if_pos rfl]
    · rw [MainTable.get_set_of_ne _ _ same, Option.none_or, if_neg same]

theorem linked_nil (session : Session) : session.Linked [] [] session where
  size_eq := rfl
  sizing_eq := rfl
  capacity_eq := rfl
  packed_eq := rfl
  node := by
    intro handle node found
    show _ = some (node.offered none)
    rw [node.offered_none, found]
  base := fun _ _ _ => (Option.or_none).symm
  memory := fun _ => (and_iff_left rfl).symm
  table_size := rfl
  table := fun _ _ => (Element.pack_unpack _).symm
  length_eq := rfl
  answer := nofun
  beyond := nofun

theorem Linked.cons (found : session.tailoring.node? link.handle = some node) {links : List Link}
    {answers : List Element}
    (rest : (session.attached link.codePoint link.handle node).Linked links answers after) :
    session.Linked (link :: links) (.unpack (session.table.get link.codePoint) :: answers)
      after where
  size_eq := rest.size_eq.trans (Tailoring.size_putNode _ _ _)
  sizing_eq := rest.sizing_eq
  capacity_eq := rest.capacity_eq
  packed_eq := rest.packed_eq
  node := by
    intro handle other there
    have later := rest.node handle _ (node?_attached found there)
    rwa [Node.offered_offered _ (link.keepable_offer _ handle)] at later
  base := by
    intro handle other there
    have middle := node?_attached found there
    have later := rest.base handle _ middle
    unfold Tailoring.base? at later ⊢
    rw [middle, Option.bind_some, Node.base?_offered _ (link.keepable_offer _ handle)] at later
    rw [later, there, Option.bind_some, Option.or_assoc]
    rfl
  memory := by
    intro relocation
    rw [rest.memory]
    show relocation ∈ Relocation.forget _ _ ∧ _ ↔ _
    rw [Relocation.mem_forget, lastHandle, Option.or_eq_none_iff, and_assoc]
    refine and_congr_right fun _ => ?_
    rw [and_comm]
    refine and_congr_right fun _ => ?_
    split
    · rename_i same
      simp [same]
    · rename_i different
      simp [Ne.symm different]
  table_size := rest.table_size.trans (MainTable.size_set _ _ _)
  table := by
    intro codePoint inRange
    rw [rest.table codePoint (by rwa [attached, MainTable.size_set]), shown_attached links inRange]
  length_eq := by rw [List.length_cons, List.length_cons, rest.length_eq]
  answer := by
    intro index other listed inRange
    cases index with
    | zero =>
      obtain rfl := Option.some.inj listed
      rfl
    | succ index =>
      rw [List.getElem?_cons_succ, List.take_succ_cons, ← shown_attached _ inRange]
      exact rest.answer index other listed (by rwa [attached, MainTable.size_set])
  beyond := by
    intro index other listed past
    cases index with
    | zero =>
      obtain rfl := Option.some.inj listed
      rw [List.getElem?_cons_zero, MainTable.get_of_size_le past, Element.unpack_pack_notFound]
    | succ index => exact rest.beyond index other listed (by rwa [attached, MainTable.size_set])

end Step

/-- Attachments that are not refused, from any session. -/
theorem linked_run (session : Session) {links : List Link}
    (succeed : ∀ outcome ∈ (session.run (links.map Link.request)).1,
      ∃ answer, outcome = .ok answer) :
    ∃ answers : List Element,
      (session.run (links.map Link.request)).1 =
        answers.map (fun shown => .ok (.element (some shown))) ∧
      session.Linked links answers (session.run (links.map Link.request)).2 := by
  induction links generalizing session with
  | nil => exact ⟨[], rfl, linked_nil session⟩
  | cons link links ih =>
    rw [List.map_cons, run] at succeed ⊢
    cases found : session.tailoring.node? link.handle with
    | none =>
      -- there is no node to attach the code point to
      have refused := perform_attach_of_none found link.codePoint
      obtain ⟨answer, granted⟩ := succeed _ List.mem_cons_self
      rw [show session.perform link.request = _ from refused] at granted
      cases granted
    | some node =>
      have step : session.perform link.request = _ := perform_attach_of_some found link.codePoint
      rw [step] at succeed ⊢
      obtain ⟨answers, outcomes, rest⟩ :=
        ih (session.attached link.codePoint link.handle node) fun outcome mem =>
          succeed outcome (List.mem_cons_of_mem _ mem)
      refine ⟨.unpack (session.table.get link.codePoint) :: answers, ?_, rest.cons found⟩
      exact congrArg (List.cons _) outcomes

/-! ## Code points without a slot -/

/-- The memory lists only code points with a slot. -/
def Inside (session : Session) : Prop :=
  ∀ relocation ∈ session.tailoring.memory, relocation.codePoint.toNat < session.table.size

/-- No request adds slots to the main table or takes any away. -/
theorem table_size_perform (session : Session) (request : Request) :
    (session.perform request).2.table.size = session.table.size := by
  by_cases onNodes : request.onNodes = true
  · obtain ⟨-, -, table⟩ := session.record_perform onNodes
    rw [table]
  · cases request with
    | attach codePoint handle =>
      rcases session.perform_attach_cases codePoint handle with same | ⟨node, -, attached⟩
      · rw [same]
      · rw [attached]
        exact MainTable.size_set _ _ _
    | assign codePoint element => exact MainTable.size_set _ _ _
    | pack base classOf =>
      rcases session.perform_pack_cases base classOf with same | ⟨-, -, laid⟩
      · rw [same]
      · rw [laid]
        exact MainTable.size_relocated _ _
    | _ => exact absurd rfl onNodes

theorem inside_undergo {session : Session} (inside : session.Inside) (event : Event) :
    (session.undergo event).2.Inside := by
  cases event with
  | copy => exact inside
  | request request =>
    have size := session.table_size_perform request
    show (session.perform request).2.Inside
    unfold Inside
    rw [size]
    rcases session.record_perform_cases request with ⟨-, fewer⟩ | ⟨base, classOf, -, -, -, laid⟩
    · exact fun relocation mem => inside relocation (fewer relocation mem)
    · -- what a packing remembers it found in a slot
      rw [laid]
      intro relocation mem
      obtain ⟨⟨codePoint, payload⟩, found, rfl⟩ := List.mem_map.mp (List.mem_toArray.mp mem)
      exact (MainTable.mem_references.mp found).1

theorem inside_after {session : Session} (inside : session.Inside) (events : List Event) :
    (session.after events).Inside := by
  induction events generalizing session with
  | nil => exact inside
  | cons event events ih => exact ih (inside_undergo inside event)

/-- To attach a code point without a slot leaves everything as it is. -/
theorem attached_of_size_le {session : Session} (inside : session.Inside) {codePoint : UInt16}
    (past : session.table.size ≤ codePoint.toNat) {handle : Handle} {node : Node}
    (found : session.tailoring.node? handle = some node) :
    session.attached codePoint handle node = session := by
  have shows : session.table.get codePoint = Element.notFound.pack := MainTable.get_of_size_le past
  have keeps : based node (.unpack (session.table.get codePoint)) = node := by
    rw [shows, based_eq_offered]
    exact node.offered_none
  have nodes : session.tailoring.nodes.setIfInBounds handle.index node =
      session.tailoring.nodes := by
    obtain ⟨inRange, rfl⟩ := Array.getElem?_eq_some_iff.mp found
    rw [Array.setIfInBounds, dif_pos inRange, Array.set_getElem_self]
  have memory : Relocation.forget session.tailoring.memory codePoint =
      session.tailoring.memory := by
    refine Array.filter_eq_self.mpr fun relocation mem => decide_eq_true ?_
    rintro rfl
    exact absurd (inside relocation mem) (Nat.not_lt_of_le past)
  have table : session.table.set codePoint (Element.ofHandle handle).pack = session.table := by
    refine MainTable.ext_get (MainTable.size_set _ _ _) fun other => ?_
    by_cases same : codePoint = other
    · subst same
      rw [shows, MainTable.get_of_size_le (by rwa [MainTable.size_set])]
    · exact MainTable.get_set_of_ne _ _ same
  unfold attached Tailoring.putNode
  rw [keeps, nodes, memory, table]

/-- So attachments of code points without a slot may be left out. -/
theorem run_filter_inside {session : Session} (inside : session.Inside) (links : List Link) :
    (session.run (links.map Link.request)).2 =
      (session.run ((links.filter fun link =>
        link.codePoint.toNat < session.table.size).map Link.request)).2 := by
  induction links generalizing session with
  | nil => rfl
  | cons link links ih =>
    have size := session.table_size_perform link.request
    have later := ih (inside_undergo inside (.request link.request))
    simp only [undergo, size] at later
    show ((session.perform link.request).2.run (links.map Link.request)).2 = _
    rw [List.filter_cons]
    by_cases inRange : link.codePoint.toNat < session.table.size
    · rw [if_pos (decide_eq_true inRange)]
      exact later
    · rw [if_neg (by simpa using inRange)]
      have same : (session.perform link.request).2 = session := by
        rcases session.perform_attach_cases link.codePoint link.handle with
          same | ⟨node, found, attached⟩
        · exact same
        · exact attached.trans (attached_of_size_le inside (Nat.le_of_not_lt inRange) found)
      rw [same] at later ⊢
      exact later

/-! ## A packing behind the attachments -/

/-- A handle that the memory does not list means itself. -/
theorem refers_of_forall_notMem {session : Session} {codePoint : UInt16} {handle : Handle}
    (inRange : codePoint.toNat < session.table.size)
    (holds : session.table.get codePoint = (Element.ofHandle handle).pack)
    (unlisted : ∀ payload,
      ⟨codePoint, (Element.ofHandle handle).pack, payload⟩ ∉ session.tailoring.memory) :
    session.table.Refers session.tailoring.memory codePoint handle.payload := by
  refine ⟨inRange, MainTable.reference?_eq_some_iff.mpr ?_⟩
  rw [MainTable.readThrough, holds, Relocation.readBack_of_forall_notMem unlisted,
    Element.unpack_pack_ofHandle]
  rfl

/-- A packing puts the node's own element in front of its slice, and a code point that holds the
handle of the node refers to the slice from then on. -/
theorem reserved_laidOut {session : Session} {base : Nat}
    (packable : session.tailoring.Packable session.table base) (classOf : UInt16 → UInt8)
    {handle : Handle} {node : Node} (found : session.tailoring.node? handle = some node) :
    ∃ packed offset slots first,
      (session.laidOut base classOf).tailoring.packed = some packed ∧
      packed.offset? handle = some offset ∧ packed.nodeAt offset = some slots ∧
      slots[0]? = some first ∧ (node.base?.getD .notFound).Becomes packed.offsets first.element ∧
      ∀ codePoint, codePoint.toNat < session.table.size →
        (∀ relocation ∈ session.tailoring.memory, relocation.codePoint ≠ codePoint) →
        session.table.get codePoint = (Element.ofHandle handle).pack →
        ∃ target, Element.unpack ((session.laidOut base classOf).table.get codePoint) =
          .reference target ∧ target.toNat = offset := by
  have starts := Tailoring.offset?_plan session.table base classOf found
  refine ⟨_, _, _, _, rfl, starts, Tailoring.nodeAt_plan session.table base classOf found, rfl,
    ?_, ?_⟩
  · rw [node.getD_base?]
    exact (packable.becomes_word (Tailoring.mem_of_node? found) List.mem_cons_self).element
  · intro codePoint inRange forgotten holds
    have refers := refers_of_forall_notMem inRange holds fun payload mem => forgotten _ mem rfl
    obtain ⟨target, read, start⟩ := (packable.readdressed classOf).referring codePoint _ refers
    refine ⟨target, read, ?_⟩
    rw [Handle.toNat_payload] at start
    exact Option.some.inj (start.symm.trans starts)

/-! ## The law of attachments -/

/-- Several attachments that are not refused, with nothing in between, from any session that comes
about on any main table: a node keeps the first element that it is offered, a code point shows the
last node that it was attached to, and code points without a slot may be left out.  A packing that
follows puts each node's own element in front of its slice, and every code point that was last
attached to the node refers to that slice. -/
theorem attachments_keep_bases (sizing : Sizing) (table : MainTable) (events : List Event)
    {links : List Link} :
    let start : Session := { tailoring := .empty sizing, table }
    let session := start.after events
    let after := (session.run (links.map Link.request)).2
    (∀ outcome ∈ (session.run (links.map Link.request)).1, ∃ answer, outcome = .ok answer) →
    ∃ answers : List Element,
      (session.run (links.map Link.request)).1 =
        answers.map (fun shown => .ok (.element (some shown))) ∧
      session.Linked links answers after ∧
      after = (session.run ((links.filter fun link =>
        link.codePoint.toNat < session.table.size).map Link.request)).2 ∧
      ∀ base classOf answer next, after.perform (.pack base classOf) = (.ok answer, next) →
        ∀ handle node, session.tailoring.node? handle = some node →
          ∃ packed offset slots first, next.tailoring.packed = some packed ∧
            packed.offset? handle = some offset ∧ packed.nodeAt offset = some slots ∧
            slots[0]? = some first ∧
            (((session.tailoring.base? handle).or (firstOffer handle links answers)).getD
              .notFound).Becomes packed.offsets first.element ∧
            ∀ codePoint, codePoint.toNat < session.table.size →
              lastHandle codePoint links = some handle →
              ∃ target, Element.unpack (next.table.get codePoint) = .reference target ∧
                target.toNat = offset := by
  intro start session after succeed
  have none : start.Inside := fun relocation mem => absurd mem (Array.not_mem_empty relocation)
  have inside : session.Inside := inside_after none events
  obtain ⟨answers, outcomes, linked⟩ := linked_run session succeed
  refine ⟨answers, outcomes, linked, run_filter_inside inside links, ?_⟩
  intro base classOf answer next packs handle node found
  have there := linked.node handle node found
  have nonempty : after.tailoring.nodes.isEmpty = false := by
    have inRange := Tailoring.lt_size_of_node? there
    rw [Array.isEmpty_eq_false_iff, ← Array.size_pos_iff]
    exact Nat.lt_of_le_of_lt (Nat.zero_le _) inRange
  have packable := packable_of_perform_pack nonempty packs
  rw [perform_pack_of_packable nonempty packable] at packs
  obtain rfl := (Prod.mk.inj packs).2
  obtain ⟨packed, offset, slots, first, isPacked, starts, slice, front, becomes, refers⟩ :=
    reserved_laidOut packable classOf there
  have own := linked.base handle node found
  rw [Tailoring.base?, there, Option.bind_some] at own
  refine ⟨packed, offset, slots, first, isPacked, starts, slice, front, own ▸ becomes, ?_⟩
  intro codePoint inRange last
  refine refers codePoint (by rwa [linked.table_size]) ?_ ?_
  · rintro relocation mem rfl
    have unlisted := ((linked.memory relocation).mp mem).2
    rw [last] at unlisted
    cases unlisted
  · rw [linked.table codePoint inRange, shown, last]

/-- The code point 1 is attached to one node and then to the other, and two more code points follow,
one of them without a slot.  The second node keeps what the code point 1 was before. -/
theorem attachments_keep_bases_moved :
    let start : Session := { tailoring := .empty default, table := .filled 3 (.direct 7) }
    let session := start.after
      [.request .allocate, .request .allocate, .request (.assign 1 (.direct 8)),
        .request (.pack 5 fun _ => 0)]
    let links : List Link :=
      [⟨1, ⟨1, by decide⟩⟩, ⟨1, ⟨0, by decide⟩⟩, ⟨2, ⟨0, by decide⟩⟩, ⟨9, ⟨1, by decide⟩⟩]
    (∀ outcome ∈ (session.run (links.map Link.request)).1, ∃ answer, outcome = .ok answer) ∧
      ∃ answers, session.Linked links answers (session.run (links.map Link.request)).2 ∧
        answers = [.direct 8, .ofHandle ⟨1, by decide⟩, .direct 7, .notFound] ∧
        firstOffer ⟨1, by decide⟩ links answers = some (.direct 8) ∧
        lastHandle 1 links = some ⟨0, by decide⟩ := by
  intro start session links
  have outcomes : (session.run (links.map Link.request)).1 =
      [.direct 8, .ofHandle ⟨1, by decide⟩, .direct 7, .notFound].map
        (fun shown => .ok (.element (some shown))) := by decide +kernel
  have succeed : ∀ outcome ∈ (session.run (links.map Link.request)).1,
      ∃ answer, outcome = .ok answer := by
    rw [outcomes]
    intro outcome mem
    obtain ⟨shown, -, rfl⟩ := List.mem_map.mp mem
    exact ⟨_, rfl⟩
  obtain ⟨answers, answered, linked, -⟩ := attachments_keep_bases default _ _ succeed
  have same : answers = [.direct 8, .ofHandle ⟨1, by decide⟩, .direct 7, .notFound] := by
    refine List.map_injective_iff.mpr ?_ (answered.symm.trans outcomes)
    intro a b equal
    simpa using equal
  subst same
  exact ⟨succeed, _, linked, rfl, by decide, by decide⟩

end Session

end Contractions
