/-
# Contractions.Proofs.Appending — a node as a log.

A node that is only ever appended to keeps a log.  Two writes make the lines of it, `Note`: one adds a
pair behind the others, one amends the last slot in use, whichever that is at the time.  So what an
amendment means depends on where it stands among the additions, and before the first addition it goes
to a slot that was there already: the last pair, or the reserved slot where there is none.

`Note.write` is what one line does, and `Note.foldl_write` reads a whole log from the front, where
each addition takes up the amendments up to the next one.  The step lemma `undergo_minds` says that an
event does to the node what it notes, and nothing if it notes nothing; that holds for requests that
write other nodes or none, for refused ones, and for copies.  Where the slots end and how often the
node doubled on the way does not occur in it.
-/
import Contractions.Node.Cursor
import Contractions.Proofs.Copying
import Contractions.Proofs.Discipline

namespace Contractions

/-! ## Lines of a log -/

/-- One line in the log of a node. -/
inductive Note where
  /-- A pair is added behind the others. -/
  | add (codePoint : UInt16) (element : Element)
  /-- The element of the last slot in use is replaced. -/
  | amend (element : Element)
deriving DecidableEq, Repr

/-- The slot that stores a pair. -/
def Slot.ofPair (pair : Pair) : Slot :=
  .of pair.1 pair.2

/-- A slot with the last of some elements, or with its own where there are none. -/
def Slot.amended (slot : Slot) (elements : List Element) : Slot :=
  slot.withElement (elements.getLastD slot.element)

theorem Handle.eq_of_index_eq {handle other : Handle} (same : handle.index = other.index) :
    handle = other := by
  cases handle
  cases other
  simpa using same

namespace Note

/-- The edit that makes the line. -/
def edit : Note → Node.Edit
  | add codePoint element => .append codePoint element
  | amend element => .setLast element

/-- What a line does to the slots in use. -/
def write (slots : List Slot) : Note → List Slot
  | add codePoint element => slots ++ [.of codePoint element]
  | amend element => slots.modify (slots.length - 1) (·.withElement element)

/-- The amendments in front of the first addition. -/
def amendments : List Note → List Element
  | [] => []
  | add _ _ :: _ => []
  | amend element :: notes => element :: amendments notes

/-- The pairs that a log adds, in its order.  Each has the last amendment made before the next one was
added, or else the element that it was added with. -/
def added : List Note → List Pair
  | [] => []
  | add codePoint element :: notes =>
    (codePoint, (amendments notes).getLastD element) :: added notes
  | amend _ :: notes => added notes

end Note

namespace Slot

@[simp] theorem amended_nil (slot : Slot) : slot.amended [] = slot := by
  simp [amended, withElement, element]

theorem amended_withElement (slot : Slot) (element : Element) (elements : List Element) :
    (slot.withElement element).amended elements = slot.amended (element :: elements) := by
  cases elements with
  | nil => simp [amended, withElement, Slot.element]
  | cons first rest => simp only [amended, withElement, List.getLastD_cons]

/-- A pair that is amended later on is the pair with the later element. -/
theorem amended_of (codePoint : UInt16) (element : Element) (elements : List Element) :
    (Slot.of codePoint element).amended elements =
      .ofPair (codePoint, elements.getLastD element) := by
  cases elements with
  | nil => simp [amended, withElement, ofPair, of, Slot.element]
  | cons first rest => simp only [amended, withElement, ofPair, of, List.getLastD_cons]

/-- What is stored of a pair is read back as far as a word holds it. -/
@[simp] theorem pair_ofPair (pair : Pair) :
    (ofPair pair).pair = (pair.1, Element.unpack pair.2.pack) := rfl

end Slot

namespace Note

theorem write_amend (front : List Slot) (last : Slot) (element : Element) :
    write (front ++ [last]) (.amend element) = front ++ [last.withElement element] := by
  simp [write, List.modify_eq_set_getElem?]

/-- A log read from the front: the last slot takes the amendments up to the first addition, and from
there on each pair that is added takes those up to the next one. -/
theorem foldl_write (notes : List Note) (front : List Slot) (last : Slot) :
    notes.foldl write (front ++ [last]) =
      front ++ last.amended (amendments notes) :: (added notes).map Slot.ofPair := by
  induction notes generalizing front last with
  | nil => rw [List.foldl_nil, amendments, Slot.amended_nil, added, List.map_nil]
  | cons note notes ih =>
    rw [List.foldl_cons]
    cases note with
    | add codePoint element =>
      -- the added pair is the last slot from here on
      rw [write, ih, amendments, Slot.amended_nil, Slot.amended_of, added, List.map_cons,
        List.append_assoc, List.singleton_append]
    | amend element => rw [write_amend, ih, amendments, added, Slot.amended_withElement]

end Note

/-- A line does to the slots in use what it says, whether the node had to double or not. -/
theorem Node.logical_apply_note {node edited : Node} {note : Note}
    (applied : node.apply note.edit = .ok edited) : edited.logical = note.write node.logical := by
  cases note with
  | add codePoint element => exact logical_append applied
  | amend element =>
    cases applied
    exact logical_setElement node node.pairs.length element

/-- What a log leaves of the slots in use.  Nothing else in them is different. -/
structure Node.Logged (node : Node) (notes : List Note) (after : Node) : Prop where
  /-- Where there was no pair, the amendments in front of the first addition went to the reserved
  slot. -/
  onReserved : node.pairs = [] →
    after.reserved = node.reserved.amended (Note.amendments notes) ∧
      after.pairs = (Note.added notes).map Slot.ofPair
  /-- Otherwise they went to the last pair, and the reserved slot was left alone. -/
  onPair : ∀ front last, node.pairs = front ++ [last] →
    after.reserved = node.reserved ∧
      after.pairs =
        front ++ last.amended (Note.amendments notes) :: (Note.added notes).map Slot.ofPair
  /-- The pairs behind the earlier ones read as what was added, as far as a word holds it. -/
  shown : (after.pairs.drop node.pairs.length).map Slot.pair =
    (Note.added notes).map fun pair => (pair.1, Element.unpack pair.2.pack)

theorem Node.logged_of_logical {node after : Node} {notes : List Note}
    (written : after.logical = notes.foldl Note.write node.logical) : node.Logged notes after := by
  have onReserved : node.pairs = [] →
      after.reserved = node.reserved.amended (Note.amendments notes) ∧
        after.pairs = (Note.added notes).map Slot.ofPair := by
    intro none
    have slots : node.logical = [] ++ [node.reserved] := congrArg (node.reserved :: ·) none
    rw [slots, Note.foldl_write] at written
    exact List.cons.inj written
  have onPair : ∀ front last, node.pairs = front ++ [last] → after.reserved = node.reserved ∧
      after.pairs =
        front ++ last.amended (Note.amendments notes) :: (Note.added notes).map Slot.ofPair := by
    intro front last pairs
    have slots : node.logical = (node.reserved :: front) ++ [last] :=
      congrArg (node.reserved :: ·) pairs
    rw [slots, Note.foldl_write] at written
    exact List.cons.inj written
  refine ⟨onReserved, onPair, ?_⟩
  -- as many pairs as there were stand in front of those that were added
  have behind : after.pairs.drop node.pairs.length = (Note.added notes).map Slot.ofPair := by
    rcases List.eq_nil_or_concat node.pairs with none | ⟨front, last, pairs⟩
    · rw [(onReserved none).2, none]
      rfl
    · rw [List.concat_eq_append] at pairs
      have length : node.pairs.length =
          (front ++ [last.amended (Note.amendments notes)]).length := by simp [pairs]
      rw [(onPair front last pairs).2, List.append_cons, length, List.drop_left]
  simp only [behind, List.map_map, Function.comp_def, Slot.pair_ofPair]

/-- Only an addition can be refused, and only to a node of so many slots that no room is left. -/
theorem Node.exists_apply_note (node : Node) (note : Note)
    (room : ∀ codePoint element, note = .add codePoint element → node.length < 2 ^ 60) :
    ∃ edited, node.apply note.edit = .ok edited := by
  cases note with
  | add codePoint element =>
    rcases node.grow_or_full with ⟨grown, grows⟩ | ⟨-, full⟩
    · exact ⟨_, by simp only [Note.edit, apply, append, grows, Except.map]; rfl⟩
    · exact absurd (room codePoint element rfl) (Nat.not_lt_of_le full)
  | amend element => exact ⟨_, rfl⟩

namespace Tailoring

variable {count : Nat} {handle : Handle}

theorem writerAim_ne_of_ne {target : Option Handle} (there : handle.index < count)
    (other : target ≠ some handle) : writerAim count target ≠ handle.index := by
  intro aims
  cases target with
  | none => exact Nat.ne_of_gt there aims
  | some target =>
    simp only [writerAim] at aims
    split at aims
    · exact other (congrArg some (Handle.eq_of_index_eq aims))
    · exact Nat.ne_of_gt there aims

theorem numberAmong_ne_of_ne {target : Handle} (other : some target ≠ some handle) :
    numberAmong count target ≠ some handle.index := by
  intro names
  unfold numberAmong at names
  split at names
  · exact other (congrArg some (Handle.eq_of_index_eq (Option.some.inj names)))
  · cases names

end Tailoring

namespace Session

/-! ## Events that make a log -/

/-- The handle through which a request may write a node that is there. -/
def Request.through : Request → Option Handle
  | .edit target _ => target
  | .write target _ => target
  | .change handle _ _ => some handle
  | .attach _ handle => some handle
  | _ => none

/-- What may happen while a node keeps a log: it is added to or amended, and otherwise it is left
alone. -/
inductive Event.Minds (handle : Handle) : Event → Prop where
  | note (note : Note) : Minds handle (.request (.write (some handle) note.edit))
  | elsewhere {request : Request} (other : request.through ≠ some handle) :
    Minds handle (.request request)
  | copy : Minds handle .copy

/-- The line that an event asks for. -/
def Event.note? (handle : Handle) : Event → Option Note
  | .request (.write (some target) (.append codePoint element)) =>
    if target = handle then some (.add codePoint element) else none
  | .request (.write (some target) (.setLast element)) =>
    if target = handle then some (.amend element) else none
  | _ => none

/-- The line that an event makes: none if it was refused. -/
def noted (session : Session) (handle : Handle) (event : Event) : Option Note :=
  (session.undergo event).1.toOption.bind fun _ => event.note? handle

/-- The log that a course makes. -/
def log (session : Session) (handle : Handle) : List Event → List Note
  | [] => []
  | event :: events =>
    (session.noted handle event).toList ++ (session.undergo event).2.log handle events

variable {session : Session} {handle : Handle} {node : Node} {event : Event}

theorem Event.note?_note (handle : Handle) (note : Note) :
    (Event.request (.write (some handle) note.edit)).note? handle = some note := by
  cases note <;> exact if_pos rfl

theorem Event.note?_elsewhere {request : Request} (other : request.through ≠ some handle) :
    (Event.request request).note? handle = none := by
  unfold note?
  split
  · rename_i target codePoint element same
    cases same
    exact if_neg fun same => other (congrArg some same)
  · rename_i target element same
    cases same
    exact if_neg fun same => other (congrArg some same)
  · rfl

/-- A request that is not given the handle of a node works on another node, or makes one. -/
theorem Request.aim_ne_of_through {request : Request} {count : Nat} (there : handle.index < count)
    (other : request.through ≠ some handle) : request.aim count ≠ some handle.index := by
  have next : some count ≠ some handle.index := fun aims => Nat.ne_of_gt there (Option.some.inj aims)
  cases request with
  | allocate => exact next
  | resolve target =>
    cases target with
    | none => exact next
    | some target => exact nofun
  | edit target change =>
    cases target with
    | none => exact next
    | some target => exact Tailoring.numberAmong_ne_of_ne other
  | write target change =>
    intro aims
    exact Tailoring.writerAim_ne_of_ne there other (Option.some.inj aims)
  | change target codePoint element => exact Tailoring.numberAmong_ne_of_ne other
  | attach codePoint target => exact Tailoring.numberAmong_ne_of_ne other
  | _ => exact nofun

/-! ## Step by step -/

/-- A write through the handle of a node, in full: it is refused and nothing is different, or the node
is edited. -/
theorem perform_write_of_node? (found : session.tailoring.node? handle = some node)
    (change : Node.Edit) :
    session.perform (.write (some handle) change) =
      match node.apply change with
      | .error fault => (.error fault, session)
      | .ok edited => (.ok (.element (some (.ofHandle handle))),
          { session with tailoring := session.tailoring.putNode handle edited }) := by
  simp only [perform, Tailoring.write, Tailoring.claim_of_lt (Tailoring.lt_size_of_node? found),
    found]
  cases node.apply change <;> rfl

/-- An event does to the node what it notes. -/
theorem undergo_minds (found : session.tailoring.node? handle = some node)
    (minds : event.Minds handle) :
    ∃ next, (session.undergo event).2.tailoring.node? handle = some next ∧
      next.logical = (session.noted handle event).toList.foldl Note.write node.logical := by
  have there := Tailoring.lt_size_of_node? found
  cases minds with
  | note note =>
    have performed : session.undergo (.request (.write (some handle) note.edit)) = _ :=
      perform_write_of_node? found note.edit
    rw [noted, performed, Event.note?_note]
    cases applied : node.apply note.edit with
    | error fault => exact ⟨node, found, rfl⟩
    | ok edited =>
      exact ⟨edited, Tailoring.node?_putNode_self edited there, Node.logical_apply_note applied⟩
  | @elsewhere request other =>
    refine ⟨node, ?_, ?_⟩
    · exact (session.getElem?_perform_of_ne request (Request.aim_ne_of_through there other)).trans
        found
    · rw [noted, Event.note?_elsewhere other, Option.bind_fun_none]
      rfl
  | copy =>
    refine ⟨node.copy, ?_, rfl⟩
    simp only [undergo, Tailoring.node?, Tailoring.copy, Array.getElem?_map]
    rw [show session.tailoring.nodes[handle.index]? = some node from found]
    rfl

/-- What is asked for is noted, as long as the node can take it. -/
theorem noted_eq_note? (found : session.tailoring.node? handle = some node)
    (minds : event.Minds handle) (room : ∀ codePoint element,
      event.note? handle = some (.add codePoint element) → node.length < 2 ^ 60) :
    session.noted handle event = event.note? handle := by
  cases minds with
  | note note =>
    rw [Event.note?_note] at room
    obtain ⟨edited, applied⟩ := node.exists_apply_note note fun codePoint element same =>
      room codePoint element (congrArg some same)
    have performed : session.undergo (.request (.write (some handle) note.edit)) = _ :=
      perform_write_of_node? found note.edit
    rw [noted, performed, applied]
    rfl
  | elsewhere other => rw [noted, Event.note?_elsewhere other, Option.bind_fun_none]
  | copy => rfl

/-! ## Whole courses -/

/-- A course does to the node what its log says. -/
theorem logical_after_log (found : session.tailoring.node? handle = some node) {events : List Event}
    (minds : ∀ event ∈ events, event.Minds handle) :
    ∃ after, (session.after events).tailoring.node? handle = some after ∧
      after.logical = (session.log handle events).foldl Note.write node.logical := by
  induction events generalizing session node with
  | nil => exact ⟨node, found, rfl⟩
  | cons event events ih =>
    obtain ⟨mindsHere, mindsLater⟩ := List.forall_mem_cons.mp minds
    obtain ⟨next, foundNext, here⟩ := undergo_minds found mindsHere
    obtain ⟨after, foundAfter, later⟩ := ih foundNext mindsLater
    refine ⟨after, foundAfter, ?_⟩
    rw [later, here, log, List.foldl_append]

/-- Where the node can take all that is asked for, the log has all of it. -/
theorem log_eq_asked (found : session.tailoring.node? handle = some node) {events : List Event}
    (minds : ∀ event ∈ events, event.Minds handle)
    (room : node.length + (Note.added (events.filterMap (Event.note? handle))).length ≤ 2 ^ 60) :
    session.log handle events = events.filterMap (Event.note? handle) := by
  induction events generalizing session node with
  | nil => rfl
  | cons event events ih =>
    obtain ⟨mindsHere, mindsLater⟩ := List.forall_mem_cons.mp minds
    obtain ⟨next, foundNext, here⟩ := undergo_minds found mindsHere
    have noted : session.noted handle event = event.note? handle := by
      refine noted_eq_note? found mindsHere fun codePoint element asked => ?_
      rw [List.filterMap_cons_some asked, Note.added, List.length_cons] at room
      omega
    have length : next.length = ((event.note? handle).toList.foldl Note.write node.logical).length :=
      noted ▸ congrArg List.length here
    rw [log, noted]
    cases asked : event.note? handle with
    | none =>
      rw [asked] at length
      rw [List.filterMap_cons_none asked] at room ⊢
      exact ih foundNext mindsLater (length ▸ room)
    | some note =>
      rw [asked] at length
      rw [List.filterMap_cons_some asked] at room ⊢
      refine congrArg (note :: ·) (ih foundNext mindsLater ?_)
      cases note with
      | add codePoint element =>
        have longer : next.length = node.length + 1 := by simpa [Note.write] using length
        rw [Note.added, List.length_cons] at room
        omega
      | amend element =>
        have same : next.length = node.length := by simpa [Note.write] using length
        rw [Note.added] at room
        omega

/-- A node that is only ever added to and amended keeps a faithful log, whatever happens to other
nodes in between.  The course ends with the node as the log says, which has the pairs in the order in
which they were added, each with the last amendment made while it was the last one.  An addition that
is refused makes no line; but none is refused as long as the node has fewer than `2 ^ 60` slots in
use, and then the log is what was asked for.

Nothing is assumed about the node at the start, neither about its pairs nor about its spare slots. -/
theorem appending_keeps_log (found : session.tailoring.node? handle = some node)
    {events : List Event} (minds : ∀ event ∈ events, event.Minds handle) :
    ∃ after, (session.after events).tailoring.node? handle = some after ∧
      node.Logged (session.log handle events) after ∧
      (node.length + (Note.added (events.filterMap (Event.note? handle))).length ≤ 2 ^ 60 →
        session.log handle events = events.filterMap (Event.note? handle)) := by
  obtain ⟨after, there, written⟩ := logical_after_log found minds
  exact ⟨after, there, Node.logged_of_logical written, log_eq_asked found minds⟩

/-- The first node of the ring has one pair.  That pair is amended; then the ring is copied, so the
node is full and doubles for the pair that is added next.  The last amendment goes to the new pair,
although another node was written in between. -/
theorem appending_keeps_log_ring :
    let handle : Handle := ⟨0, by decide⟩
    let events : List Event :=
      [.request (.write (some handle) (.setLast (.direct 9))), .copy,
        .request (.write (some handle) (.append 7 (.direct 70))),
        .request (.write none (.append 1 (.direct 10))),
        .request (.write (some handle) (.setLast (.direct 71)))]
    ∃ node after, ring.tailoring.node? handle = some node ∧
      (∀ event ∈ events, event.Minds handle) ∧
      (ring.after events).tailoring.node? handle = some after ∧
      node.Logged [.amend (.direct 9), .add 7 (.direct 70), .amend (.direct 71)] after ∧
      after.pairs.map Slot.pair = [(5, .direct 9), (7, .direct 71)] := by
  intro handle events
  have pairs : (ring.tailoring.node? handle).map Node.pairs = some [.of 5 (.reference 1)] := by
    decide +kernel
  obtain ⟨node, found, pairs⟩ := Option.map_eq_some_iff.mp pairs
  have minds : ∀ event ∈ events, event.Minds handle := by
    simp only [events, List.forall_mem_cons, List.not_mem_nil, false_imp_iff, implies_true, and_true]
    exact ⟨.note (.amend _), .copy, .note (.add _ _), .elsewhere nofun, .note (.amend _)⟩
  obtain ⟨after, there, logged, asked⟩ := appending_keeps_log found minds
  have length : node.length = 2 := by simp only [Node.length, pairs, List.length_singleton]
  rw [asked (by rw [length]; decide)] at logged
  refine ⟨node, after, found, minds, there, logged, ?_⟩
  rw [(logged.onPair [] _ pairs).2]
  decide

end Session

end Contractions
