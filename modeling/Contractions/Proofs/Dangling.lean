/-
# Contractions.Proofs.Dangling — where a dangling reference comes from.

A packing is refused for a dangling reference when a slot in use, or the main table, names a node
that was never made.  A slot in use carries an element that some request handed over, for nothing
comes into use with an element of its own, and a node takes no reference from the main table.  So if
the elements handed over name nodes that are there when the request is done, the nodes never dangle.
-/
import Contractions.Proofs.Course
import Contractions.Proofs.Edits
import Contractions.Proofs.Operations
import Contractions.Proofs.Stops

namespace Contractions

/-! ## References below a number -/

instance (count : Nat) (word : UInt32) : Decidable (NamesBelow count word) :=
  match read : Element.unpack word with
  | .direct _ => .isTrue fun _ same => by simp [read] at same
  | .reference payload =>
    decidable_of_iff (payload.toNat < count) (by simp [NamesBelow, read])

theorem NamesBelow.of_not_reference {count : Nat} {word : UInt32}
    (direct : Element.isReferenceWord word = false) : NamesBelow count word := by
  intro payload read
  rw [Element.unpack_eq_direct direct] at read
  cases read

theorem NamesBelow.mono {count greater : Nat} {word : UInt32} (named : NamesBelow count word)
    (le : count ≤ greater) : NamesBelow greater word :=
  fun payload read => Nat.lt_of_lt_of_le (named payload read) le

namespace Node

variable {node edited : Node} {count : Nat}

theorem NamesBelow.setElement (named : node.NamesBelow count) {element : Element}
    (handed : Contractions.NamesBelow count element.pack) (slot : Nat) :
    (node.setElement slot element).NamesBelow count := by
  intro found mem
  rcases mem_logical_setElement mem with ⟨old, inUse, same⟩ | same
  · rw [same]
    exact named old inUse
  · rwa [same]

theorem NamesBelow.apply (named : node.NamesBelow count) {edit : Edit}
    (handed : ∀ element ∈ edit.element?, Contractions.NamesBelow count element.pack)
    (applied : node.apply edit = .ok edited) : edited.NamesBelow count := by
  intro found mem
  rcases mem_logical_apply applied mem with ⟨old, inUse, same⟩ | ⟨element, given, same⟩
  · rw [same]
    exact named old inUse
  · rw [same]
    exact handed element given

theorem NamesBelow.of_fresh {capacity : Nat} (fresh : Node.fresh capacity = .ok node) :
    node.NamesBelow count := by
  obtain ⟨reserved, pairs⟩ := fresh_eq_ok fresh
  intro found mem
  rw [logical, reserved, pairs, List.mem_singleton] at mem
  rw [mem]
  exact .of_not_reference Element.isReferenceWord_pack_notFound

end Node

/-! ## What a packing stops at -/

/-- A plan that is refused for a dangling reference met it in a node or in the main table. -/
theorem Tailoring.dangling_of_packPlan {tailoring : Tailoring} {table : MainTable} {base : Nat}
    {classOf : UInt16 → UInt8} {payload : UInt32}
    (refused : tailoring.packPlan table base classOf = .error (.danglingReference payload)) :
    tailoring.nodes.size ≤ payload.toNat ∧
      ((∃ node ∈ tailoring.nodes, ∃ slot ∈ node.logical, slot.element = .reference payload) ∨
        ∃ codePoint, table.Refers tailoring.memory codePoint payload) := by
  have count := tailoring.size_offsets base
  rcases packPlan_eq_error_iff.mp refused with
    overflow | ⟨-, ⟨-, other⟩ | ⟨-, inNodes | ⟨-, inTable⟩⟩⟩
  · obtain ⟨index, -, -, -, other⟩ := placeNodes_eq_error_iff.mp overflow
    cases other
  · cases other
  · obtain ⟨front, node, back, split, -, stopped⟩ := packNodes_eq_error_iff.mp inNodes
    obtain ⟨before, word, after, words, -, other, ⟨read, beyond⟩, same⟩ :=
      packNode_eq_error_iff.mp stopped
    cases same
    have listed : node ∈ tailoring.nodes.toList := by simp [split]
    have inUse : word ∈ node.logical.map Slot.word := by simp [words]
    obtain ⟨slot, mem, rfl⟩ := List.mem_map.mp inUse
    exact ⟨count ▸ beyond, Or.inl ⟨node, Array.mem_toList_iff.mp listed, slot, mem, read⟩⟩
  · obtain ⟨codePoint, other, refers, -, beyond, same⟩ :=
      mapM_relocateReference_eq_error_iff.mp inTable
    cases same
    exact ⟨count ▸ beyond, Or.inr ⟨codePoint, refers⟩⟩

namespace Session

/-- So does a packing that is refused for one. -/
theorem dangling_of_perform_pack {session : Session} {base : Nat} {classOf : UInt16 → UInt8}
    {payload : UInt32}
    (refused : (session.perform (.pack base classOf)).1 = .error (.danglingReference payload)) :
    session.tailoring.nodes.size ≤ payload.toNat ∧
      ((∃ node ∈ session.tailoring.nodes, ∃ slot ∈ node.logical,
          slot.element = .reference payload) ∨
        ∃ codePoint, session.table.Refers session.tailoring.memory codePoint payload) := by
  cases none : session.tailoring.nodes.isEmpty with
  | true =>
    rw [perform_pack_of_isEmpty none] at refused
    cases refused
  | false =>
    by_cases packable : session.tailoring.Packable session.table base
    · rw [perform_pack_of_packable none packable] at refused
      cases refused
    · obtain ⟨fault, planned, stopped⟩ := perform_pack_of_not_packable none packable classOf
      rw [stopped] at refused
      cases refused
      exact Tailoring.dangling_of_packPlan planned

/-! ## What is handed over -/

/-- The elements that are handed to a request. -/
def Request.elements : Request → List Element
  | .change _ _ wanted => [wanted]
  | request => request.edits.filterMap Node.Edit.element?

/-- The elements that are handed to an event. -/
def Event.elements : Event → List Element
  | .request asked => asked.elements
  | .copy => []

/-- Every element that is handed to an event and stored as a reference names a node that is there
when the event is over. -/
def NamesMade (session : Session) (event : Event) : Prop :=
  ∀ element ∈ event.elements,
    NamesBelow (session.undergo event).2.tailoring.nodes.size element.pack

/-- So it is with each event of a course. -/
def NamesMadeAlong (session : Session) : List Event → Prop
  | [] => True
  | event :: events => session.NamesMade event ∧ (session.undergo event).2.NamesMadeAlong events

instance (session : Session) (event : Event) : Decidable (session.NamesMade event) :=
  inferInstanceAs (Decidable (∀ _ ∈ _, NamesBelow _ _))

instance decidableNamesMadeAlong (session : Session) :
    (events : List Event) → Decidable (session.NamesMadeAlong events)
  | [] => .isTrue trivial
  | event :: events =>
    have := decidableNamesMadeAlong (session.undergo event).2 events
    inferInstanceAs (Decidable (_ ∧ _))

/-- The references in the slots in use name nodes that were made. -/
def NodesNamed (session : Session) : Prop :=
  ∀ node ∈ session.tailoring.nodes, node.NamesBelow session.tailoring.nodes.size

theorem nodesNamed_perform {session : Session} (named : session.NodesNamed) {request : Request}
    (handed : session.NamesMade (.request request)) : (session.perform request).2.NodesNamed := by
  have size := (session.perform_grows request).size_le
  refine Tailoring.eachNode_iff.mp ?_
  refine session.eachNode_perform request (fun _ _ _ => .of_fresh) ?_ ?_ ?_ ?_
  · intro edit asked _ node edited here applied
    refine here.apply ?_ applied
    intro element given
    refine handed element ?_
    -- of all requests only a change hands over an element without an edit
    have listed : element ∈ request.edits.filterMap Node.Edit.element? :=
      List.mem_filterMap.mpr ⟨edit, asked, given⟩
    cases request with
    | change handle codePoint wanted => cases asked
    | _ => exact listed
  · rintro handle codePoint element rfl _ node slot here
    exact here.setElement (handed element List.mem_cons_self) slot
  · intro _ node word direct here
    refine here.setElement ?_ 0
    rw [Element.pack_unpack]
    exact .of_not_reference direct
  · refine Tailoring.eachNode_iff.mpr fun node mem slot inUse => ?_
    exact (named node mem slot inUse).mono size

theorem nodesNamed_undergo {session : Session} (named : session.NodesNamed) {event : Event}
    (handed : session.NamesMade event) : (session.undergo event).2.NodesNamed := by
  cases event with
  | request request => exact nodesNamed_perform named handed
  | copy =>
    intro node mem
    obtain ⟨original, inNodes, rfl⟩ := Array.mem_map.mp mem
    have size : (session.undergo .copy).2.tailoring.nodes.size = session.tailoring.nodes.size :=
      Array.size_map
    rw [size]
    exact named original inNodes

theorem nodesNamed_after {session : Session} (named : session.NodesNamed) {events : List Event}
    (handed : session.NamesMadeAlong events) : (session.after events).NodesNamed := by
  induction events generalizing session with
  | nil => exact named
  | cons event events ih => exact ih (nodesNamed_undergo named handed.1) handed.2

end Session

end Contractions
