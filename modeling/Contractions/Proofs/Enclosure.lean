/-
# Contractions.Proofs.Enclosure — a main table that nobody else writes refers to nodes only.

If a main table held no references when a tailoring was opened on it, and nobody assigns to it, then
each reference that it holds later was written by attaching or by packing.  The first kind is a
handle and is not remembered; the second kind is an offset and is remembered, word for word.
`Session.Enclosed` says that there is no third kind, and every event but an assignment keeps it.

What follows concerns packing.  A dangling reference that a packing is refused for can only stand in
a node, and if no request hands one over, no packing is ever refused for one.
-/
import Contractions.Proofs.Alike
import Contractions.Proofs.Backing
import Contractions.Proofs.Dangling

namespace Contractions

/-- A table that was filled with "not found" reads so everywhere, past its end too. -/
theorem MainTable.get_filled_notFound (size : Nat) (codePoint : UInt16) :
    (filled size .notFound).get codePoint = Element.notFound.pack := by
  unfold get filled
  simp only [Array.getD_eq_getD_getElem?, Array.getElem?_replicate]
  split <;> rfl

namespace Session

/-! ## References of its own making -/

/-- How a session comes to hold a reference at a code point: a packing wrote an offset there and
remembers it, or an attachment wrote a handle. -/
inductive Wrote (session : Session) (codePoint : UInt16) : Prop where
  | offset {payload : UInt32}
      (listed : ⟨codePoint, session.table.get codePoint, payload⟩ ∈ session.tailoring.memory)
  | handle {handle : Handle}
      (unlisted : ∀ relocation ∈ session.tailoring.memory, relocation.codePoint ≠ codePoint)
      (made : handle.index < session.tailoring.nodes.size)
      (holds : session.table.get codePoint = (Element.ofHandle handle).pack)

/-- Every reference in the main table is of the session's own making. -/
def Enclosed (session : Session) : Prop :=
  ∀ codePoint, Element.isReferenceWord (session.table.get codePoint) = true →
    session.Wrote codePoint

/-- What happens to other code points and to the nodes does not matter, as nodes never go away. -/
theorem Wrote.keep {before after : Session} {codePoint : UInt16} (wrote : before.Wrote codePoint)
    (word : after.table.get codePoint = before.table.get codePoint)
    (memory : ∀ relocation : Relocation, relocation.codePoint = codePoint →
      (relocation ∈ after.tailoring.memory ↔ relocation ∈ before.tailoring.memory))
    (size : before.tailoring.nodes.size ≤ after.tailoring.nodes.size) : after.Wrote codePoint := by
  cases wrote with
  | offset listed =>
    rw [← word] at listed
    exact .offset ((memory _ rfl).mpr listed)
  | handle unlisted made holds =>
    refine .handle ?_ (Nat.lt_of_lt_of_le made size) (word.trans holds)
    intro relocation mem same
    exact unlisted relocation ((memory relocation same).mp mem) same

theorem Enclosed.keep {before after : Session} (enclosed : before.Enclosed)
    (table : after.table = before.table)
    (memory : after.tailoring.memory = before.tailoring.memory)
    (size : before.tailoring.nodes.size ≤ after.tailoring.nodes.size) : after.Enclosed := by
  intro codePoint isReference
  rw [table] at isReference
  refine (enclosed codePoint isReference).keep ?_ ?_ size
  · rw [table]
  · intro relocation _
    rw [memory]

theorem enclosed_attached {session : Session} (enclosed : session.Enclosed) {handle : Handle}
    {node : Node} (found : session.tailoring.node? handle = some node) (codePoint : UInt16) :
    (session.attached codePoint handle node).Enclosed := by
  have size : (session.attached codePoint handle node).tailoring.nodes.size =
      session.tailoring.nodes.size := Tailoring.size_putNode _ _ _
  intro other isReference
  by_cases same : codePoint = other
  · rw [← same] at isReference ⊢
    by_cases inRange : codePoint.toNat < session.table.size
    · refine .handle ?_ ?_ (MainTable.get_set_self _ inRange)
      · exact fun relocation mem => Relocation.codePoint_ne_of_mem_forget mem
      · rw [size]
        exact Tailoring.lt_size_of_node? found
    · -- a write beyond the end is dropped, and no reference is read there
      have past : (session.attached codePoint handle node).table.get codePoint =
          Element.notFound.pack :=
        MainTable.get_of_size_le (by
          rw [attached, MainTable.size_set]
          exact Nat.le_of_not_lt inRange)
      rw [past, Element.isReferenceWord_pack_notFound] at isReference
      cases isReference
  · have word : (session.attached codePoint handle node).table.get other =
        session.table.get other := MainTable.get_set_of_ne _ _ same
    rw [word] at isReference
    refine (enclosed other isReference).keep word ?_ (Nat.le_of_eq size.symm)
    rintro relocation rfl
    exact Relocation.mem_forget.trans (and_iff_left (Ne.symm same))

/-- Behind a packing every reference is an offset that is remembered. -/
theorem enclosed_laidOut {session : Session} (sound : session.tailoring.Sound) (base : Nat)
    (classOf : UInt16 → UInt8) : (session.laidOut base classOf).Enclosed := by
  intro codePoint isReference
  by_cases refers : ∃ payload, session.table.Refers session.tailoring.memory codePoint payload
  · obtain ⟨payload, refers⟩ := refers
    have word : (session.laidOut base classOf).table.get codePoint =
        movePayload (startsOf base session.tailoring.nodes.toList) payload :=
      get_laidOut_of_refers refers classOf
    have listed :
        moveReference (startsOf base session.tailoring.nodes.toList) (codePoint, payload) ∈
          (session.laidOut base classOf).tailoring.memory :=
      List.mem_toArray.mpr (List.mem_map_of_mem (MainTable.mem_references.mpr refers))
    unfold moveReference at listed
    rw [← word] at listed
    exact .offset listed
  · -- any other word is untouched, and means what it says
    have other := not_exists.mp refers
    have same := sound.readThrough_eq_get other
    rw [get_laidOut_of_other other, ← same] at isReference
    have means := Element.unpack_eq_reference isReference
    refine absurd ⟨?_, MainTable.reference?_eq_some_iff.mpr means⟩ (other _)
    by_contra past
    rw [same, MainTable.get_of_size_le (Nat.le_of_not_lt past),
      Element.isReferenceWord_pack_notFound] at isReference
    cases isReference

/-! ## Every event but an assignment keeps a session enclosed -/

/-- Does an event write straight to the main table? -/
def Event.assigns : Event → Bool
  | .request (.assign _ _) => true
  | _ => false

theorem enclosed_undergo {session : Session} (sound : session.tailoring.Sound)
    (enclosed : session.Enclosed) {event : Event} (keepsOff : event.assigns = false) :
    (session.undergo event).2.Enclosed := by
  cases event with
  | copy =>
    refine enclosed.keep rfl rfl ?_
    simp only [undergo, Tailoring.copy, Array.size_map, Nat.le_refl]
  | request request =>
    have size := (session.perform_grows request).size_le
    show (session.perform request).2.Enclosed
    by_cases onNodes : request.onNodes = true
    · obtain ⟨-, memory, table⟩ := session.record_perform onNodes
      exact enclosed.keep table memory size
    · cases request with
      | attach codePoint handle =>
        rcases session.perform_attach_cases codePoint handle with same | ⟨node, found, attached⟩
        · rw [same]
          exact enclosed
        · rw [attached]
          exact enclosed_attached enclosed found codePoint
      | assign codePoint element => cases keepsOff
      | pack base classOf =>
        rcases session.perform_pack_cases base classOf with same | ⟨-, -, laid⟩
        · rw [same]
          exact enclosed
        · rw [laid]
          exact enclosed_laidOut sound base classOf
      | _ => exact absurd rfl onNodes

theorem enclosed_after {session : Session} (reached : session.tailoring.Reachable)
    (enclosed : session.Enclosed) {events : List Event}
    (keepsOff : ∀ event ∈ events, event.assigns = false) : (session.after events).Enclosed := by
  induction events generalizing session with
  | nil => exact enclosed
  | cons event events ih =>
    have here := enclosed_undergo reached.sound enclosed (keepsOff event List.mem_cons_self)
    exact ih (reachable_undergo reached event) here fun later mem =>
      keepsOff later (List.mem_cons_of_mem _ mem)

/-- A code point of an enclosed session refers to a node that was made. -/
theorem Enclosed.lt_size_of_refers {session : Session} (enclosed : session.Enclosed)
    (sound : session.tailoring.Sound) {codePoint : UInt16} {payload : UInt32}
    (refers : session.table.Refers session.tailoring.memory codePoint payload) :
    payload.toNat < session.tailoring.nodes.size := by
  have means := MainTable.reference?_eq_some_iff.mp refers.2
  have isReference : Element.isReferenceWord (session.table.get codePoint) = true := by
    rw [← sound.isReferenceWord_readThrough, ← Element.isReference_unpack, means]
    rfl
  unfold MainTable.readThrough at means
  cases enclosed codePoint isReference with
  | @offset remembered listed =>
    have named : remembered.toNat < session.tailoring.nodes.size := sound.named _ listed
    have handles : session.tailoring.nodes.size ≤ 0xFFFFFF := sound.handles
    rw [Relocation.readBack_of_mem sound.ordered listed,
      Element.unpack_pack_reference (by omega)] at means
    cases means
    exact named
  | @handle handle unlisted made holds =>
    have own : Relocation.readBack session.tailoring.memory codePoint
        (session.table.get codePoint) = session.table.get codePoint :=
      Relocation.readBack_of_forall_notMem fun _ mem => unlisted _ mem rfl
    rw [own, holds, Element.unpack_pack_ofHandle] at means
    cases means
    rwa [Handle.toNat_payload]

/-! ## The law of enclosed sessions -/

/-- What a code point shows that a session wrote: a remembered offset, at which the packed table has
the slice of the remembered node, or the handle of a node. -/
theorem Wrote.shows {session : Session} (reached : session.tailoring.Reachable)
    {codePoint : UInt16} (wrote : session.Wrote codePoint) {target : UInt32}
    (read : Element.unpack (session.table.get codePoint) = .reference target) :
    (∃ handle : Handle, ∃ packed slots, handle.index < session.tailoring.nodes.size ∧
      ⟨codePoint, session.table.get codePoint, handle.payload⟩ ∈ session.tailoring.memory ∧
      session.tailoring.packed = some packed ∧ packed.nodeAt target.toNat = some slots ∧
      packed.node? handle = some slots) ∨
    ((∀ relocation ∈ session.tailoring.memory, relocation.codePoint ≠ codePoint) ∧
      ∃ handle : Handle, handle.index < session.tailoring.nodes.size ∧
        target = handle.payload) := by
  cases wrote with
  | @offset payload listed =>
    left
    have named : payload.toNat < session.tailoring.nodes.size := reached.sound.named _ listed
    have same : payload.toNat.toUInt32 = payload := UInt32.ofNat_toNat
    obtain ⟨packed, there, backs⟩ := reached.backed _ listed
    obtain ⟨slots, found, slice⟩ := backs.nodeAt_eq_slice read
    refine ⟨⟨payload.toNat, Nat.lt_of_lt_of_le named reached.sound.handles⟩, packed, slots, named,
      ?_, there, found, slice⟩
    unfold Handle.payload
    rwa [same]
  | @handle handle unlisted made holds =>
    right
    rw [holds, Element.unpack_pack_ofHandle] at read
    cases read
    exact ⟨unlisted, handle, made, rfl⟩

/-- A tailoring was opened on a main table without references, and nobody else writes there.  Then
whatever reads as a reference in the main table is a remembered offset, at which the packed table
has the slice of the remembered node, or is the handle of a node and not remembered.  So no packing
is refused for a reference of the main table, and none is refused for a reference at all if the
elements handed to the tailoring name nodes that were made by then. -/
theorem references_enclosed (sizing : Sizing) {table : MainTable}
    (clean : ∀ codePoint, Element.isReferenceWord (table.get codePoint) = false)
    {events : List Event} (keepsOff : ∀ event ∈ events, event.assigns = false) :
    let start : Session := { tailoring := .empty sizing, table }
    let session := start.after events
    let tailoring := session.tailoring
    (∀ codePoint target, Element.unpack (session.table.get codePoint) = .reference target →
      (∃ handle : Handle, ∃ packed slots, handle.index < tailoring.nodes.size ∧
        ⟨codePoint, session.table.get codePoint, handle.payload⟩ ∈ tailoring.memory ∧
        tailoring.packed = some packed ∧ packed.nodeAt target.toNat = some slots ∧
        packed.node? handle = some slots) ∨
      ((∀ relocation ∈ tailoring.memory, relocation.codePoint ≠ codePoint) ∧
        ∃ handle : Handle, handle.index < tailoring.nodes.size ∧ target = handle.payload)) ∧
    (∀ codePoint payload, session.table.Refers tailoring.memory codePoint payload →
      payload.toNat < tailoring.nodes.size) ∧
    (∀ base classOf payload,
      (session.perform (.pack base classOf)).1 = .error (.danglingReference payload) →
      tailoring.nodes.size ≤ payload.toNat ∧
        ∃ node ∈ tailoring.nodes, ∃ slot ∈ node.logical, slot.element = .reference payload) ∧
    (start.NamesMadeAlong events → ∀ base classOf payload,
      (session.perform (.pack base classOf)).1 ≠ .error (.danglingReference payload)) := by
  intro start session tailoring
  have opened : start.tailoring.Reachable := .opened sizing
  have reached : tailoring.Reachable := reachable_after opened events
  have free : start.Enclosed := by
    intro codePoint isReference
    have none : Element.isReferenceWord (start.table.get codePoint) = false := clean codePoint
    rw [none] at isReference
    cases isReference
  have enclosed : session.Enclosed := enclosed_after opened free keepsOff
  have inNodes : ∀ base classOf payload,
      (session.perform (.pack base classOf)).1 = .error (.danglingReference payload) →
      tailoring.nodes.size ≤ payload.toNat ∧
        ∃ node ∈ tailoring.nodes, ∃ slot ∈ node.logical, slot.element = .reference payload := by
    intro base classOf payload refused
    obtain ⟨beyond, inNode | ⟨codePoint, refers⟩⟩ := dangling_of_perform_pack refused
    · exact ⟨beyond, inNode⟩
    · -- what the main table refers to was made
      have below := enclosed.lt_size_of_refers reached.sound refers
      exact absurd beyond (Nat.not_le_of_lt below)
  refine ⟨?_, ?_, inNodes, ?_⟩
  · intro codePoint target read
    have isReference : Element.isReferenceWord (session.table.get codePoint) = true := by
      rw [← Element.isReference_unpack, read]
      rfl
    exact (enclosed codePoint isReference).shows reached read
  · intro codePoint payload refers
    exact enclosed.lt_size_of_refers reached.sound refers
  · intro handed base classOf payload refused
    obtain ⟨beyond, node, made, slot, inUse, names⟩ := inNodes base classOf payload refused
    have empty : start.NodesNamed := fun node mem => absurd mem (Array.not_mem_empty node)
    have named : session.NodesNamed := nodesNamed_after empty handed
    exact absurd beyond (Nat.not_le_of_lt (named node made slot inUse payload names))

/-- Two nodes are packed, the second one again attached after a copy, and the first one besides.
The code point 2 shows a handle, which no packing stumbles over. -/
theorem references_enclosed_reattached :
    let events : List Event :=
      [.request .allocate, .request .allocate,
        .request (.write (some ⟨0, by decide⟩) (.append 5 (.reference 1))),
        .request (.attach 2 ⟨1, by decide⟩), .request (.pack 7 fun _ => 0), .copy,
        .request (.attach 1 ⟨0, by decide⟩), .request (.attach 2 ⟨1, by decide⟩)]
    (∀ event ∈ events, event.assigns = false) ∧ small.NamesMadeAlong events ∧
      (small.after events).table.get 2 = (Element.reference 1).pack ∧
      ∀ base classOf payload, ((small.after events).perform (.pack base classOf)).1 ≠
        .error (.danglingReference payload) := by
  intro events
  have clean : ∀ codePoint, Element.isReferenceWord (small.table.get codePoint) = false := by
    intro codePoint
    rw [small, MainTable.get_filled_notFound]
    exact Element.isReferenceWord_pack_notFound
  have keepsOff : ∀ event ∈ events, event.assigns = false := by decide
  have handed : small.NamesMadeAlong events := by decide +kernel
  have holds : (small.after events).table.get 2 = (Element.reference 1).pack := by decide +kernel
  obtain ⟨-, -, -, never⟩ := references_enclosed default clean keepsOff
  exact ⟨keepsOff, handed, holds, never handed⟩

end Session

end Contractions
