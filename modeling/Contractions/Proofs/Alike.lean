/-
# Contractions.Proofs.Alike — sessions that differ in nothing but what was packed.

Packing changes words in the main table, but it also remembers them, so the table read through the
memory stays the same.  Two sessions are `Session.Alike` when their nodes and their room agree and
their main tables read the same, each through its own memory.  A packing leads to a session like
the one before, and every other request leads from two sessions alike to two sessions alike.

One request can break this: an assignment that writes, by chance, the very word that the memory
lists for the code point.  That slot is then read back as a handle, though it was written since.
`Session.Afresh` excludes it, and nothing else.

The answers of two sessions alike agree too.  Only attaching shows a word of the main table
itself, and there `Session.reply` reads a remembered offset back before the answers are compared.
-/
import Contractions.Proofs.PackedForm

namespace Contractions

/-! ## The main table read through the memory of a sound tailoring -/

namespace Tailoring.Sound

variable {tailoring : Tailoring}

/-- Only references are remembered, so any other word is read back as itself. -/
theorem readBack_of_not_reference (sound : tailoring.Sound) (codePoint : UInt16) {word : UInt32}
    (direct : Element.isReferenceWord word = false) :
    Relocation.readBack tailoring.memory codePoint word = word := by
  apply Relocation.readBack_of_forall_notMem
  intro payload mem
  rw [sound.written _ mem] at direct
  cases direct

/-- Reading back turns references into references and nothing else into one. -/
theorem isReferenceWord_readThrough (sound : tailoring.Sound) (table : MainTable)
    (codePoint : UInt16) :
    Element.isReferenceWord (table.readThrough tailoring.memory codePoint) =
      Element.isReferenceWord (table.get codePoint) := by
  unfold MainTable.readThrough
  rcases Relocation.readBack_eq_or tailoring.memory codePoint (table.get codePoint) with
    same | ⟨payload, mem, back⟩
  · rw [same]
  · rw [back, sound.written _ mem]
    exact Element.isReferenceWord_pack_reference payload

/-- A code point that does not refer to a node is read as it stands. -/
theorem readThrough_eq_get (sound : tailoring.Sound) {table : MainTable} {codePoint : UInt16}
    (other : ∀ payload, ¬ table.Refers tailoring.memory codePoint payload) :
    table.readThrough tailoring.memory codePoint = table.get codePoint := by
  apply sound.readBack_of_not_reference
  by_cases inRange : codePoint.toNat < table.size
  · rw [← sound.isReferenceWord_readThrough, ← MainTable.reference?_eq_none_iff,
      Option.eq_none_iff_forall_ne_some]
    exact fun payload refers => other payload ⟨inRange, refers⟩
  · -- beyond the end every code point reads as not found, which is no reference
    rw [MainTable.get_of_size_le (Nat.le_of_not_lt inRange)]
    exact Element.isReferenceWord_pack_notFound

end Tailoring.Sound

namespace Session

/-! ## Alike -/

/-- The word of a code point as the session means it: with a handle where it remembers an offset. -/
def meaning (session : Session) (codePoint : UInt16) : UInt32 :=
  session.table.readThrough session.tailoring.memory codePoint

/-- Two sessions agree in everything but the record of the latest packing, and their main tables mean
the same. -/
structure Alike (a b : Session) : Prop where
  sizing : a.tailoring.sizing = b.tailoring.sizing
  capacity : a.tailoring.capacity = b.tailoring.capacity
  nodes : a.tailoring.nodes = b.tailoring.nodes
  size : a.table.size = b.table.size
  meaning : ∀ codePoint, a.meaning codePoint = b.meaning codePoint

namespace Alike

variable {a b c : Session}

theorem refl (a : Session) : Alike a a := ⟨rfl, rfl, rfl, rfl, fun _ => rfl⟩

theorem symm (alike : Alike a b) : Alike b a where
  sizing := alike.sizing.symm
  capacity := alike.capacity.symm
  nodes := alike.nodes.symm
  size := alike.size.symm
  meaning := fun codePoint => (alike.meaning codePoint).symm

theorem trans (left : Alike a b) (right : Alike b c) : Alike a c where
  sizing := left.sizing.trans right.sizing
  capacity := left.capacity.trans right.capacity
  nodes := left.nodes.trans right.nodes
  size := left.size.trans right.size
  meaning := fun codePoint => (left.meaning codePoint).trans (right.meaning codePoint)

/-- One of two sessions alike is the other with a different record and a different main table. -/
theorem eq_withRecord (alike : Alike a b) :
    b = a.withRecord b.tailoring.packed b.tailoring.memory b.table := by
  obtain ⟨⟨sizing, capacity, nodes, packed, memory⟩, table⟩ := b
  obtain ⟨rfl, rfl, rfl, -, -⟩ := alike
  rfl

theorem reference?_eq (alike : Alike a b) (codePoint : UInt16) :
    a.table.reference? a.tailoring.memory codePoint =
      b.table.reference? b.tailoring.memory codePoint := by
  unfold MainTable.reference?
  rw [show Relocation.readBack a.tailoring.memory codePoint (a.table.get codePoint) =
    Relocation.readBack b.tailoring.memory codePoint (b.table.get codePoint) from
      alike.meaning codePoint]

theorem refers_iff (alike : Alike a b) (codePoint : UInt16) (payload : UInt32) :
    a.table.Refers a.tailoring.memory codePoint payload ↔
      b.table.Refers b.tailoring.memory codePoint payload := by
  unfold MainTable.Refers
  rw [alike.size, alike.reference?_eq]

theorem references_eq (alike : Alike a b) :
    a.table.references a.tailoring.memory = b.table.references b.tailoring.memory := by
  unfold MainTable.references
  simp only [alike.size, alike.reference?_eq]

/-- The same packings are refused, for the same reason, and the others have the same plan. -/
theorem packPlan_eq (alike : Alike a b) (base : Nat) (classOf : UInt16 → UInt8) :
    a.tailoring.packPlan a.table base classOf = b.tailoring.packPlan b.table base classOf := by
  unfold Tailoring.packPlan
  rw [alike.nodes, alike.references_eq]

theorem plan_eq (alike : Alike a b) (base : Nat) (classOf : UInt16 → UInt8) :
    a.tailoring.plan a.table base classOf = b.tailoring.plan b.table base classOf := by
  unfold Tailoring.plan
  rw [alike.nodes, alike.references_eq]

theorem packable_iff (alike : Alike a b) (base : Nat) :
    a.tailoring.Packable a.table base ↔ b.tailoring.Packable b.table base := by
  have same := alike.packPlan_eq base (fun _ => 0)
  have left := a.tailoring.packPlan_settles a.table base (fun _ => 0)
  have right := b.tailoring.packPlan_settles b.table base (fun _ => 0)
  constructor
  · intro packable
    exact ((right _).mp (same ▸ left.eq_ok packable)).1
  · intro packable
    exact ((left _).mp (same ▸ right.eq_ok packable)).1

end Alike

/-! ## Packing leads to a session alike -/

section LaidOut

variable {session : Session} {base : Nat} {codePoint : UInt16}

theorem get_laidOut_of_refers {payload : UInt32}
    (refers : session.table.Refers session.tailoring.memory codePoint payload)
    (classOf : UInt16 → UInt8) :
    (session.laidOut base classOf).table.get codePoint =
      movePayload (startsOf base session.tailoring.nodes.toList) payload :=
  MainTable.get_relocated_of_refers refers _

theorem get_laidOut_of_other
    (other : ∀ payload, ¬ session.table.Refers session.tailoring.memory codePoint payload)
    (classOf : UInt16 → UInt8) :
    (session.laidOut base classOf).table.get codePoint = session.table.get codePoint :=
  MainTable.get_relocated_of_forall_ne (MainTable.codePoint_ne_of_mem_moved other _)

/-- A code point that refers to a node is written an offset, and remembered with the handle. -/
theorem meaning_laidOut_of_refers {classOf : UInt16 → UInt8}
    (sound : (session.laidOut base classOf).tailoring.Sound) {payload : UInt32}
    (refers : session.table.Refers session.tailoring.memory codePoint payload) :
    (session.laidOut base classOf).meaning codePoint = session.meaning codePoint := by
  have listed : moveReference (startsOf base session.tailoring.nodes.toList) (codePoint, payload) ∈
      (session.laidOut base classOf).tailoring.memory :=
    List.mem_toArray.mpr (List.mem_map_of_mem (MainTable.mem_references.mpr refers))
  have before : session.meaning codePoint = (Element.reference payload).pack :=
    Element.eq_pack_of_unpack (MainTable.reference?_eq_some_iff.mp refers.2)
  unfold meaning MainTable.readThrough
  rw [get_laidOut_of_refers refers]
  exact (Relocation.readBack_of_mem sound.ordered listed).trans before.symm

/-- A code point that refers to no node is neither written nor remembered. -/
theorem meaning_laidOut_of_other (sound : session.tailoring.Sound)
    (other : ∀ payload, ¬ session.table.Refers session.tailoring.memory codePoint payload)
    (classOf : UInt16 → UInt8) :
    (session.laidOut base classOf).meaning codePoint = session.meaning codePoint := by
  have before : session.meaning codePoint = session.table.get codePoint :=
    sound.readThrough_eq_get other
  rw [before, ← get_laidOut_of_other other classOf]
  apply Relocation.readBack_of_forall_notMem
  intro payload mem
  exact MainTable.codePoint_ne_of_mem_moved other _ _ mem rfl

end LaidOut

theorem alike_laidOut {session : Session} (sound : session.tailoring.Sound) {base : Nat}
    (packable : session.tailoring.Packable session.table base)
    (some : session.tailoring.nodes.isEmpty = false) (classOf : UInt16 → UInt8) :
    Alike session (session.laidOut base classOf) where
  sizing := rfl
  capacity := rfl
  nodes := rfl
  size := (MainTable.size_relocated _ _).symm
  meaning := by
    intro codePoint
    by_cases refers : ∃ payload,
        session.table.Refers session.tailoring.memory codePoint payload
    · obtain ⟨payload, refers⟩ := refers
      exact (meaning_laidOut_of_refers (sound_laidOut sound packable some classOf) refers).symm
    · exact (meaning_laidOut_of_other sound (not_exists.mp refers) classOf).symm

/-- Whatever comes of a packing, the session is like the one before. -/
theorem alike_perform_pack {session : Session} (sound : session.tailoring.Sound) (base : Nat)
    (classOf : UInt16 → UInt8) : Alike session (session.perform (.pack base classOf)).2 := by
  rcases session.perform_pack_cases base classOf with same | ⟨some, packable, laid⟩
  · rw [same]
    exact .refl session
  · rw [laid]
    exact alike_laidOut sound packable some classOf

/-! ## Answers -/

/-- The answer to a request.  Where attaching shows the element that a code point had before, a
remembered offset in it is read back. -/
def reply (session : Session) (request : Request) : Except Fault Answer :=
  match request, (session.perform request).1 with
  | .attach codePoint _, .ok (.element (some previous)) =>
    .ok (.element (some
      (.unpack (Relocation.readBack session.tailoring.memory codePoint previous.pack))))
  | _, outcome => outcome

/-- An assignment does not write the very word that the memory lists for its code point.  Requests of
other kinds are free. -/
def Afresh (session : Session) : Request → Prop
  | .assign codePoint element =>
    ∀ payload, ⟨codePoint, element.pack, payload⟩ ∉ session.tailoring.memory
  | _ => True

/-! ## Writing one code point -/

/-- After a write the code point means what was written, if it has a slot, and any other code point
means what it meant.  The memory may have changed for the written code point alone. -/
theorem meaning_set {session : Session} (sound : session.tailoring.Sound) (after : Tailoring)
    {codePoint : UInt16} {word : UInt32}
    (own : Relocation.readBack after.memory codePoint word = word)
    (outside : Relocation.readBack after.memory codePoint Element.notFound.pack =
      Element.notFound.pack)
    (elsewhere : ∀ other, codePoint ≠ other → ∀ stored,
      Relocation.readBack after.memory other stored =
        Relocation.readBack session.tailoring.memory other stored) (other : UInt16) :
    Session.meaning { tailoring := after, table := session.table.set codePoint word } other =
      if codePoint = other ∧ codePoint.toNat < session.table.size then word
      else session.meaning other := by
  unfold meaning MainTable.readThrough
  by_cases same : codePoint = other
  · rw [← same]
    by_cases inRange : codePoint.toNat < session.table.size
    · rw [MainTable.get_set_self word inRange, own, if_pos ⟨rfl, inRange⟩]
    · -- a write beyond the end is dropped, and nothing is remembered there either
      have past := Nat.le_of_not_lt inRange
      have kept : (session.table.set codePoint word).get codePoint = Element.notFound.pack :=
        MainTable.get_of_size_le (by rwa [MainTable.size_set])
      have before : Relocation.readBack session.tailoring.memory codePoint
          (session.table.get codePoint) = session.table.get codePoint :=
        sound.readThrough_eq_get fun _ refers => inRange refers.1
      rw [kept, outside, if_neg (fun holds => inRange holds.2), before,
        MainTable.get_of_size_le past]
  · rw [MainTable.get_set_of_ne session.table word same, elsewhere other same,
      if_neg (fun holds => same holds.1)]

theorem meaning_assigned {session : Session} (sound : session.tailoring.Sound)
    {codePoint : UInt16} {element : Element} (afresh : session.Afresh (.assign codePoint element))
    (other : UInt16) :
    (session.perform (.assign codePoint element)).2.meaning other =
      if codePoint = other ∧ codePoint.toNat < session.table.size then element.pack
      else session.meaning other :=
  meaning_set sound _ (Relocation.readBack_of_forall_notMem afresh)
    (sound.readBack_of_not_reference codePoint Element.isReferenceWord_pack_notFound)
    (fun _ _ _ => rfl) other

/-! ## Attaching, by what the code point means -/

/-- A node keeps no reference, and any other word means itself, so what was remembered plays no part
in what a node keeps. -/
theorem based_meaning {session : Session} (sound : session.tailoring.Sound) (codePoint : UInt16)
    (node : Node) :
    based node (.unpack (session.table.get codePoint)) =
      based node (.unpack (session.meaning codePoint)) := by
  have kind : Element.isReferenceWord (session.meaning codePoint) = _ :=
    sound.isReferenceWord_readThrough session.table codePoint
  unfold based
  rw [Element.isReference_unpack, Element.isReference_unpack, kind]
  cases direct : Element.isReferenceWord (session.table.get codePoint) with
  | true => simp only [Bool.true_or, if_true]
  | false =>
    have same : session.meaning codePoint = session.table.get codePoint :=
      sound.readBack_of_not_reference codePoint direct
    rw [same]

/-- The answer to an attachment is the element that the code point meant. -/
theorem reply_attach (session : Session) (codePoint : UInt16) (handle : Handle) :
    session.reply (.attach codePoint handle) =
      match session.tailoring.node? handle with
      | none => .error .notFound
      | some _ => .ok (.element (some (.unpack (session.meaning codePoint)))) := by
  unfold reply
  cases found : session.tailoring.node? handle with
  | none => rw [perform_attach_of_none found]
  | some node =>
    rw [perform_attach_of_some found]
    simp only [Element.pack_unpack]
    rfl

theorem reply_of_onNodes (session : Session) {request : Request} (onNodes : request.onNodes = true) :
    session.reply request = (session.perform request).1 := by
  cases request with
  | attach codePoint handle => cases onNodes
  | _ => rfl

/-- A reply differs from the answer itself only where attaching shows a reference, and then it is one
too. -/
theorem reply_eq_or_reference {session : Session} (sound : session.tailoring.Sound)
    (request : Request) :
    session.reply request = (session.perform request).1 ∨
      ∃ shown meant, (session.perform request).1 = .ok (.element (some (.reference shown))) ∧
        session.reply request = .ok (.element (some (.reference meant))) := by
  cases request with
  | attach codePoint handle =>
    cases found : session.tailoring.node? handle with
    | none =>
      left
      rw [reply_attach, found, perform_attach_of_none found]
    | some node =>
      rw [reply_attach, found, perform_attach_of_some found]
      have kind : Element.isReferenceWord (session.meaning codePoint) = _ :=
        sound.isReferenceWord_readThrough session.table codePoint
      cases shown : Element.isReferenceWord (session.table.get codePoint) with
      | true =>
        rw [shown] at kind
        rw [Element.unpack_eq_reference shown, Element.unpack_eq_reference kind]
        exact Or.inr ⟨_, _, rfl, rfl⟩
      | false =>
        have same : session.meaning codePoint = session.table.get codePoint :=
          sound.readBack_of_not_reference codePoint shown
        rw [same]
        exact Or.inl rfl
  | _ => exact Or.inl rfl

theorem meaning_attached {session : Session} (sound : session.tailoring.Sound) (codePoint : UInt16)
    (handle : Handle) (node : Node) (other : UInt16) :
    (session.attached codePoint handle node).meaning other =
      if codePoint = other ∧ codePoint.toNat < session.table.size then
        (Element.ofHandle handle).pack
      else session.meaning other :=
  meaning_set sound _ (Relocation.readBack_forget_self _ _ _) (Relocation.readBack_forget_self _ _ _)
    (fun _ different stored => Relocation.readBack_forget_of_ne sound.ordered different stored) other

/-! ## Every request leads from sessions alike to sessions alike -/

namespace Alike

variable {a b : Session}

theorem perform_onNodes (alike : Alike a b) {request : Request} (onNodes : request.onNodes = true) :
    (a.perform request).1 = (b.perform request).1 ∧
      Alike (a.perform request).2 (b.perform request).2 := by
  have commutes := a.perform_withRecord onNodes b.tailoring.packed b.tailoring.memory b.table
  rw [← alike.eq_withRecord] at commutes
  obtain ⟨-, memory, table⟩ := a.record_perform onNodes
  rw [commutes]
  -- what the request does to the nodes is of no further concern
  generalize a.perform request = performed at memory table ⊢
  refine ⟨rfl, rfl, rfl, rfl, ?_, ?_⟩
  · rw [table]
    exact alike.size
  · intro codePoint
    unfold Session.meaning
    rw [table, memory]
    exact alike.meaning codePoint

/-- The outcome of a packing and what it leaves are decided by what the two sessions share. -/
theorem perform_pack (alike : Alike a b) (soundA : a.tailoring.Sound) (soundB : b.tailoring.Sound)
    (base : Nat) (classOf : UInt16 → UInt8) :
    (a.perform (.pack base classOf)).1 = (b.perform (.pack base classOf)).1 ∧
      Alike (a.perform (.pack base classOf)).2 (b.perform (.pack base classOf)).2 := by
  -- each session is like the one before its packing
  refine ⟨?_, (alike_perform_pack soundA base classOf).symm.trans
    (alike.trans (alike_perform_pack soundB base classOf))⟩
  simp only [Session.perform_pack, Tailoring.pack, alike.nodes, alike.packPlan_eq]
  cases b.tailoring.nodes.isEmpty with
  | true => rfl
  | false => cases b.tailoring.packPlan b.table base classOf <;> rfl

theorem perform_assign (alike : Alike a b) (soundA : a.tailoring.Sound)
    (soundB : b.tailoring.Sound) {codePoint : UInt16} {element : Element}
    (afreshA : a.Afresh (.assign codePoint element))
    (afreshB : b.Afresh (.assign codePoint element)) :
    Alike (a.perform (.assign codePoint element)).2 (b.perform (.assign codePoint element)).2 where
  sizing := alike.sizing
  capacity := alike.capacity
  nodes := alike.nodes
  size := by simpa [perform] using alike.size
  meaning := by
    intro other
    rw [meaning_assigned soundA afreshA, meaning_assigned soundB afreshB, alike.size,
      alike.meaning]

theorem perform_attach (alike : Alike a b) (soundA : a.tailoring.Sound)
    (soundB : b.tailoring.Sound) (codePoint : UInt16) (handle : Handle) :
    a.reply (.attach codePoint handle) = b.reply (.attach codePoint handle) ∧
      Alike (a.perform (.attach codePoint handle)).2 (b.perform (.attach codePoint handle)).2 := by
  have same : a.tailoring.node? handle = b.tailoring.node? handle := by
    unfold Tailoring.node?
    rw [alike.nodes]
  rw [reply_attach, reply_attach, same, alike.meaning]
  refine ⟨rfl, ?_⟩
  cases found : b.tailoring.node? handle with
  | none =>
    rw [perform_attach_of_none (same.trans found), perform_attach_of_none found]
    exact alike
  | some node =>
    rw [perform_attach_of_some (same.trans found), perform_attach_of_some found]
    refine ⟨alike.sizing, alike.capacity, ?_, ?_, ?_⟩
    · -- the same node takes the same element, or in both sessions none
      show a.tailoring.nodes.setIfInBounds _ _ = b.tailoring.nodes.setIfInBounds _ _
      rw [alike.nodes, based_meaning soundA, based_meaning soundB, alike.meaning]
    · simpa [attached] using alike.size
    · intro other
      rw [meaning_attached soundA, meaning_attached soundB, alike.size, alike.meaning]

/-- Two sessions alike give the same answer to a request, and are alike afterwards. -/
theorem step (alike : Alike a b) (soundA : a.tailoring.Sound) (soundB : b.tailoring.Sound)
    {request : Request} (afreshA : a.Afresh request) (afreshB : b.Afresh request) :
    a.reply request = b.reply request ∧ Alike (a.perform request).2 (b.perform request).2 := by
  by_cases onNodes : request.onNodes = true
  · obtain ⟨outcome, after⟩ := alike.perform_onNodes onNodes
    refine ⟨?_, after⟩
    rw [reply_of_onNodes a onNodes, reply_of_onNodes b onNodes, outcome]
  · cases request with
    | attach codePoint handle => exact alike.perform_attach soundA soundB codePoint handle
    | assign codePoint element => exact ⟨rfl, alike.perform_assign soundA soundB afreshA afreshB⟩
    | pack base classOf => exact alike.perform_pack soundA soundB base classOf
    | _ => exact absurd rfl onNodes

end Alike

end Session

end Contractions
