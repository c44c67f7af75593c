/-
# Contractions.Proofs.Effects — what packing and attaching do to a session.

Of the requests that meet the main table, an assignment does what it says.  The other two are
described here once and for all, and later proofs cite these lemmas and never open
`Session.perform` again.  A packing does nothing where there are no nodes; otherwise it is carried
out if nothing is in its way, and refused if something is.  An attachment is carried out if the
handle names a node.
-/
import Contractions.Proofs.Placement
import Contractions.Proofs.Record

namespace Contractions

namespace Session

/-! ## What a packing does to a session -/

theorem perform_pack (session : Session) (base : Nat) (classOf : UInt16 → UInt8) :
    session.perform (.pack base classOf) =
      match session.tailoring.pack session.table base classOf with
      | .ok (count, tailoring, table) => (.ok (.count count), { tailoring, table })
      | .error fault => (.error fault, session) := by
  unfold perform
  simp only [Work.on_pack]
  cases session.tailoring.pack session.table base classOf <;> rfl

/-- The session after a packing that nothing is in the way of. -/
def laidOut (session : Session) (base : Nat) (classOf : UInt16 → UInt8) : Session :=
  let plan := session.tailoring.plan session.table base classOf
  { tailoring := { session.tailoring with packed := some plan.packed, memory := plan.relocations }
    table := session.table.relocated plan.relocations }

/-- Without nodes a packing does nothing. -/
theorem perform_pack_of_isEmpty {session : Session} (none : session.tailoring.nodes.isEmpty = true)
    (base : Nat) (classOf : UInt16 → UInt8) :
    session.perform (.pack base classOf) = (.ok (.count 0), session) := by
  simp only [perform_pack, Tailoring.pack, none, if_true]

theorem perform_pack_of_packable {session : Session} {base : Nat}
    (some : session.tailoring.nodes.isEmpty = false)
    (packable : session.tailoring.Packable session.table base) (classOf : UInt16 → UInt8) :
    session.perform (.pack base classOf) =
      (.ok (.count (slotCount session.tailoring.nodes.toList)), session.laidOut base classOf) := by
  -- nothing in the way means that there is a plan, and a plan cannot be refused
  have planned := (session.tailoring.packPlan_settles session.table base classOf).eq_ok packable
  have length : (session.tailoring.plan session.table base classOf).packed.length =
      slotCount session.tailoring.nodes.toList := length_flatMap_moved _ _ _
  simp only [perform_pack, Tailoring.pack, some, planned, Bool.false_eq_true, if_false, Except.map,
    length]
  rfl

/-- A packing that something is in the way of is refused, with the fault of the plan. -/
theorem perform_pack_of_not_packable {session : Session} {base : Nat}
    (some : session.tailoring.nodes.isEmpty = false)
    (blocked : ¬ session.tailoring.Packable session.table base) (classOf : UInt16 → UInt8) :
    ∃ fault, session.tailoring.packPlan session.table base classOf = .error fault ∧
      session.perform (.pack base classOf) = (.error fault, session) := by
  cases planned : session.tailoring.packPlan session.table base classOf with
  | ok plan =>
    have settles := session.tailoring.packPlan_settles session.table base classOf
    exact absurd ((settles plan).mp planned).1 blocked
  | error fault =>
    refine ⟨fault, rfl, ?_⟩
    simp only [perform_pack, Tailoring.pack, some, planned, Bool.false_eq_true, if_false, Except.map]

/-- Behind a packing stands the session as it was, or the one that is laid out where nothing is in the
way. -/
theorem perform_pack_cases (session : Session) (base : Nat) (classOf : UInt16 → UInt8) :
    (session.perform (.pack base classOf)).2 = session ∨
      session.tailoring.nodes.isEmpty = false ∧ session.tailoring.Packable session.table base ∧
        (session.perform (.pack base classOf)).2 = session.laidOut base classOf := by
  cases none : session.tailoring.nodes.isEmpty with
  | true =>
    rw [perform_pack_of_isEmpty none]
    exact Or.inl rfl
  | false =>
    by_cases packable : session.tailoring.Packable session.table base
    · rw [perform_pack_of_packable none packable]
      exact Or.inr ⟨rfl, packable, rfl⟩
    · obtain ⟨fault, -, refused⟩ := perform_pack_of_not_packable none packable classOf
      rw [refused]
      exact Or.inl rfl

/-! ## What an attachment does to a session -/

/-- The node of an attached code point, given the element that the code point had.  It keeps that
element unless it has one already or the element is a reference. -/
def based (node : Node) (previous : Element) : Node :=
  if previous.isReference || node.base?.isSome then node else node.setElement 0 previous

/-- The session after an attachment: one node has changed, one slot is written and one code point is
forgotten. -/
def attached (session : Session) (codePoint : UInt16) (handle : Handle) (node : Node) : Session where
  tailoring :=
    { session.tailoring.putNode handle (based node (.unpack (session.table.get codePoint))) with
      memory := Relocation.forget session.tailoring.memory codePoint }
  table := session.table.set codePoint (Element.ofHandle handle).pack

theorem perform_attach_of_none {session : Session} {handle : Handle}
    (missing : session.tailoring.node? handle = none) (codePoint : UInt16) :
    session.perform (.attach codePoint handle) = (.error .notFound, session) := by
  simp only [perform, Tailoring.attach, missing]
  rfl

theorem perform_attach_of_some {session : Session} {handle : Handle} {node : Node}
    (found : session.tailoring.node? handle = some node) (codePoint : UInt16) :
    session.perform (.attach codePoint handle) =
      (.ok (.element (some (.unpack (session.table.get codePoint)))),
        session.attached codePoint handle node) := by
  simp only [perform, Tailoring.attach, found]
  rfl

/-- Behind an attachment stands the session as it was, or the one with the node attached. -/
theorem perform_attach_cases (session : Session) (codePoint : UInt16) (handle : Handle) :
    (session.perform (.attach codePoint handle)).2 = session ∨
      ∃ node, session.tailoring.node? handle = some node ∧
        (session.perform (.attach codePoint handle)).2 = session.attached codePoint handle node := by
  cases found : session.tailoring.node? handle with
  | none =>
    rw [perform_attach_of_none found]
    exact Or.inl rfl
  | some node =>
    rw [perform_attach_of_some found]
    exact Or.inr ⟨node, rfl, rfl⟩

/-! ## What any request does to the record of the latest packing -/

/-- A request leaves the packed table as it is and at most forgets, or it is a packing that lays the
nodes out anew. -/
theorem record_perform_cases (session : Session) (request : Request) :
    ((session.perform request).2.tailoring.packed = session.tailoring.packed ∧
        ∀ relocation ∈ (session.perform request).2.tailoring.memory,
          relocation ∈ session.tailoring.memory) ∨
      ∃ base classOf, request = .pack base classOf ∧
        session.tailoring.nodes.isEmpty = false ∧ session.tailoring.Packable session.table base ∧
        (session.perform request).2 = session.laidOut base classOf := by
  by_cases onNodes : request.onNodes = true
  · obtain ⟨packed, memory, -⟩ := session.record_perform onNodes
    exact Or.inl ⟨packed, fun relocation mem => memory ▸ mem⟩
  · cases request with
    | attach codePoint handle =>
      rcases session.perform_attach_cases codePoint handle with same | ⟨node, -, attached⟩
      · rw [same]
        exact Or.inl ⟨rfl, fun _ mem => mem⟩
      · rw [attached]
        exact Or.inl ⟨rfl, fun relocation mem => (Relocation.mem_forget.mp mem).1⟩
    | assign codePoint element => exact Or.inl ⟨rfl, fun _ mem => mem⟩
    | pack base classOf =>
      rcases session.perform_pack_cases base classOf with same | laid
      · rw [same]
        exact Or.inl ⟨rfl, fun _ mem => mem⟩
      · exact Or.inr ⟨base, classOf, rfl, laid⟩
    | _ => exact absurd rfl onNodes

end Session

end Contractions
