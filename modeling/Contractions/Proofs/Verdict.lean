/-
# Contractions.Proofs.Verdict — what a packing is refused for, exactly.

Three things can be wrong with what is to be packed, and several of them at once.  Which one is
reported is settled by an order: first the offsets, then the nodes in the order of their handles and
each slot by slot, then the main table from the lowest code point on.  `Session.PackOutcome` states
that order as a relation between a session and an outcome, one case for each thing that may be wrong
and one for a success; each case says what is reported and that nothing was wrong before.

`perform_pack_eq_iff` shows that the relation is exact, in any session that has nodes, as long as the
room can be granted.  Offsets are numbers without bound here, so nothing wraps around whatever the
base is; only starts are bounded, so the last node may end beyond; and slots that are not in use do
not occur in the relation at all.
-/
import Contractions.Proofs.Dangling

namespace Contractions

namespace Session

/-- Every node starts where a reference can name it. -/
def Fits (session : Session) (base : Nat) : Prop :=
  ∀ index, index < session.tailoring.nodes.size →
    startAt base session.tailoring.nodes.toList index ≤ maxOffset

/-- Every reference of the main table, remembered ones read back, names a node. -/
def TableNamed (session : Session) : Prop :=
  ∀ codePoint payload, session.table.Refers session.tailoring.memory codePoint payload →
    payload.toNat < session.tailoring.nodes.size

/-- What a packing comes to. -/
inductive PackOutcome (session : Session) (base : Nat) : Except Fault Answer → Prop where
  /-- Some node would start too far away, and the first of them is reported. -/
  | overflow {index : Nat} (made : index < session.tailoring.nodes.size)
      (first : ∀ earlier, earlier < index →
        startAt base session.tailoring.nodes.toList earlier ≤ maxOffset)
      (tooFar : maxOffset < startAt base session.tailoring.nodes.toList index) :
      PackOutcome session base
        (.error (.offsetOverflow (startAt base session.tailoring.nodes.toList index)))
  /-- A slot in use, the reserved one included, refers to a node that was never made; of several
  nodes the first counts, and in that node the first slot. -/
  | danglingNode {front back : List Node} {node : Node} {before after : List UInt32}
      {word payload : UInt32} (fits : session.Fits base)
      (nodes : session.tailoring.nodes.toList = front ++ node :: back)
      (words : node.logical.map Slot.word = before ++ word :: after)
      (namedFront : ∀ earlier ∈ front, earlier.NamesBelow session.tailoring.nodes.size)
      (namedBefore : ∀ earlier ∈ before, NamesBelow session.tailoring.nodes.size earlier)
      (refers : Element.unpack word = .reference payload)
      (unmade : session.tailoring.nodes.size ≤ payload.toNat) :
      PackOutcome session base (.error (.danglingReference payload))
  /-- A code point refers to a node that was never made, and the lowest of them counts. -/
  | danglingTable {codePoint : UInt16} {payload : UInt32} (fits : session.Fits base)
      (named : session.NodesNamed)
      (refers : session.table.Refers session.tailoring.memory codePoint payload)
      (lowest : ∀ earlier other, earlier < codePoint →
        session.table.Refers session.tailoring.memory earlier other →
        other.toNat < session.tailoring.nodes.size)
      (unmade : session.tailoring.nodes.size ≤ payload.toNat) :
      PackOutcome session base (.error (.danglingReference payload))
  /-- Nothing is wrong. -/
  | packed (fits : session.Fits base) (named : session.NodesNamed)
      (tableNamed : session.TableNamed) :
      PackOutcome session base
        (.ok (.count (session.tailoring.nodes.toList.map Node.length).sum))

variable {session : Session} {base : Nat} {classOf : UInt16 → UInt8}

theorem fits_iff : (∀ start ∈ slotStarts base session.tailoring.nodes.toList, start ≤ maxOffset) ↔
    session.Fits base := by
  rw [forall_slotStarts_iff, Array.length_toList]
  rfl

theorem nodesNamed_iff : (∀ node ∈ session.tailoring.nodes.toList,
    node.NamesBelow session.tailoring.nodes.size) ↔ session.NodesNamed := by
  simp only [Array.mem_toList_iff]
  rfl

theorem packable_iff (granted : Grantable elementBytes (slotCount session.tailoring.nodes.toList)) :
    session.tailoring.Packable session.table base ↔
      session.Fits base ∧ session.NodesNamed ∧ session.TableNamed := by
  constructor
  · rintro ⟨fits, -, named, tableNamed⟩
    refine ⟨fits_iff.mp fits, nodesNamed_iff.mp named, ?_⟩
    exact fun codePoint payload refers => tableNamed _ (MainTable.mem_references.mpr refers)
  · rintro ⟨fits, named, tableNamed⟩
    refine ⟨fits_iff.mpr fits, granted, nodesNamed_iff.mpr named, ?_⟩
    exact fun reference mem => tableNamed _ _ (MainTable.mem_references.mp mem)

/-- With nodes to be packed, a packing is refused when its plan is, and for the same reason. -/
theorem fst_perform_pack_eq_error_iff (some : session.tailoring.nodes.isEmpty = false)
    {fault : Fault} :
    (session.perform (.pack base classOf)).1 = .error fault ↔
      session.tailoring.packPlan session.table base classOf = .error fault := by
  rw [perform_pack]
  unfold Tailoring.pack
  rw [some]
  cases session.tailoring.packPlan session.table base classOf <;> simp [Except.map]

theorem fst_perform_pack_eq_ok_iff (some : session.tailoring.nodes.isEmpty = false)
    {answer : Answer} :
    (session.perform (.pack base classOf)).1 = .ok answer ↔
      session.tailoring.Packable session.table base ∧
        answer = .count (slotCount session.tailoring.nodes.toList) := by
  by_cases packable : session.tailoring.Packable session.table base
  · rw [perform_pack_of_packable some packable, Except.ok.injEq, eq_comm, and_iff_right packable]
  · obtain ⟨fault, -, refused⟩ := perform_pack_of_not_packable some packable classOf
    simp only [refused, reduceCtorEq, packable, false_and]

/-- The outcome of a packing, in full: of all that may be wrong the first is reported, and where
nothing is wrong it succeeds. -/
theorem perform_pack_eq_iff {session : Session} (some : session.tailoring.nodes ≠ #[])
    (granted : Grantable elementBytes (session.tailoring.nodes.toList.map Node.length).sum)
    (base : Nat) (classOf : UInt16 → UInt8) (outcome : Except Fault Answer) :
    (session.perform (.pack base classOf)).1 = outcome ↔ session.PackOutcome base outcome := by
  have nonempty : session.tailoring.nodes.isEmpty = false := by simpa using some
  have count := session.tailoring.size_offsets base
  rw [← slotCount_eq_sum] at granted
  cases outcome with
  | ok answer =>
    rw [fst_perform_pack_eq_ok_iff nonempty, packable_iff granted, slotCount_eq_sum]
    constructor
    · rintro ⟨⟨fits, named, tableNamed⟩, rfl⟩
      exact .packed fits named tableNamed
    · rintro ⟨⟩
      rename_i fits named tableNamed
      exact ⟨⟨fits, named, tableNamed⟩, rfl⟩
  | error fault =>
    rw [fst_perform_pack_eq_error_iff nonempty, Tailoring.packPlan_eq_error_iff, fits_iff,
      nodesNamed_iff, placeNodes_eq_error_iff, packNodes_eq_error_iff,
      mapM_relocateReference_eq_error_iff, count, Array.length_toList]
    simp only [packNode_eq_error_iff, count]
    constructor
    · rintro (⟨index, made, first, tooFar, rfl⟩ | ⟨fits, ⟨tooMuch, -⟩ | ⟨-, inNodes⟩⟩)
      · exact .overflow made first tooFar
      · exact absurd granted tooMuch
      · rcases inNodes with
          ⟨front, node, back, nodes, namedFront, before, word, after, words, namedBefore, payload,
            ⟨refers, unmade⟩, rfl⟩ |
          ⟨named, codePoint, payload, refers, lowest, unmade, rfl⟩
        · exact .danglingNode fits nodes words namedFront namedBefore refers unmade
        · exact .danglingTable fits named refers lowest unmade
    · intro verdict
      cases verdict with
      | overflow made first tooFar => exact Or.inl ⟨_, made, first, tooFar, rfl⟩
      | danglingNode fits nodes words namedFront namedBefore refers unmade =>
        exact Or.inr ⟨fits, Or.inr ⟨granted, Or.inl ⟨_, _, _, nodes, namedFront, _, _, _, words,
          namedBefore, _, ⟨refers, unmade⟩, rfl⟩⟩⟩
      | danglingTable fits named refers lowest unmade =>
        exact Or.inr ⟨fits, Or.inr ⟨granted, Or.inr ⟨named, _, _, refers, lowest, unmade, rfl⟩⟩⟩

/-- The ring of two nodes with two slots each, and a reference to a node that was never made in a slot
that is not in use.  It can still be packed where the second node ends beyond all offsets, but not one
further on, where that node would start too far away. -/
theorem perform_pack_eq_iff_edge :
    let session := (ring.perform (.write (some ⟨0, by decide⟩) (.overwrite 10 7 (.reference 9)))).2
    session.tailoring.nodes ≠ #[] ∧
      Grantable elementBytes (session.tailoring.nodes.toList.map Node.length).sum ∧
      session.PackOutcome 0xFFFFFD (.ok (.count 4)) ∧
      session.PackOutcome 0xFFFFFE (.error (.offsetOverflow 0x1000000)) := by
  intro session
  have some : session.tailoring.nodes ≠ #[] := by decide +kernel
  have granted : Grantable elementBytes (session.tailoring.nodes.toList.map Node.length).sum := by
    decide +kernel
  have outcome := perform_pack_eq_iff some granted
  exact ⟨some, granted, (outcome 0xFFFFFD (fun _ => 0) _).mp (by decide +kernel),
    (outcome 0xFFFFFE (fun _ => 0) _).mp (by decide +kernel)⟩

end Session

end Contractions
