/-
# Contractions.Proofs.Refusal — a refused packing leaves no trace.

A packing sets the earlier packed table aside, checks the references of the main table slot by
slot and writes slot by slot, and it may be refused half way.  `Contractions.Proofs.InPlace`
follows these effects one by one.  Here is what that comes to for whoever asks: behind a refusal
stands the very session that stood before it, so whatever is asked next goes as if the packing had
never been asked for.  The same holds for a workspace, where other tailorings work on the same
main table.
-/
import Contractions.Proofs.PackedForm
import Contractions.Workspace

namespace Contractions

namespace Workspace

/-- Putting a session back as it was taken changes nothing. -/
theorem put_self {workspace : Workspace} {number : Nat} {member : Member}
    (known : workspace.member? number = some member) :
    workspace.put number member
      { tailoring := member.tailoring, table := workspace.table member.table } = workspace := by
  obtain ⟨tables, members⟩ := workspace
  have sameTables : tables.setIfInBounds member.table (tables[member.table]?.getD default) =
      tables := by
    by_cases inRange : member.table < tables.size
    · rw [Array.getElem?_eq_getElem inRange, Option.getD_some, Array.setIfInBounds, dif_pos inRange,
        Array.set_getElem_self]
    · rw [Array.setIfInBounds, dif_neg inRange]
  have sameMembers : members.setIfInBounds number (some member) = members := by
    obtain ⟨inRange, entry⟩ := Array.getElem?_eq_some_iff.mp (Option.join_eq_some_iff.mp known)
    rw [Array.setIfInBounds, dif_pos inRange, ← entry, Array.set_getElem_self]
  unfold put table
  simp only [sameTables, sameMembers]

end Workspace

namespace Session

/-- A refused packing leaves the session as it was: the nodes with their spare room, the packed table
or its absence, the memory, and every word of the main table. -/
theorem snd_perform_pack_of_error {session : Session} {base : Nat} {classOf : UInt16 → UInt8}
    {fault : Fault} (refused : (session.perform (.pack base classOf)).1 = .error fault) :
    session.perform (.pack base classOf) = (.error fault, session) := by
  rw [perform_pack] at refused ⊢
  cases outcome : session.tailoring.pack session.table base classOf with
  | ok packed =>
    rw [outcome] at refused
    cases refused
  | error other =>
    rw [outcome] at refused
    cases refused
    rfl

/-- A packing happens in full or not at all.  After a refusal the session is the one before, every
later run has the outcomes that it would have had without it, and so has every workspace in which the
session is one of several. -/
theorem pack_refused_leaves_no_trace {session : Session} {base : Nat} {classOf : UInt16 → UInt8}
    {fault : Fault} (refused : (session.perform (.pack base classOf)).1 = .error fault) :
    (session.perform (.pack base classOf)).2 = session ∧
      (∀ later, session.run (.pack base classOf :: later) =
        (.error fault :: (session.run later).1, (session.run later).2)) ∧
      ∀ (workspace : Workspace) (number : Nat) (member : Member),
        workspace.member? number = some member →
        session = { tailoring := member.tailoring, table := workspace.table member.table } →
        workspace.perform number (.pack base classOf) = some (.error fault, workspace) := by
  have whole := snd_perform_pack_of_error refused
  refine ⟨congrArg Prod.snd whole, ?_, ?_⟩
  · intro later
    rw [run, whole]
  · intro workspace number member known same
    -- the member and its main table are put back as they were taken
    have put := Workspace.put_self known
    rw [← same] at put
    unfold Workspace.perform
    simp only [known, Option.map_some, ← same, whole, put]

/-- A ring that was packed before, and a reference in the main table to a node that was never made. -/
theorem pack_refused_leaves_no_trace_dangling :
    let session := (ring.run [.pack 7 fun _ => 0, .assign 1 (.reference 9)]).2
    (session.perform (.pack 8 fun _ => 0)).1 = .error (.danglingReference 9) ∧
      (session.perform (.pack 8 fun _ => 0)).2 = session := by
  intro session
  have refused : (session.perform (.pack 8 fun _ => 0)).1 = .error (.danglingReference 9) := by
    decide +kernel
  exact ⟨refused, (pack_refused_leaves_no_trace refused).1⟩

end Session

end Contractions
