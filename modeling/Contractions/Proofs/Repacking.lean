/-
# Contractions.Proofs.Repacking — packings that may be left out.

However often a tailoring was packed on the way, the last packing comes to the same: what earlier
ones wrote to the main table is read back first, so a reference is relocated once and not once for
every packing.  `Thinned` says that one list of requests is another with some packings left out.
Two runs from one start that are related in this way stay alike, give the same answers, and come
together again in the next packing that succeeds: from then on the two sessions are one and the
same.

Nothing is assumed about the packings in between.  They may lay the nodes anywhere, and they may
be refused.
-/
import Contractions.Proofs.Alike

namespace Contractions

namespace Session

/-! ## Runs with packings left out -/

/-- The second list is the first one with some packings left out. -/
inductive Thinned : List Request → List Request → Prop where
  | nil : Thinned [] []
  | keep {full thinned : List Request} (request : Request) (rest : Thinned full thinned) :
      Thinned (request :: full) (request :: thinned)
  | drop {full thinned : List Request} (base : Nat) (classOf : UInt16 → UInt8)
      (rest : Thinned full thinned) : Thinned (.pack base classOf :: full) thinned

/-- Is a request a packing? -/
def Request.isPack : Request → Bool
  | .pack _ _ => true
  | _ => false

/-- The answers to the requests of a run that are no packings, each with a remembered offset read
back. -/
def replies (session : Session) : List Request → List (Except Fault Answer)
  | [] => []
  | request :: requests =>
    let later := (session.perform request).2.replies requests
    if request.isPack then later else session.reply request :: later

/-- No assignment of a run writes the very word that the memory lists for its code point. -/
def AfreshAlong (session : Session) : List Request → Prop
  | [] => True
  | request :: requests =>
    session.Afresh request ∧ (session.perform request).2.AfreshAlong requests

/-- Two runs stay alike when the second leaves out packings of the first. -/
theorem Alike.run {full thinned : List Request} (drops : Thinned full thinned) {a b : Session}
    (alike : Alike a b) (soundA : a.tailoring.Sound) (soundB : b.tailoring.Sound)
    (afreshA : a.AfreshAlong full) (afreshB : b.AfreshAlong thinned) :
    a.replies full = b.replies thinned ∧ Alike (a.run full).2 (b.run thinned).2 := by
  induction drops generalizing a b with
  | nil => exact ⟨rfl, alike⟩
  | keep request _ ih =>
    obtain ⟨answers, after⟩ := alike.step soundA soundB afreshA.1 afreshB.1
    obtain ⟨later, ends⟩ := ih after (sound_perform soundA request) (sound_perform soundB request)
      afreshA.2 afreshB.2
    refine ⟨?_, ends⟩
    unfold replies
    rw [later, answers]
  | drop base classOf _ ih =>
    -- the second session stands still while the first one packs
    have after := (alike_perform_pack soundA base classOf).symm.trans alike
    exact ih after (sound_perform soundA _) soundB afreshA.2 afreshB

/-! ## Runs come together in a packing -/

namespace Alike

variable {a b : Session}

/-- Without nodes nothing was packed yet, so sessions alike are equal. -/
theorem eq_of_isEmpty (alike : Alike a b) (soundA : a.tailoring.Sound)
    (soundB : b.tailoring.Sound) (none : a.tailoring.nodes.isEmpty = true) : a = b := by
  have none' : b.tailoring.nodes.isEmpty = true := alike.nodes ▸ none
  have packed : a.tailoring.packed = b.tailoring.packed := by
    rw [soundA.unpacked none, soundB.unpacked none']
  have memoryA := soundA.memory_eq_empty none
  have memoryB := soundB.memory_eq_empty none'
  have table : a.table = b.table := by
    apply MainTable.ext_get alike.size
    intro codePoint
    have means := alike.meaning codePoint
    unfold Session.meaning MainTable.readThrough at means
    rwa [memoryA, memoryB, Relocation.readBack_empty, Relocation.readBack_empty] at means
  rw [alike.eq_withRecord, ← packed, memoryB, ← memoryA, ← table, withRecord_self]

/-- Once the main tables are readdressed by the same offsets, they hold the same words. -/
theorem table_laidOut_eq (alike : Alike a b) (soundA : a.tailoring.Sound)
    (soundB : b.tailoring.Sound) (base : Nat) (classOf : UInt16 → UInt8) :
    (a.laidOut base classOf).table = (b.laidOut base classOf).table := by
  apply MainTable.ext_get
  · unfold laidOut
    simpa using alike.size
  intro codePoint
  by_cases refers : ∃ payload, a.table.Refers a.tailoring.memory codePoint payload
  · obtain ⟨payload, refers⟩ := refers
    have refersToo := (alike.refers_iff codePoint payload).mp refers
    rw [get_laidOut_of_refers refers, get_laidOut_of_refers refersToo, alike.nodes]
  · -- both words are untouched, and each means itself
    have other := not_exists.mp refers
    have otherToo : ∀ payload, ¬ b.table.Refers b.tailoring.memory codePoint payload :=
      fun payload refers => other payload ((alike.refers_iff codePoint payload).mpr refers)
    have means : a.table.readThrough a.tailoring.memory codePoint =
        b.table.readThrough b.tailoring.memory codePoint := alike.meaning codePoint
    rw [soundA.readThrough_eq_get other, soundB.readThrough_eq_get otherToo] at means
    rw [get_laidOut_of_other other, get_laidOut_of_other otherToo, means]

theorem laidOut_eq (alike : Alike a b) (soundA : a.tailoring.Sound) (soundB : b.tailoring.Sound)
    (base : Nat) (classOf : UInt16 → UInt8) : a.laidOut base classOf = b.laidOut base classOf := by
  have table := alike.table_laidOut_eq soundA soundB base classOf
  have tailoring : (a.laidOut base classOf).tailoring = (b.laidOut base classOf).tailoring := by
    unfold laidOut
    simp only [Tailoring.mk.injEq, alike.plan_eq base classOf]
    exact ⟨alike.sizing, alike.capacity, alike.nodes, trivial, trivial⟩
  calc
    a.laidOut base classOf = ⟨(a.laidOut base classOf).tailoring, (a.laidOut base classOf).table⟩ :=
      rfl
    _ = b.laidOut base classOf := by rw [table, tailoring]

/-- A packing that succeeds makes sessions alike equal. -/
theorem eq_of_pack_ok (alike : Alike a b) (soundA : a.tailoring.Sound)
    (soundB : b.tailoring.Sound) {base : Nat} {classOf : UInt16 → UInt8} {answer : Answer}
    (succeeds : (a.perform (.pack base classOf)).1 = .ok answer) :
    (a.perform (.pack base classOf)).2 = (b.perform (.pack base classOf)).2 := by
  cases none : a.tailoring.nodes.isEmpty with
  | true => rw [alike.eq_of_isEmpty soundA soundB none]
  | false =>
    have none' : b.tailoring.nodes.isEmpty = false := alike.nodes ▸ none
    have packable := packable_of_perform_pack none (Prod.ext succeeds rfl)
    rw [perform_pack_of_packable none packable,
      perform_pack_of_packable none' ((alike.packable_iff base).mp packable)]
    exact alike.laidOut_eq soundA soundB base classOf

end Alike

/-- Packings on the way are invisible: a run and the same run with some of them left out give the same
answers, a packing at their ends has the same outcome, and if it succeeds the sessions behind it are
equal, packed table, main table and memory included.

Only the memory itself is left to the writers of the main table, by hypothesis in either run: no
assignment repeats the word that the memory lists for its code point. -/
theorem packings_invisible (sizing : Sizing) (table : MainTable) {full thinned : List Request}
    (drops : Thinned full thinned)
    (afresh : Session.AfreshAlong { tailoring := .empty sizing, table } full)
    (afreshThinned : Session.AfreshAlong { tailoring := .empty sizing, table } thinned)
    (base : Nat) (classOf : UInt16 → UInt8) :
    let start : Session := { tailoring := .empty sizing, table }
    let first := (start.run full).2.perform (.pack base classOf)
    let second := (start.run thinned).2.perform (.pack base classOf)
    start.replies full = start.replies thinned ∧
      first.1 = second.1 ∧
      first.2.tailoring.nodes = second.2.tailoring.nodes ∧
      first.2.tailoring.capacity = second.2.tailoring.capacity ∧
      first.2.tailoring.sizing = second.2.tailoring.sizing ∧
      ∀ answer, first.1 = .ok answer →
        first.2.tailoring.packed = second.2.tailoring.packed ∧
          first.2.table = second.2.table ∧
          first.2.tailoring.memory = second.2.tailoring.memory := by
  intro start first second
  have sound : start.tailoring.Sound := .empty sizing
  obtain ⟨answers, alike⟩ := Alike.run drops (.refl start) sound sound afresh afreshThinned
  have soundA : (start.run full).2.tailoring.Sound :=
    (start.reachable_run (.opened sizing) full).sound
  have soundB : (start.run thinned).2.tailoring.Sound :=
    (start.reachable_run (.opened sizing) thinned).sound
  obtain ⟨outcome, after⟩ := alike.perform_pack soundA soundB base classOf
  refine ⟨answers, outcome, after.nodes, after.capacity, after.sizing, ?_⟩
  intro answer succeeds
  -- from here on the two runs cannot be told apart
  have same : first.2 = second.2 := alike.eq_of_pack_ok soundA soundB succeeds
  rw [same]
  exact ⟨rfl, rfl, rfl⟩

/-- The ring is packed on the way, and an offset that was written is overwritten with an element. -/
theorem packings_invisible_ring :
    let full := ringRequests ++ [.pack 7 fun _ => 0, .assign 2 (.direct 1)]
    let thinned := ringRequests ++ [.assign 2 (.direct 1)]
    ((small.run full).2.perform (.pack 0 fun _ => 0)).1 =
        ((small.run thinned).2.perform (.pack 0 fun _ => 0)).1 ∧
      small.replies full = small.replies thinned := by
  intro full thinned
  have drops : Thinned full thinned :=
    .keep _ (.keep _ (.keep _ (.drop _ _ (.keep _ .nil))))
  have remembered : (ring.perform (.pack 7 fun _ => 0)).2.tailoring.memory =
      #[⟨2, (Element.reference 9).pack, 1⟩] := by decide +kernel
  have afresh : small.AfreshAlong full := by
    refine ⟨trivial, trivial, trivial, trivial, ?_, trivial⟩
    intro payload mem
    have mem : ⟨2, (Element.direct 1).pack, payload⟩ ∈
      (ring.perform (.pack 7 fun _ => 0)).2.tailoring.memory := mem
    rw [remembered, List.mem_toArray, List.mem_singleton] at mem
    have differ : (Element.direct 1).pack ≠ (Element.reference 9).pack := by decide
    exact differ (congrArg Relocation.written mem)
  have afreshThinned : small.AfreshAlong thinned := by
    refine ⟨trivial, trivial, trivial, ?_, trivial⟩
    intro payload mem
    have mem : ⟨2, (Element.direct 1).pack, payload⟩ ∈ ring.tailoring.memory := mem
    have none : ring.tailoring.memory = #[] := by decide +kernel
    rw [none] at mem
    exact absurd mem (Array.not_mem_empty _)
  obtain ⟨answers, outcome, -⟩ := packings_invisible default (.filled 3 .notFound) drops afresh
    afreshThinned 0 fun _ => 0
  exact ⟨outcome, answers⟩

end Session

end Contractions
