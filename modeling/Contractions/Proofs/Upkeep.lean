/-
# Contractions.Proofs.Upkeep — what is true of every tailoring that ever comes about.

Three facts about a tailoring are needed over and over: its nodes have handles, its memory is in
order and lists only references to nodes that were made, and without nodes nothing was ever
packed. `Tailoring.Sound` names them.  A tailoring is `Reachable` when it was opened, copied or
worked on, and nothing is assumed about the main table that a request meets: another tailoring, or
the owner of the table, may have written to it in between.

The law is `Tailoring.Reachable.sound`.  It rests on one step lemma, which has a case for every
kind of request.  Requests on the nodes alone can only add nodes, attaching can only forget, and
packing starts the memory anew from the references that it finds.
-/
import Contractions.Proofs.Operations

namespace Contractions

namespace Tailoring

/-! ## The upkeep of a tailoring -/

/-- What every tailoring keeps up. -/
structure Sound (tailoring : Tailoring) : Prop where
  /-- Every node has a handle. -/
  handles : tailoring.nodes.size ≤ Handle.count
  /-- The memory is in ascending order of code points. -/
  ordered : Relocation.Ordered tailoring.memory
  /-- Whatever is remembered stood for a node that was made. -/
  named : ∀ relocation ∈ tailoring.memory, relocation.payload.toNat < tailoring.nodes.size
  /-- Only references are remembered. -/
  written : ∀ relocation ∈ tailoring.memory, Element.isReferenceWord relocation.written = true
  /-- Without nodes nothing was packed. -/
  unpacked : tailoring.nodes.isEmpty = true → tailoring.packed = none

theorem Sound.empty (sizing : Sizing) : (Tailoring.empty sizing).Sound where
  handles := Nat.zero_le _
  ordered := Ascends.empty _
  named := by simp [Tailoring.empty]
  written := by simp [Tailoring.empty]
  unpacked := fun _ => rfl

theorem Sound.copy {tailoring : Tailoring} (sound : tailoring.Sound) : tailoring.copy.Sound where
  handles := by simpa [Tailoring.copy] using sound.handles
  ordered := sound.ordered
  named := by simpa [Tailoring.copy] using sound.named
  written := sound.written
  unpacked := by simpa [Tailoring.copy] using sound.unpacked

/-- Without nodes there is nothing to remember. -/
theorem Sound.memory_eq_empty {tailoring : Tailoring} (sound : tailoring.Sound)
    (none : tailoring.nodes.isEmpty = true) : tailoring.memory = #[] := by
  rw [Array.eq_empty_iff_forall_not_mem]
  intro relocation mem
  have named := sound.named relocation mem
  rw [Array.isEmpty_iff_size_eq_zero.mp none] at named
  exact Nat.not_lt_zero _ named

/-! ## Nodes come and never go -/

/-- The nodes of one tailoring are followed by those of another: none went away, and handles did not
run out in between. -/
structure Grows (before after : Tailoring) : Prop where
  size_le : before.nodes.size ≤ after.nodes.size
  handles : before.nodes.size ≤ Handle.count → after.nodes.size ≤ Handle.count

namespace Grows

theorem refl (tailoring : Tailoring) : Grows tailoring tailoring := ⟨Nat.le_refl _, id⟩

/-- Once nodes have followed others, nothing that requests are made of takes them back. -/
theorem lasting (before : Tailoring) : Session.Lasting (Grows before) where
  putNode := by
    intro tailoring handle node grows
    refine ⟨?_, ?_⟩
    · rw [size_putNode]
      exact grows.size_le
    · rw [size_putNode]
      exact grows.handles
  pushNode := by
    -- a new node takes a number that a handle can carry
    intro tailoring node free grows
    refine ⟨?_, fun _ => ?_⟩
    · rw [size_pushNode]
      exact Nat.le_succ_of_le grows.size_le
    · rw [size_pushNode]
      exact free
  withRecord := fun _ _ grows => ⟨grows.size_le, grows.handles⟩

end Grows

end Tailoring

namespace Session

/-- No request takes a node away. -/
theorem perform_grows (session : Session) (request : Request) :
    Tailoring.Grows session.tailoring (session.perform request).2.tailoring :=
  (Tailoring.Grows.lasting session.tailoring).perform (.refl session.tailoring) request

/-! ## Every request keeps a tailoring sound -/

theorem sound_perform_onNodes {session : Session} (sound : session.tailoring.Sound)
    {request : Request} (onNodes : request.onNodes = true) :
    (session.perform request).2.tailoring.Sound := by
  have grows := session.perform_grows request
  obtain ⟨packed, memory, -⟩ := session.record_perform onNodes
  exact {
    handles := grows.handles sound.handles
    ordered := by rw [memory]; exact sound.ordered
    named := by
      rw [memory]
      intro relocation mem
      exact Nat.lt_of_lt_of_le (sound.named relocation mem) grows.size_le
    written := by rw [memory]; exact sound.written
    unpacked := by
      intro none
      -- no nodes afterwards means that there were none before
      rw [packed]
      have size := Array.isEmpty_iff_size_eq_zero.mp none
      refine sound.unpacked (Array.isEmpty_iff_size_eq_zero.mpr ?_)
      exact Nat.le_zero.mp (size ▸ grows.size_le) }

theorem sound_perform_attach {session : Session} (sound : session.tailoring.Sound)
    (codePoint : UInt16) (handle : Handle) :
    (session.perform (.attach codePoint handle)).2.tailoring.Sound := by
  rcases session.perform_attach_cases codePoint handle with same | ⟨node, -, after⟩
  · rw [same]
    exact sound
  · rw [after]
    exact {
      handles := by simpa [attached, Tailoring.putNode] using sound.handles
      ordered := sound.ordered.forget codePoint
      named := by
        intro relocation mem
        have before := sound.named relocation (Relocation.mem_forget.mp mem).1
        simpa [attached, Tailoring.putNode] using before
      written := fun relocation mem => sound.written relocation (Relocation.mem_forget.mp mem).1
      unpacked := fun none => sound.unpacked (by simpa [attached, Tailoring.putNode] using none) }

/-- What a packing remembers comes from the references it found, in their order. -/
theorem sound_laidOut {session : Session} (sound : session.tailoring.Sound) {base : Nat}
    (packable : session.tailoring.Packable session.table base)
    (some : session.tailoring.nodes.isEmpty = false) (classOf : UInt16 → UInt8) :
    (session.laidOut base classOf).tailoring.Sound where
  handles := sound.handles
  ordered := by
    have ascending := session.table.references_pairwise session.tailoring.memory
    exact List.Pairwise.map _ (fun _ _ before => before) ascending
  named := by
    intro relocation mem
    obtain ⟨reference, found, rfl⟩ := List.mem_map.mp (List.mem_toArray.mp mem)
    exact packable.table_named reference found
  written := by
    intro relocation mem
    obtain ⟨reference, -, rfl⟩ := List.mem_map.mp (List.mem_toArray.mp mem)
    exact Element.isReferenceWord_pack_reference _
  unpacked := by
    intro none
    have same : session.tailoring.nodes.isEmpty = true := none
    rw [some] at same
    cases same

theorem sound_perform_pack {session : Session} (sound : session.tailoring.Sound) (base : Nat)
    (classOf : UInt16 → UInt8) : (session.perform (.pack base classOf)).2.tailoring.Sound := by
  rcases session.perform_pack_cases base classOf with same | ⟨some, packable, laid⟩
  · rw [same]
    exact sound
  · rw [laid]
    exact sound_laidOut sound packable some classOf

theorem sound_perform {session : Session} (sound : session.tailoring.Sound) (request : Request) :
    (session.perform request).2.tailoring.Sound := by
  by_cases onNodes : request.onNodes = true
  · exact sound_perform_onNodes sound onNodes
  · cases request with
    | attach codePoint handle => exact sound_perform_attach sound codePoint handle
    | assign codePoint element => exact sound
    | pack base classOf => exact sound_perform_pack sound base classOf
    | _ => exact absurd rfl onNodes

end Session

/-! ## Reachable tailorings -/

/-- The tailorings that come about.  Every request may meet any main table. -/
inductive Tailoring.Reachable : Tailoring → Prop where
  | opened (sizing : Sizing) : Reachable (Tailoring.empty sizing)
  | copied {tailoring : Tailoring} (reached : Reachable tailoring) : Reachable tailoring.copy
  | performed {tailoring : Tailoring} (reached : Reachable tailoring) (table : MainTable)
      (request : Session.Request) :
      Reachable (Session.perform { tailoring, table } request).2.tailoring

theorem Tailoring.Reachable.sound {tailoring : Tailoring} (reached : tailoring.Reachable) :
    tailoring.Sound := by
  induction reached with
  | opened sizing => exact .empty sizing
  | copied _ ih => exact ih.copy
  | performed _ table request ih => exact Session.sound_perform ih request

/-- A run from a reachable tailoring ends in one. -/
theorem Session.reachable_run (session : Session) (reached : session.tailoring.Reachable)
    (requests : List Session.Request) : (session.run requests).2.tailoring.Reachable := by
  induction requests generalizing session with
  | nil => exact reached
  | cons request requests ih =>
    exact ih (session.perform request).2 (reached.performed session.table request)

/-! ## A small session -/

namespace Session

/-- A session without nodes on a main table of three code points. -/
def small : Session := { tailoring := .empty default, table := .filled 3 .notFound }

/-- Make two nodes that refer to each other, and attach the second one to the code point 2. -/
def ringRequests : List Request :=
  [.write none (.append 5 (.reference 1)), .write none (.append 6 (.reference 0)),
    .attach 2 ⟨1, by decide⟩]

/-- Two nodes that refer to each other, so that every chain of references is endless. -/
def ring : Session := (small.run ringRequests).2

theorem reachable_ring : ring.tailoring.Reachable :=
  small.reachable_run (.opened default) ringRequests

end Session

end Contractions
