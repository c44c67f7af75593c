/-
# Contractions.Proofs.IdleSlots — what stands behind the slots in use is never seen.

A write at a given place may leave anything in a spare slot, and any code point in the reserved
slot.  Two nodes that differ in nothing else are the `Node.SameButIdle`.  Every edit respects this
relation: where it brings a spare slot into use it writes the whole of it, and where it moves pairs
it moves those in use.  So no course of events tells two sessions apart that are so related, and a
write behind the slots in use leads from a session to one of that kind.
-/
import Contractions.Proofs.Course
import Contractions.Proofs.SideBySide

namespace Contractions

/-! ## Nodes that differ in idle places only -/

namespace Node

/-- Two nodes have the same pairs, the same element in the reserved slot and as many spare slots. -/
structure SameButIdle (x y : Node) : Prop where
  word : x.reserved.word = y.reserved.word
  pairs : x.pairs = y.pairs
  room : x.spare.length = y.spare.length

namespace SameButIdle

variable {x y : Node}

theorem refl (node : Node) : SameButIdle node node := ⟨rfl, rfl, rfl⟩

theorem capacity_eq (same : SameButIdle x y) : x.capacity = y.capacity := by
  unfold capacity length
  rw [same.pairs, same.room]

theorem setElement (same : SameButIdle x y) (slot : Nat) (element : Element) :
    SameButIdle (x.setElement slot element) (y.setElement slot element) := by
  cases slot with
  | zero => exact ⟨rfl, same.pairs, same.room⟩
  | succ k =>
    refine ⟨same.word, ?_, same.room⟩
    show x.pairs.modify k _ = y.pairs.modify k _
    rw [same.pairs]

theorem likeness : Likeness SameButIdle where
  refl := refl
  word_eq := word
  pairs_eq := pairs
  setElement := setElement
  copy := fun same => ⟨same.word, same.pairs, rfl⟩

theorem grow (same : SameButIdle x y) : Agree SameButIdle x.grow y.grow := by
  have full : x.spare.isEmpty = y.spare.isEmpty := by
    rw [Bool.eq_iff_iff, List.isEmpty_iff_length_eq_zero, List.isEmpty_iff_length_eq_zero,
      same.room]
  unfold Node.grow
  rw [full, same.capacity_eq]
  split
  · split
    · exact .ok ⟨same.word, same.pairs, rfl⟩
    · exact .error _
  · exact .ok same

theorem put (same : SameButIdle x y) (offset : Nat) (slot : Slot) :
    SameButIdle (x.put offset slot) (y.put offset slot) := by
  cases offset with
  | zero => exact ⟨rfl, same.pairs, same.room⟩
  | succ k =>
    unfold Node.put
    simp only [same.pairs]
    split
    · exact ⟨same.word, rfl, same.room⟩
    · refine ⟨same.word, rfl, ?_⟩
      simp only [List.length_set, same.room]

/-- A slot that comes into use is written whole, so nothing idle is brought to light by an edit. -/
theorem apply (same : SameButIdle x y) (edit : Edit) :
    Agree SameButIdle (x.apply edit) (y.apply edit) := by
  cases edit with
  | append codePoint element =>
    refine same.grow.map ?_
    intro grown grown' same
    refine ⟨same.word, ?_, ?_⟩
    · simp only [same.pairs]
    · simp only [List.length_tail, same.room]
  | insert codePoint element =>
    refine same.grow.map ?_
    intro grown grown' same
    refine ⟨same.word, ?_, ?_⟩
    · simp only [same.pairs]
    · simp only [List.length_tail, same.room]
  | overwrite offset codePoint element =>
    simp only [Node.apply, overwrite, same.capacity_eq]
    split
    · exact .ok (same.put offset _)
    · exact .error _
  | setLast element =>
    simp only [Node.apply, setLast, same.pairs]
    exact .ok (same.setElement _ element)
  | grow => exact same.grow

/-- A write behind the slots in use changes an idle place. -/
theorem of_put (node : Node) (offset : Nat) (slot : Slot) (behind : node.length ≤ offset) :
    SameButIdle node (node.put offset slot) := by
  obtain ⟨position, edited⟩ := put_of_length_le behind slot
  rw [edited]
  exact ⟨rfl, rfl, List.length_set.symm⟩

end SameButIdle

end Node

namespace Session

open Node (SameButIdle)

variable {a b : Session}

/-! ## No course tells them apart -/

theorem respects_sameButIdle (like : Like SameButIdle a b) (request : Request) :
    Respects SameButIdle a b request := by
  have each : ∀ target edit,
      Tailoring.Like.Respects SameButIdle a.tailoring b.tailoring target edit := by
    intro target edit handle x y _ found found'
    obtain ⟨y', same, related⟩ := like.tailoring.node?_some found
    rw [found'] at same
    cases same
    exact related.apply edit
  cases request with
  | edit target edit => exact each target edit
  | write target edit => exact each target edit
  | _ => trivial

theorem matches_undergo (like : Like SameButIdle a b) (event : Event) :
    Matches SameButIdle (a.undergo event) (b.undergo event) := by
  cases event with
  | request request => exact like.perform SameButIdle.likeness (respects_sameButIdle like request)
  | copy =>
    exact ⟨.ok (.same _), like.tailoring.copy SameButIdle.likeness, like.table⟩

/-- Whatever course two sessions take, the outcomes agree all along, and behind it the two differ in
idle places only.  So the nodes have the same elements of their own and the same pairs. -/
def Indistinguishable (a b : Session) : Prop :=
  ∀ events,
    List.Forall₂ (Agree (Answer.Like SameButIdle)) (a.outcomes events) (b.outcomes events) ∧
      Like SameButIdle (a.after events) (b.after events) ∧
      ∀ handle,
        (a.after events).tailoring.base? handle = (b.after events).tailoring.base? handle ∧
          ((a.after events).tailoring.node? handle).map Node.pairs =
            ((b.after events).tailoring.node? handle).map Node.pairs

theorem Like.after (like : Like SameButIdle a b) (events : List Event) :
    List.Forall₂ (Agree (Answer.Like SameButIdle)) (a.outcomes events) (b.outcomes events) ∧
      Like SameButIdle (a.after events) (b.after events) := by
  induction events generalizing a b with
  | nil => exact ⟨.nil, like⟩
  | cons event events ih =>
    have here := matches_undergo like event
    obtain ⟨outcomes, later⟩ := ih here.session
    exact ⟨.cons here.outcome outcomes, later⟩

theorem Like.indistinguishable (like : Like SameButIdle a b) : Indistinguishable a b := by
  intro events
  obtain ⟨outcomes, later⟩ := like.after events
  refine ⟨outcomes, later, ?_⟩
  intro handle
  refine ⟨later.tailoring.base?_eq SameButIdle.likeness handle, ?_⟩
  rcases elim_rel (later.tailoring.node? handle) with ⟨left, right⟩ | ⟨x, y, left, right, related⟩
  · rw [left, right]
  · rw [left, right, Option.map_some, Option.map_some, related.pairs]

/-! ## The law of idle places -/

/-- Idle places are inert.  Two sessions that differ in spare slots and in the code points of
reserved slots only cannot be told apart by any course of events, copies among them.  In particular
a write behind the slots in use of a node, be it a reference to a node that was never made, is the
same as no write: the pair is never listed, never found and never packed. -/
theorem idle_slots_inert (like : Like SameButIdle a b) :
    Indistinguishable a b ∧
      ∀ (handle : Handle) (node : Node) (offset : Nat) (codePoint : UInt16) (element : Element)
        (request : Request), a.tailoring.node? handle = some node → node.length ≤ offset →
        request.EditsNode handle (.overwrite offset codePoint element) →
        Indistinguishable a (a.perform request).2 := by
  refine ⟨like.indistinguishable, ?_⟩
  intro handle node offset codePoint element request found behind edits
  have written : Like SameButIdle a (a.perform request).2 :=
    like_of_overwrite_behind SameButIdle.refl SameButIdle.of_put edits found behind
  exact written.indistinguishable

/-- A ring, and the same ring after a write to the code point of a reserved slot and one to a spare
slot, of a reference to a node that was never made. -/
theorem idle_slots_inert_ring :
    let node : Handle := ⟨0, by decide⟩
    let labelled := (ring.perform (.write (some node) (.overwrite 0 65 .notFound))).2
    let littered := (labelled.perform (.edit (some node) (.overwrite 5 9 (.reference 77)))).2
    Like SameButIdle ring labelled ∧ ring ≠ labelled ∧ labelled ≠ littered ∧
      Indistinguishable ring labelled ∧ Indistinguishable labelled littered := by
  intro node labelled littered
  have found : ring.tailoring.node? node = some (ring.tailoring.nodes[0]!) := by decide +kernel
  have same : SameButIdle ring.tailoring.nodes[0]!
      (ring.tailoring.nodes[0]!.put 0 (.of 65 .notFound)) :=
    ⟨by decide +kernel, rfl, rfl⟩
  have written : labelled = { ring with
      tailoring := ring.tailoring.putNode node
        (ring.tailoring.nodes[0]!.put 0 (.of 65 .notFound)) } := by
    decide +kernel
  have like : Like SameButIdle ring labelled := by
    rw [written]
    exact ⟨.of_putNode SameButIdle.refl found same, rfl⟩
  have there : labelled.tailoring.node? node = some (labelled.tailoring.nodes[0]!) := by
    decide +kernel
  have behind : labelled.tailoring.nodes[0]!.length ≤ 5 := by decide +kernel
  refine ⟨like, by decide +kernel, by decide +kernel, (idle_slots_inert like).1, ?_⟩
  have alone : Like SameButIdle labelled labelled := .refl SameButIdle.refl labelled
  exact (idle_slots_inert alone).2 node _ 5 9 (.reference 77) _ there behind .edit

end Session

end Contractions
