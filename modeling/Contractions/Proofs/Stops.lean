/-
# Contractions.Proofs.Stops — what each stage of a packing stops at.

`Contractions.Proofs.Placement` says when a stage succeeds and with what.  Here is the other half: a
stage that is refused is refused at the first place where something is wrong, and the fault names
what is wrong there.  The stages are the offsets, the nodes with their slots, and the references of
the main table; each is a traversal, so one lemma on traversals serves the last two
(`Fault.mapM_eq_error_iff`).
-/
import Contractions.Proofs.Outcomes
import Contractions.Proofs.Placement

namespace Contractions

theorem Settles.exists_ok_iff {α : Type} {outcome : Except Fault α} {fine : Prop} {result : α}
    (settles : Settles outcome fine result) : (∃ value, outcome = .ok value) ↔ fine := by
  constructor
  · rintro ⟨value, known⟩
    exact ((settles value).mp known).1
  · exact fun holds => ⟨result, settles.eq_ok holds⟩

/-! ## The offsets -/

/-- Where the slice of a node starts: behind the slots in use of all nodes before it. -/
def startAt (base : Nat) (nodes : List Node) (index : Nat) : Nat :=
  base + ((nodes.take index).map Node.length).sum

theorem slotStarts_eq_map (base : Nat) (nodes : List Node) :
    slotStarts base nodes = (List.range nodes.length).map (startAt base nodes) := by
  refine List.ext_getElem? fun index => ?_
  by_cases inRange : index < nodes.length
  · rw [getElem?_slotStarts base inRange, List.getElem?_map, List.getElem?_range inRange,
      slotCount_eq_sum]
    rfl
  · rw [List.getElem?_eq_none (by simpa using inRange), List.getElem?_eq_none (by simpa using inRange)]

theorem forall_slotStarts_iff {base : Nat} {nodes : List Node} :
    (∀ start ∈ slotStarts base nodes, start ≤ maxOffset) ↔
      ∀ index, index < nodes.length → startAt base nodes index ≤ maxOffset := by
  simp [slotStarts_eq_map]

/-- The offsets are refused for the first start that no reference can hold. -/
theorem placeNodes_eq_error_iff {base : Nat} {nodes : List Node} {fault : Fault} :
    placeNodes base nodes = .error fault ↔ ∃ index, index < nodes.length ∧
      (∀ earlier, earlier < index → startAt base nodes earlier ≤ maxOffset) ∧
      maxOffset < startAt base nodes index ∧ fault = .offsetOverflow (startAt base nodes index) := by
  have first : ∀ start, (slotStarts base nodes).find? (maxOffset < ·) = some start ↔
      ∃ index, index < nodes.length ∧
        (∀ earlier, earlier < index → startAt base nodes earlier ≤ maxOffset) ∧
        maxOffset < startAt base nodes index ∧ startAt base nodes index = start := by
    intro start
    simp only [slotStarts_eq_map, List.find?_map, Option.map_eq_some_iff, List.find?_range_eq_some,
      Function.comp_apply, decide_eq_true_eq, List.mem_range, Bool.not_eq_eq_eq_not, Bool.not_true,
      decide_eq_false_iff_not, Nat.not_lt]
    constructor
    · rintro ⟨index, ⟨tooFar, inRange, fits⟩, same⟩
      exact ⟨index, inRange, fits, tooFar, same⟩
    · rintro ⟨index, inRange, fits, tooFar, same⟩
      exact ⟨index, ⟨tooFar, inRange, fits⟩, same⟩
  unfold placeNodes
  simp only
  cases found : (slotStarts base nodes).find? (maxOffset < ·) with
  | none =>
    simp only [reduceCtorEq, false_iff]
    rintro ⟨index, inRange, fits, tooFar, -⟩
    rw [(first _).mpr ⟨index, inRange, fits, tooFar, rfl⟩] at found
    cases found
  | some start =>
    obtain ⟨index, inRange, fits, tooFar, rfl⟩ := (first start).mp found
    constructor
    · rintro ⟨⟩
      exact ⟨index, inRange, fits, tooFar, rfl⟩
    · rintro ⟨other, inRange', fits', tooFar', rfl⟩
      rw [(first _).mpr ⟨other, inRange', fits', tooFar', rfl⟩] at found
      rw [Option.some.inj found]

/-! ## References that name no node -/

/-- A word is a reference, and its payload is not below the number of nodes. -/
def Dangles (count : Nat) (word payload : UInt32) : Prop :=
  Element.unpack word = .reference payload ∧ count ≤ payload.toNat

theorem relocatePayload_eq_error_iff {offsets : Array Nat} {payload : UInt32} {fault : Fault} :
    relocatePayload offsets payload = .error fault ↔
      offsets.size ≤ payload.toNat ∧ fault = .danglingReference payload := by
  unfold relocatePayload
  split
  · rename_i offset found
    have inRange := (Array.getElem?_eq_some_iff.mp found).1
    simp only [reduceCtorEq, false_iff, not_and]
    omega
  · rename_i missing
    rw [Except.error.injEq, and_iff_right (Array.getElem?_eq_none_iff.mp missing), eq_comm]

theorem relocateSlot_eq_error_iff {offsets : Array Nat} {slot : Slot} {fault : Fault} :
    relocateSlot offsets slot = .error fault ↔
      ∃ payload, Dangles offsets.size slot.word payload ∧ fault = .danglingReference payload := by
  unfold relocateSlot relocateWord Dangles
  rw [Fault.map_eq_error_iff]
  cases read : Element.unpack slot.word with
  | direct word => simp
  | reference payload => simp [relocatePayload_eq_error_iff]

/-- A node is refused at the first of its words in use that dangles.  The summary makes no difference,
for it replaces a code point. -/
theorem packNode_eq_error_iff {offsets : Array Nat} {classOf : UInt16 → UInt8} {node : Node}
    {fault : Fault} :
    packNode offsets classOf node = .error fault ↔
      ∃ before word after, node.logical.map Slot.word = before ++ word :: after ∧
        (∀ earlier ∈ before, NamesBelow offsets.size earlier) ∧
        ∃ payload, Dangles offsets.size word payload ∧ fault = .danglingReference payload := by
  have words : (node.summarized classOf).map Slot.word = node.logical.map Slot.word := by
    simp [Node.summarized, Node.logical]
  rw [← words]
  exact Fault.mapM_eq_error_iff Slot.word (NamesBelow offsets.size)
    (fun word fault => ∃ payload, Dangles offsets.size word payload ∧
      fault = .danglingReference payload)
    (fun slot => (relocateSlot_settles offsets slot).exists_ok_iff)
    (fun _ _ => relocateSlot_eq_error_iff)

/-- The nodes are refused at the first one that is. -/
theorem packNodes_eq_error_iff {offsets : Array Nat} {classOf : UInt16 → UInt8} {nodes : List Node}
    {fault : Fault} :
    packNodes offsets classOf nodes = .error fault ↔
      ∃ front node back, nodes = front ++ node :: back ∧
        (∀ earlier ∈ front, earlier.NamesBelow offsets.size) ∧
        packNode offsets classOf node = .error fault := by
  unfold packNodes
  rw [Fault.map_eq_error_iff]
  have stops : nodes.mapM (packNode offsets classOf) = .error fault ↔ _ :=
    Fault.mapM_eq_error_iff id (Node.NamesBelow · offsets.size)
      (packNode offsets classOf · = .error ·)
      (fun node => (packNode_settles offsets classOf node).exists_ok_iff) (fun _ _ => Iff.rfl)
  rwa [List.map_id] at stops

/-! ## The references of the main table -/

theorem relocateReference_eq_error_iff {offsets : Array Nat} {reference : UInt16 × UInt32}
    {fault : Fault} :
    relocateReference offsets reference = .error fault ↔
      offsets.size ≤ reference.2.toNat ∧ fault = .danglingReference reference.2 := by
  unfold relocateReference
  rw [Fault.map_eq_error_iff, relocatePayload_eq_error_iff]

/-- The references of the main table are refused at the lowest code point whose reference dangles. -/
theorem mapM_relocateReference_eq_error_iff {table : MainTable} {memory : Array Relocation}
    {offsets : Array Nat} {fault : Fault} :
    (table.references memory).mapM (relocateReference offsets) = .error fault ↔
      ∃ codePoint payload, table.Refers memory codePoint payload ∧
        (∀ earlier other, earlier < codePoint → table.Refers memory earlier other →
          other.toNat < offsets.size) ∧
        offsets.size ≤ payload.toNat ∧ fault = .danglingReference payload := by
  have stops : (table.references memory).mapM (relocateReference offsets) = .error fault ↔ _ :=
    Fault.mapM_eq_error_iff id (fun reference => reference.2.toNat < offsets.size)
      (fun reference fault =>
        offsets.size ≤ reference.2.toNat ∧ fault = .danglingReference reference.2)
      (fun reference => (relocateReference_settles offsets reference).exists_ok_iff)
      (fun _ _ => relocateReference_eq_error_iff)
  rw [List.map_id] at stops
  rw [stops]
  -- the references stand in the order of their code points, so the first is the lowest
  have ascending := table.references_pairwise memory
  constructor
  · rintro ⟨front, ⟨codePoint, payload⟩, back, split, fine, beyond, same⟩
    rw [split] at ascending
    obtain ⟨-, behind, -⟩ := List.pairwise_append.mp ascending
    refine ⟨codePoint, payload, ?_, ?_, beyond, same⟩
    · exact MainTable.mem_references.mp (by simp [split])
    · intro earlier other below refers
      have below : earlier.toNat < codePoint.toNat := UInt16.lt_iff_toNat_lt.mp below
      have mem := MainTable.mem_references.mpr refers
      rw [split] at mem
      rcases List.mem_append.mp mem with inFront | inRest
      · exact fine (earlier, other) inFront
      · rcases List.mem_cons.mp inRest with here | inBack
        · cases here
          exact absurd below (Nat.lt_irrefl _)
        · have above := List.rel_of_pairwise_cons behind inBack
          exact absurd below (Nat.lt_asymm above)
  · rintro ⟨codePoint, payload, refers, lowest, beyond, same⟩
    obtain ⟨front, back, split⟩ := List.append_of_mem (MainTable.mem_references.mpr refers)
    refine ⟨front, (codePoint, payload), back, split, ?_, beyond, same⟩
    rintro ⟨earlier, other⟩ inFront
    rw [split] at ascending
    obtain ⟨-, -, across⟩ := List.pairwise_append.mp ascending
    have below := across _ inFront _ List.mem_cons_self
    refine lowest earlier other (UInt16.lt_iff_toNat_lt.mpr below) (MainTable.mem_references.mp ?_)
    rw [split]
    exact List.mem_append_left _ inFront

/-! ## The plan -/

/-- A packed table is refused by the first stage that is: the offsets, the room for the slots, or the
nodes. -/
theorem Packed.ofNodes_eq_error_iff {base : Nat} {classOf : UInt16 → UInt8} {nodes : List Node}
    {fault : Fault} :
    Packed.ofNodes base classOf nodes = .error fault ↔
      placeNodes base nodes = .error fault ∨
        (∀ start ∈ slotStarts base nodes, start ≤ maxOffset) ∧
          (¬ Grantable elementBytes (slotCount nodes) ∧ fault = .outOfMemory ∨
            Grantable elementBytes (slotCount nodes) ∧
              packNodes (startsOf base nodes) classOf nodes = .error fault) := by
  have placed := placeNodes_settles base nodes
  unfold ofNodes
  -- a later stage is reached with the results of the earlier ones, which are known
  by_cases granted : Grantable elementBytes (slotCount nodes)
  · simp only [Fault.bind_eq_error_iff, granted, not_true_eq_false, if_false, pure, Except.pure,
      reduceCtorEq, and_false, exists_false, or_false, false_and, true_and, false_or, placed _,
      and_assoc, exists_and_left, exists_eq_left]
  · simp only [Fault.bind_eq_error_iff, granted, not_false_eq_true, if_true, true_and, false_and,
      or_false, placed _, and_assoc, exists_and_left, exists_eq_left, throw, throwThe,
      MonadExceptOf.throw, Except.error.injEq, reduceCtorEq, exists_false,
      @eq_comm _ Fault.outOfMemory]

namespace Tailoring

/-- A plan is refused by the first stage that is: the offsets, the room for the slots, the nodes, or
the references of the main table. -/
theorem packPlan_eq_error_iff {tailoring : Tailoring} {table : MainTable} {base : Nat}
    {classOf : UInt16 → UInt8} {fault : Fault} :
    tailoring.packPlan table base classOf = .error fault ↔
      placeNodes base tailoring.nodes.toList = .error fault ∨
        (∀ start ∈ slotStarts base tailoring.nodes.toList, start ≤ maxOffset) ∧
          (¬ Grantable elementBytes (slotCount tailoring.nodes.toList) ∧ fault = .outOfMemory ∨
            Grantable elementBytes (slotCount tailoring.nodes.toList) ∧
              (packNodes (startsOf base tailoring.nodes.toList) classOf tailoring.nodes.toList =
                  .error fault ∨
                (∀ node ∈ tailoring.nodes.toList, node.NamesBelow tailoring.nodes.size) ∧
                  (table.references tailoring.memory).mapM
                    (relocateReference (startsOf base tailoring.nodes.toList)) = .error fault)) := by
  have packed := Packed.ofNodes_settles base classOf tailoring.nodes.toList
  rw [Array.length_toList] at packed
  unfold packPlan
  -- the references are reached with the packed table, which is known
  simp only [Fault.bind_eq_error_iff, Packed.ofNodes_eq_error_iff, packed _, and_assoc,
    exists_and_left, exists_eq_left, pure, Except.pure, reduceCtorEq, and_false, exists_false,
    or_false]
  rw [or_assoc, ← and_or_left, or_assoc, ← and_or_left]

end Tailoring

end Contractions
