/-
# Contractions.Proofs.Placement — where the slices lie, and the plan in closed form.

A packing is worked out in a monad that stops at the first fault.  This file says what comes out when
nothing is in the way.  The offsets are prefix sums of the node lengths and ascend strictly, since no
node is empty.  Relocating is a plain function, `moveWord`, as soon as every reference names a node.
So a plan either is refused or is `Tailoring.plan`, and it is the latter exactly when the tailoring
and its main table are `Packable`: four conditions, one for each way to be refused.
-/
import Contractions.Proofs.Memory

namespace Contractions

/-! ## Prefix sums -/

@[simp] theorem slotCount_nil : slotCount [] = 0 := rfl

@[simp] theorem slotCount_cons (node : Node) (nodes : List Node) :
    slotCount (node :: nodes) = node.length + slotCount nodes := rfl

@[simp] theorem slotCount_append (front back : List Node) :
    slotCount (front ++ back) = slotCount front + slotCount back := by
  induction front with
  | nil => simp
  | cons node front ih => simp [ih, Nat.add_assoc]

theorem slotCount_eq_sum (nodes : List Node) : slotCount nodes = (nodes.map Node.length).sum := by
  induction nodes with
  | nil => rfl
  | cons node nodes ih => rw [slotCount_cons, ih, List.map_cons, List.sum_cons]

/-- The slice of a node starts behind the slots of all nodes before it. -/
theorem getElem?_slotStarts (start : Nat) {nodes : List Node} {index : Nat}
    (h : index < nodes.length) :
    (slotStarts start nodes)[index]? = some (start + slotCount (nodes.take index)) := by
  induction nodes generalizing start index with
  | nil => exact absurd h (Nat.not_lt_zero _)
  | cons node nodes ih =>
    cases index with
    | zero => rfl
    | succ index =>
      rw [slotStarts, List.getElem?_cons_succ, ih _ (Nat.lt_of_succ_lt_succ h),
        List.take_succ_cons, slotCount_cons, Nat.add_assoc]

theorem le_of_mem_slotStarts {start offset : Nat} {nodes : List Node}
    (mem : offset ∈ slotStarts start nodes) : start ≤ offset := by
  induction nodes generalizing start with
  | nil => cases mem
  | cons node nodes ih =>
    rcases List.mem_cons.mp mem with rfl | mem
    · exact Nat.le_refl _
    · have := ih mem
      omega

/-- No node is empty, so the starts ascend strictly. -/
theorem slotStarts_pairwise (start : Nat) (nodes : List Node) :
    (slotStarts start nodes).Pairwise (· < ·) := by
  induction nodes generalizing start with
  | nil => exact .nil
  | cons node nodes ih =>
    refine .cons ?_ (ih _)
    intro offset mem
    have behind := le_of_mem_slotStarts mem
    have := node.length_pos
    omega

/-- The offsets of the nodes, by handle. -/
def startsOf (base : Nat) (nodes : List Node) : Array Nat :=
  (slotStarts base nodes).toArray

@[simp] theorem size_startsOf (base : Nat) (nodes : List Node) :
    (startsOf base nodes).size = nodes.length := by
  simp [startsOf]

/-- There is one offset for each node of a tailoring. -/
@[simp] theorem Tailoring.size_offsets (tailoring : Tailoring) (base : Nat) :
    (startsOf base tailoring.nodes.toList).size = tailoring.nodes.size := by
  rw [size_startsOf, Array.length_toList]

theorem getElem?_startsOf (base : Nat) {nodes : List Node} {index : Nat}
    (h : index < nodes.length) :
    (startsOf base nodes)[index]? = some (base + slotCount (nodes.take index)) := by
  rw [startsOf, List.getElem?_toArray, getElem?_slotStarts base h]

theorem ascends_startsOf (base : Nat) (nodes : List Node) : Ascends id (startsOf base nodes) :=
  slotStarts_pairwise base nodes

/-! ## Outcomes that are known in advance -/

/-- An outcome is a success exactly under a condition, and the result is known. -/
def Settles {α : Type} (outcome : Except Fault α) (fine : Prop) (result : α) : Prop :=
  ∀ value, outcome = .ok value ↔ fine ∧ value = result

namespace Settles

variable {α β : Type}

theorem ok (value : α) : Settles (.ok value) True value := by
  intro other
  simp [eq_comm]

/-- Under its condition an outcome is the known success. -/
theorem eq_ok {outcome : Except Fault α} {fine : Prop} {result : α}
    (settles : Settles outcome fine result) (holds : fine) : outcome = .ok result :=
  (settles result).mpr ⟨holds, rfl⟩

/-- A refusal shows that the condition fails. -/
theorem not_of_eq_error {outcome : Except Fault α} {fine : Prop} {result : α}
    (settles : Settles outcome fine result) {fault : Fault} (refused : outcome = .error fault) :
    ¬ fine := by
  intro holds
  rw [settles.eq_ok holds] at refused
  cases refused

theorem congr {outcome : Except Fault α} {fine other : Prop} {result : α}
    (settles : Settles outcome fine result) (same : fine ↔ other) :
    Settles outcome other result := by
  rwa [propext same] at settles

theorem map {outcome : Except Fault α} {fine : Prop} {result : α}
    (settles : Settles outcome fine result) (f : α → β) :
    Settles (outcome.map f) fine (f result) := by
  intro value
  cases known : outcome with
  | error fault => simp [Except.map, settles.not_of_eq_error known]
  | ok first =>
    obtain ⟨holds, rfl⟩ := (settles first).mp known
    simp [Except.map, holds, eq_comm]

/-- Of two steps in turn the second needs its condition only where the first succeeds. -/
theorem bind {outcome : Except Fault α} {fine : Prop} {result : α}
    (settles : Settles outcome fine result) {next : α → Except Fault β} {later : Prop} {last : β}
    (next_settles : fine → Settles (next result) later last) :
    Settles (outcome >>= next) (fine ∧ later) last := by
  intro value
  cases known : outcome with
  | error fault => simp [Bind.bind, Except.bind, settles.not_of_eq_error known]
  | ok first =>
    obtain ⟨holds, rfl⟩ := (settles first).mp known
    simpa [Bind.bind, Except.bind, holds] using next_settles holds value

/-- A requirement that is checked first joins the condition. -/
theorem require {requirement : Prop} [Decidable requirement] {fault : Fault}
    {next : Except Fault α} {later : Prop} {last : α} (settles : Settles next later last) :
    Settles (if ¬ requirement then .error fault else next) (requirement ∧ later) last := by
  intro value
  by_cases holds : requirement
  · simpa [holds] using settles value
  · simp [holds]

/-- A traversal succeeds when every step does. -/
theorem mapM {step : α → Except Fault β} {fine : α → Prop} {result : α → β} (items : List α)
    (settles : ∀ item, Settles (step item) (fine item) (result item)) :
    Settles (items.mapM step) (∀ item ∈ items, fine item) (items.map result) := by
  induction items with
  | nil => simpa [pure, Except.pure] using ok ([] : List β)
  | cons item items ih =>
    rw [List.mapM_cons, List.forall_mem_cons]
    exact (settles item).bind fun _ => (ih.map (result item :: ·))

end Settles

theorem placeNodes_settles (base : Nat) (nodes : List Node) :
    Settles (placeNodes base nodes) (∀ start ∈ slotStarts base nodes, start ≤ maxOffset)
      (startsOf base nodes) := by
  intro offsets
  unfold placeNodes startsOf
  simp only
  split
  · rename_i start found
    have tooGreat : maxOffset < start := by simpa using List.find?_some found
    have mem := List.mem_of_find?_eq_some found
    simp only [reduceCtorEq, false_iff, not_and]
    intro fits
    exact absurd (fits start mem) (Nat.not_le_of_lt tooGreat)
  · rename_i none
    have fits : ∀ start ∈ slotStarts base nodes, start ≤ maxOffset := by
      simpa using List.find?_eq_none.mp none
    rw [Except.ok.injEq, eq_comm, and_iff_right fits]

/-! ## Relocating without faults -/

/-- The references in a word name one of the first `count` nodes. -/
def NamesBelow (count : Nat) (word : UInt32) : Prop :=
  ∀ payload, Element.unpack word = .reference payload → payload.toNat < count

/-- The stored reference to the offset of the node that a payload names. -/
def movePayload (offsets : Array Nat) (payload : UInt32) : UInt32 :=
  (Element.reference (offsets.getD payload.toNat 0).toUInt32).pack

/-- A word with the handle in a reference replaced by the offset of the node; any other word stays
as it is. -/
def moveWord (offsets : Array Nat) (word : UInt32) : UInt32 :=
  match Element.unpack word with
  | .direct _ => word
  | .reference payload => movePayload offsets payload

/-- A slot with its word moved. -/
def moveSlot (offsets : Array Nat) (slot : Slot) : Slot :=
  { slot with word := moveWord offsets slot.word }

theorem relocatePayload_settles (offsets : Array Nat) (payload : UInt32) :
    Settles (relocatePayload offsets payload) (payload.toNat < offsets.size)
      (movePayload offsets payload) := by
  intro moved
  unfold relocatePayload movePayload
  by_cases inRange : payload.toNat < offsets.size
  · simp [inRange, eq_comm]
  · simp [inRange]

theorem relocateWord_settles (offsets : Array Nat) (word : UInt32) :
    Settles (relocateWord offsets word) (NamesBelow offsets.size word) (moveWord offsets word) := by
  intro moved
  unfold relocateWord moveWord NamesBelow
  cases read : Element.unpack word with
  | direct other =>
    have same := Element.eq_of_unpack_direct read
    simp [same, eq_comm]
  | reference payload => simpa using relocatePayload_settles offsets payload moved

theorem relocateSlot_settles (offsets : Array Nat) (slot : Slot) :
    Settles (relocateSlot offsets slot) (NamesBelow offsets.size slot.word)
      (moveSlot offsets slot) := by
  unfold relocateSlot moveSlot
  exact (relocateWord_settles offsets slot.word).map _

/-! ## Nodes and references moved -/

/-- The slots in use with the summary of the combining classes as the first code point. -/
def Node.summarized (node : Node) (classOf : UInt16 → UInt8) : List Slot :=
  { node.reserved with
    codePoint := (ClassSummary.of classOf (node.pairs.map Slot.codePoint)).bits } :: node.pairs

/-- The slots of a node's slice. -/
def Node.moved (node : Node) (offsets : Array Nat) (classOf : UInt16 → UInt8) : List Slot :=
  (node.summarized classOf).map (moveSlot offsets)

@[simp] theorem Node.length_moved (node : Node) (offsets : Array Nat) (classOf : UInt16 → UInt8) :
    (node.moved offsets classOf).length = node.length := by
  simp [moved, summarized, length]

/-- All references in the slots in use name one of the first `count` nodes. -/
def Node.NamesBelow (node : Node) (count : Nat) : Prop :=
  ∀ slot ∈ node.logical, Contractions.NamesBelow count slot.word

theorem packNode_settles (offsets : Array Nat) (classOf : UInt16 → UInt8) (node : Node) :
    Settles (packNode offsets classOf node) (node.NamesBelow offsets.size)
      (node.moved offsets classOf) := by
  refine (Settles.mapM (node.summarized classOf) (relocateSlot_settles offsets)).congr ?_
  -- the summary changes no word
  simp [Node.NamesBelow, Node.logical, Node.summarized]

theorem packNodes_settles (offsets : Array Nat) (classOf : UInt16 → UInt8) (nodes : List Node) :
    Settles (packNodes offsets classOf nodes) (∀ node ∈ nodes, node.NamesBelow offsets.size)
      (nodes.flatMap fun node => node.moved offsets classOf) :=
  (Settles.mapM nodes (packNode_settles offsets classOf)).map List.flatten

/-- What is to be written for a reference of the main table. -/
def moveReference (offsets : Array Nat) (reference : UInt16 × UInt32) : Relocation :=
  ⟨reference.1, movePayload offsets reference.2, reference.2⟩

theorem relocateReference_settles (offsets : Array Nat) (reference : UInt16 × UInt32) :
    Settles (relocateReference offsets reference) (reference.2.toNat < offsets.size)
      (moveReference offsets reference) := by
  unfold relocateReference moveReference
  exact (relocatePayload_settles offsets reference.2).map _

/-! ## Slices of the row -/

theorem length_flatMap_moved (nodes : List Node) (offsets : Array Nat) (classOf : UInt16 → UInt8) :
    (nodes.flatMap fun node => node.moved offsets classOf).length = slotCount nodes := by
  induction nodes with
  | nil => rfl
  | cons node nodes ih => simp [ih]

/-- The row of all slices, cut where a slice starts and ends. -/
theorem extract_flatMap_moved {nodes : List Node} {index : Nat} {node : Node}
    (found : nodes[index]? = some node) (offsets : Array Nat) (classOf : UInt16 → UInt8) :
    (nodes.flatMap fun node => node.moved offsets classOf).toArray.extract
        (slotCount (nodes.take index)) (slotCount (nodes.take index) + node.length) =
      (node.moved offsets classOf).toArray := by
  obtain ⟨inRange, rfl⟩ := List.getElem?_eq_some_iff.mp found
  have split : nodes.take index ++ nodes[index] :: nodes.drop (index + 1) = nodes := by simp
  have before := length_flatMap_moved (nodes.take index) offsets classOf
  have here := nodes[index].length_moved offsets classOf
  -- the row in three parts: what stands before the slice, the slice, and the rest
  have row : (nodes.flatMap fun node => node.moved offsets classOf) =
      (nodes.take index).flatMap (fun node => node.moved offsets classOf) ++
        (nodes[index].moved offsets classOf ++
          (nodes.drop (index + 1)).flatMap fun node => node.moved offsets classOf) := by
    conv_lhs => rw [← split]
    rw [List.flatMap_append, List.flatMap_cons]
  rw [List.extract_toArray, List.extract_eq_take_drop, Nat.add_sub_cancel_left, row,
    List.drop_left' before, List.take_left' here]

theorem slotCount_take_succ {nodes : List Node} {index : Nat} {node : Node}
    (found : nodes[index]? = some node) :
    slotCount (nodes.take (index + 1)) = slotCount (nodes.take index) + node.length := by
  simp [List.take_add_one, found]

/-! ## The packed table -/

/-- A packed table is refused or is the one in closed form. -/
theorem Packed.ofNodes_settles (base : Nat) (classOf : UInt16 → UInt8) (nodes : List Node) :
    Settles (Packed.ofNodes base classOf nodes)
      ((∀ start ∈ slotStarts base nodes, start ≤ maxOffset) ∧
        Grantable elementBytes (slotCount nodes) ∧ ∀ node ∈ nodes, node.NamesBelow nodes.length)
      { base
        slots := (nodes.flatMap fun node => node.moved (startsOf base nodes) classOf).toArray
        offsets := startsOf base nodes } := by
  -- each stage adds its own condition, in the order in which they are checked
  have stages : Settles (Packed.ofNodes base classOf nodes) _ _ :=
    (placeNodes_settles base nodes).bind fun _ =>
      .require <| (packNodes_settles _ classOf nodes).bind fun _ => .ok _
  refine stages.congr ?_
  rw [size_startsOf, and_true]

/-! ## The plan as a whole -/

namespace Tailoring

/-- Nothing is in the way of a packing. -/
structure Packable (tailoring : Tailoring) (table : MainTable) (base : Nat) : Prop where
  /-- Every node starts where a reference can name it; the last one may end beyond. -/
  fits : ∀ start ∈ slotStarts base tailoring.nodes.toList, start ≤ maxOffset
  /-- The slots of all nodes can be granted. -/
  granted : Grantable elementBytes (slotCount tailoring.nodes.toList)
  /-- No slot in use refers to a node that was never made. -/
  nodes_named : ∀ node ∈ tailoring.nodes.toList, node.NamesBelow tailoring.nodes.size
  /-- Neither does any code point of the main table. -/
  table_named : ∀ reference ∈ table.references tailoring.memory,
    reference.2.toNat < tailoring.nodes.size

/-- What a packing that nothing is in the way of keeps and writes. -/
def plan (tailoring : Tailoring) (table : MainTable) (base : Nat) (classOf : UInt16 → UInt8) :
    PackPlan :=
  let nodes := tailoring.nodes.toList
  let offsets := startsOf base nodes
  { packed :=
      { base, slots := (nodes.flatMap fun node => node.moved offsets classOf).toArray, offsets }
    relocations := ((table.references tailoring.memory).map (moveReference offsets)).toArray }

/-- A plan is refused or is the one in closed form. -/
theorem packPlan_settles (tailoring : Tailoring) (table : MainTable) (base : Nat)
    (classOf : UInt16 → UInt8) :
    Settles (tailoring.packPlan table base classOf) (tailoring.Packable table base)
      (tailoring.plan table base classOf) := by
  have stages : Settles (tailoring.packPlan table base classOf) _
      (tailoring.plan table base classOf) :=
    (Packed.ofNodes_settles base classOf tailoring.nodes.toList).bind fun _ =>
      (Settles.mapM (table.references tailoring.memory)
        (relocateReference_settles _)).bind fun _ => .ok _
  refine stages.congr ?_
  rw [size_offsets, Array.length_toList, and_true]
  constructor
  · rintro ⟨⟨fits, granted, nodes_named⟩, table_named⟩
    exact { fits, granted, nodes_named, table_named }
  · rintro ⟨fits, granted, nodes_named, table_named⟩
    exact ⟨⟨fits, granted, nodes_named⟩, table_named⟩

/-- The slice of a node holds its moved slots. -/
theorem slice_plan {tailoring : Tailoring} {index : Nat} {node : Node}
    (found : tailoring.nodes[index]? = some node) (table : MainTable) (base : Nat)
    (classOf : UInt16 → UInt8) :
    (tailoring.plan table base classOf).packed.slice index =
      some (node.moved (startsOf base tailoring.nodes.toList) classOf).toArray := by
  rw [← Array.getElem?_toList] at found
  obtain ⟨inRange, rfl⟩ := List.getElem?_eq_some_iff.mp found
  unfold plan Packed.slice Packed.length
  simp only [getElem?_startsOf base inRange, Option.map_some, List.size_toArray, length_flatMap_moved]
  -- the slice ends where the next one starts, or else at the end of the row
  have stop : ((startsOf base tailoring.nodes.toList)[index + 1]?.getD
      (base + slotCount tailoring.nodes.toList)) =
      base + (slotCount (tailoring.nodes.toList.take index) + tailoring.nodes.toList[index].length) := by
    rw [← slotCount_take_succ found]
    by_cases more : index + 1 < tailoring.nodes.toList.length
    · rw [getElem?_startsOf base more, Option.getD_some]
    · rw [Array.getElem?_eq_none (by simpa using more), Option.getD_none,
        List.take_of_length_le (by omega)]
  rw [stop, Nat.add_sub_cancel_left, Nat.add_sub_cancel_left, extract_flatMap_moved found]

end Tailoring

end Contractions
