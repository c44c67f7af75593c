/-
# Contractions.Proofs.Copying — a copy does what its original does.

A copy has the slots in use of its original and no spare ones, so the next pair makes a node of the
copy grow where the original has room.  Nodes with the same slots in use are related by
`Node.SameInUse`, and a tailoring and its copy are so related node by node.  `Session.InStep` is the
account of two runs side by side: at each request the sessions have the same main table, record and
slots in use, and the answers agree.

Two things can make a difference, and the account names them.  A write to a given place behind the
slots in use depends on the capacity; it changes no slot in use on either side, whatever it answers.
And memory runs out by capacity too, though a node must have `2 ^ 60` slots in use for this, which
takes as many requests; there the two sides part.
-/
import Contractions.Proofs.SideBySide

namespace Contractions

/-! ## Nodes with the same slots in use -/

namespace Node

/-- Two nodes have the same slots in use. -/
def SameInUse (x y : Node) : Prop := x.logical = y.logical

namespace SameInUse

variable {x y : Node}

theorem refl (node : Node) : SameInUse node node := rfl

theorem reserved_eq (same : SameInUse x y) : x.reserved = y.reserved := (List.cons.inj same).1

theorem pairs_eq (same : SameInUse x y) : x.pairs = y.pairs := (List.cons.inj same).2

theorem length_eq (same : SameInUse x y) : x.length = y.length := congrArg List.length same

theorem setElement (same : SameInUse x y) (slot : Nat) (element : Element) :
    SameInUse (x.setElement slot element) (y.setElement slot element) := by
  unfold SameInUse at same ⊢
  rw [logical_setElement, logical_setElement, same]

theorem likeness : Likeness SameInUse where
  refl := refl
  word_eq := fun same => congrArg Slot.word same.reserved_eq
  pairs_eq := pairs_eq
  setElement := setElement
  copy := fun same => same

/-- A copy has the slots in use of its original. -/
theorem copy (node : Node) : SameInUse node node.copy := rfl

end SameInUse

/-! ## Edits of nodes with the same slots in use -/

/-- A node grows, or all its slots are in use and twice as many cannot be granted. -/
theorem grow_or_full (node : Node) :
    (∃ grown, node.grow = .ok grown) ∨
      node.grow = .error .outOfMemory ∧ 2 ^ 60 ≤ node.length := by
  unfold grow
  split
  · rename_i full
    have none : node.spare = [] := List.isEmpty_iff.mp full
    have used : node.capacity = node.length := by
      unfold capacity
      rw [none]
      rfl
    rw [used]
    split
    · exact Or.inl ⟨_, rfl⟩
    · rename_i denied
      refine Or.inr ⟨rfl, ?_⟩
      unfold Grantable elementBytes bufferLimit at denied
      omega
  · exact Or.inl ⟨node, rfl⟩

/-- The memory is exhausted for one more slot of a node, on one of two sides. -/
def Exhausted (x : Node) (first second : Except Fault Node) : Prop :=
  2 ^ 60 ≤ x.length ∧
    (first = .error .outOfMemory ∨ second = .error .outOfMemory)

namespace SameInUse

variable {x y : Node}

/-- Two edits that need one more slot agree, if they make the same of the slots in use, or the
memory is exhausted. -/
theorem map_grow (same : SameInUse x y) {f g : Node → Node}
    (alike : ∀ grown grown', x.grow = .ok grown → y.grow = .ok grown' →
      SameInUse (f grown) (g grown')) :
    Agree SameInUse (x.grow.map f) (y.grow.map g) ∨
      Exhausted x (x.grow.map f) (y.grow.map g) := by
  rcases x.grow_or_full with ⟨grown, grows⟩ | ⟨refused, full⟩
  · rcases y.grow_or_full with ⟨grown', grows'⟩ | ⟨refused', full'⟩
    · rw [grows, grows']
      exact Or.inl (.ok (alike grown grown' grows grows'))
    · rw [← same.length_eq] at full'
      rw [refused']
      exact Or.inr ⟨full', Or.inr rfl⟩
  · rw [refused]
    exact Or.inr ⟨full, Or.inl rfl⟩

/-- An edit does the same to the slots in use of both nodes, or it is a write behind them, or the
memory is exhausted. -/
theorem apply (same : SameInUse x y) (edit : Edit) :
    Agree SameInUse (x.apply edit) (y.apply edit) ∨
      Exhausted x (x.apply edit) (y.apply edit) ∨
      ∃ offset codePoint element, edit = .overwrite offset codePoint element ∧
        x.length ≤ offset := by
  cases edit with
  | append codePoint element =>
    refine (same.map_grow ?_).imp_right Or.inl
    intro grown grown' grows grows'
    show grown.logical ++ [_] = grown'.logical ++ [_]
    rw [logical_grow grows, logical_grow grows', same]
  | insert codePoint element =>
    refine (same.map_grow ?_).imp_right Or.inl
    intro grown grown' grows grows'
    have after : SameInUse grown grown' := by
      unfold SameInUse
      rw [logical_grow grows, logical_grow grows', same]
    show grown.reserved :: Slot.insertSorted _ grown.pairs =
      grown'.reserved :: Slot.insertSorted _ grown'.pairs
    rw [after.reserved_eq, after.pairs_eq]
  | overwrite offset codePoint element =>
    rcases Nat.lt_or_ge offset x.length with inUse | behind
    · -- a slot in use is within the capacity on either side
      have inside : offset < x.capacity := Nat.lt_of_lt_of_le inUse x.length_le_capacity
      have inside' : offset < y.capacity :=
        Nat.lt_of_lt_of_le (same.length_eq ▸ inUse) y.length_le_capacity
      left
      simp only [Node.apply, overwrite, inside, inside', if_true]
      refine .ok ?_
      unfold SameInUse at same ⊢
      rw [logical_put, logical_put, same]
    · exact Or.inr (Or.inr ⟨offset, codePoint, element, rfl, behind⟩)
  | setLast element =>
    left
    simp only [Node.apply, setLast, same.pairs_eq]
    exact .ok (same.setElement _ element)
  | grow =>
    have alike := same.map_grow (f := id) (g := id) fun grown grown' grows grows' => by
      show grown.logical = grown'.logical
      rw [logical_grow grows, logical_grow grows', same]
    have whole : ∀ node : Node, node.grow.map id = node.grow := by
      intro node
      cases node.grow <;> rfl
    rw [whole, whole] at alike
    exact alike.imp_right Or.inl

theorem of_put (node : Node) (offset : Nat) (slot : Slot) (behind : node.length ≤ offset) :
    SameInUse node (node.put offset slot) := by
  unfold SameInUse
  rw [logical_put, List.set_eq_of_length_le behind]

end SameInUse

end Node

namespace Session

open Node (SameInUse)

/-! ## Two runs side by side -/

/-- Two sessions stay in step along some requests. -/
inductive InStep : Session → Session → List Request → Prop where
  | done {a b : Session} (like : Like SameInUse a b) : InStep a b []
  /-- The answers agree, and the sessions stay in step. -/
  | together {a b : Session} {request : Request} {requests : List Request}
      (like : Like SameInUse a b)
      (outcome : Agree (Answer.Like SameInUse) (a.perform request).1 (b.perform request).1)
      (rest : InStep (a.perform request).2 (b.perform request).2 requests) :
      InStep a b (request :: requests)
  /-- A write goes behind the slots in use of a node.  Each side carries it out in a spare slot or
  says that there is none. -/
  | behind {a b : Session} {request : Request} {requests : List Request} {handle : Handle}
      {node : Node} {offset : Nat} {codePoint : UInt16} {element : Element}
      (like : Like SameInUse a b) (found : a.tailoring.node? handle = some node)
      (behind : node.length ≤ offset)
      (edits : request.EditsNode handle (.overwrite offset codePoint element))
      (faults : ∀ fault,
        (a.perform request).1 = .error fault ∨ (b.perform request).1 = .error fault →
          ∃ capacity, fault = .slotOutOfBounds offset capacity)
      (answers : ∀ answer answer', (a.perform request).1 = .ok answer →
        (b.perform request).1 = .ok answer' → Answer.Like SameInUse answer answer')
      (unchanged : Like SameInUse a (a.perform request).2)
      (unchanged' : Like SameInUse b (b.perform request).2)
      (rest : InStep (a.perform request).2 (b.perform request).2 requests) :
      InStep a b (request :: requests)
  /-- A node with `2 ^ 60` slots in use needs one more, and at least one side has run out of memory.
  Here they part. -/
  | exhausted {a b : Session} {request : Request} {requests : List Request} {handle : Handle}
      {node : Node} {edit : Node.Edit} (like : Like SameInUse a b)
      (found : a.tailoring.node? handle = some node) (edits : request.EditsNode handle edit)
      (full : 2 ^ 60 ≤ node.length)
      (refused : (a.perform request).1 = .error .outOfMemory ∨
        (b.perform request).1 = .error .outOfMemory) :
      InStep a b (request :: requests)

/-- A write behind the slots in use changes none of them on either side, so the sessions stay in
step through it. -/
theorem InStep.of_overwrite_behind {a b : Session} (like : Like SameInUse a b) {request : Request}
    {requests : List Request} {handle : Handle} {offset : Nat} {codePoint : UInt16}
    {element : Element}
    (edits : request.EditsNode handle (.overwrite offset codePoint element)) {x y : Node}
    (found : a.tailoring.node? handle = some x) (found' : b.tailoring.node? handle = some y)
    (same : SameInUse x y) (behind : x.length ≤ offset)
    (rest : Like SameInUse (a.perform request).2 (b.perform request).2 →
      InStep (a.perform request).2 (b.perform request).2 requests) :
    InStep a b (request :: requests) := by
  have first := outcome_of_edits edits found
  have second := outcome_of_edits edits found'
  have behind' : y.length ≤ offset := same.length_eq ▸ behind
  have unchanged : Like SameInUse a (a.perform request).2 :=
    like_of_overwrite_behind SameInUse.refl SameInUse.of_put edits found behind
  have unchanged' : Like SameInUse b (b.perform request).2 :=
    like_of_overwrite_behind SameInUse.refl SameInUse.of_put edits found' behind'
  refine .behind like found behind edits ?_ ?_ unchanged unchanged' (rest ?_)
  · intro fault refused
    rw [first, second] at refused
    rcases refused with refused | refused
    · exact ⟨_, Node.apply_overwrite_eq_error (Fault.map_eq_error refused)⟩
    · exact ⟨_, Node.apply_overwrite_eq_error (Fault.map_eq_error refused)⟩
  · intro answer answer' answers answers'
    rw [first] at answers
    rw [second] at answers'
    obtain ⟨edited, applied, rfl⟩ := Fault.map_eq_ok answers
    obtain ⟨edited', applied', rfl⟩ := Fault.map_eq_ok answers'
    obtain ⟨-, rfl⟩ := Node.apply_overwrite_eq_ok applied
    obtain ⟨-, rfl⟩ := Node.apply_overwrite_eq_ok applied'
    refine .acknowledged ?_ request handle
    exact ((SameInUse.of_put x offset _ behind).symm.trans same).trans
      (SameInUse.of_put y offset _ behind')
  · have symm : Like SameInUse (a.perform request).2 a :=
      unchanged.symm fun _ _ same => same.symm
    have trans : ∀ x y z, SameInUse x y → SameInUse y z → SameInUse x z :=
      fun _ _ _ left right => left.trans right
    exact (symm.trans trans like).trans trans unchanged'

/-- Sessions with the same slots in use stay in step along all requests. -/
theorem Like.inStep {a b : Session} (like : Like SameInUse a b) (requests : List Request) :
    InStep a b requests := by
  induction requests generalizing a b with
  | nil => exact .done like
  | cons request requests ih =>
    by_cases edits : ∃ handle change x, request.EditsNode handle change ∧
        a.tailoring.node? handle = some x
    · obtain ⟨handle, change, x, edits, found⟩ := edits
      obtain ⟨y, found', same⟩ := like.tailoring.node?_some found
      have first := outcome_of_edits edits found
      have second := outcome_of_edits edits found'
      rcases same.apply change with
        agree | ⟨full, refused⟩ | ⟨offset, codePoint, element, rfl, behind⟩
      · have step := like.perform SameInUse.likeness (respects_of_edits edits found found' agree)
        exact .together like step.outcome (ih step.session)
      · refine .exhausted like found edits full (refused.imp ?_ ?_)
        · intro refused
          rw [first, refused]
          rfl
        · intro refused
          rw [second, refused]
          rfl
      · refine .of_overwrite_behind like edits found found' same behind ?_
        intro likeAfter
        exact ih likeAfter
    · have respects : Respects SameInUse a b request := by
        refine respects_of_not_edits ?_
        intro handle change x editsNode found
        exact edits ⟨handle, change, x, editsNode, found⟩
      have step := like.perform SameInUse.likeness respects
      exact .together like step.outcome (ih step.session)

/-- A tailoring and its copy have the same slots in use. -/
theorem like_copy (tailoring : Tailoring) (table : MainTable) :
    Like SameInUse { tailoring, table } { tailoring := tailoring.copy, table } where
  tailoring :=
    { sizing := rfl
      capacity := rfl
      packed := rfl
      memory := rfl
      size := Array.size_map.symm
      nodes := by
        intro index
        simp only [Tailoring.copy, Array.getElem?_map]
        cases tailoring.nodes[index]? with
        | none => exact .none
        | some node => exact .some (.copy node) }
  table := rfl

/-- A copy is interchangeable with its original.  From the same main table the two stay in step
along all requests, packed before or not: the same answers and refusals, the same main table, the
same number of nodes and room for them, the same slots in use, packed table and memory, at every
request.  What `InStep` leaves open are writes behind the slots in use, and the far end of memory. -/
theorem copy_inStep (tailoring : Tailoring) (table : MainTable) (requests : List Request) :
    InStep { tailoring, table } { tailoring := tailoring.copy, table } requests :=
  (like_copy tailoring table).inStep requests

/-- The packed ring and its copy: a write behind the slots in use succeeds on one side only, and
they stay in step through it and through another packing. -/
theorem copy_inStep_ring :
    let packed := (ring.perform (.pack 7 fun _ => 0)).2
    let copied : Session := { tailoring := packed.tailoring.copy, table := packed.table }
    let node : Handle := ⟨0, by decide⟩
    let behind : Request := .write (some node) (.overwrite 2 9 (.direct 1))
    let requests : List Request :=
      [behind, .write (some node) (.insert 4 (.direct 2)), .pack 8 fun _ => 0, .lookup node 4]
    (packed.perform behind).1 = .ok (.element (some (.reference 0))) ∧
      (copied.perform behind).1 = .error (.slotOutOfBounds 2 2) ∧
      InStep packed copied requests := by
  intro packed copied node behind requests
  exact ⟨by decide +kernel, by decide +kernel,
    copy_inStep packed.tailoring packed.table requests⟩

end Session

end Contractions
