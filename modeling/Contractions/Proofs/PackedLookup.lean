/-
# Contractions.Proofs.PackedLookup — the packed table answers like the nodes.

A tailoring is searched by handle, node by node; its packed table is searched by offset, with an
interval search for every step.  The two scans stay in lock step: at each point the offset is
where the slice of the handle's node starts.  `Tailoring.step_plan` says that one lookup keeps
them there, and the walk over a whole sequence follows by induction, along any chain of
references, cycles included.

The walk on the packed table alone is defined here, next to the law about it.  It never sees a
handle: it takes what a reference carries as the next offset.
-/
import Contractions.Proofs.PackedForm
import Mathlib.Data.Option.Basic

namespace Contractions

/-! ## The walk on the table alone -/

namespace Packed

/-- Does the slice at an offset have an element for the text that leads to it? -/
def endsAt (table : Packed) (offset : Nat) : Bool :=
  match (table.nodeAt offset).bind (·[0]?) with
  | some slot => !slot.element.isNotFound
  | none => false

/-- Does a sequence of code points, read from an offset on, have an element of its own? -/
def isTailoredAt (table : Packed) : Nat → List UInt16 → Bool
  | offset, [] => table.endsAt offset
  | offset, codePoint :: rest =>
    if codePoint = 0 then table.endsAt offset
    else
      match table.lookupAt offset codePoint with
      | none => false
      | some (.direct word) => !(Element.direct word).isNotFound
      | some (.reference target) => table.isTailoredAt target.toNat rest

/-- The offsets where that walk looks for a slice, in their order. -/
def visited (table : Packed) : Nat → List UInt16 → List Nat
  | offset, [] => [offset]
  | offset, codePoint :: rest =>
    if codePoint = 0 then [offset]
    else
      match table.lookupAt offset codePoint with
      | some (.reference target) => offset :: table.visited target.toNat rest
      | _ => [offset]

end Packed

/-! ## Elements before and after -/

/-- What becomes of an element that is found: the handle of a reference is replaced by the offset of
the node, and any other element stays the same. -/
def Element.Becomes (offsets : Array Nat) : Element → Element → Prop
  | .direct word, after => after = .direct word
  | .reference payload, after => after.PointsTo offsets payload

theorem BecomesWord.element {offsets : Array Nat} {before after : UInt32}
    (becomes : BecomesWord offsets before after) :
    (Element.unpack before).Becomes offsets (Element.unpack after) := by
  unfold BecomesWord at becomes
  cases read : Element.unpack before with
  | direct word =>
    rw [read] at becomes
    rw [becomes, read]
    rfl
  | reference payload =>
    rw [read] at becomes
    exact becomes

/-- A reference never reads as not found, wherever it points. -/
theorem Element.Becomes.isNotFound_eq {offsets : Array Nat} {before after : Element}
    (becomes : before.Becomes offsets after) : after.isNotFound = before.isNotFound := by
  cases before with
  | direct word => rw [show after = .direct word from becomes]
  | reference payload =>
    obtain ⟨target, rfl, -⟩ := becomes
    rfl

/-! ## One node and its slice -/

/-- Locating looks at code points alone. -/
theorem Slot.locate_map {change : Slot → Slot}
    (same : ∀ slot, (change slot).codePoint = slot.codePoint) (codePoint : UInt16)
    (slots : List Slot) : locate codePoint (slots.map change) = locate codePoint slots := by
  induction slots with
  | nil => rfl
  | cons slot rest ih => simp only [List.map_cons, locate, same, ih]

theorem Node.lookup_eq (node : Node) (codePoint : UInt16) :
    node.lookup codePoint =
      (Slot.locate codePoint node.pairs).bind fun position =>
        node.pairs[position]?.map Slot.element := by
  unfold lookup find elementAt logical
  cases Slot.locate codePoint node.pairs <;> rfl

/-- Behind the summary stand the pairs, each with its code point. -/
theorem Node.tail_moved (node : Node) (offsets : Array Nat) (classOf : UInt16 → UInt8) :
    (node.moved offsets classOf).tail = node.pairs.map (moveSlot offsets) := rfl

namespace Tailoring

/-- Where the slice of a node starts when the nodes are laid end to end. -/
def startOf (tailoring : Tailoring) (base : Nat) (handle : Handle) : Nat :=
  base + slotCount (tailoring.nodes.toList.take handle.index)

section Plan

variable {tailoring : Tailoring} {handle : Handle} {node : Node}

theorem mem_of_node? (found : tailoring.node? handle = some node) :
    node ∈ tailoring.nodes.toList :=
  Array.mem_toList_iff.mpr (mem_nodes_of_node? found)

variable (table : MainTable) (base : Nat) (classOf : UInt16 → UInt8)

theorem offset?_plan (found : tailoring.node? handle = some node) :
    (tailoring.plan table base classOf).packed.offset? handle =
      some (tailoring.startOf base handle) := by
  have inRange : handle.index < tailoring.nodes.toList.length := lt_size_of_node? found
  exact getElem?_startsOf base inRange

/-- The starts ascend, so the interval search at one of them finds the slice that starts there. -/
theorem nodeAt_plan (found : tailoring.node? handle = some node) :
    (tailoring.plan table base classOf).packed.nodeAt (tailoring.startOf base handle) =
      some (node.moved (startsOf base tailoring.nodes.toList) classOf).toArray := by
  have starts := offset?_plan table base classOf found
  obtain ⟨inRange, start⟩ := Array.getElem?_eq_some_iff.mp starts
  have located : bisect id (tailoring.plan table base classOf).packed.offsets
      (tailoring.startOf base handle) = some ⟨handle.index, inRange⟩ :=
    (bisect_eq_some_iff (ascends_startsOf base tailoring.nodes.toList)).mpr start
  unfold Packed.nodeAt
  rw [located, Option.bind_some]
  exact slice_plan found table base classOf

variable {table base}

/-- A code point is found in the slice when it is found in the node, with the element readdressed. -/
theorem lookupAt_plan (packable : tailoring.Packable table base)
    (found : tailoring.node? handle = some node) (codePoint : UInt16) :
    Option.Rel (Element.Becomes (startsOf base tailoring.nodes.toList)) (node.lookup codePoint)
      ((tailoring.plan table base classOf).packed.lookupAt (tailoring.startOf base handle)
        codePoint) := by
  unfold Packed.lookupAt
  have alike : ∀ slot, (moveSlot (startsOf base tailoring.nodes.toList) slot).codePoint =
      slot.codePoint := fun _ => rfl
  simp only [nodeAt_plan table base classOf found, Option.bind_some, Node.tail_moved, Node.lookup_eq,
    Slot.locate_map alike]
  -- moving changes no code point, so both scans stop at the same position
  cases located : Slot.locate codePoint node.pairs with
  | none => exact .none
  | some position =>
    have inRange := Slot.locate_lt located
    simp only [Option.bind_some, List.getElem?_map, List.getElem?_eq_getElem inRange, Option.map_some]
    have inUse : node.pairs[position] ∈ node.logical :=
      List.mem_cons_of_mem _ (List.getElem_mem inRange)
    exact .some (packable.becomes_word (mem_of_node? found) inUse).element

/-- Slot 0 keeps its element, so a walk that ends at a node ends the same way at its slice. -/
theorem endsAt_plan (packable : tailoring.Packable table base)
    (found : tailoring.node? handle = some node) :
    (tailoring.plan table base classOf).packed.endsAt (tailoring.startOf base handle) =
      (tailoring.base? handle).isSome := by
  have becomes := (packable.becomes_word (mem_of_node? found) List.mem_cons_self).element.isNotFound_eq
  unfold Packed.endsAt base?
  rw [nodeAt_plan table base classOf found, found]
  show (!(Element.unpack (moveWord _ node.reserved.word)).isNotFound) = node.base?.isSome
  rw [becomes]
  unfold Node.base? Slot.element
  cases (Element.unpack node.reserved.word).isNotFound <;> rfl

/-! ## One step of the two walks -/

/-- Where the two walks stand after a lookup for one code point: both at an end, and the same one, or
both at the next node. -/
theorem step_plan (packable : tailoring.Packable table base) (sound : tailoring.Sound)
    (found : tailoring.node? handle = some node) (codePoint : UInt16) :
    (tailoring.lookup handle codePoint = none ∧
        (tailoring.plan table base classOf).packed.lookupAt (tailoring.startOf base handle)
          codePoint = none) ∨
      (∃ word, tailoring.lookup handle codePoint = some (.direct word) ∧
        (tailoring.plan table base classOf).packed.lookupAt (tailoring.startOf base handle)
          codePoint = some (.direct word)) ∨
      ∃ payload target next, tailoring.lookup handle codePoint = some (.reference payload) ∧
        (tailoring.plan table base classOf).packed.lookupAt (tailoring.startOf base handle)
          codePoint = some (.reference target) ∧
        Handle.ofPayload? payload = some next ∧ (tailoring.node? next).isSome = true ∧
        target.toNat = tailoring.startOf base next := by
  have lookup : tailoring.lookup handle codePoint = node.lookup codePoint := by
    unfold Tailoring.lookup
    rw [found, Option.bind_some]
  have related := lookupAt_plan classOf packable found codePoint
  rw [lookup]
  revert related
  generalize node.lookup codePoint = before
  generalize (tailoring.plan table base classOf).packed.lookupAt _ codePoint = after
  intro related
  cases related with
  | none => exact Or.inl ⟨rfl, rfl⟩
  | @some before after becomes =>
    cases before with
    | direct word =>
      refine Or.inr (Or.inl ⟨word, rfl, ?_⟩)
      rw [show after = .direct word from becomes]
    | reference payload =>
      -- a payload with an offset is the number of a node, and every node has a handle
      obtain ⟨target, rfl, start⟩ := becomes
      have inRange : payload.toNat < tailoring.nodes.size := by
        obtain ⟨bound, -⟩ := Array.getElem?_eq_some_iff.mp start
        rwa [size_startsOf, Array.length_toList] at bound
      have named := Nat.lt_of_lt_of_le inRange sound.handles
      refine Or.inr (Or.inr ⟨payload, target, ⟨payload.toNat, named⟩, rfl, rfl,
        Handle.ofPayload?_eq_some named, ?_, ?_⟩)
      · simp [node?, inRange]
      · rw [getElem?_startsOf base (by simpa using inRange)] at start
        exact (Option.some.inj start).symm

/-! ## Whole walks -/

theorem isTailoredAt_plan (packable : tailoring.Packable table base) (sound : tailoring.Sound)
    (found : tailoring.node? handle = some node) (sequence : List UInt16) :
    (tailoring.plan table base classOf).packed.isTailoredAt (tailoring.startOf base handle)
      sequence = tailoring.isTailored handle sequence := by
  induction sequence generalizing handle node with
  | nil => exact endsAt_plan classOf packable found
  | cons codePoint rest ih =>
    unfold Packed.isTailoredAt isTailored
    by_cases ends : codePoint = 0
    · simp only [ends, if_true]
      exact endsAt_plan classOf packable found
    · simp only [ends, if_false]
      rcases step_plan classOf packable sound found codePoint with
        ⟨before, after⟩ | ⟨word, before, after⟩ |
          ⟨payload, target, next, before, after, names, made, start⟩
      · rw [before, after]
      · rw [before, after]
      · -- both walks go on from the same node
        obtain ⟨nextNode, nextFound⟩ := Option.isSome_iff_exists.mp made
        rw [before, after]
        simp only [names, start]
        exact ih nextFound

/-- The walk on the table stands at the start of some slice at every step. -/
theorem nodeAt_of_mem_visited (packable : tailoring.Packable table base) (sound : tailoring.Sound)
    (found : tailoring.node? handle = some node) (sequence : List UInt16) :
    ∀ offset ∈ (tailoring.plan table base classOf).packed.visited
        (tailoring.startOf base handle) sequence,
      ((tailoring.plan table base classOf).packed.nodeAt offset).isSome = true := by
  have here : ∀ offset ∈ [tailoring.startOf base handle],
      ((tailoring.plan table base classOf).packed.nodeAt offset).isSome = true := by
    intro offset mem
    rw [List.mem_singleton.mp mem, nodeAt_plan table base classOf found]
    rfl
  induction sequence generalizing handle node with
  | nil => exact here
  | cons codePoint rest ih =>
    unfold Packed.visited
    by_cases ends : codePoint = 0
    · simp only [ends, if_true]
      exact here
    · simp only [ends, if_false]
      rcases step_plan classOf packable sound found codePoint with
        ⟨-, after⟩ | ⟨word, -, after⟩ | ⟨payload, target, next, -, after, -, made, start⟩
      · rw [after]
        exact here
      · rw [after]
        exact here
      · obtain ⟨nextNode, nextFound⟩ := Option.isSome_iff_exists.mp made
        rw [after]
        simp only [start]
        intro offset mem
        rcases List.mem_cons.mp mem with rfl | later
        · exact here _ List.mem_cons_self
        · refine ih nextFound ?_ offset later
          intro other mem
          rw [List.mem_singleton.mp mem, nodeAt_plan table base classOf nextFound]
          rfl

end Plan

end Tailoring

namespace Session

/-- A packed table answers like the nodes that it was made from, for as long as those stay the same:
lookup by lookup, and so for every sequence of code points. -/
theorem packed_answers_like_nodes {session after : Session}
    (reached : session.tailoring.Reachable) {base : Nat} {classOf : UInt16 → UInt8}
    {answer : Answer} (succeeds : session.perform (.pack base classOf) = (.ok answer, after))
    {later : Tailoring} (nodes_same : later.nodes = session.tailoring.nodes)
    (packed_same : later.packed = after.tailoring.packed) {handle : Handle}
    (made : handle.index < later.nodes.size) :
    ∃ packed offset, later.packed = some packed ∧ packed.offset? handle = some offset ∧
      (∀ codePoint,
        Option.Rel (Element.Becomes packed.offsets) (later.lookup handle codePoint)
            (packed.lookupAt offset codePoint) ∧
          packed.lookup handle codePoint = packed.lookupAt offset codePoint) ∧
      ∀ sequence, packed.isTailoredAt offset sequence = later.isTailored handle sequence ∧
        ∀ stop ∈ packed.visited offset sequence, (packed.nodeAt stop).isSome = true := by
  have inRange : handle.index < session.tailoring.nodes.size := nodes_same ▸ made
  have nonempty : session.tailoring.nodes.isEmpty = false := by
    rw [Array.isEmpty_eq_false_iff, ← Array.size_pos_iff]
    exact Nat.lt_of_le_of_lt (Nat.zero_le _) inRange
  have packable := packable_of_perform_pack nonempty succeeds
  have sound := reached.sound
  have found : session.tailoring.node? handle = some session.tailoring.nodes[handle.index] :=
    Array.getElem?_eq_getElem inRange
  rw [perform_pack_of_packable nonempty packable] at succeeds
  obtain rfl : session.laidOut base classOf = after := (Prod.mk.inj succeeds).2
  have offset := Tailoring.offset?_plan session.table base classOf found
  refine ⟨_, _, packed_same, offset, ?_, ?_⟩
  · intro codePoint
    constructor
    · have related := Tailoring.lookupAt_plan classOf packable found codePoint
      rw [Tailoring.lookup_congr nodes_same, Tailoring.lookup, found]
      exact related
    · unfold Packed.lookup
      rw [offset, Option.bind_some]
  · intro sequence
    rw [Tailoring.isTailored_congr nodes_same]
    exact ⟨Tailoring.isTailoredAt_plan classOf packable sound found sequence,
      Tailoring.nodeAt_of_mem_visited classOf packable sound found sequence⟩

/-- In the ring both walks go round for as long as the sequence lasts. -/
theorem packed_answers_like_nodes_ring :
    ∃ packed offset,
      (ring.perform (.pack 7 fun _ => 0)).2.tailoring.packed = some packed ∧
        packed.offset? ⟨1, by decide⟩ = some offset ∧
        ∀ sequence, packed.isTailoredAt offset sequence =
          ring.tailoring.isTailored ⟨1, by decide⟩ sequence := by
  have outcome : (ring.perform (.pack 7 fun _ => 0)).1 = .ok (.count 4) := by decide +kernel
  let later : Tailoring :=
    { ring.tailoring with packed := (ring.perform (.pack 7 fun _ => 0)).2.tailoring.packed }
  have same : later.nodes = ring.tailoring.nodes := rfl
  have made : (⟨1, by decide⟩ : Handle).index < later.nodes.size := by decide +kernel
  obtain ⟨packed, offset, known, starts, -, walks⟩ :=
    packed_answers_like_nodes reachable_ring (Prod.ext outcome rfl) same rfl made
  refine ⟨packed, offset, known, starts, ?_⟩
  intro sequence
  rw [(walks sequence).1]
  exact Tailoring.isTailored_congr same _ sequence

end Session

end Contractions
