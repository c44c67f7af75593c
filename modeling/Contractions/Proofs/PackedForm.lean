/-
# Contractions.Proofs.PackedForm — what a successful packing leaves behind, in full.

`Packed.Lays` describes a packed table beside the nodes that it was made from, without a word on
how it was made: how many slots, where each slice starts, and the two rows of code points and
words. `MainTable.Readdressed` describes what happened to the main table.  Both speak of one
relation, `Element.PointsTo`: an element is the reference to the offset of the node that a payload
names, and the offset is the whole of what it carries, so nothing was cut off.

The result holds from any state, reachable or not: a packing that succeeds on some nodes leaves a
packed table that lays exactly these nodes, and a main table readdressed by the offsets of that
table.
-/
import Contractions.Proofs.Upkeep
import Mathlib.Data.List.Forall2

namespace Contractions

/-! ## Elements that point -/

/-- An element refers to the offset of the node that a payload names. -/
def Element.PointsTo (offsets : Array Nat) (payload : UInt32) (element : Element) : Prop :=
  ∃ target, element = .reference target ∧ offsets[payload.toNat]? = some target.toNat

/-- What becomes of one word: the handle in a reference is replaced by an offset, once, and any other
word stays the same bit for bit. -/
def BecomesWord (offsets : Array Nat) (before after : UInt32) : Prop :=
  match Element.unpack before with
  | .direct _ => after = before
  | .reference payload => (Element.unpack after).PointsTo offsets payload

/-- An offset that fits is not cut off when it is stored. -/
theorem unpack_pack_offset {offset : Nat} (fits : offset ≤ maxOffset) :
    Element.unpack (Element.reference offset.toUInt32).pack = .reference offset.toUInt32 ∧
      offset.toUInt32.toNat = offset := by
  have bound : offset ≤ 2 ^ 24 - 1 := fits
  have same : offset.toUInt32.toNat = offset := by
    simp only [Nat.toUInt32_eq, UInt32.toNat_ofNat']
    omega
  refine ⟨Element.unpack_pack_reference ?_, same⟩
  rw [same]
  omega

theorem pointsTo_movePayload {offsets : Array Nat} {payload : UInt32}
    (fits : ∀ offset ∈ offsets, offset ≤ maxOffset) (named : payload.toNat < offsets.size) :
    (Element.unpack (movePayload offsets payload)).PointsTo offsets payload := by
  have found : offsets[payload.toNat]? = some offsets[payload.toNat] :=
    Array.getElem?_eq_getElem named
  obtain ⟨read, same⟩ := unpack_pack_offset (fits _ (Array.getElem_mem named))
  refine ⟨offsets[payload.toNat].toUInt32, ?_, by rw [found, same]⟩
  unfold movePayload
  rw [Array.getD_eq_getD_getElem?, found, Option.getD_some]
  exact read

theorem becomesWord_moveWord {offsets : Array Nat} {word : UInt32}
    (fits : ∀ offset ∈ offsets, offset ≤ maxOffset) (named : NamesBelow offsets.size word) :
    BecomesWord offsets word (moveWord offsets word) := by
  unfold BecomesWord moveWord
  cases read : Element.unpack word with
  | direct other => rfl
  | reference payload => exact pointsTo_movePayload fits (named payload read)

/-! ## The packed table beside the nodes -/

/-- A packed table lays some nodes end to end from a base on. -/
structure Packed.Lays (packed : Packed) (base : Nat) (classOf : UInt16 → UInt8)
    (nodes : List Node) : Prop where
  base_eq : packed.base = base
  /-- There are as many slots as the nodes have in use together. -/
  length_eq : packed.length = (nodes.map Node.length).sum
  /-- There is one offset for each node. -/
  count_eq : packed.offsets.size = nodes.length
  /-- A slice starts behind the slots of the nodes before it. -/
  offset_eq : ∀ index, index < nodes.length →
    packed.offsets[index]? = some (base + ((nodes.take index).map Node.length).sum)
  /-- In a slice the summary of the classes comes first and the code points of the pairs follow. -/
  codePoints_eq : packed.slots.toList.map Slot.codePoint =
    nodes.flatMap fun node =>
      (ClassSummary.of classOf (node.pairs.map Slot.codePoint)).bits ::
        node.pairs.map Slot.codePoint
  /-- The words are those in use, the reserved one among them, each readdressed once. -/
  words_become : List.Forall₂ (BecomesWord packed.offsets)
    (nodes.flatMap fun node => node.logical.map Slot.word) (packed.slots.toList.map Slot.word)

theorem Node.codePoints_moved (node : Node) (offsets : Array Nat) (classOf : UInt16 → UInt8) :
    (node.moved offsets classOf).map Slot.codePoint =
      (ClassSummary.of classOf (node.pairs.map Slot.codePoint)).bits ::
        node.pairs.map Slot.codePoint := by
  simp [Node.moved, Node.summarized, moveSlot]

theorem Node.words_moved (node : Node) (offsets : Array Nat) (classOf : UInt16 → UInt8) :
    (node.moved offsets classOf).map Slot.word =
      (node.logical.map Slot.word).map (moveWord offsets) := by
  simp [Node.moved, Node.summarized, Node.logical, moveSlot]

namespace Tailoring

variable {tailoring : Tailoring} {table : MainTable} {base : Nat}

theorem Packable.offsets_fit (packable : tailoring.Packable table base) :
    ∀ offset ∈ startsOf base tailoring.nodes.toList, offset ≤ maxOffset :=
  fun offset mem => packable.fits offset (List.mem_toArray.mp mem)

/-- Where nothing is in the way, every word in use becomes what it should. -/
theorem Packable.becomes_word (packable : tailoring.Packable table base) {node : Node}
    (made : node ∈ tailoring.nodes.toList) {slot : Slot} (inUse : slot ∈ node.logical) :
    BecomesWord (startsOf base tailoring.nodes.toList) slot.word
      (moveWord (startsOf base tailoring.nodes.toList) slot.word) := by
  apply becomesWord_moveWord packable.offsets_fit
  rw [size_startsOf]
  exact packable.nodes_named node made slot inUse

theorem Packable.words_become (packable : tailoring.Packable table base)
    (classOf : UInt16 → UInt8) :
    List.Forall₂ (BecomesWord (startsOf base tailoring.nodes.toList))
      (tailoring.nodes.toList.flatMap fun node => node.logical.map Slot.word)
      ((tailoring.nodes.toList.flatMap fun node =>
        node.moved (startsOf base tailoring.nodes.toList) classOf).map Slot.word) := by
  -- the row of moved words is the row of words, moved one by one
  have row : ∀ nodes : List Node, ∀ offsets : Array Nat,
      (nodes.flatMap fun node => node.moved offsets classOf).map Slot.word =
        (nodes.flatMap fun node => node.logical.map Slot.word).map (moveWord offsets) := by
    intro nodes offsets
    simp only [List.map_flatMap, Node.words_moved]
  rw [row, List.forall₂_map_right_iff, List.forall₂_same]
  intro word mem
  obtain ⟨node, made, inNode⟩ := List.mem_flatMap.mp mem
  obtain ⟨slot, inUse, rfl⟩ := List.mem_map.mp inNode
  exact packable.becomes_word made inUse

theorem Packable.lays (packable : tailoring.Packable table base) (classOf : UInt16 → UInt8) :
    (tailoring.plan table base classOf).packed.Lays base classOf tailoring.nodes.toList where
  base_eq := rfl
  length_eq := (length_flatMap_moved _ _ _).trans (slotCount_eq_sum _)
  count_eq := size_startsOf base _
  offset_eq := by
    intro index inRange
    rw [← slotCount_eq_sum]
    exact getElem?_startsOf base inRange
  codePoints_eq := by
    show (tailoring.nodes.toList.flatMap fun node =>
      node.moved (startsOf base tailoring.nodes.toList) classOf).map Slot.codePoint = _
    rw [List.map_flatMap]
    simp only [Node.codePoints_moved]
  words_become := packable.words_become classOf

end Tailoring

/-! ## The main table before and after -/

/-- A main table was readdressed: the references in it, remembered ones read back first, point to
offsets now, and every other code point has the word it had. -/
structure MainTable.Readdressed (before : MainTable) (memory : Array Relocation)
    (offsets : Array Nat) (after : MainTable) : Prop where
  size_eq : after.size = before.size
  referring : ∀ codePoint payload, before.Refers memory codePoint payload →
    (Element.unpack (after.get codePoint)).PointsTo offsets payload
  untouched : ∀ codePoint, (∀ payload, ¬ before.Refers memory codePoint payload) →
    after.get codePoint = before.get codePoint

/-- A code point that refers to a node is written what its reference moves to. -/
theorem MainTable.get_relocated_of_refers {table : MainTable} {memory : Array Relocation}
    {codePoint : UInt16} {payload : UInt32} (refers : table.Refers memory codePoint payload)
    (offsets : Array Nat) :
    (table.relocated ((table.references memory).map (moveReference offsets)).toArray).get codePoint =
      movePayload offsets payload := by
  apply get_relocated_of_mem refers.1
  · refine ⟨moveReference offsets (codePoint, payload), ?_, rfl⟩
    exact List.mem_toArray.mpr (List.mem_map_of_mem (mem_references.mpr refers))
  · intro relocation mem names
    obtain ⟨⟨found, other⟩, listed, rfl⟩ := List.mem_map.mp (List.mem_toArray.mp mem)
    obtain rfl : found = codePoint := names
    -- a code point is listed with the one handle that it refers to
    rw [refers.unique (mem_references.mp listed)]
    rfl

/-- Only code points that refer to a node are written. -/
theorem MainTable.codePoint_ne_of_mem_moved {table : MainTable} {memory : Array Relocation}
    {codePoint : UInt16} (other : ∀ payload, ¬ table.Refers memory codePoint payload)
    (offsets : Array Nat) :
    ∀ relocation ∈ ((table.references memory).map (moveReference offsets)).toArray,
      relocation.codePoint ≠ codePoint := by
  intro relocation mem names
  obtain ⟨⟨found, payload⟩, listed, rfl⟩ := List.mem_map.mp (List.mem_toArray.mp mem)
  obtain rfl : found = codePoint := names
  exact other payload (mem_references.mp listed)

theorem Tailoring.Packable.readdressed {tailoring : Tailoring} {table : MainTable} {base : Nat}
    (packable : tailoring.Packable table base) (classOf : UInt16 → UInt8) :
    table.Readdressed tailoring.memory (tailoring.plan table base classOf).packed.offsets
      (table.relocated (tailoring.plan table base classOf).relocations) where
  size_eq := MainTable.size_relocated _ _
  referring := by
    intro codePoint payload refers
    have written : (table.relocated (tailoring.plan table base classOf).relocations).get codePoint =
        movePayload (startsOf base tailoring.nodes.toList) payload :=
      MainTable.get_relocated_of_refers refers _
    rw [written]
    apply pointsTo_movePayload packable.offsets_fit
    rw [size_startsOf]
    exact packable.table_named (codePoint, payload) (MainTable.mem_references.mpr refers)
  untouched := fun _ other =>
    MainTable.get_relocated_of_forall_ne (MainTable.codePoint_ne_of_mem_moved other _)

/-! ## The whole packing -/

namespace Session

/-- A packing that succeeds on some nodes found nothing in its way. -/
theorem packable_of_perform_pack {session after : Session} {base : Nat} {classOf : UInt16 → UInt8}
    {answer : Answer} (some : session.tailoring.nodes.isEmpty = false)
    (packed : session.perform (.pack base classOf) = (.ok answer, after)) :
    session.tailoring.Packable session.table base := by
  by_contra blocked
  obtain ⟨fault, -, refused⟩ := perform_pack_of_not_packable some blocked classOf
  rw [refused] at packed
  cases packed

/-- The exact result of a packing: how many slots it answers, the packed table, the main table, and
that the tailoring itself is otherwise as it was. -/
theorem perform_pack_exact {session after : Session} {base : Nat} {classOf : UInt16 → UInt8}
    {answer : Answer} (some : session.tailoring.nodes ≠ #[])
    (succeeds : session.perform (.pack base classOf) = (.ok answer, after)) :
    answer = .count (session.tailoring.nodes.toList.map Node.length).sum ∧
      ∃ packed memory,
        after.tailoring = { session.tailoring with packed := Option.some packed, memory } ∧
        packed.Lays base classOf session.tailoring.nodes.toList ∧
        session.table.Readdressed session.tailoring.memory packed.offsets after.table := by
  have nonempty : session.tailoring.nodes.isEmpty = false := by simpa using some
  have packable := packable_of_perform_pack nonempty succeeds
  rw [perform_pack_of_packable nonempty packable] at succeeds
  simp only [Prod.mk.injEq, Except.ok.injEq] at succeeds
  obtain ⟨rfl, rfl⟩ := succeeds
  rw [← slotCount_eq_sum]
  exact ⟨rfl, _, _, rfl, packable.lays classOf, packable.readdressed classOf⟩

/-- Packing the ring of two nodes succeeds, so it has the exact result. -/
theorem perform_pack_exact_ring :
    ring.tailoring.nodes ≠ #[] ∧
      (ring.perform (.pack 7 fun _ => 0)).1 = .ok (.count 4) ∧
      ∃ packed memory,
        (ring.perform (.pack 7 fun _ => 0)).2.tailoring =
          { ring.tailoring with packed := some packed, memory } ∧
        packed.Lays 7 (fun _ => 0) ring.tailoring.nodes.toList ∧
        ring.table.Readdressed ring.tailoring.memory packed.offsets
          (ring.perform (.pack 7 fun _ => 0)).2.table := by
  have nonempty : ring.tailoring.nodes ≠ #[] := by decide +kernel
  have outcome : (ring.perform (.pack 7 fun _ => 0)).1 = .ok (.count 4) := by decide +kernel
  exact ⟨nonempty, outcome, (perform_pack_exact nonempty (Prod.ext outcome rfl)).2⟩

end Session

end Contractions
