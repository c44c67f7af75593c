/-
# Contractions.Proofs.Splicing — sorted insertion is a splice of both rows.

In the stored form an insertion moves slots within two rows that know nothing of each other, after a
doubling of both if they were full.  What comes of it is `Rows.Spliced`: the listing of the pairs is
cut behind the longest front of smaller code points and the new pair is put in between, and nothing
else moves that a reader could tell.  The rows need not be sorted for that, and any places behind
those in use may hold anything.

The cut depends on the listing alone, so two insertions of different code points do not meet:
whichever comes first, both pairs end up in the same places (`Slot.insertSorted_comm`).  How much
room there is after an insertion depends on how many places are in use and not on what stands there
(`Node.room`). Hence several pairs with different code points may be inserted in any order, and the
rows come out the same to the last spare place, or are refused at the same point.
-/
import Contractions.Node.Cursor
import Contractions.Proofs.Doubling

namespace Contractions

/-! ## Two insertions -/

/-- Slots with different code points find their places independently of each other. -/
theorem Slot.insertSorted_comm {a b : Slot} (different : a.codePoint ≠ b.codePoint)
    (slots : List Slot) :
    insertSorted a (insertSorted b slots) = insertSorted b (insertSorted a slots) := by
  -- by symmetry the first of the two has the smaller code point
  wlog less : a.codePoint < b.codePoint generalizing a b
  · have greater := UInt16.lt_of_le_of_ne (UInt16.not_lt.mp less) different.symm
    exact (this different.symm greater).symm
  have notLess : ¬ b.codePoint < a.codePoint := UInt16.not_lt.mpr (UInt16.le_of_lt less)
  induction slots with
  | nil => simp only [insertSorted, less, notLess, if_true, if_false]
  | cons slot rest ih =>
    by_cases passesA : slot.codePoint < a.codePoint
    · have passesB := UInt16.lt_trans passesA less
      simp only [insertSorted, passesA, passesB, if_true, ih]
    · by_cases passesB : slot.codePoint < b.codePoint
      · simp only [insertSorted, passesA, passesB, less, if_true, if_false]
      · simp only [insertSorted, passesA, passesB, less, notLess, if_true, if_false]

namespace Node

variable {node edited : Node} {slot : Slot}

/-- The spare slots of a node that made sure of one, by how many slots are in use and which are
spare. -/
def room (used : Nat) (spare : List Slot) : Except Fault (List Slot) :=
  if spare.isEmpty then
    if Grantable elementBytes (2 * (used + spare.length)) then
      .ok (List.replicate (used + spare.length) .blank)
    else
      .error .outOfMemory
  else
    .ok spare

theorem grow_eq (node : Node) :
    node.grow = (room node.length node.spare).map fun spare => { node with spare } := by
  unfold grow room capacity
  split
  · split <;> rfl
  · rfl

theorem insert_eq (node : Node) (slot : Slot) :
    node.insert slot = (room node.length node.spare).map fun spare =>
      { node with pairs := Slot.insertSorted slot node.pairs, spare := spare.tail } := by
  unfold insert
  rw [grow_eq]
  cases room node.length node.spare <;> rfl

/-- To make sure of a spare slot is to do nothing, or to double a node without spare slots. -/
theorem room_cases {used : Nat} {spare granted : List Slot}
    (grants : room used spare = .ok granted) :
    granted = spare ∨ spare = [] ∧ granted = List.replicate used .blank := by
  unfold room at grants
  split at grants
  · rename_i none
    split at grants
    · obtain rfl := List.isEmpty_iff.mp none
      exact Or.inr ⟨rfl, (Except.ok.inj grants).symm⟩
    · cases grants
  · exact Or.inl (Except.ok.inj grants).symm

theorem room_eq_error_iff {used : Nat} {spare : List Slot} {fault : Fault} :
    room used spare = .error fault ↔
      fault = .outOfMemory ∧ spare = [] ∧ ¬ Grantable elementBytes (2 * used) := by
  unfold room
  cases spare with
  | nil =>
    simp only [List.isEmpty_nil, if_true, List.length_nil, Nat.add_zero, true_and]
    split
    · rename_i granted
      simp [granted]
    · rename_i refused
      simp only [Except.error.injEq, refused, not_false_iff, and_true, eq_comm]
  | cons first rest => simp

/-- Two insertions in a row, with their room worked out. -/
theorem insert_insert (node : Node) (a b : Slot) :
    (node.insert a >>= fun edited => edited.insert b) =
      (room node.length node.spare >>= fun granted => room (node.length + 1) granted.tail).map
        fun spare => { node with
          pairs := Slot.insertSorted b (Slot.insertSorted a node.pairs), spare := spare.tail } := by
  rw [insert_eq]
  cases room node.length node.spare with
  | error fault => rfl
  | ok granted =>
    show Node.insert _ b = _
    rw [insert_eq]
    simp only [length, Slot.length_insertSorted]
    rfl

/-- Two insertions of different code points may change places. -/
theorem insert_comm (node : Node) {a b : Slot} (different : a.codePoint ≠ b.codePoint) :
    (node.insert a >>= fun edited => edited.insert b) =
      (node.insert b >>= fun edited => edited.insert a) := by
  rw [insert_insert, insert_insert, Slot.insertSorted_comm different]

/-- Insertions of different code points may be made in any order. -/
theorem foldlM_insert_perm {slots others : List Slot} (perm : slots.Perm others)
    (distinct : (slots.map Slot.codePoint).Nodup) (node : Node) :
    slots.foldlM Node.insert node = others.foldlM Node.insert node := by
  induction perm generalizing node with
  | nil => rfl
  | cons slot _ ih =>
    obtain ⟨-, later⟩ := List.nodup_cons.mp distinct
    simp only [List.foldlM_cons, ih later]
  | swap a b rest =>
    obtain ⟨apart, -⟩ := List.nodup_cons.mp distinct
    have different : b.codePoint ≠ a.codePoint := fun same => apart (same ▸ List.mem_cons_self)
    simp only [List.foldlM_cons, ← bind_assoc]
    rw [insert_comm node different]
  | trans first _ ih₁ ih₂ =>
    exact (ih₁ distinct node).trans (ih₂ ((first.map Slot.codePoint).nodup_iff.mp distinct) node)

end Node

/-! ## Rows as nodes -/

namespace Rows

variable {rows after : Rows}

/-- Rows alike that are in use from the front store a node. -/
theorem Sound.exists_node (sound : rows.Sound) : ∃ node : Node, node.rows = rows := by
  obtain ⟨codePoints, words, used⟩ := rows
  obtain ⟨alike, reserved, within⟩ := sound
  simp only at alike reserved within
  let slots := List.zipWith Slot.mk codePoints words
  have length : slots.length = codePoints.length := by
    simp only [slots, List.length_zipWith]
    omega
  have first : slots.map Slot.codePoint = codePoints := by
    refine List.ext_getElem (by rw [List.length_map, length]) fun place _ _ => ?_
    simp [slots]
  have second : slots.map Slot.word = words := by
    refine List.ext_getElem (by rw [List.length_map, length, alike]) fun place _ _ => ?_
    simp [slots]
  have front : (slots.take used).length = used := by
    rw [List.length_take]
    omega
  obtain ⟨slot, pairs, split⟩ := List.exists_cons_of_length_pos (front.symm ▸ reserved)
  refine ⟨⟨slot, pairs, slots.drop used⟩, ?_⟩
  have row : Node.slots ⟨slot, pairs, slots.drop used⟩ = slots := by
    show slot :: pairs ++ slots.drop used = slots
    rw [← split, List.take_append_drop]
  have inUse : Node.length ⟨slot, pairs, slots.drop used⟩ = used := by
    show (slot :: pairs).length = used
    rw [← split, front]
  simp only [Node.rows, row, inUse, first, second]

/-- The pairs as a reader sees them. -/
def listing (rows : Rows) : Option (List Pair) :=
  rows.pairs.map (List.map Slot.pair)

theorem listing_rows (node : Node) : node.rows.listing = some (node.pairs.map Slot.pair) := by
  unfold listing
  rw [node.stored.pairs, Option.map_some]

/-- Insert several slots in turn, until one is refused. -/
def insertAll (rows : Rows) : List Slot → Option (Except Fault Rows)
  | [] => some (.ok rows)
  | slot :: slots => do
    match ← rows.insert slot with
    | .error fault => return .error fault
    | .ok after => after.insertAll slots

theorem insertAll_rows (node : Node) (slots : List Slot) :
    node.rows.insertAll slots = some ((slots.foldlM Node.insert node).map Node.rows) := by
  induction slots generalizing node with
  | nil => rfl
  | cons slot slots ih =>
    rw [insertAll, Node.insert_rows, List.foldlM_cons]
    cases node.insert slot with
    | error fault => rfl
    | ok edited => exact ih edited

/-! ## What an insertion makes of the rows -/

/-- Code points never decrease along a listing. -/
def Ascending (pairs : List Pair) : Prop :=
  pairs.Pairwise fun a b => a.1 ≤ b.1

theorem ascending_map_pair {slots : List Slot} :
    Ascending (slots.map Slot.pair) ↔ Slot.Sorted slots :=
  List.pairwise_map

/-- The rows after the insertion of a pair, beside the rows before it. -/
structure Spliced (before : Rows) (codePoint : UInt16) (element : Element) (after : Rows) :
    Prop where
  /-- The rows are still alike, and in use from the front. -/
  sound : after.Sound
  /-- One place more is in use. -/
  used_eq : after.used = before.used + 1
  /-- The first place keeps its code point and its word. -/
  codePoint_reserved : after.codePoints[0]? = before.codePoints[0]?
  word_reserved : after.words[0]? = before.words[0]?
  /-- The new pair, as it reads when it is stored, stands behind the longest front of pairs with
  smaller code points, and no pair is lost, doubled or torn. -/
  listing : ∃ front back, before.listing = some (front ++ back) ∧
    (∀ pair ∈ front, pair.1 < codePoint) ∧ (∀ pair ∈ back.head?, codePoint ≤ pair.1) ∧
    after.listing = some (front ++ (codePoint, .unpack element.pack) :: back)
  /-- Pairs in ascending order stay so. -/
  ascending : ∀ pairs pairs', before.listing = some pairs → after.listing = some pairs' →
    Ascending pairs → Ascending pairs'
  /-- Places behind those in use now are as they were. -/
  behind : ∀ place, after.used ≤ place → place < before.codePoints.length →
    after.codePoints[place]? = before.codePoints[place]? ∧
      after.words[place]? = before.words[place]?
  /-- So are new places, which are blank. -/
  blank : ∀ place, after.used ≤ place → before.codePoints.length ≤ place →
    place < after.codePoints.length →
    after.codePoints[place]? = some Slot.blank.codePoint ∧
      after.words[place]? = some Slot.blank.word

end Rows

namespace Node

variable {node edited : Node} {codePoint : UInt16} {element : Element}

theorem getElem?_slots_of_length_le {place : Nat} (behind : node.length ≤ place) :
    node.slots[place]? = node.spare[place - node.length]? := by
  rw [slots, List.getElem?_append_right (by rwa [length_logical]), length_logical]

/-- The pairs that move up for a code point start with one that is not smaller. -/
theorem not_lt_of_mem_head?_movedUp {slot : Slot} (first : slot ∈ (node.movedUp codePoint).head?) :
    ¬ slot.codePoint < codePoint := by
  have stops := List.head?_dropWhile_not (fun slot : Slot => decide (slot.codePoint < codePoint))
    node.pairs
  unfold movedUp at first
  rw [show List.head? _ = some slot from first] at stops
  simpa using stops

/-- Where two nodes have the same slot, or both have none, so have the two rows that are stored. -/
theorem rows_eq_of_slots {node other : Node} {place : Nat}
    (same : node.slots[place]? = other.slots[place]?) :
    node.rows.codePoints[place]? = other.rows.codePoints[place]? ∧
      node.rows.words[place]? = other.rows.words[place]? := by
  simp only [rows, List.getElem?_map, same, and_self]

/-- An insertion that is not refused, part by part. -/
theorem insert_eq_ok {slot : Slot} (inserts : node.insert slot = .ok edited) :
    ∃ granted, room node.length node.spare = .ok granted ∧ edited.reserved = node.reserved ∧
      edited.pairs = Slot.insertSorted slot node.pairs ∧ edited.spare = granted.tail := by
  rw [insert_eq] at inserts
  obtain ⟨granted, grants, rfl⟩ := Fault.map_eq_ok inserts
  exact ⟨granted, grants, rfl, rfl, rfl⟩

theorem length_insert {slot : Slot} (inserts : node.insert slot = .ok edited) :
    edited.length = node.length + 1 := by
  obtain ⟨granted, -, -, pairs, -⟩ := insert_eq_ok inserts
  rw [length, pairs, Slot.length_insertSorted, length]

/-- Behind the slots in use stand those that were granted, less the one that was taken. -/
theorem getElem?_slots_insert {slot : Slot} (inserts : node.insert slot = .ok edited) :
    ∃ granted, room node.length node.spare = .ok granted ∧
      edited.spare.length = granted.length - 1 ∧
      ∀ place, node.length + 1 ≤ place → edited.slots[place]? = granted[place - node.length]? := by
  have used := length_insert inserts
  obtain ⟨granted, grants, -, -, rest⟩ := insert_eq_ok inserts
  refine ⟨granted, grants, by rw [rest, List.length_tail], fun place beyond => ?_⟩
  rw [getElem?_slots_of_length_le (by rwa [used]), used, rest, List.getElem?_tail]
  congr 1
  omega

/-- Places that were there before and are not in use now hold what they held. -/
theorem slots_insert_behind {slot : Slot} (inserts : node.insert slot = .ok edited) {place : Nat}
    (beyond : node.length + 1 ≤ place) (inside : place < node.capacity) :
    edited.slots[place]? = node.slots[place]? := by
  obtain ⟨granted, grants, -, spare⟩ := getElem?_slots_insert inserts
  rw [spare place beyond, getElem?_slots_of_length_le (by omega)]
  rcases room_cases grants with rfl | ⟨none, -⟩
  · rfl
  · rw [capacity, none, List.length_nil] at inside
    omega

/-- Places that were not there before are blank. -/
theorem slots_insert_blank {slot : Slot} (inserts : node.insert slot = .ok edited) {place : Nat}
    (beyond : node.length + 1 ≤ place) (outside : node.capacity ≤ place)
    (within : place < edited.capacity) : edited.slots[place]? = some .blank := by
  have used := length_insert inserts
  obtain ⟨granted, grants, count, spare⟩ := getElem?_slots_insert inserts
  rw [capacity] at outside within
  rw [spare place beyond]
  rcases room_cases grants with rfl | ⟨none, rfl⟩
  · omega
  · rw [List.length_replicate] at count
    rw [List.getElem?_replicate, if_pos (by omega)]

/-- The listing is cut behind the longest front of smaller code points. -/
theorem listing_insert (inserts : node.insert (.of codePoint element) = .ok edited) :
    ∃ front back, node.rows.listing = some (front ++ back) ∧
      (∀ pair ∈ front, pair.1 < codePoint) ∧ (∀ pair ∈ back.head?, codePoint ≤ pair.1) ∧
      edited.rows.listing = some (front ++ (codePoint, .unpack element.pack) :: back) := by
  obtain ⟨granted, -, -, pairs, -⟩ := insert_eq_ok inserts
  refine ⟨(node.pairs.takeWhile (·.codePoint < codePoint)).map Slot.pair,
    (node.movedUp codePoint).map Slot.pair, ?_, ?_, ?_, ?_⟩
  · rw [Rows.listing_rows, ← List.map_append, movedUp, List.takeWhile_append_dropWhile]
  · intro pair mem
    obtain ⟨slot, inFront, rfl⟩ := List.mem_map.mp mem
    exact of_decide_eq_true (List.all_eq_true.mp List.all_takeWhile slot inFront)
  · intro pair mem
    rw [List.head?_map] at mem
    obtain ⟨slot, head, rfl⟩ := Option.map_eq_some_iff.mp mem
    exact UInt16.not_lt.mp (not_lt_of_mem_head?_movedUp head)
  · rw [Rows.listing_rows, pairs, Slot.insertSorted_eq, List.map_append, List.map_cons]
    rfl

theorem ascending_insert (inserts : node.insert (.of codePoint element) = .ok edited)
    {before after : List Pair} (listed : node.rows.listing = some before)
    (lists : edited.rows.listing = some after) (ascending : Rows.Ascending before) :
    Rows.Ascending after := by
  obtain ⟨granted, -, -, pairs, -⟩ := insert_eq_ok inserts
  rw [Rows.listing_rows, Option.some.injEq] at listed lists
  subst listed lists
  have sorted : Slot.Sorted node.pairs := Rows.ascending_map_pair.mp ascending
  rw [pairs]
  exact Rows.ascending_map_pair.mpr (sorted.insertSorted (.of codePoint element))

theorem spliced_of_insert (inserts : node.insert (.of codePoint element) = .ok edited) :
    node.rows.Spliced codePoint element edited.rows := by
  obtain ⟨granted, -, reserved, -, -⟩ := insert_eq_ok inserts
  have used := length_insert inserts
  have zero := rows_eq_of_slots (show edited.slots[0]? = node.slots[0]? from congrArg some reserved)
  exact {
    sound := sound_rows _
    used_eq := used
    codePoint_reserved := zero.1
    word_reserved := zero.2
    listing := listing_insert inserts
    ascending := fun _ _ => ascending_insert inserts
    behind := by
      intro place beyond inside
      rw [used_rows, used] at beyond
      rw [length_codePoints_rows] at inside
      exact rows_eq_of_slots (slots_insert_behind inserts beyond inside)
    blank := by
      intro place beyond outside within
      rw [used_rows, used] at beyond
      rw [length_codePoints_rows] at outside within
      have slot := slots_insert_blank inserts beyond outside within
      simp only [rows, List.getElem?_map, slot, Option.map_some, and_self] }

end Node

namespace Rows

/-! ## The law of sorted insertion -/

/-- An insertion into rows that are alike and in use from the front never strays from them, is
refused only where all places are in use and twice as many cannot be granted, and otherwise is a
splice. Slots with different code points may be inserted in any order. -/
theorem insert_splices {rows : Rows} (sound : rows.Sound) :
    (∀ codePoint element,
      (∃ after, rows.insert (.of codePoint element) = some (.ok after) ∧
          rows.Spliced codePoint element after) ∨
        rows.insert (.of codePoint element) = some (.error .outOfMemory) ∧
          rows.used = rows.codePoints.length ∧
          ¬ Grantable elementBytes (2 * rows.codePoints.length)) ∧
      ∀ slots others : List Slot, slots.Perm others → (slots.map Slot.codePoint).Nodup →
        rows.insertAll slots = rows.insertAll others ∧ rows.insertAll slots ≠ none := by
  obtain ⟨node, rfl⟩ := sound.exists_node
  constructor
  · intro codePoint element
    rw [Node.insert_rows]
    cases inserts : node.insert (.of codePoint element) with
    | ok edited => exact Or.inl ⟨edited.rows, rfl, Node.spliced_of_insert inserts⟩
    | error fault =>
      right
      rw [Node.insert_eq] at inserts
      obtain ⟨rfl, none, refused⟩ := Node.room_eq_error_iff.mp (Fault.map_eq_error inserts)
      have full : node.length = node.capacity := by
        rw [Node.capacity, none, List.length_nil, Nat.add_zero]
      rw [Node.used_rows, Node.length_codePoints_rows, ← full]
      exact ⟨rfl, rfl, refused⟩
  · intro slots others perm distinct
    rw [insertAll_rows, insertAll_rows, Node.foldlM_insert_perm perm distinct]
    exact ⟨rfl, Option.some_ne_none _⟩

/-- Rows with three pairs that are not in order and no place left.  The new pair goes behind the
first one, and two pairs may be inserted either way round. -/
theorem insert_splices_unsorted :
    let rows : Rows := { codePoints := [0, 3, 9, 4], words := [70, 71, 72, 73], used := 4 }
    rows.Sound ∧
      (∃ after, rows.insert (.of 5 (.direct 6)) = some (.ok after) ∧
        rows.Spliced 5 (.direct 6) after ∧ after.codePoints.take 5 = [0, 3, 5, 9, 4]) ∧
      rows.insertAll [⟨5, 6⟩, ⟨4, 8⟩] = rows.insertAll [⟨4, 8⟩, ⟨5, 6⟩] := by
  intro rows
  have sound : rows.Sound := ⟨rfl, by decide, by decide⟩
  obtain ⟨each, orders⟩ := insert_splices sound
  refine ⟨sound, ?_, (orders _ _ (.swap _ _ []) (by decide)).1⟩
  rcases each 5 (.direct 6) with ⟨after, inserts, spliced⟩ | ⟨-, -, refused⟩
  · refine ⟨after, inserts, spliced, ?_⟩
    have outcome : (rows.insert (.of 5 (.direct 6))).map (Except.map fun after =>
        after.codePoints.take 5) = some (.ok [0, 3, 5, 9, 4]) := by decide +kernel
    rw [inserts] at outcome
    simpa [Except.map] using outcome
  · exact absurd (by decide) refused

end Rows

end Contractions
