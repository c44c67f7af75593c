/-
# Contractions.Proofs.Filling — the two rows of a packed table are filled alike.

`PackedRows.lay` fills a row of code points and a row of words, each from the rows of the nodes and
with no regard to the other.  The two could part wherever a node has more places in use in one of its
rows than in the other, or where a cut is off by one.  On the stored form of nodes they never do: what
is put at the end of either row belongs to the same slots (`PackedRows.fill_rows`), so along all nodes
the rows stay the two halves of one row of slots, and the layout is the one that `Packed.ofNodes` comes
to, or it is refused for the same reason (`PackedRows.lay_rows`).
-/
import Mathlib.Data.Set.List
import Contractions.Proofs.Effects
import Contractions.Proofs.Splicing
import Contractions.Tailoring.FillRows

namespace Contractions

/-! ## Slots and their words -/

/-- Slots are relocated as their words are, and keep their code points. -/
theorem map_mapM_relocateSlot {β : Type} (offsets : Array Nat) (slots : List Slot)
    (f : List UInt16 → List UInt32 → β) :
    (slots.mapM (relocateSlot offsets)).map
        (fun moved => f (moved.map Slot.codePoint) (moved.map Slot.word)) =
      ((slots.map Slot.word).mapM (relocateWord offsets)).map (f (slots.map Slot.codePoint)) := by
  induction slots generalizing f with
  | nil => rfl
  | cons slot slots ih =>
    rw [List.mapM_cons, List.map_cons, List.map_cons, List.mapM_cons, relocateSlot]
    cases relocateWord offsets slot.word with
    | error fault => rfl
    | ok word =>
      refine Eq.trans ?_ ((ih fun codePoints words =>
        f (slot.codePoint :: codePoints) (word :: words)).trans ?_)
      · cases slots.mapM (relocateSlot offsets) <;> rfl
      · cases (slots.map Slot.word).mapM (relocateWord offsets) <;> rfl

namespace PackedRows

/-! ## The offsets -/

/-- The offsets are where the slices start, and the last slice stops behind the slots of all nodes. -/
theorem place_rows (offsets : Array Nat) (next : Nat) (nodes : List Node) :
    place offsets next (nodes.map Node.rows) =
      match (slotStarts next nodes).find? (maxOffset < ·) with
      | some start => .error (.offsetOverflow start)
      | none => .ok (offsets ++ (slotStarts next nodes).toArray, next + slotCount nodes) := by
  induction nodes generalizing offsets next with
  | nil => simp [place, slotStarts]
  | cons node nodes ih =>
    rw [List.map_cons, place, slotStarts, List.find?_cons, slotCount_cons]
    by_cases fits : next ≤ maxOffset
    · have passed : decide (maxOffset < next) = false := decide_eq_false (Nat.not_lt.mpr fits)
      rw [if_pos fits, ih, passed, Node.used_rows, Nat.add_assoc]
      cases (slotStarts (next + node.length) nodes).find? (maxOffset < ·) with
      | some start => rfl
      | none => simp
    · have stops : decide (maxOffset < next) = true := decide_eq_true (Nat.lt_of_not_le fits)
      rw [if_neg fits, stops]

theorem place_empty_rows (base : Nat) (nodes : List Node) :
    place #[] base (nodes.map Node.rows) =
      (placeNodes base nodes).map fun offsets => (offsets, base + slotCount nodes) := by
  rw [place_rows]
  unfold placeNodes
  simp only [Array.empty_append]
  cases (slotStarts base nodes).find? (maxOffset < ·) <;> rfl

/-! ## The rows -/

/-- The table with some slots at the end of its rows. -/
def extended (table : PackedRows) (slots : List Slot) : PackedRows :=
  { table with
    codePoints := table.codePoints ++ slots.map Slot.codePoint
    words := table.words ++ slots.map Slot.word }

@[simp] theorem offsets_extended (table : PackedRows) (slots : List Slot) :
    (table.extended slots).offsets = table.offsets := rfl

theorem extended_append (table : PackedRows) (front back : List Slot) :
    table.extended (front ++ back) = (table.extended front).extended back := by
  simp [extended]

@[simp] theorem extended_nil (table : PackedRows) : table.extended [] = table := by
  simp [extended]

/-- No cut goes astray, and what is put at the end of either row belongs to the same slots: those of
the slice. -/
theorem fill_rows (table : PackedRows) (classOf : UInt16 → UInt8) (node : Node) :
    table.fill classOf node.rows =
      some ((packNode table.offsets classOf node).map table.extended) := by
  have pairs : Row.behind (node.logical.map Slot.codePoint) 1 =
      some (node.pairs.map Slot.codePoint) := if_pos (Nat.succ_le_succ (Nat.zero_le _))
  unfold fill packNode
  rw [Node.codePointsInUse_rows, Node.wordsInUse_rows]
  simp only [Option.bind_eq_bind, Option.bind_some, pairs]
  -- the summary stands in front of the code points, and the word beside it is the reserved one
  have row := map_mapM_relocateSlot table.offsets (node.summarized classOf) fun codePoints words =>
    { table with codePoints := table.codePoints ++ codePoints, words := table.words ++ words }
  exact congrArg some row.symm

theorem packNodes_cons (offsets : Array Nat) (classOf : UInt16 → UInt8) (node : Node)
    (nodes : List Node) :
    packNodes offsets classOf (node :: nodes) =
      (packNode offsets classOf node).bind fun slots =>
        (packNodes offsets classOf nodes).map (slots ++ ·) := by
  unfold packNodes
  rw [List.mapM_cons]
  cases packNode offsets classOf node with
  | error fault => rfl
  | ok slots =>
    show Except.map _ (Except.bind _ _) = _
    cases nodes.mapM (packNode offsets classOf) <;> rfl

/-- So it is along all nodes. -/
theorem fillAll_rows (table : PackedRows) (classOf : UInt16 → UInt8) (nodes : List Node) :
    table.fillAll classOf (nodes.map Node.rows) =
      some ((packNodes table.offsets classOf nodes).map table.extended) := by
  induction nodes generalizing table with
  | nil =>
    have same : some (Except.ok table) = some (Except.ok (ε := Fault) (table.extended [])) := by
      rw [extended_nil]
    exact same
  | cons node nodes ih =>
    rw [List.map_cons, fillAll, fill_rows, packNodes_cons]
    simp only [Option.bind_eq_bind, Option.bind_some]
    cases packNode table.offsets classOf node with
    | error fault => rfl
    | ok slots =>
      simp only [Except.map, ih, offsets_extended, Except.bind]
      cases packNodes table.offsets classOf nodes with
      | error fault => rfl
      | ok others => exact congrArg (some ∘ Except.ok) (table.extended_append slots others).symm

end PackedRows

/-! ## The layout -/

namespace PackedRows

/-- Laying out the stored form of nodes never goes astray.  It comes to the stored form of their packed
table, or is refused for the same reason as that. -/
theorem lay_rows (base : Nat) (classOf : UInt16 → UInt8) (nodes : List Node) :
    lay base classOf (nodes.map Node.rows) =
      some ((Packed.ofNodes base classOf nodes).map Packed.rows) := by
  unfold lay Packed.ofNodes
  rw [place_empty_rows]
  cases placeNodes base nodes with
  | error fault => rfl
  | ok offsets =>
    have count : relative { base, codePoints := [], words := [], offsets } (base + slotCount nodes) =
        some (slotCount nodes) := by
      rw [relative, if_pos (Nat.le_add_right _ _), Nat.add_sub_cancel_left]
    simp only [Except.map, Fault.ok_bind, Option.bind_eq_bind, count, Option.bind_some]
    by_cases granted : Grantable elementBytes (slotCount nodes)
    · simp only [granted, not_true, if_true, if_false, fillAll_rows]
      cases packNodes offsets classOf nodes with
      | error fault => rfl
      | ok slots => rfl
    · simp only [granted, not_false_eq_true, if_true, if_false]
      rfl

/-- Whatever nodes are stored, as long as the rows of each are alike and in use from the front, laying
them out never goes astray, and the two rows that it fills are as long as each other: there is a place
for each place in use. -/
theorem lay_alike {nodes : List Rows} (sound : ∀ rows ∈ nodes, rows.Sound) (base : Nat)
    (classOf : UInt16 → UInt8) :
    ∃ outcome, lay base classOf nodes = some outcome ∧ ∀ table, outcome = .ok table →
      table.base = base ∧ table.offsets.size = nodes.length ∧
        table.codePoints.length = (nodes.map Rows.used).sum ∧
        table.words.length = (nodes.map Rows.used).sum := by
  obtain ⟨stored, rfl⟩ : nodes ∈ Set.range (List.map Node.rows) := by
    rw [Set.range_list_map]
    exact fun rows mem => (sound rows mem).exists_node
  refine ⟨_, lay_rows base classOf stored, fun table laid => ?_⟩
  obtain ⟨packed, made, rfl⟩ := Fault.map_eq_ok laid
  obtain ⟨-, rfl⟩ := (Packed.ofNodes_settles base classOf stored packed).mp made
  have count : (stored.map Node.rows |>.map Rows.used).sum = slotCount stored := by
    rw [slotCount_eq_sum, List.map_map]
    rfl
  have length := length_flatMap_moved stored (startsOf base stored) classOf
  refine ⟨rfl, ?_, ?_, ?_⟩
  · rw [List.length_map]
    exact size_startsOf base stored
  · rw [count, ← length]
    exact List.length_map _
  · rw [count, ← length]
    exact List.length_map _

end PackedRows

/-- Where nothing is in the way of a packing, the packed table is stored as the nodes laid out from
their stored form. -/
theorem Tailoring.Packable.lay_eq {tailoring : Tailoring} {table : MainTable} {base : Nat}
    (packable : tailoring.Packable table base) (classOf : UInt16 → UInt8) :
    PackedRows.lay base classOf (tailoring.nodes.toList.map Node.rows) =
      some (.ok (tailoring.plan table base classOf).packed.rows) := by
  have settles := Packed.ofNodes_settles base classOf tailoring.nodes.toList
  have made := settles.eq_ok ⟨packable.fits, packable.granted, packable.nodes_named⟩
  rw [PackedRows.lay_rows, made]
  rfl

end Contractions
