/-
# Contractions.Proofs.Partition — the slices of a packed table partition its rows.

Three facts about a packed table, `Packed.WellCut`, carry all that is said here: the first offset is
the base, the offsets ascend strictly, and the last of them lies inside.  Every packed table that a
tailoring can come to have is well cut, because no node is empty.

From that it follows that the slices have slots, that they follow one another without gap or overlap,
and that every cut stays within the rows.  The interval search is exact, since the offsets ascend; so
an offset shows a slice only where that slice starts, and whatever an offset shows the handle shows
too.

All of this is about the stored rows.  They come about in two parts, one beside the other, and
`Contractions.Proofs.Filling` says why they are alike.
-/
import Contractions.Proofs.Filling

namespace Contractions

/-! ## Cutting a row -/

theorem Row.between_eq {α : Type} {row : List α} {first stop : Nat} (ordered : first ≤ stop)
    (within : stop ≤ row.length) : between row first stop = some ((row.take stop).drop first) :=
  if_pos ⟨ordered, within⟩

/-- A cut and what stands behind it are what stands behind its start. -/
theorem drop_take_append_drop {α : Type} {first stop : Nat} (ordered : first ≤ stop)
    (row : List α) : (row.take stop).drop first ++ row.drop stop = row.drop first := by
  rw [List.drop_take, show row.drop stop = (row.drop first).drop (stop - first) by
    rw [List.drop_drop, Nat.add_sub_cancel' ordered], List.take_append_drop]

namespace Packed

/-- The slices of a packed table start at the base, each behind the one before, and all of them
inside. -/
structure WellCut (packed : Packed) : Prop where
  first : packed.offsets[0]? = some packed.base
  ascends : Ascends id packed.offsets
  inside : ∀ offset ∈ packed.offsets, offset < packed.base + packed.length

@[simp] theorem offsets_rows (packed : Packed) : packed.rows.offsets = packed.offsets := rfl

/-- Where the slice with a number stops: where the next one starts, or at the end. -/
def stop (packed : Packed) (index : Nat) : Nat :=
  packed.offsets[index + 1]?.getD (packed.base + packed.length)

namespace WellCut

variable {packed : Packed} (cut : packed.WellCut) {index offset : Nat}
include cut

theorem size_pos : 0 < packed.offsets.size := (Array.getElem?_eq_some_iff.mp cut.first).1

theorem offset_lt {later next : Nat} (starts : packed.offsets[index]? = some offset)
    (follows : packed.offsets[later]? = some next) (before : index < later) : offset < next := by
  obtain ⟨inRange, rfl⟩ := Array.getElem?_eq_some_iff.mp starts
  obtain ⟨inRange', rfl⟩ := Array.getElem?_eq_some_iff.mp follows
  exact cut.ascends.key_lt (show (⟨index, inRange⟩ : Fin _) < ⟨later, inRange'⟩ from before)

theorem base_le (starts : packed.offsets[index]? = some offset) : packed.base ≤ offset := by
  rcases Nat.eq_zero_or_pos index with rfl | behind
  · exact Nat.le_of_eq (Option.some.inj (cut.first.symm.trans starts))
  · exact Nat.le_of_lt (cut.offset_lt cut.first starts behind)

/-- A slice has slots, and ends within the table. -/
theorem stop_bounds (starts : packed.offsets[index]? = some offset) :
    offset < packed.stop index ∧ packed.stop index ≤ packed.base + packed.length := by
  unfold stop
  cases follows : packed.offsets[index + 1]? with
  | none => exact ⟨cut.inside offset (Array.mem_of_getElem? starts), Nat.le_refl _⟩
  | some next =>
    exact ⟨cut.offset_lt starts follows (Nat.lt_succ_self index),
      Nat.le_of_lt (cut.inside next (Array.mem_of_getElem? follows))⟩

/-! ## The stored form -/

/-- No cut goes astray, and either row is cut as the row of slots is. -/
theorem slice_rows (index : Nat) :
    packed.rows.slice index = some ((packed.slice index).map Slot.unzip) := by
  unfold PackedRows.slice slice
  rw [offsets_rows]
  cases starts : packed.offsets[index]? with
  | none => rfl
  | some offset =>
    have above := cut.base_le starts
    obtain ⟨some, within⟩ := cut.stop_bounds starts
    have relative : packed.rows.relative offset = .some (offset - packed.base) := if_pos above
    have stop : packed.rows.stop index = .some (packed.stop index - packed.base) := by
      unfold PackedRows.stop Packed.stop
      rw [offsets_rows]
      cases follows : packed.offsets[index + 1]? with
      | none =>
        simp only [Option.getD_none, Nat.add_sub_cancel_left]
        exact congrArg Option.some (by simp [rows, Slot.unzip, length])
      | some next => exact if_pos (cut.base_le follows)
    have cuts : ∀ {β : Type} (part : Slot → β),
        Row.between (packed.slots.toList.map part) (offset - packed.base)
            (packed.stop index - packed.base) =
          .some ((packed.slots.extract (offset - packed.base)
            (packed.stop index - packed.base)).toList.map part) := by
      intro β part
      have length : (packed.slots.toList.map part).length = packed.length := by simp [length]
      rw [Row.between_eq (by omega) (by omega), Array.toList_extract, List.extract_eq_take_drop,
        ← List.drop_take, List.map_drop, List.map_take]
    simp only [relative, stop, Option.bind_eq_bind, Option.bind_some, Option.map_some]
    have codePoints := cuts Slot.codePoint
    have words := cuts Slot.word
    simp only [rows, Slot.unzip, codePoints, words, Option.bind_some]
    rfl

theorem nodeAt_rows (offset : Nat) :
    packed.rows.nodeAt offset = some ((packed.nodeAt offset).map Slot.unzip) := by
  unfold PackedRows.nodeAt nodeAt
  dsimp only [offsets_rows]
  cases bisect id packed.offsets offset with
  | none => rfl
  | some index => exact cut.slice_rows index

theorem summaryAt_rows (offset : Nat) :
    packed.rows.summaryAt offset = some (packed.summaryAt offset) := by
  unfold PackedRows.summaryAt summaryAt
  rw [cut.nodeAt_rows offset]
  cases packed.nodeAt offset with
  | none => rfl
  | some slots => simp [Slot.unzip, Function.comp_def]

theorem lookupAt_rows (offset : Nat) (codePoint : UInt16) :
    packed.rows.lookupAt offset codePoint = some (packed.lookupAt offset codePoint) := by
  unfold PackedRows.lookupAt lookupAt
  rw [cut.nodeAt_rows offset]
  cases packed.nodeAt offset with
  | none => rfl
  | some slots =>
    simp only [Option.map_some, Option.bind_eq_bind, Option.bind_some, Slot.unzip, ← List.map_tail,
      Row.scan_eq]
    cases located : Slot.locate codePoint slots.toList.tail with
    | none => rfl
    | some position =>
      -- a place found among the pairs is one further on in the slice
      have inRange := Slot.locate_lt located
      rw [List.length_tail] at inRange
      simp only [Option.map_some, Option.bind_some, List.getElem?_map, List.getElem?_tail]
      rw [List.getElem?_eq_getElem (by omega)]
      rfl

/-! ## The slices side by side -/

/-- The slots of the slice with a number. -/
theorem slice_eq (starts : packed.offsets[index]? = some offset) :
    ∃ slots : Array Slot, packed.slice index = some slots ∧ slots ≠ #[] ∧
      slots.toList ++ packed.slots.toList.drop (packed.stop index - packed.base) =
        packed.slots.toList.drop (offset - packed.base) := by
  have above := cut.base_le starts
  obtain ⟨some, within⟩ := cut.stop_bounds starts
  refine ⟨packed.slots.extract (offset - packed.base) (packed.stop index - packed.base), ?_, ?_, ?_⟩
  · unfold slice
    rw [starts]
    rfl
  · refine Array.ne_empty_of_size_pos ?_
    rw [Array.size_extract]
    have length : packed.slots.size = packed.length := rfl
    omega
  · rw [Array.toList_extract, List.extract_eq_take_drop, ← List.drop_take]
    exact drop_take_append_drop (by omega) _

/-- The slices from a number on are what stands behind the start of the first of them. -/
theorem flatMap_slices (count : Nat) (index : Nat) (last : index + count = packed.offsets.size) :
    ((List.range' index count).flatMap fun number => ((packed.slice number).getD #[]).toList) =
      packed.slots.toList.drop
        (packed.offsets[index]?.getD (packed.base + packed.length) - packed.base) := by
  induction count generalizing index with
  | zero =>
    rw [Array.getElem?_eq_none (by omega), Option.getD_none, Nat.add_sub_cancel_left]
    exact (List.drop_eq_nil_of_le (Nat.le_refl _)).symm
  | succ count ih =>
    have starts : packed.offsets[index]? = some packed.offsets[index] :=
      Array.getElem?_eq_getElem (by omega)
    obtain ⟨slots, sliced, -, row⟩ := cut.slice_eq starts
    rw [List.range'_succ, List.flatMap_cons, ih (index + 1) (by omega), sliced, starts,
      Option.getD_some, Option.getD_some]
    exact row

/-- The slices of either row, cut out without going astray. -/
theorem parts : ∃ parts : List (List UInt16 × List UInt32), parts.length = packed.offsets.size ∧
    (∀ index part, parts[index]? = some part → packed.rows.slice index = some (some part) ∧
      part.1 ≠ [] ∧ part.1.length = part.2.length) ∧
    parts.flatMap Prod.fst = packed.rows.codePoints ∧
    parts.flatMap Prod.snd = packed.rows.words := by
  have whole := cut.flatMap_slices packed.offsets.size 0 (Nat.zero_add _)
  rw [cut.first, Option.getD_some, Nat.sub_self, List.drop_zero, ← List.range_eq_range'] at whole
  have row : ∀ {β : Type} (part : Slot → β), ((List.range packed.offsets.size).flatMap fun number =>
      ((packed.slice number).getD #[]).toList.map part) = packed.slots.toList.map part := by
    intro β part
    rw [← whole, List.map_flatMap]
  refine ⟨(List.range packed.offsets.size).map fun index =>
    Slot.unzip ((packed.slice index).getD #[]), by simp, ?_, ?_, ?_⟩
  · intro index part listed
    simp only [List.getElem?_map, Option.map_eq_some_iff, List.getElem?_eq_some_iff,
      List.length_range, List.getElem_range] at listed
    obtain ⟨_, ⟨inRange, rfl⟩, rfl⟩ := listed
    obtain ⟨slots, sliced, some, -⟩ := cut.slice_eq (Array.getElem?_eq_getElem inRange)
    rw [cut.slice_rows, sliced]
    exact ⟨rfl, by simpa [Slot.unzip] using some, by simp [Slot.unzip]⟩
  · rw [List.flatMap_map]
    exact row Slot.codePoint
  · rw [List.flatMap_map]
    exact row Slot.word

/-! ## By offset -/

/-- An offset where a slice starts shows that slice. -/
theorem nodeAt_of_starts (starts : packed.offsets[index]? = some offset) :
    packed.nodeAt offset = packed.slice index := by
  obtain ⟨inRange, start⟩ := Array.getElem?_eq_some_iff.mp starts
  have located : bisect id packed.offsets offset = some ⟨index, inRange⟩ :=
    (bisect_eq_some_iff cut.ascends).mpr start
  unfold nodeAt
  rw [located, Option.bind_some]

/-- Any other offset shows none, wherever it lies. -/
theorem nodeAt_of_not_mem (other : offset ∉ packed.offsets) : packed.nodeAt offset = none := by
  have missed : bisect id packed.offsets offset = none := by
    refine (bisect_eq_none_iff cut.ascends).mpr fun item mem same => other ?_
    rwa [← show item = offset from same]
  unfold nodeAt
  rw [missed, Option.bind_none]

/-- No two slices start at one offset. -/
theorem index_unique {other : Nat} (starts : packed.offsets[index]? = some offset)
    (startsToo : packed.offsets[other]? = some offset) : other = index := by
  rcases Nat.lt_trichotomy other index with before | same | behind
  · exact absurd (cut.offset_lt startsToo starts before) (Nat.lt_irrefl _)
  · exact same
  · exact absurd (cut.offset_lt starts startsToo behind) (Nat.lt_irrefl _)

end WellCut

/-! ## What a tailoring can come to have -/

theorem wellCut_plan (source : Tailoring) (table : MainTable) (base : Nat)
    (classOf : UInt16 → UInt8) (some : source.nodes.isEmpty = false) :
    (source.plan table base classOf).packed.WellCut where
  first := by
    refine getElem?_startsOf base (Nat.pos_of_ne_zero fun none => ?_)
    rw [Array.isEmpty_iff_size_eq_zero.mpr none] at some
    cases some
  ascends := ascends_startsOf base _
  inside := by
    intro offset mem
    have listed : offset ∈ startsOf base source.nodes.toList := mem
    obtain ⟨index, inRange, rfl⟩ := Array.mem_iff_getElem.mp listed
    have made : index < source.nodes.toList.length := size_startsOf base _ ▸ inRange
    have starts := getElem?_startsOf base made
    rw [Array.getElem?_eq_getElem inRange] at starts
    -- behind the start stand the slots of the node itself, and there is at least one
    have length : (source.plan table base classOf).packed.length =
        slotCount source.nodes.toList := length_flatMap_moved _ _ _
    have split := slotCount_append (source.nodes.toList.take index) (source.nodes.toList.drop index)
    rw [List.take_append_drop, List.drop_eq_getElem_cons made, slotCount_cons] at split
    have some := (source.nodes.toList[index]).length_pos
    rw [length, Option.some.inj starts]
    show base + _ < base + _
    omega

end Packed

/-- What every packed table has that is laid out from a reachable tailoring with nodes, the packed
table of every reachable tailoring has.  It is there unless nothing was packed. -/
theorem Tailoring.Reachable.of_plan {P : Packed → Prop} {tailoring : Tailoring}
    (reached : tailoring.Reachable)
    (plans : ∀ (source : Tailoring) (table : MainTable) (base : Nat) (classOf : UInt16 → UInt8),
      source.Reachable → source.nodes.isEmpty = false → source.Packable table base →
      P (source.plan table base classOf).packed) :
    ∀ packed, tailoring.packed = some packed → P packed := by
  induction reached with
  | opened sizing => exact fun packed there => nomatch there
  | copied _ ih => exact ih
  | @performed tailoring reached table request ih =>
    intro packed there
    rcases Session.record_perform_cases { tailoring, table } request with
      ⟨same, -⟩ | ⟨base, classOf, -, some, packable, laid⟩
    · rw [same] at there
      exact ih packed there
    · rw [laid] at there
      rw [← Option.some.inj there]
      exact plans tailoring table base classOf reached some packable

/-! ## The partition -/

/-- The slices of a packed table partition its rows, and offsets address exactly the slices. -/
structure Packed.Partitions (packed : Packed) : Prop where
  /-- The stored rows are those that come about where the nodes of some state are laid out, each of
  the two rows filled by itself from the rows of the nodes. -/
  laid : ∃ (source : Tailoring) (classOf : UInt16 → UInt8), source.Reachable ∧
    PackedRows.lay packed.base classOf (source.nodes.toList.map Node.rows) = some (.ok packed.rows)
  /-- Some node was packed, and there are no more than there are handles. -/
  count : 0 < packed.offsets.size ∧ packed.offsets.size ≤ Handle.count
  first : packed.offsets[0]? = some packed.base
  ascends : packed.offsets.toList.Pairwise (· < ·)
  last : ∃ offset, packed.offsets.back? = some offset ∧ offset < packed.base + packed.length
  /-- The two rows are as long as the table. -/
  rows : packed.rows.codePoints.length = packed.length ∧ packed.rows.words.length = packed.length
  /-- The slices have slots, equally many from either row, and one after the other they are the whole
  rows.  To cut them out never goes astray. -/
  slices : ∃ parts : List (List UInt16 × List UInt32), parts.length = packed.offsets.size ∧
    (∀ index part, parts[index]? = some part → packed.rows.slice index = some (some part) ∧
      part.1 ≠ [] ∧ part.1.length = part.2.length) ∧
    parts.flatMap Prod.fst = packed.rows.codePoints ∧ parts.flatMap Prod.snd = packed.rows.words
  /-- The offset of a handle shows what the handle shows, and it is the offset of no other. -/
  hits : ∀ handle offset, packed.offset? handle = some offset →
    (packed.nodeAt offset).isSome = true ∧ packed.nodeAt offset = packed.node? handle ∧
      packed.summaryAt offset = packed.summary? handle ∧
      (∀ codePoint, packed.lookupAt offset codePoint = packed.lookup handle codePoint) ∧
      ∀ other, packed.offset? other = some offset → other = handle
  /-- What is the offset of no handle shows nothing. -/
  misses : ∀ offset, (∀ handle, packed.offset? handle ≠ some offset) →
    packed.nodeAt offset = none ∧ packed.summaryAt offset = none ∧
      ∀ codePoint, packed.lookupAt offset codePoint = none
  /-- In the stored form no handle and no offset at all leads astray: each shows what it shows here. -/
  checked : (∀ handle : Handle,
    packed.rows.slice handle.index = some ((packed.node? handle).map Slot.unzip)) ∧ ∀ offset,
    packed.rows.nodeAt offset = some ((packed.nodeAt offset).map Slot.unzip) ∧
      packed.rows.summaryAt offset = some (packed.summaryAt offset) ∧
      ∀ codePoint, packed.rows.lookupAt offset codePoint = some (packed.lookupAt offset codePoint)

theorem Packed.WellCut.partitions {packed : Packed} (cut : packed.WellCut)
    (handles : packed.offsets.size ≤ Handle.count)
    (laid : ∃ (source : Tailoring) (classOf : UInt16 → UInt8), source.Reachable ∧
      PackedRows.lay packed.base classOf (source.nodes.toList.map Node.rows) =
        some (.ok packed.rows)) :
    packed.Partitions where
  laid := laid
  count := ⟨cut.size_pos, handles⟩
  first := cut.first
  ascends := cut.ascends
  last := by
    have inRange := Nat.sub_lt cut.size_pos Nat.one_pos
    have starts : packed.offsets.back? = some packed.offsets[packed.offsets.size - 1] := by
      rw [Array.back?_eq_getElem?]
      exact Array.getElem?_eq_getElem inRange
    exact ⟨_, starts, cut.inside _ (Array.getElem_mem _)⟩
  rows := by
    obtain ⟨source, classOf, -, filled⟩ := laid
    have sound : ∀ rows ∈ source.nodes.toList.map Node.rows, rows.Sound := by
      intro rows mem
      obtain ⟨node, -, rfl⟩ := List.mem_map.mp mem
      exact node.sound_rows
    obtain ⟨outcome, same, alike⟩ := PackedRows.lay_alike sound packed.base classOf
    obtain rfl := Option.some.inj (filled.symm.trans same)
    obtain ⟨-, -, codePoints, words⟩ := alike packed.rows rfl
    have length : packed.rows.codePoints.length = packed.length := List.length_map _
    exact ⟨length, words.trans (codePoints.symm.trans length)⟩
  slices := cut.parts
  hits := by
    intro handle offset starts
    have shown := cut.nodeAt_of_starts starts
    obtain ⟨slots, sliced, -⟩ := cut.slice_eq starts
    refine ⟨?_, shown, ?_, fun codePoint => ?_, fun other startsToo => ?_⟩
    · rw [shown, sliced, Option.isSome_some]
    · rw [Packed.summary?, starts, Option.bind_some]
    · rw [Packed.lookup, starts, Option.bind_some]
    · have same := cut.index_unique starts startsToo
      cases other
      cases handle
      simpa using same
  misses := by
    intro offset others
    have other : offset ∉ packed.offsets := by
      intro mem
      obtain ⟨index, inRange, rfl⟩ := Array.mem_iff_getElem.mp mem
      exact others ⟨index, Nat.lt_of_lt_of_le inRange handles⟩ (Array.getElem?_eq_getElem inRange)
    have missed := cut.nodeAt_of_not_mem other
    refine ⟨missed, ?_, fun codePoint => ?_⟩
    · rw [Packed.summaryAt, missed, Option.bind_none]
    · rw [Packed.lookupAt, missed, Option.bind_none]
  checked := ⟨fun handle => cut.slice_rows handle.index, fun offset =>
    ⟨cut.nodeAt_rows offset, cut.summaryAt_rows offset, cut.lookupAt_rows offset⟩⟩

/-- However a tailoring came about, the slices of its packed table partition the rows. -/
theorem Packed.partitions_of_reachable {tailoring : Tailoring} (reached : tailoring.Reachable)
    {packed : Packed} (there : tailoring.packed = some packed) : packed.Partitions := by
  refine reached.of_plan ?_ packed there
  intro source table base classOf reached some packable
  refine (wellCut_plan source table base classOf some).partitions ?_ ?_
  · exact Nat.le_trans (Nat.le_of_eq (source.size_offsets base)) reached.sound.handles
  · exact ⟨source, classOf, reached, packable.lay_eq classOf⟩

/-- The ring of two nodes, packed from 7 on and copied. -/
theorem Packed.partitions_of_reachable_ring :
    let tailoring := (Session.ring.perform (.pack 7 fun _ => 0)).2.tailoring.copy
    ∃ packed, tailoring.Reachable ∧ tailoring.packed = some packed ∧ packed.Partitions ∧
      packed.offsets = #[7, 9] := by
  intro tailoring
  have reached : tailoring.Reachable :=
    (Session.reachable_ring.performed Session.ring.table (.pack 7 fun _ => 0)).copied
  have offsets : tailoring.packed.map Packed.offsets = some #[7, 9] := by decide +kernel
  obtain ⟨packed, there, same⟩ := Option.map_eq_some_iff.mp offsets
  exact ⟨packed, reached, there, Packed.partitions_of_reachable reached there, same⟩

end Contractions
