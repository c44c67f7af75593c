/-
# Contractions.Proofs.Memory — the main table as the tailoring reads it.

After a packing the main table holds offsets where it held handles before, and only the memory tells
which words those are.  `MainTable.readThrough` is the table with the remembered offsets read back:
it holds handles throughout.  The lemmas here say how it answers a lookup in the memory, a forgotten
code point and a write, and what writing a list of relocations does to the table underneath.

The interval search of `Relocation.readBack` needs the memory in ascending order of code points,
which is a hypothesis here and an invariant of every tailoring in `Contractions.Proofs.Upkeep`.
-/
import Contractions.MainTable
import Contractions.Proofs.Search
import Contractions.Proofs.Words
import Contractions.Tailoring.Pack

namespace Contractions

namespace Relocation

/-- A memory in ascending order of code points, each of them listed once. -/
def Ordered (memory : Array Relocation) : Prop :=
  Ascends (fun relocation => relocation.codePoint.toNat) memory

/-! ## Reading back -/

/-- Reading back changes a word only where the memory lists it. -/
theorem readBack_eq_or (memory : Array Relocation) (codePoint : UInt16) (word : UInt32) :
    readBack memory codePoint word = word ∨
      ∃ payload, ⟨codePoint, word, payload⟩ ∈ memory ∧
        readBack memory codePoint word = (Element.reference payload).pack := by
  unfold readBack
  split
  · rename_i found located
    split
    · -- the code point is listed and so is its word
      rename_i same
      refine Or.inr ⟨memory[found].payload, ?_, rfl⟩
      have key := key_of_bisect located
      rw [UInt16.toNat_inj] at key
      have entry : memory[found] = ⟨codePoint, word, memory[found].payload⟩ := by
        rw [← key, ← same]
      rw [← entry]
      exact Array.getElem_mem found.isLt
    · exact Or.inl rfl
  · exact Or.inl rfl

theorem readBack_of_forall_notMem {memory : Array Relocation} {codePoint : UInt16} {word : UInt32}
    (absent : ∀ payload, ⟨codePoint, word, payload⟩ ∉ memory) :
    readBack memory codePoint word = word := by
  rcases readBack_eq_or memory codePoint word with same | ⟨payload, mem, -⟩
  · exact same
  · exact absurd mem (absent payload)

/-- In an ordered memory a listed word is read back as the handle it stood for. -/
theorem readBack_of_mem {memory : Array Relocation} (ordered : Ordered memory) {codePoint : UInt16}
    {word payload : UInt32} (mem : ⟨codePoint, word, payload⟩ ∈ memory) :
    readBack memory codePoint word = (Element.reference payload).pack := by
  obtain ⟨index, inRange, entry⟩ := Array.mem_iff_getElem.mp mem
  have located : bisect (fun relocation => relocation.codePoint.toNat) memory codePoint.toNat =
      some ⟨index, inRange⟩ := by
    rw [bisect_eq_some_iff ordered]
    exact congrArg (fun relocation => relocation.codePoint.toNat) entry
  simp only [readBack, located, Fin.getElem_fin, entry, if_true]

theorem mem_forget {memory : Array Relocation} {codePoint : UInt16} {relocation : Relocation} :
    relocation ∈ forget memory codePoint ↔
      relocation ∈ memory ∧ relocation.codePoint ≠ codePoint := by
  simp only [forget, Array.mem_filter, decide_eq_true_eq]

theorem Ordered.forget {memory : Array Relocation} (ordered : Ordered memory)
    (codePoint : UInt16) : Ordered (forget memory codePoint) :=
  Ascends.filter ordered _

/-- What was forgotten is not read back any more. -/
theorem readBack_forget_self (memory : Array Relocation) (codePoint : UInt16) (word : UInt32) :
    readBack (forget memory codePoint) codePoint word = word := by
  apply readBack_of_forall_notMem
  intro payload mem
  exact codePoint_ne_of_mem_forget mem rfl

/-- Forgetting one code point leaves the others as they were. -/
theorem readBack_forget_of_ne {memory : Array Relocation} (ordered : Ordered memory)
    {forgotten codePoint : UInt16} (different : forgotten ≠ codePoint) (word : UInt32) :
    readBack (forget memory forgotten) codePoint word = readBack memory codePoint word := by
  rcases readBack_eq_or memory codePoint word with same | ⟨payload, mem, back⟩
  · rw [same]
    rcases readBack_eq_or (forget memory forgotten) codePoint word with kept | ⟨payload, mem, back⟩
    · exact kept
    · -- what is listed now was listed before, so the word is its own reading
      rw [back, ← readBack_of_mem ordered (mem_forget.mp mem).1, same]
  · rw [back]
    exact readBack_of_mem (ordered.forget forgotten) (mem_forget.mpr ⟨mem, different.symm⟩)

end Relocation

namespace MainTable

/-! ## The table read through the memory -/

/-- The word of a code point with a remembered offset read back as its handle. -/
def readThrough (table : MainTable) (memory : Array Relocation) (codePoint : UInt16) : UInt32 :=
  Relocation.readBack memory codePoint (table.get codePoint)

theorem reference?_eq_some_iff {table : MainTable} {memory : Array Relocation}
    {codePoint : UInt16} {payload : UInt32} :
    table.reference? memory codePoint = some payload ↔
      Element.unpack (table.readThrough memory codePoint) = .reference payload := by
  unfold reference? readThrough
  cases Element.unpack (Relocation.readBack memory codePoint (table.get codePoint)) <;> simp

theorem reference?_eq_none_iff {table : MainTable} {memory : Array Relocation}
    {codePoint : UInt16} :
    table.reference? memory codePoint = none ↔
      Element.isReferenceWord (table.readThrough memory codePoint) = false := by
  rw [← Element.isReference_unpack]
  unfold reference? readThrough
  cases Element.unpack (Relocation.readBack memory codePoint (table.get codePoint)) <;>
    simp [Element.isReference]

theorem toNat_toUInt16_of_lt {table : MainTable} {index : Nat} (h : index < table.size) :
    index.toUInt16.toNat = index := by
  have small : table.size ≤ 65536 := table.size_le
  simp only [Nat.toUInt16_eq, UInt16.toNat_ofNat']
  omega

/-- A code point that has a slot refers to the node that a payload names, once a remembered offset is
read back. -/
def Refers (table : MainTable) (memory : Array Relocation) (codePoint : UInt16)
    (payload : UInt32) : Prop :=
  codePoint.toNat < table.size ∧ table.reference? memory codePoint = some payload

theorem Refers.unique {table : MainTable} {memory : Array Relocation} {codePoint : UInt16}
    {payload other : UInt32} (refers : table.Refers memory codePoint payload)
    (refersToo : table.Refers memory codePoint other) : payload = other :=
  Option.some.inj (refers.2.symm.trans refersToo.2)

theorem mem_references {table : MainTable} {memory : Array Relocation} {codePoint : UInt16}
    {payload : UInt32} :
    (codePoint, payload) ∈ table.references memory ↔ table.Refers memory codePoint payload := by
  simp only [references, Refers, List.mem_filterMap, List.mem_range, Option.map_eq_some_iff,
    Prod.mk.injEq]
  constructor
  · rintro ⟨index, inRange, found, refers, rfl, rfl⟩
    exact ⟨by rwa [toNat_toUInt16_of_lt inRange], refers⟩
  · rintro ⟨inRange, refers⟩
    have same : codePoint.toNat.toUInt16 = codePoint := UInt16.ofNat_toNat
    exact ⟨codePoint.toNat, inRange, payload, by rwa [same], same, rfl⟩

/-- The references stand in ascending order of their code points. -/
theorem references_pairwise (table : MainTable) (memory : Array Relocation) :
    (table.references memory).Pairwise fun a b => a.1.toNat < b.1.toNat := by
  unfold references
  rw [List.pairwise_filterMap]
  -- leaving out the others keeps the order of the range, and an index is its own code point
  refine (List.pairwise_lt_range (n := table.size)).imp_of_mem ?_
  intro i j memI memJ before a foundA b foundB
  obtain ⟨-, -, rfl⟩ := Option.map_eq_some_iff.mp foundA
  obtain ⟨-, -, rfl⟩ := Option.map_eq_some_iff.mp foundB
  rw [toNat_toUInt16_of_lt (List.mem_range.mp memI), toNat_toUInt16_of_lt (List.mem_range.mp memJ)]
  exact before

/-! ## Writing relocations -/

/-- A code point that no relocation names keeps its word. -/
theorem get_relocated_of_forall_ne {table : MainTable} {relocations : Array Relocation}
    {codePoint : UInt16} (absent : ∀ relocation ∈ relocations, relocation.codePoint ≠ codePoint) :
    (table.relocated relocations).get codePoint = table.get codePoint := by
  unfold relocated
  rw [← Array.foldl_toList]
  simp only [← Array.mem_toList_iff] at absent
  generalize relocations.toList = writes at absent
  induction writes generalizing table with
  | nil => rfl
  | cons write writes ih =>
    rw [List.foldl_cons, ih fun relocation mem => absent relocation (List.mem_cons_of_mem _ mem)]
    exact get_set_of_ne table _ (absent write List.mem_cons_self)

/-- A code point with a slot holds what the relocations that name it agree on. -/
theorem get_relocated_of_mem {table : MainTable} {relocations : Array Relocation}
    {codePoint : UInt16} {word : UInt32} (inRange : codePoint.toNat < table.size)
    (named : ∃ relocation ∈ relocations, relocation.codePoint = codePoint)
    (agree : ∀ relocation ∈ relocations, relocation.codePoint = codePoint →
      relocation.written = word) :
    (table.relocated relocations).get codePoint = word := by
  unfold relocated
  rw [← Array.foldl_toList]
  simp only [← Array.mem_toList_iff] at named agree
  generalize relocations.toList = writes at named agree
  induction writes generalizing table with
  | nil =>
    obtain ⟨_, mem, _⟩ := named
    cases mem
  | cons write writes ih =>
    rw [List.foldl_cons]
    have rest : ∀ relocation ∈ writes, relocation.codePoint = codePoint →
        relocation.written = word := fun relocation mem =>
      agree relocation (List.mem_cons_of_mem _ mem)
    by_cases later : ∃ relocation ∈ writes, relocation.codePoint = codePoint
    · exact ih (by rwa [size_set]) later rest
    · -- no later write names the code point, so this one does and nothing undoes it
      have here : write.codePoint = codePoint := by
        obtain ⟨relocation, mem, names⟩ := named
        rcases List.mem_cons.mp mem with rfl | mem
        · exact names
        · exact absurd ⟨relocation, mem, names⟩ later
      have absent : ∀ relocation ∈ writes.toArray, relocation.codePoint ≠ codePoint :=
        fun relocation mem names => later ⟨relocation, List.mem_toArray.mp mem, names⟩
      have kept : ((table.set write.codePoint write.written).relocated writes.toArray).get codePoint =
          (table.set write.codePoint write.written).get codePoint :=
        get_relocated_of_forall_ne absent
      unfold relocated at kept
      rw [List.foldl_toArray] at kept
      rw [kept, agree write List.mem_cons_self here, here]
      exact get_set_self word inRange

/-- Tables of one size are equal when they agree on every code point. -/
theorem ext_get {table other : MainTable} (size : table.size = other.size)
    (agree : ∀ codePoint, table.get codePoint = other.get codePoint) : table = other := by
  obtain ⟨words, size_le⟩ := table
  obtain ⟨others, others_le⟩ := other
  simp only [mk.injEq]
  apply Array.ext size
  -- there are no more slots than code points, so every index is one
  intro index inRange inRange'
  have small : index < 65536 := Nat.lt_of_lt_of_le inRange size_le
  have at_index := agree index.toUInt16
  simpa [get, inRange, inRange', Nat.mod_eq_of_lt small] using at_index

end MainTable

end Contractions
