/-
# Contractions.Proofs.InPlace — packing in place comes to the same as packing at once.

`Session.Work.pack` goes through its effects one by one and may be refused between any two of them.
This file runs it.  The passes that check and work out the references only read, so each of them
stands for one traversal of `MainTable.references`.  The second pass cannot be refused where the first
was not, and the writes cannot be refused at all.  So every refusal comes before the first write to
the main table, with nothing but the packed table set aside, and that is put back.

`Work.on_pack` states the result: the outcome and the session are those of `Tailoring.pack`, and after
a refusal the session is the one before.
-/
import Contractions.Session

namespace Contractions

/-- A calculation that goes on with a known value. -/
theorem Fault.ok_bind {α β : Type} (value : α) (next : α → Except Fault β) :
    (Except.ok value >>= next) = next value := rfl

/-- The references of some code points, in their order. -/
def MainTable.referencesAmong (table : MainTable) (memory : Array Relocation)
    (codePoints : List UInt16) : List (UInt16 × UInt32) :=
  codePoints.filterMap fun codePoint => (table.reference? memory codePoint).map (codePoint, ·)

theorem MainTable.referencesAmong_codePoints (table : MainTable) (memory : Array Relocation) :
    table.referencesAmong memory table.codePoints = table.references memory := by
  unfold referencesAmong codePoints references
  rw [List.filterMap_map]
  rfl

namespace Session

namespace Work

variable {α β : Type}

/-! ## Running a piece of work -/

/-- The second of two pieces runs on what the first leaves, and not at all after a refusal. -/
theorem on_bind (work : Work α) (next : α → Work β) (session : Session) :
    (work >>= next).on session =
      match work.on session with
      | (.ok value, after) => (next value).on after
      | (.error fault, after) => (.error fault, after) := by
  unfold on
  rw [ExceptT.run_bind, StateT.run_bind]
  rcases StateT.run (ExceptT.run work) session with ⟨_ | value, after⟩ <;> rfl

/-- A handler runs on what the refused work leaves, not on what it began with. -/
theorem on_tryCatch (work : Work α) (handle : Fault → Work α) (session : Session) :
    (tryCatch work handle).on session =
      match work.on session with
      | (.ok value, after) => (.ok value, after)
      | (.error fault, after) => (handle fault).on after := by
  unfold on
  rw [ExceptT.run_tryCatch, StateT.run_bind]
  rcases StateT.run (ExceptT.run work) session with ⟨_ | value, after⟩ <;> rfl

theorem on_pure (value : α) (session : Session) :
    (pure value : Work α).on session = (.ok value, session) := rfl

theorem on_get (session : Session) : (get : Work Session).on session = (.ok session, session) := rfl

theorem on_ofExcept (outcome : Except Fault α) (session : Session) :
    (ofExcept outcome).on session = (outcome, session) := rfl

theorem on_setPacked (packed : Option Packed) (session : Session) :
    (setPacked packed).on session =
      (.ok (), { session with tailoring := { session.tailoring with packed } }) := rfl

theorem on_writeRelocation (relocation : Relocation) (session : Session) :
    (writeRelocation relocation).on session =
      (.ok (), { session with
        table := session.table.set relocation.codePoint relocation.written }) := rfl

theorem on_keep (plan : PackPlan) (session : Session) :
    (keep plan).on session =
      (.ok (), { session with
        tailoring :=
          { session.tailoring with packed := some plan.packed, memory := plan.relocations } }) :=
  rfl

/-- Refused work under a set-aside table leaves what it changed, with the table put back. -/
theorem on_settingPackedAside (work : Work α) (session : Session) :
    (settingPackedAside work).on session =
      match work.on { session with tailoring := { session.tailoring with packed := none } } with
      | (.ok value, after) => (.ok value, after)
      | (.error fault, after) =>
        (.error fault, { after with
          tailoring := { after.tailoring with packed := session.tailoring.packed } }) := by
  unfold settingPackedAside
  simp only [on_bind, on_get, on_setPacked, on_tryCatch]
  rcases work.on _ with ⟨_ | value, after⟩ <;> rfl

/-! ## The passes over the main table -/

theorem on_checkReference (offsets : Array Nat) (codePoint : UInt16) (session : Session) :
    (checkReference offsets codePoint).on session =
      ((match session.table.reference? session.tailoring.memory codePoint with
        | none => .ok ()
        | some payload => (relocatePayload offsets payload).map fun _ => ()), session) := by
  unfold checkReference readReference
  simp only [on_bind, on_get, on_pure]
  cases session.table.reference? session.tailoring.memory codePoint with
  | none => rfl
  | some payload =>
    simp only [on_bind, on_ofExcept]
    cases relocatePayload offsets payload <;> rfl

theorem on_planReference (offsets : Array Nat) (codePoint : UInt16) (session : Session) :
    (planReference offsets codePoint).on session =
      ((match session.table.reference? session.tailoring.memory codePoint with
        | none => .ok none
        | some payload => (relocateReference offsets (codePoint, payload)).map some), session) := by
  unfold planReference readReference
  simp only [on_bind, on_get, on_pure]
  cases session.table.reference? session.tailoring.memory codePoint with
  | none => rfl
  | some payload =>
    simp only [on_bind, on_ofExcept]
    cases relocateReference offsets (codePoint, payload) <;> rfl

/-- The checking pass is refused where the references cannot be relocated, and only reads. -/
theorem on_forM_checkReference (offsets : Array Nat) (codePoints : List UInt16)
    (session : Session) :
    (codePoints.forM (checkReference offsets)).on session =
      (((session.table.referencesAmong session.tailoring.memory codePoints).mapM
        (relocateReference offsets)).map fun _ => (), session) := by
  induction codePoints with
  | nil => rfl
  | cons codePoint codePoints ih =>
    show (checkReference offsets codePoint >>= fun _ =>
      codePoints.forM (checkReference offsets)).on session = _
    rw [on_bind, on_checkReference, MainTable.referencesAmong, List.filterMap_cons]
    cases session.table.reference? session.tailoring.memory codePoint with
    | none => exact ih
    | some payload =>
      -- checking throws the relocated word away, so only its fault counts
      simp only [Option.map_some, List.mapM_cons, relocateReference]
      cases relocatePayload offsets payload with
      | error fault => rfl
      | ok written =>
        refine ih.trans ?_
        unfold MainTable.referencesAmong
        cases List.mapM (relocateReference offsets) _ <;> rfl

/-- The working pass answers what the references are relocated to, and only reads. -/
theorem on_filterMapM_planReference (offsets : Array Nat) (codePoints : List UInt16)
    (session : Session) :
    (codePoints.filterMapM (planReference offsets)).on session =
      ((session.table.referencesAmong session.tailoring.memory codePoints).mapM
        (relocateReference offsets), session) := by
  induction codePoints with
  | nil => rfl
  | cons codePoint codePoints ih =>
    rw [List.filterMapM_cons, on_bind, on_planReference, MainTable.referencesAmong,
      List.filterMap_cons]
    cases session.table.reference? session.tailoring.memory codePoint with
    | none => exact ih
    | some payload =>
      simp only [Option.map_some, List.mapM_cons]
      cases relocateReference offsets (codePoint, payload) with
      | error fault => rfl
      | ok relocation =>
        simp only [Except.map, on_bind, ih]
        unfold MainTable.referencesAmong
        cases List.mapM (relocateReference offsets) _ <;> rfl

/-- The writing pass is never refused. -/
theorem on_forM_writeRelocation (relocations : List Relocation) (session : Session) :
    (relocations.forM writeRelocation).on session =
      (.ok (), { session with table := session.table.relocated relocations.toArray }) := by
  unfold MainTable.relocated
  rw [List.foldl_toArray]
  induction relocations generalizing session with
  | nil => rfl
  | cons relocation relocations ih =>
    show (writeRelocation relocation >>= fun _ => relocations.forM writeRelocation).on session = _
    rw [on_bind, on_writeRelocation]
    exact ih _

/-! ## The whole packing -/

/-- Laying out carries out the plan, or is refused as the plan is and has changed nothing. -/
theorem on_layOut (base : Nat) (classOf : UInt16 → UInt8) (session : Session) :
    (layOut base classOf session.tailoring.nodes.toList).on session =
      match session.tailoring.packPlan session.table base classOf with
      | .ok plan =>
        (.ok plan.packed.length,
          { tailoring :=
              { session.tailoring with packed := some plan.packed, memory := plan.relocations }
            table := session.table.relocated plan.relocations })
      | .error fault => (.error fault, session) := by
  unfold layOut Tailoring.packPlan
  simp only [on_bind, on_ofExcept]
  cases Packed.ofNodes base classOf session.tailoring.nodes.toList with
  | error fault => rfl
  | ok packed =>
    simp only [Fault.ok_bind, on_get, on_forM_checkReference, on_filterMapM_planReference,
      MainTable.referencesAmong_codePoints]
    -- where the checking pass is through, so is the working pass, and no later step is refused
    cases known : (session.table.references session.tailoring.memory).mapM
        (relocateReference packed.offsets) with
    | error fault => rfl
    | ok relocations =>
      simp only [Except.map, MainTable.referencesAmong_codePoints, known, on_forM_writeRelocation,
        on_keep, on_pure]
      rfl

/-- Packing in place and packing at once have the same outcome and the same effect. -/
theorem on_pack (base : Nat) (classOf : UInt16 → UInt8) (session : Session) :
    (Work.pack base classOf).on session =
      match session.tailoring.pack session.table base classOf with
      | .ok (count, tailoring, table) => (.ok count, { tailoring, table })
      | .error fault => (.error fault, session) := by
  unfold Work.pack Tailoring.pack
  simp only [on_bind, on_get]
  cases session.tailoring.nodes.isEmpty with
  | true => rfl
  | false =>
    simp only [Bool.false_eq_true, if_false, on_settingPackedAside]
    -- the plan does not look at the packed table that is set aside
    have laid := on_layOut base classOf
      { session with tailoring := { session.tailoring with packed := none } }
    have same : Tailoring.packPlan { session.tailoring with packed := none } session.table base
        classOf = session.tailoring.packPlan session.table base classOf := rfl
    rw [same] at laid
    rw [laid]
    cases session.tailoring.packPlan session.table base classOf <;> rfl

end Work

end Session

end Contractions
