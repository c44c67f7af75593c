/-
# Contractions.Proofs.Record — the record of a packing, and what ignores it.

A tailoring is its nodes and the record of its latest packing: the packed table and the memory of what
was written to the main table.  Making, writing and reading nodes neither look at the record nor change
it.  The one law that says both at once is that such an operation commutes with replacing the record.
Only attaching, assigning and packing depend on the main table; they are the requests for which
`Request.onNodes` is false.
-/
import Contractions.Proofs.InPlace

namespace Contractions

namespace Tailoring

/-- The tailoring with another record of its latest packing. -/
def withRecord (tailoring : Tailoring) (packed : Option Packed) (memory : Array Relocation) :
    Tailoring :=
  { tailoring with packed, memory }

variable (tailoring : Tailoring) (packed : Option Packed) (memory : Array Relocation)

@[simp] theorem nodes_withRecord : (tailoring.withRecord packed memory).nodes = tailoring.nodes :=
  rfl

@[simp] theorem node?_withRecord (handle : Handle) :
    (tailoring.withRecord packed memory).node? handle = tailoring.node? handle := rfl

/-! ## Making and writing nodes -/

theorem allocate_withRecord :
    (tailoring.withRecord packed memory).allocate =
      tailoring.allocate.map fun (handle, made) => (handle, made.withRecord packed memory) := by
  unfold allocate
  simp only [nodes_withRecord]
  cases Handle.ofNat? tailoring.nodes.size with
  | none => rfl
  | some handle =>
    by_cases granted : Grantable nodeBytes tailoring.capacity
    · have same : (tailoring.withRecord packed memory).capacity = tailoring.capacity := rfl
      simp only [same, granted, if_true]
      have fresh : (tailoring.withRecord packed memory).sizing = tailoring.sizing := rfl
      rw [fresh]
      cases Node.fresh tailoring.sizing.slots <;> rfl
    · have same : (tailoring.withRecord packed memory).capacity = tailoring.capacity := rfl
      simp only [same, granted, if_false]
      rfl

theorem resolve_withRecord (target : Option Handle) :
    (tailoring.withRecord packed memory).resolve target =
      (tailoring.resolve target).map fun (found, after) =>
        (found, after.withRecord packed memory) := by
  cases target with
  | none =>
    unfold resolve
    rw [allocate_withRecord]
    cases tailoring.allocate <;> rfl
  | some handle => rfl

theorem claim_withRecord (target : Option Handle) :
    (tailoring.withRecord packed memory).claim target =
      (tailoring.claim target).map fun (handle, after) =>
        (handle, after.withRecord packed memory) := by
  cases target with
  | none => exact allocate_withRecord tailoring packed memory
  | some handle =>
    unfold claim
    by_cases known : handle.index < tailoring.nodes.size
    · simp only [nodes_withRecord, known, if_true]
      rfl
    · simp only [nodes_withRecord, known, if_false]
      exact allocate_withRecord tailoring packed memory

theorem edit_withRecord (target : Option Handle) (change : Node.Edit) :
    (tailoring.withRecord packed memory).edit target change =
      ((tailoring.edit target change).1,
        (tailoring.edit target change).2.withRecord packed memory) := by
  unfold edit
  rw [resolve_withRecord]
  rcases tailoring.resolve target with fault | ⟨_ | ⟨handle, node⟩, after⟩
  · rfl
  · rfl
  · simp only [Except.map]
    cases node.apply change <;> rfl

theorem write_withRecord (target : Option Handle) (change : Node.Edit) :
    (tailoring.withRecord packed memory).write target change =
      ((tailoring.write target change).1,
        (tailoring.write target change).2.withRecord packed memory) := by
  unfold write
  rw [claim_withRecord]
  rcases tailoring.claim target with fault | ⟨handle, claimed⟩
  · rfl
  · simp only [Except.map, node?_withRecord]
    cases claimed.node? handle with
    | none => rfl
    | some node =>
      simp only
      cases node.apply change <;> rfl

theorem change_withRecord (handle : Handle) (codePoint : UInt16) (element : Element) :
    (tailoring.withRecord packed memory).change handle codePoint element =
      (tailoring.change handle codePoint element).map fun after =>
        after.withRecord packed memory := by
  unfold change
  rw [node?_withRecord]
  cases tailoring.node? handle with
  | none => rfl
  | some node =>
    simp only
    cases node.find codePoint <;> rfl

/-! ## Reading nodes -/

theorem lookup_congr {tailoring other : Tailoring} (same : other.nodes = tailoring.nodes)
    (handle : Handle) (codePoint : UInt16) :
    other.lookup handle codePoint = tailoring.lookup handle codePoint := by
  unfold lookup node?
  rw [same]

/-- A walk depends on nothing but the nodes. -/
theorem isTailored_congr {tailoring other : Tailoring} (same : other.nodes = tailoring.nodes)
    (handle : Handle) (sequence : List UInt16) :
    other.isTailored handle sequence = tailoring.isTailored handle sequence := by
  have base : ∀ stop, other.base? stop = tailoring.base? stop := by
    intro stop
    unfold base? node?
    rw [same]
  induction sequence generalizing handle with
  | nil => simp only [isTailored, base]
  | cons codePoint rest ih =>
    unfold isTailored
    simp only [base, lookup_congr same, ih]

end Tailoring

namespace Session

/-! ## Requests on the nodes alone -/

/-- Does a request concern the nodes alone?  The others read the main table or write to it. -/
def Request.onNodes : Request → Bool
  | .attach _ _ => false
  | .assign _ _ => false
  | .pack _ _ => false
  | _ => true

/-- The session with another main table and another record of the latest packing. -/
def withRecord (session : Session) (packed : Option Packed) (memory : Array Relocation)
    (table : MainTable) : Session where
  tailoring := session.tailoring.withRecord packed memory
  table := table

@[simp] theorem withRecord_self (session : Session) :
    session.withRecord session.tailoring.packed session.tailoring.memory session.table = session :=
  rfl

/-- A request on the nodes gives the same answer and the same nodes whatever was packed before and
whatever the main table holds, and it changes neither of them. -/
theorem perform_withRecord (session : Session) {request : Request}
    (onNodes : request.onNodes = true) (packed : Option Packed) (memory : Array Relocation)
    (table : MainTable) :
    (session.withRecord packed memory table).perform request =
      ((session.perform request).1,
        (session.perform request).2.withRecord packed memory table) := by
  cases request with
  | allocate =>
    simp only [perform, withRecord, Tailoring.allocate_withRecord]
    cases session.tailoring.allocate <;> rfl
  | resolve target =>
    simp only [perform, withRecord, Tailoring.resolve_withRecord]
    cases session.tailoring.resolve target <;> rfl
  | edit target change =>
    simp only [perform, ofTailoring, withRecord, Tailoring.edit_withRecord]
  | write target change =>
    simp only [perform, ofTailoring, withRecord, Tailoring.write_withRecord]
  | change handle codePoint element =>
    simp only [perform, withRecord, Tailoring.change_withRecord]
    cases session.tailoring.change handle codePoint element <;> rfl
  | lookup handle codePoint => rfl
  | find handle codePoint => rfl
  | elementAt handle slot => rfl
  | isTailored handle sequence =>
    have same : (session.tailoring.withRecord packed memory).nodes = session.tailoring.nodes := rfl
    simp only [perform, withRecord, Tailoring.isTailored_congr same]
  | attach codePoint handle => cases onNodes
  | assign codePoint element => cases onNodes
  | pack base classOf => cases onNodes

/-- So a request on the nodes leaves the record and the main table as they are. -/
theorem record_perform (session : Session) {request : Request} (onNodes : request.onNodes = true) :
    (session.perform request).2.tailoring.packed = session.tailoring.packed ∧
      (session.perform request).2.tailoring.memory = session.tailoring.memory ∧
      (session.perform request).2.table = session.table := by
  have commutes := session.perform_withRecord onNodes session.tailoring.packed
    session.tailoring.memory session.table
  rw [withRecord_self] at commutes
  have after := congrArg Prod.snd commutes
  exact ⟨congrArg (·.tailoring.packed) after, congrArg (·.tailoring.memory) after,
    congrArg (·.table) after⟩

end Session

end Contractions
