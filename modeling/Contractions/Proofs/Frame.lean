/-
# Contractions.Proofs.Frame — what a request leaves alone.

Every request works on one node at most, and `Request.aim` says on which: the node that a handle
names, or the one that is going to be made.  Requests differ in what they make of a handle that names
no node.  The writers make a node in its place, `resolve` and `edit` show none, and `change` and
`attach` refuse.

Whatever a request comes to, all other nodes stay as they are, spare slots included
(`getElem?_perform_of_ne`).  With the number after the last for an aim this also says which requests
make a node, for no node can come about where a request does not aim (`size_perform_cases`).  The
packed table and the main table have frames of their own.
-/
import Contractions.Proofs.Alike
import Contractions.Proofs.Outcomes

namespace Contractions

namespace Tailoring

variable {tailoring after claimed : Tailoring} {handle : Handle} {change : Node.Edit}

/-! ## Tailorings that differ at one number -/

/-- The nodes of two tailorings are the same, but for the one with a given number. -/
def SameBut (index : Nat) (tailoring after : Tailoring) : Prop :=
  ∀ other, other ≠ index → after.nodes[other]? = tailoring.nodes[other]?

namespace SameBut

theorem refl (index : Nat) (tailoring : Tailoring) : SameBut index tailoring tailoring :=
  fun _ _ => rfl

theorem trans {index : Nat} {last : Tailoring} (first : SameBut index tailoring after)
    (second : SameBut index after last) : SameBut index tailoring last :=
  fun other differs => (second other differs).trans (first other differs)

theorem putNode (tailoring : Tailoring) (handle : Handle) (node : Node) :
    SameBut handle.index tailoring (tailoring.putNode handle node) :=
  fun _ differs => Array.getElem?_setIfInBounds_ne differs.symm

theorem pushNode (tailoring : Tailoring) (node : Node) :
    SameBut tailoring.nodes.size tailoring (tailoring.pushNode node) := by
  intro other differs
  simp only [Tailoring.pushNode, Array.getElem?_push, if_neg differs]

theorem allocate (allocated : tailoring.allocate = .ok (handle, after)) :
    SameBut tailoring.nodes.size tailoring after := by
  obtain ⟨node, -, -, rfl⟩ := allocate_eq_ok allocated
  exact .pushNode tailoring node

end SameBut

/-! ## Which node a writer works on -/

/-- The number of the node that a writer works on where there are `count` nodes: the one that the
handle names, or else the next one. -/
def writerAim (count : Nat) : Option Handle → Nat
  | none => count
  | some handle => if handle.index < count then handle.index else count

theorem writerAim_of_lt {count : Nat} (known : handle.index < count) :
    writerAim count (some handle) = handle.index := if_pos known

theorem writerAim_of_le {count : Nat} {target : Option Handle}
    (unknown : ∀ handle ∈ target, count ≤ handle.index) : writerAim count target = count := by
  cases target with
  | none => rfl
  | some handle => exact if_neg (Nat.not_lt_of_le (unknown handle rfl))

/-- A writer that works on the next node was given no handle that names one. -/
theorem le_of_writerAim {count : Nat} {target : Option Handle} (aim : writerAim count target = count) :
    ∀ handle ∈ target, count ≤ handle.index := by
  rintro handle rfl
  by_contra known
  rw [writerAim_of_lt (Nat.lt_of_not_le known)] at aim
  omega

/-- What is claimed is the node that a writer works on, and to claim it leaves the others alone. -/
theorem claim_aim {target : Option Handle}
    (claims : tailoring.claim target = .ok (handle, claimed)) :
    handle.index = writerAim tailoring.nodes.size target ∧ SameBut handle.index tailoring claimed := by
  rcases tailoring.target_cases target with ⟨wanted, rfl, known⟩ | unknown
  · obtain ⟨rfl, rfl⟩ := Prod.mk.inj (Except.ok.inj ((claim_of_lt known).symm.trans claims))
    exact ⟨(writerAim_of_lt known).symm, .refl _ _⟩
  · rw [claim_of_le unknown] at claims
    obtain ⟨node, -, last, rfl⟩ := allocate_eq_ok claims
    rw [writerAim_of_le unknown, last]
    exact ⟨rfl, .pushNode tailoring node⟩

/-- A writer that is not refused has written the node that it claimed, and answers the reference to
it. -/
theorem write_eq_ok {target : Option Handle} {reference : Element}
    (written : tailoring.write target change = (.ok reference, after)) :
    ∃ handle claimed node edited, tailoring.claim target = .ok (handle, claimed) ∧
      claimed.node? handle = some node ∧ node.apply change = .ok edited ∧
      reference = .ofHandle handle ∧ after = claimed.putNode handle edited := by
  unfold write at written
  rcases claims : tailoring.claim target with fault | ⟨handle, claimed⟩
  · simp only [claims, Prod.mk.injEq, reduceCtorEq, false_and] at written
  · cases found : claimed.node? handle with
    | none => simp only [claims, found, Prod.mk.injEq, reduceCtorEq, false_and] at written
    | some node =>
      cases applied : node.apply change with
      | error fault =>
        simp only [claims, found, applied, Prod.mk.injEq, reduceCtorEq, false_and] at written
      | ok edited =>
        simp only [claims, found, applied, Prod.mk.injEq, Except.ok.injEq] at written
        exact ⟨handle, claimed, node, edited, rfl, found, applied, written.1.symm, written.2.symm⟩

theorem sameBut_write (tailoring : Tailoring) (target : Option Handle) (change : Node.Edit) :
    SameBut (writerAim tailoring.nodes.size target) tailoring (tailoring.write target change).2 := by
  unfold write
  rcases claims : tailoring.claim target with fault | ⟨handle, claimed⟩
  · exact .refl _ _
  · obtain ⟨aim, same⟩ := claim_aim claims
    rw [← aim]
    simp only
    cases claimed.node? handle with
    | none => exact same
    | some node =>
      simp only
      cases node.apply change with
      | error fault => exact same
      | ok edited => exact same.trans (.putNode claimed handle edited)

/-! ## Which node is resolved -/

/-- The number that a handle carries, if it names one of `count` nodes. -/
def numberAmong (count : Nat) (handle : Handle) : Option Nat :=
  if handle.index < count then some handle.index else none

theorem numberAmong_ne (count : Nat) (handle : Handle) : numberAmong count handle ≠ some count := by
  intro same
  unfold numberAmong at same
  split at same
  · have := Option.some.inj same
    omega
  · cases same

theorem numberAmong_of_node? {node : Node} (found : tailoring.node? handle = some node) :
    numberAmong tailoring.nodes.size handle = some handle.index :=
  if_pos (lt_size_of_node? found)

/-- The number of the node that an edit works on where there are `count` nodes: the named one, or the
next one where no handle is given. -/
def editAim (count : Nat) : Option Handle → Option Nat
  | none => some count
  | some handle => numberAmong count handle

theorem getElem?_edit_of_ne (tailoring : Tailoring) (target : Option Handle) (change : Node.Edit)
    {index : Nat} (other : editAim tailoring.nodes.size target ≠ some index) :
    (tailoring.edit target change).2.nodes[index]? = tailoring.nodes[index]? := by
  have shown : ∀ {handle : Handle} {node : Node} {resolved : Tailoring},
      tailoring.resolve target = .ok (some (handle, node), resolved) →
      editAim tailoring.nodes.size target = some handle.index →
      SameBut handle.index tailoring resolved →
      (tailoring.edit target change).2.nodes[index]? = tailoring.nodes[index]? := by
    intro handle node resolved resolves aim same
    have differs : index ≠ handle.index := fun equal => other (equal ▸ aim)
    unfold edit
    simp only [resolves]
    cases node.apply change with
    | error fault => exact same index differs
    | ok edited => exact same.trans (.putNode resolved handle edited) index differs
  rcases resolves : tailoring.resolve target with fault | ⟨found, resolved⟩
  · unfold edit
    simp only [resolves]
  · cases resolved_of_resolve resolves with
    | missing =>
      unfold edit
      simp only [resolves]
    | there found => exact shown resolves (numberAmong_of_node? found) (.refl _ _)
    | @made handle node fresh last =>
      exact shown resolves (congrArg some last.symm) (last ▸ .pushNode tailoring node)

end Tailoring

namespace Session

open Tailoring (writerAim editAim numberAmong)

/-! ## Which node a request works on -/

/-- The number of the node that a request may write or make where there are `count` nodes.  A request
that aims at the number `count` may make a node. -/
def Request.aim (count : Nat) : Request → Option Nat
  | .allocate => some count
  | .resolve none => some count
  | .edit target _ => editAim count target
  | .write target _ => some (writerAim count target)
  | .change handle _ _ => numberAmong count handle
  | .attach _ handle => numberAmong count handle
  | _ => none

/-- A request changes no node but the one that it works on, and makes no other. -/
theorem getElem?_perform_of_ne (session : Session) (request : Request) {index : Nat}
    (other : request.aim session.tailoring.nodes.size ≠ some index) :
    (session.perform request).2.tailoring.nodes[index]? = session.tailoring.nodes[index]? := by
  have allocates : session.tailoring.nodes.size ≠ index →
      (session.perform .allocate).2.tailoring.nodes[index]? = session.tailoring.nodes[index]? := by
    intro differs
    simp only [perform]
    cases allocated : session.tailoring.allocate with
    | error fault => rfl
    | ok outcome => exact Tailoring.SameBut.allocate allocated index differs.symm
  cases request with
  | allocate => exact allocates fun same => other (congrArg some same)
  | resolve target =>
    cases target with
    | some handle => rfl
    | none =>
      have made := allocates fun same => other (congrArg some same)
      simp only [perform, Tailoring.resolve] at made ⊢
      cases allocated : session.tailoring.allocate with
      | error fault => rfl
      | ok outcome => rwa [allocated] at made
  | edit target change => exact session.tailoring.getElem?_edit_of_ne target change other
  | write target change =>
    exact session.tailoring.sameBut_write target change index fun same =>
      other (congrArg some same.symm)
  | change handle codePoint element =>
    cases found : session.tailoring.node? handle with
    | none => rw [perform_change_of_none (by simp [Tailoring.find, found])]
    | some node =>
      cases located : node.find codePoint with
      | none => rw [perform_change_of_none (by simp [Tailoring.find, found, located])]
      | some slot =>
        rw [perform_change_of_some found located]
        refine Tailoring.SameBut.putNode session.tailoring handle _ index fun same => other ?_
        rw [same]
        exact Tailoring.numberAmong_of_node? found
  | attach codePoint handle =>
    rcases session.perform_attach_cases codePoint handle with same | ⟨node, found, attached⟩
    · rw [same]
    · rw [attached]
      refine Tailoring.SameBut.putNode session.tailoring handle _ index fun same => other ?_
      rw [same]
      exact Tailoring.numberAmong_of_node? found
  | pack base classOf => rw [nodes_perform_pack]
  | _ => rfl

/-- So a node is made only where a request aims at the next number, and then just one. -/
theorem size_perform_cases (session : Session) (request : Request) :
    (session.perform request).2.tailoring.nodes.size = session.tailoring.nodes.size ∨
      request.aim session.tailoring.nodes.size = some session.tailoring.nodes.size ∧
        (session.perform request).2.tailoring.nodes.size = session.tailoring.nodes.size + 1 := by
  have grows := (session.perform_grows request).size_le
  -- where a number is not aimed at and has no node, it gets none
  have stays : ∀ index, session.tailoring.nodes.size ≤ index →
      request.aim session.tailoring.nodes.size ≠ some index →
      (session.perform request).2.tailoring.nodes.size ≤ index := by
    intro index beyond other
    have same := session.getElem?_perform_of_ne request other
    rwa [Array.getElem?_eq_none beyond, Array.getElem?_eq_none_iff] at same
  by_cases aims : request.aim session.tailoring.nodes.size = some session.tailoring.nodes.size
  · have one := stays (session.tailoring.nodes.size + 1) (by omega) (by simp [aims])
    rcases Nat.lt_or_ge session.tailoring.nodes.size
      (session.perform request).2.tailoring.nodes.size with more | same
    · exact Or.inr ⟨aims, by omega⟩
    · exact Or.inl (by omega)
  · exact Or.inl (Nat.le_antisymm (stays _ (Nat.le_refl _) aims) grows)

/-- May a request make a node at all?  Changing, attaching, looking up and packing never do, and
resolving and editing do not where a handle is given. -/
def Request.mayMake : Request → Bool
  | .allocate => true
  | .resolve none => true
  | .edit none _ => true
  | .write _ _ => true
  | _ => false

theorem Request.mayMake_of_aim {count : Nat} {request : Request}
    (aim : request.aim count = some count) : request.mayMake = true := by
  cases request with
  | resolve target =>
    cases target with
    | none => rfl
    | some handle => cases aim
  | edit target change =>
    cases target with
    | none => rfl
    | some handle => exact absurd aim (Tailoring.numberAmong_ne count handle)
  | allocate => rfl
  | write target change => rfl
  | change handle codePoint element => exact absurd aim (Tailoring.numberAmong_ne count handle)
  | attach codePoint handle => exact absurd aim (Tailoring.numberAmong_ne count handle)
  | _ => cases aim

theorem size_perform_of_not_mayMake (session : Session) {request : Request}
    (never : request.mayMake = false) :
    (session.perform request).2.tailoring.nodes.size = session.tailoring.nodes.size := by
  rcases session.size_perform_cases request with same | ⟨aim, -⟩
  · exact same
  · rw [Request.mayMake_of_aim aim] at never
    cases never

/-! ## The packed table and the main table -/

/-- Only a packing replaces the packed table. -/
theorem packed_perform_of_ne (session : Session) (request : Request)
    (other : ∀ base classOf, request ≠ .pack base classOf) :
    (session.perform request).2.tailoring.packed = session.tailoring.packed := by
  rcases session.record_perform_cases request with ⟨packed, -⟩ | ⟨base, classOf, packs, -⟩
  · exact packed
  · exact absurd packs (other base classOf)

/-- The requests that may write a code point of the main table: one that attaches it, one that writes
it outright, and a packing if a reference stands there. -/
inductive Request.Writes (table : MainTable) (codePoint : UInt16) : Request → Prop where
  | attach (handle : Handle) : Writes table codePoint (.attach codePoint handle)
  | assign (element : Element) : Writes table codePoint (.assign codePoint element)
  | pack (base : Nat) (classOf : UInt16 → UInt8)
      (refers : Element.isReferenceWord (table.get codePoint) = true) :
      Writes table codePoint (.pack base classOf)

/-- A code point that no such request writes keeps its word. -/
theorem get_perform_of_not_writes {session : Session} (sound : session.tailoring.Sound)
    (request : Request) {codePoint : UInt16} (others : ¬ request.Writes session.table codePoint) :
    (session.perform request).2.table.get codePoint = session.table.get codePoint := by
  by_cases onNodes : request.onNodes = true
  · rw [(session.record_perform onNodes).2.2]
  · cases request with
    | attach attached handle =>
      rcases session.perform_attach_cases attached handle with same | ⟨node, -, after⟩
      · rw [same]
      · rw [after]
        refine MainTable.get_set_of_ne session.table _ fun same => others ?_
        subst same
        exact .attach handle
    | assign assigned element =>
      refine MainTable.get_set_of_ne session.table _ fun same => others ?_
      subst same
      exact .assign element
    | pack base classOf =>
      rcases session.perform_pack_cases base classOf with same | ⟨-, -, laid⟩
      · rw [same]
      · rw [laid]
        -- a code point that is written refers to a node, so a reference stands there
        refine get_laidOut_of_other (fun payload refers => others (.pack base classOf ?_)) classOf
        rw [← sound.isReferenceWord_readThrough, ← Element.isReference_unpack,
          MainTable.reference?_eq_some_iff.mp refers.2]
        rfl
    | _ => exact absurd rfl onNodes

end Session

end Contractions
