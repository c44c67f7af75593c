/-
# Contractions.Proofs.Likeness — two tailorings that are related node by node.

Two laws compare a tailoring with another one whose nodes are not quite the same: a copy has no
spare room, and writes at a given place leave things behind that nobody reads.  What the two
comparisons share is stated here for any relation between nodes that keeps to what is read of a
node, `Node.Likeness`, and for two tailorings whose nodes are so related and which agree in
everything else, `Tailoring.Like`.  They read alike, they are packed alike, and every operation
leads from one such pair to another.

The one thing left open is whether an edit respects the relation.  Only the edit of a node that was
there before matters: a node made on the way is the same on both sides.
-/
import Contractions.Proofs.Edits
import Contractions.Proofs.Operations
import Contractions.Proofs.Outcomes
import Contractions.Proofs.PackedLookup

namespace Contractions

/-! ## Values that are related, if there are any -/

theorem elim_rel {α β : Type} {rel : α → β → Prop} {x : Option α} {y : Option β}
    (related : Option.Rel rel x y) :
    x = none ∧ y = none ∨ ∃ a b, x = some a ∧ y = some b ∧ rel a b := by
  cases related with
  | none => exact Or.inl ⟨rfl, rfl⟩
  | some here => exact Or.inr ⟨_, _, rfl, rfl, here⟩

theorem bind_eq_of_rel {α β γ : Type} {rel : α → β → Prop} {x : Option α} {y : Option β}
    (related : Option.Rel rel x y) {f : α → Option γ} {g : β → Option γ}
    (same : ∀ a b, rel a b → f a = g b) : x.bind f = y.bind g := by
  cases related with
  | some here => exact same _ _ here
  | none => rfl

theorem bind_rel {α β γ δ : Type} {rel : α → β → Prop} {rel' : γ → δ → Prop} {x : Option α}
    {y : Option β} (related : Option.Rel rel x y) {f : α → Option γ} {g : β → Option δ}
    (later : ∀ a b, rel a b → Option.Rel rel' (f a) (g b)) :
    Option.Rel rel' (x.bind f) (y.bind g) := by
  cases related with
  | some here => exact later _ _ here
  | none => exact .none

namespace Node

/-! ## Relations that keep to what is read of a node -/

/-- A relation between nodes under which they read alike, and which replacing the element of a slot
in use and copying respect. -/
structure Likeness (R : Node → Node → Prop) : Prop where
  refl : ∀ node, R node node
  word_eq : ∀ {x y}, R x y → x.reserved.word = y.reserved.word
  pairs_eq : ∀ {x y}, R x y → x.pairs = y.pairs
  setElement : ∀ {x y}, R x y → ∀ slot element,
    R (x.setElement slot element) (y.setElement slot element)
  copy : ∀ {x y}, R x y → R x.copy y.copy

/-- What is read of a node and packed: its pairs and the element of the reserved slot. -/
def bare (node : Node) : Node where
  reserved := ⟨0, node.reserved.word⟩
  pairs := node.pairs
  spare := []

namespace Likeness

variable {R : Node → Node → Prop} (law : Likeness R) {x y : Node} (like : R x y)
include law like

theorem bare_eq : x.bare = y.bare := by
  unfold bare
  rw [law.word_eq like, law.pairs_eq like]

theorem base?_eq : x.base? = y.base? := by
  unfold base? Slot.element
  rw [law.word_eq like]

theorem find_eq (codePoint : UInt16) : x.find codePoint = y.find codePoint := by
  unfold find
  rw [law.pairs_eq like]

theorem elementAt_eq (slot : Nat) : x.elementAt slot = y.elementAt slot := by
  cases slot with
  | zero =>
    show some (Element.unpack x.reserved.word) = some (Element.unpack y.reserved.word)
    rw [law.word_eq like]
  | succ k =>
    show x.pairs[k]?.map Slot.element = y.pairs[k]?.map Slot.element
    rw [law.pairs_eq like]

theorem lookup_eq (codePoint : UInt16) : x.lookup codePoint = y.lookup codePoint := by
  rw [Node.lookup_eq, Node.lookup_eq, law.pairs_eq like]

theorem based (previous : Element) : R (Session.based x previous) (Session.based y previous) := by
  unfold Session.based
  rw [law.base?_eq like]
  split
  · exact like
  · exact law.setElement like 0 previous

end Likeness

end Node

/-! ## Packing looks at nothing else -/

theorem slotStarts_map_bare (start : Nat) (nodes : List Node) :
    slotStarts start (nodes.map Node.bare) = slotStarts start nodes := by
  induction nodes generalizing start with
  | nil => rfl
  | cons node nodes ih =>
    rw [List.map_cons, slotStarts, slotStarts, ih]
    rfl

theorem slotCount_map_bare (nodes : List Node) :
    slotCount (nodes.map Node.bare) = slotCount nodes := by
  induction nodes with
  | nil => rfl
  | cons node nodes ih =>
    rw [List.map_cons, slotCount_cons, slotCount_cons, ih]
    rfl

theorem packNodes_map_bare (offsets : Array Nat) (classOf : UInt16 → UInt8) (nodes : List Node) :
    packNodes offsets classOf (nodes.map Node.bare) = packNodes offsets classOf nodes := by
  unfold packNodes
  rw [List.mapM_map]
  rfl

namespace Tailoring

theorem packPlan_map_bare (tailoring : Tailoring) (table : MainTable) (base : Nat)
    (classOf : UInt16 → UInt8) :
    packPlan { tailoring with nodes := tailoring.nodes.map Node.bare } table base classOf =
      tailoring.packPlan table base classOf := by
  unfold packPlan Packed.ofNodes placeNodes
  simp only [Array.toList_map, slotStarts_map_bare, slotCount_map_bare, packNodes_map_bare]

/-! ## Tailorings that are related node by node -/

/-- Two tailorings agree in everything but their nodes, and these are related one by one. -/
structure Like (R : Node → Node → Prop) (a b : Tailoring) : Prop where
  sizing : a.sizing = b.sizing
  capacity : a.capacity = b.capacity
  packed : a.packed = b.packed
  memory : a.memory = b.memory
  size : a.nodes.size = b.nodes.size
  nodes : ∀ index : Nat, Option.Rel R a.nodes[index]? b.nodes[index]?

namespace Like

variable {R : Node → Node → Prop} {a b : Tailoring}

theorem refl (reflexive : ∀ node, R node node) (a : Tailoring) : Like R a a where
  sizing := rfl
  capacity := rfl
  packed := rfl
  memory := rfl
  size := rfl
  nodes := by
    intro index
    cases a.nodes[index]? with
    | none => exact .none
    | some node => exact .some (reflexive node)

theorem symm (symmetric : ∀ x y, R x y → R y x) (like : Like R a b) : Like R b a where
  sizing := like.sizing.symm
  capacity := like.capacity.symm
  packed := like.packed.symm
  memory := like.memory.symm
  size := like.size.symm
  nodes := by
    intro index
    rcases elim_rel (like.nodes index) with ⟨left, right⟩ | ⟨x, y, left, right, related⟩
    · rw [left, right]
      exact .none
    · rw [left, right]
      exact .some (symmetric x y related)

theorem trans (transitive : ∀ x y z, R x y → R y z → R x z) {c : Tailoring} (left : Like R a b)
    (right : Like R b c) : Like R a c where
  sizing := left.sizing.trans right.sizing
  capacity := left.capacity.trans right.capacity
  packed := left.packed.trans right.packed
  memory := left.memory.trans right.memory
  size := left.size.trans right.size
  nodes := by
    intro index
    rcases elim_rel (left.nodes index) with ⟨first, middle⟩ | ⟨x, y, first, middle, related⟩
    · rcases elim_rel (right.nodes index) with ⟨-, last⟩ | ⟨y, z, same, -, -⟩
      · rw [first, last]
        exact .none
      · rw [middle] at same
        cases same
    · rcases elim_rel (right.nodes index) with ⟨same, -⟩ | ⟨y', z, same, last, relatedToo⟩
      · rw [middle] at same
        cases same
      · rw [middle] at same
        cases same
        rw [first, last]
        exact .some (transitive x y z related relatedToo)

theorem node? (like : Like R a b) (handle : Handle) :
    Option.Rel R (a.node? handle) (b.node? handle) :=
  like.nodes handle.index

/-- A handle that names a node on one side names one on the other. -/
theorem node?_some (like : Like R a b) {handle : Handle} {x : Node}
    (found : a.node? handle = some x) : ∃ y, b.node? handle = some y ∧ R x y := by
  rcases elim_rel (like.node? handle) with ⟨left, -⟩ | ⟨x', y, left, right, related⟩
  · rw [left] at found
    cases found
  · rw [left] at found
    cases found
    exact ⟨y, right, related⟩

theorem node?_none (like : Like R a b) {handle : Handle} (missing : a.node? handle = none) :
    b.node? handle = none := by
  rcases elim_rel (like.node? handle) with ⟨-, right⟩ | ⟨x, y, left, -, -⟩
  · exact right
  · rw [left] at missing
    cases missing

theorem putNode (like : Like R a b) {x y : Node} (related : R x y) (handle : Handle) :
    Like R (a.putNode handle x) (b.putNode handle y) where
  sizing := like.sizing
  capacity := like.capacity
  packed := like.packed
  memory := like.memory
  size := by rw [size_putNode, size_putNode, like.size]
  nodes := by
    intro index
    simp only [Tailoring.putNode, Array.getElem?_setIfInBounds, like.size]
    split
    · split
      · exact .some related
      · exact .none
    · exact like.nodes index

/-- To replace one node by a related one leads to a tailoring that is related node by node. -/
theorem of_putNode (reflexive : ∀ node, R node node) {handle : Handle} {x y : Node}
    (found : a.node? handle = some x) (related : R x y) : Like R a (a.putNode handle y) where
  sizing := rfl
  capacity := rfl
  packed := rfl
  memory := rfl
  size := (size_putNode a handle y).symm
  nodes := by
    intro index
    simp only [Tailoring.putNode, Array.getElem?_setIfInBounds, lt_size_of_node? found, if_true]
    split
    · rename_i same
      rw [← same]
      unfold Tailoring.node? at found
      rw [found]
      exact .some related
    · exact (refl reflexive a).nodes index

theorem pushNode (like : Like R a b) {x y : Node} (related : R x y) :
    Like R (a.pushNode x) (b.pushNode y) where
  sizing := like.sizing
  capacity := by simp only [Tailoring.pushNode, like.size, like.capacity]
  packed := like.packed
  memory := like.memory
  size := by simp only [Tailoring.pushNode, Array.size_push, like.size]
  nodes := by
    intro index
    simp only [Tailoring.pushNode, Array.getElem?_push, like.size]
    split
    · exact .some related
    · exact like.nodes index

/-! ## They read alike -/

section Reading

variable (law : Node.Likeness R) (like : Like R a b)
include law like

theorem base?_eq (handle : Handle) : a.base? handle = b.base? handle :=
  bind_eq_of_rel (like.node? handle) fun _ _ => law.base?_eq

theorem find_eq (handle : Handle) (codePoint : UInt16) :
    a.find handle codePoint = b.find handle codePoint :=
  bind_eq_of_rel (like.node? handle) fun _ _ related => law.find_eq related codePoint

theorem elementAt_eq (handle : Handle) (slot : Nat) :
    a.elementAt handle slot = b.elementAt handle slot :=
  bind_eq_of_rel (like.node? handle) fun _ _ related => law.elementAt_eq related slot

theorem lookup_eq (handle : Handle) (codePoint : UInt16) :
    a.lookup handle codePoint = b.lookup handle codePoint :=
  bind_eq_of_rel (like.node? handle) fun _ _ related => law.lookup_eq related codePoint

/-- Step for step the two walks find the same elements and go on to the same nodes. -/
theorem isTailored_eq (handle : Handle) (sequence : List UInt16) :
    a.isTailored handle sequence = b.isTailored handle sequence := by
  induction sequence generalizing handle with
  | nil =>
    unfold isTailored
    rw [like.base?_eq law]
  | cons codePoint rest ih =>
    unfold isTailored
    simp only [like.base?_eq law, like.lookup_eq law, ih]

theorem map_bare_eq : a.nodes.map Node.bare = b.nodes.map Node.bare := by
  apply Array.ext_getElem?
  intro index
  rw [Array.getElem?_map, Array.getElem?_map]
  rcases elim_rel (like.nodes index) with ⟨left, right⟩ | ⟨x, y, left, right, related⟩
  · rw [left, right]
  · rw [left, right, Option.map_some, Option.map_some, law.bare_eq related]

/-- The same packings are refused, for the same reason, and the others have the same plan. -/
theorem packPlan_eq (table : MainTable) (base : Nat) (classOf : UInt16 → UInt8) :
    a.packPlan table base classOf = b.packPlan table base classOf := by
  rw [← a.packPlan_map_bare, ← b.packPlan_map_bare, like.map_bare_eq law]
  unfold packPlan
  rw [like.memory]

end Reading

/-! ## Operations lead from such a pair to another -/

theorem allocate (law : Node.Likeness R) (like : Like R a b) :
    Agree (fun p q => p.1 = q.1 ∧ Like R p.2 q.2 ∧
        ∃ node, p.2.node? p.1 = some node ∧ q.2.node? q.1 = some node)
      a.allocate b.allocate := by
  unfold Tailoring.allocate
  rw [like.size, like.capacity, like.sizing]
  cases free : Handle.ofNat? b.nodes.size with
  | none => exact .error _
  | some handle =>
    have index := Handle.index_of_ofNat? free
    simp only
    split
    · cases Node.fresh b.sizing.slots with
      | error fault => exact .error fault
      | ok node =>
        refine .ok ⟨rfl, like.pushNode (law.refl node), node, ?_, ?_⟩
        · rw [node?_pushNode, like.size, if_pos index]
        · rw [node?_pushNode, if_pos index]
    · exact .error _

/-- How the two sides stand before an edit: at related nodes, which are the same unless they were
there before. -/
structure Ready (R : Node → Node → Prop) (a b : Tailoring) (target : Option Handle)
    (handle : Handle) (x y : Node) (after after' : Tailoring) : Prop where
  found : after.node? handle = some x
  found' : after'.node? handle = some y
  like : Like R after after'
  origin : x = y ∨ target = some handle ∧ a.node? handle = some x ∧ b.node? handle = some y

/-- An edit respects the relation between the nodes that a handle names. -/
def Respects (R : Node → Node → Prop) (a b : Tailoring) (target : Option Handle)
    (edit : Node.Edit) : Prop :=
  ∀ handle x y, target = some handle → a.node? handle = some x → b.node? handle = some y →
    Agree R (x.apply edit) (y.apply edit)

theorem Ready.apply (law : Node.Likeness R) {target : Option Handle} {handle : Handle} {x y : Node}
    {after after' : Tailoring} (ready : Ready R a b target handle x y after after')
    {edit : Node.Edit} (respects : Respects R a b target edit) :
    Agree R (x.apply edit) (y.apply edit) := by
  rcases ready.origin with rfl | ⟨same, found, found'⟩
  · exact .refl law.refl _
  · exact respects handle x y same found found'

theorem ready_of_allocate (law : Node.Likeness R) (like : Like R a b) (target : Option Handle) :
    Agree (fun p q => p.1 = q.1 ∧ ∃ x y, Ready R a b target p.1 x y p.2 q.2)
      a.allocate b.allocate := by
  refine (like.allocate law).mono ?_
  rintro ⟨handle, made⟩ ⟨handle', made'⟩ ⟨rfl, likeAfter, node, found, found'⟩
  exact ⟨rfl, node, node, found, found', likeAfter, Or.inl rfl⟩

theorem claim (law : Node.Likeness R) (like : Like R a b) (target : Option Handle) :
    Agree (fun p q => p.1 = q.1 ∧ ∃ x y, Ready R a b target p.1 x y p.2 q.2)
      (a.claim target) (b.claim target) := by
  cases target with
  | none => exact like.ready_of_allocate law none
  | some handle =>
    by_cases known : handle.index < a.nodes.size
    · have known' : handle.index < b.nodes.size := like.size ▸ known
      have found : a.node? handle = some a.nodes[handle.index] := Array.getElem?_eq_getElem known
      obtain ⟨y, found', -⟩ := like.node?_some found
      simp only [Tailoring.claim, known, known', if_true]
      exact .ok ⟨rfl, _, y, found, found', like, Or.inr ⟨rfl, found, found'⟩⟩
    · have known' : ¬ handle.index < b.nodes.size := like.size ▸ known
      simp only [Tailoring.claim, known, known', if_false]
      exact like.ready_of_allocate law (some handle)

theorem write (law : Node.Likeness R) (like : Like R a b) {target : Option Handle}
    {edit : Node.Edit} (respects : Respects R a b target edit) :
    Agree (· = ·) (a.write target edit).1 (b.write target edit).1 ∧
      Like R (a.write target edit).2 (b.write target edit).2 := by
  unfold Tailoring.write
  rcases (like.claim law target).elim with
    ⟨fault, left, right⟩ | ⟨⟨handle, after⟩, ⟨_, after'⟩, left, right, rfl, x, y, ready⟩
  · rw [left, right]
    exact ⟨.error fault, like⟩
  · simp only [left, right, ready.found, ready.found']
    rcases (ready.apply law respects).elim with
      ⟨fault, left, right⟩ | ⟨edited, edited', left, right, related⟩
    · rw [left, right]
      exact ⟨.error fault, ready.like⟩
    · rw [left, right]
      exact ⟨.ok rfl, ready.like.putNode related handle⟩

/-- The nodes that two answers show are related, under one handle. -/
def Shown (R : Node → Node → Prop) : Option (Handle × Node) → Option (Handle × Node) → Prop :=
  Option.Rel fun p q => p.1 = q.1 ∧ R p.2 q.2

theorem resolve (law : Node.Likeness R) (like : Like R a b) (target : Option Handle) :
    Agree (fun p q => Like R p.2 q.2 ∧
        (p.1 = none ∧ q.1 = none ∨ ∃ handle x y, p.1 = some (handle, x) ∧ q.1 = some (handle, y) ∧
          R x y ∧ Ready R a b target handle x y p.2 q.2))
      (a.resolve target) (b.resolve target) := by
  cases target with
  | none =>
    unfold Tailoring.resolve
    refine (like.ready_of_allocate law none).map ?_
    rintro ⟨handle, made⟩ ⟨_, made'⟩ ⟨rfl, x, y, ready⟩
    have related : R x y := by
      rcases ready.origin with rfl | ⟨none, -⟩
      · exact law.refl x
      · cases none
    refine ⟨ready.like, Or.inr ⟨handle, x, y, ?_, ?_, related, ready⟩⟩
    · simp only [ready.found, Option.map_some]
    · simp only [ready.found', Option.map_some]
  | some handle =>
    rcases elim_rel (like.node? handle) with ⟨left, right⟩ | ⟨x, y, left, right, related⟩
    · simp only [Tailoring.resolve, left, right]
      exact .ok ⟨like, Or.inl ⟨rfl, rfl⟩⟩
    · simp only [Tailoring.resolve, left, right]
      exact .ok ⟨like, Or.inr ⟨handle, x, y, rfl, rfl, related, left, right, like,
        Or.inr ⟨rfl, left, right⟩⟩⟩

theorem edit (law : Node.Likeness R) (like : Like R a b) {target : Option Handle}
    {edit : Node.Edit} (respects : Respects R a b target edit) :
    Agree (Shown R) (a.edit target edit).1 (b.edit target edit).1 ∧
      Like R (a.edit target edit).2 (b.edit target edit).2 := by
  unfold Tailoring.edit
  rcases (like.resolve law target).elim with ⟨fault, left, right⟩ |
    ⟨⟨_, after⟩, ⟨_, after'⟩, left, right, likeAfter,
      ⟨rfl, rfl⟩ | ⟨handle, x, y, rfl, rfl, -, ready⟩⟩
  · rw [left, right]
    exact ⟨.error fault, like⟩
  · rw [left, right]
    exact ⟨.ok .none, likeAfter⟩
  · simp only [left, right]
    rcases (ready.apply law respects).elim with
      ⟨fault, left, right⟩ | ⟨edited, edited', left, right, related⟩
    · rw [left, right]
      exact ⟨.error fault, likeAfter⟩
    · rw [left, right]
      exact ⟨.ok (.some ⟨rfl, related⟩), likeAfter.putNode related handle⟩

theorem change (law : Node.Likeness R) (like : Like R a b) (handle : Handle) (codePoint : UInt16)
    (element : Element) :
    Agree (Like R) (a.change handle codePoint element) (b.change handle codePoint element) := by
  unfold Tailoring.change
  rcases elim_rel (like.node? handle) with ⟨left, right⟩ | ⟨x, y, left, right, related⟩
  · rw [left, right]
    exact .error .notFound
  · simp only [left, right, law.find_eq related]
    cases y.find codePoint with
    | none => exact .error .notFound
    | some slot => exact .ok (like.putNode (law.setElement related slot element) handle)

theorem copy (law : Node.Likeness R) (like : Like R a b) : Like R a.copy b.copy where
  sizing := like.sizing
  capacity := like.capacity
  packed := like.packed
  memory := like.memory
  size := by simp only [Tailoring.copy, Array.size_map, like.size]
  nodes := by
    intro index
    simp only [Tailoring.copy, Array.getElem?_map]
    rcases elim_rel (like.nodes index) with ⟨left, right⟩ | ⟨x, y, left, right, related⟩
    · rw [left, right]
      exact .none
    · rw [left, right]
      exact .some (law.copy related)

end Like

end Tailoring

end Contractions
