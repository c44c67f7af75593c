/-
# Contractions.Proofs.Doubling — how much room there is, whatever was asked for.

Room comes in two tables that grow by different rules.  A node doubles in front of a write that finds
it full; the room for nodes doubles behind a node that fills it.  `Doubled` describes either: the
room is what there was at the start, doubled some times, and the last time everything was in use.

Where a node starts depends on how it came about.  A made node starts with the room that the tailoring
gives to each; a copied one starts with the slots that were in use at the copying.  `Session.rooms`
follows that along a course, node by node.  The room for nodes starts once and for all, because a copy
keeps it, so it is the least doubling that exceeds the number of nodes (`Doubled.isLeast`).

The laws hold for every course from an opened tailoring, refusals included.  With them stands what
the room is good for: no access to the stored form of a node goes astray.
-/
import Mathlib.Order.Bounds.Basic
import Contractions.Proofs.Course
import Contractions.Proofs.Outcomes
import Contractions.Proofs.StoredRows

namespace Contractions

/-! ## Doubling -/

/-- Room that was `start` and doubled some times; at the last doubling all of it was in use, and use
has not gone back since. -/
def Doubled (start used capacity : Nat) : Prop :=
  ∃ times, capacity = start * 2 ^ times ∧ (0 < times → start * 2 ^ (times - 1) ≤ used)

namespace Doubled

variable {start used capacity : Nat}

theorem never (start used : Nat) : Doubled start used start :=
  ⟨0, by rw [Nat.pow_zero, Nat.mul_one], fun some => absurd some (Nat.lt_irrefl 0)⟩

theorem mono (doubled : Doubled start used capacity) {more : Nat} (le : used ≤ more) :
    Doubled start more capacity := by
  obtain ⟨times, room, last⟩ := doubled
  exact ⟨times, room, fun some => Nat.le_trans (last some) le⟩

theorem again (doubled : Doubled start used capacity) (full : capacity ≤ used) :
    Doubled start used (2 * capacity) := by
  obtain ⟨times, rfl, -⟩ := doubled
  refine ⟨times + 1, ?_, fun _ => full⟩
  rw [Nat.pow_succ, Nat.mul_comm (2 ^ times), Nat.mul_left_comm]

/-- Room that exceeds what is in use, and was never doubled before that was needed, is the least such
room. -/
theorem isLeast (doubled : Doubled start used capacity) (free : used < capacity) :
    IsLeast {room | used < room ∧ ∃ times, room = start * 2 ^ times} capacity := by
  obtain ⟨times, rfl, last⟩ := doubled
  refine ⟨⟨free, times, rfl⟩, ?_⟩
  rintro room ⟨exceeds, others, rfl⟩
  refine Nat.mul_le_mul_left start (Nat.pow_le_pow_right Nat.two_pos ?_)
  by_contra fewer
  -- room doubled less often would have been full already at the last doubling
  have behind : others ≤ times - 1 := by omega
  have full : start * 2 ^ others ≤ used :=
    Nat.le_trans (Nat.mul_le_mul_left start (Nat.pow_le_pow_right Nat.two_pos behind))
      (last (by omega))
  omega

end Doubled

/-! ## The room of a node -/

namespace Node

variable {node grown edited : Node} {room : Nat}

theorem capacity_fresh {capacity : Nat} (pos : 0 < capacity)
    (fresh : Node.fresh capacity = .ok node) : node.capacity = capacity := by
  unfold Node.fresh at fresh
  split at fresh
  · cases fresh
    simp only [Node.capacity, length, List.length_nil, List.length_replicate]
    omega
  · cases fresh

theorem capacity_copy (node : Node) : node.copy.capacity = node.length := rfl

theorem capacity_put (node : Node) (offset : Nat) (slot : Slot) :
    (node.put offset slot).capacity = node.capacity := by
  rw [← length_slots, slots_put, List.length_set, length_slots]

theorem capacity_setElement (node : Node) (slot : Nat) (element : Element) :
    (node.setElement slot element).capacity = node.capacity := by
  unfold capacity
  rw [length_setElement]
  cases slot <;> rfl

/-- To grow is to do nothing, or to double a node whose slots are all in use. -/
theorem capacity_grow (grows : node.grow = .ok grown) :
    grown.capacity = node.capacity ∨
      node.capacity = node.length ∧ grown.capacity = 2 * node.capacity := by
  have length : grown.length = node.length := congrArg List.length (logical_grow grows)
  unfold grow at grows
  split at grows
  · rename_i full
    have used : node.capacity = node.length := by
      rw [capacity, List.isEmpty_iff.mp full, List.length_nil, Nat.add_zero]
    split at grows
    · refine Or.inr ⟨used, ?_⟩
      rw [capacity, length]
      cases grows
      rw [List.length_replicate]
      omega
    · cases grows
  · cases grows
    exact Or.inl rfl

theorem doubled_grow (doubled : Doubled room node.length node.capacity)
    (grows : node.grow = .ok grown) : Doubled room grown.length grown.capacity := by
  have length : grown.length = node.length := congrArg List.length (logical_grow grows)
  rw [length]
  rcases capacity_grow grows with same | ⟨full, twice⟩
  · rwa [same]
  · rw [twice]
    exact doubled.again (Nat.le_of_eq full)

/-- A pair that takes a spare slot makes no room and needs none. -/
theorem doubled_take {pairs : List Slot} (doubled : Doubled room grown.length grown.capacity)
    (grows : node.grow = .ok grown) (one : pairs.length = grown.pairs.length + 1) :
    Doubled room ({ grown with pairs, spare := grown.spare.tail } : Node).length
      ({ grown with pairs, spare := grown.spare.tail } : Node).capacity := by
  obtain ⟨slot, rest, spare⟩ := spare_of_grow grows
  have capacity : ({ grown with pairs, spare := grown.spare.tail } : Node).capacity =
      grown.capacity := by
    simp only [Node.capacity, length, spare, one, List.tail_cons, List.length_cons]
    omega
  rw [capacity]
  refine doubled.mono ?_
  simp only [length, one]
  omega

theorem doubled_apply {edit : Edit} (doubled : Doubled room node.length node.capacity)
    (applied : node.apply edit = .ok edited) : Doubled room edited.length edited.capacity := by
  cases edit with
  | append codePoint element =>
    obtain ⟨grown, grows, rfl⟩ := Fault.map_eq_ok applied
    exact doubled_take (doubled_grow doubled grows) grows (by simp)
  | insert codePoint element =>
    obtain ⟨grown, grows, rfl⟩ := Fault.map_eq_ok applied
    exact doubled_take (doubled_grow doubled grows) grows (by simp)
  | overwrite offset codePoint element =>
    obtain ⟨-, rfl⟩ := apply_overwrite_eq_ok applied
    rwa [length_put, capacity_put]
  | setLast element =>
    cases applied
    unfold setLast
    rwa [length_setElement, capacity_setElement]
  | grow => exact doubled_grow doubled applied

end Node

/-- Two rows alike, in use from the front: the first place always is, and never more places than there
are. -/
structure Rows.Sound (rows : Rows) : Prop where
  alike : rows.codePoints.length = rows.words.length
  reserved : 1 ≤ rows.used
  within : rows.used ≤ rows.codePoints.length

theorem Node.sound_rows (node : Node) : node.rows.Sound where
  alike := by rw [length_codePoints_rows, length_words_rows]
  reserved := node.length_pos
  within := by
    rw [length_codePoints_rows]
    exact node.length_le_capacity

/-! ## The room for nodes -/

/-- The room for nodes: more than there are nodes, and doubled from what the tailoring was opened
with. -/
structure Tailoring.Roomy (sizing : Sizing) (tailoring : Tailoring) : Prop where
  sizing_eq : tailoring.sizing = sizing
  free : tailoring.nodes.size < tailoring.capacity
  doubled : Doubled sizing.nodes tailoring.nodes.size tailoring.capacity

namespace Tailoring.Roomy

variable {sizing : Sizing}

theorem opened (sizing : Sizing) : Roomy sizing (Tailoring.empty sizing) where
  sizing_eq := rfl
  free := sizing.nodes_pos
  doubled := .never _ _

theorem copy {tailoring : Tailoring} (roomy : Roomy sizing tailoring) :
    Roomy sizing tailoring.copy where
  sizing_eq := roomy.sizing_eq
  free := by
    rw [size_copy]
    exact roomy.free
  doubled := by
    rw [size_copy]
    exact roomy.doubled

theorem pushNode {tailoring : Tailoring} (roomy : Roomy sizing tailoring) (node : Node) :
    Roomy sizing (tailoring.pushNode node) := by
  have free := roomy.free
  have more := roomy.doubled.mono (Nat.le_succ _)
  refine ⟨roomy.sizing_eq, ?_, ?_⟩
  · rw [size_pushNode]
    simp only [Tailoring.pushNode]
    split <;> omega
  · rw [size_pushNode]
    simp only [Tailoring.pushNode]
    split
    · rename_i full
      exact more.again (Nat.le_of_eq full.symm)
    · exact more

theorem lasting (sizing : Sizing) : Session.Lasting (Roomy sizing) where
  putNode := by
    intro tailoring handle node roomy
    refine ⟨roomy.sizing_eq, ?_, ?_⟩
    · rw [size_putNode]
      exact roomy.free
    · rw [size_putNode]
      exact roomy.doubled
  pushNode := fun node _ roomy => roomy.pushNode node
  withRecord := fun _ _ roomy => ⟨roomy.sizing_eq, roomy.free, roomy.doubled⟩

end Tailoring.Roomy

namespace Session

/-! ## What the nodes started with -/

/-- What each node has started with after an event, given what it had started with before.  Only a
copying starts the nodes anew, each with the slots that it has in use. -/
def startAfter (session : Session) (start : Nat → Nat) : Event → Nat → Nat
  | .request _ => start
  | .copy => fun index => (session.tailoring.nodes[index]?.map Node.length).getD (start index)

/-- What each node has started with after a course. -/
def rooms (session : Session) (start : Nat → Nat) : List Event → Nat → Nat
  | [] => start
  | event :: events => (session.undergo event).2.rooms (session.startAfter start event) events

/-- Each node has room doubled from what it started with.  Those not made yet are going to start with
what the tailoring gives to each. -/
structure Started (sizing : Sizing) (start : Nat → Nat) (session : Session) : Prop where
  roomy : session.tailoring.Roomy sizing
  nodes : session.tailoring.EachNode fun index node =>
    Doubled (start index) node.length node.capacity
  unmade : ∀ index, session.tailoring.nodes.size ≤ index → start index = sizing.slots

namespace Started

variable {sizing : Sizing} {start : Nat → Nat} {session : Session}

theorem perform (started : Started sizing start session) (request : Request) :
    Started sizing start (session.perform request).2 where
  roomy := (Tailoring.Roomy.lasting sizing).perform started.roomy request
  nodes := by
    refine session.eachNode_perform request ?fresh ?edits ?changes ?bases started.nodes
    case fresh =>
      intro index node beyond fresh
      rw [started.roomy.sizing_eq] at fresh
      rw [started.unmade index beyond, Node.capacity_fresh sizing.slots_pos fresh]
      exact .never _ _
    case edits => exact fun edit _ index node edited doubled => Node.doubled_apply doubled
    case changes =>
      intro handle codePoint element _ index node slot doubled
      rwa [Node.length_setElement, Node.capacity_setElement]
    case bases =>
      intro index node word _ doubled
      rwa [Node.length_setElement, Node.capacity_setElement]
  unmade := fun index beyond =>
    started.unmade index (Nat.le_trans (session.perform_grows request).size_le beyond)

theorem copy (started : Started sizing start session) :
    Started sizing (session.startAfter start .copy) (session.undergo .copy).2 where
  roomy := started.roomy.copy
  nodes := by
    intro index node found
    simp only [undergo, Tailoring.copy, Array.getElem?_map] at found
    obtain ⟨original, before, rfl⟩ := Option.map_eq_some_iff.mp found
    have here : session.startAfter start .copy index = original.length := by
      simp only [startAfter, before, Option.map_some, Option.getD_some]
    rw [here, Node.capacity_copy]
    exact .never _ _
  unmade := by
    intro index beyond
    simp only [undergo, Tailoring.size_copy] at beyond
    have here : session.startAfter start .copy index = start index := by
      simp only [startAfter, Array.getElem?_eq_none beyond, Option.map_none, Option.getD_none]
    rw [here]
    exact started.unmade index beyond

theorem undergo (started : Started sizing start session) (event : Event) :
    Started sizing (session.startAfter start event) (session.undergo event).2 := by
  cases event with
  | request request => exact started.perform request
  | copy => exact started.copy

theorem after (started : Started sizing start session) (events : List Event) :
    Started sizing (session.rooms start events) (session.after events) := by
  induction events generalizing session start with
  | nil => exact started
  | cons event events ih => exact ih (started.undergo event)

end Started

/-! ## The law -/

/-- What is true of the room in a session: of the rows of every node, of what it started with, of the
room for nodes, and of every access to a node that is there or is going to be made. -/
structure Spacious (sizing : Sizing) (start : Nat → Nat) (session : Session) : Prop where
  rows : session.tailoring.EachNode fun _ node => node.rows.Sound
  doubled : session.tailoring.EachNode fun index node =>
    Doubled (start index) node.rows.used node.rows.codePoints.length
  capacity : IsLeast {room | session.tailoring.nodes.size < room ∧
    ∃ times, room = sizing.nodes * 2 ^ times} session.tailoring.capacity
  stored : session.tailoring.EachNode fun _ node => node.Stored
  makes : Rows.fresh session.tailoring.sizing.slots =
    some ((Node.fresh session.tailoring.sizing.slots).map Node.rows)

theorem Started.spacious {sizing : Sizing} {start : Nat → Nat} {session : Session}
    (started : Started sizing start session) : Spacious sizing start session where
  rows := fun _ node _ => node.sound_rows
  doubled := by
    intro index node found
    rw [Node.used_rows, Node.length_codePoints_rows]
    exact started.nodes index node found
  capacity := started.roomy.doubled.isLeast started.roomy.free
  stored := fun _ node _ => node.stored
  makes := Node.fresh_rows _

/-- However a tailoring was opened and whatever was asked of it since, refused or not, copies
included: room doubles only where all of it is in use, the room for nodes is the least that will do,
and no access to the rows of a node lies outside of them. -/
theorem spacious_after (sizing : Sizing) (table : MainTable) (events : List Event) :
    let opened : Session := { tailoring := .empty sizing, table }
    Spacious sizing (opened.rooms (fun _ => sizing.slots) events) (opened.after events) := by
  intro opened
  have started : Started sizing (fun _ => sizing.slots) opened :=
    { roomy := .opened sizing
      nodes := by
        intro index node found
        simp [opened, Tailoring.empty] at found
      unmade := fun _ _ => rfl }
  exact (started.after events).spacious

/-- A node that is made with room for one slot and takes two pairs has doubled twice; its copy starts
with the three slots in use and doubles for the next pair. -/
example :
    let opened : Session :=
      { tailoring := .empty { nodes := 1, slots := 1 }, table := .filled 0 .notFound }
    let made := List.replicate 2 (Event.request (.write (some ⟨0, by decide⟩) (.append 5 (.direct 6))))
    let events := made ++ .copy :: made.take 1
    (opened.after made).tailoring.nodes.map Node.capacity = #[4] ∧
      (opened.after events).tailoring.nodes.map Node.capacity = #[6] ∧
      opened.rooms (fun _ => 1) events 0 = 3 ∧ (opened.after events).tailoring.capacity = 2 := by
  decide +kernel

end Session

end Contractions
