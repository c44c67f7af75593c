/-
# Contractions.Proofs.NewestWins — a node of inserted pairs is a map in which the newest wins.

Where the history of a node has nothing but insertions and changes, its pairs are described by it:
they are sorted, there is one for each insertion, and of equal code points the newest stands first.
Each deed keeps this up, whatever happens to other nodes in between, so the early-exit scan finds
what was given last.
-/
import Contractions.Proofs.History
import Contractions.Proofs.PackedLookup

namespace Contractions

/-! ## What insertions and changes lead to -/

/-- Pairs that are described by their history. -/
structure Newest (deeds : List Deed) (pairs : List Slot) : Prop where
  sorted : Slot.Sorted pairs
  /-- There is one pair for each insertion. -/
  codePoints : (pairs.map Slot.codePoint).Perm (deeds.filterMap Deed.inserted?)
  /-- The pairs of one code point are those inserted for it, the newest first. -/
  words : ∀ wanted,
    (Slot.listed wanted pairs).map Slot.word = (Deed.given wanted deeds).map Element.pack
  /-- In front stands the element that was given last. -/
  front : ∀ wanted, (Deed.given wanted deeds).head? = Deed.latest wanted deeds

namespace Newest

variable {deeds : List Deed} {pairs : List Slot}

theorem nil : Newest [] [] where
  sorted := .nil
  codePoints := .refl _
  words := fun _ => rfl
  front := fun _ => rfl

theorem insert (newest : Newest deeds pairs) (codePoint : UInt16) (element : Element) :
    Newest (.insert codePoint element :: deeds)
      (Slot.insertSorted (.of codePoint element) pairs) where
  sorted := newest.sorted.insertSorted _
  codePoints :=
    ((Slot.insertSorted_perm _ pairs).map _).trans (newest.codePoints.cons codePoint)
  words := by
    intro wanted
    rw [Slot.listed_insertSorted, Deed.given]
    by_cases same : codePoint = wanted
    · rw [if_pos same, if_pos (show (Slot.of codePoint element).codePoint = wanted from same),
        List.map_cons, List.map_cons, newest.words]
      rfl
    · rw [if_neg same, if_neg (show (Slot.of codePoint element).codePoint ≠ wanted from same),
        newest.words]
  front := by
    intro wanted
    rw [Deed.given, Deed.latest, List.findSome?_cons, Deed.gives?]
    by_cases same : codePoint = wanted
    · rw [if_pos same, if_pos same, List.head?_cons]
    · rw [if_neg same, if_neg same]
      exact newest.front wanted

theorem change (newest : Newest deeds pairs) {codePoint : UInt16} {position : Nat}
    (located : Slot.locate codePoint pairs = some position) (element : Element) :
    Newest (.change codePoint element :: deeds)
      (pairs.modify position (·.withElement element)) where
  sorted := newest.sorted.modify position element
  codePoints := by
    rw [Slot.map_codePoint_modify]
    exact newest.codePoints
  words := by
    intro wanted
    rw [Slot.listed_modify_of_locate located, Deed.given]
    by_cases same : codePoint = wanted
    · have words := newest.words codePoint
      rw [if_pos same, if_pos same, ← same]
      -- the foremost pair of the code point is the newest one
      cases listed : Slot.listed codePoint pairs with
      | nil =>
        rw [listed] at words
        rw [List.map_eq_nil_iff.mp words.symm]
        rfl
      | cons slot rest =>
        rw [listed] at words
        obtain ⟨first, others, elements, -, later⟩ := List.map_eq_cons_iff.mp words.symm
        rw [elements, List.modifyHead_cons, List.modifyHead_cons, List.map_cons, List.map_cons,
          later]
        rfl
    · rw [if_neg same, if_neg same, newest.words]
  front := by
    intro wanted
    rw [Deed.given, Deed.latest, List.findSome?_cons, Deed.gives?]
    by_cases same : codePoint = wanted
    · rw [if_pos same, if_pos same, ← same]
      -- a code point that is located was inserted
      have front := Slot.getElem?_of_locate located
      rw [List.getElem?_eq_getElem (Slot.locate_lt located)] at front
      have words := newest.words codePoint
      cases elements : Deed.given codePoint deeds with
      | nil =>
        rw [elements, List.map_nil, List.map_eq_nil_iff] at words
        rw [words] at front
        cases front
      | cons first others => rfl
    · rw [if_neg same, if_neg same]
      exact newest.front wanted

theorem of_wrought (wrought : Wrought [] deeds pairs) (only : .other ∉ deeds) :
    Newest deeds pairs := by
  induction wrought with
  | nothing => exact .nil
  | insert codePoint element _ ih =>
    exact (ih fun mem => only (List.mem_cons_of_mem _ mem)).insert codePoint element
  | change element _ located ih =>
    exact (ih fun mem => only (List.mem_cons_of_mem _ mem)).change located element
  | other => exact absurd List.mem_cons_self only

/-! ## Reading such pairs -/

theorem listed_eq_nil_iff (newest : Newest deeds pairs) (codePoint : UInt16) :
    Slot.listed codePoint pairs = [] ↔ codePoint ∉ deeds.filterMap Deed.inserted? := by
  rw [← newest.codePoints.mem_iff, List.eq_nil_iff_forall_not_mem, List.mem_map]
  constructor
  · rintro none ⟨slot, mem, same⟩
    exact none slot (Slot.mem_listed.mpr ⟨mem, same⟩)
  · intro absent slot mem
    obtain ⟨mem, same⟩ := Slot.mem_listed.mp mem
    exact absent ⟨slot, mem, same⟩

theorem locate_eq_none_iff (newest : Newest deeds pairs) (codePoint : UInt16) :
    Slot.locate codePoint pairs = none ↔ codePoint ∉ deeds.filterMap Deed.inserted? :=
  (newest.sorted.locate_eq_none_iff codePoint).trans (newest.listed_eq_nil_iff codePoint)

theorem latest_eq_none_iff (newest : Newest deeds pairs) (codePoint : UInt16) :
    Deed.latest codePoint deeds = none ↔ codePoint ∉ deeds.filterMap Deed.inserted? := by
  rw [← newest.listed_eq_nil_iff, ← newest.front, List.head?_eq_none_iff,
    ← List.map_eq_nil_iff (f := Element.pack), ← newest.words, List.map_eq_nil_iff]

/-- The scan stops at the element that was given last, as it is stored. -/
theorem scan_eq (newest : Newest deeds pairs) (codePoint : UInt16) :
    ((Slot.locate codePoint pairs).bind fun position => pairs[position]?.map Slot.element) =
      (Deed.latest codePoint deeds).map fun element => .unpack element.pack := by
  have words : (Slot.listed codePoint pairs).head?.map Slot.word =
      (Deed.latest codePoint deeds).map Element.pack := by
    rw [← newest.front, ← List.head?_map, ← List.head?_map, newest.words]
  have found : ((Slot.locate codePoint pairs).bind fun position =>
      pairs[position]?.map Slot.element) =
        ((Slot.listed codePoint pairs).head?.map Slot.word).map Element.unpack := by
    rw [Option.map_map]
    cases located : Slot.locate codePoint pairs with
    | none =>
      rw [(newest.sorted.locate_eq_none_iff codePoint).mp located]
      rfl
    | some position =>
      rw [Option.bind_some, Slot.getElem?_of_locate located]
      rfl
  rw [found, words, Option.map_map]
  rfl

end Newest

/-! ## Searching by the pairs alone -/

namespace Tailoring

theorem find_eq_locate (tailoring : Tailoring) (handle : Handle) (codePoint : UInt16) :
    tailoring.find handle codePoint =
      (Slot.locate codePoint (tailoring.pairsOf handle)).map (· + 1) := by
  unfold find pairsOf
  cases tailoring.node? handle <;> rfl

theorem lookup_eq_scan (tailoring : Tailoring) (handle : Handle) (codePoint : UInt16) :
    tailoring.lookup handle codePoint =
      (Slot.locate codePoint (tailoring.pairsOf handle)).bind fun position =>
        (tailoring.pairsOf handle)[position]?.map Slot.element := by
  unfold lookup pairsOf
  cases tailoring.node? handle with
  | none => rfl
  | some node => exact node.lookup_eq codePoint

end Tailoring

namespace Session

/-- A change goes to the slot where the scan of the pairs stops. -/
theorem perform_change_of_locate {session : Session} {handle : Handle} {codePoint : UInt16}
    {position : Nat}
    (located : Slot.locate codePoint (session.tailoring.pairsOf handle) = some position)
    (element : Element) :
    ∃ node, session.tailoring.node? handle = some node ∧
      node.pairs = session.tailoring.pairsOf handle ∧
      session.perform (.change handle codePoint element) =
        (.ok (.handle handle), { session with
          tailoring := session.tailoring.putNode handle
            { node with pairs := node.pairs.modify position (·.withElement element) } }) := by
  unfold Tailoring.pairsOf at located ⊢
  cases found : session.tailoring.node? handle with
  | none =>
    rw [found] at located
    cases located
  | some node =>
    rw [found] at located
    have slot : node.find codePoint = some (position + 1) := by
      unfold Node.find
      rw [show Slot.locate codePoint node.pairs = some position from located, Option.map_some]
    exact ⟨node, rfl, rfl, perform_change_of_some found slot element⟩

/-- A change is refused where the scan of the pairs stops nowhere. -/
theorem perform_change_refused_iff {session : Session} {handle : Handle} {codePoint : UInt16}
    (element : Element) :
    (session.perform (.change handle codePoint element)).1 = .error .notFound ↔
      Slot.locate codePoint (session.tailoring.pairsOf handle) = none := by
  constructor
  · intro refused
    by_contra listed
    obtain ⟨position, stops⟩ := Option.ne_none_iff_exists'.mp listed
    obtain ⟨node, -, -, performed⟩ := perform_change_of_locate stops element
    rw [performed] at refused
    cases refused
  · intro absent
    have missing : session.tailoring.find handle codePoint = none := by
      rw [session.tailoring.find_eq_locate, absent, Option.map_none]
    rw [perform_change_of_none missing]

/-! ## The law of inserted pairs -/

/-- A node to which nothing was done but insertions and changes lists its pairs in code point order,
one for each insertion, and of equal code points the newest first.  A lookup finds nothing where
nothing was inserted, and else the element that was given last, as it is stored; the slot found is
that of the newest pair; and a change is refused where nothing was inserted, and else replaces the
element of the newest pair and nothing besides.

It does not matter what else happened: the course may make and write other nodes, attach, assign,
pack and go on with copies. -/
theorem newest_wins (sizing : Sizing) (table : MainTable) (handle : Handle) {events : List Event}
    (only : .other ∉ Session.deeds { tailoring := .empty sizing, table } handle events) :
    let start : Session := { tailoring := .empty sizing, table }
    let session := start.after events
    let history := start.deeds handle events
    let pairs := session.tailoring.pairsOf handle
    let inserted := history.filterMap Deed.inserted?
    Slot.Sorted pairs ∧
      (pairs.map Slot.codePoint).Perm inserted ∧
      ∀ codePoint,
        (Slot.listed codePoint pairs).map Slot.word =
            (Deed.given codePoint history).map Element.pack ∧
          (session.tailoring.lookup handle codePoint = none ↔ codePoint ∉ inserted) ∧
          session.tailoring.lookup handle codePoint =
            (Deed.latest codePoint history).map (fun element => .unpack element.pack) ∧
          session.tailoring.find handle codePoint =
            (pairs.findIdx? fun slot => slot.codePoint = codePoint).map (· + 1) ∧
          ∀ element,
            ((session.perform (.change handle codePoint element)).1 = .error .notFound ↔
              codePoint ∉ inserted) ∧
            ∀ position, pairs.findIdx? (fun slot => slot.codePoint = codePoint) = some position →
              ∃ node, session.tailoring.node? handle = some node ∧ node.pairs = pairs ∧
                session.perform (.change handle codePoint element) =
                  (.ok (.handle handle), { session with
                    tailoring := session.tailoring.putNode handle
                      { node with pairs := pairs.modify position (·.withElement element) } }) := by
  intro start session history pairs inserted
  have wrought : Wrought (start.tailoring.pairsOf handle) history pairs := wrought_after events
  have newest : Newest history pairs := .of_wrought wrought only
  refine ⟨newest.sorted, newest.codePoints, ?_⟩
  intro codePoint
  have located := newest.locate_eq_none_iff codePoint
  have lookup := (session.tailoring.lookup_eq_scan handle codePoint).trans
    (newest.scan_eq codePoint)
  have find := session.tailoring.find_eq_locate handle codePoint
  have scan := newest.sorted.locate_eq_findIdx? codePoint
  refine ⟨newest.words codePoint, ?_, lookup, ?_, ?_⟩
  · rw [lookup, Option.map_eq_none_iff]
    exact newest.latest_eq_none_iff codePoint
  · rw [find, ← scan]
  · intro element
    refine ⟨?_, ?_⟩
    · rw [perform_change_refused_iff, located]
    · intro position first
      obtain ⟨node, found, same, performed⟩ := perform_change_of_locate (scan.trans first) element
      rw [same] at performed
      exact ⟨node, found, same, performed⟩

/-- A node with two pairs for one code point, one of them inserted behind a copy and changed behind
a packing. -/
theorem newest_wins_copied :
    let node : Handle := ⟨0, by decide⟩
    let events : List Event :=
      [.request (.write none (.insert 7 (.direct 1))),
        .request (.write none (.append 5 (.direct 2))),
        .request (.write (some node) (.insert 5 (.direct 3))), .copy,
        .request (.write (some node) (.insert 7 (.direct 4))), .request (.attach 1 node),
        .request (.pack 0 fun _ => 0), .request (.change node 7 (.direct 5))]
    let session := small.after events
    .other ∉ small.deeds node events ∧
      small.deeds node events =
        [.change 7 (.direct 5), .insert 7 (.direct 4), .insert 5 (.direct 3),
          .insert 7 (.direct 1)] ∧
      session.tailoring.lookup node 7 = some (.direct 5) ∧
      session.tailoring.lookup node 6 = none := by
  intro node events session
  have history : small.deeds node events =
      [.change 7 (.direct 5), .insert 7 (.direct 4), .insert 5 (.direct 3),
        .insert 7 (.direct 1)] := by
    decide +kernel
  have only : .other ∉ small.deeds node events := by
    rw [history]
    decide
  obtain ⟨-, -, each⟩ := newest_wins default (.filled 3 .notFound) node only
  have lookup : session.tailoring.lookup node 7 =
      (Deed.latest 7 (small.deeds node events)).map fun element => .unpack element.pack :=
    (each 7).2.2.1
  have absent : session.tailoring.lookup node 6 = none ↔
      6 ∉ (small.deeds node events).filterMap Deed.inserted? := (each 6).2.1
  rw [history] at lookup absent
  exact ⟨only, history, lookup, absent.mpr (by decide)⟩

end Session

end Contractions
