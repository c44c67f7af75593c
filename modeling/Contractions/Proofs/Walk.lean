/-
# Contractions.Proofs.Walk — which sequences have an element of their own.

The nodes of a tailoring make a graph: on a code point a node leads to the node that the element
listed there refers to.  `Tailoring.isTailored` walks this graph along a sequence, and here is what it
decides, said of the graph alone.  At each code point a node does one of three things.  It leads on, or
it settles the matter with a final element, or it fails: it lists nothing there, or "not found", or a
reference that names no node.  Where the sequence ends, the reserved slot of the node reached decides.

Nothing is assumed about the graph.  Its nodes may list code points in any order, its references may
go round in circles, and they may name nodes that were never made; such a node lists nothing and has
no reserved slot.
-/
import Contractions.Proofs.Upkeep

namespace Contractions

/-- The part of a sequence that is read: a code point 0 ends it. -/
def spelled (sequence : List UInt16) : List UInt16 :=
  sequence.takeWhile (· ≠ 0)

theorem ne_zero_of_mem_spelled {sequence : List UInt16} {codePoint : UInt16}
    (mem : codePoint ∈ spelled sequence) : codePoint ≠ 0 := by
  simpa using List.all_eq_true.mp List.all_takeWhile codePoint mem

/-- What follows a sequence is read only where no code point 0 stands before it. -/
theorem spelled_prefix_append (sequence later : List UInt16) :
    spelled sequence <+: spelled (sequence ++ later) := by
  unfold spelled
  rw [List.takeWhile_append]
  split
  · rename_i whole
    rw [(List.takeWhile_prefix _).eq_of_length whole]
    exact List.prefix_append _ _
  · exact List.prefix_refl _

namespace Tailoring

variable {tailoring : Tailoring} {handle next target : Handle} {codePoint : UInt16}
  {sequence text : List UInt16}

/-! ## What a node does at a code point -/

/-- A node leads to another: it lists a reference to it. -/
def LeadsOn (tailoring : Tailoring) (handle : Handle) (codePoint : UInt16) (next : Handle) : Prop :=
  ∃ element, tailoring.lookup handle codePoint = some element ∧ element.handle? = some next

/-- A node settles the matter: it lists a final element other than "not found". -/
def SettlesOn (tailoring : Tailoring) (handle : Handle) (codePoint : UInt16) : Prop :=
  ∃ word, tailoring.lookup handle codePoint = some (.direct word) ∧ Element.direct word ≠ .notFound

/-- A node fails: it lists nothing, or "not found", or a reference without a handle. -/
def FailsOn (tailoring : Tailoring) (handle : Handle) (codePoint : UInt16) : Prop :=
  tailoring.lookup handle codePoint = none ∨
    tailoring.lookup handle codePoint = some .notFound ∨
    ∃ payload, tailoring.lookup handle codePoint = some (.reference payload) ∧
      Handle.ofPayload? payload = none

/-- A node was made and its reserved slot has an element. -/
def HasBase (tailoring : Tailoring) (handle : Handle) : Prop :=
  ∃ element, tailoring.elementAt handle 0 = some element ∧ element ≠ .notFound

/-- At every code point a node does one of the three. -/
theorem leadsOn_or_settlesOn_or_failsOn (tailoring : Tailoring) (handle : Handle)
    (codePoint : UInt16) :
    (∃ next, tailoring.LeadsOn handle codePoint next) ∨ tailoring.SettlesOn handle codePoint ∨
      tailoring.FailsOn handle codePoint := by
  cases found : tailoring.lookup handle codePoint with
  | none => exact Or.inr (Or.inr (Or.inl found))
  | some element =>
    cases element with
    | direct word =>
      by_cases final : Element.direct word = .notFound
      · exact Or.inr (Or.inr (Or.inr (Or.inl (final ▸ found))))
      · exact Or.inr (Or.inl ⟨word, found, final⟩)
    | reference payload =>
      cases named : Handle.ofPayload? payload with
      | none => exact Or.inr (Or.inr (Or.inr (Or.inr ⟨payload, found, named⟩)))
      | some next => exact Or.inl ⟨next, _, found, named⟩

theorem hasBase_iff : tailoring.HasBase handle ↔ (tailoring.base? handle).isSome = true := by
  unfold HasBase elementAt base?
  cases tailoring.node? handle with
  | none => simp
  | some node => simp [Node.elementAt, Node.base?, Node.logical]

/-- A node that was never made fails at every code point. -/
theorem failsOn_of_node?_eq_none (missing : tailoring.node? handle = none) (codePoint : UInt16) :
    tailoring.FailsOn handle codePoint := by
  refine Or.inl ?_
  unfold lookup
  rw [missing, Option.bind_none]

/-! ## One step of the walk -/

theorem isTailored_nil_iff : tailoring.isTailored handle [] = true ↔ tailoring.HasBase handle :=
  hasBase_iff.symm

theorem isTailored_of_leadsOn (leads : tailoring.LeadsOn handle codePoint next)
    (reads : codePoint ≠ 0) (rest : List UInt16) :
    tailoring.isTailored handle (codePoint :: rest) = tailoring.isTailored next rest := by
  obtain ⟨element, found, named⟩ := leads
  cases element with
  | direct word => cases named
  | reference payload =>
    have named : Handle.ofPayload? payload = some next := named
    simp only [isTailored, reads, if_false, found, named]

theorem isTailored_of_settlesOn (settles : tailoring.SettlesOn handle codePoint)
    (reads : codePoint ≠ 0) (rest : List UInt16) :
    tailoring.isTailored handle (codePoint :: rest) = true := by
  obtain ⟨word, found, final⟩ := settles
  have stands : (Element.direct word).isNotFound = false := by
    simpa only [Bool.eq_false_iff, ne_eq, Element.isNotFound_iff] using final
  simp only [isTailored, reads, if_false, found, stands, Bool.not_false]

theorem isTailored_of_failsOn (fails : tailoring.FailsOn handle codePoint)
    (reads : codePoint ≠ 0) (rest : List UInt16) :
    tailoring.isTailored handle (codePoint :: rest) = false := by
  rcases fails with found | found | ⟨payload, found, named⟩
  · simp only [isTailored, reads, if_false, found]
  · simp only [isTailored, reads, if_false, found, Element.notFound]
    rfl
  · simp only [isTailored, reads, if_false, found, named]

/-- Nothing behind a code point 0 is read. -/
theorem isTailored_spelled (tailoring : Tailoring) (handle : Handle) (sequence : List UInt16) :
    tailoring.isTailored handle (spelled sequence) = tailoring.isTailored handle sequence := by
  induction sequence generalizing handle with
  | nil => rfl
  | cons codePoint rest ih =>
    by_cases ends : codePoint = 0
    · simp [spelled, ends, isTailored]
    · have reads : spelled (codePoint :: rest) = codePoint :: spelled rest := by simp [spelled, ends]
      rw [reads]
      rcases tailoring.leadsOn_or_settlesOn_or_failsOn handle codePoint with
        ⟨next, leads⟩ | settles | fails
      · rw [isTailored_of_leadsOn leads ends, isTailored_of_leadsOn leads ends, ih]
      · rw [isTailored_of_settlesOn settles ends, isTailored_of_settlesOn settles ends]
      · rw [isTailored_of_failsOn fails ends, isTailored_of_failsOn fails ends]

/-! ## Walks through references alone -/

/-- A text leads from a node to another when each of its code points leads on. -/
inductive Leads (tailoring : Tailoring) : Handle → List UInt16 → Handle → Prop where
  | here (handle : Handle) : Leads tailoring handle [] handle
  | step {handle next target : Handle} {codePoint : UInt16} {rest : List UInt16}
      (leads : tailoring.LeadsOn handle codePoint next) (onward : Leads tailoring next rest target) :
      Leads tailoring handle (codePoint :: rest) target

/-- The nodes that a walk passes, with one more in front. -/
def passing (first : Handle) (nodes : Nat → Handle) : Nat → Handle
  | 0 => first
  | i + 1 => nodes i

/-- A text leads from node to node along the nodes that it passes. -/
theorem leads_iff : tailoring.Leads handle text target ↔
    ∃ nodes : Nat → Handle, nodes 0 = handle ∧ nodes text.length = target ∧
      ∀ i codePoint, text[i]? = some codePoint →
        tailoring.LeadsOn (nodes i) codePoint (nodes (i + 1)) := by
  constructor
  · intro leads
    induction leads with
    | here handle => exact ⟨fun _ => handle, rfl, rfl, by simp⟩
    | @step handle next target first rest leads onward ih =>
      obtain ⟨nodes, starts, ends, passes⟩ := ih
      refine ⟨passing handle nodes, rfl, ends, ?_⟩
      intro i codePoint at_i
      cases i with
      | zero =>
        obtain rfl : first = codePoint := by simpa using at_i
        rw [← starts] at leads
        exact leads
      | succ i => exact passes i codePoint (by simpa using at_i)
  · rintro ⟨nodes, rfl, rfl, passes⟩
    induction text generalizing nodes with
    | nil => exact .here _
    | cons first rest ih =>
      refine .step (passes 0 first rfl) (ih (fun i => nodes (i + 1)) ?_)
      intro i codePoint at_i
      exact passes (i + 1) codePoint (by simpa using at_i)

theorem leads_take_iff {steps : Nat} (inside : steps ≤ text.length) :
    tailoring.Leads handle (text.take steps) target ↔
      ∃ nodes : Nat → Handle, nodes 0 = handle ∧ nodes steps = target ∧
        ∀ i < steps, ∃ codePoint, text[i]? = some codePoint ∧
          tailoring.LeadsOn (nodes i) codePoint (nodes (i + 1)) := by
  rw [leads_iff, List.length_take_of_le inside]
  refine exists_congr fun nodes => and_congr_right' (and_congr_right' ?_)
  constructor
  · intro passes i below
    have at_i : text[i]? = some text[i] := List.getElem?_eq_getElem (by omega)
    exact ⟨_, at_i, passes i _ (by rw [List.getElem?_take_of_lt below, at_i])⟩
  · intro passes i codePoint at_i
    obtain ⟨below, there⟩ := List.getElem?_eq_some_iff.mp at_i
    rw [List.length_take] at below
    obtain ⟨other, at_other, leads⟩ := passes i (by omega)
    rw [List.getElem?_take_of_lt (by omega), at_other] at at_i
    rwa [Option.some.inj at_i] at leads

/-- What follows such a text is decided from the node that it leads to. -/
theorem Leads.isTailored_append (leads : tailoring.Leads handle text target)
    (reads : ∀ codePoint ∈ text, codePoint ≠ 0) (later : List UInt16) :
    tailoring.isTailored handle (text ++ later) = tailoring.isTailored target later := by
  induction leads with
  | here => rfl
  | step leads _ ih =>
    rw [List.cons_append, isTailored_of_leadsOn leads (reads _ List.mem_cons_self)]
    exact ih fun codePoint mem => reads codePoint (List.mem_cons_of_mem _ mem)

/-- A walk comes to its end at a node, or at a code point that settles the matter or fails. -/
theorem exists_leads (tailoring : Tailoring) (handle : Handle) (text : List UInt16) :
    ∃ steps target, steps ≤ text.length ∧ tailoring.Leads handle (text.take steps) target ∧
      (steps = text.length ∨
        ∃ codePoint, text[steps]? = some codePoint ∧
          (tailoring.SettlesOn target codePoint ∨ tailoring.FailsOn target codePoint)) := by
  induction text generalizing handle with
  | nil => exact ⟨0, handle, Nat.le_refl _, .here handle, Or.inl rfl⟩
  | cons codePoint rest ih =>
    rcases tailoring.leadsOn_or_settlesOn_or_failsOn handle codePoint with ⟨next, leads⟩ | stops
    · obtain ⟨steps, target, inside, onward, ends⟩ := ih next
      refine ⟨steps + 1, target, by simpa using inside, ?_, by simpa using ends⟩
      rw [List.take_succ_cons]
      exact .step leads onward
    · exact ⟨0, handle, Nat.zero_le _, .here handle, Or.inr ⟨codePoint, rfl, stops⟩⟩

/-! ## What a walk comes to -/

/-- A sequence that is longer still begins with the same text. -/
theorem isTailored_append_eq (tailoring : Tailoring) (handle : Handle)
    (sequence later : List UInt16) :
    ∃ more, tailoring.isTailored handle (sequence ++ later) =
      tailoring.isTailored handle (spelled sequence ++ more) := by
  obtain ⟨more, whole⟩ := spelled_prefix_append sequence later
  exact ⟨more, by rw [whole, isTailored_spelled]⟩

/-- A walk that stands somewhere in a text is decided from there. -/
theorem Leads.isTailored_take {steps : Nat}
    (leads : tailoring.Leads handle (text.take steps) target)
    (reads : ∀ codePoint ∈ text, codePoint ≠ 0) (later : List UInt16) :
    tailoring.isTailored handle (text ++ later) =
      tailoring.isTailored target (text.drop steps ++ later) := by
  have before : ∀ codePoint ∈ text.take steps, codePoint ≠ 0 :=
    fun codePoint mem => reads codePoint (List.mem_of_mem_take mem)
  rw [← leads.isTailored_append before, ← List.append_assoc, List.take_append_drop]

section Stops

variable {steps : Nat} (leads : tailoring.Leads handle ((spelled sequence).take steps) target)
  (stands : (spelled sequence)[steps]? = some codePoint)
include leads

/-- Where the text is at its end, the node that it leads to decides. -/
theorem Leads.isTailored_iff_hasBase (ends : steps = (spelled sequence).length) :
    tailoring.isTailored handle sequence = true ↔ tailoring.HasBase target := by
  have decided := leads.isTailored_take (fun _ => ne_zero_of_mem_spelled) []
  rw [List.append_nil, List.append_nil, isTailored_spelled, ends, List.drop_length] at decided
  rw [decided, isTailored_nil_iff]

include stands

/-- Otherwise the next code point does, whatever follows the sequence. -/
theorem Leads.exists_isTailored_eq (later : List UInt16) :
    codePoint ≠ 0 ∧ ∃ rest, tailoring.isTailored handle (sequence ++ later) =
      tailoring.isTailored target (codePoint :: rest) := by
  refine ⟨ne_zero_of_mem_spelled (List.mem_of_getElem? stands), ?_⟩
  obtain ⟨inside, rfl⟩ := List.getElem?_eq_some_iff.mp stands
  obtain ⟨more, same⟩ := tailoring.isTailored_append_eq handle sequence later
  refine ⟨(spelled sequence).drop (steps + 1) ++ more, ?_⟩
  rw [same, leads.isTailored_take fun _ => ne_zero_of_mem_spelled, ← List.cons_append,
    List.getElem_cons_drop]

theorem Leads.isTailored_of_settlesOn (settles : tailoring.SettlesOn target codePoint)
    (later : List UInt16) : tailoring.isTailored handle (sequence ++ later) = true := by
  obtain ⟨reads, rest, same⟩ := leads.exists_isTailored_eq stands later
  rw [same, Tailoring.isTailored_of_settlesOn settles reads]

theorem Leads.isTailored_of_failsOn (fails : tailoring.FailsOn target codePoint)
    (later : List UInt16) : tailoring.isTailored handle (sequence ++ later) = false := by
  obtain ⟨reads, rest, same⟩ := leads.exists_isTailored_eq stands later
  rw [same, Tailoring.isTailored_of_failsOn fails reads]

end Stops

/-- No walk goes on from a node that was never made. -/
theorem isTailored_of_node?_eq_none (missing : tailoring.node? handle = none)
    (sequence : List UInt16) : tailoring.isTailored handle sequence = false := by
  have baseless : (tailoring.base? handle).isSome = false := by
    unfold base?
    rw [missing]
    rfl
  cases sequence with
  | nil => exact baseless
  | cons codePoint rest =>
    by_cases ends : codePoint = 0
    · simp only [isTailored, ends, if_true, baseless]
    · exact isTailored_of_failsOn (failsOn_of_node?_eq_none missing codePoint) ends rest

/-- The walk says yes exactly when it ends at a node with an element of its own, or at a code point
that settles the matter. -/
theorem isTailored_iff_leads : tailoring.isTailored handle sequence = true ↔
    ∃ steps target, steps ≤ (spelled sequence).length ∧
      tailoring.Leads handle ((spelled sequence).take steps) target ∧
      (steps = (spelled sequence).length ∧ tailoring.HasBase target ∨
        ∃ codePoint, (spelled sequence)[steps]? = some codePoint ∧
          tailoring.SettlesOn target codePoint) := by
  constructor
  · intro tailored
    obtain ⟨steps, target, inside, leads, ends | ⟨codePoint, stands, stops⟩⟩ :=
      tailoring.exists_leads handle (spelled sequence)
    · exact ⟨steps, target, inside, leads,
        Or.inl ⟨ends, (leads.isTailored_iff_hasBase ends).mp tailored⟩⟩
    · refine ⟨steps, target, inside, leads, Or.inr ⟨codePoint, stands, ?_⟩⟩
      refine stops.resolve_right fun fails => ?_
      have untailored := leads.isTailored_of_failsOn stands fails []
      rw [List.append_nil, tailored] at untailored
      cases untailored
  · rintro ⟨steps, target, -, leads, ⟨ends, based⟩ | ⟨codePoint, stands, settles⟩⟩
    · exact (leads.isTailored_iff_hasBase ends).mpr based
    · have tailored := leads.isTailored_of_settlesOn stands settles []
      rwa [List.append_nil] at tailored

/-- What `isTailored` decides.  A sequence has an element of its own exactly when there are nodes
`nodes 0`, …, `nodes steps`, each of which leads to the next on the code point read there, and either
the text ends at the last of them, which has an element of its own, or that one settles the matter
on the next code point.

So whatever stands behind a code point 0 is not read; a text that leads from one node to another may
be read from the other; and what was settled, or failed, or went to a node that was never made, is not
changed by anything that follows. -/
theorem isTailored_exact (tailoring : Tailoring) (handle : Handle) (sequence : List UInt16) :
    let text := spelled sequence
    (tailoring.isTailored handle sequence = true ↔
      ∃ (steps : Nat) (nodes : Nat → Handle), steps ≤ text.length ∧ nodes 0 = handle ∧
        (∀ i < steps, ∃ codePoint, text[i]? = some codePoint ∧
          tailoring.LeadsOn (nodes i) codePoint (nodes (i + 1))) ∧
        (steps = text.length ∧ tailoring.HasBase (nodes steps) ∨
          ∃ codePoint, text[steps]? = some codePoint ∧
            tailoring.SettlesOn (nodes steps) codePoint)) ∧
      (∀ other, spelled other = text →
        tailoring.isTailored handle other = tailoring.isTailored handle sequence) ∧
      (∀ target, tailoring.Leads handle text target →
        (∀ later, tailoring.isTailored handle (text ++ later) =
          tailoring.isTailored target later) ∧
        (tailoring.node? target = none →
          ∀ later, tailoring.isTailored handle (sequence ++ later) = false)) ∧
      ∀ steps target codePoint, tailoring.Leads handle (text.take steps) target →
        text[steps]? = some codePoint →
        (tailoring.SettlesOn target codePoint →
          ∀ later, tailoring.isTailored handle (sequence ++ later) = true) ∧
        (tailoring.FailsOn target codePoint →
          ∀ later, tailoring.isTailored handle (sequence ++ later) = false) := by
  intro text
  have reads : ∀ codePoint ∈ text, codePoint ≠ 0 := fun _ => ne_zero_of_mem_spelled
  refine ⟨?_, ?_, ?_, ?_⟩
  · rw [isTailored_iff_leads]
    constructor
    · rintro ⟨steps, target, inside, leads, decided⟩
      obtain ⟨nodes, starts, rfl, passes⟩ := (leads_take_iff inside).mp leads
      exact ⟨steps, nodes, inside, starts, passes, decided⟩
    · rintro ⟨steps, nodes, inside, starts, passes, decided⟩
      exact ⟨steps, nodes steps, inside,
        (leads_take_iff inside).mpr ⟨nodes, starts, rfl, passes⟩, decided⟩
  · intro other same
    rw [← isTailored_spelled, same, isTailored_spelled]
  · intro target leads
    have onward := leads.isTailored_append reads
    refine ⟨onward, fun missing later => ?_⟩
    obtain ⟨more, same⟩ := tailoring.isTailored_append_eq handle sequence later
    rw [same, onward, isTailored_of_node?_eq_none missing]
  · intro steps target codePoint leads stands
    exact ⟨leads.isTailored_of_settlesOn stands, leads.isTailored_of_failsOn stands⟩

/-- Once round the ring a walk stands where it began. -/
theorem isTailored_exact_ring :
    let node : Handle := ⟨1, by decide⟩
    Session.ring.tailoring.Leads node (spelled [6, 5]) node ∧
      ∀ later, Session.ring.tailoring.isTailored node (spelled [6, 5] ++ later) =
        Session.ring.tailoring.isTailored node later := by
  intro node
  let other : Handle := ⟨0, by decide⟩
  have away : Session.ring.tailoring.LeadsOn node 6 other :=
    ⟨.reference 0, by decide +kernel, rfl⟩
  have back : Session.ring.tailoring.LeadsOn other 5 node :=
    ⟨.reference 1, by decide +kernel, rfl⟩
  have leads : Session.ring.tailoring.Leads node (spelled [6, 5]) node :=
    .step away (.step back (.here node))
  obtain ⟨-, -, onward, -⟩ := isTailored_exact Session.ring.tailoring node [6, 5]
  exact ⟨leads, (onward node leads).1⟩

end Tailoring

end Contractions
