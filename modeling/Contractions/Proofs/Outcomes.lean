/-
# Contractions.Proofs.Outcomes — why an outcome is what it is, and when two of them agree.

An operation of several stages is refused at one of them, and what is refused behind a traversal was
refused at one of its items.  The lemmas here take such outcomes apart.  `Agree` compares the
outcomes of two operations: both are answers that are related, or both are refused for the same
reason.
-/
import Contractions.Fault

namespace Contractions

/-! ## What a refusal stops at -/

namespace Fault

variable {α β : Type}

theorem bind_eq_error_iff {outcome : Except Fault α} {next : α → Except Fault β} {fault : Fault} :
    (outcome >>= next) = .error fault ↔
      outcome = .error fault ∨ ∃ value, outcome = .ok value ∧ next value = .error fault := by
  cases outcome <;> simp [bind, Except.bind]

theorem map_eq_error_iff {outcome : Except Fault α} {f : α → β} {fault : Fault} :
    outcome.map f = .error fault ↔ outcome = .error fault := by
  cases outcome <;> simp [Except.map]

theorem map_eq_error {outcome : Except Fault α} {f : α → β} {fault : Fault}
    (refused : outcome.map f = .error fault) : outcome = .error fault :=
  map_eq_error_iff.mp refused

/-- The first item to stop at is the head, or the head lets pass and it is the first one behind. -/
theorem exists_first_cons {γ : Type} {fine stops : γ → Prop} {item : γ} {items : List γ} :
    (∃ front first back, item :: items = front ++ first :: back ∧
        (∀ earlier ∈ front, fine earlier) ∧ stops first) ↔
      stops item ∨ fine item ∧ ∃ front first back, items = front ++ first :: back ∧
        (∀ earlier ∈ front, fine earlier) ∧ stops first := by
  constructor
  · rintro ⟨front, first, back, split, fines, stop⟩
    cases front with
    | nil =>
      obtain ⟨rfl, -⟩ := List.cons.inj split
      exact Or.inl stop
    | cons earlier front =>
      obtain ⟨rfl, rfl⟩ := List.cons.inj split
      obtain ⟨here, rest⟩ := List.forall_mem_cons.mp fines
      exact Or.inr ⟨here, front, first, back, rfl, rest, stop⟩
  · rintro (stop | ⟨here, front, first, back, rfl, rest, stop⟩)
    · exact ⟨[], item, items, rfl, nofun, stop⟩
    · exact ⟨item :: front, first, back, rfl, List.forall_mem_cons.mpr ⟨here, rest⟩, stop⟩

/-- A traversal is refused at the first item that its step is refused at.  What becomes of an item
may depend on some part of it alone, its key. -/
theorem mapM_eq_error_iff {γ : Type} {step : α → Except Fault β} (key : α → γ)
    (fine : γ → Prop) (refuses : γ → Fault → Prop)
    (granted : ∀ item, (∃ value, step item = .ok value) ↔ fine (key item))
    (refused : ∀ item fault, step item = .error fault ↔ refuses (key item) fault)
    {items : List α} {fault : Fault} :
    items.mapM step = .error fault ↔ ∃ front first back, items.map key = front ++ first :: back ∧
      (∀ earlier ∈ front, fine earlier) ∧ refuses first fault := by
  induction items with
  | nil => simp [pure, Except.pure]
  | cons item items ih =>
    have later : ∀ value, ((do
        let values ← items.mapM step
        pure (value :: values)) : Except Fault (List β)) = .error fault ↔
          items.mapM step = .error fault := by
      intro value
      rw [bind_eq_error_iff]
      simp [pure, Except.pure]
    rw [List.mapM_cons, List.map_cons, exists_first_cons, bind_eq_error_iff, refused, ← ih,
      ← granted]
    simp only [later, exists_and_right]

theorem map_eq_ok {outcome : Except Fault α} {f : α → β} {result : β}
    (answers : outcome.map f = .ok result) : ∃ value, outcome = .ok value ∧ f value = result := by
  cases outcome with
  | error fault => cases answers
  | ok value =>
    cases answers
    exact ⟨value, rfl, rfl⟩

end Fault

/-! ## Outcomes that agree -/

/-- Two outcomes are answers that are related, or refusals for the same reason. -/
inductive Agree {α β : Type} (rel : α → β → Prop) : Except Fault α → Except Fault β → Prop where
  | ok {x : α} {y : β} (related : rel x y) : Agree rel (.ok x) (.ok y)
  | error (fault : Fault) : Agree rel (.error fault) (.error fault)

namespace Agree

variable {α β γ δ : Type} {rel : α → β → Prop} {rel' : γ → δ → Prop}

theorem elim {x : Except Fault α} {y : Except Fault β} (agree : Agree rel x y) :
    (∃ fault, x = .error fault ∧ y = .error fault) ∨ ∃ a b, x = .ok a ∧ y = .ok b ∧ rel a b := by
  cases agree with
  | ok related => exact Or.inr ⟨_, _, rfl, rfl, related⟩
  | error fault => exact Or.inl ⟨fault, rfl, rfl⟩

theorem refl {rel : α → α → Prop} (reflexive : ∀ x, rel x x) (outcome : Except Fault α) :
    Agree rel outcome outcome := by
  cases outcome with
  | error fault => exact .error fault
  | ok value => exact .ok (reflexive value)

theorem map {x : Except Fault α} {y : Except Fault β} (agree : Agree rel x y) {f : α → γ}
    {g : β → δ} (maps : ∀ a b, rel a b → rel' (f a) (g b)) : Agree rel' (x.map f) (y.map g) := by
  cases agree with
  | ok related => exact .ok (maps _ _ related)
  | error fault => exact .error fault

theorem mono {rel' : α → β → Prop} {x : Except Fault α} {y : Except Fault β}
    (agree : Agree rel x y) (weaker : ∀ a b, rel a b → rel' a b) : Agree rel' x y := by
  cases agree with
  | ok related => exact .ok (weaker _ _ related)
  | error fault => exact .error fault

end Agree

end Contractions
