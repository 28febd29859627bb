-- SUMMARY: Runs of a partial step function, and the rule that carries an invariant along them.
import Mathlib.Data.Nat.Notation
import Mathlib.Logic.Basic

/-!
# Runs of a step function

For components whose state and actions are given outright. An action that is not enabled
has no next state.
-/

namespace Go42

variable {σ α : Type}

/-- The state after a list of actions. -/
def runs (next : σ → α → Option σ) : σ → List α → Option σ
  | s, [] => some s
  | s, a :: as => (next s a).bind (runs next · as)

variable {next : σ → α → Option σ} {s s' : σ} {as bs : List α}

theorem runs_cons {a : α} :
    runs next s (a :: as) = some s' ↔ ∃ s₁, next s a = some s₁ ∧ runs next s₁ as = some s' := by
  simp [runs, Option.bind_eq_some_iff]

theorem runs_trans {s₁ : σ} (h : runs next s as = some s₁) (h₁ : runs next s₁ bs = some s') :
    runs next s (as ++ bs) = some s' := by
  induction as generalizing s with
  | nil => cases h; exact h₁
  | cons a as ih =>
      obtain ⟨s₂, hstep, htail⟩ := runs_cons.mp h
      exact runs_cons.mpr ⟨s₂, hstep, ih htail⟩

/-- What every step keeps, every run keeps. -/
theorem runs_invariant {inv : σ → Prop} (hstep : ∀ {s s' a}, inv s → next s a = some s' → inv s') :
    ∀ {as : List α} {s s' : σ}, inv s → runs next s as = some s' → inv s' := by
  intro as
  induction as with
  | nil => intro s s' hi h; cases h; exact hi
  | cons a as ih =>
      intro s s' hi h
      obtain ⟨s₁, h₁, h₂⟩ := runs_cons.mp h
      exact ih (hstep hi h₁) h₂

/-- The same for what is said of a state and of the actions that led to it. -/
theorem runs_history {inv : List α → σ → Prop}
    (hstep : ∀ {as s s' a}, inv as s → next s a = some s' → inv (as ++ [a]) s') :
    ∀ {bs as : List α} {s s' : σ}, inv as s → runs next s bs = some s' → inv (as ++ bs) s' := by
  intro bs
  induction bs with
  | nil => intro as s s' hi h; cases h; rwa [List.append_nil]
  | cons b bs ih =>
      intro as s s' hi h
      obtain ⟨s₁, h₁, h₂⟩ := runs_cons.mp h
      rw [List.append_cons]
      exact ih (hstep hi h₁) h₂

/-! ## Answers to a list of inputs -/

/-- What a total step function answers, and the states that it goes through. -/
def answers {β : Type} (step : σ → α → β × σ) : σ → List α → List (β × σ)
  | _, [] => []
  | s, a :: as => step s a :: answers step (step s a).2 as

/-- Two machines that agree in related states agree all along. -/
theorem answers_map {β γ δ τ : Type} {step : σ → α → β × σ} {step' : τ → α → γ × τ} {f : β × σ → δ}
    {g : γ × τ → δ} {R : σ → τ → Prop} {P : α → Prop}
    (hstep : ∀ {s t a}, P a → R s t → f (step s a) = g (step' t a) ∧ R (step s a).2 (step' t a).2) :
    ∀ {as : List α} {s : σ} {t : τ}, R s t → (∀ a ∈ as, P a) →
      (answers step s as).map f = (answers step' t as).map g := by
  intro as
  induction as with
  | nil => exact fun _ _ => rfl
  | cons a as ih =>
      intro s t hR hP
      obtain ⟨ha, has⟩ := List.forall_mem_cons.mp hP
      obtain ⟨heq, hR'⟩ := hstep ha hR
      rw [answers, answers, List.map_cons, List.map_cons, heq, ih hR' has]

/-- Inputs that are translated first. -/
theorem answers_comp {β γ : Type} {step : σ → β → γ × σ} {g : α → β} : ∀ {as : List α} {s : σ},
    answers (fun s a => step s (g a)) s as = answers step s (as.map g) := by
  intro as
  induction as with
  | nil => exact fun {_} => rfl
  | cons a as ih => exact congrArg (_ :: ·) ih

end Go42
