-- SUMMARY: Components whose own steps come to an end: a rank that they lower, and the states in which none of them is enabled.
import Go42.Lib.Steps
import Mathlib.Data.List.Count
import Mathlib.Tactic.Basic

/-!
# Runs that come to rest

The actions of a component are its own steps and the moves of its environment. When every
own step lowers a rank, the component comes to rest whenever the environment does. What
it has achieved by then is a statement about its states at rest.
-/

namespace Go42

variable {σ α : Type} {next : σ → α → Option σ} {own : α → Bool} {rank : σ → ℕ} {k : ℕ} {s s' : σ}

/-- None of the component's own steps is enabled. -/
def AtRest (next : σ → α → Option σ) (own : α → Bool) (s : σ) : Prop :=
  ∀ a, own a = true → next s a = none

/-- Own steps lower `rank`; a move of the environment raises it by at most `k`. -/
structure Ranked (next : σ → α → Option σ) (own : α → Bool) (rank : σ → ℕ) (k : ℕ) : Prop where
  lowers : ∀ {s s' a}, next s a = some s' → own a = true → rank s' < rank s
  env : ∀ {s s' a}, next s a = some s' → own a = false → rank s' ≤ rank s + k

/-- There are only as many own steps as the rank and the environment allow for. -/
theorem Ranked.bound (hr : Ranked next own rank k) : ∀ {as : List α} {s s' : σ},
    runs next s as = some s' →
      as.countP own + rank s' ≤ rank s + k * as.countP (fun a => !own a) := by
  intro as
  induction as with
  | nil => intro s s' h; cases h; simp
  | cons a as ih =>
      intro s s' h
      obtain ⟨s₁, hstep, htail⟩ := runs_cons.mp h
      have hbound := ih htail
      cases ha : own a with
      | true =>
          have hlt := hr.lowers hstep ha
          simp only [List.countP_cons, ha, Bool.not_true, Bool.false_eq_true, if_true, if_false,
            Nat.add_zero]
          omega
      | false =>
          have hle := hr.env hstep ha
          simp only [List.countP_cons, ha, Bool.not_false, Bool.false_eq_true, if_true, if_false,
            Nat.add_zero, Nat.mul_add, Nat.mul_one]
          omega

theorem Ranked.countP_le (hr : Ranked next own rank k) {as : List α} (h : runs next s as = some s') :
    as.countP own ≤ rank s + k * as.countP (fun a => !own a) :=
  Nat.le_trans (Nat.le_add_right _ _) (hr.bound h)

/-- Left alone, the component comes to rest. -/
theorem Ranked.exists_atRest (hr : Ranked next own rank k) (s : σ) :
    ∃ as s', (∀ a ∈ as, own a = true) ∧ runs next s as = some s' ∧ AtRest next own s' := by
  by_cases hrest : AtRest next own s
  · exact ⟨[], s, by simp, rfl, hrest⟩
  · obtain ⟨a, ha, hstep⟩ : ∃ a, own a = true ∧ next s a ≠ none := by
      simpa [AtRest, not_forall] using hrest
    obtain ⟨s₁, hs₁⟩ := Option.ne_none_iff_exists'.mp hstep
    have hlt := hr.lowers hs₁ ha
    obtain ⟨as, s', hown, hrun, hq⟩ := Ranked.exists_atRest hr s₁
    exact ⟨a :: as, s', List.forall_mem_cons.mpr ⟨ha, hown⟩, runs_cons.mpr ⟨s₁, hs₁, hrun⟩, hq⟩
termination_by rank s

end Go42
