-- SUMMARY: A list of goroutines of which one goes on at a time: what becomes of counts, totals and facts about all.
import Mathlib.Algebra.Ring.Nat
import Mathlib.Data.List.Basic

/-!
# Pools of goroutines

Goroutine `i` of a pool goes from `x` to `y` when `y` takes the place of `x` at index `i`.
-/

namespace Go42.Pool

variable {α β : Type} {l : List α} {i j : ℕ} {x y z : α} {P : α → Prop}

/-- What a goroutine goes on to counts in its place. -/
theorem countP_set {p : α → Bool} (h : l[i]? = some x) :
    (l.set i y).countP p + (p x).toNat = l.countP p + (p y).toNat := by
  induction l generalizing i with
  | nil => cases h
  | cons a l ih =>
      cases i with
      | zero =>
          cases h
          simp only [List.set_cons_zero, List.countP_cons]
          cases p x <;> cases p y <;> simp
      | succ i =>
          have := ih (i := i) h
          simp only [List.set_cons_succ, List.countP_cons]
          omega

theorem sum_map_set {f : α → ℕ} (h : l[i]? = some x) :
    ((l.set i y).map f).sum + f x = (l.map f).sum + f y := by
  induction l generalizing i with
  | nil => cases h
  | cons a l ih =>
      cases i with
      | zero => cases h; simp; omega
      | succ i =>
          have := ih (i := i) h
          simp only [List.set_cons_succ, List.map_cons, List.sum_cons]
          omega

/-- A goroutine that keeps what `f` tells of it leaves all of them as they were. -/
theorem map_set {f : α → β} (h : l[i]? = some x) (hf : f y = f x) :
    (l.set i y).map f = l.map f := by
  rw [List.map_set, hf, ← List.map_set]
  congr 1
  exact List.ext_getElem? fun j => by
    rw [List.getElem?_set]
    split
    · rename_i hij
      subst hij
      obtain ⟨hlt, -⟩ := List.getElem?_eq_some_iff.mp h
      rw [if_pos hlt, h]
    · rfl

theorem forall_set (hl : ∀ z ∈ l, P z) (hy : P y) : ∀ z ∈ l.set i y, P z := by
  intro z hz
  rcases List.mem_or_eq_of_mem_set hz with hmem | rfl
  · exact hl z hmem
  · exact hy

theorem getElem?_set (h : l[i]? = some x) : (l.set i y)[i]? = some y :=
  List.getElem?_set_self (List.getElem?_eq_some_iff.mp h).1

/-- What is at an index now is where its goroutine went, or was there before. -/
theorem getElem?_set_cases (h : (l.set i y)[j]? = some z) : i = j ∧ z = y ∨ i ≠ j ∧ l[j]? = some z := by
  rcases eq_or_ne i j with rfl | hne
  · obtain ⟨hlt, hz⟩ := List.getElem?_eq_some_iff.mp h
    rw [List.getElem_set_self] at hz
    exact .inl ⟨rfl, hz.symm⟩
  · exact .inr ⟨hne, (List.getElem?_set_ne hne).symm.trans h⟩

theorem forall_getElem?_set {Q : ℕ → α → Prop} (hl : ∀ j z, l[j]? = some z → Q j z) (hy : Q i y) :
    ∀ j z, (l.set i y)[j]? = some z → Q j z := by
  intro j z hz
  rcases getElem?_set_cases hz with ⟨rfl, rfl⟩ | ⟨-, hold⟩
  · exact hy
  · exact hl j z hold

/-- The same for a goroutine that is new to the pool. -/
theorem forall_getElem?_append {Q : ℕ → α → Prop} (hl : ∀ j z, l[j]? = some z → Q j z) (hy : Q l.length y) :
    ∀ j z, (l ++ [y])[j]? = some z → Q j z := by
  intro j z hz
  rcases Nat.lt_trichotomy j l.length with hlt | rfl | hgt
  · exact hl j z (List.getElem?_append_left hlt ▸ hz)
  · rw [List.getElem?_concat_length] at hz
    exact Option.some.inj hz ▸ hy
  · rw [List.getElem?_eq_none (by simp; omega)] at hz
    cases hz

/-- The others are where they were. -/
theorem mem_set_of_mem (h : l[i]? = some x) (hz : z ∈ l) (hne : z ≠ x) : z ∈ l.set i y := by
  obtain ⟨j, hj⟩ := List.mem_iff_getElem?.mp hz
  have hij : i ≠ j := by
    rintro rfl
    rw [h] at hj
    exact hne (Option.some.inj hj).symm
  exact List.mem_of_getElem? ((List.getElem?_set_ne hij).trans hj)

theorem mem_set_self (h : l[i]? = some x) : y ∈ l.set i y := List.mem_of_getElem? (getElem?_set h)

end Go42.Pool
