-- SUMMARY: Accounts of resources that are acquired, change hands and are released: each is released or has exactly one holder.
import Mathlib.Data.List.Count
import Mathlib.Data.Nat.Notation
import Mathlib.Tactic.Basic

/-!
# Resources and their holders

Resources are numbered as they are acquired. The places that may hold one are those of the
program; what is needed of them here is how many of them hold resource `r`.
-/

namespace Go42

structure Ledger where
  /-- How many were acquired. -/
  acquired : ℕ
  /-- What was released, in this order. -/
  released : List ℕ
deriving DecidableEq

namespace Ledger

variable {L : Ledger} {held held' : ℕ → ℕ} {c r : ℕ}

def empty : Ledger := ⟨0, []⟩

def acquire (L : Ledger) : Ledger := { L with acquired := L.acquired + 1 }

def release (L : Ledger) (c : ℕ) : Ledger := { L with released := L.released ++ [c] }

/-- What was acquired was released once, or has one holder. -/
def Balanced (L : Ledger) (held : ℕ → ℕ) : Prop :=
  ∀ r, (r < L.acquired → L.released.count r + held r = 1) ∧ (L.acquired ≤ r → L.released.count r + held r = 0)

theorem balanced_empty (h : ∀ r, held r = 0) : empty.Balanced held :=
  fun r => ⟨fun hr => absurd hr (Nat.not_lt_zero r), fun _ => by simp [empty, h r]⟩

/-- A resource changes hands. -/
theorem Balanced.move (h : L.Balanced held) (hheld : ∀ r, held' r = held r) : L.Balanced held' := by
  intro r
  rw [hheld r]
  exact h r

theorem Balanced.acquire (h : L.Balanced held) (hheld : ∀ r, held' r = held r + [L.acquired].count r) :
    L.acquire.Balanced held' := by
  intro r
  obtain ⟨hold, hnew⟩ := h r
  have hcount : [L.acquired].count r = if L.acquired = r then 1 else 0 := by simp [List.count_singleton]
  simp only [Ledger.acquire, hheld r, hcount]
  split <;> omega

theorem Balanced.release (h : L.Balanced held) (hheld : ∀ r, held' r + [c].count r = held r) :
    (L.release c).Balanced held' := by
  intro r
  obtain ⟨hold, hnew⟩ := h r
  have hr := hheld r
  simp only [Ledger.release, List.count_append]
  omega

/-- What one place held and holds, and what became of the account meanwhile. -/
inductive Trade (L : Ledger) : Ledger → List ℕ → List ℕ → Prop where
  | keep (l : List ℕ) : Trade L L l l
  | acquire (l : List ℕ) : Trade L L.acquire l (L.acquired :: l)
  | release (c : ℕ) (l : List ℕ) : Trade L (L.release c) (c :: l) l

theorem Balanced.trade {L' : Ledger} {l l' : List ℕ} (h : L.Balanced held) (ht : L.Trade L' l l')
    (hheld : ∀ r, held' r + l.count r = held r + l'.count r) : L'.Balanced held' := by
  have hcons (c r : ℕ) (l : List ℕ) : (c :: l).count r = [c].count r + l.count r := by
    rw [← List.singleton_append, List.count_append]
  cases ht with
  | keep l => exact h.move fun r => Nat.add_right_cancel (hheld r)
  | acquire l =>
      refine h.acquire fun r => ?_
      have hr := hheld r
      rw [hcons] at hr
      omega
  | release c l =>
      refine h.release fun r => ?_
      have hr := hheld r
      rw [hcons] at hr
      omega

/-! ## What a balanced account says -/

theorem Balanced.released_nodup (h : L.Balanced held) : L.released.Nodup := by
  refine List.nodup_iff_count.mpr fun r => ?_
  obtain ⟨hold, hnew⟩ := h r
  omega

/-- What has a holder was acquired and not released, and has no other. -/
theorem Balanced.of_held (h : L.Balanced held) (hr : 0 < held r) :
    r < L.acquired ∧ r ∉ L.released ∧ held r = 1 := by
  obtain ⟨hold, hnew⟩ := h r
  have hlt : r < L.acquired := by omega
  refine ⟨hlt, fun hmem => ?_, by omega⟩
  have hcount := List.count_pos_iff.mpr hmem
  omega

/-- What was not released has a holder. -/
theorem Balanced.released_or_held (h : L.Balanced held) (hr : r < L.acquired) : r ∈ L.released ∨ held r = 1 := by
  have hold := (h r).1 hr
  by_cases hmem : r ∈ L.released
  · exact .inl hmem
  · rw [List.count_eq_zero_of_not_mem hmem] at hold
    exact .inr (by omega)

end Ledger
end Go42
