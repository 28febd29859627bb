-- SUMMARY: Stable sorting of keyed values: a list sorted by key is determined by the values of each key in their order.
import Mathlib.Data.List.Sort
import Mathlib.Order.Defs.LinearOrder

/-!
# Stable sorting by key

Two lists that are sorted by key and hold the same values in the same order at every key
are equal. That is what makes a sort stable, and what identifies it.
-/

namespace Go42

variable {κ α : Type} [LinearOrder κ]

/-- Ascending by key, whatever the values. -/
def byKey (a b : κ × α) : Bool := decide (a.1 ≤ b.1)

theorem byKey_trans (a b c : κ × α) (hab : byKey a b = true) (hbc : byKey b c = true) :
    byKey a c = true := by
  simp only [byKey, decide_eq_true_eq] at *
  exact le_trans hab hbc

theorem byKey_total (a b : κ × α) : (byKey a b || byKey b a) = true := by
  simp only [byKey, Bool.or_eq_true, decide_eq_true_eq]
  exact le_total a.1 b.1

/-- The entries of key `k`, in their order. -/
def atKey (k : κ) (l : List (κ × α)) : List (κ × α) := l.filter fun e => decide (e.1 = k)

@[simp] theorem atKey_nil (k : κ) : atKey k ([] : List (κ × α)) = [] := rfl

@[simp] theorem atKey_append (k : κ) (l l' : List (κ × α)) :
    atKey k (l ++ l') = atKey k l ++ atKey k l' :=
  List.filter_append ..

theorem atKey_cons_self (e : κ × α) (l : List (κ × α)) : atKey e.1 (e :: l) = e :: atKey e.1 l := by
  simp [atKey]

theorem atKey_cons_ne {k : κ} {e : κ × α} (h : e.1 ≠ k) (l : List (κ × α)) :
    atKey k (e :: l) = atKey k l := by
  simp [atKey, h]

/-- The entries of one key are sorted already. -/
theorem atKey_pairwise (k : κ) (l : List (κ × α)) :
    (atKey k l).Pairwise fun a b => byKey a b = true := by
  apply List.pairwise_of_forall_mem_list
  intro a ha b hb
  have hak : a.1 = k := of_decide_eq_true (List.mem_filter.mp ha).2
  have hbk : b.1 = k := of_decide_eq_true (List.mem_filter.mp hb).2
  simp [byKey, hak, hbk]

/-- The first entry of a sorted list comes first among the entries of its key, so it is the
first of any sorted list with the same entries at every key. -/
theorem eq_of_atKey_eq {l l' : List (κ × α)} (hl : l.Pairwise fun a b => byKey a b = true)
    (hl' : l'.Pairwise fun a b => byKey a b = true) (h : ∀ k, atKey k l = atKey k l') : l = l' := by
  induction l generalizing l' with
  | nil =>
      cases l' with
      | nil => rfl
      | cons e l' =>
          have := h e.1
          rw [atKey_cons_self] at this
          cases this
  | cons e l ih =>
      cases l' with
      | nil =>
          have := h e.1
          rw [atKey_cons_self] at this
          cases this
      | cons e' l' =>
          have mem_of {x y : κ × α} {xs ys : List (κ × α)}
              (hxy : atKey x.1 (x :: xs) = atKey x.1 (y :: ys)) : x ∈ y :: ys := by
            have : x ∈ atKey x.1 (y :: ys) := by
              rw [← hxy, atKey_cons_self]
              exact List.mem_cons_self
            exact (List.mem_filter.mp this).1
          have le_head {x y : κ × α} {ys : List (κ × α)}
              (hys : (y :: ys).Pairwise fun a b => byKey a b = true) (hx : x ∈ y :: ys) :
              y.1 ≤ x.1 := by
            rcases List.mem_cons.mp hx with rfl | hx
            · exact le_refl _
            · exact of_decide_eq_true (List.rel_of_pairwise_cons hys hx)
          have hkey : e.1 = e'.1 :=
            le_antisymm (le_head hl (mem_of (h e'.1).symm)) (le_head hl' (mem_of (h e.1)))
          have hhead := h e.1
          rw [atKey_cons_self, hkey, atKey_cons_self] at hhead
          obtain ⟨rfl, -⟩ := List.cons.inj hhead
          congr 1
          apply ih hl.of_cons hl'.of_cons
          intro k
          have hk := h k
          rcases eq_or_ne e.1 k with rfl | hne
          · rw [atKey_cons_self, atKey_cons_self] at hk
            exact (List.cons.inj hk).2
          · rwa [atKey_cons_ne hne, atKey_cons_ne hne] at hk

section MergeSort

variable (l : List (κ × α))

/-- `l` in ascending order of keys; entries of one key stay in their order. -/
def stableSort : List (κ × α) := l.mergeSort byKey

theorem stableSort_perm : (stableSort l).Perm l := List.mergeSort_perm l byKey

theorem stableSort_pairwise : (stableSort l).Pairwise fun a b => byKey a b = true :=
  List.pairwise_mergeSort byKey_trans byKey_total l

theorem stableSort_atKey (k : κ) : atKey k (stableSort l) = atKey k l := by
  have hsub : (atKey k l).Sublist (stableSort l) :=
    List.sublist_mergeSort byKey_trans byKey_total (atKey_pairwise k l) List.filter_sublist
  have hsub' : (atKey k l).Sublist (atKey k (stableSort l)) := by
    have := hsub.filter fun e => decide (e.1 = k)
    simpa [atKey, List.filter_filter] using this
  exact (hsub'.eq_of_length ((stableSort_perm l).filter _).length_eq.symm).symm

variable {l}

/-- Whatever is sorted by key and keeps the entries of every key in their order is the
stable sort. -/
theorem eq_stableSort {l' : List (κ × α)} (hl' : l'.Pairwise fun a b => byKey a b = true)
    (h : ∀ k, atKey k l' = atKey k l) : l' = stableSort l :=
  eq_of_atKey_eq hl' (stableSort_pairwise l) fun k => (h k).trans (stableSort_atKey l k).symm

end MergeSort
end Go42
