-- SUMMARY: The generic cell rate algorithm: how many requests it admits in a window, and the token bucket that it is.
import Go42.Lib.Steps
import Mathlib.Algebra.Order.Field.Rat
import Mathlib.Algebra.Order.Floor.Defs
import Mathlib.Data.Finset.Basic
import Mathlib.Data.Finset.Max
import Mathlib.Data.Int.Notation
import Mathlib.Tactic.FieldSimp
import Mathlib.Tactic.Linarith
import Mathlib.Tactic.Ring

/-!
# The generic cell rate algorithm

The state is one number, the theoretical arrival time: when the bucket would be full
again. A bucket that is not there is full.
-/

namespace Go42

/-- One token every `interval`, at most `burst` of them. -/
structure Gcra where
  interval : ℤ
  burst : ℤ
  interval_pos : 0 < interval
  burst_pos : 0 < burst

namespace Gcra

variable (p : Gcra)

/-- An arrival time that has passed counts as now. -/
def clamp (tat : Option ℤ) (now : ℤ) : ℤ := max (tat.getD now) now

/-- The bucket holds a whole token. -/
def Admits (tat : Option ℤ) (now : ℤ) : Prop := clamp tat now - (p.burst - 1) * p.interval ≤ now

instance (tat : Option ℤ) (now : ℤ) : Decidable (p.Admits tat now) :=
  inferInstanceAs (Decidable (_ ≤ _))

/-- The arrival time after a request that was admitted. -/
def after (tat : Option ℤ) (now : ℤ) : ℤ := clamp tat now + p.interval

def request (tat : Option ℤ) (now : ℤ) : Bool × Option ℤ :=
  if p.Admits tat now then (true, some (p.after tat now)) else (false, tat)

theorem le_clamp (tat : Option ℤ) (now : ℤ) : now ≤ clamp tat now := le_max_right _ _

theorem clamp_some (tat now : ℤ) : clamp (some tat) now = max tat now := rfl

theorem clamp_none (now : ℤ) : clamp none now = now := max_self now

/-- A bucket that is not there admits. -/
theorem admits_none (now : ℤ) : p.Admits none now := by
  have hnonneg : 0 ≤ (p.burst - 1) * p.interval :=
    mul_nonneg (Int.sub_nonneg.mpr p.burst_pos) p.interval_pos.le
  rw [Admits, clamp_none]
  exact sub_le_self now hnonneg

theorem lt_after (tat : Option ℤ) (now : ℤ) : now < p.after tat now :=
  (le_clamp tat now).trans_lt (lt_add_of_pos_right _ p.interval_pos)

variable {p} in
theorem Admits.after_le {tat : Option ℤ} {now : ℤ} (h : p.Admits tat now) :
    p.after tat now ≤ now + p.burst * p.interval := by
  unfold Admits at h
  unfold after
  linarith

/-! ## Admitted requests -/

/-- Requests that were admitted one after the other, the newest first, and the arrival time
that they left. Their times need not be in order. -/
inductive Admitted : Option ℤ → List ℤ → Prop where
  | nil : Admitted none []
  | cons {tat : Option ℤ} {now : ℤ} {nows : List ℤ} : Admitted tat nows → p.Admits tat now →
      Admitted (some (p.after tat now)) (now :: nows)

variable {p}

/-- Each request from `a` on has moved the arrival time one interval away from `a`. -/
theorem Admitted.spent {tat : Option ℤ} {nows : List ℤ} (h : p.Admitted tat nows) (a : ℤ)
    (hsome : nows.countP (a ≤ ·) ≠ 0) :
    ∃ t, tat = some t ∧ a + nows.countP (a ≤ ·) * p.interval ≤ t := by
  induction h with
  | nil => exact absurd rfl hsome
  | @cons tat now nows hold hadmits ih =>
      refine ⟨_, rfl, ?_⟩
      have hpos := p.interval_pos
      have hnow := le_clamp tat now
      rw [List.countP_cons] at hsome ⊢
      unfold after
      by_cases hzero : nows.countP (a ≤ ·) = 0
      · -- Only `now` can be from `a` on.
        rw [hzero] at hsome ⊢
        by_cases hin : a ≤ now
        · simp only [hin, decide_true, if_true]
          push_cast
          linarith
        · simp [hin] at hsome
      · obtain ⟨t, rfl, ht⟩ := ih hzero
        have hclamp : t ≤ clamp (some t) now := le_max_left _ _
        push_cast
        split
        · linarith
        · linarith

/-- No window of length `T` holds more than the burst and what is regained in it. -/
theorem Admitted.window {tat : Option ℤ} {nows : List ℤ} (h : p.Admitted tat nows) (a : ℤ) {T : ℤ}
    (hT : 0 ≤ T) : (nows.countP fun now => a ≤ now && now ≤ a + T : ℤ) ≤ p.burst + T / p.interval := by
  have hpos := p.interval_pos
  have hquot : 0 ≤ T / p.interval := Int.ediv_nonneg hT hpos.le
  have hburst := p.burst_pos
  induction h with
  | nil => rw [List.countP_nil]; omega
  | @cons tat now nows hold hadmits ih =>
      rw [List.countP_cons]
      split
      case isFalse => simpa using ih
      case isTrue hin =>
        rw [Bool.and_eq_true, decide_eq_true_eq, decide_eq_true_eq] at hin
        have hle : nows.countP (fun now => a ≤ now && now ≤ a + T) ≤ nows.countP (a ≤ ·) :=
          List.countP_mono_left fun x _ hx => (Bool.and_eq_true_iff.mp hx).1
        by_cases hzero : nows.countP (a ≤ ·) = 0
        · rw [hzero] at hle
          push_cast
          omega
        · obtain ⟨t, rfl, ht⟩ := hold.spent a hzero
          have hclamp : t ≤ clamp (some t) now := le_max_left _ _
          have hspent : ((nows.countP (a ≤ ·) : ℤ) - p.burst + 1) * p.interval ≤ T := by
            have hadm : clamp (some t) now - (p.burst - 1) * p.interval ≤ now := hadmits
            linarith
          have hquot' := (Int.le_ediv_iff_mul_le hpos).mpr hspent
          push_cast
          omega

/-- If any two of the requests that are counted have at most `c` intervals between them, there are
at most `c` more than the burst. -/
theorem Admitted.countP_le {tat : Option ℤ} {nows : List ℤ} (h : p.Admitted tat nows) {q : ℤ → Bool} {c : ℤ}
    (hc : 0 ≤ c) (hq : ∀ t ∈ nows, ∀ t' ∈ nows, q t → q t' → t ≤ t' → (t' - t) / p.interval ≤ c) :
    (nows.countP q : ℤ) ≤ p.burst + c := by
  have hburst := p.burst_pos
  rcases Finset.eq_empty_or_nonempty (nows.filter q).toFinset with hempty | hsome
  · have hzero : nows.countP q = 0 := by
      rw [List.countP_eq_length_filter, (List.toFinset_eq_empty_iff _).mp hempty, List.length_nil]
    rw [hzero]
    push_cast
    omega
  · obtain ⟨first, hfirst, hmin⟩ := Finset.exists_min_image _ id hsome
    obtain ⟨last, hlast, hmax⟩ := Finset.exists_max_image _ id hsome
    have hle : first ≤ last := hmin last hlast
    obtain ⟨hfirst, hqfirst⟩ := List.mem_filter.mp (List.mem_toFinset.mp hfirst)
    obtain ⟨hlast, hqlast⟩ := List.mem_filter.mp (List.mem_toFinset.mp hlast)
    have hwindow := h.window first (Int.sub_nonneg.mpr hle)
    have hcount : nows.countP q ≤ nows.countP fun now => first ≤ now && now ≤ first + (last - first) := by
      apply List.countP_mono_left
      intro t ht hqt
      have hmem : t ∈ (nows.filter q).toFinset := List.mem_toFinset.mpr (List.mem_filter.mpr ⟨ht, hqt⟩)
      rw [Bool.and_eq_true, decide_eq_true_eq, decide_eq_true_eq, add_sub_cancel]
      exact ⟨hmin t hmem, hmax t hmem⟩
    calc (nows.countP q : ℤ)
        ≤ nows.countP fun now => first ≤ now && now ≤ first + (last - first) := by exact_mod_cast hcount
      _ ≤ p.burst + (last - first) / p.interval := hwindow
      _ ≤ p.burst + c := by
          have := hq first hfirst last hlast hqfirst hqlast hle
          omega

/-! ## Requests in sequence -/

/-- The times of the requests that were admitted. -/
def admittedTimes (ts : List ℤ) (ds : List Bool) : List ℤ := ((ts.zip ds).filter Prod.snd).map Prod.fst

theorem mem_of_admittedTimes {ts : List ℤ} {ds : List Bool} {t : ℤ} (h : t ∈ admittedTimes ts ds) : t ∈ ts := by
  obtain ⟨r, hr, rfl⟩ := List.mem_map.mp h
  exact (List.of_mem_zip (List.mem_of_mem_filter hr)).1

theorem admittedTimes_all (ts : List ℤ) : admittedTimes ts (List.replicate ts.length true) = ts := by
  induction ts with
  | nil => rfl
  | cons t ts ih => exact congrArg (t :: ·) ih

theorem Admitted.answers (ts : List ℤ) : ∀ {tat : Option ℤ} {nows : List ℤ}, p.Admitted tat nows →
    ∃ tat', p.Admitted tat'
      ((admittedTimes ts ((answers p.request tat ts).map Prod.fst)).reverse ++ nows) := by
  induction ts with
  | nil => exact fun h => ⟨_, h⟩
  | cons t ts ih =>
      intro tat nows h
      rw [Go42.answers, List.map_cons, request]
      split
      case isTrue hadmits =>
        obtain ⟨tat', h'⟩ := ih (h.cons hadmits)
        refine ⟨tat', ?_⟩
        simpa [admittedTimes] using h'
      case isFalse hdenied =>
        obtain ⟨tat', h'⟩ := ih h
        exact ⟨tat', h'⟩

/-- A bucket whose arrival time has passed is like one that is not there. -/
theorem request_none_of_le {tat : Option ℤ} {now : ℤ} (h : ∀ t ∈ tat, t ≤ now) :
    p.request none now = p.request tat now := by
  have hclamp : clamp tat now = now := by
    cases tat with
    | none => exact clamp_none now
    | some t => exact max_eq_right (h t rfl)
  have hadmits : p.Admits tat now := by
    have hnone := p.admits_none now
    rw [Admits, clamp_none] at hnone
    rwa [Admits, hclamp]
  rw [request, request, if_pos hadmits, if_pos (p.admits_none now), after, after, clamp_none, hclamp]

/-! ### The fastest requests -/

/-- `n` more requests, one an interval. -/
def steady (p : Gcra) : ℤ → ℕ → List ℤ
  | now, 0 => [now]
  | now, n + 1 => now :: steady p (now + p.interval) n

/-- The burst at once, and then one request an interval. -/
def fastest (p : Gcra) (n : ℕ) : List ℤ := List.replicate (p.burst.toNat - 1) 0 ++ steady p 0 n

theorem steady_bounds (n : ℕ) : ∀ now, ∀ t ∈ steady p now n, now ≤ t ∧ t ≤ now + n * p.interval := by
  have hpos := p.interval_pos
  induction n with
  | zero =>
      intro now t ht
      rw [List.mem_singleton.mp ht]
      simp
  | succ n ih =>
      intro now t ht
      have hnonneg : 0 ≤ (n : ℤ) * p.interval := by positivity
      rcases List.mem_cons.mp ht with rfl | ht
      · push_cast
        constructor <;> linarith
      · obtain ⟨hle, hle'⟩ := ih _ t ht
        push_cast
        constructor <;> linarith

theorem steady_sorted (n : ℕ) : ∀ now, (steady p now n).Pairwise (· ≤ ·) := by
  induction n with
  | zero => exact fun now => List.pairwise_singleton _ _
  | succ n ih =>
      refine fun now => List.pairwise_cons.mpr ⟨fun t ht => ?_, ih _⟩
      exact (lt_add_of_pos_right now p.interval_pos).le.trans (steady_bounds n _ t ht).1

theorem steady_length (n : ℕ) : ∀ now, (steady p now n).length = n + 1 := by
  induction n with
  | zero => exact fun now => rfl
  | succ n ih => exact fun now => congrArg (· + 1) (ih _)

theorem fastest_bounds {n : ℕ} : ∀ t ∈ fastest p n, 0 ≤ t ∧ t ≤ n * p.interval := by
  intro t ht
  rcases List.mem_append.mp ht with ht | ht
  · rw [List.eq_of_mem_replicate ht]
    exact ⟨le_rfl, mul_nonneg (Int.natCast_nonneg n) p.interval_pos.le⟩
  · have hbounds := steady_bounds n 0 t ht
    rwa [zero_add] at hbounds

theorem fastest_sorted (n : ℕ) : (fastest p n).Pairwise (· ≤ ·) := by
  refine List.pairwise_append.mpr ⟨List.pairwise_replicate.mpr (.inr le_rfl), steady_sorted n 0, ?_⟩
  intro t ht t' ht'
  rw [List.eq_of_mem_replicate ht]
  exact (steady_bounds n 0 t' ht').1

theorem fastest_length (n : ℕ) : ((fastest p n).length : ℤ) = p.burst + n := by
  have hburst := p.burst_pos
  rw [fastest, List.length_append, List.length_replicate, steady_length]
  push_cast
  omega

/-- With one token left, one request an interval is admitted forever. -/
theorem steady_admitted (n : ℕ) : ∀ {tat : Option ℤ} {now : ℤ},
    clamp tat now = now + (p.burst - 1) * p.interval →
      (answers p.request tat (steady p now n)).map Prod.fst = List.replicate (n + 1) true := by
  have hburst := p.burst_pos
  have hpos := p.interval_pos
  have hnonneg : 0 ≤ (p.burst - 1) * p.interval := mul_nonneg (by omega) hpos.le
  induction n with
  | zero =>
      intro tat now h
      have hadmits : p.Admits tat now := by rw [Admits, h]; omega
      simp only [steady, answers, request, if_pos hadmits]
      rfl
  | succ n ih =>
      intro tat now h
      have hadmits : p.Admits tat now := by rw [Admits, h]; omega
      have hnext : clamp (some (p.after tat now)) (now + p.interval) =
          now + p.interval + (p.burst - 1) * p.interval := by
        rw [clamp_some, after, h]
        omega
      simp only [steady, answers, request, if_pos hadmits, List.map_cons, ih hnext]
      rfl

/-- One request of a burst, after `j` others at the same time. -/
theorem burst_request {tat : Option ℤ} {now j : ℤ} (hj : 0 ≤ j) (hle : j ≤ p.burst - 1)
    (h : clamp tat now = now + j * p.interval) :
    p.Admits tat now ∧ p.after tat now = now + (j + 1) * p.interval ∧
      clamp (some (p.after tat now)) now = now + (j + 1) * p.interval := by
  have hpos := p.interval_pos
  have hmul : j * p.interval ≤ (p.burst - 1) * p.interval := mul_le_mul_of_nonneg_right hle hpos.le
  have hafter : p.after tat now = now + (j + 1) * p.interval := by
    rw [after, h]
    ring
  have hnonneg : 0 ≤ (j + 1) * p.interval := mul_nonneg (by omega) hpos.le
  refine ⟨?_, hafter, ?_⟩
  · rw [Admits, h]
    omega
  · rw [clamp_some, hafter]
    exact max_eq_left (by omega)

/-- Each request of the burst takes one token. -/
theorem burst_admitted {ts : List ℤ} (j : ℕ) : ∀ {tat : Option ℤ} {i now : ℤ}, 0 ≤ i →
    clamp tat now = now + i * p.interval → i + j ≤ p.burst - 1 →
      ∃ tat', clamp tat' now = now + (i + j) * p.interval ∧
        (answers p.request tat (List.replicate j now ++ ts)).map Prod.fst =
          List.replicate j true ++ (answers p.request tat' ts).map Prod.fst := by
  induction j with
  | zero =>
      intro tat i now hi h hle
      exact ⟨tat, by simpa using h, rfl⟩
  | succ j ih =>
      intro tat i now hi h hle
      push_cast at hle
      obtain ⟨hadmits, -, hnext⟩ := burst_request hi (by omega) h
      obtain ⟨tat', htat', heq⟩ := ih (by omega : 0 ≤ i + 1) hnext (by omega)
      refine ⟨tat', by rw [htat']; push_cast; ring, ?_⟩
      simp only [List.replicate_succ, List.cons_append, answers, request, if_pos hadmits, List.map_cons, heq]

/-- All of the fastest requests are admitted. -/
theorem fastest_admitted (n : ℕ) : (answers p.request none (fastest p n)).map Prod.fst =
    List.replicate (fastest p n).length true := by
  have hburst := p.burst_pos
  have hfull : clamp none 0 = 0 + 0 * p.interval := by rw [clamp_none, zero_mul, add_zero]
  obtain ⟨tat, htat, heq⟩ := @burst_admitted p (steady p 0 n) (p.burst.toNat - 1) none 0 0 le_rfl hfull
    (by omega)
  have hone : clamp tat 0 = 0 + (p.burst - 1) * p.interval := by
    rw [htat]
    congr 2
    omega
  rw [fastest, heq, steady_admitted n hone, List.length_append, List.length_replicate, steady_length]
  exact List.replicate_append_replicate

/-! ## The token bucket -/

/-- The tokens, fractions included, that were there at the time of the last request. -/
structure Bucket where
  tokens : ℚ
  time : ℤ

/-- What the bucket has gained by `now`. -/
def Bucket.tokensAt (p : Gcra) (b : Bucket) (now : ℤ) : ℚ :=
  min p.burst (b.tokens + (now - b.time) / p.interval)

/-- A request takes one token, if there is a whole one. -/
def Bucket.request (p : Gcra) (b : Bucket) (now : ℤ) : Bool × Bucket :=
  if 1 ≤ b.tokensAt p now then (true, ⟨b.tokensAt p now - 1, now⟩)
  else (false, ⟨b.tokensAt p now, now⟩)

/-- A bucket that starts full. -/
def Bucket.full (p : Gcra) (time : ℤ) : Bucket := ⟨p.burst, time⟩

/-- The tokens that are missing come back until the arrival time. -/
def Bucket.Matches (p : Gcra) (tat : Option ℤ) (b : Bucket) : Prop :=
  b.tokens = p.burst - (clamp tat b.time - b.time) / p.interval

theorem Bucket.matches_full (time : ℤ) : Bucket.Matches p none (.full p time) := by
  simp [Bucket.Matches, Bucket.full, clamp]

theorem Bucket.Matches.tokensAt {tat : Option ℤ} {b : Bucket} (h : Bucket.Matches p tat b) {now : ℤ}
    (hnow : b.time ≤ now) : b.tokensAt p now = p.burst - (clamp tat now - now) / p.interval := by
  have hpos : (0 : ℚ) < p.interval := by exact_mod_cast p.interval_pos
  have hgained : b.tokens + (now - b.time) / p.interval =
      p.burst - ((clamp tat b.time - now : ℤ) : ℚ) / p.interval := by
    rw [h]
    push_cast
    ring
  rw [Bucket.tokensAt, hgained]
  rcases le_total (clamp tat b.time) now with hle | hle
  · -- The bucket is full again.
    have hclamp : clamp tat now = now := by
      cases tat with
      | none => exact max_self now
      | some t => exact max_eq_right ((le_max_left _ _).trans hle)
    have hnonpos : ((clamp tat b.time - now : ℤ) : ℚ) / p.interval ≤ 0 :=
      div_nonpos_of_nonpos_of_nonneg (by exact_mod_cast sub_nonpos.mpr hle) hpos.le
    rw [min_eq_left (by linarith), hclamp, sub_self, zero_div, sub_zero]
  · have hclamp : clamp tat now = clamp tat b.time := by
      cases tat with
      | none => exact le_antisymm (by simpa [clamp] using hle) (by simpa [clamp] using hnow)
      | some t =>
          rw [clamp_some, clamp_some] at *
          rcases le_total t b.time with ht | ht
          · rw [max_eq_right ht] at hle ⊢
            rw [le_antisymm hle hnow]
            exact max_eq_right ht
          · rw [max_eq_left ht] at hle ⊢
            exact max_eq_left hle
    have hnonneg : 0 ≤ ((clamp tat b.time - now : ℤ) : ℚ) / p.interval :=
      div_nonneg (by exact_mod_cast sub_nonneg.mpr hle) hpos.le
    rw [min_eq_right (by linarith), hclamp]
    push_cast
    rfl

/-- One request: the same decision, and the states still match. -/
theorem Bucket.Matches.request {tat : Option ℤ} {b : Bucket} (h : Bucket.Matches p tat b) {now : ℤ}
    (hnow : b.time ≤ now) : (p.request tat now).1 = (b.request p now).1 ∧
      Bucket.Matches p (p.request tat now).2 (b.request p now).2 ∧ (b.request p now).2.time = now := by
  have hpos : (0 : ℚ) < p.interval := by exact_mod_cast p.interval_pos
  have htokens := h.tokensAt hnow
  have hiff : p.Admits tat now ↔ 1 ≤ b.tokensAt p now := by
    rw [htokens, le_sub_comm, div_le_iff₀ hpos, Admits, sub_le_comm, ← Int.cast_le (R := ℚ)]
    push_cast
    rfl
  unfold Gcra.request Bucket.request
  by_cases hadmits : p.Admits tat now
  · rw [if_pos hadmits, if_pos (hiff.mp hadmits)]
    refine ⟨rfl, ?_, rfl⟩
    have hlater : clamp tat now ≤ p.after tat now := le_add_of_nonneg_right p.interval_pos.le
    have hafter : clamp (some (p.after tat now)) now = p.after tat now :=
      max_eq_left ((le_clamp tat now).trans hlater)
    rw [Bucket.Matches, hafter, htokens, after]
    push_cast
    field_simp
    ring
  · rw [if_neg hadmits, if_neg fun hone => hadmits (hiff.mpr hone)]
    exact ⟨rfl, htokens, rfl⟩

end Gcra
end Go42
