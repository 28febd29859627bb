-- SUMMARY: The delay before the next attempt: doubling with a cap, exact however many attempts have failed, and its jitter.
import Go42.Outbox.Publisher
import Mathlib.Algebra.Order.Floor.Ring
import Mathlib.Data.Rat.Floor
import Mathlib.Tactic.Linarith

/-!
# The retry delay

The loop doubles the delay until half of the cap is passed. The cap is at most `2 ^ 63 - 1`
and the delay at least one, so it is over before the delay has doubled 63 times.
-/

namespace Go42.Outbox

/-- The delays with which `backoffLoop` begins its rounds. -/
def backoffRounds (maxBackoff : ℤ) : ℕ → ℤ → List ℤ
  | 0, _ => []
  | n + 1, delay =>
    if delay < maxBackoff then
      if maxBackoff.tdiv 2 < delay then [delay]
      else delay :: backoffRounds maxBackoff n (wrapInt64 (delay * 2))
    else []

/-- The delay after a round that begins with `delay`. -/
def backoffRound (maxBackoff delay : ℤ) : ℤ :=
  if maxBackoff.tdiv 2 < delay then maxBackoff else wrapInt64 (delay * 2)

/-- Go's conversion of a number to an `int64`, towards zero. -/
def truncate (q : ℚ) : ℤ := q.num.tdiv q.den

/-- The delay with its jitter, for the number that `rand.Float64` gives. -/
def jittered (delay : ℤ) (random : ℚ) : ℤ := truncate (delay * (1 / 2 + random / 2))

/-! ## The doubling -/

variable {maxBackoff delay : ℤ}

/-- The loop gives what its last round gives, and the delay as it is when there is none. -/
theorem backoffLoop_eq (n : ℕ) :
    backoffLoop maxBackoff n delay =
      (backoffRounds maxBackoff n delay).getLast?.elim delay (backoffRound maxBackoff) := by
  induction n generalizing delay with
  | zero => rfl
  | succ n ih =>
      rw [backoffLoop, backoffRounds]
      split
      case isTrue =>
        split
        case isTrue hhalf => exact (if_pos hhalf).symm
        case isFalse hhalf =>
          -- the delay of the next round is what this one gives
          have hround : backoffRound maxBackoff delay = wrapInt64 (delay * 2) := if_neg hhalf
          rw [ih, List.getLast?_cons]
          cases (backoffRounds maxBackoff n (wrapInt64 (delay * 2))).getLast? with
          | none => exact hround.symm
          | some d => rfl
      case isFalse => rfl

/-- A delay of at most half the cap can be doubled. -/
theorem doubled (hdelay : 0 < delay) (hmax : 0 < maxBackoff) (hmax' : InInt64 maxBackoff)
    (hhalf : ¬maxBackoff.tdiv 2 < delay) :
    delay * 2 ≤ maxBackoff ∧ InInt64 (delay * 2) ∧ wrapInt64 (delay * 2) = delay * 2 := by
  have hle : delay * 2 ≤ maxBackoff := by
    rw [Int.tdiv_eq_ediv_of_nonneg hmax.le] at hhalf
    omega
  have hin : InInt64 (delay * 2) := ⟨by omega, hle.trans_lt hmax'.2⟩
  exact ⟨hle, hin, wrapInt64_eq hin⟩

/-- Up to the cap, the loop computes the power of two. -/
theorem min_backoffLoop (hmax : 0 < maxBackoff) (hmax' : InInt64 maxBackoff) (n : ℕ)
    (hdelay : 0 < delay) :
    min (backoffLoop maxBackoff n delay) maxBackoff = min (delay * 2 ^ n) maxBackoff := by
  induction n generalizing delay with
  | zero => simp [backoffLoop]
  | succ n ih =>
      have hpow : (1 : ℤ) ≤ 2 ^ n := one_le_pow₀ (by decide)
      have hprod : delay * 2 ≤ delay * 2 * 2 ^ n := le_mul_of_one_le_right (by omega) hpow
      rw [backoffLoop, pow_succ', ← mul_assoc]
      split
      case isTrue hlt =>
        split
        case isTrue hhalf =>
          have hle : maxBackoff ≤ delay * 2 := by
            rw [Int.tdiv_eq_ediv_of_nonneg hmax.le] at hhalf
            omega
          rw [min_self, min_eq_right (hle.trans hprod)]
        case isFalse hhalf =>
          obtain ⟨-, -, hwrap⟩ := doubled hdelay hmax hmax' hhalf
          rw [hwrap, ih (by omega)]
      case isFalse hge => rw [min_eq_right (by omega), min_eq_right (by omega)]

/-- Each round doubles the delay, so a delay that is at least `2 ^ k` has `63 - k` rounds to go. -/
theorem backoffRounds_length (hmax : 0 < maxBackoff) (hmax' : InInt64 maxBackoff) (n k : ℕ)
    (hdelay : 2 ^ k ≤ delay) : (backoffRounds maxBackoff n delay).length + min k 63 ≤ 63 := by
  induction n generalizing delay k with
  | zero => simp [backoffRounds]
  | succ n ih =>
      rw [backoffRounds]
      have hpos : 0 < delay := lt_of_lt_of_le (by positivity) hdelay
      have hk (hlt : delay < maxBackoff) : k < 63 := by
        have hpow : (2 : ℤ) ^ k < 2 ^ 63 := hdelay.trans_lt (hlt.trans hmax'.2)
        exact (pow_lt_pow_iff_right₀ (by decide)).mp hpow
      split
      case isTrue hlt =>
        have hk := hk hlt
        split
        case isTrue => rw [List.length_singleton]; omega
        case isFalse hhalf =>
          obtain ⟨-, -, hwrap⟩ := doubled hpos hmax hmax' hhalf
          have hrest : (backoffRounds maxBackoff n (delay * 2)).length + min (k + 1) 63 ≤ 63 :=
            ih (k + 1) (by rw [pow_succ]; omega)
          rw [hwrap, List.length_cons]
          omega
      case isFalse => simp

/-- No round overflows. -/
theorem backoffRounds_inInt64 (hmax : 0 < maxBackoff) (hmax' : InInt64 maxBackoff) (n : ℕ)
    (hdelay : 0 < delay) :
    ∀ d ∈ backoffRounds maxBackoff n delay, ¬maxBackoff.tdiv 2 < d → InInt64 (d * 2) := by
  induction n generalizing delay with
  | zero => simp [backoffRounds]
  | succ n ih =>
      rw [backoffRounds]
      split
      case isTrue =>
        split
        case isTrue hhalf =>
          intro d hd hhalf'
          exact absurd hhalf (List.mem_singleton.mp hd ▸ hhalf')
        case isFalse hhalf =>
          obtain ⟨-, hin, hwrap⟩ := doubled hdelay hmax hmax' hhalf
          rw [hwrap, List.forall_mem_cons]
          exact ⟨fun _ => hin, ih (by omega)⟩
      case isFalse => simp

/-! ## The jitter -/

theorem truncate_of_nonneg {q : ℚ} (h : 0 ≤ q) : truncate q = ⌊q⌋ := by
  rw [truncate, Int.tdiv_eq_ediv_of_nonneg (Rat.num_nonneg.mpr h), Rat.floor_def']

theorem jittered_bounds {random : ℚ} (hdelay : 0 ≤ delay) (hrandom : 0 ≤ random)
    (hrandom' : random < 1) : delay / 2 ≤ jittered delay random ∧ jittered delay random ≤ delay := by
  have hq : (0 : ℚ) ≤ delay := by exact_mod_cast hdelay
  have hlow : (delay : ℚ) / 2 ≤ delay * (1 / 2 + random / 2) := by nlinarith
  have hhigh : (delay : ℚ) * (1 / 2 + random / 2) ≤ delay := by nlinarith
  rw [jittered, truncate_of_nonneg (by linarith)]
  constructor
  · apply Int.le_floor.mpr
    refine le_trans ?_ hlow
    rw [le_div_iff₀ (by norm_num)]
    have : delay / 2 * 2 ≤ delay := Int.ediv_mul_le delay (by decide)
    exact_mod_cast this
  · have := (Int.floor_le _).trans hhigh
    exact_mod_cast this

/-! ## The delay -/

section Delay

variable {p : OutboxMessagePublisher} (hinitial : 0 < p.retryInitialBackoff)
  (hmax : 0 < p.retryMaxBackoff) (hmax' : InInt64 p.retryMaxBackoff)
include hinitial hmax hmax'

theorem backoff_eq (attempt : ℤ) :
    backoff p attempt =
      min (p.retryInitialBackoff * 2 ^ (attempt - 1).toNat) p.retryMaxBackoff :=
  min_backoffLoop hmax hmax' _ hinitial

theorem backoff_pos (attempt : ℤ) : 0 < backoff p attempt := by
  rw [backoff_eq hinitial hmax hmax']
  exact lt_min (by positivity) hmax

theorem backoff_mono {attempt attempt' : ℤ} (h : attempt ≤ attempt') :
    backoff p attempt ≤ backoff p attempt' := by
  rw [backoff_eq hinitial hmax hmax', backoff_eq hinitial hmax hmax']
  have hpow : (2 : ℤ) ^ (attempt - 1).toNat ≤ 2 ^ (attempt' - 1).toNat :=
    pow_le_pow_right₀ (by decide) (by omega)
  exact min_le_min_right _ (mul_le_mul_of_nonneg_left hpow hinitial.le)

end Delay

/-- The delay before the jitter is the power of two under its cap, computed within 63 rounds
and without overflow, and the jitter takes at most half of it away. -/
theorem retryDelay_correct (p : OutboxMessagePublisher) (hinitial : 0 < p.retryInitialBackoff)
    (hmax : 0 < p.retryMaxBackoff) (hmax' : InInt64 p.retryMaxBackoff) (attempt : ℤ) :
    let rounds := backoffRounds p.retryMaxBackoff (attempt - 1).toNat p.retryInitialBackoff
    rounds.length ≤ 63 ∧
      backoffLoop p.retryMaxBackoff (attempt - 1).toNat p.retryInitialBackoff =
        rounds.getLast?.elim p.retryInitialBackoff (backoffRound p.retryMaxBackoff) ∧
      (∀ d ∈ rounds, ¬p.retryMaxBackoff.tdiv 2 < d → InInt64 (d * 2)) ∧
      backoff p attempt =
        min (p.retryInitialBackoff * 2 ^ (attempt - 1).toNat) p.retryMaxBackoff ∧
      0 < backoff p attempt ∧ backoff p attempt ≤ p.retryMaxBackoff ∧
      (∀ attempt', attempt ≤ attempt' → backoff p attempt ≤ backoff p attempt') ∧
      ∀ random : ℚ, 0 ≤ random → random < 1 →
        backoff p attempt / 2 ≤ jittered (backoff p attempt) random ∧
          jittered (backoff p attempt) random ≤ backoff p attempt := by
  have hrounds : (backoffRounds p.retryMaxBackoff (attempt - 1).toNat
      p.retryInitialBackoff).length + min 0 63 ≤ 63 :=
    backoffRounds_length hmax hmax' _ 0 (by omega)
  refine ⟨by omega, backoffLoop_eq _, backoffRounds_inInt64 hmax hmax' _ hinitial,
    backoff_eq hinitial hmax hmax' attempt, backoff_pos hinitial hmax hmax' attempt,
    min_le_right _ _, fun _ h => backoff_mono hinitial hmax hmax' h, ?_⟩
  exact fun random => jittered_bounds (backoff_pos hinitial hmax hmax' attempt).le

/-- An odd cap below the initial delay, at an attempt beyond any int32. -/
theorem retryDelay_correct_capped :
    backoff ⟨fun _ => .ok [], 1000, 999⟩ 4294967296 =
      min (1000 * 2 ^ (4294967296 - 1 : ℤ).toNat) 999 :=
  (retryDelay_correct ⟨fun _ => .ok [], 1000, 999⟩ (by decide) (by decide) (by decide)
    4294967296).2.2.2.1

end Go42.Outbox
