-- SUMMARY: The cache-backed rate limiter of `internal/tools`: bucket lifetimes and the request it sends to the cache.
import Go42.Lib.GoError
import Mathlib.Data.Int.Notation
import Mathlib.Order.Basic

/-!
# Rate limiter

Durations are integers, in nanoseconds. All of them are `int64` in the source; the only
product taken here is guarded against overflow before it is computed.
-/

namespace Go42

def nanosPerSecond : ℤ := 1000000000

def maxInt64 : ℤ := 9223372036854775807

namespace Tools

/-- `RateLimitTTL` retains a bucket until it could have refilled completely. -/
def rateLimitTTL (interval burst ttl : ℤ) : Except GoError ℤ :=
  if interval ≤ 0 ∨ burst ≤ 0 ∨ ttl ≤ 0 then
    .error (.leaf "rate limit interval, burst and TTL must be positive")
  else if burst > maxInt64 / interval then
    .error (.leaf "rate limit refill duration overflows")
  else .ok (max ttl (interval * burst))

/-- The arguments of one `AllowRateLimit` call. -/
structure RateLimitRequest where
  key : String
  interval : ℤ
  burst : ℤ
  ttl : ℤ
deriving DecidableEq, Repr

structure RateLimiter where
  scope : String
  rate : ℤ
  window : ℤ
  burst : ℤ
  ttl : ℤ

/-- `NewRateLimiter`, with the option `WithRateLimitWindow(window)`. -/
def newRateLimiter (scope : String) (rate burst ttl window : ℤ) : RateLimiter where
  scope := if scope = "" then "default" else scope
  rate := rate
  window := window
  burst := burst
  ttl := if ttl ≤ 0 then 600 * nanosPerSecond else ttl

/-- `RateLimiter.Limit` up to the call of the cache: `none` denies the empty key
without asking the cache. -/
def RateLimiter.limit (m : RateLimiter) (sha256Hex : String → String) (key : String) :
    Except GoError (Option RateLimitRequest) :=
  if key = "" then .ok none
  else if m.rate ≤ 0 then .error (.leaf "rate must be positive")
  else if m.burst ≤ 0 then .error (.leaf "burst must be positive")
  else if m.window ≤ 0 then .error (.leaf "rate limit window must be positive")
  else
    let interval := m.window / m.rate + if m.window % m.rate ≠ 0 then 1 else 0
    match rateLimitTTL interval m.burst m.ttl with
    | .error err => .error err
    | .ok ttl =>
      .ok (some ⟨"rate_limit:" ++ m.scope ++ ":" ++ sha256Hex key, interval, m.burst, ttl⟩)

theorem newRateLimiter_scope {scope : String} {rate burst ttl window : ℤ} (h : scope ≠ "") :
    (newRateLimiter scope rate burst ttl window).scope = scope :=
  if_neg h

/-- The bucket of a request depends on the scope and the client alone. -/
theorem RateLimiter.limit_key {m : RateLimiter} {sha256Hex : String → String} {key : String}
    {req : RateLimitRequest} (h : m.limit sha256Hex key = .ok (some req)) :
    req.key = "rate_limit:" ++ m.scope ++ ":" ++ sha256Hex key := by
  unfold RateLimiter.limit at h
  split at h
  · cases h
  · split at h
    · cases h
    · split at h
      · cases h
      · split at h
        · cases h
        · dsimp only at h
          split at h
          · cases h
          · cases h; rfl

theorem rateLimitTTL_ok {interval burst ttl ttl' : ℤ} :
    rateLimitTTL interval burst ttl = .ok ttl' ↔
      0 < interval ∧ 0 < burst ∧ 0 < ttl ∧ interval * burst ≤ maxInt64 ∧
        ttl' = max ttl (interval * burst) := by
  unfold rateLimitTTL
  split
  case isTrue h => simp; omega
  case isFalse h =>
    have hpos : 0 < interval := by omega
    split
    case isTrue h' =>
      have : maxInt64 < burst * interval := (Int.ediv_lt_iff_lt_mul hpos).mp h'
      simp only [reduceCtorEq, false_iff, not_and]
      intro _ _ _ hle
      rw [Int.mul_comm] at hle
      omega
    case isFalse h' =>
      have : burst * interval ≤ maxInt64 := (Int.le_ediv_iff_mul_le hpos).mp (by omega)
      rw [Int.mul_comm] at this
      simp only [Except.ok.injEq]
      constructor
      · rintro rfl; exact ⟨by omega, by omega, by omega, this, rfl⟩
      · rintro ⟨-, -, -, -, rfl⟩; rfl

/-- A request that is sent to the cache was checked, and its bucket lives long enough. -/
theorem RateLimiter.limit_some {m : RateLimiter} {sha256Hex : String → String} {key : String}
    {req : RateLimitRequest} (h : m.limit sha256Hex key = .ok (some req)) :
    0 < m.rate ∧ 0 < m.window ∧ req.burst = m.burst ∧
      req.interval = m.window / m.rate + (if m.window % m.rate ≠ 0 then 1 else 0) ∧
      rateLimitTTL req.interval req.burst m.ttl = .ok req.ttl := by
  unfold RateLimiter.limit at h
  split at h
  · cases h
  · split at h
    · cases h
    · split at h
      · cases h
      · split at h
        · cases h
        · dsimp only at h
          split at h
          · cases h
          · cases h
            exact ⟨by omega, by omega, rfl, rfl, ‹_›⟩

/-- The lifetime that was computed is computed again. -/
theorem rateLimitTTL_again {interval burst ttl ttl' : ℤ} (h : rateLimitTTL interval burst ttl = .ok ttl') :
    rateLimitTTL interval burst ttl' = .ok ttl' := by
  obtain ⟨hinterval, hburst, httl, hmax, rfl⟩ := rateLimitTTL_ok.mp h
  exact rateLimitTTL_ok.mpr ⟨hinterval, hburst, by omega, hmax, by omega⟩

theorem burst_pos {interval burst ttl ttl' : ℤ} (h : rateLimitTTL interval burst ttl = .ok ttl') :
    0 < burst :=
  (rateLimitTTL_ok.mp h).2.1

end Tools
end Go42
