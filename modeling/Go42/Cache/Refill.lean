-- SUMMARY: How many calls of `Limit` Redis and memcached admit in a number of windows, and when the configured rate is kept.
import Go42.Cache.Agreement

/-!
# Refill

`Limit` rounds the interval between two tokens up to nanoseconds, and the caches round it down to
microseconds. Calls come at non-decreasing times, and an entry may be dropped once its arrival time
has passed.
-/

namespace Go42.Cache

open Memcached (intervalMicros limit Room rateLimitExpiration)

/-- A call of `Limit` by the clock of the cache, and whether the entry is dropped before it. -/
structure LimitCall where
  now : ℤ
  drop : Bool
deriving DecidableEq

section Calls

variable (sha256Hex : String → String) (m : Tools.RateLimiter) (key : String)

/-- What is left of an entry; it is kept until its arrival time. -/
def LimitCall.redisEntry (call : LimitCall) (entry : Option Redis.Entry) : Option Redis.Entry :=
  entry.filter fun e => !(call.drop && (Redis.tonumber id e.value).all (· ≤ call.now))

def LimitCall.memcachedWorld (call : LimitCall) (cacheKey : String) (w : Memcached.World) :
    Memcached.World :=
  { w with entries := Function.update w.entries cacheKey ((w.entries cacheKey).filter fun item =>
      !(call.drop && (parseInt item.value).all (· ≤ call.now))) }

/-- `Limit` with the cache on Redis. -/
def redisLimit (entry : Option Redis.Entry) (call : LimitCall) :
    Except GoError Bool × Option Redis.Entry :=
  match m.limit sha256Hex key with
  | .error err => (.error err, entry)
  | .ok none => (.ok false, entry)
  | .ok (some req) =>
    redisRequest req.interval req.burst req.ttl (call.redisEntry entry) call.now

/-- `Limit` with the cache on memcached. -/
def memcachedLimit (w : Memcached.World) (call : LimitCall) : Outcome Bool × Memcached.World :=
  match m.limit sha256Hex key with
  | .error err => (.failed err, w)
  | .ok none => (.returned false, w)
  | .ok (some req) =>
    memcachedRequest req.key req.interval req.burst req.ttl (call.memcachedWorld req.key w) call.now

def redisDecisions (calls : List LimitCall) : List Bool :=
  (answers (redisLimit sha256Hex m key) none calls).map fun r => r.1 matches .ok true

def memcachedDecisions (w : Memcached.World) (calls : List LimitCall) : List Bool :=
  (answers (memcachedLimit sha256Hex m key) w calls).map fun r => r.1 matches .returned true

end Calls

/-- The calls that were admitted in the period of `length` nanoseconds from `a` on. -/
def admittedDuring (calls : List LimitCall) (ds : List Bool) (a length : ℤ) : ℕ :=
  (Gcra.admittedTimes (calls.map LimitCall.now) ds).countP fun t =>
    a ≤ 1000 * t && 1000 * t ≤ a + length

/-- Periods of `k` windows admit the burst and `k` times the rate, when all calls are at times
with `ok`. -/
def KeepsRate (m : Tools.RateLimiter) (k : ℤ) (ok : ℤ → Prop)
    (decisions : List LimitCall → List Bool) : Prop :=
  ∀ calls : List LimitCall, (calls.map LimitCall.now).Pairwise (· ≤ ·) → (∀ c ∈ calls, ok c.now) →
    ∀ a, (admittedDuring calls (decisions calls) a (k * m.window) : ℤ) ≤ m.burst + k * m.rate

/-- The microseconds that a token takes to come back: the quotient of window and rate, rounded up
to nanoseconds and then down to microseconds. -/
def refillMicros (m : Tools.RateLimiter) : ℤ := max 1 ((m.window + m.rate - 1) / m.rate / 1000)

/-- The numbers of the script are exact; Lua's are up to 2^53. -/
def RedisExact (m : Tools.RateLimiter) (now : ℤ) : Prop :=
  0 ≤ now ∧ now + m.burst * refillMicros m ≤ 2 ^ 53

/-- The numbers of the client fit in 64 bits, and memcached can say when the entry expires. -/
def MemcachedExact (m : Tools.RateLimiter) (now : ℤ) : Prop :=
  0 ≤ now ∧ now + m.burst * refillMicros m ≤ maxInt64 ∧
    (rateLimitExpiration now (max m.ttl ((m.window + m.rate - 1) / m.rate * m.burst))).isOk = true

/-! ## Any clock -/

section KeepsRate

variable {m : Tools.RateLimiter} {k : ℤ} {ok : ℤ → Prop} {decisions : List LimitCall → List Bool} {p : Gcra}

/-- The calls that the fastest requests are. -/
def fastestCalls (p : Gcra) (n : ℕ) : List LimitCall := (p.fastest n).map fun t => ⟨t, false⟩

theorem fastestCalls_now (n : ℕ) : (fastestCalls p n).map LimitCall.now = p.fastest n := by
  rw [fastestCalls, List.map_map]
  exact List.map_id _

theorem keepsRate_iff (hburst : p.burst = m.burst) (hk : 0 ≤ k * m.rate) (hnonneg : ∀ {t}, ok t → 0 ≤ t)
    (hdown : ∀ {t t'}, 0 ≤ t → t ≤ t' → ok t' → ok t)
    (hdecisions : ∀ calls : List LimitCall, (∀ c ∈ calls, ok c.now) →
      decisions calls = (answers p.request none (calls.map LimitCall.now)).map Prod.fst) :
    KeepsRate m k ok decisions ↔
      ∀ T, ok T → 1000 * T ≤ k * m.window → T / p.interval ≤ k * m.rate := by
  have hpos := p.interval_pos
  constructor
  · intro hrate T hT hlength
    by_contra hmore
    have hT₀ := hnonneg hT
    have hn : ((T / p.interval).toNat : ℤ) = T / p.interval :=
      Int.toNat_of_nonneg (Int.ediv_nonneg hT₀ hpos.le)
    have hlast : ((T / p.interval).toNat : ℤ) * p.interval ≤ T := hn ▸ Int.ediv_mul_le T hpos.ne'
    -- The fastest requests all fall into the time `T`.
    have hbounds : ∀ t ∈ p.fastest (T / p.interval).toNat, 0 ≤ t ∧ t ≤ T :=
      fun t ht => ⟨(Gcra.fastest_bounds t ht).1, (Gcra.fastest_bounds t ht).2.trans hlast⟩
    have hok : ∀ c ∈ fastestCalls p (T / p.interval).toNat, ok c.now := by
      intro c hc
      obtain ⟨t, ht, rfl⟩ := List.mem_map.mp hc
      exact hdown (hbounds t ht).1 (hbounds t ht).2 hT
    have hle := hrate (fastestCalls p (T / p.interval).toNat)
      (by rw [fastestCalls_now]; exact Gcra.fastest_sorted _) hok 0
    have hcount : admittedDuring (fastestCalls p (T / p.interval).toNat)
        (decisions (fastestCalls p (T / p.interval).toNat)) 0 (k * m.window) =
          (p.fastest (T / p.interval).toNat).length := by
      rw [admittedDuring, hdecisions _ hok, fastestCalls_now, Gcra.fastest_admitted,
        Gcra.admittedTimes_all, List.countP_eq_length]
      intro t ht
      have := hbounds t ht
      simp only [Bool.and_eq_true, decide_eq_true_eq]
      constructor <;> omega
    rw [hcount, Gcra.fastest_length, hburst, hn] at hle
    omega
  · intro hfits calls _ hok a
    obtain ⟨tat, hadmitted⟩ := (Gcra.Admitted.nil (p := p)).answers (calls.map LimitCall.now)
    rw [List.append_nil] at hadmitted
    rw [admittedDuring, hdecisions calls hok, ← hburst, ← List.countP_reverse]
    refine hadmitted.countP_le hk fun t ht t' ht' hq hq' hle => ?_
    have hokTimes : ∀ t ∈ (Gcra.admittedTimes (calls.map LimitCall.now)
        ((answers p.request none (calls.map LimitCall.now)).map Prod.fst)).reverse, ok t := by
      intro t ht
      obtain ⟨c, hc, rfl⟩ := List.mem_map.mp (Gcra.mem_of_admittedTimes (List.mem_reverse.mp ht))
      exact hok c hc
    simp only [Bool.and_eq_true, decide_eq_true_eq] at hq hq'
    have hfirst := hnonneg (hokTimes t ht)
    exact hfits (t' - t) (hdown (by omega) (by omega) (hokTimes t' ht')) (by omega)

end KeepsRate

/-! ## Redis and memcached -/

/-- The quotient of window and rate, rounded up. -/
theorem ceil_eq {window rate : ℤ} (hrate : 0 < rate) :
    window / rate + (if window % rate ≠ 0 then 1 else 0) = (window + rate - 1) / rate := by
  have hdiv := Int.mul_ediv_add_emod window rate
  have hnonneg := Int.emod_nonneg window hrate.ne'
  have hlt := Int.emod_lt_of_pos window hrate
  symm
  split
  case isTrue hrest =>
    rw [show window + rate - 1 = window % rate - 1 + (window / rate + 1) * rate by linarith,
      Int.add_mul_ediv_right _ _ hrate.ne', Int.ediv_eq_zero_of_lt (by omega) (by omega), zero_add]
  case isFalse hrest =>
    have hzero : window % rate = 0 := not_not.mp hrest
    rw [show window + rate - 1 = rate - 1 + window / rate * rate by linarith,
      Int.add_mul_ediv_right _ _ hrate.ne', Int.ediv_eq_zero_of_lt (by omega) (by omega), zero_add,
      add_zero]

/-- What a request that `Limit` sends says. -/
structure Sent (m : Tools.RateLimiter) (req : Tools.RateLimitRequest) : Prop where
  rate : 0 < m.rate
  valid : Tools.rateLimitTTL req.interval m.burst req.ttl = .ok req.ttl
  burst : req.burst = m.burst
  interval : req.interval = (m.window + m.rate - 1) / m.rate
  micros : intervalMicros req.interval = refillMicros m
  ttl : req.ttl = max m.ttl ((m.window + m.rate - 1) / m.rate * m.burst)

section Sent

variable {sha256Hex : String → String} {m : Tools.RateLimiter} {key : String} {req : Tools.RateLimitRequest}

theorem sent_of_limit (h : m.limit sha256Hex key = .ok (some req)) : Sent m req := by
  obtain ⟨hrate, hwindow, hburst, hinterval, hvalid⟩ := Tools.RateLimiter.limit_some h
  rw [ceil_eq hrate] at hinterval
  rw [hburst] at hvalid
  obtain ⟨hpos, -, -, -, httl⟩ := Tools.rateLimitTTL_ok.mp hvalid
  refine ⟨hrate, Tools.rateLimitTTL_again hvalid, hburst, hinterval, ?_, hinterval ▸ httl⟩
  rw [intervalMicros, refillMicros, ← hinterval, Int.tdiv_eq_ediv_of_nonneg hpos.le]

variable (hsent : Sent m req)

/-- The state without an entry that was dropped. -/
theorem redisEntry_eq {p : Gcra} {entry : Option Redis.Entry} {tat : Option ℤ} (call : LimitCall)
    (h : redisValue entry = tat.map formatInt) : ∃ tat', redisValue (call.redisEntry entry) =
      tat'.map formatInt ∧ p.request tat' call.now = p.request tat call.now := by
  unfold LimitCall.redisEntry
  cases entry with
  | none => exact ⟨tat, h, rfl⟩
  | some e =>
      cases tat with
      | none => cases h
      | some t =>
          have hvalue : e.value = formatInt t := Option.some.inj h
          have hparse : Redis.tonumber id e.value = some t := by
            rw [hvalue, Redis.tonumber, parseDecimal_formatInt, Option.map_id, id]
          rw [Option.filter_some, hparse]
          split
          · exact ⟨some t, h, rfl⟩
          · rename_i hdropped
            refine ⟨none, rfl, Gcra.request_none_of_le fun t' ht' => ?_⟩
            cases ht'
            simpa using And.right (by simpa using hdropped)

/-- The same on memcached. -/
theorem memcachedWorld_eq {p : Gcra} {w : Memcached.World} {tat : Option ℤ} (call : LimitCall)
    (h : HoldsTat key tat w) : ∃ tat', HoldsTat key tat' (call.memcachedWorld key w) ∧
      p.request tat' call.now = p.request tat call.now := by
  have hvalue := h.value
  unfold memcachedValue at hvalue
  have hentry : (call.memcachedWorld key w).entries key = (w.entries key).filter fun item =>
      !(call.drop && (parseInt item.value).all (· ≤ call.now)) := Function.update_self _ _ _
  have hkey : ∀ x, (call.memcachedWorld key w).entries key = some x → x.key = key := by
    intro x hx
    rw [hentry] at hx
    exact h.key x (Option.filter_eq_some_iff.mp hx).1
  cases tat with
  | none =>
      have habsent : w.entries key = none := by simpa using hvalue
      refine ⟨none, ⟨?_, nofun, hkey⟩, rfl⟩
      rw [memcachedValue, hentry, habsent]
      rfl
  | some t =>
      obtain ⟨item, hitem, htext⟩ := Option.map_eq_some_iff.mp hvalue
      have hparse : parseInt item.value = some t := by rw [htext, parseInt_formatInt (h.range t rfl)]
      rw [hitem, Option.filter_some, hparse] at hentry
      by_cases hdropped : call.drop = true ∧ t ≤ call.now
      · refine ⟨none, ⟨?_, nofun, hkey⟩, Gcra.request_none_of_le fun t' ht' => ?_⟩
        · rw [memcachedValue, hentry]
          simp [hdropped]
        · cases ht'
          exact hdropped.2
      · refine ⟨some t, ⟨?_, h.range, hkey⟩, rfl⟩
        have hkept : (!(call.drop && (some t).all (· ≤ call.now))) = true := by
          cases hdrop : call.drop with
          | false => rfl
          | true => simpa using not_le.mp fun hle => hdropped ⟨hdrop, hle⟩
        rw [memcachedValue, hentry, if_pos hkept]
        exact congrArg some htext

/-- The limit of the requests that `Limit` sends. -/
def Sent.gcra (hsent : Sent m req) : Gcra :=
  limit req.interval m.burst (Tools.burst_pos hsent.valid)

theorem Sent.gcra_interval (hsent : Sent m req) : hsent.gcra.interval = refillMicros m := hsent.micros

theorem redisDecisions_eq (h : m.limit sha256Hex key = .ok (some req)) (hsent : Sent m req)
    (calls : List LimitCall) : redisDecisions sha256Hex m key calls =
      (answers hsent.gcra.request none (calls.map LimitCall.now)).map Prod.fst := by
  rw [redisDecisions, ← answers_comp]
  apply answers_map (R := fun entry tat => redisValue entry = tat.map formatInt) (P := fun _ => True)
  · intro entry tat call _ hentry
    obtain ⟨tat', htat', hsame⟩ := redisEntry_eq (p := hsent.gcra) call hentry
    obtain ⟨hdecision, hentry'⟩ := redisRequest_eq (Tools.burst_pos hsent.valid) call.now
      hsent.valid htat'
    have hlimit : redisLimit sha256Hex m key entry call =
        redisRequest req.interval m.burst req.ttl (call.redisEntry entry) call.now := by
      rw [redisLimit, h, ← hsent.burst]
    rw [hlimit, hdecision, hentry', ← hsame]
    refine ⟨?_, rfl⟩
    change _ = (Gcra.request (limit req.interval m.burst _) tat' call.now).1
    cases (Gcra.request (limit req.interval m.burst _) tat' call.now).1 <;> rfl
  · rfl
  · exact fun _ _ => trivial

theorem Sent.fits (hsent : Sent m req) {now : ℤ} (h : MemcachedExact m now) :
    Fits req.interval m.burst req.ttl now := by
  obtain ⟨hnonneg, hmax, hexpires⟩ := h
  have hreadable : Memcached.Readable req.interval m.burst now := ⟨hnonneg, hsent.micros ▸ hmax⟩
  exact ⟨hreadable.room (Tools.burst_pos hsent.valid), hsent.ttl ▸ hexpires⟩

theorem memcachedDecisions_eq (h : m.limit sha256Hex key = .ok (some req)) (hsent : Sent m req)
    {w : Memcached.World} (habsent : w.entries req.key = none) {calls : List LimitCall}
    (hcalls : ∀ c ∈ calls, MemcachedExact m c.now) : memcachedDecisions sha256Hex m key w calls =
      (answers hsent.gcra.request none (calls.map LimitCall.now)).map Prod.fst := by
  rw [memcachedDecisions, ← answers_comp]
  apply answers_map (R := fun w tat => HoldsTat req.key tat w) (P := fun c => MemcachedExact m c.now)
  · intro w tat call hcall hw
    obtain ⟨tat', htat', hsame⟩ := memcachedWorld_eq (p := hsent.gcra) call hw
    obtain ⟨hdecision, hw'⟩ := memcachedRequest_eq (Tools.burst_pos hsent.valid) hsent.valid
      (hsent.fits hcall) htat'
    have hlimit : memcachedLimit sha256Hex m key w call = memcachedRequest req.key req.interval m.burst
        req.ttl (call.memcachedWorld req.key w) call.now := by
      rw [memcachedLimit, h, ← hsent.burst]
    rw [hlimit, hdecision, ← hsame]
    refine ⟨?_, hw'⟩
    change _ = (Gcra.request (limit req.interval m.burst _) tat' call.now).1
    cases (Gcra.request (limit req.interval m.burst _) tat' call.now).1 <;> rfl
  · exact .absent habsent
  · exact hcalls

/-- What a clock can show, it could show before. -/
theorem MemcachedExact.of_le (hsent : Sent m req) {now now' : ℤ} (hnow : 0 ≤ now) (hle : now ≤ now')
    (h : MemcachedExact m now') : MemcachedExact m now := by
  obtain ⟨-, hmax, hexpires⟩ := h
  refine ⟨hnow, (Int.add_le_add_right hle _).trans hmax, ?_⟩
  have httl : 0 < req.ttl := (Tools.rateLimitTTL_ok.mp hsent.valid).2.2.1
  rw [← hsent.ttl] at hexpires ⊢
  cases hexp' : rateLimitExpiration now' req.ttl with
  | error err => rw [hexp'] at hexpires; cases hexpires
  | ok expiration =>
      obtain ⟨e, he⟩ := Memcached.rateLimitExpiration_of_le hnow hle httl hexp'
      rw [he]
      rfl

end Sent

section Rate

variable {sha256Hex : String → String} {m : Tools.RateLimiter} {key : String} {req : Tools.RateLimitRequest}
variable {k : ℤ}

theorem redis_keepsRate_iff (h : m.limit sha256Hex key = .ok (some req)) (hk : 0 ≤ k) :
    KeepsRate m k (RedisExact m) (redisDecisions sha256Hex m key) ↔
      ∀ T, RedisExact m T → 1000 * T ≤ k * m.window → T / refillMicros m ≤ k * m.rate := by
  have hsent := sent_of_limit h
  rw [← hsent.gcra_interval]
  apply keepsRate_iff rfl (mul_nonneg hk hsent.rate.le)
  · exact fun h => h.1
  · exact fun hnow hle h => ⟨hnow, (Int.add_le_add_right hle _).trans h.2⟩
  · exact fun calls _ => redisDecisions_eq h hsent calls

theorem memcached_keepsRate_iff (h : m.limit sha256Hex key = .ok (some req)) (hk : 0 ≤ k)
    {w : Memcached.World} (habsent : w.entries req.key = none) :
    KeepsRate m k (MemcachedExact m) (memcachedDecisions sha256Hex m key w) ↔
      ∀ T, MemcachedExact m T → 1000 * T ≤ k * m.window → T / refillMicros m ≤ k * m.rate := by
  have hsent := sent_of_limit h
  rw [← hsent.gcra_interval]
  apply keepsRate_iff rfl (mul_nonneg hk hsent.rate.le)
  · exact fun h => h.1
  · exact fun hnow hle h => h.of_le hsent hnow hle
  · exact fun calls hcalls => memcachedDecisions_eq h hsent habsent hcalls

/-- On either cache, periods of `k` windows admit no more than the burst and `k` times the rate
exactly if no time within `k` windows, that the clock can show, holds more than `k` times the rate
of the microseconds that a token takes to come back. -/
theorem limit_keepsRate_iff (h : m.limit sha256Hex key = .ok (some req)) (hk : 1 ≤ k)
    {w : Memcached.World} (habsent : w.entries req.key = none) :
    (KeepsRate m k (RedisExact m) (redisDecisions sha256Hex m key) ↔
      ∀ T, RedisExact m T → 1000 * T ≤ k * m.window → T / refillMicros m ≤ k * m.rate) ∧
    (KeepsRate m k (MemcachedExact m) (memcachedDecisions sha256Hex m key w) ↔
      ∀ T, MemcachedExact m T → 1000 * T ≤ k * m.window → T / refillMicros m ≤ k * m.rate) :=
  ⟨redis_keepsRate_iff h (Int.one_pos.le.trans hk), memcached_keepsRate_iff h (Int.one_pos.le.trans hk) habsent⟩

end Rate

/-- A million microseconds and 700000 tokens a second: a token comes back after 1429 nanoseconds,
which the caches take for one microsecond. -/
def fastLimiter : Tools.RateLimiter := Tools.newRateLimiter "api" 700000 10 nanosPerSecond nanosPerSecond

theorem limit_exceeds_rate :
    fastLimiter.limit id "client" = .ok (some ⟨"rate_limit:api:client", 1429, 10, nanosPerSecond⟩) ∧
      ¬KeepsRate fastLimiter 1 (RedisExact fastLimiter) (redisDecisions id fastLimiter "client") ∧
      ¬KeepsRate fastLimiter 1 (MemcachedExact fastLimiter)
        (memcachedDecisions id fastLimiter "client" Memcached.emptyWorld) := by
  have hsent : fastLimiter.limit id "client" =
      .ok (some ⟨"rate_limit:api:client", 1429, 10, nanosPerSecond⟩) := by decide
  have hmore : ¬(1000000 / refillMicros fastLimiter ≤ 1 * fastLimiter.rate) := by decide
  refine ⟨hsent, fun hrate => hmore ?_, fun hrate => hmore ?_⟩
  · exact (redis_keepsRate_iff hsent Int.one_pos.le).mp hrate 1000000 ⟨by decide, by decide⟩ (by decide)
  · exact (memcached_keepsRate_iff hsent Int.one_pos.le rfl).mp hrate 1000000
      ⟨by decide, by decide, by decide⟩ (by decide)

/-- A second is a whole number of microseconds for each of ten tokens. -/
theorem limit_keepsRate_ten : KeepsRate (Tools.newRateLimiter "api" 10 10 nanosPerSecond nanosPerSecond) 1
    (RedisExact (Tools.newRateLimiter "api" 10 10 nanosPerSecond nanosPerSecond))
    (redisDecisions id (Tools.newRateLimiter "api" 10 10 nanosPerSecond nanosPerSecond) "client") := by
  have hsent : (Tools.newRateLimiter "api" 10 10 nanosPerSecond nanosPerSecond).limit id "client" =
      .ok (some ⟨"rate_limit:api:client", 100000000, 10, nanosPerSecond⟩) := by decide
  refine (limit_keepsRate_iff hsent le_rfl (w := Memcached.emptyWorld) rfl).1.mpr fun T hT hlength => ?_
  have hmicros : refillMicros (Tools.newRateLimiter "api" 10 10 nanosPerSecond nanosPerSecond) = 100000 := by
    decide
  have hwindow : 1000 * T ≤ 1000000000 := hlength
  rw [hmicros]
  change T / 100000 ≤ 10
  omega

end Go42.Cache
