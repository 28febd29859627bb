-- SUMMARY: How long Redis keeps a bucket, when that is until its arrival time, and when the numbers of the script are exact.
import Go42.Cache.Agreement
import Go42.Lib.Double

/-!
# Lifetimes in Redis

Redis counts milliseconds, and the numbers of its scripts are doubles. An entry that is gone
is a full bucket again.
-/

namespace Go42.Cache

open Memcached (intervalMicros limit)

/-- A request to Redis at the time `now`. -/
def redisServed (interval burst ttl : ℤ) (entry : Option Redis.Entry) (now : ℤ) :
    Except GoError Bool × Option Redis.Entry :=
  Redis.allowRateLimit toDouble (now / 1000000) (now % 1000000) entry interval burst ttl

def redisExpiry (now px : ℤ) : ℤ := now + px * 1000

section Safe

variable (interval burst ttl ttl' now : ℤ)

/-- The milliseconds that an entry is given to live. -/
def redisPx : ℤ := max 1 (ttl'.tdiv 1000000)

/-- The numbers that the script computes for a request at `now`. -/
def redisNumbers (entry : Option Redis.Entry) : List ℤ :=
  Redis.scriptNumbers (now / 1000000) (now % 1000000) entry (intervalMicros interval) burst (redisPx ttl')

/-- A request at `now` computes with whole numbers that doubles hold. -/
def RedisUnrounded (entry : Option Redis.Entry) : Prop :=
  ∀ x ∈ redisNumbers interval burst ttl' now entry, InDouble x

/-- In a request at `now` nothing wraps before the script, and what it stores lives until its
arrival time. -/
structure RedisSafe (entry : Option Redis.Entry) : Prop where
  numbers : ∀ x ∈ [interval * burst, intervalMicros interval, redisPx ttl'], InInt64 x
  kept : (redisServed interval burst ttl entry now).1 = .ok true →
    ∀ e, (redisServed interval burst ttl entry now).2 = some e →
      ∃ tat, parseDecimal e.value = some tat ∧ tat ≤ redisExpiry now e.px
  dropped : (redisServed interval burst ttl entry now).1 = .ok true →
    ∀ e, (redisServed interval burst ttl entry now).2 = some e → ∀ t, redisExpiry now e.px ≤ t →
      redisServed interval burst ttl none t = redisServed interval burst ttl (some e) t

/-- What earlier requests left. -/
def redisAfter (entry : Option Redis.Entry) (earlier : List ℤ) : Option Redis.Entry :=
  earlier.foldl (fun entry t => (redisServed interval burst ttl entry t).2) entry

end Safe

variable {interval burst ttl ttl' now t : ℤ} {tat : Option ℤ} {entry : Option Redis.Entry}

/-! ## Bounds -/

/-- What `RateLimitTTL` checks, in microseconds. -/
theorem burst_micros (hvalid : Tools.rateLimitTTL interval burst ttl = .ok ttl') :
    0 ≤ (burst - 1) * intervalMicros interval ∧
      burst * intervalMicros interval = (burst - 1) * intervalMicros interval + intervalMicros interval ∧
      burst * intervalMicros interval ≤ maxInt64 := by
  obtain ⟨hinterval, hburst, -, hmax, -⟩ := Tools.rateLimitTTL_ok.mp hvalid
  have hpos : 0 < intervalMicros interval := Memcached.intervalMicros_pos
  have hle : intervalMicros interval ≤ interval := by
    rw [intervalMicros, Int.tdiv_eq_ediv_of_nonneg hinterval.le]
    omega
  refine ⟨mul_nonneg (by omega) hpos.le, by ring, le_trans ?_ hmax⟩
  rw [Int.mul_comm interval]
  exact mul_le_mul_of_nonneg_left hle hburst.le

theorem lifetime_pos (hvalid : Tools.rateLimitTTL interval burst ttl = .ok ttl') : 0 < ttl' := by
  obtain ⟨-, -, hpos, -, rfl⟩ := Tools.rateLimitTTL_ok.mp hvalid
  exact lt_max_of_lt_left hpos

theorem redisPx_eq (hvalid : Tools.rateLimitTTL interval burst ttl = .ok ttl') :
    redisPx ttl' = max 1 (ttl' / 1000000) := by
  rw [redisPx, Int.tdiv_eq_ediv_of_nonneg (lifetime_pos hvalid).le]

theorem redisNumbers_inInt64 (hvalid : Tools.rateLimitTTL interval burst ttl = .ok ttl')
    (httl : InInt64 ttl) :
    ∀ x ∈ [interval * burst, intervalMicros interval, redisPx ttl'], InInt64 x := by
  have hpos := lifetime_pos hvalid
  rw [redisPx_eq hvalid]
  obtain ⟨hinterval, hburst, -, hmax, rfl⟩ := Tools.rateLimitTTL_ok.mp hvalid
  obtain ⟨htolerance, hburst', hmicros⟩ := burst_micros hvalid
  have hmicros' : 0 < intervalMicros interval := Memcached.intervalMicros_pos
  have hproduct : 0 < interval * burst := mul_pos hinterval hburst
  obtain ⟨-, httl⟩ := httl
  unfold maxInt64 at hmax hmicros
  simp only [List.forall_mem_cons, List.not_mem_nil, false_imp_iff, implies_true, and_true]
  unfold InInt64
  refine ⟨?_, ?_, ?_⟩ <;> constructor <;> omega

/-! ## Exact numbers -/

/-- The numbers of a request that finds the arrival time `tat`. -/
theorem redisNumbers_eq (hentry : redisValue entry = tat.map formatInt) :
    redisNumbers interval burst ttl' now entry =
      [intervalMicros interval, burst, redisPx ttl', now / 1000000, now / 1000000 * 1000000,
        now % 1000000, now, burst - 1, (burst - 1) * intervalMicros interval,
        Gcra.clamp tat now - (burst - 1) * intervalMicros interval] ++ tat.toList ++
      if now < Gcra.clamp tat now - (burst - 1) * intervalMicros interval then []
      else [Gcra.clamp tat now + intervalMicros interval] := by
  have hnow : now / 1000000 * 1000000 + now % 1000000 = now := by omega
  have hread : (entry.bind fun e => parseDecimal e.value) = tat := by
    cases entry with
    | none =>
        cases tat with
        | none => rfl
        | some t => cases hentry
    | some e =>
        cases tat with
        | none => cases hentry
        | some t =>
            have hvalue : e.value = formatInt t := Option.some.inj hentry
            rw [Option.bind_some, hvalue, parseDecimal_formatInt]
  simp only [redisNumbers, Redis.scriptNumbers, hnow, Redis.currentTat_eq hentry, hread]

/-- Where its numbers are exact, the script computes with integers. -/
theorem redisServed_eq (hvalid : Tools.rateLimitTTL interval burst ttl = .ok ttl')
    (hexact : RedisUnrounded interval burst ttl' now entry) :
    redisServed interval burst ttl entry now = redisRequest interval burst ttl entry now := by
  have hscript := Redis.allowRateLimitScript_eq fun x hx => toDouble_eq (hexact x hx)
  unfold intervalMicros redisPx at hscript
  simp only [redisServed, redisRequest, Redis.allowRateLimit, hvalid, hscript]

/-- Up to 2^53, every arrival time within a full burst of `now` gives exact numbers. -/
theorem redisUnrounded_of_le (hvalid : Tools.rateLimitTTL interval burst ttl = .ok ttl')
    (httl : InInt64 ttl) (hnow : 0 ≤ now) (hmax : now + burst * intervalMicros interval ≤ 2 ^ 53)
    (hentry : redisValue entry = tat.map formatInt) (htat : ∀ t ∈ tat, 0 ≤ t ∧ t ≤ 2 ^ 53) :
    RedisUnrounded interval burst ttl' now entry := by
  have hpx : redisPx ttl' ≤ 2 ^ 53 := by
    rw [redisPx_eq hvalid]
    obtain ⟨-, -, -, hmax', rfl⟩ := Tools.rateLimitTTL_ok.mp hvalid
    obtain ⟨-, httl⟩ := httl
    unfold maxInt64 at hmax'
    omega
  have hpx' : 1 ≤ redisPx ttl' := le_max_left _ _
  obtain ⟨htolerance, hburst, -⟩ := burst_micros hvalid
  have hpos : 0 < intervalMicros interval := Memcached.intervalMicros_pos
  have hone := Tools.burst_pos hvalid
  have hle : burst ≤ burst * intervalMicros interval := le_mul_of_one_le_right hone.le hpos
  have hclamp : now ≤ Gcra.clamp tat now := Gcra.le_clamp _ _
  have hclamp' : Gcra.clamp tat now ≤ 2 ^ 53 := by
    cases tat with
    | none => rw [Gcra.clamp_none]; omega
    | some t => exact max_le (htat t rfl).2 (by omega)
  intro x hx
  rw [redisNumbers_eq hentry] at hx
  simp only [List.cons_append, List.nil_append, List.mem_cons, List.mem_append, Option.mem_toList] at hx
  unfold InDouble
  rcases hx with rfl | rfl | rfl | rfl | rfl | rfl | rfl | rfl | rfl | rfl | hx | hx
  all_goals try omega
  · have := htat x hx
    omega
  · split at hx
    · cases hx
    · rename_i hadmitted
      cases List.mem_singleton.mp hx
      omega

/-! ## One request -/

theorem redisServed_px (hvalid : Tools.rateLimitTTL interval burst ttl = .ok ttl')
    (hpx : InDouble (redisPx ttl')) {e : Redis.Entry}
    (h : (redisServed interval burst ttl entry now).2 = some e) : e.px = redisPx ttl' := by
  have hpx' : toDouble (redisPx ttl') = redisPx ttl' := toDouble_eq hpx
  unfold redisPx at hpx'
  simp only [redisServed, Redis.allowRateLimit, hvalid, Redis.allowRateLimitScript, hpx'] at h
  split at h
  · obtain ⟨e', -, rfl⟩ := Option.map_eq_some_iff.mp h
    rfl
  · cases h
    rfl

/-- An exact request is one of the algorithm. -/
theorem redisServed_request (hvalid : Tools.rateLimitTTL interval burst ttl = .ok ttl') (hburst : 0 < burst)
    (hentry : redisValue entry = tat.map formatInt)
    (hexact : RedisUnrounded interval burst ttl' now entry) :
    ((redisServed interval burst ttl entry now).1 = .ok true ↔
        (limit interval burst hburst).Admits tat now) ∧
      redisValue (redisServed interval burst ttl entry now).2 =
        ((limit interval burst hburst).request tat now).2.map formatInt := by
  rw [redisServed_eq hvalid hexact]
  obtain ⟨hdecision, hvalue⟩ := redisRequest_eq hburst now hvalid hentry
  refine ⟨?_, hvalue⟩
  rw [hdecision, Gcra.request]
  split <;> simp [*]

/-- An exact request that is admitted stores the new arrival time. -/
theorem redisServed_stored (hvalid : Tools.rateLimitTTL interval burst ttl = .ok ttl') (hburst : 0 < burst)
    (hentry : redisValue entry = tat.map formatInt)
    (hexact : RedisUnrounded interval burst ttl' now entry)
    (hadmits : (limit interval burst hburst).Admits tat now) {e : Redis.Entry}
    (h : (redisServed interval burst ttl entry now).2 = some e) :
    e.value = formatInt ((limit interval burst hburst).after tat now) := by
  have hvalue := (redisServed_request hvalid hburst hentry hexact).2
  rw [h, Gcra.request, if_pos hadmits] at hvalue
  exact Option.some.inj hvalue

/-- The time of the script is never before one that a double holds and that has passed. -/
theorem le_scriptNow {t₀ : ℤ} (hnonneg : 0 ≤ t₀) (ht₀ : t₀ ≤ 2 ^ 53) (hle : t₀ ≤ t) :
    t₀ ≤ Redis.scriptNow toDouble (t / 1000000) (t % 1000000) := by
  have hmicros : toDouble (t % 1000000) = t % 1000000 := toDouble_eq ⟨by omega, by omega⟩
  have hmax : toDouble (2 ^ 53) = 2 ^ 53 := toDouble_eq ⟨by omega, le_rfl⟩
  rw [Redis.scriptNow, hmicros]
  by_cases hseconds : t / 1000000 * 1000000 ≤ 2 ^ 53
  · have hexact : toDouble (t / 1000000) = t / 1000000 := toDouble_eq ⟨by omega, by omega⟩
    have hexact' : toDouble (t / 1000000 * 1000000) = t / 1000000 * 1000000 :=
      toDouble_eq ⟨by omega, hseconds⟩
    rw [hexact, hexact']
    calc t₀ = toDouble t₀ := (toDouble_eq ⟨by omega, ht₀⟩).symm
      _ ≤ toDouble (t / 1000000 * 1000000 + t % 1000000) := toDouble_mono (by omega)
  · -- Beyond the range, rounding does not come back below it.
    have hlarge : 2 ^ 53 ≤ toDouble (toDouble (t / 1000000) * 1000000) := by
      rw [← hmax]
      apply toDouble_mono
      by_cases hexact : t / 1000000 ≤ 2 ^ 53
      · rw [toDouble_eq ⟨by omega, hexact⟩]
        omega
      · have := toDouble_mono (x := 2 ^ 53) (y := t / 1000000) (by omega)
        omega
    calc t₀ ≤ toDouble (2 ^ 53) := hmax ▸ ht₀
      _ ≤ _ := toDouble_mono (by omega)

/-- A bucket that is full at the time of the script admits. -/
theorem allowAt_le (hburst : 0 < burst) (hnow : toDouble now = now) :
    Redis.allowAt toDouble now (intervalMicros interval) burst ≤ now := by
  have hone : toDouble 1 = 1 := toDouble_eq (by decide)
  have hzero : toDouble 0 = 0 := toDouble_eq (by decide)
  have hinterval : 0 ≤ toDouble (intervalMicros interval) :=
    hzero ▸ toDouble_mono Memcached.intervalMicros_pos.le
  have hrest : 0 ≤ toDouble (toDouble burst - 1) := by
    have := toDouble_mono (x := 1) (y := burst) hburst
    rw [← hzero]
    exact toDouble_mono (by omega)
  have htolerance : 0 ≤ toDouble (toDouble (toDouble burst - 1) * toDouble (intervalMicros interval)) :=
    hzero ▸ toDouble_mono (mul_nonneg hrest hinterval)
  calc Redis.allowAt toDouble now (intervalMicros interval) burst ≤ toDouble now :=
        toDouble_mono (by omega)
    _ = now := hnow

/-- Once its arrival time has passed, nobody misses an entry. -/
theorem redisServed_dropped (hvalid : Tools.rateLimitTTL interval burst ttl = .ok ttl') {e : Redis.Entry}
    {t₀ : ℤ} (he : e.value = formatInt t₀) (hnonneg : 0 ≤ t₀) (ht₀ : t₀ ≤ 2 ^ 53) (hle : t₀ ≤ t) :
    redisServed interval burst ttl none t = redisServed interval burst ttl (some e) t := by
  have hpassed := le_scriptNow hnonneg ht₀ hle
  have hguard := @allowAt_le interval burst (Redis.scriptNow toDouble (t / 1000000) (t % 1000000))
    (Tools.burst_pos hvalid) (toDouble_toDouble _)
  unfold intervalMicros at hguard
  have hsome : Redis.currentTat toDouble (some e)
      (Redis.scriptNow toDouble (t / 1000000) (t % 1000000)) =
        Redis.scriptNow toDouble (t / 1000000) (t % 1000000) := by
    rw [Redis.currentTat, Option.bind_some, Redis.tonumber, he, parseDecimal_formatInt, Option.map_some,
      toDouble_eq ⟨by omega, ht₀⟩]
    dsimp only
    split <;> omega
  have hnone : Redis.currentTat toDouble none
      (Redis.scriptNow toDouble (t / 1000000) (t % 1000000)) =
        Redis.scriptNow toDouble (t / 1000000) (t % 1000000) := rfl
  simp only [redisServed, Redis.allowRateLimit, hvalid, Redis.allowRateLimitScript, hsome, hnone,
    if_neg (Int.not_lt.mpr hguard)]

/-! ## Earlier requests -/

/-- In the exact range, earlier requests leave an arrival time within a full burst of `now`. -/
theorem redisAfter_holds (hvalid : Tools.rateLimitTTL interval burst ttl = .ok ttl')
    (httl : InInt64 ttl) (hmax : now + burst * intervalMicros interval ≤ 2 ^ 53) {earlier : List ℤ}
    (htimes : ∀ t ∈ earlier, 0 ≤ t ∧ t ≤ now) : ∀ {entry : Option Redis.Entry} {tat : Option ℤ},
      redisValue entry = tat.map formatInt → (∀ t ∈ tat, 0 ≤ t ∧ t ≤ 2 ^ 53) →
      ∃ tat' : Option ℤ, redisValue (redisAfter interval burst ttl entry earlier) = tat'.map formatInt ∧
        ∀ t ∈ tat', 0 ≤ t ∧ t ≤ 2 ^ 53 := by
  have hburst := Tools.burst_pos hvalid
  induction earlier with
  | nil =>
      intro entry tat hentry htat
      exact ⟨tat, hentry, htat⟩
  | cons t earlier ih =>
      intro entry tat hentry htat
      obtain ⟨⟨hnonneg, hle⟩, htimes⟩ := List.forall_mem_cons.mp htimes
      have hexact := redisUnrounded_of_le hvalid httl hnonneg (by omega) hentry htat
      have hvalue := (redisServed_request hvalid hburst hentry hexact).2
      refine ih htimes hvalue ?_
      unfold Gcra.request
      split
      · rename_i hadmits
        intro u hu
        cases hu
        have hlow : t ≤ Gcra.clamp tat t := Gcra.le_clamp _ _
        have hpos : 0 < intervalMicros interval := Memcached.intervalMicros_pos
        have hhigh : (limit interval burst hburst).after tat t ≤
            t + burst * intervalMicros interval := hadmits.after_le
        have hafter : (limit interval burst hburst).after tat t =
            Gcra.clamp tat t + intervalMicros interval := rfl
        omega
      · exact htat

theorem redisAfter_none (hvalid : Tools.rateLimitTTL interval burst ttl = .ok ttl') (httl : InInt64 ttl)
    (hmax : now + burst * intervalMicros interval ≤ 2 ^ 53) {earlier : List ℤ}
    (htimes : ∀ t ∈ earlier, 0 ≤ t ∧ t ≤ now) :
    ∃ tat : Option ℤ, redisValue (redisAfter interval burst ttl none earlier) = tat.map formatInt ∧
      ∀ t ∈ tat, 0 ≤ t ∧ t ≤ 2 ^ 53 :=
  have hempty : redisValue none = (none : Option ℤ).map formatInt := rfl
  redisAfter_holds hvalid httl hmax htimes hempty (by simp)

/-- As long as its requests are exact, an empty bucket is drained in one moment. -/
theorem redisAfter_burst (hvalid : Tools.rateLimitTTL interval burst ttl = .ok ttl') (hburst : 0 < burst)
    (hexact : ∀ j : ℕ, (j : ℤ) ≤ burst - 1 →
      RedisUnrounded interval burst ttl' now (redisAfter interval burst ttl none (List.replicate j now)))
    (j : ℕ) : (j : ℤ) ≤ burst - 1 → ∃ tat : Option ℤ,
      redisValue (redisAfter interval burst ttl none (List.replicate j now)) = tat.map formatInt ∧
      Gcra.clamp tat now = now + j * intervalMicros interval := by
  induction j with
  | zero => exact fun _ => ⟨none, rfl, by rw [Gcra.clamp_none]; push_cast; ring⟩
  | succ j ih =>
      intro hj
      push_cast at hj
      obtain ⟨tat, hentry, hclamp⟩ := ih (by omega)
      obtain ⟨hadmits, -, hclamp'⟩ :=
        @Gcra.burst_request (limit interval burst hburst) tat now j (Int.natCast_nonneg j)
          (by change (j : ℤ) ≤ burst - 1; omega) hclamp
      have hvalue := (redisServed_request hvalid hburst hentry (hexact j (by omega))).2
      rw [Gcra.request, if_pos hadmits] at hvalue
      refine ⟨some ((limit interval burst hburst).after tat now), ?_, ?_⟩
      · rw [redisAfter, List.replicate_succ', List.foldl_append]
        exact hvalue
      · rw [hclamp']
        push_cast
        rfl

/-! ## Main results -/

/-- The last request of a full burst at `now`. -/
theorem redisAfter_last (hvalid : Tools.rateLimitTTL interval burst ttl = .ok ttl') (hburst : 0 < burst)
    (hexact : ∀ j : ℕ, (j : ℤ) ≤ burst - 1 →
      RedisUnrounded interval burst ttl' now (redisAfter interval burst ttl none (List.replicate j now))) :
    ∃ tat : Option ℤ, redisValue (redisAfter interval burst ttl none
        (List.replicate (burst.toNat - 1) now)) = tat.map formatInt ∧
      (limit interval burst hburst).Admits tat now ∧
      (limit interval burst hburst).after tat now = now + burst * intervalMicros interval := by
  have hlast : ((burst.toNat - 1 : ℕ) : ℤ) = burst - 1 := by omega
  obtain ⟨tat, hentry, hclamp⟩ := redisAfter_burst hvalid hburst hexact (burst.toNat - 1) hlast.le
  rw [hlast] at hclamp
  obtain ⟨hadmits, hafter, -⟩ := @Gcra.burst_request (limit interval burst hburst) tat now (burst - 1)
    (by omega) le_rfl hclamp
  rw [sub_add_cancel] at hafter
  exact ⟨tat, hentry, hadmits, hafter⟩

theorem mem_replicate_times (hnow : 0 ≤ now) (j : ℕ) : ∀ t ∈ List.replicate j now, 0 ≤ t ∧ t ≤ now := by
  intro t ht
  rw [List.eq_of_mem_replicate ht]
  exact ⟨hnow, le_rfl⟩

/-- The numbers of all requests at `now` are exact as long as those of a full burst are. -/
theorem redisUnrounded_iff (hvalid : Tools.rateLimitTTL interval burst ttl = .ok ttl')
    (httl : InInt64 ttl) (hnow : 0 ≤ now) :
    (∀ earlier : List ℤ, (∀ t ∈ earlier, 0 ≤ t ∧ t ≤ now) →
      RedisUnrounded interval burst ttl' now (redisAfter interval burst ttl none earlier)) ↔
    now + burst * intervalMicros interval ≤ 2 ^ 53 := by
  have hburst := Tools.burst_pos hvalid
  constructor
  · intro hexact
    obtain ⟨tat, hentry, hadmits, hafter⟩ := redisAfter_last hvalid hburst
      fun j _ => hexact _ (mem_replicate_times hnow j)
    have hnumbers := hexact _ (mem_replicate_times hnow (burst.toNat - 1))
    have hguard : ¬now < Gcra.clamp tat now - (burst - 1) * intervalMicros interval :=
      Int.not_lt.mpr hadmits
    unfold RedisUnrounded at hnumbers
    rw [redisNumbers_eq hentry, if_neg hguard] at hnumbers
    have hstored : InDouble ((limit interval burst hburst).after tat now) :=
      hnumbers _ (List.mem_append_right _ List.mem_cons_self)
    exact hafter ▸ hstored.2
  · intro hmax earlier htimes
    obtain ⟨tat, hentry, htat⟩ := redisAfter_none hvalid httl hmax htimes
    exact redisUnrounded_of_le hvalid httl hnow hmax hentry htat

/-- In the exact range, what a request stores lives until its arrival time exactly if a full
bucket is refilled within the lifetime in whole milliseconds. -/
theorem redisSafe_iff (hvalid : Tools.rateLimitTTL interval burst ttl = .ok ttl') (httl : InInt64 ttl)
    (hnow : 0 ≤ now) (hmax : now + burst * intervalMicros interval ≤ 2 ^ 53) :
    (∀ earlier : List ℤ, (∀ t ∈ earlier, 0 ≤ t ∧ t ≤ now) →
      RedisSafe interval burst ttl ttl' now (redisAfter interval burst ttl none earlier)) ↔
    burst * intervalMicros interval ≤ 1000 * max 1 (ttl' / 1000000) := by
  have hburst := Tools.burst_pos hvalid
  have hexact := (redisUnrounded_iff hvalid httl hnow).mpr hmax
  have hpx {entry : Option Redis.Entry} (h : RedisUnrounded interval burst ttl' now entry) :
      InDouble (redisPx ttl') := by
    apply h
    simp [redisNumbers, Redis.scriptNumbers]
  rw [← redisPx_eq hvalid]
  constructor
  · intro hsafe
    obtain ⟨tat, hentry, hadmits, hafter⟩ := redisAfter_last hvalid hburst
      fun j _ => hexact _ (mem_replicate_times hnow j)
    have htimes := mem_replicate_times hnow (burst.toNat - 1)
    obtain ⟨hadmitted, hvalue⟩ := redisServed_request hvalid hburst hentry (hexact _ htimes)
    rw [Gcra.request, if_pos hadmits] at hvalue
    obtain ⟨e, he, hstored⟩ := Option.map_eq_some_iff.mp hvalue
    obtain ⟨t, hparse, hle⟩ := (hsafe _ htimes).kept (hadmitted.mpr hadmits) e he
    rw [hstored, parseDecimal_formatInt] at hparse
    cases hparse
    rw [redisExpiry, redisServed_px hvalid (hpx (hexact _ htimes)) he, hafter] at hle
    omega
  · intro hlife earlier htimes
    obtain ⟨tat, hentry, htat⟩ := redisAfter_none hvalid httl hmax htimes
    have hunrounded := hexact earlier htimes
    generalize redisAfter interval burst ttl none earlier = entry at *
    have hstored (hreq : (redisServed interval burst ttl entry now).1 = .ok true) (e : Redis.Entry)
        (he : (redisServed interval burst ttl entry now).2 = some e) :
        ∃ t, e.value = formatInt t ∧ 0 ≤ t ∧ t ≤ 2 ^ 53 ∧ t ≤ redisExpiry now e.px := by
      have hadmits := (redisServed_request hvalid hburst hentry hunrounded).1.mp hreq
      have hhigh : (limit interval burst hburst).after tat now ≤
          now + burst * intervalMicros interval := hadmits.after_le
      have hlow : now ≤ Gcra.clamp tat now := Gcra.le_clamp _ _
      have hpos : 0 < intervalMicros interval := Memcached.intervalMicros_pos
      have hafter : (limit interval burst hburst).after tat now =
          Gcra.clamp tat now + intervalMicros interval := rfl
      refine ⟨_, redisServed_stored hvalid hburst hentry hunrounded hadmits he, by omega, by omega, ?_⟩
      rw [redisExpiry, redisServed_px hvalid (hpx hunrounded) he]
      omega
    refine ⟨redisNumbers_inInt64 hvalid httl, fun hreq e he => ?_, fun hreq e he t hexpired => ?_⟩
    · obtain ⟨t, hvalue, -, -, hle⟩ := hstored hreq e he
      exact ⟨t, by rw [hvalue, parseDecimal_formatInt], hle⟩
    · obtain ⟨t₀, hvalue, hnonneg, ht₀, hle⟩ := hstored hreq e he
      exact redisServed_dropped hvalid hvalue hnonneg ht₀ (hle.trans hexpired)

end Go42.Cache
