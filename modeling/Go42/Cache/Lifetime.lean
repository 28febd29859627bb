-- SUMMARY: How long memcached keeps a bucket, and when both caches keep it until its arrival time.
import Go42.Cache.RedisLifetime

/-!
# Lifetimes

Memcached counts whole seconds, so an item may be gone up to a second early. An item that is gone
is a full bucket again.
-/

namespace Go42.Cache

open Memcached (intervalMicros limit Room rateLimitExpiration keptSeconds currentTat)

/-- The earliest microsecond at which memcached drops an item that it was given at `now`: relative
up to 30 days, and a timestamp beyond. -/
def memcachedExpiry (now expiration : ℤ) : ℤ :=
  (if expiration ≤ 30 * 24 * 60 * 60 then now + expiration * 1000000 else expiration * 1000000) - 1000000

section Safe

variable (key : String) (interval burst ttl ttl' now : ℤ)

/-! ## Memcached -/

/-- The numbers of 64 bits that a request at `now` computes. -/
def memcachedNumbers (entry : Option Memcached.Item) : List ℤ :=
  [interval * burst, keptSeconds ttl', keptSeconds ttl' + now / 1000000,
    (burst - 1) * intervalMicros interval] ++
  match entry with
  | none => [now + intervalMicros interval]
  | some item =>
    match parseInt item.value with
    | none => []
    | some tat =>
      let tat := currentTat tat now
      let allowAt := tat - (burst - 1) * intervalMicros interval
      allowAt :: if now < allowAt then [] else [tat + intervalMicros interval]

def withoutEntry (w : Memcached.World) : Memcached.World :=
  { w with entries := Function.update w.entries key none }

/-- Whether an item is there or gone, a request at `t` is answered alike, and stores the same. -/
def SameWithoutEntry (w : Memcached.World) (t : ℤ) : Prop :=
  (memcachedRequest key interval burst ttl (withoutEntry key w) t).1 =
      (memcachedRequest key interval burst ttl w t).1 ∧
    ((memcachedRequest key interval burst ttl w t).1 = .returned true →
      memcachedValue key (memcachedRequest key interval burst ttl (withoutEntry key w) t).2 =
        memcachedValue key (memcachedRequest key interval burst ttl w t).2)

/-- In a request at `now` nothing wraps, and what it stores lives until its arrival time. -/
structure MemcachedSafe (w : Memcached.World) : Prop where
  numbers : ∀ x ∈ memcachedNumbers interval burst ttl' now (w.entries key), InInt64 x
  expiration : ∀ e, rateLimitExpiration now ttl' = .ok e → -2 ^ 31 ≤ e ∧ e < 2 ^ 31
  kept : (memcachedRequest key interval burst ttl w now).1 = .returned true →
    ∀ item, (memcachedRequest key interval burst ttl w now).2.entries key = some item →
      ∃ tat, parseInt item.value = some tat ∧ tat ≤ memcachedExpiry now item.expiration
  dropped : (memcachedRequest key interval burst ttl w now).1 = .returned true →
    ∀ item, (memcachedRequest key interval burst ttl w now).2.entries key = some item →
      ∀ t, memcachedExpiry now item.expiration ≤ t → InInt64 t →
        SameWithoutEntry key interval burst ttl (memcachedRequest key interval burst ttl w now).2 t

/-- What earlier requests left. -/
def memcachedAfter (w : Memcached.World) (earlier : List ℤ) : Memcached.World :=
  earlier.foldl (fun w t => (memcachedRequest key interval burst ttl w t).2) w

end Safe

/-! ## One request -/

section Request

variable {key : String} {interval burst ttl ttl' now : ℤ} {tat : Option ℤ} {w : Memcached.World}
variable {expiration : ℤ}

/-- With the tolerance in range, the guard is exact for every entry. -/
theorem guard_iff (hvalid : Tools.rateLimitTTL interval burst ttl = .ok ttl') (hburst : 0 < burst)
    (hnow : 0 ≤ now) (hnow' : InInt64 now) {t : ℤ} (ht : InInt64 t) :
    InInt64 (currentTat t now - (burst - 1) * intervalMicros interval) ∧
      (now < wrapInt64 (currentTat t now - wrapInt64 ((burst - 1) * intervalMicros interval)) ↔
        ¬(limit interval burst hburst).Admits (some t) now) := by
  obtain ⟨htolerance, hburst', hmax⟩ := burst_micros hvalid
  have hpos : 0 < intervalMicros interval := Memcached.intervalMicros_pos
  have hle : now ≤ currentTat t now := Memcached.currentTat_eq t now ▸ Gcra.le_clamp _ _
  have hlt : currentTat t now < 2 ^ 63 := by
    unfold currentTat
    split
    · exact hnow'.2
    · exact ht.2
  unfold maxInt64 at hmax
  have hin : InInt64 (currentTat t now - (burst - 1) * intervalMicros interval) := ⟨by omega, by omega⟩
  refine ⟨hin, ?_⟩
  rw [wrapInt64_eq (x := (burst - 1) * intervalMicros interval) ⟨by omega, by omega⟩, wrapInt64_eq hin,
    Gcra.Admits, ← Memcached.currentTat_eq, not_le]
  rfl

/-- An admitted request stores the new arrival time, wrapped if it does not fit. -/
theorem memcachedRequest_admitted (hvalid : Tools.rateLimitTTL interval burst ttl = .ok ttl')
    (hburst : 0 < burst) (hnow : 0 ≤ now) (hnow' : InInt64 now)
    (hexpiration : rateLimitExpiration now ttl' = .ok expiration) (hw : HoldsTat key tat w)
    (hadmits : (limit interval burst hburst).Admits tat now) :
    ∃ item, memcachedRequest key interval burst ttl w now = (.returned true, w.store item) ∧
      item.key = key ∧ item.value = formatInt (wrapInt64 ((limit interval burst hburst).after tat now)) ∧
      item.expiration = expiration := by
  have hvalue := hw.value
  unfold memcachedValue at hvalue
  simp only [memcachedRequest, Memcached.allowRateLimit, hvalid, Memcached.maxCASAttempts]
  cases tat with
  | none =>
      have hentry : w.entries key = none := by simpa using hvalue
      rw [allowLoop_none hexpiration hentry, Memcached.limit_after_none]
      exact ⟨_, rfl, rfl, rfl, rfl⟩
  | some t =>
      obtain ⟨item, hentry, hitem⟩ := Option.map_eq_some_iff.mp hvalue
      have hparse : parseInt item.value = some t := by rw [hitem, parseInt_formatInt (hw.range t rfl)]
      have hguard := (guard_iff hvalid hburst hnow hnow' (hw.range t rfl)).2
      rw [allowLoop_some hexpiration hentry (hw.key item hentry) hparse,
        if_neg fun hdenied => hguard.mp hdenied hadmits, Memcached.limit_after_some]
      exact ⟨_, rfl, hw.key item hentry, rfl, rfl⟩

theorem memcachedRequest_denied (hvalid : Tools.rateLimitTTL interval burst ttl = .ok ttl')
    (hburst : 0 < burst) (hnow : 0 ≤ now) (hnow' : InInt64 now)
    (hexpiration : rateLimitExpiration now ttl' = .ok expiration) (hw : HoldsTat key tat w)
    (hdenied : ¬(limit interval burst hburst).Admits tat now) :
    memcachedRequest key interval burst ttl w now = (.returned false, w) := by
  have hvalue := hw.value
  unfold memcachedValue at hvalue
  simp only [memcachedRequest, Memcached.allowRateLimit, hvalid, Memcached.maxCASAttempts]
  cases tat with
  | none => exact absurd ((limit interval burst hburst).admits_none now) hdenied
  | some t =>
      obtain ⟨item, hentry, hitem⟩ := Option.map_eq_some_iff.mp hvalue
      have hparse : parseInt item.value = some t := by rw [hitem, parseInt_formatInt (hw.range t rfl)]
      have hguard := (guard_iff hvalid hburst hnow hnow' (hw.range t rfl)).2
      rw [allowLoop_some hexpiration hentry (hw.key item hentry) hparse, if_pos (hguard.mpr hdenied)]

/-- A request whose expiration does not fit fails before it asks memcached. -/
theorem memcachedRequest_failed {err : GoError} (hvalid : Tools.rateLimitTTL interval burst ttl = .ok ttl')
    (hexpiration : rateLimitExpiration now ttl' = .error err) :
    memcachedRequest key interval burst ttl w now = (.failed err, w) := by
  simp only [memcachedRequest, Memcached.allowRateLimit, hvalid, Memcached.maxCASAttempts]
  rw [Memcached.allowLoop, Prog.alone_seq _ alone_ctxErr, Prog.alone_seq _ alone_unixMicro]
  dsimp only
  rw [hexpiration]
  rfl

/-- Lifetimes and tolerances always fit. -/
theorem fixedNumbers (hvalid : Tools.rateLimitTTL interval burst ttl = .ok ttl') (httl : InInt64 ttl)
    (hnow : 0 ≤ now) (hnow' : InInt64 now) : ∀ x ∈ [interval * burst, keptSeconds ttl',
      keptSeconds ttl' + now / 1000000, (burst - 1) * intervalMicros interval], InInt64 x := by
  obtain ⟨hinterval, hburst, hpos, hmax, rfl⟩ := Tools.rateLimitTTL_ok.mp hvalid
  obtain ⟨htolerance, hburst', hmicros⟩ := burst_micros hvalid
  have hmicros' : 0 < intervalMicros interval := Memcached.intervalMicros_pos
  have hproduct : 0 < interval * burst := mul_pos hinterval hburst
  obtain ⟨-, httl⟩ := httl
  obtain ⟨-, hnow'⟩ := hnow'
  unfold maxInt64 at hmax hmicros
  simp only [List.forall_mem_cons, List.not_mem_nil, false_imp_iff, implies_true, and_true]
  unfold keptSeconds nanosPerSecond InInt64
  refine ⟨?_, ?_, ?_, ?_⟩ <;> constructor <;> omega

/-- The numbers fit exactly if what an admitted request stores does. -/
theorem memcachedNumbers_iff (hvalid : Tools.rateLimitTTL interval burst ttl = .ok ttl') (hburst : 0 < burst)
    (httl : InInt64 ttl) (hnow : 0 ≤ now) (hnow' : InInt64 now) (hw : HoldsTat key tat w) :
    (∀ x ∈ memcachedNumbers interval burst ttl' now (w.entries key), InInt64 x) ↔
      ((limit interval burst hburst).Admits tat now → InInt64 ((limit interval burst hburst).after tat now)) := by
  have hvalue := hw.value
  unfold memcachedValue at hvalue
  unfold memcachedNumbers
  rw [List.forall_mem_append, and_iff_right (fixedNumbers hvalid httl hnow hnow')]
  cases tat with
  | none =>
      have hentry : w.entries key = none := by simpa using hvalue
      rw [hentry, List.forall_mem_singleton, Memcached.limit_after_none]
      exact ⟨fun h _ => h, fun h => h ((limit interval burst hburst).admits_none now)⟩
  | some t =>
      obtain ⟨item, hentry, hitem⟩ := Option.map_eq_some_iff.mp hvalue
      have hparse : parseInt item.value = some t := by rw [hitem, parseInt_formatInt (hw.range t rfl)]
      have hin := (guard_iff hvalid hburst hnow hnow' (hw.range t rfl)).1
      have hadmits : now < currentTat t now - (burst - 1) * intervalMicros interval ↔
          ¬(limit interval burst hburst).Admits (some t) now := by
        rw [Gcra.Admits, ← Memcached.currentTat_eq, not_le]
        rfl
      rw [hentry]
      simp only [hparse]
      rw [List.forall_mem_cons, and_iff_right hin, Memcached.limit_after_some]
      by_cases h : (limit interval burst hburst).Admits (some t) now
      · rw [if_neg (not_not.mpr h ∘ hadmits.mp), List.forall_mem_singleton]
        exact ⟨fun hfits _ => hfits, fun hfits => hfits h⟩
      · rw [if_pos (hadmits.mpr h)]
        exact ⟨fun _ hadm => absurd hadm h, fun _ x hx => absurd hx List.not_mem_nil⟩

/-- A number of seconds is rounded up, and a timestamp also loses what the second has run. -/
theorem memcachedExpiry_eq (hnow : 0 ≤ now) (httl : 0 < ttl')
    (hexpiration : rateLimitExpiration now ttl' = .ok expiration) :
    memcachedExpiry now expiration = now + (keptSeconds ttl' - 1) * 1000000 -
      (if 2592000 < keptSeconds ttl' then now % 1000000 else 0) := by
  obtain ⟨-, heq⟩ := (Memcached.rateLimitExpiration_ok hnow httl).mp hexpiration
  rw [memcachedExpiry, heq]
  split <;> split <;> omega

theorem withoutEntry_holds : HoldsTat key none (withoutEntry key w) :=
  .absent (Function.update_self _ _ _)

/-- Once its arrival time has passed, nobody misses an entry. -/
theorem sameWithoutEntry (hvalid : Tools.rateLimitTTL interval burst ttl = .ok ttl') {t₀ t : ℤ}
    (hw : HoldsTat key (some t₀) w) (hle : t₀ ≤ t) (ht : 0 ≤ t) (ht' : InInt64 t) :
    SameWithoutEntry key interval burst ttl w t := by
  have hburst := Tools.burst_pos hvalid
  unfold SameWithoutEntry
  cases hexpiration : rateLimitExpiration t ttl' with
  | error err =>
      rw [memcachedRequest_failed hvalid hexpiration, memcachedRequest_failed hvalid hexpiration]
      exact ⟨rfl, nofun⟩
  | ok e =>
      have hclamp : Gcra.clamp (some t₀) t = t := max_eq_right hle
      have hadmits := (limit interval burst hburst).admits_none t
      have hadmits' : (limit interval burst hburst).Admits (some t₀) t := by
        rw [Gcra.Admits, Gcra.clamp_none] at hadmits
        rwa [Gcra.Admits, hclamp]
      obtain ⟨item, hrequest, hkey, hvalue, -⟩ :=
        memcachedRequest_admitted hvalid hburst ht ht' hexpiration withoutEntry_holds hadmits
      obtain ⟨item', hrequest', hkey', hvalue', -⟩ :=
        memcachedRequest_admitted hvalid hburst ht ht' hexpiration hw hadmits'
      rw [hrequest, hrequest']
      refine ⟨rfl, fun _ => ?_⟩
      rw [memcachedValue, memcachedValue]
      conv_lhs => rw [← hkey]
      conv_rhs => rw [← hkey']
      rw [Memcached.store_self, Memcached.store_self, Option.map_some, Option.map_some, hvalue, hvalue',
        Gcra.after, Gcra.after, Gcra.clamp_none, hclamp]

/-- An entry with an arrival time that fits, and a lifetime for a bucket that is empty. -/
theorem memcachedSafe_of_holds (hvalid : Tools.rateLimitTTL interval burst ttl = .ok ttl')
    (httl : InInt64 ttl) (hnow : 0 ≤ now) (hnow' : InInt64 now)
    (hexpiration : rateLimitExpiration now ttl' = .ok expiration) (hw : HoldsTat key tat w)
    (hmax : now + burst * intervalMicros interval ≤ maxInt64)
    (hlife : now + burst * intervalMicros interval ≤ memcachedExpiry now expiration) :
    MemcachedSafe key interval burst ttl ttl' now w := by
  have hburst := Tools.burst_pos hvalid
  have hafter (hadmits : (limit interval burst hburst).Admits tat now) :
      now < (limit interval burst hburst).after tat now ∧
        (limit interval burst hburst).after tat now ≤ now + burst * intervalMicros interval :=
    ⟨Gcra.lt_after _ _ _, hadmits.after_le⟩
  have hrange (hadmits : (limit interval burst hburst).Admits tat now) :
      InInt64 ((limit interval burst hburst).after tat now) := by
    have := hafter hadmits
    unfold maxInt64 at hmax
    exact ⟨by omega, by omega⟩
  -- What an admitted request leaves.
  have hstored (hreq : (memcachedRequest key interval burst ttl w now).1 = .returned true) :
      ∃ t, HoldsTat key (some t) (memcachedRequest key interval burst ttl w now).2 ∧ now < t ∧
        t ≤ now + burst * intervalMicros interval ∧
        ∀ item, (memcachedRequest key interval burst ttl w now).2.entries key = some item →
          parseInt item.value = some t ∧ item.expiration = expiration := by
    by_cases hadmits : (limit interval burst hburst).Admits tat now
    · obtain ⟨item, hrequest, hkey, hvalue, hexp⟩ :=
        memcachedRequest_admitted hvalid hburst hnow hnow' hexpiration hw hadmits
      rw [wrapInt64_eq (hrange hadmits)] at hvalue
      rw [hrequest]
      refine ⟨_, .store hkey hvalue (hrange hadmits), (hafter hadmits).1, (hafter hadmits).2, ?_⟩
      intro item' hitem'
      rw [← hkey, Memcached.store_self] at hitem'
      cases hitem'
      exact ⟨by rw [hvalue, parseInt_formatInt (hrange hadmits)], hexp⟩
    · rw [memcachedRequest_denied hvalid hburst hnow hnow' hexpiration hw hadmits] at hreq
      cases hreq
  refine ⟨(memcachedNumbers_iff hvalid hburst httl hnow hnow' hw).mpr hrange, ?_, ?_, ?_⟩
  · intro e he
    have hpos := lifetime_pos hvalid
    obtain ⟨hle, rfl⟩ := (Memcached.rateLimitExpiration_ok hnow hpos).mp he
    have hkept : 0 < keptSeconds ttl' := by
      unfold keptSeconds nanosPerSecond
      omega
    constructor <;> split <;> omega
  · intro hreq item hitem
    obtain ⟨t, -, -, hle, hall⟩ := hstored hreq
    obtain ⟨hparse, hexp⟩ := hall item hitem
    exact ⟨t, hparse, hexp ▸ hle.trans hlife⟩
  · intro hreq item hitem t' hexpired ht'
    obtain ⟨t, hholds, hlt, hle, hall⟩ := hstored hreq
    rw [(hall item hitem).2] at hexpired
    exact sameWithoutEntry hvalid hholds (by omega) (by omega) ht'

/-! ## Every state -/

/-- Requests up to `now` leave an arrival time that fits. -/
theorem memcachedAfter_holds (hvalid : Tools.rateLimitTTL interval burst ttl = .ok ttl') (hnow' : InInt64 now)
    (hexpiration : rateLimitExpiration now ttl' = .ok expiration)
    (hmax : now + burst * intervalMicros interval ≤ maxInt64) {earlier : List ℤ} :
    ∀ {w : Memcached.World} {tat : Option ℤ}, HoldsTat key tat w → (∀ t ∈ earlier, 0 ≤ t ∧ t ≤ now) →
      ∃ tat', HoldsTat key tat' (memcachedAfter key interval burst ttl w earlier) := by
  have hburst := Tools.burst_pos hvalid
  induction earlier with
  | nil => exact fun hw _ => ⟨_, hw⟩
  | cons t earlier ih =>
      intro w tat hw htimes
      obtain ⟨⟨ht, hle⟩, htimes⟩ := List.forall_mem_cons.mp htimes
      obtain ⟨e, he⟩ := Memcached.rateLimitExpiration_of_le ht hle (lifetime_pos hvalid) hexpiration
      obtain ⟨-, hnow'⟩ := hnow'
      have ht' : InInt64 t := ⟨by omega, by omega⟩
      by_cases hadmits : (limit interval burst hburst).Admits tat t
      · obtain ⟨item, hrequest, hkey, hvalue, -⟩ :=
          memcachedRequest_admitted hvalid hburst ht ht' he hw hadmits
        have hrange : InInt64 ((limit interval burst hburst).after tat t) := by
          have hlt := (limit interval burst hburst).lt_after tat t
          have hafter : _ ≤ t + burst * intervalMicros interval := hadmits.after_le
          unfold maxInt64 at hmax
          exact ⟨by omega, by omega⟩
        rw [wrapInt64_eq hrange] at hvalue
        have hw' : HoldsTat key (some ((limit interval burst hburst).after tat t))
            (memcachedRequest key interval burst ttl w t).2 := by
          rw [hrequest]
          exact .store hkey hvalue hrange
        exact ih hw' htimes
      · have hw' : HoldsTat key tat (memcachedRequest key interval burst ttl w t).2 := by
          rw [memcachedRequest_denied hvalid hburst ht ht' he hw hadmits]
          exact hw
        exact ih hw' htimes

theorem memcachedAfter_replicate {j : ℕ} :
    memcachedAfter key interval burst ttl w (List.replicate (j + 1) now) =
      (memcachedRequest key interval burst ttl
        (memcachedAfter key interval burst ttl w (List.replicate j now)) now).2 := by
  rw [memcachedAfter, List.replicate_succ', List.foldl_append]
  rfl

/-- Each request of a burst at `now` moves the arrival time by one interval, as long as nothing
wraps. -/
theorem memcachedAfter_burst (hvalid : Tools.rateLimitTTL interval burst ttl = .ok ttl')
    (httl : InInt64 ttl) (hnow : 0 ≤ now) (hnow' : InInt64 now)
    (hexpiration : rateLimitExpiration now ttl' = .ok expiration) (habsent : w.entries key = none)
    (hburst : 0 < burst) (hsafe : ∀ earlier : List ℤ, (∀ t ∈ earlier, 0 ≤ t ∧ t ≤ now) →
      MemcachedSafe key interval burst ttl ttl' now (memcachedAfter key interval burst ttl w earlier)) (j : ℕ) :
    (j : ℤ) ≤ burst - 1 → ∃ tat,
      HoldsTat key tat (memcachedAfter key interval burst ttl w (List.replicate j now)) ∧
      Gcra.clamp tat now = now + j * intervalMicros interval ∧
      InInt64 ((limit interval burst hburst).after tat now) := by
  have hnumbers {j : ℕ} {tat : Option ℤ}
      (hw : HoldsTat key tat (memcachedAfter key interval burst ttl w (List.replicate j now))) :=
    (memcachedNumbers_iff hvalid hburst httl hnow hnow' hw).mp
      (hsafe _ fun t ht => by rw [List.eq_of_mem_replicate ht]; exact ⟨hnow, le_rfl⟩).numbers
  induction j with
  | zero =>
      intro _
      have hadmits := (limit interval burst hburst).admits_none now
      refine ⟨none, .absent habsent, ?_, hnumbers (j := 0) (.absent habsent) hadmits⟩
      rw [Gcra.clamp_none]
      push_cast
      ring
  | succ j ih =>
      intro hj
      push_cast at hj
      obtain ⟨tat, hw, hclamp, hrange⟩ := ih (by omega)
      obtain ⟨hadmits, -, hclamp'⟩ :=
        @Gcra.burst_request (limit interval burst hburst) tat now j (Int.natCast_nonneg j)
          (by change (j : ℤ) ≤ burst - 1; omega) hclamp
      obtain ⟨item, hrequest, hkey, hvalue, -⟩ :=
        memcachedRequest_admitted hvalid hburst hnow hnow' hexpiration hw hadmits
      rw [wrapInt64_eq hrange] at hvalue
      have hw' : HoldsTat key (some ((limit interval burst hburst).after tat now))
          (memcachedAfter key interval burst ttl w (List.replicate (j + 1) now)) := by
        rw [memcachedAfter_replicate, hrequest]
        exact .store hkey hvalue hrange
      obtain ⟨hadmits', -⟩ :=
        @Gcra.burst_request (limit interval burst hburst) _ now (j + 1) (by omega) hj hclamp'
      refine ⟨_, hw', ?_, hnumbers hw' hadmits'⟩
      rw [hclamp']
      push_cast
      rfl

theorem memcachedSafe_iff (hvalid : Tools.rateLimitTTL interval burst ttl = .ok ttl')
    (httl : InInt64 ttl) (hnow : 0 ≤ now) (hnow' : InInt64 now)
    (hexpiration : rateLimitExpiration now ttl' = .ok expiration) (habsent : w.entries key = none) :
    (∀ earlier : List ℤ, (∀ t ∈ earlier, 0 ≤ t ∧ t ≤ now) →
      MemcachedSafe key interval burst ttl ttl' now (memcachedAfter key interval burst ttl w earlier)) ↔
    now + burst * intervalMicros interval ≤ maxInt64 ∧
      now + burst * intervalMicros interval ≤ memcachedExpiry now expiration := by
  have hburst := Tools.burst_pos hvalid
  constructor
  · intro hsafe
    have hlast : ((burst.toNat - 1 : ℕ) : ℤ) = burst - 1 := by omega
    obtain ⟨tat, hw, hclamp, hrange⟩ := memcachedAfter_burst hvalid httl hnow hnow' hexpiration habsent
      hburst hsafe (burst.toNat - 1) hlast.le
    rw [hlast] at hclamp
    obtain ⟨hadmits, hafter, -⟩ := @Gcra.burst_request (limit interval burst hburst) tat now (burst - 1)
      (by omega) le_rfl hclamp
    rw [sub_add_cancel] at hafter
    obtain ⟨item, hrequest, hkey, hvalue, hexp⟩ :=
      memcachedRequest_admitted hvalid hburst hnow hnow' hexpiration hw hadmits
    rw [wrapInt64_eq hrange] at hvalue
    have htimes : ∀ t ∈ List.replicate (burst.toNat - 1) now, 0 ≤ t ∧ t ≤ now := by
      intro t ht
      rw [List.eq_of_mem_replicate ht]
      exact ⟨hnow, le_rfl⟩
    have hkept := (hsafe _ htimes).kept
    rw [hrequest] at hkept
    obtain ⟨t, hparse, hle⟩ := hkept rfl _ (hkey ▸ Memcached.store_self)
    have ht : t = now + burst * intervalMicros interval := by
      refine Eq.trans ?_ hafter
      apply Option.some.inj
      rw [← hparse, ← parseInt_formatInt hrange, ← hvalue]
    have hlt : now + burst * intervalMicros interval < 2 ^ 63 := lt_of_eq_of_lt hafter.symm hrange.2
    rw [ht] at hle
    unfold maxInt64
    exact ⟨by omega, hexp ▸ hle⟩
  · rintro ⟨hmax, hlife⟩ earlier htimes
    obtain ⟨tat, hw⟩ := memcachedAfter_holds hvalid hnow' hexpiration hmax (.absent habsent) htimes
    exact memcachedSafe_of_holds hvalid httl hnow hnow' hexpiration hw hmax hlife

/-- After any requests up to `now`, nothing that a request at `now` computes wraps or is rounded, and
what it stores lives until its arrival time, so that nobody misses it: on memcached exactly if 64 bits
hold the arrival time of an empty bucket, and the bucket is full again within the lifetime in whole
seconds, less the part of the second that a timestamp loses; on Redis exactly if doubles hold that
arrival time, and the bucket is full again within the lifetime in whole milliseconds. -/
theorem rateLimit_safe_iff (hvalid : Tools.rateLimitTTL interval burst ttl = .ok ttl') (httl : InInt64 ttl)
    (hnow : 0 ≤ now) (hnow' : InInt64 now)
    (hexpiration : rateLimitExpiration now ttl' = .ok expiration) (habsent : w.entries key = none) :
    ((∀ earlier : List ℤ, (∀ t ∈ earlier, 0 ≤ t ∧ t ≤ now) →
        MemcachedSafe key interval burst ttl ttl' now (memcachedAfter key interval burst ttl w earlier)) ↔
      now + burst * intervalMicros interval ≤ maxInt64 ∧
        burst * intervalMicros interval + (if 2592000 < keptSeconds ttl' then now % 1000000 else 0) ≤
          (keptSeconds ttl' - 1) * 1000000) ∧
    ((∀ earlier : List ℤ, (∀ t ∈ earlier, 0 ≤ t ∧ t ≤ now) →
        RedisUnrounded interval burst ttl' now (redisAfter interval burst ttl none earlier) ∧
        RedisSafe interval burst ttl ttl' now (redisAfter interval burst ttl none earlier)) ↔
      now + burst * intervalMicros interval ≤ 2 ^ 53 ∧
        burst * intervalMicros interval ≤ 1000 * max 1 (ttl' / 1000000)) ∧
    (now + burst * intervalMicros interval ≤ 2 ^ 53 →
      ((∀ earlier : List ℤ, (∀ t ∈ earlier, 0 ≤ t ∧ t ≤ now) →
          RedisSafe interval burst ttl ttl' now (redisAfter interval burst ttl none earlier)) ↔
        burst * intervalMicros interval ≤ 1000 * max 1 (ttl' / 1000000))) := by
  refine ⟨?_, ?_, redisSafe_iff hvalid httl hnow⟩
  · rw [memcachedSafe_iff hvalid httl hnow hnow' hexpiration habsent,
      memcachedExpiry_eq hnow (lifetime_pos hvalid) hexpiration]
    apply and_congr_right'
    split <;> constructor <;> intro _ <;> omega
  · have hexact := redisUnrounded_iff hvalid httl hnow
    constructor
    · intro hsafe
      have hmax := hexact.mp fun earlier htimes => (hsafe earlier htimes).1
      exact ⟨hmax, (redisSafe_iff hvalid httl hnow hmax).mp fun earlier htimes =>
        (hsafe earlier htimes).2⟩
    · rintro ⟨hmax, hlife⟩ earlier htimes
      exact ⟨hexact.mpr hmax earlier htimes,
        (redisSafe_iff hvalid httl hnow hmax).mpr hlife earlier htimes⟩

end Request

/-- Redis drops the entry of a token that comes back after 1.5 ms after one, and stores an arrival time
that was rounded up for a token of 9 * 10^15 microseconds; memcached drops the entry of two million
tokens of a nanosecond, which it counts as microseconds, after one second, and that of a token of 31
days by the whole second. -/
theorem rateLimit_not_safe :
    (Tools.rateLimitTTL 1500000 1 1 = .ok 1500000 ∧
      ¬∀ earlier : List ℤ, (∀ t ∈ earlier, 0 ≤ t ∧ t ≤ 1700000000500000) →
        RedisSafe 1500000 1 1 1500000 1700000000500000 (redisAfter 1500000 1 1 none earlier)) ∧
    (Tools.rateLimitTTL 9000000000000000000 1 1 = .ok 9000000000000000000 ∧
      redisServed 9000000000000000000 1 1 none 1700000000500003 =
        (.ok true, some ⟨"10700000000500004", 9000000000000⟩) ∧
      redisExpiry 1700000000500003 9000000000000 = 10700000000500003 ∧
      ¬∀ earlier : List ℤ, (∀ t ∈ earlier, 0 ≤ t ∧ t ≤ 1700000000500003) →
        RedisSafe 9000000000000000000 1 1 9000000000000000000 1700000000500003
          (redisAfter 9000000000000000000 1 1 none earlier)) ∧
    (Tools.rateLimitTTL 1 2000000 1 = .ok 2000000 ∧ rateLimitExpiration 1700000000500000 2000000 = .ok 2 ∧
      ¬∀ earlier : List ℤ, (∀ t ∈ earlier, 0 ≤ t ∧ t ≤ 1700000000500000) →
        MemcachedSafe "client" 1 2000000 1 2000000 1700000000500000
          (memcachedAfter "client" 1 2000000 1 Memcached.emptyWorld earlier)) ∧
    Tools.rateLimitTTL 2678400000000000 1 1 = .ok 2678400000000000 ∧
      rateLimitExpiration 1700000000500000 2678400000000000 = .ok 1702678401 ∧
      ¬∀ earlier : List ℤ, (∀ t ∈ earlier, 0 ≤ t ∧ t ≤ 1700000000500000) →
        MemcachedSafe "client" 2678400000000000 1 1 2678400000000000 1700000000500000
          (memcachedAfter "client" 2678400000000000 1 1 Memcached.emptyWorld earlier) := by
  refine ⟨⟨rfl, fun hsafe => ?_⟩, ⟨rfl, by decide +kernel, rfl, fun hsafe => ?_⟩,
    ⟨rfl, rfl, fun hsafe => ?_⟩, rfl, rfl, fun hsafe => ?_⟩
  · have hle := (@redisSafe_iff _ _ _ 1500000 _ rfl (by decide) (by decide) (by decide)).mp hsafe
    revert hle
    decide
  · have hstores : redisServed 9000000000000000000 1 1 none 1700000000500003 =
        (.ok true, some ⟨"10700000000500004", 9000000000000⟩) := by decide +kernel
    have hkept := (hsafe [] (by simp)).kept
    simp only [redisAfter, List.foldl_nil, hstores] at hkept
    obtain ⟨tat, hparse, hle⟩ := hkept trivial _ rfl
    have htat : parseDecimal "10700000000500004" = some 10700000000500004 := by decide
    cases htat.symm.trans hparse
    revert hle
    decide
  · have hle := (@memcachedSafe_iff _ _ _ _ 2000000 _ _ 2 rfl (by decide) (by decide) (by decide) rfl rfl).mp hsafe
    revert hle
    decide
  · have hle := (@memcachedSafe_iff _ _ _ _ 2678400000000000 _ _ 1702678401 rfl (by decide) (by decide)
      (by decide) rfl rfl).mp hsafe
    revert hle
    decide

/-- Five tokens of a second each. -/
theorem rateLimit_safe_five :
    (∀ earlier : List ℤ, (∀ t ∈ earlier, 0 ≤ t ∧ t ≤ 1700000000500000) →
      MemcachedSafe "client" 1000000000 5 60000000000 60000000000 1700000000500000
        (memcachedAfter "client" 1000000000 5 60000000000 Memcached.emptyWorld earlier)) ∧
    ∀ earlier : List ℤ, (∀ t ∈ earlier, 0 ≤ t ∧ t ≤ 1700000000500000) →
      RedisUnrounded 1000000000 5 60000000000 1700000000500000
        (redisAfter 1000000000 5 60000000000 none earlier) ∧
      RedisSafe 1000000000 5 60000000000 60000000000 1700000000500000
        (redisAfter 1000000000 5 60000000000 none earlier) := by
  obtain ⟨hmemcached, hredis, -⟩ := @rateLimit_safe_iff "client" 1000000000 5 60000000000 60000000000
    1700000000500000 Memcached.emptyWorld 61 rfl (by decide) (by decide) (by decide) rfl rfl
  exact ⟨hmemcached.mpr (by decide), hredis.mpr (by decide)⟩

end Go42.Cache
