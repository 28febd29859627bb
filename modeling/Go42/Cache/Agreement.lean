-- SUMMARY: Redis, memcached and a token bucket decide a sequence of requests alike.
import Go42.Cache.Memcached
import Go42.Cache.Redis
import Go42.Lib.Steps

/-!
# Agreement of the rate limits

Requests on one key come one after the other, in the order of their times, and the entry
lives all the while.
-/

namespace Go42.Cache

open Memcached (intervalMicros limit Room rateLimitExpiration allowLoop)

variable {interval burst ttl ttl' : ℤ} {hburst : 0 < burst} {key : String} {now : ℤ} {tat : Option ℤ}

/-! ## One request -/

/-- A request to Redis at the time `now`, with numbers that are small enough to be exact. -/
def redisRequest (interval burst ttl : ℤ) (entry : Option Redis.Entry) (now : ℤ) :
    Except GoError Bool × Option Redis.Entry :=
  Redis.allowRateLimit id (now / 1000000) (now % 1000000) entry interval burst ttl

/-- A command that no other client disturbs. -/
def undisturbed (now : ℤ) (c : Memcached.Cmd) (w : Memcached.World) :
    Outcome (Memcached.Res c) × Memcached.World :=
  ((Memcached.serve now w c).1, (Memcached.serve now w c).2.2)

/-- A request to memcached that no other one disturbs. -/
def memcachedRequest (key : String) (interval burst ttl : ℤ) (w : Memcached.World) (now : ℤ) :
    Outcome Bool × Memcached.World :=
  (Memcached.allowRateLimit key interval burst ttl).alone (undisturbed now) w

/-- The value that Redis holds. -/
def redisValue (entry : Option Redis.Entry) : Option String := entry.map Redis.Entry.value

def memcachedValue (key : String) (w : Memcached.World) : Option String :=
  (w.entries key).map Memcached.Item.value

theorem Redis.currentTat_eq {entry : Option Redis.Entry} (hentry : redisValue entry = tat.map formatInt)
    (now : ℤ) : Redis.currentTat id entry now = Gcra.clamp tat now := by
  cases entry with
  | none =>
      cases tat with
      | none => exact (Gcra.clamp_none now).symm
      | some t => cases hentry
  | some e =>
      cases tat with
      | none => cases hentry
      | some t =>
          have hvalue : e.value = formatInt t := Option.some.inj hentry
          rw [Redis.currentTat, Option.bind_some, Redis.tonumber, hvalue, parseDecimal_formatInt]
          rw [Option.map_some, id]
          exact Memcached.currentTat_eq t now

theorem redisRequest_eq (hburst : 0 < burst) (now : ℤ)
    (hvalid : Tools.rateLimitTTL interval burst ttl = .ok ttl') {entry : Option Redis.Entry} (hentry : redisValue entry = tat.map formatInt) :
    (redisRequest interval burst ttl entry now).1 = .ok ((limit interval burst hburst).request tat now).1 ∧
      redisValue (redisRequest interval burst ttl entry now).2 =
        ((limit interval burst hburst).request tat now).2.map formatInt := by
  simp only [redisRequest, Redis.allowRateLimit, Redis.allowRateLimitScript, hvalid, Redis.scriptNow_id,
    Redis.currentTat_eq hentry, Redis.allowAt, id]
  unfold Gcra.request
  by_cases hadmits : (limit interval burst hburst).Admits tat now
  · have hguard : ¬now < Gcra.clamp tat now - (burst - 1) * max 1 (interval.tdiv 1000) :=
      Int.not_lt.mpr hadmits
    rw [if_pos hadmits, if_neg hguard]
    exact ⟨rfl, rfl⟩
  · have hguard : now < Gcra.clamp tat now - (burst - 1) * max 1 (interval.tdiv 1000) :=
      Int.not_le.mp hadmits
    rw [if_neg hadmits, if_pos hguard]
    refine ⟨rfl, ?_⟩
    cases entry <;> exact hentry

/-- By then memcached can say when the entry expires, and its numbers fit. -/
structure Fits (interval burst ttl now : ℤ) : Prop where
  room : Room interval burst now
  expires : (rateLimitExpiration now ttl).isOk = true

/-- The entry is the state of the algorithm. -/
structure HoldsTat (key : String) (tat : Option ℤ) (w : Memcached.World) : Prop where
  value : memcachedValue key w = tat.map formatInt
  range : ∀ t ∈ tat, InInt64 t
  key : ∀ x, w.entries key = some x → x.key = key

theorem HoldsTat.store {w : Memcached.World} {item : Memcached.Item} {t : ℤ} (hkey : item.key = key)
    (hvalue : item.value = formatInt t) (ht : InInt64 t) : HoldsTat key (some t) (w.store item) where
  value := by
    rw [memcachedValue, ← hkey, Memcached.store_self]
    exact congrArg some hvalue
  range u hu := by
    cases hu
    exact ht
  key x hx := by
    rw [← hkey, Memcached.store_self] at hx
    cases hx
    exact hkey

theorem HoldsTat.absent {w : Memcached.World} (h : w.entries key = none) : HoldsTat key none w where
  value := by
    rw [memcachedValue, h]
    rfl
  range := nofun
  key x hx := by
    rw [h] at hx
    cases hx

section Alone

variable {w : Memcached.World} {item : Memcached.Item} {intervalMicros tolerance expiration : ℤ} {n : ℕ}

theorem alone_ctxErr : (Memcached.call .ctxErr).alone (undisturbed now) w = (.returned (), w) := rfl

theorem alone_unixMicro :
    (Memcached.call .unixMicro).alone (undisturbed now) w = (.returned now, w) := rfl

theorem alone_get_none (h : w.entries key = none) :
    (Memcached.call (.get key)).alone (undisturbed now) w = (.failed Memcached.errCacheMiss, w) := by
  simp only [Prog.call, Prog.alone, undisturbed, Memcached.serve, h]

theorem alone_get_some (h : w.entries key = some item) :
    (Memcached.call (.get key)).alone (undisturbed now) w = (.returned item, w) := by
  simp only [Prog.call, Prog.alone, undisturbed, Memcached.serve, h]

theorem alone_add (h : w.entries item.key = none) :
    (Memcached.call (.add item)).alone (undisturbed now) w = (.returned (), w.store item) := by
  simp only [Prog.call, Prog.alone, undisturbed, Memcached.serve, h]
  rfl

theorem alone_compareAndSwap {x : Memcached.Item} (h : w.entries item.key = some x)
    (hcas : x.casID = item.casID) :
    (Memcached.call (.compareAndSwap item)).alone (undisturbed now) w = (.returned (), w.store item) := by
  simp only [Prog.call, Prog.alone, undisturbed, Memcached.serve, h, if_pos hcas]
  rfl

/-- Without an entry, the first attempt adds one. -/
theorem allowLoop_none (hexpiration : rateLimitExpiration now ttl = .ok expiration)
    (h : w.entries key = none) :
    (allowLoop key intervalMicros tolerance ttl (n + 1)).alone (undisturbed now) w =
      (.returned true, w.store ⟨key, formatInt (wrapInt64 (now + intervalMicros)), expiration, 0⟩) := by
  rw [allowLoop, Prog.alone_seq _ alone_ctxErr, Prog.alone_seq _ alone_unixMicro]
  dsimp only
  rw [hexpiration]
  dsimp only
  rw [Prog.alone_seq _ (Prog.alone_attempt_error (alone_get_none h))]
  dsimp only
  rw [if_pos (by rfl), Prog.alone_seq _ (Prog.alone_attempt_ok (alone_add h))]
  rfl

/-- An entry is left alone or swapped. -/
theorem allowLoop_some (hexpiration : rateLimitExpiration now ttl = .ok expiration)
    (h : w.entries key = some item) (hkey : item.key = key) {tat : ℤ} (hparse : parseInt item.value = some tat) :
    (allowLoop key intervalMicros tolerance ttl (n + 1)).alone (undisturbed now) w =
      if now < wrapInt64 (Memcached.currentTat tat now - tolerance) then (.returned false, w)
      else (.returned true, w.store { item with
        value := formatInt (wrapInt64 (Memcached.currentTat tat now + intervalMicros)),
        expiration := expiration }) := by
  rw [allowLoop, Prog.alone_seq _ alone_ctxErr, Prog.alone_seq _ alone_unixMicro]
  dsimp only
  rw [hexpiration]
  dsimp only
  rw [Prog.alone_seq _ (Prog.alone_attempt_ok (alone_get_some h))]
  dsimp only
  rw [hparse]
  dsimp only
  split
  · rfl
  · have hentry : w.entries item.key = some item := hkey ▸ h
    have hswap {value : String} : (Memcached.call (.compareAndSwap
        { item with value := value, expiration := expiration })).alone (undisturbed now) w =
          (.returned (), w.store { item with value := value, expiration := expiration }) :=
      alone_compareAndSwap hentry rfl
    rw [Prog.alone_seq _ (Prog.alone_attempt_ok hswap)]
    rfl

end Alone

theorem memcachedRequest_eq (hburst : 0 < burst) (hvalid : Tools.rateLimitTTL interval burst ttl = .ok ttl')
    (hfits : Fits interval burst ttl' now) {w : Memcached.World} (hw : HoldsTat key tat w) :
    (memcachedRequest key interval burst ttl w now).1 =
        .returned ((limit interval burst hburst).request tat now).1 ∧
      HoldsTat key ((limit interval burst hburst).request tat now).2
        (memcachedRequest key interval burst ttl w now).2 := by
  obtain ⟨expiration, hexpiration⟩ : ∃ e, rateLimitExpiration now ttl' = .ok e := by
    cases h : rateLimitExpiration now ttl' with
    | error err => simpa [h, Except.isOk, Except.toBool] using hfits.expires
    | ok e => exact ⟨e, rfl⟩
  have hvalue := hw.value
  unfold memcachedValue at hvalue
  simp only [memcachedRequest, Memcached.allowRateLimit, hvalid, Memcached.maxCASAttempts]
  cases tat with
  | none =>
      have hentry : w.entries key = none := by simpa using hvalue
      have hadmits := (limit interval burst hburst).admits_none now
      rw [allowLoop_none hexpiration hentry, Gcra.request, if_pos hadmits]
      exact ⟨rfl, .store rfl (congrArg formatInt hfits.room.add) (hfits.room.after hadmits)⟩
  | some t =>
      obtain ⟨item, hentry, hitem⟩ := Option.map_eq_some_iff.mp hvalue
      have hkey := hw.key item hentry
      have hparse : parseInt item.value = some t := by
        rw [hitem, parseInt_formatInt (hw.range t rfl)]
      rw [allowLoop_some hexpiration hentry hkey hparse, Gcra.request]
      by_cases hadmits : (limit interval burst hburst).Admits (some t) now
      · rw [if_pos hadmits, if_neg fun hguard => (hfits.room.guard (hw.range t rfl)).mp hguard hadmits]
        exact ⟨rfl, .store hkey (congrArg formatInt (hfits.room.swap hadmits)) (hfits.room.after hadmits)⟩
      · rw [if_neg hadmits, if_pos ((hfits.room.guard (hw.range t rfl)).mpr hadmits)]
        exact ⟨rfl, hw⟩

/-! ## Sequences of requests -/

theorem bucketRequests_eq {p : Gcra} {ts : List ℤ} : ∀ {tat : Option ℤ} {b : Gcra.Bucket},
    Gcra.Bucket.Matches p tat b → (b.time :: ts).Pairwise (· ≤ ·) →
    (answers p.request tat ts).map Prod.fst = (answers (Gcra.Bucket.request p) b ts).map Prod.fst := by
  induction ts with
  | nil => exact fun _ _ => rfl
  | cons t ts ih =>
      intro tat b hmatches hsorted
      obtain ⟨hle, hsorted⟩ := List.pairwise_cons.mp hsorted
      obtain ⟨hsame, hmatches', htime⟩ := hmatches.request (hle t List.mem_cons_self)
      rw [answers, answers, List.map_cons, List.map_cons, hsame, ih hmatches' (htime.symm ▸ hsorted)]

theorem redisAnswers_eq (hburst : 0 < burst) (hvalid : Tools.rateLimitTTL interval burst ttl = .ok ttl')
    (ts : List ℤ) :
    ((answers (redisRequest interval burst ttl) none ts).map fun r => (r.1, redisValue r.2)) =
      (answers (limit interval burst hburst).request none ts).map fun r =>
        (.ok r.1, r.2.map formatInt) := by
  apply answers_map (R := fun entry tat => redisValue entry = tat.map formatInt) (P := fun _ => True)
  · intro entry tat now _ hentry
    obtain ⟨hsame, hentry'⟩ := redisRequest_eq hburst now hvalid hentry
    exact ⟨Prod.ext hsame hentry', hentry'⟩
  · rfl
  · exact fun _ _ => trivial

theorem memcachedAnswers_eq (hburst : 0 < burst) (hvalid : Tools.rateLimitTTL interval burst ttl = .ok ttl')
    {w : Memcached.World} (habsent : w.entries key = none) {ts : List ℤ}
    (hfits : ∀ t ∈ ts, Fits interval burst ttl' t) :
    ((answers (memcachedRequest key interval burst ttl) w ts).map fun r => (r.1, memcachedValue key r.2)) =
      (answers (limit interval burst hburst).request none ts).map fun r =>
        (.returned r.1, r.2.map formatInt) := by
  apply answers_map (R := fun w tat => HoldsTat key tat w) (P := Fits interval burst ttl')
  · intro w tat now hfit hw
    obtain ⟨hsame, hw'⟩ := memcachedRequest_eq hburst hvalid hfit hw
    exact ⟨Prod.ext hsame hw'.value, hw'⟩
  · exact .absent habsent
  · exact hfits

/-- The decisions of a bucket that starts full. -/
def bucketDecisions (p : Gcra) (t₀ : ℤ) (ts : List ℤ) : List Bool :=
  (answers (Gcra.Bucket.request p) (.full p t₀) ts).map Prod.fst

/-- Redis, memcached and a bucket that starts full decide alike, and both stores hold the same
arrival time after every request, as long as memcached can say when the entry expires and its
numbers fit. -/
theorem rateLimits_agree (hvalid : Tools.rateLimitTTL interval burst ttl = .ok ttl')
    {w : Memcached.World} (habsent : w.entries key = none) {t₀ : ℤ} {ts : List ℤ}
    (hsorted : (t₀ :: ts).Pairwise (· ≤ ·)) (hfits : ∀ t ∈ ts, Fits interval burst ttl' t) :
    ((answers (redisRequest interval burst ttl) none ts).map fun r => r.1) =
      (bucketDecisions (limit interval burst (Tools.burst_pos hvalid)) t₀ ts).map .ok ∧
    ((answers (memcachedRequest key interval burst ttl) w ts).map fun r => r.1) =
      (bucketDecisions (limit interval burst (Tools.burst_pos hvalid)) t₀ ts).map .returned ∧
    ((answers (redisRequest interval burst ttl) none ts).map fun r => redisValue r.2) =
      (answers (memcachedRequest key interval burst ttl) w ts).map fun r => memcachedValue key r.2 := by
  have hburst := Tools.burst_pos hvalid
  have hbucket : bucketDecisions (limit interval burst hburst) t₀ ts =
      (answers (limit interval burst hburst).request none ts).map Prod.fst :=
    (bucketRequests_eq (Gcra.Bucket.matches_full t₀) hsorted).symm
  have hredis := redisAnswers_eq hburst hvalid ts
  have hmemcached := memcachedAnswers_eq hburst hvalid habsent hfits
  rw [hbucket, List.map_map, List.map_map]
  refine ⟨?_, ?_, ?_⟩
  · simpa [Function.comp_def] using congrArg (List.map Prod.fst) hredis
  · simpa [Function.comp_def] using congrArg (List.map Prod.fst) hmemcached
  · have hleft := congrArg (List.map Prod.snd) hredis
    have hright := congrArg (List.map Prod.snd) hmemcached
    simp only [List.map_map, Function.comp_def] at hleft hright
    exact hleft.trans hright.symm

/-- Two requests at the same time; there is one token. -/
theorem rateLimits_agree_twice :
    (answers (redisRequest 1000000000 1 1) none [5000000, 5000000]).map (fun r => redisValue r.2) =
        (answers (memcachedRequest "client" 1000000000 1 1) Memcached.emptyWorld [5000000, 5000000]).map
          (fun r => memcachedValue "client" r.2) ∧
      (answers (memcachedRequest "client" 1000000000 1 1) Memcached.emptyWorld [5000000, 5000000]).map
        (fun r => r.1) =
          (bucketDecisions (limit 1000000000 1 Int.one_pos) 0 [5000000, 5000000]).map .returned := by
  have hfits : Fits 1000000000 1 1000000000 5000000 := ⟨⟨by decide, by decide⟩, by decide⟩
  obtain ⟨-, hdecisions, hvalues⟩ := @rateLimits_agree 1000000000 1 1 1000000000 "client" rfl
    Memcached.emptyWorld rfl 0 [5000000, 5000000] (by decide) (by simp [hfits])
  exact ⟨hvalues, hdecisions⟩

/-- Memcached refuses a bucket that would have to be kept beyond 2038, and 64 bits do not hold
every arrival time. -/
theorem rateLimits_disagree :
    Tools.rateLimitTTL 3600000000000 1 3153600000000000000 = .ok 3153600000000000000 ∧
      (redisRequest 3600000000000 1 3153600000000000000 none 1700000000000000).1 = .ok true ∧
      (memcachedRequest "client" 3600000000000 1 3153600000000000000 Memcached.emptyWorld
        1700000000000000).1 = .failed (.leaf "TTL exceeds memcached expiration range") ∧
      redisValue (redisRequest 1000 1 1 none maxInt64).2 = some "9223372036854775808" ∧
      memcachedValue "client" (memcachedRequest "client" 1000 1 1 Memcached.emptyWorld maxInt64).2 =
        some "-9223372036854775808" := by
  decide +kernel

end Go42.Cache
