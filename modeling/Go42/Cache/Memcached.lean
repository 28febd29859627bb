-- SUMMARY: The memcached cache: expiration times, and `AllowRateLimit` as a program over the commands of the client.
import Go42.Lib.Gcra
import Go42.Lib.GoInt
import Go42.Lib.System
import Go42.Tools.RateLimit
import Mathlib.Logic.Function.Basic

/-!
# Memcached

Every command of the client takes effect at once or not at all: one that reports an error
has had no effect. Entries are not evicted and do not expire here. A clock may show anything
from which a full bucket can still be counted in 64 bits; clocks of different calls need not
agree.
-/

namespace Go42.Cache.Memcached

open Prog (fail)

/-- `memcache.Item`. -/
structure Item where
  key : String
  value : String
  expiration : ℤ
  casID : ℕ
deriving DecidableEq, Repr

def errCacheMiss : GoError := .leaf "memcache: cache miss"

def errCASConflict : GoError := .leaf "memcache: compare-and-swap conflict"

def errNotStored : GoError := .leaf "memcache: item not stored"

inductive Cmd where
  /-- `ctx.Err()`, where no error is an answer. -/
  | ctxErr
  /-- `time.Now().UnixMicro()`. -/
  | unixMicro
  | get (key : String)
  | add (item : Item)
  | compareAndSwap (item : Item)
deriving DecidableEq

abbrev Res : Cmd → Type
  | .ctxErr => Unit
  | .unixMicro => ℤ
  | .get _ => Item
  | .add _ | .compareAndSwap _ => Unit

abbrev MemcachedProg := Prog Cmd Res

abbrev call (c : Cmd) : MemcachedProg (Res c) := Prog.call c

/-! ## Expiration -/

def expirationSeconds (nowMicros ttl paddingSeconds : ℤ) : Except GoError ℤ :=
  let seconds := ttl.tdiv nanosPerSecond + (if ttl.tmod nanosPerSecond ≠ 0 then 1 else 0) + paddingSeconds
  -- Values above 30 days are interpreted as absolute Unix timestamps.
  let seconds := if 30 * 24 * 60 * 60 < seconds then seconds + nowMicros.tdiv 1000000 else seconds
  if seconds < -2147483648 ∨ 2147483647 < seconds then
    .error (.leaf "TTL exceeds memcached expiration range")
  else .ok seconds

/-- The bucket is kept for an extra second, for the rounding of the clock. -/
def rateLimitExpiration (nowMicros ttl : ℤ) : Except GoError ℤ := expirationSeconds nowMicros ttl 1

/-! ## The rate limit -/

/-- `max(int64(1), interval.Microseconds())`. -/
def intervalMicros (interval : ℤ) : ℤ := max 1 (interval.tdiv 1000)

/-- The state that a request at `now` is decided on. -/
def currentTat (tat now : ℤ) : ℤ := if tat < now then now else tat

def maxCASAttempts : ℕ := 16

/-- The loop of `AllowRateLimit`, with at most the given number of attempts. -/
def allowLoop (key : String) (intervalMicros burstTolerance ttl : ℤ) : ℕ → MemcachedProg Bool
  | 0 => fail (.leaf "rate limiter state remained contended after 16 attempts")
  | n + 1 => do
    call .ctxErr
    let now ← call .unixMicro
    match rateLimitExpiration now ttl with
    | .error err => fail err
    | .ok expiration =>
      match ← (call (.get key)).attempt with
      | .error err =>
        if err.is errCacheMiss then
          let item : Item := ⟨key, formatInt (wrapInt64 (now + intervalMicros)), expiration, 0⟩
          match ← (call (.add item)).attempt with
          | .ok _ => return true
          | .error err =>
            if err.is errNotStored then allowLoop key intervalMicros burstTolerance ttl n else fail err
        else fail err
      | .ok item =>
        match parseInt item.value with
        -- the error of `ParseInt` without the input that it quotes
        | none => fail (.wrap "decode rate limiter state: " (.leaf "strconv.ParseInt") "")
        | some tat =>
          let tat := currentTat tat now
          if now < wrapInt64 (tat - burstTolerance) then return false
          else
            let item := { item with
              value := formatInt (wrapInt64 (tat + intervalMicros)), expiration := expiration }
            match ← (call (.compareAndSwap item)).attempt with
            | .ok _ => return true
            | .error err =>
              if err.is errCASConflict || err.is errNotStored then
                allowLoop key intervalMicros burstTolerance ttl n
              else fail err

/-- `Wrapper.AllowRateLimit`. -/
def allowRateLimit (key : String) (interval burst ttl : ℤ) : MemcachedProg Bool :=
  match Tools.rateLimitTTL interval burst ttl with
  | .error err => fail err
  | .ok ttl =>
    allowLoop key (intervalMicros interval) (wrapInt64 ((burst - 1) * intervalMicros interval)) ttl
      maxCASAttempts

/-! ## The machine -/

/-- The entries, and the unique number that the next one gets. -/
structure World where
  entries : String → Option Item
  nextCAS : ℕ

def World.store (w : World) (item : Item) : World where
  entries := Function.update w.entries item.key (some { item with casID := w.nextCAS })
  nextCAS := w.nextCAS + 1

/-- Nothing is stored. -/
def emptyWorld : World := ⟨fun _ => none, 1⟩

theorem store_self {w : World} {item : Item} :
    (w.store item).entries item.key = some { item with casID := w.nextCAS } :=
  Function.update_self _ _ _

theorem store_ne {w : World} {item : Item} {k : String} (h : k ≠ item.key) :
    (w.store item).entries k = w.entries k :=
  Function.update_of_ne h _ _

inductive Choice where
  | run
  | time (t : ℤ)
  | fail (err : GoError)

/-- The item that was replaced, if any, and the one that is there now. -/
structure Change where
  before : Option Item
  after : Item
deriving DecidableEq

abbrev CacheLog := Log Cmd Res (Option Change)

/-- An item is stored. -/
def World.put (w : World) (item : Item) : Outcome Unit × Option Change × World :=
  (.returned (), some ⟨w.entries item.key, { item with casID := w.nextCAS }⟩, w.store item)

/-- A command that succeeds or is refused, when the clock shows `now`. -/
def serve (now : ℤ) (w : World) : (c : Cmd) → Outcome (Res c) × Option Change × World
  | .ctxErr => (.returned (), none, w)
  | .unixMicro => (.returned now, none, w)
  | .get key =>
    match w.entries key with
    | some item => (.returned item, none, w)
    | none => (.failed errCacheMiss, none, w)
  | .add item =>
    match w.entries item.key with
    | some _ => (.failed errNotStored, none, w)
    | none => w.put item
  | .compareAndSwap item =>
    match w.entries item.key with
    | none => (.failed errCacheMiss, none, w)
    | some x => if x.casID = item.casID then w.put item else (.failed errCASConflict, none, w)

/-- What a clock may show, for a limit of `burst` requests. -/
def Readable (interval burst t : ℤ) : Prop := 0 ≤ t ∧ t + burst * intervalMicros interval ≤ maxInt64

instance (interval burst t : ℤ) : Decidable (Readable interval burst t) :=
  inferInstanceAs (Decidable (_ ∧ _))

def exec (interval burst : ℤ) : Machine Cmd Res Choice (Option Change) World := fun _ _ c ch w =>
  match ch with
  | .run => if c = .unixMicro then none else some (serve 0 w c)
  | .time t => if c = .unixMicro ∧ Readable interval burst t then some (serve t w c) else none
  | .fail err => if c = .unixMicro then none else some (.failed err, none, w)

/-- A call of `AllowRateLimit` with the limit of the system. -/
structure Call where
  key : String
  ttl : ℤ
deriving DecidableEq

/-- Clients that keep one limit. -/
def system (interval burst : ℤ) : System Cmd Res Choice (Option Change) World Call Empty Bool where
  machine := exec interval burst
  body c := allowRateLimit c.key interval burst c.ttl
  env e := e.elim
  crash _ w := w

/-! ## The numbers -/

/-- The seconds that a bucket is kept: rounded up, and one more. -/
def keptSeconds (ttl : ℤ) : ℤ := (ttl + 999999999) / nanosPerSecond + 1

/-- From a time on, the expiration is a number of seconds or, beyond 30 days, a timestamp. -/
theorem rateLimitExpiration_ok {now ttl expiration : ℤ} (hnow : 0 ≤ now) (httl : 0 < ttl) :
    rateLimitExpiration now ttl = .ok expiration ↔ expiration ≤ 2147483647 ∧
      expiration = keptSeconds ttl + (if 2592000 < keptSeconds ttl then now / 1000000 else 0) := by
  have hseconds : ttl.tdiv nanosPerSecond + (if ttl.tmod nanosPerSecond ≠ 0 then 1 else 0) + 1 =
      keptSeconds ttl := by
    rw [keptSeconds, Int.tdiv_eq_ediv_of_nonneg httl.le, Int.tmod_eq_emod_of_nonneg httl.le]
    unfold nanosPerSecond
    split <;> omega
  have hkept : 0 < keptSeconds ttl := by
    unfold keptSeconds nanosPerSecond
    omega
  rw [rateLimitExpiration, expirationSeconds, hseconds, Int.tdiv_eq_ediv_of_nonneg hnow]
  generalize keptSeconds ttl = seconds at hkept
  split <;> split <;> simp <;> omega

theorem intervalMicros_pos {interval : ℤ} : 0 < intervalMicros interval := lt_max_of_lt_left Int.one_pos

/-- An expiration that can be stored could be stored before. -/
theorem rateLimitExpiration_of_le {now now' ttl expiration : ℤ} (hnow : 0 ≤ now) (hle : now ≤ now')
    (httl : 0 < ttl) (h : rateLimitExpiration now' ttl = .ok expiration) :
    ∃ e, rateLimitExpiration now ttl = .ok e := by
  obtain ⟨hfits, heq⟩ := (rateLimitExpiration_ok (hnow.trans hle) httl).mp h
  refine ⟨_, (rateLimitExpiration_ok hnow httl).mpr ⟨?_, rfl⟩⟩
  split at heq <;> omega

/-- The limit in microseconds. -/
def limit (interval burst : ℤ) (hburst : 0 < burst) : Gcra :=
  ⟨intervalMicros interval, burst, intervalMicros_pos, hburst⟩

/-- At `now`, all that is computed for an entry fits in 64 bits. -/
structure Room (interval burst now : ℤ) : Prop where
  low : InInt64 (now - (burst - 1) * intervalMicros interval)
  high : InInt64 (now + burst * intervalMicros interval)

theorem Readable.room (hburst : 0 < burst) {now : ℤ} (h : Readable interval burst now) :
    Room interval burst now := by
  obtain ⟨hnonneg, hmax⟩ := h
  have hpos : 0 < intervalMicros interval := intervalMicros_pos
  have htolerance : 0 ≤ (burst - 1) * intervalMicros interval := mul_nonneg (by omega) hpos.le
  have hburst' : burst * intervalMicros interval =
      (burst - 1) * intervalMicros interval + intervalMicros interval := by ring
  unfold maxInt64 at hmax
  exact ⟨⟨by omega, by omega⟩, ⟨by omega, by omega⟩⟩

theorem currentTat_eq (tat now : ℤ) : currentTat tat now = Gcra.clamp (some tat) now := by
  rw [Gcra.clamp_some, currentTat]
  split
  · exact (max_eq_right (by omega)).symm
  · exact (max_eq_left (by omega)).symm

theorem limit_after_none {interval burst : ℤ} {hburst : 0 < burst} (now : ℤ) :
    (limit interval burst hburst).after none now = now + intervalMicros interval := by
  rw [Gcra.after, Gcra.clamp_none]
  rfl

theorem limit_after_some {interval burst : ℤ} {hburst : 0 < burst} (tat now : ℤ) :
    (limit interval burst hburst).after (some tat) now = currentTat tat now + intervalMicros interval := by
  rw [Gcra.after, currentTat_eq]
  rfl

section Room

variable {interval burst now tat : ℤ} {hburst : 0 < burst} (hroom : Room interval burst now)

include hroom

/-- What is stored after a request fits. -/
theorem Room.after {tat : Option ℤ} (hadmits : (limit interval burst hburst).Admits tat now) :
    InInt64 ((limit interval burst hburst).after tat now) := by
  have hlow : now - (burst - 1) * intervalMicros interval ≤ now :=
    sub_le_self now (mul_nonneg (Int.sub_nonneg.mpr hburst) intervalMicros_pos.le)
  have hlt := (limit interval burst hburst).lt_after tat now
  exact ⟨(hroom.low.1.trans hlow).trans hlt.le, hadmits.after_le.trans_lt hroom.high.2⟩

theorem Room.add : wrapInt64 (now + intervalMicros interval) = (limit interval burst hburst).after none now := by
  rw [limit_after_none]
  exact wrapInt64_eq (@limit_after_none interval burst hburst now ▸ hroom.after (Gcra.admits_none _ now))

/-- The guard in 64 bits is the one of the algorithm. -/
theorem Room.guard (htat : InInt64 tat) :
    now < wrapInt64 (currentTat tat now - wrapInt64 ((burst - 1) * intervalMicros interval)) ↔
      ¬(limit interval burst hburst).Admits (some tat) now := by
  obtain ⟨⟨hlow, -⟩, ⟨-, hhigh⟩⟩ := hroom
  obtain ⟨-, htat⟩ := htat
  have hpos : 0 < intervalMicros interval := intervalMicros_pos
  have htolerance : 0 ≤ (burst - 1) * intervalMicros interval := mul_nonneg (by omega) hpos.le
  have hburst' : burst * intervalMicros interval =
      (burst - 1) * intervalMicros interval + intervalMicros interval := by ring
  have hle : now ≤ currentTat tat now := currentTat_eq tat now ▸ Gcra.le_clamp _ _
  have hlt : currentTat tat now < 2 ^ 63 := by
    unfold currentTat
    split <;> omega
  rw [wrapInt64_eq (x := (burst - 1) * intervalMicros interval) ⟨by omega, by omega⟩,
    wrapInt64_eq ⟨by omega, by omega⟩, Gcra.Admits, ← currentTat_eq, not_le]
  rfl

theorem Room.swap (hadmits : (limit interval burst hburst).Admits (some tat) now) :
    wrapInt64 (currentTat tat now + intervalMicros interval) =
      (limit interval burst hburst).after (some tat) now := by
  rw [← @limit_after_some interval burst hburst]
  exact wrapInt64_eq (hroom.after hadmits)

end Room

end Go42.Cache.Memcached
