-- SUMMARY: The Redis cache: the script behind `AllowRateLimit` and the call that runs it.
import Go42.Lib.GoInt
import Go42.Tools.RateLimit

/-!
# Redis

The script runs atomically on the entry of one key, and the time is the one of the server.
Its numbers are Lua's: every number that is read or computed is rounded by `num`, which is
`toDouble`, or `id` where all numbers are small enough to be exact.
-/

namespace Go42.Cache.Redis

/-- A value and the milliseconds that it was last given to live. -/
structure Entry where
  value : String
  px : ℤ
deriving DecidableEq, Repr

section Script

variable (num : ℤ → ℤ)

/-- `tonumber` on what the script stores. -/
def tonumber (s : String) : Option ℤ := (parseDecimal s).map num

/-- The time that `TIME` answers, in microseconds. -/
def scriptNow (seconds micros : ℤ) : ℤ := num (num (num seconds * 1000000) + num micros)

/-- `tat` before the guard of the script. -/
def currentTat (entry : Option Entry) (now : ℤ) : ℤ :=
  match entry.bind fun e => tonumber num e.value with
  | none => now
  | some tat => if tat < now then now else tat

/-- `allow_at`. -/
def allowAt (tat interval burst : ℤ) : ℤ := num (tat - num (num (num burst - 1) * num interval))

/-- `allowRateLimitScript`, when `TIME` answers `seconds` and `micros`. -/
def allowRateLimitScript (seconds micros : ℤ) (entry : Option Entry) (interval burst ttlMs : ℤ) :
    ℤ × Option Entry :=
  let now := scriptNow num seconds micros
  let tat := currentTat num entry now
  if now < allowAt num tat interval burst then
    (0, entry.map fun e => { e with px := num ttlMs })
  else (1, some ⟨formatInt (num (tat + num interval)), num ttlMs⟩)

/-- `Wrapper.AllowRateLimit`. -/
def allowRateLimit (seconds micros : ℤ) (entry : Option Entry) (interval burst ttl : ℤ) :
    Except GoError Bool × Option Entry :=
  match Tools.rateLimitTTL interval burst ttl with
  | .error err => (.error err, entry)
  | .ok ttl =>
    let r := allowRateLimitScript num seconds micros entry (max 1 (interval.tdiv 1000)) burst
      (max 1 (ttl.tdiv 1000000))
    (.ok (r.1 = 1), r.2)

end Script

/-- The numbers that the script computes, when all before them are exact. -/
def scriptNumbers (seconds micros : ℤ) (entry : Option Entry) (interval burst ttlMs : ℤ) : List ℤ :=
  let now := seconds * 1000000 + micros
  let tat := currentTat id entry now
  [interval, burst, ttlMs, seconds, seconds * 1000000, micros, now, burst - 1, (burst - 1) * interval,
    tat - (burst - 1) * interval] ++ (entry.bind fun e => parseDecimal e.value).toList ++
  if now < tat - (burst - 1) * interval then [] else [tat + interval]

@[simp] theorem scriptNow_id (now : ℤ) : scriptNow id (now / 1000000) (now % 1000000) = now := by
  rw [scriptNow, id, id, id, id]
  omega

/-- Where all numbers are exact, rounding changes nothing. -/
theorem allowRateLimitScript_eq {num : ℤ → ℤ} {seconds micros interval burst ttlMs : ℤ}
    {entry : Option Entry}
    (h : ∀ x ∈ scriptNumbers seconds micros entry interval burst ttlMs, num x = x) :
    allowRateLimitScript num seconds micros entry interval burst ttlMs =
      allowRateLimitScript id seconds micros entry interval burst ttlMs := by
  simp only [scriptNumbers, List.cons_append, List.nil_append, List.forall_mem_cons,
    List.forall_mem_append] at h
  obtain ⟨hinterval, hburst, httl, hseconds, hmillion, hmicros, hnow, hrest, htolerance, hallow, hread,
    hstored⟩ := h
  have hscriptNow : scriptNow num seconds micros = seconds * 1000000 + micros := by
    rw [scriptNow, hseconds, hmillion, hmicros, hnow]
  have htat : currentTat num entry (seconds * 1000000 + micros) =
      currentTat id entry (seconds * 1000000 + micros) := by
    unfold currentTat
    cases entry with
    | none => rfl
    | some e =>
        cases hparse : parseDecimal e.value with
        | none => simp [tonumber, hparse]
        | some t =>
            have ht : num t = t := hread t (by simp [hparse])
            simp [tonumber, hparse, ht]
  have hallowAt : allowAt num (currentTat id entry (seconds * 1000000 + micros)) interval burst =
      currentTat id entry (seconds * 1000000 + micros) - (burst - 1) * interval := by
    rw [allowAt, hburst, hrest, hinterval, htolerance, hallow]
  simp only [allowRateLimitScript, hscriptNow, htat, hallowAt, httl, hinterval]
  have hscriptNow' : scriptNow id seconds micros = seconds * 1000000 + micros := rfl
  have hallowAt' (tat : ℤ) : allowAt id tat interval burst = tat - (burst - 1) * interval := rfl
  simp only [hscriptNow', hallowAt', id]
  split
  · rfl
  · rename_i hguard
    rw [if_neg hguard] at hstored
    rw [hstored _ List.mem_cons_self]

end Go42.Cache.Redis
