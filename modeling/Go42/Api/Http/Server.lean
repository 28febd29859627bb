-- SUMMARY: The life of the HTTP server: its readiness status, `Start`, `Shutdown`, readiness probes, and what their interleavings come to.
import Go42.Events.Errors
import Go42.Lib.Pool
import Go42.Lib.Progress

/-!
# HTTP server

`Start` runs once; `Shutdown` may be called at any time, even before it, and more than
once; probes arrive as they like. A server is constructed by `New`, whose options may start
goroutines that wait for a context before the last statement of `New` is reached. What
echo does between its two callbacks is not modelled: it may come to `BeforeServeFunc` or
not, and it may return with any error at any time.
-/

namespace Go42.Api

/-- The error that a `reportServeError` sends. -/
def serveError (format : String) (err : Option GoError) : GoError :=
  .wrap format (err.getD (.leaf "stopped without a shutdown request")) ""

namespace Http

open Events (CtxErr)

def serveError (err : Option GoError) : GoError := Api.serveError "http server: " err

/-- The values of `readyStatus`. -/
inductive ReadyStatus where
  | starting
  | serving
  | shuttingDown
deriving DecidableEq

/-- The goroutine of `WithReadinessContext`. -/
inductive Waiter where
  /-- `<-ctx.Done()`. -/
  | waiting
  /-- `s.readyStatus.Store(ReadyStatusShuttingDown)`. -/
  | storing
  | finished
deriving DecidableEq

/-- Where `Start` stands. -/
inductive StartPlace where
  | idle
  /-- In `sc.Start`, before `BeforeServeFunc`. -/
  | binding
  /-- In `sc.Start`, after `BeforeServeFunc`. -/
  | serving
  /-- `s.reportServeError(err)`. -/
  | stopped (err : Option GoError)
  /-- `s.errors <- err`. -/
  | sending (err : GoError)
  /-- The deferred `close(s.errors)`. -/
  | closing
  /-- The deferred `close(s.serveDone)`. -/
  | leaving
  | returned
deriving DecidableEq

/-- Where a call of `Shutdown` stands. -/
inductive ShutdownPlace where
  /-- `s.readyStatus.Store(ReadyStatusShuttingDown)`. -/
  | storing
  /-- `s.shutdownCancel()`. -/
  | canceling
  | selecting
  | returned (err : Option CtxErr)
deriving DecidableEq

/-- Where a request to `/ready` stands. -/
inductive Probe where
  /-- `s.readyStatus.Load()`. -/
  | loading
  /-- `s.readyCheck(ctx)`. -/
  | checking
  | answered (status : ℕ)
deriving DecidableEq

structure Server where
  /-- `New` has returned. -/
  constructed : Bool
  readyStatus : ReadyStatus
  waiters : List Waiter
  start : StartPlace
  /-- `s.shutdownCtx` is done. -/
  shutdownDone : Bool
  shutdowns : List ShutdownPlace
  /-- What was sent on `s.errors`. -/
  sent : List GoError
  errorsClosed : Bool
  /-- `s.serveDone` is closed. -/
  serveDone : Bool
  probes : List Probe
deriving DecidableEq

inductive ServerAction where
  /-- The option `WithReadinessContext`. -/
  | withReadinessContext
  /-- `s.readyStatus.Store(ReadyStatusStarting)`, the end of `New`. -/
  | construct
  /-- The context of waiter `i` is done. -/
  | wake (i : ℕ)
  | store (i : ℕ)
  | start
  | beforeServe
  /-- `sc.Start` returns. -/
  | stop (err : Option GoError)
  | report
  | send
  | close
  | leave
  | shutdown
  | storeShutdown (i : ℕ)
  | cancel (i : ℕ)
  /-- `<-s.serveDone`. -/
  | done (i : ℕ)
  /-- `<-ctx.Done()`. -/
  | timeout (i : ℕ) (err : CtxErr)
  | probe
  | load (i : ℕ)
  | checked (i : ℕ) (healthy : Bool)
deriving DecidableEq

namespace Server

/-- `ready` up to the call of `readyCheck`, if there is one. -/
def ready (readyCheck : Bool) (status : ReadyStatus) : Probe :=
  if status ≠ .serving then .answered 503
  else if readyCheck then .checking else .answered 200

def next (readyCheck : Bool) (s : Server) : ServerAction → Option Server
  | .withReadinessContext =>
    if s.constructed then none else some { s with waiters := s.waiters ++ [.waiting] }
  | .construct =>
    if s.constructed then none else some { s with constructed := true, readyStatus := .starting }
  | .wake i =>
    if s.waiters[i]? = some .waiting then some { s with waiters := s.waiters.set i .storing } else none
  | .store i =>
    if s.waiters[i]? = some .storing then
      some { s with waiters := s.waiters.set i .finished, readyStatus := .shuttingDown }
    else none
  | .start =>
    if s.constructed ∧ s.start = .idle then some { s with start := .binding } else none
  | .beforeServe =>
    if s.start = .binding then
      some { s with
        start := .serving
        -- `CompareAndSwap`
        readyStatus := if s.readyStatus = .starting then .serving else s.readyStatus }
    else none
  | .stop err =>
    if s.start = .binding ∨ s.start = .serving then some { s with start := .stopped err } else none
  | .report =>
    match s.start with
    | .stopped err =>
      some { s with start := if s.shutdownDone then .closing else .sending (serveError err) }
    | _ => none
  | .send =>
    match s.start with
    | .sending err => some { s with start := .closing, sent := s.sent ++ [err] }
    | _ => none
  | .close =>
    if s.start = .closing then some { s with start := .leaving, errorsClosed := true } else none
  | .leave =>
    if s.start = .leaving then some { s with start := .returned, serveDone := true } else none
  | .shutdown =>
    if s.constructed then some { s with shutdowns := s.shutdowns ++ [.storing] } else none
  | .storeShutdown i =>
    if s.shutdowns[i]? = some .storing then
      some { s with shutdowns := s.shutdowns.set i .canceling, readyStatus := .shuttingDown }
    else none
  | .cancel i =>
    if s.shutdowns[i]? = some .canceling then
      some { s with shutdowns := s.shutdowns.set i .selecting, shutdownDone := true }
    else none
  | .done i =>
    if s.shutdowns[i]? = some .selecting ∧ s.serveDone then
      some { s with shutdowns := s.shutdowns.set i (.returned none) }
    else none
  | .timeout i err =>
    if s.shutdowns[i]? = some .selecting then
      some { s with shutdowns := s.shutdowns.set i (.returned (some err)) }
    else none
  | .probe => some { s with probes := s.probes ++ [.loading] }
  | .load i =>
    if s.probes[i]? = some .loading then
      some { s with probes := s.probes.set i (ready readyCheck s.readyStatus) }
    else none
  | .checked i healthy =>
    if s.probes[i]? = some .checking then
      some { s with probes := s.probes.set i (.answered (if healthy then 200 else 503)) }
    else none

/-- Before the options of `New`. -/
def init : Server where
  constructed := false
  readyStatus := .starting
  waiters := []
  start := .idle
  shutdownDone := false
  shutdowns := []
  sent := []
  errorsClosed := false
  serveDone := false
  probes := []

/-! ## Readiness -/

variable {readyCheck : Bool} {s s' : Server} {a : ServerAction} {as : List ServerAction}

/-- The status after a step. -/
theorem next_readyStatus (h : s.next readyCheck a = some s') :
    s'.readyStatus = s.readyStatus ∨ s'.readyStatus = .shuttingDown ∨
      (s.constructed = false ∧ s'.readyStatus = .starting) ∨
      (a = .beforeServe ∧ s.readyStatus = .starting ∧ s'.readyStatus = .serving) := by
  cases a with
  | construct =>
      simp only [next] at h
      split at h <;> cases h
      rename_i hnew
      exact .inr (.inr (.inl ⟨by simpa using hnew, rfl⟩))
  | store i =>
      simp only [next] at h
      split at h <;> cases h
      exact .inr (.inl rfl)
  | storeShutdown i =>
      simp only [next] at h
      split at h <;> cases h
      exact .inr (.inl rfl)
  | beforeServe =>
      simp only [next] at h
      split at h <;> cases h
      by_cases hstarting : s.readyStatus = .starting
      · exact .inr (.inr (.inr ⟨rfl, hstarting, if_pos hstarting⟩))
      · exact .inl (if_neg hstarting)
  | _ =>
      simp only [next] at h
      repeat' split at h
      all_goals cases h
      all_goals exact .inl rfl

/-- Once `New` has returned, nothing takes the server out of its shutdown. -/
theorem next_shuttingDown (h : s.next readyCheck a = some s') (hc : s.constructed = true)
    (hdown : s.readyStatus = .shuttingDown) : s'.readyStatus = .shuttingDown := by
  rcases next_readyStatus h with hsame | hdown' | ⟨hnew, -⟩ | ⟨-, hstarting, -⟩
  · exact hsame.trans hdown
  · exact hdown'
  · rw [hc] at hnew; cases hnew
  · rw [hdown] at hstarting; cases hstarting

theorem next_constructed (h : s.next readyCheck a = some s') (hc : s.constructed = true) :
    s'.constructed = true := by
  cases a with
  | withReadinessContext => simp [next, hc] at h
  | construct => simp [next, hc] at h
  | _ =>
      simp only [next] at h
      repeat' split at h
      all_goals cases h
      all_goals exact hc

/-- A goroutine of `WithReadinessContext` goes on by itself and stores on its way out. -/
theorem next_waiters (h : s.next readyCheck a = some s') (hc : s.constructed = true) (i : ℕ) :
    s'.waiters[i]? = s.waiters[i]? ∨ s'.waiters[i]? ≠ some .finished ∨ s'.readyStatus = .shuttingDown := by
  cases a with
  | withReadinessContext => simp [next, hc] at h
  | wake j =>
      simp only [next] at h
      split at h <;> cases h
      rename_i hj
      dsimp only
      rcases eq_or_ne j i with rfl | hne
      · rw [Pool.getElem?_set hj]
        exact .inr (.inl (by simp))
      · exact .inl (List.getElem?_set_ne hne)
  | store j =>
      simp only [next] at h
      split at h <;> cases h
      exact .inr (.inr rfl)
  | _ =>
      simp only [next] at h
      repeat' split at h
      all_goals cases h
      all_goals exact .inl rfl

/-- A probe that is or may still be answered with 200. -/
def Hopeful (p : Option Probe) : Prop := p = some .checking ∨ p = some (.answered 200)

/-- Only a probe that loads `ReadyStatusServing` gets there. -/
theorem next_hopeful (h : s.next readyCheck a = some s') (i : ℕ) (hp : Hopeful s'.probes[i]?) :
    Hopeful s.probes[i]? ∨ s.readyStatus = .serving := by
  cases a with
  | probe =>
      cases h
      rcases Nat.lt_trichotomy i s.probes.length with hlt | rfl | hgt
      · exact .inl (List.getElem?_append_left hlt ▸ hp)
      · simp [Hopeful] at hp
      · have : (s.probes ++ [Probe.loading])[i]? = none := by simp; omega
        simp [Hopeful, this] at hp
  | load j =>
      simp only [next] at h
      split at h <;> cases h
      rename_i hj
      dsimp only at hp
      rcases eq_or_ne j i with rfl | hne
      · by_cases hserving : s.readyStatus = .serving
        · exact .inr hserving
        · rw [Pool.getElem?_set hj] at hp
          simp [Hopeful, ready, hserving] at hp
      · rw [List.getElem?_set_ne hne] at hp
        exact .inl hp
  | checked j healthy =>
      simp only [next] at h
      split at h <;> cases h
      rename_i hj
      dsimp only at hp
      rcases eq_or_ne j i with rfl | hne
      · exact .inl (.inl hj)
      · rw [List.getElem?_set_ne hne] at hp
        exact .inl hp
  | _ =>
      simp only [next] at h
      repeat' split at h
      all_goals cases h
      all_goals exact .inl hp

/-- Where the calls of `Shutdown` come from. -/
theorem next_shutdowns (h : s.next readyCheck a = some s') {c : ShutdownPlace} (hc : c ∈ s'.shutdowns) :
    (c = .storing ∧ s'.constructed = true) ∨ c ∈ s.shutdowns ∨
      (∃ c₀ ∈ s.shutdowns, c₀ ≠ .storing) ∨ (s'.readyStatus = .shuttingDown ∧ .storing ∈ s.shutdowns) := by
  have hset {i : ℕ} {c₀ c₁ : ShutdownPlace} (h₀ : s.shutdowns[i]? = some c₀) (hne : c₀ ≠ .storing)
      (hmem : c ∈ s.shutdowns.set i c₁) : c ∈ s.shutdowns ∨ ∃ c₀ ∈ s.shutdowns, c₀ ≠ .storing :=
    (List.mem_or_eq_of_mem_set hmem).imp id fun _ => ⟨c₀, List.mem_of_getElem? h₀, hne⟩
  cases a with
  | shutdown =>
      simp only [next] at h
      split at h <;> cases h
      rename_i hconstructed
      rcases List.mem_append.mp hc with hold | hnew
      · exact .inr (.inl hold)
      · exact .inl ⟨List.mem_singleton.mp hnew, hconstructed⟩
  | storeShutdown i =>
      simp only [next] at h
      split at h <;> cases h
      exact .inr (.inr (.inr ⟨rfl, List.mem_of_getElem? (by assumption)⟩))
  | cancel i =>
      simp only [next] at h
      split at h <;> cases h
      exact .inr ((hset (by assumption) (by simp) hc).imp id .inl)
  | done i =>
      simp only [next] at h
      split at h <;> cases h
      rename_i hi
      exact .inr ((hset hi.1 (by simp) hc).imp id .inl)
  | timeout i err =>
      simp only [next] at h
      split at h <;> cases h
      exact .inr ((hset (by assumption) (by simp) hc).imp id .inl)
  | _ =>
      simp only [next] at h
      repeat' split at h
      all_goals cases h
      all_goals exact .inr (.inl hc)

/-- What the actions `as` have come to. -/
structure ReadyInv (as : List ServerAction) (s : Server) : Prop where
  serving : s.readyStatus = .serving → .beforeServe ∈ as
  probes : ∀ i : ℕ, Hopeful s.probes[i]? → .beforeServe ∈ as
  shutdowns : ∀ c ∈ s.shutdowns, s.constructed = true ∧ (c ≠ .storing → s.readyStatus = .shuttingDown)

theorem init_readyInv : ReadyInv [] init where
  serving h := by cases h
  probes i h := by simp [Hopeful, init] at h
  shutdowns c hc := absurd hc List.not_mem_nil

theorem next_readyInv (hi : ReadyInv as s) (h : s.next readyCheck a = some s') :
    ReadyInv (as ++ [a]) s' where
  serving hserving := by
    rcases next_readyStatus h with hsame | hdown | ⟨-, hstarting⟩ | ⟨rfl, -, -⟩
    · exact List.mem_append_left _ (hi.serving (hsame ▸ hserving))
    · cases hdown.symm.trans hserving
    · cases hstarting.symm.trans hserving
    · exact List.mem_append_right _ (List.mem_singleton_self _)
  probes i hp := by
    rcases next_hopeful h i hp with hold | hserving
    · exact List.mem_append_left _ (hi.probes i hold)
    · exact List.mem_append_left _ (hi.serving hserving)
  shutdowns c hc := by
    -- a call that has stored keeps the status where it is
    have hkeep {c₀ : ShutdownPlace} (h₀ : c₀ ∈ s.shutdowns) (hne : c₀ ≠ .storing) :
        s'.readyStatus = .shuttingDown := by
      obtain ⟨hconstructed, hdown⟩ := hi.shutdowns c₀ h₀
      exact next_shuttingDown h hconstructed (hdown hne)
    rcases next_shutdowns h hc with ⟨rfl, hconstructed⟩ | hold | ⟨c₀, h₀, hne⟩ | ⟨hdown, hstoring⟩
    · exact ⟨hconstructed, fun hne => absurd rfl hne⟩
    · exact ⟨next_constructed h (hi.shutdowns c hold).1, hkeep hold⟩
    · exact ⟨next_constructed h (hi.shutdowns c₀ h₀).1, fun _ => hkeep h₀ hne⟩
    · exact ⟨next_constructed h (hi.shutdowns _ hstoring).1, fun _ => hdown⟩

/-- Since state `s₀`, in which the server was shutting down, no probe got its hopes up. -/
structure Settled (s₀ s : Server) : Prop where
  constructed : s.constructed = true
  readyStatus : s.readyStatus = .shuttingDown
  probes : ∀ i : ℕ, Hopeful s.probes[i]? → Hopeful s₀.probes[i]?

theorem next_settled {s₀ : Server} (hs : s₀.Settled s) (h : s.next readyCheck a = some s') : s₀.Settled s' where
  constructed := next_constructed h hs.constructed
  readyStatus := next_shuttingDown h hs.constructed hs.readyStatus
  probes i hp := by
    rcases next_hopeful h i hp with hold | hserving
    · exact hs.probes i hold
    · rw [hs.readyStatus] at hserving; cases hserving

/-- The goroutine `i` of `WithReadinessContext` has not stored without effect. -/
structure Heard (i : ℕ) (s : Server) : Prop where
  constructed : s.constructed = true
  waiter : s.waiters[i]? = some .finished → s.readyStatus = .shuttingDown

theorem next_heard {i : ℕ} (hs : s.Heard i) (h : s.next readyCheck a = some s') : s'.Heard i where
  constructed := next_constructed h hs.constructed
  waiter hfinished := by
    rcases next_waiters h hs.constructed i with hsame | hne | hdown
    · exact next_shuttingDown h hs.constructed (hs.waiter (hsame ▸ hfinished))
    · exact absurd hfinished hne
    · exact hdown

/-- In every run of a server: `/ready` says 200 only after `Start` got as far as serving, and a
call of `Shutdown` that has stored its status leaves it there. Once `New` has returned, the
status does not leave `ReadyStatusShuttingDown`, so that a probe which begins later or has not
yet loaded it is never answered with 200, and the goroutine of `WithReadinessContext`, if it
was still waiting, brings the status there. -/
theorem ready_final (h : runs (next readyCheck) init as = some s) :
    (∀ i : ℕ, s.probes[i]? = some (.answered 200) → .beforeServe ∈ as) ∧
      (∀ c ∈ s.shutdowns, c ≠ .storing → s.readyStatus = .shuttingDown) ∧
      (s.constructed = true → ∀ bs s', runs (next readyCheck) s bs = some s' →
        (s.readyStatus = .shuttingDown → s'.readyStatus = .shuttingDown ∧
          ∀ i : ℕ, s'.probes[i]? = some (.answered 200) → Hopeful s.probes[i]?) ∧
        ∀ i : ℕ, s.waiters[i]? ≠ some .finished → s'.waiters[i]? = some .finished →
          s'.readyStatus = .shuttingDown) := by
  have hi : ReadyInv as s := runs_history next_readyInv init_readyInv h
  refine ⟨fun i hp => hi.probes i (.inr hp), fun c hc => (hi.shutdowns c hc).2,
    fun hconstructed bs s' hrun => ⟨fun hdown => ?_, fun i hne => ?_⟩⟩
  · have hs : s.Settled s' := runs_invariant next_settled ⟨hconstructed, hdown, fun _ hp => hp⟩ hrun
    exact ⟨hs.readyStatus, fun i hp => hs.probes i (.inr hp)⟩
  · have hs : s'.Heard i := runs_invariant next_heard ⟨hconstructed, fun hf => absurd hf hne⟩ hrun
    exact hs.waiter

/-- A server that serves, is found ready, and is asked to shut down by its context. -/
def drainedRun : List ServerAction :=
  [.withReadinessContext, .construct, .start, .beforeServe, .probe, .load 0, .checked 0 true, .wake 0,
    .store 0]

theorem ready_final_drained : ∃ s, runs (next true) init drainedRun = some s ∧
    s.probes[0]? = some (.answered 200) ∧ .beforeServe ∈ drainedRun ∧
    ∀ bs s', runs (next true) s bs = some s' → s'.readyStatus = .shuttingDown ∧
      ∀ i : ℕ, s'.probes[i]? = some (.answered 200) → Hopeful s.probes[i]? := by
  obtain ⟨s, h, hprobe, hconstructed, hdown⟩ : ∃ s, runs (next true) init drainedRun = some s ∧
      s.probes[0]? = some (.answered 200) ∧ s.constructed = true ∧ s.readyStatus = .shuttingDown :=
    ⟨_, rfl, by decide⟩
  obtain ⟨hserved, -, hfinal⟩ := ready_final h
  exact ⟨s, h, hprobe, hserved 0 hprobe, fun bs s' hrun => (hfinal hconstructed bs s' hrun).1 hdown⟩

-- A context that is done before `New` has returned may go unnoticed.
example : ∃ s, runs (next false) init
    [.withReadinessContext, .wake 0, .store 0, .construct, .start, .beforeServe, .probe, .load 0] = some s ∧
      s.probes[0]? = some (.answered 200) ∧ s.waiters[0]? = some .finished :=
  ⟨_, rfl, by decide⟩

/-! ## Termination -/

/-- What `sc.Start` returns. -/
def stop? : ServerAction → Option (Option GoError)
  | .stop err => some err
  | _ => none

/-- What `sc.Start` returned, each time it did. -/
def stops (as : List ServerAction) : List (Option GoError) := as.filterMap stop?

theorem stops_append (ha : stop? a = none) : stops (as ++ [a]) = stops as := by
  simp [stops, ha]

theorem stops_stop (err : Option GoError) : stops (as ++ [.stop err]) = stops as ++ [err] := by
  simp [stops, stop?]

/-- What was reported once `reportServeError` is about to close the channel. -/
def Reported (as : List ServerAction) (s : Server) : Prop :=
  ∃ err, stops as = [err] ∧ (s.shutdownDone = true ∧ s.sent = [] ∨ s.sent = [serveError err])

/-- What the place of `Start` says. -/
def StartInv (as : List ServerAction) (s : Server) : Prop :=
  match s.start with
  | .idle | .binding | .serving =>
    stops as = [] ∧ s.sent = [] ∧ s.errorsClosed = false ∧ s.serveDone = false
  | .stopped err => stops as = [err] ∧ s.sent = [] ∧ s.errorsClosed = false ∧ s.serveDone = false
  | .sending e =>
    (∃ err, stops as = [err] ∧ e = serveError err) ∧
      s.sent = [] ∧ s.errorsClosed = false ∧ s.serveDone = false
  | .closing => Reported as s ∧ s.errorsClosed = false ∧ s.serveDone = false
  | .leaving => Reported as s ∧ s.errorsClosed = true ∧ s.serveDone = false
  | .returned => Reported as s ∧ s.errorsClosed = true ∧ s.serveDone = true

/-- What the place of a call of `Shutdown` says. -/
def ShutdownInv (s : Server) (c : ShutdownPlace) : Prop :=
  match c with
  | .storing | .canceling => True
  | .selecting | .returned (some _) => s.shutdownDone = true
  | .returned none => s.shutdownDone = true ∧ s.serveDone = true

structure StopInv (as : List ServerAction) (s : Server) : Prop where
  start : StartInv as s
  shutdowns : ∀ c ∈ s.shutdowns, s.ShutdownInv c

/-- The flags are only ever set. -/
theorem ShutdownInv.mono {c : ShutdownPlace} (hc : s.ShutdownInv c)
    (hdown : s.shutdownDone = true → s'.shutdownDone = true) (hdone : s.serveDone = true → s'.serveDone = true) :
    s'.ShutdownInv c := by
  unfold ShutdownInv at hc ⊢
  split at hc
  · trivial
  · trivial
  · exact hdown hc
  · exact hdown hc
  · exact ⟨hdown hc.1, hdone hc.2⟩

theorem StartInv.congr (hs : StartInv as s) (hstop : stop? a = none) (hstart : s'.start = s.start)
    (hsent : s'.sent = s.sent) (hclosed : s'.errorsClosed = s.errorsClosed)
    (hdone : s'.serveDone = s.serveDone) (hdown : s.shutdownDone = true → s'.shutdownDone = true) :
    StartInv (as ++ [a]) s' := by
  have hstops : stops (as ++ [a]) = stops as := stops_append hstop
  have hreported : Reported as s → Reported (as ++ [a]) s' := by
    rintro ⟨err, herr, hor⟩
    exact ⟨err, hstops ▸ herr, hor.imp (.imp hdown hsent.trans) hsent.trans⟩
  unfold StartInv at hs ⊢
  rw [hstart, hsent, hclosed, hdone, hstops]
  cases hp : s.start with
  | closing => rw [hp] at hs; exact hs.imp hreported id
  | leaving => rw [hp] at hs; exact hs.imp hreported id
  | returned => rw [hp] at hs; exact hs.imp hreported id
  | _ => rw [hp] at hs; exact hs

theorem init_stopInv : StopInv [] init where
  start := ⟨rfl, rfl, rfl, rfl⟩
  shutdowns _ hc := absurd hc List.not_mem_nil

theorem next_stopInv (hi : StopInv as s) (h : s.next readyCheck a = some s') :
    StopInv (as ++ [a]) s' := by
  obtain ⟨hstart, hshutdowns⟩ := hi
  -- `Start` goes on, and nobody else
  have halone (hs : StartInv (as ++ [a]) s') (hsame : s'.shutdowns = s.shutdowns)
      (hdown : s.shutdownDone = true → s'.shutdownDone = true)
      (hdone : s.serveDone = true → s'.serveDone = true) : StopInv (as ++ [a]) s' :=
    ⟨hs, fun c hc => (hshutdowns c (hsame ▸ hc)).mono hdown hdone⟩
  cases a with
  | start =>
      simp only [next] at h
      split at h <;> cases h
      rename_i hp
      rw [StartInv, hp.2, ← stops_append (a := .start) rfl] at hstart
      exact halone hstart rfl id id
  | beforeServe =>
      simp only [next] at h
      split at h <;> cases h
      rename_i hp
      rw [StartInv, hp, ← stops_append (a := .beforeServe) rfl] at hstart
      exact halone hstart rfl id id
  | stop err =>
      simp only [next] at h
      split at h <;> cases h
      rename_i hp
      have hstops : stops as = [] ∧ s.sent = [] ∧ s.errorsClosed = false ∧ s.serveDone = false := by
        rcases hp with hp | hp <;> rw [StartInv, hp] at hstart <;> exact hstart
      exact halone ⟨by rw [stops_stop, hstops.1]; rfl, hstops.2⟩ rfl id id
  | report =>
      simp only [next] at h
      split at h <;> cases h
      rename_i err hp
      rw [StartInv, hp, ← stops_append (a := .report) rfl] at hstart
      refine halone ?_ rfl id id
      cases hd : s.shutdownDone with
      | true => exact ⟨⟨err, hstart.1, .inl ⟨rfl, hstart.2.1⟩⟩, hstart.2.2⟩
      | false => exact ⟨⟨err, hstart.1, rfl⟩, hstart.2⟩
  | send =>
      simp only [next] at h
      split at h <;> cases h
      rename_i e hp
      rw [StartInv, hp, ← stops_append (a := .send) rfl] at hstart
      obtain ⟨⟨err, herr, rfl⟩, hsent, hflags⟩ := hstart
      exact halone ⟨⟨err, herr, .inr (by simp [hsent])⟩, hflags⟩ rfl id id
  | close =>
      simp only [next] at h
      split at h <;> cases h
      rename_i hp
      rw [StartInv, hp, Reported, ← stops_append (a := .close) rfl] at hstart
      exact halone ⟨hstart.1, rfl, hstart.2.2⟩ rfl id id
  | leave =>
      simp only [next] at h
      split at h <;> cases h
      rename_i hp
      rw [StartInv, hp, Reported, ← stops_append (a := .leave) rfl] at hstart
      exact halone ⟨hstart.1, hstart.2.1, rfl⟩ rfl id fun _ => rfl
  | shutdown =>
      simp only [next] at h
      split at h <;> cases h
      refine ⟨hstart.congr rfl rfl rfl rfl rfl id, fun c hc => ?_⟩
      rcases List.mem_append.mp hc with hold | hnew
      · exact hshutdowns c hold
      · rw [List.mem_singleton.mp hnew]
        trivial
  | storeShutdown i =>
      simp only [next] at h
      split at h <;> cases h
      exact ⟨hstart.congr rfl rfl rfl rfl rfl id, Pool.forall_set hshutdowns trivial⟩
  | cancel i =>
      simp only [next] at h
      split at h <;> cases h
      exact ⟨hstart.congr rfl rfl rfl rfl rfl fun _ => rfl,
        Pool.forall_set (fun c hc => (hshutdowns c hc).mono (fun _ => rfl) id) rfl⟩
  | done i =>
      simp only [next] at h
      split at h <;> cases h
      rename_i hp
      exact ⟨hstart.congr rfl rfl rfl rfl rfl id,
        Pool.forall_set hshutdowns ⟨hshutdowns _ (List.mem_of_getElem? hp.1), hp.2⟩⟩
  | timeout i err =>
      simp only [next] at h
      split at h <;> cases h
      rename_i hp
      exact ⟨hstart.congr rfl rfl rfl rfl rfl id,
        Pool.forall_set hshutdowns (hshutdowns _ (List.mem_of_getElem? hp))⟩
  | _ =>
      simp only [next] at h
      repeat' split at h
      all_goals cases h
      all_goals exact ⟨hstart.congr rfl rfl rfl rfl rfl id, hshutdowns⟩

/-- Nothing was sent, and a shutdown was requested before serving ended. -/
structure Silent (s : Server) : Prop where
  shutdownDone : s.shutdownDone = true
  sent : s.sent = []
  start : ∀ e, s.start ≠ .sending e

theorem next_silent (hs : s.Silent) (h : s.next readyCheck a = some s') : s'.Silent := by
  obtain ⟨hdown, hsent, hstart⟩ := hs
  cases a with
  | report =>
      simp only [next, hdown] at h
      split at h <;> cases h
      exact ⟨rfl, hsent, by simp⟩
  | send =>
      simp only [next] at h
      cases h
  | cancel i =>
      simp only [next] at h
      split at h <;> cases h
      exact ⟨rfl, hsent, hstart⟩
  | _ =>
      simp only [next] at h
      repeat' split at h
      all_goals cases h
      all_goals first | exact ⟨hdown, hsent, hstart⟩ | exact ⟨hdown, hsent, fun _ => StartPlace.noConfusion⟩

theorem StopInv.returned_of_serveDone (hi : StopInv as s) (hdone : s.serveDone = true) : s.start = .returned := by
  have hstart := hi.start
  unfold StartInv at hstart
  cases hp : s.start with
  | returned => rfl
  | closing => rw [hp] at hstart; cases hdone.symm.trans hstart.2.2
  | leaving => rw [hp] at hstart; cases hdone.symm.trans hstart.2.2
  | _ => rw [hp] at hstart; cases hdone.symm.trans hstart.2.2.2

/-- In every run of a server: at most one error is sent, that of the one time `sc.Start` returned,
and it is closed before `serveDone` is. A `Start` that has returned has sent this error, unless
the server was asked to shut down. Once it is asked to before serving has ended, none is ever
sent. A `Shutdown` that returned nil has seen the end of `Start`. -/
theorem errors_once (h : runs (next readyCheck) init as = some s) :
    (s.sent = [] ∨ ∃ err, stops as = [err] ∧ s.sent = [serveError err]) ∧
      (s.serveDone = true → s.errorsClosed = true) ∧
      (s.start = .returned → ∃ err, stops as = [err] ∧
        (s.shutdownDone = true ∧ s.sent = [] ∨ s.sent = [serveError err])) ∧
      (∀ c ∈ s.shutdowns, c = .returned none → s.start = .returned) ∧
      (s.shutdownDone = true → s.sent = [] → (∀ e, s.start ≠ .sending e) →
        ∀ bs s', runs (next readyCheck) s bs = some s' → s'.sent = []) := by
  have hi : StopInv as s := runs_history next_stopInv init_stopInv h
  have hstart := hi.start
  refine ⟨?_, fun hdone => ?_, fun hp => ?_, ?_, fun hdown hsent hplace bs s' hrun => ?_⟩
  · have hreported : Reported as s → s.sent = [] ∨ ∃ err, stops as = [err] ∧ s.sent = [serveError err] :=
      fun ⟨err, herr, hor⟩ => hor.imp And.right fun hsent => ⟨err, herr, hsent⟩
    cases hp : s.start with
    | closing => rw [StartInv, hp] at hstart; exact hreported hstart.1
    | leaving => rw [StartInv, hp] at hstart; exact hreported hstart.1
    | returned => rw [StartInv, hp] at hstart; exact hreported hstart.1
    | _ => rw [StartInv, hp] at hstart; exact .inl hstart.2.1
  · rw [StartInv, hi.returned_of_serveDone hdone] at hstart
    exact hstart.2.1
  · rw [StartInv, hp] at hstart
    exact hstart.1
  · rintro c hc rfl
    exact hi.returned_of_serveDone (hi.shutdowns _ hc).2
  · exact (runs_invariant next_silent ⟨hdown, hsent, hplace⟩ hrun).sent

/-- The address is in use, and the server is shut down afterwards. -/
def inUseRun : List ServerAction :=
  [.construct, .start, .stop (some (.leaf "address already in use")), .report, .send, .close, .leave, .shutdown,
    .storeShutdown 0, .cancel 0, .done 0]

theorem errors_once_inUse : ∃ s, runs (next true) init inUseRun = some s ∧ s.sent ≠ [] ∧
    (∃ err, stops inUseRun = [err] ∧ s.sent = [serveError err]) ∧ s.errorsClosed = true ∧
    s.start = .returned := by
  obtain ⟨s, h, hsent, hdone, hshutdowns⟩ : ∃ s, runs (next true) init inUseRun = some s ∧ s.sent ≠ [] ∧
      s.serveDone = true ∧ s.shutdowns = [.returned none] := ⟨_, rfl, by decide⟩
  obtain ⟨honce, hclosed, -, hreturned, -⟩ := errors_once h
  exact ⟨s, h, hsent, honce.resolve_left hsent, hclosed hdone,
    hreturned _ (hshutdowns ▸ List.mem_singleton_self _) rfl⟩

end Server

end Http
end Go42.Api
