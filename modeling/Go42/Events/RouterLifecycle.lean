-- SUMMARY: The life of the event router: `Start`, the goroutine that runs it, `monitor`, calls of `Shutdown`, and what their interleavings come to.
import Go42.Events.Errors
import Go42.Lib.Pool
import Go42.Lib.Progress

/-!
# Start and end of the event router

`Start` is called once; `Shutdown` may be called at any time and more than once; the context of
`Start` may end at any time, and whoever watches `Errors` receives as it likes. What Watermill
does is not modelled: its router may come to run or not, `Run` may return with any error at any
time, and so may `Close` and the backend.
-/

namespace Go42.Events

/-- What `monitor` reports when `Run` has returned `err`. -/
def stopError : Option GoError → GoError
  | none => .leaf "event router stopped unexpectedly without error"
  | some err => .wrap "event router stopped unexpectedly: " err ""

/-- The goroutine that `Start` runs the router in. -/
inductive RunPlace where
  | idle
  /-- In `r.router.Run(runCtx)`. -/
  | running
  /-- `runErr <- err`. -/
  | sending (err : Option GoError)
  | finished (err : Option GoError)
deriving DecidableEq

inductive StartPlace where
  | idle
  /-- The `select` of `waitUntilReady`. -/
  | selecting
  /-- `return ctx.Err()`. -/
  | ready
  /-- `cancel()`. -/
  | canceling (err : GoError)
  /-- `close(r.errors)`. -/
  | closing (err : GoError)
  /-- `go r.monitor(ctx, runErr, cancel)`. -/
  | spawning
  | returned (err : Option GoError)
deriving DecidableEq

inductive MonitorPlace where
  | idle
  /-- `<-runErr`. -/
  | waiting
  /-- `ctx.Err() != nil`. -/
  | checking (err : Option GoError)
  /-- `r.shuttingDown.Load()`. -/
  | loading (err : Option GoError)
  /-- `r.errors <- err`. -/
  | sending (err : Option GoError)
  /-- The deferred `cancel()`. -/
  | canceling
  /-- The deferred `close(r.errors)`. -/
  | closing
  | finished
deriving DecidableEq

/-- The goroutine of a call of `Shutdown`. -/
inductive CloserPlace where
  | idle
  /-- In `r.router.Close()`. -/
  | router
  /-- In `r.backend.Shutdown(ctx)`. -/
  | backend (routerErr : Option GoError)
  /-- `done <- errors.Join(routerErr, backendErr)`. -/
  | sending (routerErr backendErr : Option GoError)
  | finished (routerErr backendErr : Option GoError)
deriving DecidableEq

inductive ShutdownPlace where
  /-- `r.shuttingDown.Store(true)`. -/
  | storing
  /-- The `go` statement. -/
  | launching
  | selecting
  | returned (err : Option GoError)
deriving DecidableEq

structure ShutdownCall where
  place : ShutdownPlace
  closer : CloserPlace
  /-- The buffer of `done`. -/
  done : Option (Option GoError)
deriving DecidableEq

structure Lifecycle where
  run : RunPlace
  /-- `r.router.Running()` is closed. -/
  isRunning : Bool
  /-- The buffer of `runErr`. -/
  runErr : Option (Option GoError)
  start : StartPlace
  monitor : MonitorPlace
  /-- `ctx.Err()` of `Start`. -/
  ctxErr : Option CtxErr
  /-- `cancel` of `runCtx` was called. -/
  canceled : Bool
  shuttingDown : Bool
  shutdowns : List ShutdownCall
  /-- The buffer of `r.errors`, which holds one error. -/
  errors : List GoError
  errorsClosed : Bool
  /-- What was ever sent on `r.errors`, and what was received from it. -/
  sent : List GoError
  received : List GoError
  /-- `r.errors` was closed, or sent on, after it had been closed. -/
  panicked : Bool
deriving DecidableEq

inductive LifecycleAction where
  | start
  /-- The router of Watermill runs. -/
  | running
  /-- `Run` returns. -/
  | stop (err : Option GoError)
  | sendRunErr
  /-- `<-r.router.Running()`. -/
  | selectRunning
  /-- `err := <-runErr`. -/
  | selectRunErr
  | checkStart
  | cancelStart
  | closeStart
  | spawn
  | receiveRunErr
  | check
  | load
  | send
  | cancel
  | close
  /-- The context of `Start` ends. -/
  | expire (err : CtxErr)
  /-- The reader of `Errors` receives. -/
  | receive
  | shutdown
  | store (i : ℕ)
  | launch (i : ℕ)
  /-- `r.router.Close()` returns. -/
  | closed (i : ℕ) (err : Option GoError)
  /-- `r.backend.Shutdown(ctx)` returns. -/
  | backend (i : ℕ) (err : Option GoError)
  | sendDone (i : ℕ)
  /-- `err := <-done`. -/
  | done (i : ℕ)
  /-- `<-ctx.Done()`. -/
  | timeout (i : ℕ) (err : CtxErr)
deriving DecidableEq

/-- A step of the code, and not of Watermill, the backend, a context or a caller. -/
def LifecycleAction.own : LifecycleAction → Bool
  | sendRunErr | selectRunning | selectRunErr | checkStart | cancelStart | closeStart | spawn => true
  | receiveRunErr | check | load | send | cancel | close => true
  | store _ | launch _ | sendDone _ | done _ => true
  | start | running | stop _ | expire _ | receive | shutdown | closed _ _ | backend _ _ | timeout _ _ => false

namespace Lifecycle

/-- What `waitUntilReady` returns for a router that stopped during startup. -/
def startupError (err : Option GoError) : GoError :=
  err.getD (.leaf "event router stopped during startup")

/-- `close(r.errors)`, in a goroutine that goes on in `s`. -/
def closeErrors (s : Lifecycle) : Lifecycle :=
  if s.errorsClosed then { s with panicked := true } else { s with errorsClosed := true }

def next (s : Lifecycle) : LifecycleAction → Option Lifecycle
  | .start => if s.start = .idle then some { s with start := .selecting, run := .running } else none
  | .running => if s.run = .running then some { s with isRunning := true } else none
  | .stop err => if s.run = .running then some { s with run := .sending err } else none
  | .sendRunErr =>
    match s.run, s.runErr with
    | .sending err, none => some { s with run := .finished err, runErr := some err }
    | _, _ => none
  | .selectRunning =>
    if s.start = .selecting ∧ s.isRunning then some { s with start := .ready } else none
  | .selectRunErr =>
    match s.start, s.runErr with
    | .selecting, some err => some { s with start := .canceling (startupError err), runErr := none }
    | _, _ => none
  | .checkStart =>
    if s.start = .ready then
      some { s with start := match s.ctxErr with | none => .spawning | some err => .canceling err.err }
    else none
  | .cancelStart =>
    match s.start with
    | .canceling err => some { s with start := .closing err, canceled := true }
    | _ => none
  | .closeStart =>
    match s.start with
    | .closing err => some (closeErrors { s with start := .returned (some err) })
    | _ => none
  | .spawn =>
    if s.start = .spawning then some { s with start := .returned none, monitor := .waiting } else none
  | .receiveRunErr =>
    match s.monitor, s.runErr with
    | .waiting, some err => some { s with monitor := .checking err, runErr := none }
    | _, _ => none
  | .check =>
    match s.monitor with
    | .checking err => some { s with monitor := if s.ctxErr.isSome then .canceling else .loading err }
    | _ => none
  | .load =>
    match s.monitor with
    | .loading err => some { s with monitor := if s.shuttingDown then .canceling else .sending err }
    | _ => none
  | .send =>
    match s.monitor with
    | .sending err =>
      -- the deferred functions run in a panic too
      if s.errorsClosed then some { s with monitor := .canceling, panicked := true }
      else if s.errors.length < 1 then
        some { s with
          monitor := .canceling
          errors := s.errors ++ [stopError err]
          sent := s.sent ++ [stopError err] }
      else none
    | _ => none
  | .cancel =>
    if s.monitor = .canceling then some { s with monitor := .closing, canceled := true } else none
  | .close =>
    if s.monitor = .closing then some (closeErrors { s with monitor := .finished }) else none
  | .expire err => if s.ctxErr = none then some { s with ctxErr := some err } else none
  | .receive =>
    match s.errors with
    | err :: errors => some { s with errors := errors, received := s.received ++ [err] }
    | [] => none
  | .shutdown => some { s with shutdowns := s.shutdowns ++ [⟨.storing, .idle, none⟩] }
  | .store i =>
    match s.shutdowns[i]? with
    | some ⟨.storing, closer, done⟩ =>
      some { s with shuttingDown := true, shutdowns := s.shutdowns.set i ⟨.launching, closer, done⟩ }
    | _ => none
  | .launch i =>
    match s.shutdowns[i]? with
    | some ⟨.launching, _, done⟩ => some { s with shutdowns := s.shutdowns.set i ⟨.selecting, .router, done⟩ }
    | _ => none
  | .closed i err =>
    match s.shutdowns[i]? with
    | some ⟨place, .router, done⟩ => some { s with shutdowns := s.shutdowns.set i ⟨place, .backend err, done⟩ }
    | _ => none
  | .backend i err =>
    match s.shutdowns[i]? with
    | some ⟨place, .backend routerErr, done⟩ =>
      some { s with shutdowns := s.shutdowns.set i ⟨place, .sending routerErr err, done⟩ }
    | _ => none
  | .sendDone i =>
    match s.shutdowns[i]? with
    | some ⟨place, .sending routerErr backendErr, none⟩ =>
      some { s with
        shutdowns := s.shutdowns.set i
          ⟨place, .finished routerErr backendErr, some (joinErrors [routerErr, backendErr])⟩ }
    | _ => none
  | .done i =>
    match s.shutdowns[i]? with
    | some ⟨.selecting, closer, some err⟩ =>
      some { s with shutdowns := s.shutdowns.set i ⟨.returned err, closer, none⟩ }
    | _ => none
  | .timeout i err =>
    match s.shutdowns[i]? with
    | some ⟨.selecting, closer, done⟩ =>
      some { s with shutdowns := s.shutdowns.set i ⟨.returned (some err.err), closer, done⟩ }
    | _ => none

/-- A router that was constructed by `NewRouter`. -/
def init : Lifecycle where
  run := .idle
  isRunning := false
  runErr := none
  start := .idle
  monitor := .idle
  ctxErr := none
  canceled := false
  shuttingDown := false
  shutdowns := []
  errors := []
  errorsClosed := false
  sent := []
  received := []
  panicked := false

variable {s s' : Lifecycle} {a : LifecycleAction} {as : List LifecycleAction}

/-! ## The error channel -/

/-- Nothing was reported yet. -/
def Fresh (s : Lifecycle) : Prop := s.sent = [] ∧ s.errorsClosed = false

/-- What was reported once `monitor` is through with it. -/
def Reported (s : Lifecycle) : Prop :=
  ∃ err, s.run = .finished err ∧
    (s.sent = [stopError err] ∨ s.sent = [] ∧ (s.ctxErr.isSome = true ∨ s.shuttingDown = true))

/-- What the places of `Start` and of `monitor` say. -/
def Places (s : Lifecycle) : Prop :=
  match s.start, s.monitor with
  | .idle, .idle => s.Fresh ∧ s.run = .idle
  | .selecting, .idle | .ready, .idle | .canceling _, .idle | .spawning, .idle => s.Fresh ∧ s.run ≠ .idle
  | .closing _, .idle => s.Fresh ∧ s.run ≠ .idle ∧ s.canceled = true
  | .returned (some _), .idle => s.sent = [] ∧ s.errorsClosed = true ∧ s.run ≠ .idle ∧ s.canceled = true
  | .returned none, .waiting => s.Fresh ∧ s.run ≠ .idle
  | .returned none, .checking err | .returned none, .loading err | .returned none, .sending err =>
    s.Fresh ∧ s.run = .finished err
  | .returned none, .canceling => s.errorsClosed = false ∧ s.Reported
  | .returned none, .closing => s.errorsClosed = false ∧ s.canceled = true ∧ s.Reported
  | .returned none, .finished => s.errorsClosed = true ∧ s.canceled = true ∧ s.Reported
  | _, _ => False

/-- The result of `Run` is still to be read. -/
def Unread (s : Lifecycle) : Prop :=
  s.start = .selecting ∨ s.start = .ready ∨ s.start = .spawning ∨ s.monitor = .waiting

structure ErrorsInv (s : Lifecycle) : Prop where
  places : s.Places
  result : ∀ err, s.runErr = some err → s.run = .finished err
  unread : ∀ err, s.run = .finished err → s.Unread → s.runErr = some err
  queue : s.received ++ s.errors = s.sent
  panicked : s.panicked = false

theorem init_errorsInv : init.ErrorsInv where
  places := ⟨⟨rfl, rfl⟩, rfl⟩
  result _ h := by cases h
  unread _ h := by cases h
  queue := rfl
  panicked := rfl

/-- `Places` does not look at the calls of `Shutdown`, nor at what is received. -/
theorem Places.congr (hp : s.Places) (hstart : s'.start = s.start) (hmonitor : s'.monitor = s.monitor)
    (hsent : s'.sent = s.sent) (hclosed : s'.errorsClosed = s.errorsClosed) (hcanceled : s'.canceled = s.canceled)
    (hidle : s'.run = .idle ↔ s.run = .idle) (hrun : ∀ err, s.run = .finished err → s'.run = .finished err)
    (hctx : s.ctxErr.isSome = true → s'.ctxErr.isSome = true)
    (hdown : s.shuttingDown = true → s'.shuttingDown = true) : s'.Places := by
  have hfresh (h : s.Fresh) : s'.Fresh := ⟨hsent.trans h.1, hclosed.trans h.2⟩
  have hreported (h : s.Reported) : s'.Reported := by
    obtain ⟨err, hfinished, hsilent⟩ := h
    refine ⟨err, hrun err hfinished, ?_⟩
    rw [hsent]
    exact hsilent.imp id (.imp id (.imp hctx hdown))
  have hne (h : s.run ≠ .idle) : s'.run ≠ .idle := fun h' => h (hidle.mp h')
  unfold Places at hp ⊢
  rw [hstart, hmonitor, hclosed, hcanceled, hsent]
  split at hp
  · exact ⟨hfresh hp.1, hidle.mpr hp.2⟩
  · exact hp.imp hfresh hne
  · exact hp.imp hfresh hne
  · exact hp.imp hfresh hne
  · exact hp.imp hfresh hne
  · exact hp.imp hfresh (.imp hne id)
  · exact hp.imp id (.imp id (.imp hne id))
  · exact hp.imp hfresh hne
  · exact hp.imp hfresh (hrun _)
  · exact hp.imp hfresh (hrun _)
  · exact hp.imp hfresh (hrun _)
  · exact hp.imp id hreported
  · exact hp.imp id (.imp id hreported)
  · exact hp.imp id (.imp id hreported)
  · exact hp

/-- `monitor` is there only once `Start` has returned nil. -/
theorem Places.monitor_idle (hp : s.Places) (h : s.start ≠ .returned none) : s.monitor = .idle := by
  unfold Places at hp
  split at hp
  all_goals first | assumption | exact absurd (by assumption) h | exact hp.elim

theorem Places.start_returned (hp : s.Places) (h : s.monitor ≠ .idle) : s.start = .returned none := by
  unfold Places at hp
  split at hp
  all_goals first | assumption | exact absurd (by assumption) h | exact hp.elim

/-- What the place of `Start` says while there is no `monitor`. -/
theorem Places.at_start (hp : s.Places) {place : StartPlace} (hstart : s.start = place)
    (h : place ≠ .returned none) : s.monitor = .idle ∧ { s with start := place, monitor := .idle }.Places := by
  have hidle := hp.monitor_idle (hstart ▸ h)
  refine ⟨hidle, ?_⟩
  rw [← hstart, ← hidle]
  exact hp

theorem Places.at_monitor (hp : s.Places) {place : MonitorPlace} (hmonitor : s.monitor = place)
    (h : place ≠ .idle) :
    s.start = .returned none ∧ { s with start := .returned none, monitor := place }.Places := by
  have hreturned := hp.start_returned (hmonitor ▸ h)
  refine ⟨hreturned, ?_⟩
  rw [← hreturned, ← hmonitor]
  exact hp

theorem next_errorsInv (hi : s.ErrorsInv) (h : s.next a = some s') : s'.ErrorsInv := by
  obtain ⟨hplaces, hresult, hunread, hqueue, hpanicked⟩ := hi
  cases a with
  | start =>
      simp only [next] at h
      split at h <;> cases h
      rename_i hstart
      obtain ⟨hmonitor, hfresh, hidle⟩ := hplaces.at_start hstart (by simp)
      refine ⟨?_, fun err herr => ?_, fun err herr => by simp at herr, hqueue, hpanicked⟩
      · simp only [Places, hmonitor]
        exact ⟨hfresh, by simp⟩
      · simp [hresult err herr] at hidle
  | stop err =>
      simp only [next] at h
      split at h <;> cases h
      rename_i hrun
      refine ⟨hplaces.congr rfl rfl rfl rfl rfl (by simp [hrun]) (by simp [hrun]) id id, fun err' herr => ?_,
        fun err' herr => by simp at herr, hqueue, hpanicked⟩
      have := hresult err' herr
      simp [hrun] at this
  | sendRunErr =>
      simp only [next] at h
      split at h <;> cases h
      rename_i err hrun hnone
      exact ⟨hplaces.congr rfl rfl rfl rfl rfl (by simp [hrun]) (by simp [hrun]) id id,
        fun err' herr => by simpa using herr, fun err' herr _ => by simpa using herr, hqueue, hpanicked⟩
  | selectRunning =>
      simp only [next] at h
      split at h <;> cases h
      rename_i hstart
      obtain ⟨hmonitor, hp⟩ := hplaces.at_start hstart.1 (by simp)
      refine ⟨?_, hresult, fun err herr _ => hunread err herr (.inl hstart.1), hqueue, hpanicked⟩
      simp only [Places, hmonitor]
      exact hp
  | selectRunErr =>
      simp only [next] at h
      split at h <;> cases h
      rename_i err hstart hrunErr
      obtain ⟨hmonitor, hp⟩ := hplaces.at_start hstart (by simp)
      refine ⟨?_, fun err' herr => by simp at herr, fun err' _ hu => ?_, hqueue, hpanicked⟩
      · simp only [Places, hmonitor]
        exact hp
      · simp [Unread, hmonitor] at hu
  | checkStart =>
      simp only [next] at h
      split at h <;> cases h
      rename_i hstart
      obtain ⟨hmonitor, hp⟩ := hplaces.at_start hstart (by simp)
      refine ⟨?_, hresult, fun err herr _ => hunread err herr (.inr (.inl hstart)), hqueue, hpanicked⟩
      cases hctx : s.ctxErr with
      | none =>
          simp only [Places, hmonitor]
          exact hp
      | some e =>
          simp only [Places, hmonitor]
          exact hp
  | cancelStart =>
      simp only [next] at h
      split at h <;> cases h
      rename_i err hstart
      obtain ⟨hmonitor, hp⟩ := hplaces.at_start hstart (by simp)
      refine ⟨?_, hresult, fun err' _ hu => ?_, hqueue, hpanicked⟩
      · simp only [Places, hmonitor]
        exact ⟨hp.1, hp.2, trivial⟩
      · simp [Unread, hmonitor] at hu
  | closeStart =>
      simp only [next] at h
      split at h <;> cases h
      rename_i err hstart
      obtain ⟨hmonitor, ⟨hsent, hopen⟩, hrun, hcanceled⟩ := hplaces.at_start hstart (by simp)
      rw [closeErrors, if_neg (by simpa using hopen)]
      refine ⟨?_, hresult, fun err' _ hu => ?_, hqueue, hpanicked⟩
      · simp only [Places, hmonitor]
        exact ⟨hsent, trivial, hrun, hcanceled⟩
      · simp [Unread, hmonitor] at hu
  | spawn =>
      simp only [next] at h
      split at h <;> cases h
      rename_i hstart
      obtain ⟨-, hp⟩ := hplaces.at_start hstart (by simp)
      exact ⟨hp, hresult, fun err herr _ => hunread err herr (.inr (.inr (.inl hstart))), hqueue, hpanicked⟩
  | receiveRunErr =>
      simp only [next] at h
      split at h <;> cases h
      rename_i err hmonitor hrunErr
      obtain ⟨hstart, hp⟩ := hplaces.at_monitor hmonitor (by simp)
      refine ⟨?_, fun err' herr => by simp at herr, fun err' _ hu => ?_, hqueue, hpanicked⟩
      · simp only [Places, hstart]
        exact ⟨hp.1, hresult err hrunErr⟩
      · simp [Unread, hstart] at hu
  | check =>
      simp only [next] at h
      split at h <;> cases h
      rename_i err hmonitor
      obtain ⟨hstart, hfresh, hrun⟩ := hplaces.at_monitor hmonitor (by simp)
      refine ⟨?_, hresult, fun err' _ hu => ?_, hqueue, hpanicked⟩
      · cases hctx : s.ctxErr.isSome with
        | true =>
            simp only [Places, hstart]
            exact ⟨hfresh.2, err, hrun, .inr ⟨hfresh.1, .inl hctx⟩⟩
        | false =>
            simp only [Places, hstart]
            exact ⟨hfresh, hrun⟩
      · cases hctx : s.ctxErr.isSome <;> simp [Unread, hstart, hctx] at hu
  | load =>
      simp only [next] at h
      split at h <;> cases h
      rename_i err hmonitor
      obtain ⟨hstart, hfresh, hrun⟩ := hplaces.at_monitor hmonitor (by simp)
      refine ⟨?_, hresult, fun err' _ hu => ?_, hqueue, hpanicked⟩
      · cases hdown : s.shuttingDown with
        | true =>
            simp only [Places, hstart]
            exact ⟨hfresh.2, err, hrun, .inr ⟨hfresh.1, .inr rfl⟩⟩
        | false =>
            simp only [Places, hstart]
            exact ⟨hfresh, hrun⟩
      · cases hdown : s.shuttingDown <;> simp [Unread, hstart, hdown] at hu
  | send =>
      simp only [next] at h
      split at h
      · rename_i err hmonitor
        obtain ⟨hstart, ⟨hsent, hopen⟩, hrun⟩ := hplaces.at_monitor hmonitor (by simp)
        rw [if_neg (by simpa using hopen)] at h
        split at h <;> cases h
        refine ⟨?_, hresult, fun err' _ hu => ?_, by rw [← hqueue, List.append_assoc], hpanicked⟩
        · simp only [Places, hstart]
          exact ⟨hopen, err, hrun, .inl (by rw [show s.sent = [] from hsent]; rfl)⟩
        · simp [Unread, hstart] at hu
      · cases h
  | cancel =>
      simp only [next] at h
      split at h <;> cases h
      rename_i hmonitor
      obtain ⟨hstart, hopen, hreported⟩ := hplaces.at_monitor hmonitor (by simp)
      refine ⟨?_, hresult, fun err' _ hu => ?_, hqueue, hpanicked⟩
      · simp only [Places, hstart]
        exact ⟨hopen, trivial, hreported⟩
      · simp [Unread, hstart] at hu
  | close =>
      simp only [next] at h
      split at h <;> cases h
      rename_i hmonitor
      obtain ⟨hstart, hopen, hcanceled, hreported⟩ := hplaces.at_monitor hmonitor (by simp)
      rw [closeErrors, if_neg (by simpa using hopen)]
      refine ⟨?_, hresult, fun err' _ hu => ?_, hqueue, hpanicked⟩
      · simp only [Places, hstart]
        exact ⟨trivial, hcanceled, hreported⟩
      · simp [Unread, hstart] at hu
  | expire err =>
      simp only [next] at h
      split at h <;> cases h
      exact ⟨hplaces.congr rfl rfl rfl rfl rfl Iff.rfl (fun _ => id) (fun _ => rfl) id, hresult, hunread,
        hqueue, hpanicked⟩
  | receive =>
      simp only [next] at h
      split at h <;> cases h
      rename_i err errors herrors
      refine ⟨hplaces, hresult, hunread, ?_, hpanicked⟩
      rw [← hqueue, herrors, List.append_assoc]
      rfl
  | store i =>
      simp only [next] at h
      split at h <;> cases h
      exact ⟨hplaces.congr rfl rfl rfl rfl rfl Iff.rfl (fun _ => id) id (fun _ => rfl), hresult, hunread,
        hqueue, hpanicked⟩
  | _ =>
      simp only [next] at h
      repeat' split at h
      all_goals cases h
      all_goals exact ⟨hplaces, hresult, hunread, hqueue, hpanicked⟩

/-! ## Calls of `Shutdown` -/

/-- What the place of call `i` says, after the actions `as`. -/
def Placed (as : List LifecycleAction) (shuttingDown : Bool) (i : ℕ) (c : ShutdownCall) : Prop :=
  match c.place with
  | .storing => c.closer = .idle
  | .launching => c.closer = .idle ∧ shuttingDown = true
  | .selecting => c.closer ≠ .idle ∧ shuttingDown = true
  | .returned err => c.closer ≠ .idle ∧ shuttingDown = true ∧
      ((∃ routerErr backendErr, c.closer = .finished routerErr backendErr ∧ err = joinErrors [routerErr, backendErr]) ∨
        ∃ e, .timeout i e ∈ as ∧ err = some e.err)

/-- What the place of its goroutine says. -/
def Joined (as : List LifecycleAction) (i : ℕ) (c : ShutdownCall) : Prop :=
  match c.closer with
  | .idle | .router => c.done = none
  | .backend routerErr => .closed i routerErr ∈ as ∧ c.done = none
  | .sending routerErr backendErr => .closed i routerErr ∈ as ∧ .backend i backendErr ∈ as ∧ c.done = none
  | .finished routerErr backendErr => .closed i routerErr ∈ as ∧ .backend i backendErr ∈ as ∧
      (c.done = some (joinErrors [routerErr, backendErr]) ∨
        c.done = none ∧ c.place = .returned (joinErrors [routerErr, backendErr]))

def CallInv (as : List LifecycleAction) (s : Lifecycle) (i : ℕ) (c : ShutdownCall) : Prop :=
  Placed as s.shuttingDown i c ∧ Joined as i c

theorem Placed.mono {b b' : Bool} {i : ℕ} {c : ShutdownCall} (h : Placed as b i c) (hb : b = true → b' = true) :
    Placed (as ++ [a]) b' i c := by
  unfold Placed at h ⊢
  split at h
  · exact h
  · exact h.imp id hb
  · exact h.imp id hb
  · exact h.imp id (.imp hb (.imp id fun ⟨e, he, herr⟩ => ⟨e, List.mem_append_left _ he, herr⟩))

theorem Joined.mono {i : ℕ} {c : ShutdownCall} (h : Joined as i c) : Joined (as ++ [a]) i c := by
  unfold Joined at h ⊢
  split at h
  · exact h
  · exact h
  · exact h.imp (List.mem_append_left _) id
  · exact h.imp (List.mem_append_left _) (.imp (List.mem_append_left _) id)
  · exact h.imp (List.mem_append_left _) (.imp (List.mem_append_left _) id)

/-- A goroutine that is not through has sent nothing. -/
theorem Joined.done_eq_none {i : ℕ} {c : ShutdownCall} (h : Joined as i c)
    (hne : ∀ routerErr backendErr, c.closer ≠ .finished routerErr backendErr) : c.done = none := by
  unfold Joined at h
  split at h
  · exact h
  · exact h
  · exact h.2
  · exact h.2.2
  · exact absurd (by assumption) (hne _ _)

/-- What is so of all calls. -/
def CallsInv (as : List LifecycleAction) (s : Lifecycle) : Prop :=
  ∀ i c, s.shutdowns[i]? = some c → s.CallInv as i c

theorem next_callsInv (hi : CallsInv as s) (h : s.next a = some s') : CallsInv (as ++ [a]) s' := by
  have hkeep (hdown : s.shuttingDown = true → s'.shuttingDown = true) :
      ∀ i c, s.shutdowns[i]? = some c → s'.CallInv (as ++ [a]) i c :=
    fun i c hc => (hi i c hc).imp (·.mono hdown) Joined.mono
  have hlast : a ∈ as ++ [a] := List.mem_append_right _ (List.mem_singleton_self a)
  cases a with
  | shutdown =>
      cases h
      exact Pool.forall_getElem?_append (hkeep id) ⟨rfl, rfl⟩
  | store i =>
      simp only [next] at h
      split at h <;> cases h
      rename_i closer done hc
      obtain ⟨hplaced, hjoined⟩ := hi i _ hc
      cases hplaced
      exact Pool.forall_getElem?_set (hkeep fun _ => rfl) ⟨⟨rfl, rfl⟩, hjoined⟩
  | launch i =>
      simp only [next] at h
      split at h <;> cases h
      rename_i closer done hc
      obtain ⟨⟨rfl, hdown⟩, hjoined⟩ := hi i _ hc
      exact Pool.forall_getElem?_set (hkeep id) ⟨⟨by simp, hdown⟩, hjoined⟩
  | closed i err =>
      simp only [next] at h
      split at h <;> cases h
      rename_i place done hc
      obtain ⟨hplaced, hjoined⟩ := hi i _ hc
      refine Pool.forall_getElem?_set (hkeep id) ⟨?_, hlast, hjoined⟩
      cases place <;> simp_all [Placed]
  | backend i err =>
      simp only [next] at h
      split at h <;> cases h
      rename_i place routerErr done hc
      obtain ⟨hplaced, hclosed, hdone⟩ := hi i _ hc
      refine Pool.forall_getElem?_set (hkeep id) ⟨?_, List.mem_append_left _ hclosed, hlast, hdone⟩
      cases place <;> simp_all [Placed]
  | sendDone i =>
      simp only [next] at h
      split at h <;> cases h
      rename_i place routerErr backendErr hc
      obtain ⟨hplaced, hclosed, hbackend, -⟩ := hi i _ hc
      refine Pool.forall_getElem?_set (hkeep id)
        ⟨?_, List.mem_append_left _ hclosed, List.mem_append_left _ hbackend, .inl rfl⟩
      cases place <;> simp_all [Placed]
  | done i =>
      simp only [next] at h
      split at h <;> cases h
      rename_i closer err hc
      obtain ⟨⟨hne, hdown⟩, hjoined⟩ := hi i _ hc
      cases closer with
      | finished routerErr backendErr =>
          obtain ⟨hclosed, hbackend, hsome | ⟨hnone, -⟩⟩ := hjoined
          · cases hsome
            exact Pool.forall_getElem?_set (hkeep id) ⟨⟨hne, hdown, .inl ⟨_, _, rfl, rfl⟩⟩,
              List.mem_append_left _ hclosed, List.mem_append_left _ hbackend, .inr ⟨rfl, rfl⟩⟩
          · cases hnone
      | _ => cases hjoined.done_eq_none (by simp)
  | timeout i err =>
      simp only [next] at h
      split at h <;> cases h
      rename_i closer done hc
      obtain ⟨⟨hne, hdown⟩, hjoined⟩ := hi i _ hc
      refine Pool.forall_getElem?_set (hkeep id) ⟨⟨hne, hdown, .inr ⟨err, hlast, rfl⟩⟩, ?_⟩
      replace hjoined := hjoined.mono (a := .timeout i err)
      cases closer with
      | finished routerErr backendErr =>
          refine hjoined.imp id (.imp id (Or.imp id fun ⟨_, hplace⟩ => ?_))
          cases hplace
      | _ => exact hjoined
  | _ =>
      simp only [next, closeErrors] at h
      repeat' split at h
      all_goals cases h
      all_goals exact hkeep id

theorem init_callsInv : CallsInv [] init := fun _ _ hc => by cases hc

theorem runs_callsInv (h : runs next init as = some s) : CallsInv as s :=
  runs_history next_callsInv init_callsInv h

/-! ## What is reported -/

/-- Nothing was sent, and `monitor` will find that the router was meant to stop. -/
structure Quiet (s : Lifecycle) : Prop where
  sent : s.sent = []
  monitor : ∀ err, s.monitor ≠ .sending err
  meant : s.shuttingDown = true ∨ s.ctxErr.isSome = true ∧ ∀ err, s.monitor ≠ .loading err

theorem next_quiet (hq : s.Quiet) (h : s.next a = some s') : s'.Quiet := by
  obtain ⟨hsent, hmonitor, hmeant⟩ := hq
  cases a with
  | check =>
      simp only [next] at h
      split at h <;> cases h
      refine ⟨hsent, fun err => by split <;> simp, ?_⟩
      rcases hmeant with hdown | ⟨hctx, -⟩
      · exact .inl hdown
      · exact .inr ⟨hctx, fun err => by simp [hctx]⟩
  | load =>
      simp only [next] at h
      split at h <;> cases h
      rename_i err hloading
      rcases hmeant with hdown | ⟨-, hnot⟩
      · exact ⟨hsent, fun err => by simp [hdown], .inl hdown⟩
      · exact absurd hloading (hnot err)
  | send =>
      simp only [next] at h
      cases h
  | expire err =>
      simp only [next] at h
      split at h <;> cases h
      exact ⟨hsent, hmonitor, hmeant.imp id (.imp (fun _ => rfl) id)⟩
  | store i =>
      simp only [next] at h
      split at h <;> cases h
      exact ⟨hsent, hmonitor, .inl rfl⟩
  | _ =>
      simp only [next, closeErrors] at h
      repeat' split at h
      all_goals cases h
      all_goals first | exact ⟨hsent, hmonitor, hmeant⟩ | exact ⟨hsent, by simp, hmeant.imp id (.imp id (by simp))⟩

theorem Places.reported (hp : s.Places) :
    s.sent = [] ∨ s.start = .returned none ∧ ∃ err, s.run = .finished err ∧ s.sent = [stopError err] := by
  have hreported (hstart : s.start = .returned none) (h : s.Reported) : s.sent = [] ∨
      s.start = .returned none ∧ ∃ err, s.run = .finished err ∧ s.sent = [stopError err] := by
    obtain ⟨err, hrun, hsent | ⟨hsent, -⟩⟩ := h
    · exact .inr ⟨hstart, err, hrun, hsent⟩
    · exact .inl hsent
  unfold Places at hp
  split at hp
  case h_7 => exact .inl hp.1
  case h_12 hstart _ => exact hreported hstart hp.2
  case h_13 hstart _ => exact hreported hstart hp.2.2
  case h_14 hstart _ => exact hreported hstart hp.2.2
  case h_15 => exact hp.elim
  all_goals exact .inl hp.1.1

/-- In every interleaving of `Start`, the goroutine that runs the router, `monitor`, any number of
calls of `Shutdown`, the end of the context and the reader of `Errors`: the channel is never
closed twice nor sent on after it was closed, and a send always finds room. At most one error
is sent, after a `Start` that returned nil, and it tells how `Run` ended. A `Start` that returned
an error has canceled the router and closed the channel, on which nothing was sent. Once the
router is meant to stop before `monitor` looks, nothing is ever sent. Every call of `Shutdown` sets
`shuttingDown` before it closes anything, shuts the backend down after the router was closed,
and returns what closing the two came to, or the error of the context on which it gave up. -/
theorem errors_reported (h : runs next init as = some s) :
    s.panicked = false ∧ s.received ++ s.errors = s.sent ∧
      (∀ err, s.monitor = .sending err → s.errors = [] ∧ s.errorsClosed = false) ∧
      (s.sent = [] ∨ s.start = .returned none ∧ ∃ err, s.run = .finished err ∧ s.sent = [stopError err]) ∧
      (∀ err, s.start = .returned (some err) → s.canceled = true ∧ s.errorsClosed = true ∧ s.sent = []) ∧
      (s.Quiet → ∀ bs s', runs next s bs = some s' → s'.sent = []) ∧
      (∀ c ∈ s.shutdowns, c.closer ≠ .idle → s.shuttingDown = true) ∧
      ∀ i c, s.shutdowns[i]? = some c → ∀ err, c.place = .returned err →
        (∃ routerErr backendErr, c.closer = .finished routerErr backendErr ∧ .closed i routerErr ∈ as ∧
          .backend i backendErr ∈ as ∧ err = joinErrors [routerErr, backendErr]) ∨
        ∃ e, .timeout i e ∈ as ∧ err = some e.err := by
  obtain ⟨hplaces, -, -, hqueue, hpanicked⟩ : s.ErrorsInv := runs_invariant next_errorsInv init_errorsInv h
  refine ⟨hpanicked, hqueue, fun err hmonitor => ?_, hplaces.reported, fun err hstart => ?_,
    fun hquiet bs s' hrun => (runs_invariant next_quiet hquiet hrun).sent, fun c hc hcloser => ?_,
    fun i c hc err hplace => ?_⟩
  · obtain ⟨-, ⟨hsent, hopen⟩, -⟩ := hplaces.at_monitor hmonitor (by simp)
    rw [show s.sent = [] from hsent] at hqueue
    exact ⟨(List.append_eq_nil_iff.mp hqueue).2, hopen⟩
  · obtain ⟨-, hsent, hclosed, -, hcanceled⟩ := hplaces.at_start hstart (by simp)
    exact ⟨hcanceled, hclosed, hsent⟩
  · obtain ⟨i, hget⟩ := List.mem_iff_getElem?.mp hc
    have hplaced := (runs_callsInv h i c hget).1
    unfold Placed at hplaced
    split at hplaced
    · exact absurd hplaced hcloser
    · exact hplaced.2
    · exact hplaced.2
    · exact hplaced.2.1
  · obtain ⟨hplaced, hjoined⟩ := runs_callsInv h i c hc
    rw [Placed, hplace] at hplaced
    refine hplaced.2.2.imp (fun ⟨routerErr, backendErr, hcloser, herr⟩ => ?_) id
    rw [Joined, hcloser] at hjoined
    exact ⟨routerErr, backendErr, hcloser, hjoined.1, hjoined.2.1, herr⟩

/-- A router that loses its broker, and is shut down afterwards. -/
def lostRun : List LifecycleAction :=
  [.start, .running, .selectRunning, .checkStart, .spawn, .stop (some (.leaf "connection lost")), .sendRunErr,
    .receiveRunErr, .check, .load, .send, .cancel, .close, .receive, .shutdown, .store 0, .launch 0,
    .closed 0 none, .backend 0 (some (.leaf "closed")), .sendDone 0, .done 0]

theorem errors_reported_lost : ∃ s, runs next init lostRun = some s ∧
    s.received = [stopError (some (.leaf "connection lost"))] ∧ s.panicked = false ∧
    s.run = .finished (some (.leaf "connection lost")) := by
  obtain ⟨s, h, hreceived, herrors⟩ : ∃ s, runs next init lostRun = some s ∧
      s.received = [stopError (some (.leaf "connection lost"))] ∧ s.errors = [] := ⟨_, rfl, rfl, rfl⟩
  obtain ⟨hpanicked, hqueue, -, hsent | ⟨-, err, hrun, hsent⟩, -⟩ := errors_reported h
  · rw [hsent, hreceived] at hqueue
    cases hqueue
  · rw [hsent, hreceived, herrors] at hqueue
    cases err with
    | none => exact absurd hqueue (by decide)
    | some err =>
        cases hqueue
        exact ⟨s, h, hreceived, hpanicked, hrun⟩

/-! ## Coming to rest -/

/-- What is left to do, by the place of each goroutine. -/
def runRank : RunPlace → ℕ
  | .sending _ => 1
  | _ => 0

def startRank : StartPlace → ℕ
  | .idle | .returned _ => 0
  | .selecting => 10
  | .ready => 9
  | .canceling _ => 2
  | .closing _ => 1
  | .spawning => 8

def monitorRank : MonitorPlace → ℕ
  | .idle | .finished => 0
  | .waiting => 6
  | .checking _ => 5
  | .loading _ => 4
  | .sending _ => 3
  | .canceling => 2
  | .closing => 1

def shutdownRank : ShutdownPlace → ℕ
  | .storing => 3
  | .launching => 2
  | .selecting => 1
  | .returned _ => 0

def closerRank : CloserPlace → ℕ
  | .sending _ _ => 1
  | _ => 0

def callRank (c : ShutdownCall) : ℕ := shutdownRank c.place + closerRank c.closer

def rank (s : Lifecycle) : ℕ :=
  runRank s.run + startRank s.start + monitorRank s.monitor + (s.shutdowns.map callRank).sum

theorem rank_set {i : ℕ} {c : ShutdownCall} (hc : s.shutdowns[i]? = some c) (c' : ShutdownCall) (down : Bool) :
    rank { s with shuttingDown := down, shutdowns := s.shutdowns.set i c' } + callRank c =
      s.rank + callRank c' := by
  have hset := Pool.sum_map_set (f := callRank) (y := c') hc
  simp only [rank]
  omega

theorem rank_call_lt {i : ℕ} {c c' : ShutdownCall} (hc : s.shutdowns[i]? = some c) {down : Bool}
    (h : callRank c' < callRank c) :
    rank { s with shuttingDown := down, shutdowns := s.shutdowns.set i c' } < s.rank := by
  have := rank_set hc c' down
  omega

theorem rank_call_le {i : ℕ} {c c' : ShutdownCall} (hc : s.shutdowns[i]? = some c)
    (h : callRank c' ≤ callRank c + 10) :
    rank { s with shutdowns := s.shutdowns.set i c' } ≤ s.rank + 10 := by
  have := rank_set hc c' s.shuttingDown
  omega

theorem ranked : Ranked next LifecycleAction.own rank 10 where
  lowers {s s' a} h ha := by
    cases a with
    | spawn =>
        simp only [next] at h
        split at h <;> cases h
        rename_i hstart
        have hwaiting : monitorRank .waiting = 6 := rfl
        simp only [rank, hstart, startRank, hwaiting]
        omega
    | store i =>
        simp only [next] at h
        split at h <;> cases h
        exact rank_call_lt (by assumption) (by simp [callRank, shutdownRank])
    | launch i =>
        simp only [next] at h
        split at h <;> cases h
        have hrouter : closerRank .router = 0 := rfl
        exact rank_call_lt (by assumption) (by simp only [callRank, shutdownRank, hrouter]; omega)
    | sendDone i =>
        simp only [next] at h
        split at h <;> cases h
        exact rank_call_lt (by assumption) (by simp [callRank, closerRank])
    | done i =>
        simp only [next] at h
        split at h <;> cases h
        exact rank_call_lt (by assumption) (by simp [callRank, shutdownRank])
    | start | running | stop | expire | receive | shutdown | closed | backend | timeout => cases ha
    | _ =>
        simp only [next, closeErrors] at h
        repeat' split at h
        all_goals cases h
        all_goals simp [rank, runRank, startRank, monitorRank, *]
  env {s s' a} h ha := by
    cases a with
    | start =>
        simp only [next] at h
        split at h <;> cases h
        have hrunning : runRank .running = 0 := rfl
        simp only [rank, startRank, hrunning]
        omega
    | shutdown =>
        cases h
        simp [rank, callRank, shutdownRank, closerRank, Nat.add_assoc]
    | closed | backend =>
        simp only [next] at h
        split at h <;> cases h
        exact rank_call_le (by assumption) (by simp [callRank, closerRank])
    | timeout i err =>
        simp only [next] at h
        split at h <;> cases h
        exact rank_call_le (by assumption) (by simp only [callRank, shutdownRank]; omega)
    | stop err =>
        simp only [next] at h
        split at h <;> cases h
        rename_i hrun
        simp only [rank, runRank, hrun]
        omega
    | running | expire | receive =>
        simp only [next] at h
        split at h <;> cases h
        simp [rank]
    | _ => cases ha

variable (hrest : AtRest next LifecycleAction.own s)
include hrest

theorem shutdown_of_atRest (hi : CallsInv as s) {c : ShutdownCall} (hc : c ∈ s.shutdowns) :
    (∃ err, c.place = .returned err) ∨
      c.place = .selecting ∧ (c.closer = .router ∨ ∃ err, c.closer = .backend err) := by
  obtain ⟨i, hget⟩ := List.mem_iff_getElem?.mp hc
  obtain ⟨hplaced, hjoined⟩ := hi i c hget
  obtain ⟨place, closer, done⟩ := c
  cases place with
  | storing => have := hrest (.store i) rfl; simp [next, hget] at this
  | launching => have := hrest (.launch i) rfl; simp [next, hget] at this
  | returned err => exact .inl ⟨err, rfl⟩
  | selecting =>
      refine .inr ⟨rfl, ?_⟩
      cases closer with
      | idle => exact absurd rfl hplaced.1
      | router => exact .inl rfl
      | backend err => exact .inr ⟨err, rfl⟩
      | sending routerErr backendErr =>
          obtain rfl := hjoined.2.2
          have := hrest (.sendDone i) rfl
          simp [next, hget] at this
      | finished routerErr backendErr =>
          -- its result waits in the buffer
          obtain hsome | ⟨-, hplace⟩ := hjoined.2.2
          · obtain rfl := hsome
            have := hrest (.done i) rfl
            simp [next, hget] at this
          · cases hplace

theorem run_of_atRest (hi : s.ErrorsInv) (err : Option GoError) : s.run ≠ .sending err := by
  intro hrun
  cases hrunErr : s.runErr with
  | none => have := hrest .sendRunErr rfl; simp [next, hrun, hrunErr] at this
  | some err' => cases hrun.symm.trans (hi.result err' hrunErr)

theorem start_of_atRest (hi : s.ErrorsInv) :
    s.start = .idle ∨ (∃ err, s.start = .returned err) ∨
      s.start = .selecting ∧ s.run = .running ∧ s.isRunning = false := by
  cases hstart : s.start with
  | idle => exact .inl rfl
  | returned err => exact .inr (.inl ⟨err, rfl⟩)
  | ready => have := hrest .checkStart rfl; simp [next, hstart] at this
  | canceling err => have := hrest .cancelStart rfl; simp [next, hstart] at this
  | closing err => have := hrest .closeStart rfl; simp [next, hstart] at this
  | spawning => have := hrest .spawn rfl; simp [next, hstart] at this
  | selecting =>
      refine .inr (.inr ⟨rfl, ?_, ?_⟩)
      · obtain ⟨-, -, hne⟩ := hi.places.at_start hstart (by simp)
        cases hrun : s.run with
        | idle => exact absurd hrun hne
        | running => rfl
        | sending err => exact absurd hrun (run_of_atRest hrest hi err)
        | finished err =>
            have := hrest .selectRunErr rfl
            simp [next, hstart, hi.unread err hrun (.inl hstart)] at this
      · cases hrunning : s.isRunning with
        | false => rfl
        | true => have := hrest .selectRunning rfl; simp [next, hstart, hrunning] at this

theorem monitor_of_atRest (hi : s.ErrorsInv) {err : Option GoError} (hrun : s.run = .finished err)
    (hstart : s.start = .returned none) : s.monitor = .finished := by
  have hplaces := hi.places
  cases hmonitor : s.monitor with
  | idle => simp [Places, hstart, hmonitor] at hplaces
  | waiting =>
      have := hrest .receiveRunErr rfl
      simp [next, hmonitor, hi.unread err hrun (.inr (.inr (.inr hmonitor)))] at this
  | checking err => have := hrest .check rfl; simp [next, hmonitor] at this
  | loading err => have := hrest .load rfl; simp [next, hmonitor] at this
  | sending err =>
      -- the channel is open and there is room
      obtain ⟨-, ⟨hsent, hopen⟩, -⟩ := hplaces.at_monitor hmonitor (by simp)
      have hqueue := hi.queue
      rw [show s.sent = [] from hsent] at hqueue
      have := hrest .send rfl
      simp [next, hmonitor, (List.append_eq_nil_iff.mp hqueue).2, show s.errorsClosed = false from hopen] at this
  | canceling => have := hrest .cancel rfl; simp [next, hmonitor] at this
  | closing => have := hrest .close rfl; simp [next, hmonitor] at this
  | finished => rfl

omit hrest

/-- The code takes a bounded number of steps for what Watermill, the backend, the contexts and the
callers do, and always comes to rest. At rest every call of `Shutdown` has returned or waits for
the router or the backend; `Start` has returned, unless the router neither came to run nor
stopped; and once it has stopped, its context is canceled and `Errors` is closed, with an
error on it unless `Start` returned one or the router was meant to stop. -/
theorem comes_to_rest (h : runs next init as = some s) :
    as.countP LifecycleAction.own ≤ 10 * as.countP (fun a => !a.own) ∧
      (∃ bs s', (∀ b ∈ bs, LifecycleAction.own b = true) ∧ runs next s bs = some s' ∧
        AtRest next LifecycleAction.own s') ∧
      (AtRest next LifecycleAction.own s →
        (∀ c ∈ s.shutdowns, (∃ err, c.place = .returned err) ∨
          c.place = .selecting ∧ (c.closer = .router ∨ ∃ err, c.closer = .backend err)) ∧
        (s.start = .idle ∨ (∃ err, s.start = .returned err) ∨
          s.start = .selecting ∧ s.run = .running ∧ s.isRunning = false) ∧
        (s.run = .idle ∨ s.run = .running ∨
          ∃ err, s.run = .finished err ∧ s.canceled = true ∧ s.errorsClosed = true ∧
            ((∃ e, s.start = .returned (some e)) ∧ s.sent = [] ∨
              s.start = .returned none ∧ (s.sent = [stopError err] ∨
                s.sent = [] ∧ (s.ctxErr.isSome = true ∨ s.shuttingDown = true))))) := by
  have hi : s.ErrorsInv := runs_invariant next_errorsInv init_errorsInv h
  have hbound := ranked.bound h
  rw [show rank init = 0 from rfl] at hbound
  refine ⟨by omega, ranked.exists_atRest s, fun hrest => ⟨fun c hc =>
    shutdown_of_atRest hrest (runs_callsInv h) hc, start_of_atRest hrest hi, ?_⟩⟩
  cases hrun : s.run with
  | idle => exact .inl rfl
  | running => exact .inr (.inl rfl)
  | sending err => exact absurd hrun (run_of_atRest hrest hi err)
  | finished err =>
      refine .inr (.inr ⟨err, rfl, ?_⟩)
      rcases start_of_atRest hrest hi with hstart | ⟨e, hstart⟩ | ⟨-, hrunning, -⟩
      · obtain ⟨-, -, hidle⟩ := hi.places.at_start hstart (by simp)
        cases hrun.symm.trans hidle
      · cases e with
        | some e =>
            obtain ⟨-, hsent, hclosed, -, hcanceled⟩ := hi.places.at_start hstart (by simp)
            exact ⟨hcanceled, hclosed, .inl ⟨⟨e, hstart⟩, hsent⟩⟩
        | none =>
            have hmonitor := monitor_of_atRest hrest hi hrun hstart
            obtain ⟨-, hclosed, hcanceled, err', hrun', hreported⟩ := hi.places.at_monitor hmonitor (by simp)
            cases hrun.symm.trans hrun'
            exact ⟨hcanceled, hclosed, .inr ⟨hstart, hreported⟩⟩
      · cases hrun.symm.trans hrunning

/-- A router that is shut down while it runs. -/
def shutDownRun : List LifecycleAction :=
  [.start, .running, .selectRunning, .checkStart, .spawn, .shutdown, .store 0, .launch 0, .stop none, .sendRunErr,
    .receiveRunErr, .check, .load, .cancel, .close, .closed 0 none, .backend 0 none, .sendDone 0, .done 0]

theorem comes_to_rest_shutDown : ∃ s bs s', runs next init shutDownRun = some s ∧
    (∀ b ∈ bs, LifecycleAction.own b = true) ∧ runs next s bs = some s' ∧
    AtRest next LifecycleAction.own s' := by
  obtain ⟨s, h⟩ : ∃ s, runs next init shutDownRun = some s := ⟨_, rfl⟩
  obtain ⟨-, ⟨bs, s', hown, hrun, hrest⟩, -⟩ := comes_to_rest h
  exact ⟨s, bs, s', h, hown, hrun, hrest⟩

end Lifecycle
end Go42.Events
