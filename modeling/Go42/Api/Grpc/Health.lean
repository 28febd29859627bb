-- SUMMARY: The health status of the gRPC server: the monitor goroutine, `Shutdown`, and who has the last word on the status.
import Go42.Api.Http.Server

/-!
# gRPC health

The monitor runs the readiness check at intervals and writes its result to the health
server; `Shutdown` cancels the monitor and writes `NOT_SERVING` itself. The two are not
synchronised otherwise: a write of `SERVING` that has begun can still land after the
`NOT_SERVING` of `Shutdown`.
-/

namespace Go42.Api.Grpc

open Events (CtxErr)

def serveError (err : Option GoError) : GoError := Api.serveError "grpc server: " err

/-- The options that the health status depends on. -/
structure HealthConfig where
  /-- `s.readyCheck != nil`. -/
  readyCheck : Bool
  /-- `s.readinessCtx != nil`. -/
  readinessCtx : Bool
deriving DecidableEq

inductive ServingStatus where
  | serving
  | notServing
deriving DecidableEq

/-- Where `monitorHealth` stands. -/
inductive Monitor where
  /-- `startHealthMonitor` did not start it. -/
  | absent
  /-- `<-ctx.Done()`, without a readiness check. -/
  | awaiting
  /-- `s.readyCheck(checkCtx)`. -/
  | checking
  /-- The check has returned: `ctx.Err()`. -/
  | checked (healthy : Bool)
  /-- `s.healthServer.SetServingStatus("", status)` of `updateHealthStatus`. -/
  | writing (status : ServingStatus)
  | selecting
  /-- `SetServingStatus` on the way out. -/
  | stopping
  | finished
deriving DecidableEq

/-- Where a call of `Shutdown` stands. -/
inductive ShutdownPlace where
  /-- `s.shuttingDown.Store(true)`. -/
  | storing
  /-- `s.healthMonitorCancel()`. -/
  | canceling
  /-- `s.healthServer.SetServingStatus("", NOT_SERVING)`. -/
  | writing
  | selecting
  /-- `s.grpcServer.Stop()` was called: `<-stopped`. -/
  | aborting (err : CtxErr)
  | returned (err : Option CtxErr)
deriving DecidableEq

structure Health where
  status : ServingStatus
  monitor : Monitor
  /-- The context of the monitor is done. -/
  done : Bool
  shuttingDown : Bool
  shutdowns : List ShutdownPlace
  /-- What the last readiness check said. -/
  last : Option Bool
  /-- How often `SERVING` was written. -/
  served : ℕ
deriving DecidableEq

inductive HealthAction where
  /-- The context given to `WithReadinessContext` is done. -/
  | cancelParent
  /-- `<-ctx.Done()`. -/
  | ctxDone
  /-- `readyCheck` returns. -/
  | checkReturns (healthy : Bool)
  | decide
  | write
  /-- `<-ticker.C`. -/
  | tick
  | leave
  | shutdown
  | storeShutdown (i : ℕ)
  | cancel (i : ℕ)
  | writeShutdown (i : ℕ)
  /-- `<-stopped`. -/
  | stopped (i : ℕ)
  /-- `<-ctx.Done()` of `Shutdown`. -/
  | timeout (i : ℕ) (err : CtxErr)
deriving DecidableEq

namespace Health

/-- `startHealthMonitor`. -/
def startHealthMonitor (cfg : HealthConfig) : Monitor :=
  if cfg.readinessCtx = false ∧ cfg.readyCheck = false then .absent
  else if cfg.readyCheck then .checking else .awaiting

/-- The end of `New`. -/
def init (cfg : HealthConfig) : Health where
  status := if cfg.readyCheck then .notServing else .serving
  monitor := startHealthMonitor cfg
  done := false
  shuttingDown := false
  shutdowns := []
  last := none
  served := 0

def next (cfg : HealthConfig) (s : Health) : HealthAction → Option Health
  | .cancelParent => if cfg.readinessCtx then some { s with done := true } else none
  | .ctxDone =>
    match s.monitor, s.done with
    | .awaiting, true => some { s with monitor := .stopping }
    | .selecting, true => some { s with monitor := .stopping }
    | _, _ => none
  | .checkReturns healthy =>
    match s.monitor with
    | .checking => some { s with monitor := .checked healthy, last := some healthy }
    | _ => none
  | .decide =>
    match s.monitor with
    | .checked healthy =>
      if s.done then some { s with monitor := .writing .notServing }
      else if healthy then some { s with monitor := .writing .serving }
      else some { s with monitor := .writing .notServing }
    | _ => none
  | .write =>
    match s.monitor with
    | .writing .serving => some { s with monitor := .selecting, status := .serving, served := s.served + 1 }
    | .writing .notServing => some { s with monitor := .selecting, status := .notServing }
    | _ => none
  | .tick =>
    match s.monitor with
    | .selecting => some { s with monitor := .checking }
    | _ => none
  | .leave =>
    match s.monitor with
    | .stopping => some { s with monitor := .finished, status := .notServing }
    | _ => none
  | .shutdown => some { s with shutdowns := s.shutdowns ++ [.storing] }
  | .storeShutdown i =>
    if s.shutdowns[i]? = some .storing then
      some { s with shutdowns := s.shutdowns.set i .canceling, shuttingDown := true }
    else none
  | .cancel i =>
    if s.shutdowns[i]? = some .canceling then
      some { s with
        shutdowns := s.shutdowns.set i .writing
        -- `healthMonitorCancel` is nil when there is no monitor
        done := s.done || s.monitor ≠ .absent }
    else none
  | .writeShutdown i =>
    if s.shutdowns[i]? = some .writing then
      some { s with shutdowns := s.shutdowns.set i .selecting, status := .notServing }
    else none
  | .stopped i =>
    match s.shutdowns[i]? with
    | some .selecting => some { s with shutdowns := s.shutdowns.set i (.returned none) }
    | some (.aborting err) => some { s with shutdowns := s.shutdowns.set i (.returned (some err)) }
    | _ => none
  | .timeout i err =>
    if s.shutdowns[i]? = some .selecting then
      some { s with shutdowns := s.shutdowns.set i (.aborting err) }
    else none

/-- The `NOT_SERVING` of this call of `Shutdown` was written. -/
def wrote : ShutdownPlace → Bool
  | .storing | .canceling | .writing => false
  | .selecting | .aborting _ | .returned _ => true

/-- The call has canceled the monitor. -/
def canceled : ShutdownPlace → Bool
  | .storing | .canceling => false
  | _ => true

/-! ## The invariant -/

variable {cfg : HealthConfig} {s s' : Health} {a : HealthAction} {as : List HealthAction}

/-- What the place of the monitor says. -/
def MonitorInv (cfg : HealthConfig) (s : Health) : Prop :=
  match s.monitor with
  | .absent | .awaiting => cfg.readyCheck = false
  | .checking | .selecting => cfg.readyCheck = true ∧ (s.status = .serving → s.last = some true)
  | .checked healthy => cfg.readyCheck = true ∧ s.last = some healthy
  | .writing status => cfg.readyCheck = true ∧ (status = .serving → s.last = some true)
  | .stopping => s.done = true ∧ (cfg.readyCheck = true → s.status = .serving → s.last = some true)
  | .finished => s.done = true ∧ s.status = .notServing

structure Inv (cfg : HealthConfig) (s : Health) : Prop where
  monitor : s.MonitorInv cfg
  shutdowns : ∀ c ∈ s.shutdowns, canceled c = true → s.done = true ∨ s.monitor = .absent

theorem init_inv : (init cfg).Inv cfg where
  monitor := by
    obtain ⟨readyCheck, readinessCtx⟩ := cfg
    cases readyCheck <;> cases readinessCtx <;> simp [MonitorInv, init, startHealthMonitor]
  shutdowns _ hc := absurd hc List.not_mem_nil

/-- The context of the monitor stays done. -/
theorem next_done (h : s.next cfg a = some s') (hdone : s.done = true) : s'.done = true := by
  cases a with
  | cancel i =>
      simp only [next] at h
      split at h <;> cases h
      simp [hdone]
  | _ =>
      simp only [next] at h
      repeat' split at h
      all_goals cases h
      all_goals first | exact hdone | rfl

theorem next_absent (h : s.next cfg a = some s') (habsent : s.monitor = .absent) : s'.monitor = .absent := by
  cases a <;> simp only [next, habsent] at h <;> (repeat' split at h) <;> cases h <;> rfl

/-- Whatever is not the monitor can only take `SERVING` away. -/
theorem MonitorInv.mono (hm : s.MonitorInv cfg) (hmonitor : s'.monitor = s.monitor) (hlast : s'.last = s.last)
    (hstatus : s'.status = s.status ∨ s'.status = .notServing) (hdone : s.done = true → s'.done = true) :
    s'.MonitorInv cfg := by
  have hserving : s'.status = .serving → s.status = .serving := by
    rcases hstatus with hsame | hnot
    · exact fun h => hsame ▸ h
    · exact fun h => by cases hnot.symm.trans h
  unfold MonitorInv at hm ⊢
  rw [hmonitor, hlast]
  cases hp : s.monitor with
  | absent => rw [hp] at hm; exact hm
  | awaiting => rw [hp] at hm; exact hm
  | checking => rw [hp] at hm; exact hm.imp id (· ∘ hserving)
  | selecting => rw [hp] at hm; exact hm.imp id (· ∘ hserving)
  | checked healthy => rw [hp] at hm; exact hm
  | writing status => rw [hp] at hm; exact hm
  | stopping => rw [hp] at hm; exact ⟨hdone hm.1, fun hready h => hm.2 hready (hserving h)⟩
  | finished => rw [hp] at hm; exact ⟨hdone hm.1, hstatus.elim (fun h => h.trans hm.2) id⟩

theorem next_inv (hi : s.Inv cfg) (h : s.next cfg a = some s') : s'.Inv cfg := by
  obtain ⟨hmonitor, hshutdowns⟩ := hi
  have hkeep {c : ShutdownPlace} (hc : c ∈ s.shutdowns) (hcanceled : canceled c = true) :
      s'.done = true ∨ s'.monitor = .absent :=
    (hshutdowns c hc hcanceled).imp (next_done h) (next_absent h)
  cases a with
  | cancelParent =>
      simp only [next] at h
      split at h <;> cases h
      exact ⟨hmonitor.mono rfl rfl (.inl rfl) fun _ => rfl, fun _ hc => hkeep hc⟩
  | ctxDone =>
      simp only [next] at h
      split at h <;> cases h
      · rename_i hp hdone
        rw [MonitorInv, hp] at hmonitor
        exact ⟨⟨hdone, fun hready => by cases hmonitor.symm.trans hready⟩, fun _ hc => hkeep hc⟩
      · rename_i hp hdone
        rw [MonitorInv, hp] at hmonitor
        exact ⟨⟨hdone, fun _ => hmonitor.2⟩, fun _ hc => hkeep hc⟩
  | checkReturns healthy =>
      simp only [next] at h
      split at h <;> cases h
      rename_i hp
      rw [MonitorInv, hp] at hmonitor
      exact ⟨⟨hmonitor.1, rfl⟩, fun _ hc => hkeep hc⟩
  | decide =>
      simp only [next] at h
      split at h
      · rename_i healthy hp
        rw [MonitorInv, hp] at hmonitor
        split at h
        · cases h
          exact ⟨⟨hmonitor.1, ServingStatus.noConfusion⟩, fun _ hc => hkeep hc⟩
        · split at h <;> cases h
          · rename_i hhealthy
            exact ⟨⟨hmonitor.1, fun _ => hhealthy ▸ hmonitor.2⟩, fun _ hc => hkeep hc⟩
          · exact ⟨⟨hmonitor.1, ServingStatus.noConfusion⟩, fun _ hc => hkeep hc⟩
      · cases h
  | write =>
      simp only [next] at h
      split at h <;> cases h
      · rename_i hp
        rw [MonitorInv, hp] at hmonitor
        exact ⟨⟨hmonitor.1, fun _ => hmonitor.2 rfl⟩, fun _ hc => hkeep hc⟩
      · rename_i hp
        rw [MonitorInv, hp] at hmonitor
        exact ⟨⟨hmonitor.1, ServingStatus.noConfusion⟩, fun _ hc => hkeep hc⟩
  | tick =>
      simp only [next] at h
      split at h <;> cases h
      rename_i hp
      rw [MonitorInv, hp] at hmonitor
      exact ⟨hmonitor, fun _ hc => hkeep hc⟩
  | leave =>
      simp only [next] at h
      split at h <;> cases h
      rename_i hp
      rw [MonitorInv, hp] at hmonitor
      exact ⟨⟨hmonitor.1, rfl⟩, fun _ hc => hkeep hc⟩
  | shutdown =>
      cases h
      refine ⟨hmonitor, fun c hc hcanceled => ?_⟩
      rcases List.mem_append.mp hc with hold | hnew
      · exact hkeep hold hcanceled
      · rw [List.mem_singleton.mp hnew] at hcanceled
        cases hcanceled
  | storeShutdown i =>
      simp only [next] at h
      split at h <;> cases h
      exact ⟨hmonitor, Pool.forall_set (fun _ => hkeep) Bool.noConfusion⟩
  | cancel i =>
      simp only [next] at h
      split at h <;> cases h
      refine ⟨hmonitor.mono rfl rfl (.inl rfl) fun hdone => by simp [hdone], ?_⟩
      refine Pool.forall_set (fun _ => hkeep) fun _ => ?_
      by_cases habsent : s.monitor = .absent
      · exact .inr habsent
      · exact .inl (by simp [habsent])
  | writeShutdown i =>
      simp only [next] at h
      split at h <;> cases h
      rename_i hi
      exact ⟨hmonitor.mono rfl rfl (.inr rfl) id,
        Pool.forall_set (fun _ => hkeep) fun _ => hshutdowns _ (List.mem_of_getElem? hi) rfl⟩
  | stopped i =>
      simp only [next] at h
      split at h <;> cases h
      all_goals rename_i hi
      all_goals exact ⟨hmonitor, Pool.forall_set (fun _ => hkeep)
        fun _ => hshutdowns _ (List.mem_of_getElem? hi) rfl⟩
  | timeout i err =>
      simp only [next] at h
      split at h <;> cases h
      rename_i hi
      exact ⟨hmonitor, Pool.forall_set (fun _ => hkeep) fun _ => hshutdowns _ (List.mem_of_getElem? hi) rfl⟩

/-! ## After the cancellation -/

/-- The monitor is canceled, and `SERVING` is written at most `bound` times. -/
structure Ending (bound : ℕ) (s : Health) : Prop where
  done : s.done = true
  served : s.served + (if s.monitor = .writing .serving then 1 else 0) ≤ bound

theorem next_ending {bound : ℕ} (he : s.Ending bound) (h : s.next cfg a = some s') : s'.Ending bound := by
  refine ⟨next_done h he.done, ?_⟩
  obtain ⟨hdone, hserved⟩ := he
  have hle : s.served ≤ bound := Nat.le_trans (Nat.le_add_right _ _) hserved
  cases a with
  | decide =>
      simp only [next, hdone] at h
      split at h <;> cases h
      simpa using hle
  | write =>
      simp only [next] at h
      split at h <;> cases h
      · rename_i hp
        simpa [hp] using hserved
      · simpa using hle
  | ctxDone => simp only [next] at h; split at h <;> cases h <;> simpa using hle
  | checkReturns healthy => simp only [next] at h; split at h <;> cases h; simpa using hle
  | tick => simp only [next] at h; split at h <;> cases h; simpa using hle
  | leave => simp only [next] at h; split at h <;> cases h; simpa using hle
  | _ =>
      simp only [next] at h
      repeat' split at h
      all_goals cases h
      all_goals exact hserved

/-- The monitor has returned, and nobody else writes `SERVING`. -/
structure Over (s : Health) : Prop where
  monitor : s.monitor = .finished ∨ s.monitor = .absent
  status : s.status = .notServing

theorem next_over (ho : s.Over) (h : s.next cfg a = some s') : s'.Over := by
  obtain ⟨hmonitor, hstatus⟩ := ho
  cases a with
  | writeShutdown i =>
      simp only [next] at h
      split at h <;> cases h
      exact ⟨hmonitor, rfl⟩
  | _ =>
      simp only [next] at h
      repeat' split at h
      all_goals cases h
      all_goals first | exact ⟨hmonitor, hstatus⟩ | simp_all

/-- Without a monitor, the first `Shutdown` that gets that far has the last word. -/
def Unmonitored (s : Health) : Prop :=
  s.monitor = .absent → ∀ c ∈ s.shutdowns, wrote c = true → s.status = .notServing

theorem next_unmonitored (hu : s.Unmonitored) (h : s.next cfg a = some s') : s'.Unmonitored := by
  intro habsent
  cases a with
  | shutdown =>
      cases h
      intro c hc hwrote
      rcases List.mem_append.mp hc with hold | hnew
      · exact hu habsent c hold hwrote
      · rw [List.mem_singleton.mp hnew] at hwrote
        cases hwrote
  | storeShutdown i =>
      simp only [next] at h
      split at h <;> cases h
      exact Pool.forall_set (hu habsent) Bool.noConfusion
  | cancel i =>
      simp only [next] at h
      split at h <;> cases h
      exact Pool.forall_set (hu habsent) Bool.noConfusion
  | writeShutdown i =>
      simp only [next] at h
      split at h <;> cases h
      exact fun _ _ _ => rfl
  | stopped i =>
      simp only [next] at h
      split at h <;> cases h
      all_goals rename_i hi
      all_goals exact Pool.forall_set (hu habsent) fun _ => hu habsent _ (List.mem_of_getElem? hi) rfl
  | timeout i err =>
      simp only [next] at h
      split at h <;> cases h
      rename_i hi
      exact Pool.forall_set (hu habsent) fun _ => hu habsent _ (List.mem_of_getElem? hi) rfl
  | cancelParent =>
      simp only [next] at h
      split at h <;> cases h
      exact hu habsent
  | _ =>
      simp only [next] at h
      repeat' split at h
      all_goals cases h
      all_goals cases habsent

/-! ## Coming to rest -/

/-- A step of the code, not of what it waits for. -/
def own : HealthAction → Bool
  | .ctxDone | .decide | .write | .leave | .storeShutdown _ | .cancel _ | .writeShutdown _ => true
  | _ => false

def monitorRank : Monitor → ℕ
  | .absent | .finished => 0
  | .stopping => 1
  | .awaiting | .selecting => 2
  | .writing _ => 3
  | .checked _ => 4
  | .checking => 5

def shutdownRank : ShutdownPlace → ℕ
  | .storing => 3
  | .canceling => 2
  | .writing => 1
  | .selecting | .aborting _ | .returned _ => 0

def rank (s : Health) : ℕ := monitorRank s.monitor + (s.shutdowns.map shutdownRank).sum

/-- A call of `Shutdown` goes on, and the monitor does not. -/
theorem rank_set {i : ℕ} {c : ShutdownPlace} (hc : s.shutdowns[i]? = some c) (c' : ShutdownPlace)
    (hshutdowns : s'.shutdowns = s.shutdowns.set i c') (hmonitor : s'.monitor = s.monitor) :
    s'.rank + shutdownRank c = s.rank + shutdownRank c' := by
  have hset := Pool.sum_map_set (f := shutdownRank) (y := c') hc
  rw [rank, rank, hshutdowns, hmonitor]
  omega

theorem rank_lt {i : ℕ} {c c' : ShutdownPlace} (hc : s.shutdowns[i]? = some c)
    (hshutdowns : s'.shutdowns = s.shutdowns.set i c') (hmonitor : s'.monitor = s.monitor)
    (h : shutdownRank c' < shutdownRank c) : s'.rank < s.rank := by
  have := rank_set hc c' hshutdowns hmonitor
  omega

theorem rank_le {i : ℕ} {c c' : ShutdownPlace} (hc : s.shutdowns[i]? = some c)
    (hshutdowns : s'.shutdowns = s.shutdowns.set i c') (hmonitor : s'.monitor = s.monitor)
    (h : shutdownRank c' = 0) : s'.rank ≤ s.rank + 3 := by
  have := rank_set hc c' hshutdowns hmonitor
  omega

theorem ranked : Ranked (next cfg) own rank 3 where
  lowers {s s' a} h ha := by
    cases a with
    | storeShutdown | cancel | writeShutdown =>
        simp only [next] at h
        split at h <;> cases h
        exact rank_lt (by assumption) rfl rfl (by decide)
    | ctxDone | decide | write | leave =>
        simp only [next] at h
        repeat' split at h
        all_goals cases h
        all_goals simp [rank, monitorRank, *]
    | _ => cases ha
  env {s s' a} h ha := by
    cases a with
    | shutdown =>
        cases h
        simp [rank, shutdownRank, Nat.add_assoc]
    | stopped | timeout =>
        simp only [next] at h
        split at h <;> cases h
        all_goals exact rank_le (by assumption) rfl rfl rfl
    | cancelParent | checkReturns | tick =>
        simp only [next] at h
        split at h <;> cases h
        simp [rank, monitorRank, *] <;> omega
    | _ => cases ha

/-- At rest, a call of `Shutdown` has canceled the monitor and written. -/
theorem wrote_of_atRest (hrest : AtRest (next cfg) own s) {c : ShutdownPlace} (hc : c ∈ s.shutdowns) :
    wrote c = true := by
  obtain ⟨i, hi⟩ := List.mem_iff_getElem?.mp hc
  cases c with
  | storing => have := hrest (.storeShutdown i) rfl; simp [next, hi] at this
  | canceling => have := hrest (.cancel i) rfl; simp [next, hi] at this
  | writing => have := hrest (.writeShutdown i) rfl; simp [next, hi] at this
  | _ => rfl

/-- At rest after a `Shutdown`, unless a readiness check does not return. -/
theorem Inv.over_of_atRest (hi : s.Inv cfg) (hu : s.Unmonitored) (hrest : AtRest (next cfg) own s)
    {c : ShutdownPlace} (hc : c ∈ s.shutdowns) (hchecking : s.monitor ≠ .checking) : s.Over := by
  have hwrote := wrote_of_atRest hrest hc
  have hcanceled : canceled c = true := by cases c <;> first | rfl | cases hwrote
  have hmonitor := hi.monitor
  have hdone (hne : s.monitor ≠ .absent) : s.done = true := (hi.shutdowns c hc hcanceled).resolve_right hne
  cases hp : s.monitor with
  | absent => exact ⟨.inr hp, hu hp c hc hwrote⟩
  | awaiting => have := hrest .ctxDone rfl; simp [next, hp, hdone (by simp [hp])] at this
  | checking => exact absurd hp hchecking
  | checked healthy =>
      have := hrest .decide rfl
      simp [next, hp, hdone (by simp [hp])] at this
  | writing status =>
      have := hrest .write rfl
      cases status <;> simp [next, hp] at this
  | selecting => have := hrest .ctxDone rfl; simp [next, hp, hdone (by simp [hp])] at this
  | stopping => have := hrest .leave rfl; simp [next, hp] at this
  | finished =>
      rw [MonitorInv, hp] at hmonitor
      exact ⟨.inl hp, hmonitor.2⟩

/-- `Shutdown` was called, and no readiness check is awaited. -/
structure Called (s : Health) : Prop where
  shutdowns : s.shutdowns ≠ []
  monitor : s.monitor ≠ .checking

/-- Only the ticker brings the monitor to a readiness check. -/
theorem next_called (hc : s.Called) (h : s.next cfg a = some s') (ha : own a = true) : s'.Called := by
  obtain ⟨hshutdowns, hmonitor⟩ := hc
  cases a with
  | storeShutdown | cancel | writeShutdown =>
      simp only [next] at h
      split at h <;> cases h
      exact ⟨by simpa using hshutdowns, hmonitor⟩
  | ctxDone | decide | write | leave =>
      simp only [next] at h
      repeat' split at h
      all_goals cases h
      all_goals exact ⟨hshutdowns, Monitor.noConfusion⟩
  | _ => cases ha

theorem runs_called (hc : s.Called) (h : runs (next cfg) s as = some s') (hown : ∀ a ∈ as, own a = true) :
    s'.Called := by
  induction as generalizing s with
  | nil => cases h; exact hc
  | cons a as ih =>
      obtain ⟨s₁, hstep, hrun⟩ := runs_cons.mp h
      obtain ⟨ha, has⟩ := List.forall_mem_cons.mp hown
      exact ih (next_called hc hstep ha) hrun has

/-- In every run of a server: with a readiness check, `SERVING` is what the last check said, but for
the time in which the monitor acts on a newer one. Once the monitor is canceled, `SERVING` is
written at most once more, and only by a write that has begun. The code takes a bounded number
of steps for what the contexts, the ticker, the check and the callers do, and always comes to
rest. Once `Shutdown` was called it does so with `NOT_SERVING`, unless a readiness check does
not return; it keeps that status whatever happens later. -/
theorem health_final (h : runs (next cfg) (init cfg) as = some s) :
    (cfg.readyCheck = true → s.status = .serving → s.last = some true ∨ (∃ healthy, s.monitor = .checked healthy) ∨
        s.monitor = .writing .notServing) ∧
      (s.done = true → ∀ bs s', runs (next cfg) s bs = some s' →
        s'.served ≤ s.served + (if s.monitor = .writing .serving then 1 else 0)) ∧
      as.countP own ≤ (init cfg).rank + 3 * as.countP (fun a => !own a) ∧
      (∃ bs s', (∀ b ∈ bs, own b = true) ∧ runs (next cfg) s bs = some s' ∧ AtRest (next cfg) own s' ∧
        (s.Called → s'.Called)) ∧
      (AtRest (next cfg) own s → s.Called → ∀ bs s', runs (next cfg) s bs = some s' → s'.status = .notServing) := by
  have hi : s.Inv cfg := runs_invariant next_inv init_inv h
  have hu : s.Unmonitored := runs_invariant next_unmonitored (fun _ _ hc => absurd hc List.not_mem_nil) h
  refine ⟨fun hready hserving => ?_, fun hdone bs s' hrun => ?_, ?_, ?_, fun hrest hcalled bs s' hrun => ?_⟩
  · have hmonitor := hi.monitor
    unfold MonitorInv at hmonitor
    cases hp : s.monitor with
    | absent => rw [hp] at hmonitor; cases hmonitor.symm.trans hready
    | awaiting => rw [hp] at hmonitor; cases hmonitor.symm.trans hready
    | checking => rw [hp] at hmonitor; exact .inl (hmonitor.2 hserving)
    | checked healthy => exact .inr (.inl ⟨healthy, rfl⟩)
    | writing status =>
        rw [hp] at hmonitor
        cases status with
        | serving => exact .inl (hmonitor.2 rfl)
        | notServing => exact .inr (.inr rfl)
    | selecting => rw [hp] at hmonitor; exact .inl (hmonitor.2 hserving)
    | stopping => rw [hp] at hmonitor; exact .inl (hmonitor.2 hready hserving)
    | finished => rw [hp] at hmonitor; cases hmonitor.2.symm.trans hserving
  · have he : s'.Ending _ := runs_invariant next_ending ⟨hdone, Nat.le_refl _⟩ hrun
    exact Nat.le_trans (Nat.le_add_right _ _) he.served
  · exact ranked.countP_le h
  · obtain ⟨bs, s', hown, hrun, hrest⟩ := ranked.exists_atRest s
    exact ⟨bs, s', hown, hrun, hrest, fun hcalled => runs_called hcalled hrun hown⟩
  · obtain ⟨c, hc⟩ := List.exists_mem_of_ne_nil _ hcalled.shutdowns
    have ho := hi.over_of_atRest hu hrest hc hcalled.monitor
    exact (runs_invariant (fun ho h => next_over ho h) ho hrun).status

/-- A check succeeds, `Shutdown` writes `NOT_SERVING`, and the monitor still writes its `SERVING`. -/
def lateRun : List HealthAction :=
  [.checkReturns true, .decide, .shutdown, .storeShutdown 0, .cancel 0, .writeShutdown 0, .write]

theorem health_final_late : ∃ s, runs (next ⟨true, true⟩) (init ⟨true, true⟩) lateRun = some s ∧
    s.status = .serving ∧ (∀ bs s', runs (next ⟨true, true⟩) s bs = some s' → s'.served ≤ 1) ∧
    ∃ bs s', (∀ b ∈ bs, own b = true) ∧ runs (next ⟨true, true⟩) s bs = some s' ∧
      ∀ cs t, runs (next ⟨true, true⟩) s' cs = some t → t.status = .notServing := by
  obtain ⟨s, h, hstatus, hdone, hserved, hmonitor, hshutdowns⟩ :
      ∃ s, runs (next ⟨true, true⟩) (init ⟨true, true⟩) lateRun = some s ∧ s.status = .serving ∧ s.done = true ∧
        s.served = 1 ∧ s.monitor = .selecting ∧ s.shutdowns ≠ [] := ⟨_, rfl, by decide⟩
  obtain ⟨-, hending, -, ⟨bs, s', hown, hrun, hrest, hcalled⟩, -⟩ := health_final h
  obtain ⟨-, -, -, -, hfinal⟩ := health_final (runs_trans h hrun)
  refine ⟨s, h, hstatus, fun bs s' hrun => ?_, bs, s', hown, hrun, hfinal hrest (hcalled ⟨hshutdowns, ?_⟩)⟩
  · simpa [hserved, hmonitor] using hending hdone bs s' hrun
  · simp [hmonitor]

end Health

end Go42.Api.Grpc
