-- SUMMARY: `shutdown`: the signal, the grace period, and the closers that are called one after another whatever becomes of each.
import Go42.Lib.GoError
import Go42.Lib.Progress
import Mathlib.Data.Int.Notation

/-!
# Graceful shutdown

After a signal a goroutine cancels the application context, waits for the probes to notice,
and calls the closers in order. Every call gets a context of its own within the grace
period, but may take as long as it likes. `shutdown` itself returns when the goroutine is
done or the grace period is over. Time passes between any two steps.
-/

namespace Go42.App

/-- The durations of `cfg.Core`. -/
structure CoreConfig where
  shutdownGracePeriod : ℤ
  shutdownWaitForProbe : ℤ
  shutdownComponentTimeout : ℤ
deriving DecidableEq

/-- A call `c.Shutdown(cmpCtx)`. -/
structure CloserCall where
  closer : ℕ
  begun : ℤ
  /-- The deadline of `cmpCtx`. -/
  deadline : ℤ
deriving DecidableEq

/-- A call that has returned. -/
structure CloserReturn extends CloserCall where
  ended : ℤ
  err : Option GoError
deriving DecidableEq

/-- Where `shutdown` stands. -/
inductive ShutdownMain where
  /-- `sig := <-sigChan`. -/
  | waiting
  /-- The last `select`, with a context that ends at `deadline`. -/
  | selecting (deadline : ℤ)
  | completed
  | timedOut
deriving DecidableEq

/-- Where its goroutine stands. -/
inductive Closing where
  | absent
  /-- `mainCancel()`. -/
  | canceling
  /-- `time.Sleep(cfg.Core.ShutdownWaitForProbe)`. -/
  | sleeping (wake : ℤ)
  /-- In the loop over the closers, of which these are left. -/
  | looping (left : List (Option ℕ))
  | calling (call : CloserCall) (left : List (Option ℕ))
  /-- `close(done)`. -/
  | finishing
  | finished
deriving DecidableEq

def ShutdownMain.rank : ShutdownMain → ℕ
  | selecting _ => 1
  | _ => 0

/-- What is left to do, for a list of `n` closers. -/
def Closing.rank (n : ℕ) : Closing → ℕ
  | absent => 0
  | canceling => 2 * n + 5
  | sleeping _ => 2 * n + 4
  | looping left => 2 * left.length + 2
  | calling _ left => 2 * left.length + 3
  | finishing => 1
  | finished => 0

structure Shutdown where
  now : ℤ
  /-- When the signal was received. -/
  signaled : Option ℤ
  main : ShutdownMain
  closing : Closing
  /-- How often `mainCancel` was called. -/
  canceled : ℕ
  returns : List CloserReturn
deriving DecidableEq

inductive ShutdownAction where
  | signal
  | tick (d : ℕ)
  | cancel
  | wake
  /-- The next turn of the loop, or its end. -/
  | turn
  /-- The closer returns. -/
  | ret (err : Option GoError)
  | finish
  /-- `<-done`. -/
  | receive
  /-- `<-ctx.Done()`. -/
  | timeout
deriving DecidableEq

/-- A step of `shutdown` and its goroutine. -/
def ShutdownAction.own : ShutdownAction → Bool
  | signal | tick _ | ret _ => false
  | _ => true

namespace Shutdown

/-- The deadline of `context.WithTimeout(ctx, timeout)`, where `ctx` ends at `parent`. -/
def withTimeout (now parent timeout : ℤ) : ℤ := if now + timeout ≤ parent then now + timeout else parent

/-- The end of the grace period. -/
def deadline (cfg : CoreConfig) (s : Shutdown) : ℤ := s.signaled.getD s.now + cfg.shutdownGracePeriod

def next (cfg : CoreConfig) (closers : List (Option ℕ)) (s : Shutdown) : ShutdownAction → Option Shutdown
  | .signal =>
    match s.main with
    | .waiting =>
      some { s with
        signaled := some s.now, main := .selecting (s.now + cfg.shutdownGracePeriod), closing := .canceling }
    | _ => none
  | .tick d => some { s with now := s.now + d }
  | .cancel =>
    match s.closing with
    | .canceling =>
      some { s with closing := .sleeping (s.now + cfg.shutdownWaitForProbe), canceled := s.canceled + 1 }
    | _ => none
  | .wake =>
    match s.closing with
    | .sleeping wake => if wake ≤ s.now then some { s with closing := .looping closers } else none
    | _ => none
  | .turn =>
    match s.closing with
    | .looping (none :: left) => some { s with closing := .looping left }
    | .looping (some c :: left) =>
      some { s with
        closing := .calling ⟨c, s.now, withTimeout s.now (s.deadline cfg) cfg.shutdownComponentTimeout⟩ left }
    | .looping [] => some { s with closing := .finishing }
    | _ => none
  | .ret err =>
    match s.closing with
    | .calling call left =>
      some { s with closing := .looping left, returns := s.returns ++ [⟨call, s.now, err⟩] }
    | _ => none
  | .finish =>
    match s.closing with
    | .finishing => some { s with closing := .finished }
    | _ => none
  | .receive =>
    match s.main, s.closing with
    | .selecting _, .finished => some { s with main := .completed }
    | _, _ => none
  | .timeout =>
    match s.main with
    | .selecting deadline => if deadline ≤ s.now then some { s with main := .timedOut } else none
    | _ => none

def init (now : ℤ) : Shutdown where
  now := now
  signaled := none
  main := .waiting
  closing := .absent
  canceled := 0
  returns := []

/-! ## The invariant -/

variable {cfg : CoreConfig} {closers : List (Option ℕ)} {s s' : Shutdown} {a : ShutdownAction} {now : ℤ}
variable {as : List ShutdownAction}

/-- The call that has not returned, if any. -/
def current (s : Shutdown) : List CloserCall :=
  match s.closing with
  | .calling call _ => [call]
  | _ => []

/-- The calls so far. -/
def calls (s : Shutdown) : List CloserCall := s.returns.map CloserReturn.toCloserCall ++ s.current

/-- What the loop has still to come to. -/
def left (closers : List (Option ℕ)) (s : Shutdown) : List (Option ℕ) :=
  match s.closing with
  | .absent | .canceling | .sleeping _ => closers
  | .looping left | .calling _ left => left
  | .finishing | .finished => []

/-- The calls are in order of time: each begins after the probes had their time and after the call
before it has returned. -/
structure Timely (cfg : CoreConfig) (s : Shutdown) (signaled : ℤ) : Prop where
  begun : ∀ c ∈ s.calls, signaled + cfg.shutdownWaitForProbe ≤ c.begun ∧
    c.deadline = withTimeout c.begun (signaled + cfg.shutdownGracePeriod) cfg.shutdownComponentTimeout
  ended : ∀ r ∈ s.returns, r.begun ≤ r.ended ∧ r.ended ≤ s.now
  ordered : s.returns.Pairwise fun r r' => r.ended ≤ r'.begun
  current : ∀ c ∈ s.current, c.begun ≤ s.now ∧ ∀ r ∈ s.returns, r.ended ≤ c.begun

/-- What the place of the goroutine says about the time. -/
def ClosingInv (cfg : CoreConfig) (s : Shutdown) (signaled : ℤ) : Prop :=
  match s.closing with
  | .absent => False
  | .canceling => s.canceled = 0
  | .sleeping wake => s.canceled = 1 ∧ signaled + cfg.shutdownWaitForProbe ≤ wake
  | _ => s.canceled = 1 ∧ signaled + cfg.shutdownWaitForProbe ≤ s.now

/-- What the place of `shutdown` says. -/
def MainInv (cfg : CoreConfig) (s : Shutdown) (signaled : ℤ) : Prop :=
  match s.main with
  | .waiting => False
  | .selecting deadline => deadline = signaled + cfg.shutdownGracePeriod
  | .completed => s.closing = .finished
  | .timedOut => signaled + cfg.shutdownGracePeriod ≤ s.now

structure Inv (cfg : CoreConfig) (closers : List (Option ℕ)) (s : Shutdown) : Prop where
  order : s.calls.map CloserCall.closer ++ (s.left closers).filterMap id = closers.filterMap id
  before : s.signaled = none → s.main = .waiting ∧ s.closing = .absent ∧ s.canceled = 0
  after : ∀ signaled, s.signaled = some signaled →
    signaled ≤ s.now ∧ s.MainInv cfg signaled ∧ s.ClosingInv cfg signaled ∧ s.Timely cfg signaled

theorem init_inv : (init now).Inv cfg closers where
  order := rfl
  before _ := ⟨rfl, rfl, rfl⟩
  after _ h := by cases h

/-- Before the loop there are no calls. -/
theorem Inv.no_calls (hi : s.Inv cfg closers) (hleft : s.left closers = closers) : s.calls = [] := by
  have horder := hi.order
  rw [hleft] at horder
  exact List.map_eq_nil_iff.mp (List.append_left_eq_self.mp horder)

/-- A step that makes no call and lets no time pass. -/
theorem Timely.congr {signaled : ℤ} (ht : s.Timely cfg signaled) (hreturns : s'.returns = s.returns)
    (hcurrent : s'.current = s.current) (hnow : s'.now = s.now) : s'.Timely cfg signaled where
  begun c hc := ht.begun c (by unfold calls at hc; rw [hreturns, hcurrent] at hc; exact hc)
  ended r hr := hnow ▸ ht.ended r (hreturns ▸ hr)
  ordered := hreturns ▸ ht.ordered
  current c hc := hnow ▸ hreturns ▸ ht.current c (hcurrent ▸ hc)

/-- The goroutine starts after the signal. -/
theorem Inv.signaled_ne (hi : s.Inv cfg closers) (hclosing : s.closing ≠ .absent) : s.signaled ≠ none :=
  fun hs => hclosing (hi.before hs).2.1

/-- `shutdown` itself goes no further while its goroutine does. -/
theorem MainInv.congr {signaled : ℤ} (hm : s.MainInv cfg signaled) (hmain : s'.main = s.main)
    (hnow : s.now ≤ s'.now) (hclosing : s.closing = .finished → s'.closing = .finished) :
    s'.MainInv cfg signaled := by
  unfold MainInv at hm ⊢
  rw [hmain]
  cases hp : s.main with
  | waiting => rw [hp] at hm; exact hm
  | selecting deadline => rw [hp] at hm; exact hm
  | completed => rw [hp] at hm; exact hclosing hm
  | timedOut => rw [hp] at hm; exact Int.le_trans hm hnow

theorem next_inv (hi : s.Inv cfg closers) (h : s.next cfg closers a = some s') : s'.Inv cfg closers := by
  have horder := hi.order
  cases a with
  | signal =>
      simp only [next] at h
      split at h <;> cases h
      rename_i hwaiting
      have hnone : s.signaled = none := by
        cases hs : s.signaled with
        | none => rfl
        | some signaled =>
            have := (hi.after signaled hs).2.1
            rw [MainInv, hwaiting] at this
            exact this.elim
      obtain ⟨-, habsent, hcanceled⟩ := hi.before hnone
      have hleft : s.left closers = closers := by rw [left, habsent]
      have hcalls : s.calls = [] := hi.no_calls hleft
      have hreturns : s.returns = [] := List.map_eq_nil_iff.mp (List.append_eq_nil_iff.mp hcalls).1
      refine ⟨?_, fun hs => absurd hs (Option.some_ne_none _), ?_⟩
      · simp [calls, current, left, hreturns]
      · rintro _ ⟨⟩
        refine ⟨Int.le_refl _, rfl, hcanceled, ?_⟩
        constructor <;> simp [calls, current, hreturns]
  | tick d =>
      cases h
      refine ⟨horder, hi.before, fun signaled hs => ?_⟩
      obtain ⟨hle, hmain, hclosing, htimely⟩ := hi.after signaled hs
      have hnow : s.now ≤ s.now + d := Int.le_add_of_nonneg_right (Int.natCast_nonneg d)
      refine ⟨Int.le_trans hle hnow, hmain.congr rfl hnow id, ?_, ?_⟩
      · unfold ClosingInv at hclosing ⊢
        cases hp : s.closing with
        | absent => rw [hp] at hclosing; exact hclosing
        | canceling => rw [hp] at hclosing; exact hclosing
        | sleeping wake => rw [hp] at hclosing; exact hclosing
        | _ => rw [hp] at hclosing; exact hclosing.imp id (Int.le_trans · hnow)
      · exact ⟨htimely.begun, fun r hr => (htimely.ended r hr).imp id (Int.le_trans · hnow), htimely.ordered,
          fun c hc => (htimely.current c hc).imp (Int.le_trans · hnow) id⟩
  | cancel =>
      simp only [next] at h
      split at h <;> cases h
      rename_i hp
      simp only [calls, current, left, hp] at horder
      refine ⟨horder, fun hs => absurd hs (hi.signaled_ne (by simp [hp])), fun signaled hs => ?_⟩
      obtain ⟨hle, hmain, hclosing, htimely⟩ := hi.after signaled hs
      rw [ClosingInv, hp] at hclosing
      exact ⟨hle, hmain.congr rfl (Int.le_refl _) (by simp [hp]),
        ⟨by simp [hclosing], Int.add_le_add_right hle _⟩, htimely.congr rfl (by simp [current, hp]) rfl⟩
  | wake =>
      simp only [next] at h
      split at h
      · rename_i wake hp
        split at h <;> cases h
        rename_i hwake
        simp only [calls, current, left, hp] at horder
        refine ⟨horder, fun hs => absurd hs (hi.signaled_ne (by simp [hp])), fun signaled hs => ?_⟩
        obtain ⟨hle, hmain, hclosing, htimely⟩ := hi.after signaled hs
        rw [ClosingInv, hp] at hclosing
        exact ⟨hle, hmain.congr rfl (Int.le_refl _) (by simp [hp]),
          ⟨hclosing.1, Int.le_trans hclosing.2 hwake⟩, htimely.congr rfl (by simp [current, hp]) rfl⟩
      · cases h
  | turn =>
      simp only [next] at h
      split at h
      · rename_i rest hp
        cases h
        simp only [calls, current, left, hp] at horder
        refine ⟨horder, fun hs => absurd hs (hi.signaled_ne (by simp [hp])), fun signaled hs => ?_⟩
        obtain ⟨hle, hmain, hclosing, htimely⟩ := hi.after signaled hs
        rw [ClosingInv, hp] at hclosing
        exact ⟨hle, hmain.congr rfl (Int.le_refl _) (by simp [hp]), hclosing,
          htimely.congr rfl (by simp [current, hp]) rfl⟩
      · rename_i c rest hp
        cases h
        simp only [calls, current, left, hp] at horder
        refine ⟨?_, fun hs => absurd hs (hi.signaled_ne (by simp [hp])), fun signaled hs => ?_⟩
        · simpa [calls, current, left] using horder
        · obtain ⟨hle, hmain, hclosing, htimely⟩ := hi.after signaled hs
          rw [ClosingInv, hp] at hclosing
          refine ⟨hle, hmain.congr rfl (Int.le_refl _) (by simp [hp]), hclosing, ?_, htimely.ended,
            htimely.ordered, ?_⟩
          · intro c' hc'
            rcases List.mem_append.mp hc' with hold | hnew
            · exact htimely.begun c' (List.mem_append_left _ hold)
            · rw [List.mem_singleton.mp hnew]
              have hdeadline : s.deadline cfg = signaled + cfg.shutdownGracePeriod := by
                rw [deadline, show s.signaled = some signaled from hs, Option.getD_some]
              exact ⟨hclosing.2, congrArg (withTimeout s.now · _) hdeadline⟩
          · intro c' hc'
            rw [List.mem_singleton.mp hc']
            exact ⟨Int.le_refl _, fun r hr => (htimely.ended r hr).2⟩
      · rename_i hp
        cases h
        simp only [calls, current, left, hp] at horder
        refine ⟨horder, fun hs => absurd hs (hi.signaled_ne (by simp [hp])), fun signaled hs => ?_⟩
        obtain ⟨hle, hmain, hclosing, htimely⟩ := hi.after signaled hs
        rw [ClosingInv, hp] at hclosing
        exact ⟨hle, hmain.congr rfl (Int.le_refl _) (by simp [hp]), hclosing,
          htimely.congr rfl (by simp [current, hp]) rfl⟩
      · cases h
  | ret err =>
      simp only [next] at h
      split at h <;> cases h
      rename_i call rest hp
      simp only [calls, current, left, hp] at horder
      refine ⟨?_, fun hs => absurd hs (hi.signaled_ne (by simp [hp])), fun signaled hs => ?_⟩
      · simpa [calls, current, left] using horder
      · obtain ⟨hle, hmain, hclosing, htimely⟩ := hi.after signaled hs
        rw [ClosingInv, hp] at hclosing
        have hcall : call ∈ s.current := by simp [current, hp]
        obtain ⟨hbegun, hbefore⟩ := htimely.current call hcall
        refine ⟨hle, hmain.congr rfl (Int.le_refl _) (by simp [hp]), hclosing, ?_, ?_, ?_, ?_⟩
        · intro c hc
          refine htimely.begun c ?_
          simpa [calls, current, hp] using hc
        · intro r hr
          rcases List.mem_append.mp hr with hold | hnew
          · exact htimely.ended r hold
          · rw [List.mem_singleton.mp hnew]
            exact ⟨hbegun, Int.le_refl _⟩
        · refine List.pairwise_append.mpr ⟨htimely.ordered, List.pairwise_singleton _ _, fun r hr r' hr' => ?_⟩
          rw [List.mem_singleton.mp hr']
          exact hbefore r hr
        · intro c hc
          cases hc
  | finish =>
      simp only [next] at h
      split at h <;> cases h
      rename_i hp
      simp only [calls, current, left, hp] at horder
      refine ⟨horder, fun hs => absurd hs (hi.signaled_ne (by simp [hp])), fun signaled hs => ?_⟩
      obtain ⟨hle, hmain, hclosing, htimely⟩ := hi.after signaled hs
      rw [ClosingInv, hp] at hclosing
      exact ⟨hle, hmain.congr rfl (Int.le_refl _) (by simp [hp]), hclosing,
        htimely.congr rfl (by simp [current, hp]) rfl⟩
  | receive =>
      simp only [next] at h
      split at h <;> cases h
      rename_i hp
      refine ⟨horder, fun hs => absurd hs (hi.signaled_ne (by simp [hp])), fun signaled hs => ?_⟩
      obtain ⟨hle, -, hclosing, htimely⟩ := hi.after signaled hs
      exact ⟨hle, hp, hclosing, htimely.congr rfl rfl rfl⟩
  | timeout =>
      simp only [next] at h
      split at h
      · rename_i deadline hp
        split at h <;> cases h
        rename_i hle'
        refine ⟨horder, fun hs => absurd (hp.symm.trans (hi.before hs).1) ShutdownMain.noConfusion, fun signaled hs => ?_⟩
        obtain ⟨hle, hmain, hclosing, htimely⟩ := hi.after signaled hs
        rw [MainInv, hp] at hmain
        exact ⟨hle, Int.le_trans (Int.le_of_eq (Eq.symm hmain)) hle', hclosing, htimely.congr rfl rfl rfl⟩
      · cases h

/-! ## Coming to rest -/

def rank (closers : List (Option ℕ)) (s : Shutdown) : ℕ := s.main.rank + s.closing.rank closers.length

theorem rank_lt {closing : Closing} (h : closing.rank closers.length < s.closing.rank closers.length)
    (hclosing : s'.closing = closing) (hmain : s'.main = s.main) : s'.rank closers < s.rank closers := by
  rw [rank, rank, hclosing, hmain]
  exact Nat.add_lt_add_left h _

theorem ranked : Ranked (next cfg closers) ShutdownAction.own (rank closers) (2 * closers.length + 6) where
  lowers {s s' a} h ha := by
    cases a with
    | signal => cases ha
    | tick d => cases ha
    | ret err => cases ha
    | cancel =>
        simp only [next] at h
        split at h <;> cases h
        rename_i hp
        exact rank_lt (by rw [hp]; exact Nat.lt_succ_self _) rfl rfl
    | wake =>
        simp only [next] at h
        split at h
        · rename_i wake hp
          split at h <;> cases h
          exact rank_lt (by rw [hp]; exact Nat.add_lt_add_left (by decide) _) rfl rfl
        · cases h
    | turn =>
        simp only [next] at h
        split at h
        · rename_i rest hp
          cases h
          exact rank_lt (by simp only [hp, Closing.rank, List.length_cons]; omega) rfl rfl
        · rename_i c rest hp
          cases h
          exact rank_lt (by simp only [hp, Closing.rank, List.length_cons]; omega) rfl rfl
        · rename_i hp
          cases h
          exact rank_lt (by rw [hp]; exact Nat.lt_succ_self _) rfl rfl
        · cases h
    | finish =>
        simp only [next] at h
        split at h <;> cases h
        rename_i hp
        exact rank_lt (by rw [hp]; exact Nat.lt_succ_self _) rfl rfl
    | receive =>
        simp only [next] at h
        split at h <;> cases h
        rename_i hp _
        simp only [rank, hp, ShutdownMain.rank]
        omega
    | timeout =>
        simp only [next] at h
        split at h
        · rename_i hp
          split at h <;> cases h
          simp only [rank, hp, ShutdownMain.rank]
          omega
        · cases h
  env {s s' a} h ha := by
    cases a with
    | signal =>
        simp only [next] at h
        split at h <;> cases h
        simp only [rank, ShutdownMain.rank, Closing.rank]
        omega
    | tick d => cases h; exact Nat.le_add_right _ _
    | ret err =>
        simp only [next] at h
        split at h <;> cases h
        rename_i hp
        simp only [rank, hp, Closing.rank]
        omega
    | _ => cases ha

/-- At rest `shutdown` waits for its goroutine, and the goroutine for the probes or for a closer. -/
theorem Inv.busy_of_atRest (hi : s.Inv cfg closers) (hrest : AtRest (next cfg closers) ShutdownAction.own s)
    {deadline : ℤ} (hmain : s.main = .selecting deadline) :
    s.now < deadline ∧ ((∃ wake, s.closing = .sleeping wake ∧ s.now < wake) ∨
      ∃ call left, s.closing = .calling call left) := by
  refine ⟨?_, ?_⟩
  · have := hrest .timeout rfl
    simpa [next, hmain] using this
  · cases hp : s.closing with
    | absent =>
        cases hs : s.signaled with
        | none => cases hmain.symm.trans (hi.before hs).1
        | some signaled =>
            have := (hi.after signaled hs).2.2.1
            rw [ClosingInv, hp] at this
            exact this.elim
    | canceling => have := hrest .cancel rfl; simp [next, hp] at this
    | sleeping wake =>
        have := hrest .wake rfl
        exact .inl ⟨wake, rfl, by simpa [next, hp] using this⟩
    | looping left =>
        have := hrest .turn rfl
        cases left with
        | nil => simp [next, hp] at this
        | cons c left => cases c <;> simp [next, hp] at this
    | calling call left => exact .inr ⟨call, left, rfl⟩
    | finishing => have := hrest .finish rfl; simp [next, hp] at this
    | finished => have := hrest .receive rfl; simp [next, hmain, hp] at this

/-- In every run of `shutdown`, whatever the closers do: their calls are an initial part of the
closers given, without the nil ones and in the same order, whatever errors the calls before
returned; the application context was canceled, once, before the first of them; each begins
after the probes had their time and after the one before it has returned, with a deadline of
its own within the grace period. `shutdown` returns only when all closers have returned or
when the grace period is over. It takes a bounded number of steps for what the signal, the clock
and the closers do, and always comes to rest, still waiting only before the end of the grace
period, for the probes or for a closer. -/
theorem shutdown_orderly (h : runs (next cfg closers) (init now) as = some s) :
    s.calls.map CloserCall.closer <+: closers.filterMap id ∧ s.canceled ≤ 1 ∧
      (s.calls ≠ [] → s.canceled = 1) ∧
      (∀ signaled, s.signaled = some signaled → s.Timely cfg signaled ∧
        (s.main = .timedOut → signaled + cfg.shutdownGracePeriod ≤ s.now) ∧
        (s.main = .completed → s.returns.map (·.closer) = closers.filterMap id)) ∧
      as.countP ShutdownAction.own ≤
        (init now).rank closers + (2 * closers.length + 6) * as.countP (fun a => !a.own) ∧
      (∃ bs s', (∀ b ∈ bs, b.own = true) ∧ runs (next cfg closers) s bs = some s' ∧
        AtRest (next cfg closers) ShutdownAction.own s') ∧
      (AtRest (next cfg closers) ShutdownAction.own s → ∀ deadline, s.main = .selecting deadline →
        s.now < deadline ∧ ((∃ wake, s.closing = .sleeping wake ∧ s.now < wake) ∨
          ∃ call left, s.closing = .calling call left)) := by
  have hi : s.Inv cfg closers := runs_invariant next_inv init_inv h
  refine ⟨⟨_, hi.order⟩, ?_, fun hne => ?_, fun signaled hs => ?_,
    ranked.countP_le h, ranked.exists_atRest s, fun hrest _ => hi.busy_of_atRest hrest⟩
  · cases hs : s.signaled with
    | none => simp [(hi.before hs).2.2]
    | some signaled =>
        have hclosing := (hi.after signaled hs).2.2.1
        unfold ClosingInv at hclosing
        cases hp : s.closing with
        | absent => rw [hp] at hclosing; exact hclosing.elim
        | canceling => rw [hp] at hclosing; simp [hclosing]
        | _ => rw [hp] at hclosing; exact Nat.le_of_eq hclosing.1
  · cases hs : s.signaled with
    | none =>
        refine absurd (hi.no_calls ?_) hne
        rw [left, (hi.before hs).2.1]
    | some signaled =>
        have hclosing := (hi.after signaled hs).2.2.1
        unfold ClosingInv at hclosing
        cases hp : s.closing with
        | absent => rw [hp] at hclosing; exact hclosing.elim
        | canceling => exact absurd (hi.no_calls (by rw [left, hp])) hne
        | _ => rw [hp] at hclosing; exact hclosing.1
  · obtain ⟨-, hmain, -, htimely⟩ := hi.after signaled hs
    refine ⟨htimely, fun hp => ?_, fun hp => ?_⟩ <;> rw [MainInv, hp] at hmain
    · exact hmain
    · have horder := hi.order
      simp only [calls, current, left, hmain, List.append_nil, List.filterMap_nil, List.map_map] at horder
      exact horder

/-- The second of three closers hangs, and the grace period ends. -/
def hungRun : List ShutdownAction :=
  [.tick 7, .signal, .cancel, .tick 2, .wake, .turn, .tick 1, .ret (some (.leaf "broken pipe")), .turn, .turn, .tick 9,
    .timeout]

theorem shutdown_orderly_hung : ∃ s,
    runs (next ⟨10, 2, 3⟩ [some 0, none, some 1, some 2]) (init 0) hungRun = some s ∧
      s.calls.map CloserCall.closer = [0, 1] ∧ s.main = .timedOut ∧ s.canceled = 1 ∧ (17 : ℤ) ≤ s.now := by
  obtain ⟨s, h, hcalls, hmain, hsignaled⟩ : ∃ s,
      runs (next ⟨10, 2, 3⟩ [some 0, none, some 1, some 2]) (init 0) hungRun = some s ∧
        s.calls.map CloserCall.closer = [0, 1] ∧ s.main = .timedOut ∧ s.signaled = some 7 := ⟨_, rfl, by decide⟩
  obtain ⟨-, -, hcanceled, htimes, -⟩ := shutdown_orderly h
  refine ⟨s, h, hcalls, hmain, hcanceled ?_, (htimes 7 hsignaled).2.1 hmain⟩
  rintro hnil
  rw [hnil] at hcalls
  cases hcalls

end Shutdown

end Go42.App
