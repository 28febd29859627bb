-- SUMMARY: `boundedPublisher`: a publish call and its worker goroutine, a counting semaphore of slots, and what holds across all their interleavings.
import Go42.Events.Errors
import Go42.Lib.Base64
import Go42.Lib.Steps
import Mathlib.Data.List.Count

/-!
# The bounded publisher

A call of `publish` takes a slot, copies the message, and hands the copy to a goroutine
that calls the broker. The call waits for the result or for the context, whichever comes
first; the goroutine gives the slot back. Every statement of the two is one step, and the
steps of all calls interleave freely. The broker may take forever.

Fields of `Call` after the channel record what happened, for the statements about it.
-/

namespace Go42.Events

/-- `message.Message`, without its context. -/
structure Message where
  uuid : String
  metadata : List (String × String)
  payload : Bytes
deriving DecidableEq

/-- Where the caller of `publish` stands. -/
inductive Caller where
  /-- `p.slots.Acquire(ctx, 1)`. -/
  | acquiring
  /-- `msg.CopyWithContext()` and the clone of the payload. -/
  | copying
  /-- `go func() { … }()`. -/
  | starting (snapshot : Message)
  /-- `select`. -/
  | selecting
  /-- `Acquire` failed with `e`, and so did the call. -/
  | gaveUp (e : CtxErr)
  | returned (err : Option GoError)
deriving DecidableEq

/-- Where the worker goroutine stands. -/
inductive Worker where
  /-- `ctx.Err()`. -/
  | checking (snapshot : Message)
  /-- In `p.Publisher.Publish(topic, snapshot)`. -/
  | publishing
  /-- `result <- err`. -/
  | sending (err : Option GoError)
  /-- The deferred `p.slots.Release(1)`. -/
  | releasing
  | finished
deriving DecidableEq

/-- One call of `publish`, with the messages its `Publish` has still to publish after it. -/
structure Call where
  topic : String
  /-- The message as the caller sees it, who may change it at any time. -/
  msg : Message
  rest : List Message
  /-- `ctx.Err()`. -/
  ctxErr : Option CtxErr
  caller : Caller
  worker : Option Worker
  /-- What is in the channel `result`. -/
  result : Option (Option GoError)
  acquired : ℕ
  released : ℕ
  copied : List Message
  published : List Message
  answers : List (Option GoError)
deriving DecidableEq

def Call.new (topic : String) (msg : Message) (rest : List Message) : Call where
  topic := topic
  msg := msg
  rest := rest
  ctxErr := none
  caller := .acquiring
  worker := none
  result := none
  acquired := 0
  released := 0
  copied := []
  published := []
  answers := []

/-- `fmt.Errorf("%w: %w", ErrPublishCapacity, err)`. -/
def capacityError (e : CtxErr) : GoError := .wrap2 "" errPublishCapacity ": " e.err

/-- What `publish` returned. -/
def Call.reply (c : Call) : Option (Option GoError) :=
  match c.caller with
  | .gaveUp e => some (some (capacityError e))
  | .returned err => some err
  | _ => none

/-- A broker call is active. -/
def Call.active (c : Call) : Bool := c.worker = some .publishing

/-! ## Steps -/

inductive CallAction where
  | acquire
  | giveUp
  | copy
  | start
  | check
  | brokerReturn (err : Option GoError)
  | send
  | release
  | receive
  | contextDone
  | cancel (e : CtxErr)
  | change (msg : Message)
deriving DecidableEq

/-- A step of a call or its worker, apart from the slots. -/
def Call.step (c : Call) : CallAction → Option Call
  | .acquire =>
    match c.caller with
    | .acquiring => some { c with caller := .copying, acquired := c.acquired + 1 }
    | _ => none
  | .giveUp =>
    match c.caller, c.ctxErr with
    | .acquiring, some e => some { c with caller := .gaveUp e }
    | _, _ => none
  | .copy =>
    match c.caller with
    | .copying => some { c with caller := .starting c.msg, copied := c.copied ++ [c.msg] }
    | _ => none
  | .start =>
    match c.caller with
    | .starting snapshot => some { c with caller := .selecting, worker := some (.checking snapshot) }
    | _ => none
  | .check =>
    match c.worker with
    | some (.checking snapshot) =>
      match c.ctxErr with
      | some e => some { c with worker := some (.sending (some e.err)) }
      | none =>
        some { c with worker := some .publishing, published := c.published ++ [snapshot] }
    | _ => none
  | .brokerReturn err =>
    match c.worker with
    | some .publishing =>
      some { c with worker := some (.sending err), answers := c.answers ++ [err] }
    | _ => none
  | .send =>
    match c.worker with
    | some (.sending err) => some { c with worker := some .releasing, result := some err }
    | _ => none
  | .release =>
    match c.worker with
    | some .releasing => some { c with worker := some .finished, released := c.released + 1 }
    | _ => none
  | .receive =>
    match c.caller, c.result with
    | .selecting, some err => some { c with caller := .returned err, result := none }
    | _, _ => none
  | .contextDone =>
    match c.caller, c.ctxErr with
    | .selecting, some e => some { c with caller := .returned (some e.err) }
    | _, _ => none
  | .cancel e =>
    match c.ctxErr with
    | none => some { c with ctxErr := some e }
    | some _ => none
  | .change msg => some { c with msg := msg }

/-- The slots in use after a step, out of `n`. -/
def slots (n held : ℕ) : CallAction → Option ℕ
  | .acquire => if held < n then some (held + 1) else none
  | .release => some (held - 1)
  | _ => some held

/-- All calls so far, and the slots in use. -/
structure PublisherState where
  calls : List Call
  held : ℕ
deriving DecidableEq

inductive PublisherAction where
  /-- `Publish(topic, msg, rest...)` begins. -/
  | publish (topic : String) (msg : Message) (rest : List Message)
  /-- `Publish` goes on to its next message. -/
  | next (i : ℕ)
  | step (i : ℕ) (a : CallAction)
deriving DecidableEq

def PublisherState.next (n : ℕ) (s : PublisherState) : PublisherAction → Option PublisherState
  | .publish topic msg rest => some { s with calls := s.calls ++ [Call.new topic msg rest] }
  | .next i =>
    match s.calls[i]? with
    | some c =>
      match c.caller, c.rest with
      | .returned none, msg :: rest =>
        some { s with calls := s.calls.set i { c with rest := [] } ++ [Call.new c.topic msg rest] }
      | _, _ => none
    | none => none
  | .step i a =>
    match s.calls[i]?, slots n s.held a with
    | some c, some held => (c.step a).map fun c' => ⟨s.calls.set i c', held⟩
    | _, _ => none

/-- A publisher before its first call. -/
def PublisherState.init : PublisherState := ⟨[], 0⟩

/-! ## The invariant of a call -/

namespace Call

variable {c c' : Call} {n held : ℕ}

/-- `err` is what the broker answered for the copied message, or why it was not called. -/
def Outcome (c : Call) (err : Option GoError) : Prop :=
  ∃ m, c.copied = [m] ∧ ((c.published = [m] ∧ c.answers = [err]) ∨
    (c.published = [] ∧ c.answers = [] ∧ ∃ e : CtxErr, err = some e.err))

/-- Nothing has happened on the side of the worker. -/
def Unstarted (c : Call) : Prop :=
  c.worker = none ∧ c.result = none ∧ c.released = 0 ∧ c.published = [] ∧ c.answers = []

/-- What the caller's place says. -/
def CallerInv (c : Call) : Prop :=
  match c.caller with
  | .acquiring => c.Unstarted ∧ c.acquired = 0 ∧ c.copied = []
  | .gaveUp _ => c.Unstarted ∧ c.acquired = 0 ∧ c.copied = []
  | .copying => c.Unstarted ∧ c.acquired = 1 ∧ c.copied = []
  | .starting snapshot => c.Unstarted ∧ c.acquired = 1 ∧ c.copied = [snapshot]
  | .selecting => c.worker ≠ none ∧ c.acquired = 1
  | .returned err =>
    c.worker ≠ none ∧ c.acquired = 1 ∧ (c.answers = [err] ∨ ∃ e : CtxErr, err = some e.err)

/-- What the worker's place says. -/
def WorkerInv (c : Call) : Prop :=
  match c.worker with
  | none => True
  | some (.checking snapshot) => c.copied = [snapshot] ∧ c.result = none ∧ c.released = 0 ∧
      c.published = [] ∧ c.answers = []
  | some .publishing => c.result = none ∧ c.released = 0 ∧ c.answers = [] ∧
      ∃ m, c.copied = [m] ∧ c.published = [m]
  | some (.sending err) => c.result = none ∧ c.released = 0 ∧ c.Outcome err
  | some .releasing => c.released = 0 ∧ ∃ err, c.Outcome err
  | some .finished => c.released = 1 ∧ ∃ err, c.Outcome err

structure Inv (c : Call) : Prop where
  caller : c.CallerInv
  worker : c.WorkerInv
  result : ∀ err, c.result = some err → c.Outcome err

theorem new_inv {topic : String} {msg : Message} {rest : List Message} : (new topic msg rest).Inv :=
  ⟨⟨⟨rfl, rfl, rfl, rfl, rfl⟩, rfl, rfl⟩, trivial, fun _ h => nomatch h⟩

theorem Outcome.reported {err : Option GoError} (h : c.Outcome err) :
    c.answers = [err] ∨ ∃ e : CtxErr, err = some e.err := by
  obtain ⟨m, -, ⟨-, hanswers⟩ | ⟨-, -, he⟩⟩ := h
  · exact .inl hanswers
  · exact .inr he

/-- A step of the worker leaves the caller where it is. -/
theorem CallerInv.keep (h : c.CallerInv) (hworker : c.worker ≠ none) (hworker' : c'.worker ≠ none)
    (hcaller : c'.caller = c.caller) (hacquired : c'.acquired = c.acquired)
    (hanswers : c.answers = [] ∨ c'.answers = c.answers) : c'.CallerInv := by
  unfold CallerInv at h ⊢
  rw [hcaller]
  cases hc : c.caller with
  | acquiring => rw [hc] at h; exact absurd h.1.1 hworker
  | copying => rw [hc] at h; exact absurd h.1.1 hworker
  | starting snapshot => rw [hc] at h; exact absurd h.1.1 hworker
  | gaveUp e => rw [hc] at h; exact absurd h.1.1 hworker
  | selecting => rw [hc] at h; exact ⟨hworker', hacquired ▸ h.2⟩
  | returned err =>
      rw [hc] at h
      obtain ⟨-, hacq, hans | he⟩ := h
      · refine ⟨hworker', hacquired ▸ hacq, .inl ?_⟩
        rcases hanswers with hnil | hsame
        · rw [hnil] at hans; cases hans
        · rw [hsame, hans]
      · exact ⟨hworker', hacquired ▸ hacq, .inr he⟩

/-- A step of the call or of its worker keeps the invariant. -/
theorem step_inv {a : CallAction} (hi : c.Inv) (h : c.step a = some c') : c'.Inv := by
  obtain ⟨hcaller, hworker, hresult⟩ := hi
  cases a with
  | acquire =>
      simp only [step] at h
      split at h <;> cases h
      rename_i hc
      rw [CallerInv, hc] at hcaller
      obtain ⟨hidle, hacquired, hcopied⟩ := hcaller
      exact ⟨⟨hidle, by simp [hacquired], hcopied⟩, hworker, hresult⟩
  | giveUp =>
      simp only [step] at h
      split at h <;> cases h
      rename_i hc _
      rw [CallerInv, hc] at hcaller
      exact ⟨hcaller, hworker, hresult⟩
  | copy =>
      simp only [step] at h
      split at h <;> cases h
      rename_i hc
      rw [CallerInv, hc] at hcaller
      obtain ⟨⟨hw, hr, hrest⟩, hacquired, hcopied⟩ := hcaller
      refine ⟨⟨⟨hw, hr, hrest⟩, hacquired, by simp [hcopied]⟩, ?_, fun err he => ?_⟩
      · simp [WorkerInv, hw]
      · rw [hr] at he; cases he
  | start =>
      simp only [step] at h
      split at h <;> cases h
      rename_i hc
      rw [CallerInv, hc] at hcaller
      obtain ⟨⟨-, hr, hreleased, hpublished, hanswers⟩, hacquired, hcopied⟩ := hcaller
      refine ⟨⟨Option.some_ne_none _, hacquired⟩, ?_, fun err he => ?_⟩
      · exact ⟨hcopied, hr, hreleased, hpublished, hanswers⟩
      · rw [hr] at he; cases he
  | check =>
      simp only [step] at h
      split at h
      case h_2 => cases h
      case h_1 snapshot hw =>
        rw [WorkerInv, hw] at hworker
        obtain ⟨hcopied, hr, hreleased, hpublished, hanswers⟩ := hworker
        have hne : c.worker ≠ none := by simp [hw]
        have hnone {p : Prop} (err : Option GoError) (he : c.result = some err) : p := by
          rw [hr] at he; cases he
        split at h <;> cases h
        case h_1 e _ =>
          refine ⟨hcaller.keep hne (Option.some_ne_none _) rfl rfl (.inr rfl), ?_, fun err => hnone err⟩
          exact ⟨hr, hreleased, snapshot, hcopied, .inr ⟨hpublished, hanswers, e, rfl⟩⟩
        case h_2 =>
          refine ⟨hcaller.keep hne (Option.some_ne_none _) rfl rfl (.inr rfl), ?_, fun err => hnone err⟩
          exact ⟨hr, hreleased, hanswers, snapshot, hcopied, by simp [hpublished]⟩
  | brokerReturn err =>
      simp only [step] at h
      split at h <;> cases h
      rename_i hw
      rw [WorkerInv, hw] at hworker
      obtain ⟨hr, hreleased, hanswers, m, hcopied, hpublished⟩ := hworker
      have hne : c.worker ≠ none := by simp [hw]
      refine ⟨hcaller.keep hne (Option.some_ne_none _) rfl rfl (.inl hanswers), ?_, fun err he => ?_⟩
      · exact ⟨hr, hreleased, m, hcopied, .inl ⟨hpublished, by simp [hanswers]⟩⟩
      · rw [hr] at he; cases he
  | send =>
      simp only [step] at h
      split at h <;> cases h
      rename_i err hw
      rw [WorkerInv, hw] at hworker
      obtain ⟨-, hreleased, houtcome⟩ := hworker
      have hne : c.worker ≠ none := by simp [hw]
      refine ⟨hcaller.keep hne (Option.some_ne_none _) rfl rfl (.inr rfl), ?_, fun err he => ?_⟩
      · exact ⟨hreleased, err, houtcome⟩
      · cases he
        exact houtcome
  | release =>
      simp only [step] at h
      split at h <;> cases h
      rename_i hw
      rw [WorkerInv, hw] at hworker
      obtain ⟨hreleased, houtcome⟩ := hworker
      have hne : c.worker ≠ none := by simp [hw]
      refine ⟨hcaller.keep hne (Option.some_ne_none _) rfl rfl (.inr rfl), ?_, hresult⟩
      exact ⟨by simp [hreleased], houtcome⟩
  | receive =>
      simp only [step] at h
      split at h <;> cases h
      rename_i err hc hr
      rw [CallerInv, hc] at hcaller
      obtain ⟨hne, hacquired⟩ := hcaller
      refine ⟨⟨hne, hacquired, (hresult err hr).reported⟩, ?_, fun err he => nomatch he⟩
      -- The result was taken out of the channel; no place of the worker still needs it there.
      unfold WorkerInv at hworker ⊢
      dsimp only
      cases hw : c.worker with
      | none => trivial
      | some w =>
          rw [hw] at hworker
          cases w with
          | checking => rw [hworker.2.1] at hr; cases hr
          | publishing => rw [hworker.1] at hr; cases hr
          | sending => rw [hworker.1] at hr; cases hr
          | releasing => exact hworker
          | finished => exact hworker
  | contextDone =>
      simp only [step] at h
      split at h <;> cases h
      rename_i e hc he
      rw [CallerInv, hc] at hcaller
      exact ⟨⟨hcaller.1, hcaller.2, .inr ⟨e, rfl⟩⟩, hworker, hresult⟩
  | cancel e =>
      simp only [step] at h
      split at h <;> cases h
      exact ⟨hcaller, hworker, hresult⟩
  | change msg =>
      cases h
      exact ⟨hcaller, hworker, hresult⟩

/-! ## Slots -/

/-- The call has taken a slot that was not given back. -/
def holds (c : Call) : Bool := decide (c.released < c.acquired)

/-- One for a call that holds a slot. -/
def uses (c : Call) : ℕ := if c.holds then 1 else 0

theorem Inv.launched (hi : c.Inv) (hw : c.worker ≠ none) : c.acquired = 1 := by
  have h := hi.caller
  unfold CallerInv at h
  split at h
  · exact absurd h.1.1 hw
  · exact absurd h.1.1 hw
  · exact absurd h.1.1 hw
  · exact absurd h.1.1 hw
  · exact h.2
  · exact h.2.1

theorem Inv.acquired_le (hi : c.Inv) : c.acquired ≤ 1 := by
  have h := hi.caller
  unfold CallerInv at h
  split at h <;> omega

/-- A slot is given back only after the broker call, if there was one, has ended. -/
theorem Inv.released_cases (hi : c.Inv) :
    c.released = 0 ∨ c.released = 1 ∧ c.worker = some .finished ∧
      c.published.length = c.answers.length := by
  have h := hi.worker
  unfold WorkerInv at h
  split at h
  · have hcaller := hi.caller
    rename_i hw
    unfold CallerInv at hcaller
    split at hcaller
    · exact .inl hcaller.1.2.2.1
    · exact .inl hcaller.1.2.2.1
    · exact .inl hcaller.1.2.2.1
    · exact .inl hcaller.1.2.2.1
    · exact absurd hw hcaller.1
    · exact absurd hw hcaller.1
  · exact .inl h.2.2.1
  · exact .inl h.2.1
  · exact .inl h.2.1
  · exact .inl h.1
  · rename_i hw
    obtain ⟨hreleased, err, m, -, ⟨hpublished, hanswers⟩ | ⟨hpublished, hanswers, -⟩⟩ := h
    · exact .inr ⟨hreleased, hw, by simp [hpublished, hanswers]⟩
    · exact .inr ⟨hreleased, hw, by simp [hpublished, hanswers]⟩

/-- The slots in use change with the slot of the call. -/
theorem uses_step {a : CallAction} {held' : ℕ} (hi : c.Inv) (h : c.step a = some c')
    (hslots : slots n held a = some held') (hheld : c.uses ≤ held) (hn : held ≤ n) :
    held' + c.uses = held + c'.uses ∧ held' ≤ n := by
  have hsame (hc : c'.uses = c.uses) (ha : slots n held a = some held) :
      held' + c.uses = held + c'.uses ∧ held' ≤ n := by
    rw [ha] at hslots
    cases hslots
    exact ⟨by rw [hc], hn⟩
  cases a with
  | acquire =>
      simp only [step] at h
      split at h <;> cases h
      rename_i hc
      have hcaller := hi.caller
      rw [CallerInv, hc] at hcaller
      obtain ⟨⟨-, -, hreleased, -⟩, hacquired, -⟩ := hcaller
      simp only [slots] at hslots
      split at hslots <;> cases hslots
      simp only [uses, holds, hreleased, hacquired]
      exact ⟨by simp, by omega⟩
  | release =>
      simp only [step] at h
      split at h <;> cases h
      rename_i hw
      have hworker := hi.worker
      rw [WorkerInv, hw] at hworker
      have hacquired := hi.launched (by simp [hw])
      cases hslots
      have hbefore : c.uses = 1 := by simp [uses, holds, hworker.1, hacquired]
      have hafter : uses { c with worker := some .finished, released := c.released + 1 } = 0 := by
        simp [uses, holds, hworker.1, hacquired]
      omega
  | check =>
      simp only [step] at h
      split at h
      · split at h <;> cases h
        · exact hsame rfl rfl
        · exact hsame rfl rfl
      · cases h
  | change msg => cases h; exact hsame rfl rfl
  | _ =>
      simp only [step] at h
      split at h <;> cases h
      exact hsame rfl rfl

/-- Nothing takes back a reply. -/
theorem step_replied {a : CallAction} (hc : c.reply ≠ none) (h : c.step a = some c') :
    c'.caller = c.caller := by
  have hcaller : c.caller ≠ .acquiring ∧ c.caller ≠ .copying ∧ (∀ m, c.caller ≠ .starting m) ∧
      c.caller ≠ .selecting := by
    refine ⟨?_, ?_, fun m => ?_, ?_⟩
    all_goals
      intro heq
      exact hc (by simp [reply, heq])
  obtain ⟨hacquiring, hcopying, hstarting, hselecting⟩ := hcaller
  cases a with
  | check =>
      simp only [step] at h
      split at h
      · split at h <;> cases h
        · rfl
        · rfl
      · cases h
  | change msg => cases h; rfl
  | acquire | giveUp => simp [step, hacquiring] at h
  | copy | start => simp [step] at h
  | receive | contextDone => simp [step, hselecting] at h
  | _ =>
      simp only [step] at h
      split at h <;> cases h
      rfl

end Call

/-! ## Runs -/

/-- Every call satisfies its invariant, and the slots in use are those of the calls. -/
structure PublisherState.Inv (n : ℕ) (s : PublisherState) : Prop where
  calls : ∀ c ∈ s.calls, c.Inv
  held : s.held = s.calls.countP Call.holds
  bounded : s.held ≤ n

namespace PublisherState

variable {n : ℕ} {s s' : PublisherState}

theorem init_inv : init.Inv n := ⟨fun _ h => (nomatch h), rfl, Nat.zero_le n⟩

theorem countP_holds_append {calls : List Call} {topic : String} {msg : Message}
    {rest : List Message} :
    (calls ++ [Call.new topic msg rest]).countP Call.holds = calls.countP Call.holds := by
  simp [Call.new, Call.holds]

theorem uses_le {calls : List Call} {i : ℕ} {c : Call} (h : calls[i]? = some c) :
    c.uses ≤ calls.countP Call.holds := by
  unfold Call.uses
  split
  · exact List.countP_pos_iff.mpr ⟨c, List.mem_of_getElem? h, by assumption⟩
  · exact Nat.zero_le _

/-- Putting a call in the place of another. -/
theorem countP_holds_set {calls : List Call} {i : ℕ} {c c' : Call} (h : calls[i]? = some c) :
    (calls.set i c').countP Call.holds + c.uses = calls.countP Call.holds + c'.uses := by
  have hle := uses_le h
  obtain ⟨hi, rfl⟩ := List.getElem?_eq_some_iff.mp h
  rw [List.countP_set hi]
  unfold Call.uses at *
  omega

theorem next_inv {a : PublisherAction} (hs : s.Inv n) (h : s.next n a = some s') : s'.Inv n := by
  obtain ⟨hcalls, hheld, hbounded⟩ := hs
  cases a with
  | publish topic msg rest =>
      cases h
      refine ⟨fun c hc => ?_, ?_, hbounded⟩
      · rcases List.mem_append.mp hc with hc | hc
        · exact hcalls c hc
        · rw [List.mem_singleton.mp hc]
          exact Call.new_inv
      · rw [countP_holds_append]
        exact hheld
  | next i =>
      simp only [next] at h
      split at h
      case h_2 => cases h
      case h_1 c hc =>
        split at h <;> cases h
        have hmem := List.mem_of_getElem? hc
        have hc' : Call.Inv { c with rest := [] } := ⟨(hcalls c hmem).caller, (hcalls c hmem).worker,
          (hcalls c hmem).result⟩
        refine ⟨fun d hd => ?_, ?_, hbounded⟩
        · rcases List.mem_append.mp hd with hd | hd
          · rcases List.mem_or_eq_of_mem_set hd with hd | rfl
            · exact hcalls d hd
            · exact hc'
          · rw [List.mem_singleton.mp hd]
            exact Call.new_inv
        · have hset := @countP_holds_set _ _ _ { c with rest := [] } hc
          have huses : Call.uses { c with rest := [] } = c.uses := rfl
          rw [countP_holds_append]
          dsimp only
          omega
  | step i a =>
      simp only [next] at h
      split at h
      case h_2 => cases h
      case h_1 c held' hc hslots =>
        obtain ⟨c', hc', rfl⟩ := Option.map_eq_some_iff.mp h
        have hinv := hcalls c (List.mem_of_getElem? hc)
        have huses : c.uses ≤ s.held := hheld ▸ uses_le hc
        obtain ⟨hsum, hbounded'⟩ := Call.uses_step hinv hc' hslots huses hbounded
        refine ⟨fun d hd => ?_, ?_, hbounded'⟩
        · rcases List.mem_or_eq_of_mem_set hd with hd | rfl
          · exact hcalls d hd
          · exact Call.step_inv hinv hc'
        · have hset := @countP_holds_set _ _ _ c' hc
          dsimp only
          omega

/-- What a step makes of one of the calls. -/
theorem next_call {a : PublisherAction} {i : ℕ} {c : Call} (hc : s.calls[i]? = some c)
    (h : s.next n a = some s') : ∃ c', s'.calls[i]? = some c' ∧
      (c' = c ∨ c' = { c with rest := [] } ∨ ∃ ca, a = .step i ca ∧ c.step ca = some c') := by
  have hlt := (List.getElem?_eq_some_iff.mp hc).1
  cases a with
  | publish topic msg rest =>
      cases h
      exact ⟨c, by rw [List.getElem?_append_left hlt, hc], .inl rfl⟩
  | next j =>
      simp only [next] at h
      split at h
      case h_2 => cases h
      case h_1 d hd =>
        split at h <;> cases h
        dsimp only
        rw [List.getElem?_append_left (by rwa [List.length_set])]
        rcases eq_or_ne j i with rfl | hne
        · rw [List.getElem?_set_self hlt]
          rw [hc] at hd
          cases hd
          exact ⟨_, rfl, .inr (.inl rfl)⟩
        · rw [List.getElem?_set_ne hne]
          exact ⟨c, hc, .inl rfl⟩
  | step j a =>
      simp only [next] at h
      split at h
      case h_2 => cases h
      case h_1 d held' hd hslots =>
        obtain ⟨d', hd', rfl⟩ := Option.map_eq_some_iff.mp h
        dsimp only
        rcases eq_or_ne j i with rfl | hne
        · rw [List.getElem?_set_self hlt]
          rw [hc] at hd
          cases hd
          exact ⟨d', rfl, .inr (.inr ⟨a, rfl, hd'⟩)⟩
        · rw [List.getElem?_set_ne hne]
          exact ⟨c, hc, .inl rfl⟩

end PublisherState

/-- No worker is about to be started, and the one that was started has finished. -/
def Call.Settled (c : Call) : Prop :=
  c.worker = some .finished ∨
    c.worker = none ∧ c.caller ≠ .copying ∧ ∀ snapshot, c.caller ≠ .starting snapshot

/-- What holds of one call in every reachable state. -/
structure Call.Correct (c : Call) : Prop where
  /-- At most one broker call, with the message as it was when it was copied. -/
  publishes_copy : c.published = [] ∨ ∃ m, c.published = [m] ∧ c.copied = [m]
  /-- A slot is given back at most once, after the broker call, if any, has ended. -/
  releases_once : c.released ≤ c.acquired ∧ c.acquired ≤ 1 ∧
    (c.released = 1 → c.published.length = c.answers.length ∧ c.active = false)
  /-- And it has been given back once the worker has finished. -/
  releases : c.Settled → c.released = c.acquired
  nil_reply : c.reply = some none → c.answers = [none]

theorem Call.Inv.correct {c : Call} (hi : c.Inv) : c.Correct where
  publishes_copy := by
    have houtcome {err : Option GoError} (h : c.Outcome err) :
        c.published = [] ∨ ∃ m, c.published = [m] ∧ c.copied = [m] := by
      obtain ⟨m, hcopied, ⟨hpublished, -⟩ | ⟨hpublished, -⟩⟩ := h
      · exact .inr ⟨m, hpublished, hcopied⟩
      · exact .inl hpublished
    have hworker := hi.worker
    unfold WorkerInv at hworker
    split at hworker
    · rename_i hw
      have hcaller := hi.caller
      unfold CallerInv at hcaller
      split at hcaller
      · exact .inl hcaller.1.2.2.2.1
      · exact .inl hcaller.1.2.2.2.1
      · exact .inl hcaller.1.2.2.2.1
      · exact .inl hcaller.1.2.2.2.1
      · exact absurd hw hcaller.1
      · exact absurd hw hcaller.1
    · exact .inl hworker.2.2.2.1
    · obtain ⟨-, -, -, m, hcopied, hpublished⟩ := hworker
      exact .inr ⟨m, hpublished, hcopied⟩
    · exact houtcome hworker.2.2
    · exact houtcome hworker.2.choose_spec
    · exact houtcome hworker.2.choose_spec
  releases_once := by
    have hacquired := hi.acquired_le
    rcases hi.released_cases with hzero | ⟨hone, hw, hlength⟩
    · refine ⟨by omega, hacquired, fun h => by omega⟩
    · have := hi.launched (by simp [hw])
      exact ⟨by omega, hacquired, fun _ => ⟨hlength, by simp [active, hw]⟩⟩
  releases := by
    rintro (hw | ⟨hw, hcopying, hstarting⟩)
    · have hworker := hi.worker
      rw [WorkerInv, hw] at hworker
      rw [hworker.1, hi.launched (by simp [hw])]
    · have hcaller := hi.caller
      unfold CallerInv at hcaller
      split at hcaller
      · rw [hcaller.1.2.2.1, hcaller.2.1]
      · rw [hcaller.1.2.2.1, hcaller.2.1]
      · exact absurd (by assumption) hcopying
      · exact absurd (by assumption) (hstarting _)
      · exact absurd hw hcaller.1
      · exact absurd hw hcaller.1
  nil_reply := by
    intro h
    have hcaller := hi.caller
    unfold reply at h
    split at h
    · cases h
    · rename_i hc
      cases h
      rw [CallerInv, hc] at hcaller
      rcases hcaller.2.2 with hanswers | ⟨e, he⟩
      · exact hanswers
      · cases he
    · cases h

/-- What the broker has answered, it was given. -/
theorem Call.Inv.published_of_answers {c : Call} (hi : c.Inv) (h : c.answers ≠ []) : c.published ≠ [] := by
  have houtcome {err : Option GoError} (ho : c.Outcome err) : c.published ≠ [] := by
    obtain ⟨m, -, ⟨hpublished, -⟩ | ⟨-, hanswers, -⟩⟩ := ho
    · rw [hpublished]
      exact List.cons_ne_nil _ _
    · exact absurd hanswers h
  have hworker := hi.worker
  have hcaller := hi.caller
  unfold WorkerInv at hworker
  split at hworker
  case h_1 hw =>
    unfold CallerInv at hcaller
    split at hcaller
    case h_1 => exact absurd hcaller.1.2.2.2.2 h
    case h_2 => exact absurd hcaller.1.2.2.2.2 h
    case h_3 => exact absurd hcaller.1.2.2.2.2 h
    case h_4 => exact absurd hcaller.1.2.2.2.2 h
    case h_5 => exact absurd hw hcaller.1
    case h_6 => exact absurd hw hcaller.1
  case h_2 => exact absurd hworker.2.2.2.2 h
  case h_3 => exact absurd hworker.2.2.1 h
  case h_4 => exact houtcome hworker.2.2
  case h_5 => exact houtcome hworker.2.choose_spec
  case h_6 => exact houtcome hworker.2.choose_spec

end Go42.Events
