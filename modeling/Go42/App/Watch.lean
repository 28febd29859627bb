-- SUMMARY: `watchErrors`: one goroutine for each error channel, a `sync.Once` that marks the failure, and what their interleavings come to.
import Go42.Lib.GoError
import Go42.Lib.Pool
import Go42.Lib.Progress

/-!
# Watching for terminal failures

`watchErrors` starts a goroutine for every channel that is not nil and waits for all of
them. A goroutine selects between the end of the watch and its channel; the first that
gets an error in time marks the failure and ends the watch for the others. Each statement
that another goroutine can observe is one step. Sends, closes and the cancellation of the
parent context come from elsewhere, at any time.
-/

namespace Go42.App

/-- A `chan error`. -/
structure Chan where
  queue : List (Option GoError)
  closed : Bool
  /-- Everything that was ever sent on it. -/
  sent : List (Option GoError)
deriving DecidableEq

/-- `sync.Once`. -/
inductive Once where
  | fresh
  | running
  | done
deriving DecidableEq

/-- Where a watcher stands. -/
inductive Place where
  /-- In the `select`. -/
  | selecting
  /-- `err, ok := <-observable`. -/
  | received (err : Option GoError) (ok : Bool)
  /-- `failure.Do(…)`. -/
  | reporting
  /-- `markFailed()`. -/
  | marking
  /-- `stopWatching()`. -/
  | stopping
  | returned
deriving DecidableEq

/-- A goroutine of `watchers` and the channel that it watches. -/
structure Watcher where
  observable : ℕ
  place : Place
deriving DecidableEq

/-- Where `watchErrors` itself stands. -/
inductive Main where
  /-- In the loop over `observables`, of which these are left. -/
  | starting (observables : List (Option ℕ))
  /-- `watchers.Wait()`. -/
  | waiting
  | returned
deriving DecidableEq

/-- What the loop has still to come to. -/
def Main.left : Main → List (Option ℕ)
  | starting observables => observables
  | _ => []

structure Watch where
  main : Main
  watchers : List Watcher
  channels : List Chan
  /-- `ctx` is done. -/
  parentDone : Bool
  /-- `stopWatching` was called. -/
  stopped : Bool
  failure : Once
  /-- How often `markFailed` was called. -/
  marked : ℕ
deriving DecidableEq

/-- `watchCtx.Err() != nil`. -/
def Watch.done (s : Watch) : Bool := s.parentDone || s.stopped

/-- Watcher `i` goes on to another place. -/
def Watch.go (s : Watch) (i : ℕ) (w : Watcher) (place : Place) : Watch :=
  { s with watchers := s.watchers.set i { w with place := place } }

inductive WatchAction where
  /-- The next turn of the loop over `observables`, or its end. -/
  | start
  /-- `watchers.Wait()` returns, and `stopWatching` is called on the way out. -/
  | wait
  /-- `<-watchCtx.Done()`. -/
  | ctxDone (i : ℕ)
  /-- `<-observable`. -/
  | receive (i : ℕ)
  /-- What becomes of the value received. -/
  | check (i : ℕ)
  /-- `failure.Do` begins, or returns because the failure was marked before. -/
  | report (i : ℕ)
  | mark (i : ℕ)
  | stop (i : ℕ)
  | send (c : ℕ) (err : Option GoError)
  | close (c : ℕ)
  | cancel
deriving DecidableEq

namespace WatchAction

/-- A step of `watchErrors` and its goroutines. -/
def own : WatchAction → Bool
  | send _ _ | close _ | cancel => false
  | _ => true

end WatchAction

/-- What is left to do at a place; a value in hand may send the watcher back to its `select`. -/
def Place.rank : Place → ℕ
  | selecting => 5
  | received _ true => 12
  | received _ false => 4
  | reporting => 4
  | marking => 3
  | stopping => 2
  | returned => 0

def Main.rank : Main → ℕ
  | starting observables => 6 * observables.length + 2
  | waiting => 1
  | returned => 0

namespace Watch

def next (s : Watch) : WatchAction → Option Watch
  | .start =>
    match s.main with
    | .starting (some c :: rest) =>
      some { s with main := .starting rest, watchers := s.watchers ++ [⟨c, .selecting⟩] }
    | .starting (none :: rest) => some { s with main := .starting rest }
    | .starting [] => some { s with main := .waiting }
    | _ => none
  | .wait =>
    if s.main = .waiting ∧ ∀ w ∈ s.watchers, w.place = .returned then
      some { s with main := .returned, stopped := true }
    else none
  | .ctxDone i =>
    match s.watchers[i]? with
    | some w => if w.place = .selecting ∧ s.done then some (s.go i w .returned) else none
    | none => none
  | .receive i =>
    match s.watchers[i]? with
    | some ⟨c, .selecting⟩ =>
      match s.channels[c]? with
      | some ⟨err :: queue, closed, sent⟩ =>
        some { s.go i ⟨c, .selecting⟩ (.received err true) with
          channels := s.channels.set c ⟨queue, closed, sent⟩ }
      | some ⟨[], true, _⟩ => some (s.go i ⟨c, .selecting⟩ (.received none false))
      | _ => none
    | _ => none
  | .check i =>
    match s.watchers[i]? with
    | some ⟨c, .received err ok⟩ =>
      if !ok || s.done then some (s.go i ⟨c, .received err ok⟩ .returned)
      else
        match err with
        | some _ => some (s.go i ⟨c, .received err ok⟩ .reporting)
        | none => some (s.go i ⟨c, .received err ok⟩ .selecting)
    | _ => none
  | .report i =>
    match s.watchers[i]? with
    | some ⟨c, .reporting⟩ =>
      match s.failure with
      | .fresh => some { s.go i ⟨c, .reporting⟩ .marking with failure := .running }
      | .running => none
      | .done => some (s.go i ⟨c, .reporting⟩ .returned)
    | _ => none
  | .mark i =>
    match s.watchers[i]? with
    | some ⟨c, .marking⟩ => some { s.go i ⟨c, .marking⟩ .stopping with marked := s.marked + 1 }
    | _ => none
  | .stop i =>
    match s.watchers[i]? with
    | some ⟨c, .stopping⟩ =>
      some { s.go i ⟨c, .stopping⟩ .returned with stopped := true, failure := .done }
    | _ => none
  | .send c err =>
    match s.channels[c]? with
    | some ⟨queue, false, sent⟩ =>
      some { s with channels := s.channels.set c ⟨queue ++ [err], false, sent ++ [err]⟩ }
    | _ => none
  | .close c =>
    match s.channels[c]? with
    | some ⟨queue, false, sent⟩ => some { s with channels := s.channels.set c ⟨queue, true, sent⟩ }
    | _ => none
  | .cancel => some { s with parentDone := true }

/-- The call `watchErrors(ctx, markFailed, observables...)`, for channels that may already
hold errors or be closed. -/
def init (observables : List (Option ℕ)) (channels : List (List (Option GoError) × Bool)) : Watch where
  main := .starting observables
  watchers := []
  channels := channels.map fun ch => ⟨ch.1, ch.2, ch.1⟩
  parentDone := false
  stopped := false
  failure := .fresh
  marked := 0

/-! ## What a step keeps -/

variable {s s' : Watch} {a : WatchAction} {observables : List (Option ℕ)} {w : Watcher} {c : ℕ}
variable {e : GoError}

/-- `e` was sent on channel `c`. -/
def Sent (s : Watch) (c : ℕ) (e : GoError) : Prop :=
  ∃ ch, s.channels[c]? = some ch ∧ some e ∈ ch.sent

/-- Channel `c` is closed, and nothing is left in it. -/
def Drained (s : Watch) (c : ℕ) : Prop :=
  ∃ ch, s.channels[c]? = some ch ∧ ch.closed = true ∧ ch.queue = []

/-- `e` was sent on channel `c`, and nobody has looked at it. -/
def Pending (s : Watch) (c : ℕ) (e : GoError) : Prop :=
  (∃ ch, s.channels[c]? = some ch ∧ some e ∈ ch.queue) ∨ ⟨c, .received (some e) true⟩ ∈ s.watchers

/-- What never goes back. -/
structure Grows (s s' : Watch) : Prop where
  sent : ∀ {c e}, s.Sent c e → s'.Sent c e
  drained : ∀ {c}, s.Drained c → s'.Drained c
  parentDone : s.parentDone = true → s'.parentDone = true
  begun : s.failure ≠ .fresh → s'.failure ≠ .fresh
  done : s.failure = .done → s'.failure = .done

/-- A step that leaves the channels, the context and the mark alone. -/
theorem Grows.of_eq (hchannels : s'.channels = s.channels) (hparent : s'.parentDone = s.parentDone)
    (hfailure : s'.failure = s.failure) : s.Grows s' where
  sent h := by unfold Sent; rw [hchannels]; exact h
  drained h := by unfold Drained; rw [hchannels]; exact h
  parentDone h := hparent.trans h
  begun h := hfailure ▸ h
  done h := hfailure.trans h

/-- A step that puts `ch'` in the place of channel `ch`. -/
theorem Grows.of_set {ch ch' : Chan} (hch : s.channels[c]? = some ch)
    (hchannels : s'.channels = s.channels.set c ch') (hsent : ∀ err ∈ ch.sent, err ∈ ch'.sent)
    (hopen : ch.closed = true → ch.queue = [] → ch'.closed = true ∧ ch'.queue = [])
    (hparent : s'.parentDone = s.parentDone) (hfailure : s'.failure = s.failure) : s.Grows s' where
  sent := by
    rintro d e ⟨chd, hd, he⟩
    unfold Sent
    rw [hchannels]
    rcases eq_or_ne c d with rfl | hne
    · rw [hch] at hd
      cases hd
      exact ⟨ch', Pool.getElem?_set hch, hsent _ he⟩
    · exact ⟨chd, (List.getElem?_set_ne hne).trans hd, he⟩
  drained := by
    rintro d ⟨chd, hd, hclosed, hqueue⟩
    unfold Drained
    rw [hchannels]
    rcases eq_or_ne c d with rfl | hne
    · rw [hch] at hd
      cases hd
      exact ⟨ch', Pool.getElem?_set hch, hopen hclosed hqueue⟩
    · exact ⟨chd, (List.getElem?_set_ne hne).trans hd, hclosed, hqueue⟩
  parentDone h := hparent.trans h
  begun h := hfailure ▸ h
  done h := hfailure.trans h

theorem next_grows (h : s.next a = some s') : s.Grows s' := by
  cases a with
  | start =>
      simp only [next] at h
      split at h <;> cases h <;> exact .of_eq rfl rfl rfl
  | wait =>
      simp only [next] at h
      split at h <;> cases h
      exact .of_eq rfl rfl rfl
  | ctxDone i =>
      simp only [next] at h
      split at h
      · split at h <;> cases h
        exact .of_eq rfl rfl rfl
      · cases h
  | receive i =>
      simp only [next] at h
      split at h
      · split at h <;> cases h
        · rename_i hch
          exact .of_set hch rfl (fun _ h => h) (fun _ hnil => by cases hnil) rfl rfl
        · exact .of_eq rfl rfl rfl
      · cases h
  | check i =>
      simp only [next] at h
      split at h
      · split at h
        · cases h; exact .of_eq rfl rfl rfl
        · split at h <;> cases h <;> exact .of_eq rfl rfl rfl
      · cases h
  | report i =>
      simp only [next] at h
      split at h
      · split at h <;> cases h
        · rename_i hfresh
          exact ⟨fun h => h, fun h => h, fun h => h, fun h => absurd hfresh h,
            fun h => by rw [hfresh] at h; cases h⟩
        · exact .of_eq rfl rfl rfl
      · cases h
  | mark i =>
      simp only [next] at h
      split at h <;> cases h
      exact .of_eq rfl rfl rfl
  | stop i =>
      simp only [next] at h
      split at h <;> cases h
      exact ⟨fun h => h, fun h => h, fun h => h, fun _ => Once.noConfusion, fun _ => rfl⟩
  | send c err =>
      simp only [next] at h
      split at h <;> cases h
      rename_i hch
      exact .of_set hch rfl (fun _ h => List.mem_append_left _ h) (fun h => by cases h) rfl rfl
  | close c =>
      simp only [next] at h
      split at h <;> cases h
      rename_i hch
      exact .of_set hch rfl (fun _ h => h) (fun h => by cases h) rfl rfl
  | cancel =>
      cases h
      exact ⟨fun h => h, fun h => h, fun _ => rfl, fun h => h, fun h => h⟩

/-! ## The invariant -/

/-- What the place of a watcher says. -/
def At (s : Watch) (w : Watcher) : Prop :=
  match w.place with
  | .selecting => True
  | .received err true => ∀ e, err = some e → s.Sent w.observable e
  | .received _ false => s.Drained w.observable
  | .reporting | .marking | .stopping => ∃ e, s.Sent w.observable e
  | .returned => s.failure = .done ∨ s.parentDone = true ∨ s.Drained w.observable

theorem At.mono (h : s.At w) (hg : s.Grows s') : s'.At w := by
  unfold At at h ⊢
  split at h
  · trivial
  · exact fun e he => hg.sent (h e he)
  · exact hg.drained h
  · exact h.imp fun e => hg.sent
  · exact h.imp fun e => hg.sent
  · exact h.imp fun e => hg.sent
  · exact h.imp hg.done (.imp hg.parentDone hg.drained)

/-- In the function that `failure.Do` runs. -/
def holds (w : Watcher) : Bool := w.place = .marking || w.place = .stopping

/-- The goroutines and what they watch. -/
structure Manned (observables : List (Option ℕ)) (s : Watch) : Prop where
  observed : s.watchers.map Watcher.observable ++ s.main.left.filterMap id = observables.filterMap id
  finished : s.main = .returned → ∀ w ∈ s.watchers, w.place = .returned
  places : ∀ w ∈ s.watchers, s.At w
  queued : ∀ ch ∈ s.channels, ∀ err ∈ ch.queue, err ∈ ch.sent

/-- `failure` runs its function once, and the function marks the failure once. -/
structure Marks (s : Watch) : Prop where
  once : s.watchers.countP holds = (decide (s.failure = .running)).toNat
  marked : s.marked = s.watchers.countP (·.place = .stopping) + (decide (s.failure = .done)).toNat
  stopped : s.stopped = true → s.failure = .done ∨ s.main = .returned
  ended : s.failure = .done → s.stopped = true

/-- An error that was sent is still to be looked at, unless the watch is over. -/
def Kept (s : Watch) : Prop :=
  s.parentDone = true ∨ s.failure ≠ .fresh ∨ (∃ w ∈ s.watchers, w.place = .reporting) ∨
    ∀ c e, s.Sent c e → s.Pending c e

structure Inv (observables : List (Option ℕ)) (s : Watch) : Prop where
  manned : s.Manned observables
  marks : s.Marks
  cause : s.failure ≠ .fresh → ∃ c e, some c ∈ observables ∧ s.Sent c e
  kept : s.Kept

theorem init_inv {channels : List (List (Option GoError) × Bool)} :
    (init observables channels).Inv observables where
  manned := by
    refine ⟨rfl, Main.noConfusion, fun _ hw => absurd hw List.not_mem_nil, fun ch hch err herr => ?_⟩
    obtain ⟨x, -, rfl⟩ := List.mem_map.mp hch
    exact herr
  marks := ⟨rfl, rfl, Bool.noConfusion, Once.noConfusion⟩
  cause h := absurd rfl h
  kept := by
    refine .inr (.inr (.inr ?_))
    rintro c e ⟨ch, hch, he⟩
    refine .inl ⟨ch, hch, ?_⟩
    obtain ⟨x, -, rfl⟩ := List.mem_map.mp (List.mem_of_getElem? hch)
    exact he

/-- A watched channel is in the list of observables. -/
theorem Manned.watched (hi : s.Manned observables) (hw : w ∈ s.watchers) :
    some w.observable ∈ observables := by
  have hmem : w.observable ∈ observables.filterMap id := by
    rw [← hi.observed]
    exact List.mem_append_left _ (List.mem_map_of_mem hw)
  simpa using hmem

/-- While a watcher is there, only a failure or the parent ends the watch. -/
theorem Inv.done_cases (hi : s.Inv observables) (hw : w ∈ s.watchers) (hlive : w.place ≠ .returned)
    (h : s.done = true) : s.failure = .done ∨ s.parentDone = true := by
  rcases Bool.or_eq_true_iff.mp h with hparent | hstopped
  · exact .inr hparent
  · rcases hi.marks.stopped hstopped with hdone | hreturned
    · exact .inl hdone
    · exact absurd (hi.manned.finished hreturned w hw) hlive

/-! ### One watcher goes on -/

section Move

variable {i : ℕ} {place : Place} (hw : s.watchers[i]? = some w)
variable (hwatchers : s'.watchers = s.watchers.set i { w with place := place })

include hw hwatchers

theorem Manned.move (hi : s.Manned observables) (hmain : s'.main = s.main)
    (hlive : w.place ≠ .returned) (hg : s.Grows s') (hat : s'.At { w with place := place })
    (hqueued : ∀ ch ∈ s'.channels, ∀ err ∈ ch.queue, err ∈ ch.sent) : s'.Manned observables where
  observed := by
    have hsame : s'.watchers.map Watcher.observable = s.watchers.map Watcher.observable := by
      rw [hwatchers]
      exact Pool.map_set hw rfl
    rw [hsame, hmain]
    exact hi.observed
  finished h := absurd (hi.finished (hmain ▸ h) w (List.mem_of_getElem? hw)) hlive
  places := by
    rw [hwatchers]
    exact Pool.forall_set (fun z hz => (hi.places z hz).mono hg) hat
  queued := hqueued

/-- A watcher that has nothing to do with the mark. -/
theorem Marks.move (hi : s.Marks) (hmain : s'.main = s.main) (hfailure : s'.failure = s.failure)
    (hstopped : s'.stopped = s.stopped) (hmarked : s'.marked = s.marked)
    (hw₁ : holds w = false) (hw₂ : holds { w with place := place } = false) : s'.Marks where
  once := by
    have hset := @Pool.countP_set _ _ _ _ { w with place := place } holds hw
    rw [hw₁, hw₂] at hset
    rw [hwatchers, hfailure]
    exact hset.trans hi.once
  marked := by
    have hset := @Pool.countP_set _ _ _ _ { w with place := place } (·.place = .stopping) hw
    have h₁ : decide (w.place = .stopping) = false := (Bool.or_eq_false_iff.mp hw₁).2
    have h₂ : decide (place = .stopping) = false := (Bool.or_eq_false_iff.mp hw₂).2
    dsimp only at hset
    rw [h₁, h₂] at hset
    rw [hwatchers, hfailure, hmarked, hi.marked]
    simpa using hset.symm
  stopped h := by
    rw [hfailure, hmain]
    exact hi.stopped (hstopped ▸ h)
  ended h := hstopped.trans (hi.ended (hfailure ▸ h))

/-- A watcher that is not about to report, nor has an error in hand. -/
theorem Kept.move (hi : s.Kept) (hchannels : s'.channels = s.channels)
    (hparent : s'.parentDone = s.parentDone) (hfailure : s'.failure = s.failure)
    (hreporting : w.place ≠ .reporting) (hhand : ∀ e, w.place ≠ .received (some e) true) :
    s'.Kept := by
  unfold Kept
  rw [hparent, hfailure]
  refine hi.imp id (.imp id (.imp ?_ ?_))
  · rintro ⟨z, hz, hplace⟩
    refine ⟨z, hwatchers ▸ Pool.mem_set_of_mem hw hz ?_, hplace⟩
    rintro rfl
    exact hreporting hplace
  · rintro h c e ⟨ch, hch, he⟩
    rcases h c e ⟨ch, hchannels ▸ hch, he⟩ with ⟨ch', hch', he'⟩ | hmem
    · exact .inl ⟨ch', hchannels.symm ▸ hch', he'⟩
    · refine .inr (hwatchers ▸ Pool.mem_set_of_mem hw hmem ?_)
      rintro rfl
      exact hhand e rfl

end Move

/-- A channel that changes, while what is looked at of it is kept in mind elsewhere. -/
theorem Kept.of_set {ch ch' : Chan} (hi : s.Kept) (hch : s.channels[c]? = some ch)
    (hchannels : s'.channels = s.channels.set c ch') (hparent : s'.parentDone = s.parentDone)
    (hfailure : s'.failure = s.failure)
    (hreporting : ∀ w ∈ s.watchers, w.place = .reporting → w ∈ s'.watchers)
    (hhand : ∀ d e, ⟨d, .received (some e) true⟩ ∈ s.watchers →
      ⟨d, .received (some e) true⟩ ∈ s'.watchers)
    (hnew : ∀ e, some e ∈ ch'.sent → some e ∈ ch'.queue ∨ ⟨c, .received (some e) true⟩ ∈ s'.watchers ∨
      some e ∈ ch.sent ∧ some e ∉ ch.queue) : s'.Kept := by
  obtain ⟨hlt, -⟩ := List.getElem?_eq_some_iff.mp hch
  unfold Kept
  rw [hparent, hfailure]
  refine hi.imp id (.imp id (.imp ?_ ?_))
  · exact fun ⟨w, hw, hplace⟩ => ⟨w, hreporting w hw hplace, hplace⟩
  · rintro hpending d e ⟨chd, hd, he⟩
    unfold Pending
    rw [hchannels] at hd ⊢
    rcases eq_or_ne c d with rfl | hne
    · rw [List.getElem?_set_self hlt] at hd ⊢
      cases hd
      rcases hnew e he with hqueue | hmem | ⟨hsent, hgone⟩
      · exact .inl ⟨_, rfl, hqueue⟩
      · exact .inr hmem
      · refine (hpending c e ⟨ch, hch, hsent⟩).imp ?_ (hhand c e)
        rintro ⟨ch₁, hch₁, he₁⟩
        rw [hch] at hch₁
        cases hch₁
        exact absurd he₁ hgone
    · rw [List.getElem?_set_ne hne] at hd ⊢
      exact (hpending d e ⟨chd, hd, he⟩).imp id (hhand d e)

theorem next_inv (hi : s.Inv observables) (h : s.next a = some s') : s'.Inv observables := by
  have hg := next_grows h
  have hcause (hsame : s'.failure = s.failure) :
      s'.failure ≠ .fresh → ∃ c e, some c ∈ observables ∧ s'.Sent c e := by
    intro hf
    obtain ⟨c, e, hc, he⟩ := hi.cause (hsame ▸ hf)
    exact ⟨c, e, hc, hg.sent he⟩
  cases a with
  | start =>
      simp only [next] at h
      split at h
      · rename_i c rest hmain
        cases h
        have hobserved := hi.manned.observed
        rw [hmain] at hobserved
        refine ⟨⟨?_, Main.noConfusion, ?_, hi.manned.queued⟩, ?_, hcause rfl, ?_⟩
        · rw [← hobserved]
          simp [Main.left]
        · intro w hw
          rcases List.mem_append.mp hw with hold | hnew
          · exact (hi.manned.places w hold).mono hg
          · rw [List.mem_singleton.mp hnew]
            trivial
        · refine ⟨?_, ?_, fun hs => .inl ((hi.marks.stopped hs).resolve_right (by simp [hmain])), hi.marks.ended⟩
          · simpa [holds] using hi.marks.once
          · simpa using hi.marks.marked
        · refine hi.kept.imp id (.imp id (.imp ?_ ?_))
          · exact fun ⟨w, hw, hplace⟩ => ⟨w, List.mem_append_left _ hw, hplace⟩
          · exact fun hp c e he => (hp c e he).imp id (List.mem_append_left _)
      · rename_i rest hmain
        cases h
        have hobserved := hi.manned.observed
        rw [hmain] at hobserved
        refine ⟨⟨hobserved, Main.noConfusion, hi.manned.places, hi.manned.queued⟩, ?_, hcause rfl, hi.kept⟩
        exact ⟨hi.marks.once, hi.marks.marked,
          fun hs => .inl ((hi.marks.stopped hs).resolve_right (by simp [hmain])), hi.marks.ended⟩
      · rename_i hmain
        cases h
        have hobserved := hi.manned.observed
        rw [hmain] at hobserved
        refine ⟨⟨hobserved, Main.noConfusion, hi.manned.places, hi.manned.queued⟩, ?_, hcause rfl, hi.kept⟩
        exact ⟨hi.marks.once, hi.marks.marked,
          fun hs => .inl ((hi.marks.stopped hs).resolve_right (by simp [hmain])), hi.marks.ended⟩
      · cases h
  | wait =>
      simp only [next] at h
      split at h <;> cases h
      rename_i hwait
      have hobserved := hi.manned.observed
      rw [hwait.1] at hobserved
      exact ⟨⟨hobserved, fun _ => hwait.2, hi.manned.places, hi.manned.queued⟩,
        ⟨hi.marks.once, hi.marks.marked, fun _ => .inr rfl, fun _ => rfl⟩, hcause rfl, hi.kept⟩
  | ctxDone i =>
      simp only [next] at h
      split at h
      · rename_i w hw
        split at h <;> cases h
        rename_i hdone
        have hlive : w.place ≠ .returned := by simp [hdone.1]
        have hover := hi.done_cases (List.mem_of_getElem? hw) hlive hdone.2
        exact ⟨hi.manned.move hw rfl rfl hlive hg (hover.imp id .inl) hi.manned.queued,
          hi.marks.move hw rfl rfl rfl rfl rfl (by simp [holds, hdone.1]) rfl, hcause rfl,
          hi.kept.move hw rfl rfl rfl rfl (by simp [hdone.1]) (by simp [hdone.1])⟩
      · cases h
  | receive i =>
      simp only [next] at h
      split at h
      · rename_i c hw
        split at h <;> cases h
        · rename_i err queue closed sent hch
          have hqueued := hi.manned.queued _ (List.mem_of_getElem? hch)
          refine ⟨?_, hi.marks.move hw rfl rfl rfl rfl rfl rfl rfl, hcause rfl, ?_⟩
          · refine hi.manned.move hw rfl rfl Place.noConfusion hg ?_
              (Pool.forall_set hi.manned.queued fun e he => hqueued e (List.mem_cons_of_mem _ he))
            rintro e rfl
            exact hg.sent ⟨_, hch, hqueued _ List.mem_cons_self⟩
          · refine hi.kept.of_set hch rfl rfl rfl (fun z hz hplace => ?_) (fun d e hmem => ?_)
              (fun e he => ?_)
            · exact Pool.mem_set_of_mem hw hz (by rintro rfl; cases hplace)
            · exact Pool.mem_set_of_mem hw hmem (by rintro ⟨⟩)
            · by_cases herr : err = some e
              · exact .inr (.inl (herr ▸ Pool.mem_set_self hw))
              · by_cases hqueue : some e ∈ queue
                · exact .inl hqueue
                · refine .inr (.inr ⟨he, fun hmem => ?_⟩)
                  rcases List.mem_cons.mp hmem with rfl | htail
                  · exact herr rfl
                  · exact hqueue htail
        · rename_i sent hch
          exact ⟨hi.manned.move hw rfl rfl Place.noConfusion hg ⟨_, hch, rfl, rfl⟩ hi.manned.queued,
            hi.marks.move hw rfl rfl rfl rfl rfl rfl rfl, hcause rfl,
            hi.kept.move hw rfl rfl rfl rfl Place.noConfusion (fun _ => Place.noConfusion)⟩
      · cases h
  | check i =>
      simp only [next] at h
      split at h
      · rename_i c err ok hw
        have hat := hi.manned.places _ (List.mem_of_getElem? hw)
        split at h
        · rename_i hend
          cases h
          cases ok with
          | false =>
              exact ⟨hi.manned.move hw rfl rfl Place.noConfusion hg (.inr (.inr hat)) hi.manned.queued,
                hi.marks.move hw rfl rfl rfl rfl rfl rfl rfl, hcause rfl,
                hi.kept.move hw rfl rfl rfl rfl Place.noConfusion (by simp)⟩
          | true =>
              have hover := hi.done_cases (List.mem_of_getElem? hw) Place.noConfusion (by simpa using hend)
              exact ⟨hi.manned.move hw rfl rfl Place.noConfusion hg (hover.imp id .inl) hi.manned.queued,
                hi.marks.move hw rfl rfl rfl rfl rfl rfl rfl, hcause rfl,
                hover.elim (fun hdone => .inr (.inl (by simp [go, hdone]))) .inl⟩
        · rename_i hend
          obtain rfl : ok = true := by simpa using (not_or.mp (mt Bool.or_eq_true_iff.mpr hend)).1
          split at h <;> cases h
          · rename_i e
            exact ⟨hi.manned.move hw rfl rfl Place.noConfusion hg ⟨e, hg.sent (hat e rfl)⟩ hi.manned.queued,
              hi.marks.move hw rfl rfl rfl rfl rfl rfl rfl, hcause rfl,
              .inr (.inr (.inl ⟨_, Pool.mem_set_self hw, rfl⟩))⟩
          · exact ⟨hi.manned.move hw rfl rfl Place.noConfusion hg trivial hi.manned.queued,
              hi.marks.move hw rfl rfl rfl rfl rfl rfl rfl, hcause rfl,
              hi.kept.move hw rfl rfl rfl rfl Place.noConfusion (by simp)⟩
      · cases h
  | report i =>
      simp only [next] at h
      split at h
      · rename_i c hw
        obtain ⟨e, he⟩ := hi.manned.places _ (List.mem_of_getElem? hw)
        split at h <;> cases h
        · rename_i hfresh
          refine ⟨hi.manned.move hw rfl rfl Place.noConfusion hg ⟨e, hg.sent he⟩ hi.manned.queued, ?_,
            fun _ => ⟨c, e, hi.manned.watched (List.mem_of_getElem? hw), hg.sent he⟩, .inr (.inl Once.noConfusion)⟩
          have honce := hi.marks.once
          have hmarked := hi.marks.marked
          have hheld := @Pool.countP_set _ _ _ _ (⟨c, .marking⟩ : Watcher) holds hw
          have hstopping := @Pool.countP_set _ _ _ _ (⟨c, .marking⟩ : Watcher) (·.place = .stopping) hw
          rw [hfresh] at honce hmarked
          refine ⟨?_, ?_, fun hs => absurd (hi.marks.stopped hs) ?_, Once.noConfusion⟩
          · simpa [go, holds, honce] using hheld
          · simpa [go, hmarked] using hstopping.symm
          · rw [hfresh]
            rintro (hdone | hreturned)
            · cases hdone
            · cases hi.manned.finished hreturned _ (List.mem_of_getElem? hw)
        · rename_i hdone
          exact ⟨hi.manned.move hw rfl rfl Place.noConfusion hg (.inl hdone) hi.manned.queued,
            hi.marks.move hw rfl rfl rfl rfl rfl rfl rfl, hcause rfl, .inr (.inl (by simp [go, hdone]))⟩
      · cases h
  | mark i =>
      simp only [next] at h
      split at h <;> cases h
      rename_i c hw
      have hat := hi.manned.places _ (List.mem_of_getElem? hw)
      refine ⟨hi.manned.move hw rfl rfl Place.noConfusion hg (hat.imp fun _ => hg.sent) hi.manned.queued,
        ?_, hcause rfl, hi.kept.move hw rfl rfl rfl rfl Place.noConfusion (fun _ => Place.noConfusion)⟩
      have hheld := @Pool.countP_set _ _ _ _ (⟨c, .stopping⟩ : Watcher) holds hw
      have hstopping := @Pool.countP_set _ _ _ _ (⟨c, .stopping⟩ : Watcher) (·.place = .stopping) hw
      refine ⟨?_, ?_, hi.marks.stopped, hi.marks.ended⟩
      · have := hi.marks.once
        simp only [holds, decide_true, Bool.true_or, Bool.or_true] at hheld
        exact (Nat.add_right_cancel hheld).trans this
      · have := hi.marks.marked
        simp only [reduceCtorEq, decide_false, decide_true, Bool.toNat_false, Bool.toNat_true] at hstopping
        change s.marked + 1 = (s.watchers.set i ⟨c, .stopping⟩).countP _ + (decide (s.failure = .done)).toNat
        omega
  | stop i =>
      simp only [next] at h
      split at h <;> cases h
      rename_i c hw
      have hat := hi.manned.places _ (List.mem_of_getElem? hw)
      refine ⟨hi.manned.move hw rfl rfl Place.noConfusion hg (.inl rfl) hi.manned.queued, ?_, fun _ => ?_,
        .inr (.inl Once.noConfusion)⟩
      · have hheld := @Pool.countP_set _ _ _ _ (⟨c, .returned⟩ : Watcher) holds hw
        have hstopping := @Pool.countP_set _ _ _ _ (⟨c, .returned⟩ : Watcher) (·.place = .stopping) hw
        have honce := hi.marks.once
        have hmarked := hi.marks.marked
        simp only [holds, reduceCtorEq, decide_false, decide_true, Bool.or_false, Bool.or_true,
          Bool.toNat_false, Bool.toNat_true] at hheld hstopping
        -- the one that stops is the only one that holds `failure`
        have hrunning : s.failure = .running := by
          by_contra hne
          rw [decide_eq_false hne] at honce
          simp only [Bool.toNat_false] at honce
          omega
        rw [hrunning] at honce hmarked
        refine ⟨?_, ?_, fun _ => .inl rfl, fun _ => rfl⟩
        · simp only [go, reduceCtorEq, decide_false, decide_true, Bool.toNat_false, Bool.toNat_true] at honce ⊢
          omega
        · simp only [go, reduceCtorEq, decide_false, decide_true, Bool.toNat_false, Bool.toNat_true] at hmarked ⊢
          omega
      · obtain ⟨e, he⟩ := hat
        exact ⟨c, e, hi.manned.watched (List.mem_of_getElem? hw), hg.sent he⟩
  | send c err =>
      simp only [next] at h
      split at h <;> cases h
      rename_i queue sent hch
      have hqueued := hi.manned.queued _ (List.mem_of_getElem? hch)
      refine ⟨⟨hi.manned.observed, hi.manned.finished, fun w hw => (hi.manned.places w hw).mono hg, ?_⟩,
        ⟨hi.marks.once, hi.marks.marked, hi.marks.stopped, hi.marks.ended⟩, hcause rfl,
        hi.kept.of_set hch rfl rfl rfl (fun _ hz _ => hz) (fun _ _ hmem => hmem) fun e he => ?_⟩
      · refine Pool.forall_set hi.manned.queued fun e he => ?_
        exact (List.mem_append.mp he).elim (fun h => List.mem_append_left _ (hqueued e h))
          (List.mem_append_right _)
      · rcases List.mem_append.mp he with hold | hnew
        · by_cases hqueue : some e ∈ queue
          · exact .inl (List.mem_append_left _ hqueue)
          · exact .inr (.inr ⟨hold, hqueue⟩)
        · exact .inl (List.mem_append_right _ hnew)
  | close c =>
      simp only [next] at h
      split at h <;> cases h
      rename_i queue sent hch
      have hqueued : ∀ err ∈ queue, err ∈ sent := hi.manned.queued _ (List.mem_of_getElem? hch)
      refine ⟨⟨hi.manned.observed, hi.manned.finished, fun w hw => (hi.manned.places w hw).mono hg, ?_⟩,
        ⟨hi.marks.once, hi.marks.marked, hi.marks.stopped, hi.marks.ended⟩, hcause rfl,
        hi.kept.of_set hch rfl rfl rfl (fun _ hz _ => hz) (fun _ _ hmem => hmem) fun e he => ?_⟩
      · exact Pool.forall_set hi.manned.queued hqueued
      · by_cases hqueue : some e ∈ queue
        · exact .inl hqueue
        · exact .inr (.inr ⟨he, hqueue⟩)
  | cancel =>
      cases h
      exact ⟨⟨hi.manned.observed, hi.manned.finished, fun w hw => (hi.manned.places w hw).mono hg,
        hi.manned.queued⟩, ⟨hi.marks.once, hi.marks.marked, hi.marks.stopped, hi.marks.ended⟩, hcause rfl, .inl rfl⟩

/-! ## Failures that come too late -/

/-- The parent is done and nobody is on the way to mark a failure. -/
structure Late (m : ℕ) (s : Watch) : Prop where
  parentDone : s.parentDone = true
  marked : s.marked = m
  places : ∀ w ∈ s.watchers, w.place ≠ .reporting ∧ w.place ≠ .marking ∧ w.place ≠ .stopping

theorem next_late {m : ℕ} (hl : s.Late m) (h : s.next a = some s') : s'.Late m := by
  have hparent := (next_grows h).parentDone hl.parentDone
  have hgo {i : ℕ} {w : Watcher} {place : Place}
      (hplace : place ≠ .reporting ∧ place ≠ .marking ∧ place ≠ .stopping) :
      ∀ z ∈ s.watchers.set i { w with place := place },
        z.place ≠ .reporting ∧ z.place ≠ .marking ∧ z.place ≠ .stopping :=
    Pool.forall_set hl.places hplace
  cases a with
  | start =>
      simp only [next] at h
      split at h <;> cases h
      · refine ⟨hparent, hl.marked, fun w hw => ?_⟩
        rcases List.mem_append.mp hw with hold | hnew
        · exact hl.places w hold
        · rw [List.mem_singleton.mp hnew]
          simp
      · exact ⟨hparent, hl.marked, hl.places⟩
      · exact ⟨hparent, hl.marked, hl.places⟩
  | wait =>
      simp only [next] at h
      split at h <;> cases h
      exact ⟨hparent, hl.marked, hl.places⟩
  | ctxDone i =>
      simp only [next] at h
      split at h
      · split at h <;> cases h
        exact ⟨hparent, hl.marked, hgo (by simp)⟩
      · cases h
  | receive i =>
      simp only [next] at h
      split at h
      · split at h <;> cases h <;> exact ⟨hparent, hl.marked, hgo (by simp)⟩
      · cases h
  | check i =>
      simp only [next] at h
      split at h
      · split at h
        · cases h
          exact ⟨hparent, hl.marked, hgo (by simp)⟩
        · rename_i hend
          exact absurd (by simp [done, hl.parentDone]) hend
      · cases h
  | report i =>
      simp only [next] at h
      split at h
      · rename_i hw
        exact absurd rfl (hl.places _ (List.mem_of_getElem? hw)).1
      · cases h
  | mark i =>
      simp only [next] at h
      split at h
      · rename_i hw
        exact absurd rfl (hl.places _ (List.mem_of_getElem? hw)).2.1
      · cases h
  | stop i =>
      simp only [next] at h
      split at h
      · rename_i hw
        exact absurd rfl (hl.places _ (List.mem_of_getElem? hw)).2.2
      · cases h
  | send c err =>
      simp only [next] at h
      split at h <;> cases h
      exact ⟨hparent, hl.marked, hl.places⟩
  | close c =>
      simp only [next] at h
      split at h <;> cases h
      exact ⟨hparent, hl.marked, hl.places⟩
  | cancel =>
      cases h
      exact ⟨hparent, hl.marked, hl.places⟩

/-! ## The end of the watch -/

def rank (s : Watch) : ℕ :=
  s.main.rank + (s.watchers.map (·.place.rank)).sum + 8 * (s.channels.map (·.queue.length)).sum

theorem rank_go {i : ℕ} (hw : s.watchers[i]? = some w) {place : Place}
    (h : place.rank < w.place.rank) : (s.go i w place).rank < s.rank := by
  have hset := Pool.sum_map_set (f := fun w : Watcher => w.place.rank) (y := { w with place := place }) hw
  dsimp only at hset
  simp only [rank, go]
  omega

theorem rank_set {ch : Chan} (hch : s.channels[c]? = some ch) (ch' : Chan) :
    rank { s with channels := s.channels.set c ch' } + 8 * ch.queue.length = s.rank + 8 * ch'.queue.length := by
  have hset := Pool.sum_map_set (f := fun ch : Chan => ch.queue.length) (y := ch') hch
  simp only [rank]
  omega

theorem ranked : Ranked next WatchAction.own rank 8 where
  lowers {s s' a} h ha := by
    cases a with
    | start =>
        simp only [next] at h
        split at h
        all_goals rename_i hmain
        all_goals cases h
        all_goals simp only [rank, hmain, Main.rank, Place.rank, List.length_cons, List.length_nil,
          List.map_append, List.map_cons, List.map_nil, List.sum_append, List.sum_cons, List.sum_nil]
        all_goals omega
    | wait =>
        simp only [next] at h
        split at h <;> cases h
        rename_i hwait
        simp only [rank, hwait.1, Main.rank]
        omega
    | ctxDone i =>
        simp only [next] at h
        split at h
        · rename_i w hw
          split at h <;> cases h
          rename_i hdone
          exact rank_go hw (by simp [Place.rank, hdone.1])
        · cases h
    | receive i =>
        simp only [next] at h
        split at h
        · rename_i c hw
          split at h <;> cases h
          · rename_i err queue closed sent hch
            -- the queue gets shorter by more than the value in hand weighs
            have hset := rank_set hch ⟨queue, closed, sent⟩
            have hgo : ((s.watchers.set i ⟨c, .received err true⟩).map (·.place.rank)).sum + 5 =
                (s.watchers.map (·.place.rank)).sum + 12 := Pool.sum_map_set (f := (·.place.rank)) hw
            simp only [rank, go, List.length_cons] at hset ⊢
            omega
          · exact rank_go hw (by simp [Place.rank])
        · cases h
    | check i =>
        simp only [next] at h
        split at h
        · rename_i c err ok hw
          split at h
          · cases h
            exact rank_go hw (by cases ok <;> simp [Place.rank])
          · rename_i hend
            obtain rfl : ok = true := by simpa using (not_or.mp (mt Bool.or_eq_true_iff.mpr hend)).1
            split at h <;> cases h <;> exact rank_go hw (by simp [Place.rank])
        · cases h
    | report i =>
        simp only [next] at h
        split at h
        · rename_i c hw
          split at h <;> cases h <;> exact rank_go hw (by simp [Place.rank])
        · cases h
    | mark i =>
        simp only [next] at h
        split at h <;> cases h
        rename_i hw
        refine rank_go hw ?_
        simp [Place.rank]
    | stop i =>
        simp only [next] at h
        split at h <;> cases h
        rename_i hw
        refine rank_go hw ?_
        simp [Place.rank]
    | send c err => cases ha
    | close c => cases ha
    | cancel => cases ha
  env {s s' a} h ha := by
    cases a with
    | send c err =>
        simp only [next] at h
        split at h <;> cases h
        rename_i queue sent hch
        have hset := rank_set hch ⟨queue ++ [err], false, sent ++ [err]⟩
        simp only [List.length_append, List.length_singleton] at hset
        omega
    | close c =>
        simp only [next] at h
        split at h <;> cases h
        rename_i queue sent hch
        have hset := rank_set hch ⟨queue, true, sent⟩
        simp only at hset
        omega
    | cancel => cases h; exact Nat.le_add_right _ _
    | _ => cases ha

/-! ## Correctness -/

theorem Inv.marked_le (hi : s.Inv observables) :
    s.marked ≤ (decide (s.failure = .running)).toNat + (decide (s.failure = .done)).toNat := by
  have hle : s.watchers.countP (·.place = .stopping) ≤ s.watchers.countP holds :=
    List.countP_mono_left fun w _ hw => by simp only [holds, hw, Bool.or_true]
  rw [hi.marks.marked, ← hi.marks.once]
  exact Nat.add_le_add_right hle _

/-- `watchErrors` leaves no goroutine behind. -/
theorem Inv.atRest_of_returned (hi : s.Inv observables) (hmain : s.main = .returned) :
    AtRest next WatchAction.own s := by
  have hgone {i : ℕ} {w : Watcher} (hw : s.watchers[i]? = some w) : w.place = .returned :=
    hi.manned.finished hmain w (List.mem_of_getElem? hw)
  intro a ha
  cases a with
  | start => simp [next, hmain]
  | wait => simp [next, hmain]
  | send c err => cases ha
  | close c => cases ha
  | cancel => cases ha
  | ctxDone i =>
      simp only [next]
      split
      · rw [hgone (by assumption)]; simp
      · rfl
  | _ i =>
      simp only [next]
      split
      · cases hgone (by assumption)
      · rfl

theorem not_holds_of_atRest (hrest : AtRest next WatchAction.own s) (hw : w ∈ s.watchers) :
    holds w = false := by
  obtain ⟨i, hwi⟩ := List.mem_iff_getElem?.mp hw
  obtain ⟨c, place⟩ := w
  cases place with
  | marking => have := hrest (.mark i) rfl; simp [next, hwi] at this
  | stopping => have := hrest (.stop i) rfl; simp [next, hwi] at this
  | _ => rfl

/-- Whoever runs the function of `failure` can go on. -/
theorem Inv.not_running (hi : s.Inv observables) (hrest : AtRest next WatchAction.own s) :
    s.failure ≠ .running := by
  intro hrunning
  have honce : s.watchers.countP holds = 1 := by
    rw [hi.marks.once, hrunning]
    rfl
  obtain ⟨w, hw, hholds⟩ := List.countP_pos_iff.mp (Nat.lt_of_lt_of_eq Nat.one_pos honce.symm)
  rw [not_holds_of_atRest hrest hw] at hholds
  cases hholds

/-- A watcher that waits for its channel or for the end of the watch. -/
def Waits (s : Watch) (w : Watcher) : Prop :=
  w.place = .selecting ∧ s.done = false ∧
    ∀ ch, s.channels[w.observable]? = some ch → ch.queue = [] ∧ ch.closed = false

/-- Where the watchers are when nothing can happen any more. -/
theorem Inv.places_of_atRest (hi : s.Inv observables) (hrest : AtRest next WatchAction.own s)
    (hw : w ∈ s.watchers) : w.place = .returned ∨ s.Waits w := by
  have hholds := not_holds_of_atRest hrest hw
  obtain ⟨i, hwi⟩ := List.mem_iff_getElem?.mp hw
  obtain ⟨c, place⟩ := w
  cases place with
  | selecting =>
      refine .inr ⟨rfl, ?_, fun ch hch => ?_⟩
      · have := hrest (.ctxDone i) rfl
        simpa [next, hwi] using this
      · have := hrest (.receive i) rfl
        simp only [next, hwi, hch] at this
        split at this
        · cases this
        · cases this
        · rename_i hopen₁ hopen₂
          obtain ⟨queue, closed, sent⟩ := ch
          cases queue with
          | nil =>
              cases closed with
              | false => exact ⟨rfl, rfl⟩
              | true => exact absurd rfl (hopen₂ sent)
          | cons err queue => exact absurd rfl (hopen₁ err queue closed sent)
  | received err ok =>
      have := hrest (.check i) rfl
      simp only [next, hwi] at this
      split at this
      · cases this
      · split at this <;> cases this
  | reporting =>
      have := hrest (.report i) rfl
      simp only [next, hwi] at this
      split at this
      · cases this
      · exact absurd (by assumption) (hi.not_running hrest)
      · cases this
  | marking => cases hholds
  | stopping => cases hholds
  | returned => exact .inl rfl

/-- At rest the loop over the observables is over, and every observable has its watcher. -/
theorem Inv.watcher_of_atRest (hi : s.Inv observables) (hrest : AtRest next WatchAction.own s)
    (hc : some c ∈ observables) : ∃ w ∈ s.watchers, w.observable = c := by
  have hleft : s.main.left = [] := by
    have := hrest .start rfl
    simp only [next] at this
    split at this <;> try cases this
    rename_i hsome hnone hnil
    cases hmain : s.main with
    | starting observables =>
        cases observables with
        | nil => exact absurd hmain hnil
        | cons o observables =>
            cases o with
            | none => exact absurd hmain (hnone observables)
            | some c => exact absurd hmain (hsome c observables)
    | waiting => rfl
    | returned => rfl
  have hobserved := hi.manned.observed
  rw [hleft, List.filterMap_nil, List.append_nil] at hobserved
  have hmem : c ∈ s.watchers.map Watcher.observable := by
    rw [hobserved]
    simpa using hc
  exact List.mem_map.mp hmem

/-- Nothing keeps `watchErrors` once its goroutines have returned. -/
theorem main_of_atRest (hrest : AtRest next WatchAction.own s)
    (hgone : ∀ w ∈ s.watchers, w.place = .returned) : s.main = .returned := by
  have hwait := hrest .wait rfl
  have hstart := hrest .start rfl
  cases hmain : s.main with
  | starting observables =>
      cases observables with
      | nil => simp [next, hmain] at hstart
      | cons o observables => cases o <;> simp [next, hmain] at hstart
  | waiting =>
      simp only [next, hmain, true_and, if_pos hgone] at hwait
      cases hwait
  | returned => rfl

theorem Inv.marked_of_done (hi : s.Inv observables) (hdone : s.failure = .done) : s.marked = 1 := by
  have hle := hi.marked_le
  have hmarked := hi.marks.marked
  rw [hdone] at hle hmarked
  exact Nat.le_antisymm hle (hmarked ▸ Nat.le_add_left 1 _)

/-- Without a cause, every watcher sees its channel drained or waits for it. -/
theorem Inv.done_of_sent (hi : s.Inv observables) (hrest : AtRest next WatchAction.own s)
    (hparent : s.parentDone = false) (hc : some c ∈ observables) (he : s.Sent c e) :
    s.failure = .done := by
  cases hf : s.failure with
  | done => rfl
  | running => exact absurd hf (hi.not_running hrest)
  | fresh =>
      exfalso
      have hplaces {w : Watcher} := @Inv.places_of_atRest _ _ w hi hrest
      rcases hi.kept with hdone | hbegun | ⟨w, hw, hplace⟩ | hkept
      · rw [hparent] at hdone; cases hdone
      · exact hbegun hf
      · rcases hplaces hw with hreturned | hwaits
        · cases hplace.symm.trans hreturned
        · cases hplace.symm.trans hwaits.1
      · rcases hkept c e he with ⟨ch, hch, hqueue⟩ | hhand
        · obtain ⟨w, hw, rfl⟩ := hi.watcher_of_atRest hrest hc
          rcases hplaces hw with hreturned | ⟨-, -, hempty⟩
          · have hat := hi.manned.places w hw
            rw [At, hreturned] at hat
            rcases hat with hdone | hdone | ⟨ch', hch', -, hnil⟩
            · rw [hf] at hdone; cases hdone
            · rw [hparent] at hdone; cases hdone
            · rw [hch] at hch'
              cases hch'
              rw [hnil] at hqueue
              cases hqueue
          · rw [(hempty ch hch).1] at hqueue
            cases hqueue
        · rcases hplaces hhand with hreturned | hwaits
          · cases hreturned
          · cases hwaits.1

/-- In every state that a call of `watchErrors` can reach: the failure was marked at most once,
and only for an error that was sent on one of the observables; once the call has returned, none
of its goroutines is left; and once the parent context is done while nobody is on the way
to mark a failure, none is marked, whatever is still queued or sent. -/
theorem watchErrors_correct {channels : List (List (Option GoError) × Bool)} {as : List WatchAction}
    (h : runs next (init observables channels) as = some s) :
    s.marked ≤ 1 ∧ (s.marked = 1 → ∃ c e, some c ∈ observables ∧ s.Sent c e) ∧
      (s.main = .returned → AtRest next WatchAction.own s) ∧
      (s.parentDone = true →
        (∀ w ∈ s.watchers, w.place ≠ .reporting ∧ w.place ≠ .marking ∧ w.place ≠ .stopping) →
        ∀ bs s', runs next s bs = some s' → s'.marked = s.marked) := by
  have hi : s.Inv observables := runs_invariant next_inv init_inv h
  have hle := hi.marked_le
  refine ⟨?_, fun hone => hi.cause ?_, hi.atRest_of_returned, fun hparent hplaces bs s' hrun => ?_⟩
  · cases hf : s.failure <;> simp [hf] at hle <;> omega
  · intro hfresh
    rw [hfresh, hone] at hle
    cases hle
  · exact (runs_invariant next_late ⟨hparent, rfl, hplaces⟩ hrun).marked

/-- `watchErrors` takes at most as many steps as its arguments and the errors sent allow for,
and always comes to rest. By then, if the parent context is done, it has returned. If not,
it has marked a failure exactly when an error was sent on one of the observables, and it has
returned exactly when it did that or when all observables are closed. -/
theorem watchErrors_settles {channels : List (List (Option GoError) × Bool)} {as : List WatchAction}
    (h : runs next (init observables channels) as = some s) :
    as.countP WatchAction.own ≤ (init observables channels).rank + 8 * as.countP (fun a => !a.own) ∧
      (∃ bs s', (∀ b ∈ bs, b.own = true) ∧ runs next s bs = some s' ∧ AtRest next WatchAction.own s') ∧
      (AtRest next WatchAction.own s →
        (s.parentDone = true → s.main = .returned) ∧
        (s.parentDone = false →
          (s.marked = 1 ↔ ∃ c e, some c ∈ observables ∧ s.Sent c e) ∧
          (s.main = .returned ↔ s.marked = 1 ∨ ∀ c, some c ∈ observables → s.Drained c))) := by
  have hi : s.Inv observables := runs_invariant next_inv init_inv h
  refine ⟨ranked.countP_le h, ranked.exists_atRest s, fun hrest => ?_⟩
  have hplaces {w : Watcher} := @Inv.places_of_atRest _ _ w hi hrest
  have hreturned (hdone : s.done = true) : s.main = .returned := by
    refine main_of_atRest hrest fun w hw => (hplaces hw).resolve_right fun hwaits => ?_
    rw [hwaits.2.1] at hdone
    cases hdone
  refine ⟨fun hparent => hreturned (by simp [done, hparent]), fun hparent => ?_⟩
  have hmarked : s.marked = 1 ↔ s.failure = .done := by
    refine ⟨fun hone => ?_, hi.marked_of_done⟩
    have hle := hi.marked_le
    cases hf : s.failure with
    | fresh => rw [hf, hone] at hle; cases hle
    | running => exact absurd hf (hi.not_running hrest)
    | done => rfl
  refine ⟨⟨fun hone => ?_, fun ⟨c, e, hc, he⟩ => ?_⟩, fun hmain => ?_, ?_⟩
  · exact hi.cause (by rw [hmarked.mp hone]; exact Once.noConfusion)
  · exact hmarked.mpr (hi.done_of_sent hrest hparent hc he)
  · -- all goroutines are gone, each for the end of the watch or of its channel
    by_cases hf : s.failure = .done
    · exact .inl (hmarked.mpr hf)
    · refine .inr fun c hc => ?_
      obtain ⟨w, hw, rfl⟩ := hi.watcher_of_atRest hrest hc
      have hat := hi.manned.places w hw
      rw [At, hi.manned.finished hmain w hw] at hat
      exact (hat.resolve_left hf).resolve_left (by simp [hparent])
  · rintro (hone | hdrained)
    · exact hreturned (by simp [done, hi.marks.ended (hmarked.mp hone)])
    · refine main_of_atRest hrest fun w hw => (hplaces hw).resolve_right ?_
      rintro ⟨-, -, hopen⟩
      obtain ⟨ch, hch, hclosed, -⟩ := hdrained _ (hi.manned.watched hw)
      rw [(hopen ch hch).2] at hclosed
      cases hclosed

/-- The first of two servers has failed before the watch begins; the second runs on. -/
def failedRun : List WatchAction :=
  [.start, .start, .start, .receive 0, .check 0, .report 0, .start, .mark 0, .stop 0, .ctxDone 1, .wait]

theorem failedRun_reaches : ∃ s, runs next (init [some 0, none, some 1] [([some (.leaf "bind")], true), ([], false)])
    failedRun = some s ∧ s.marked = 1 ∧ s.main = .returned ∧ s.parentDone = false := by
  refine ⟨_, rfl, ?_⟩
  decide

theorem watchErrors_correct_failed : ∃ s, runs next (init [some 0, none, some 1]
      [([some (.leaf "bind")], true), ([], false)]) failedRun = some s ∧ s.marked = 1 ∧
    (∃ c e, some c ∈ [some 0, none, some 1] ∧ s.Sent c e) ∧ AtRest next WatchAction.own s := by
  obtain ⟨s, h, hmarked, hmain, -⟩ := failedRun_reaches
  obtain ⟨-, hcause, hrest, -⟩ := watchErrors_correct h
  exact ⟨s, h, hmarked, hcause hmarked, hrest hmain⟩

theorem watchErrors_settles_failed : ∃ s, runs next (init [some 0, none, some 1]
      [([some (.leaf "bind")], true), ([], false)]) failedRun = some s ∧
    AtRest next WatchAction.own s ∧ ∃ c e, some c ∈ [some 0, none, some 1] ∧ s.Sent c e := by
  obtain ⟨s, h, hmarked, hmain, hparent⟩ := failedRun_reaches
  have hrest := (runs_invariant next_inv init_inv h).atRest_of_returned hmain
  obtain ⟨-, -, hsettled⟩ := watchErrors_settles h
  exact ⟨s, h, hrest, ((hsettled hrest).2 hparent).1.mp hmarked⟩

end Watch

end Go42.App
