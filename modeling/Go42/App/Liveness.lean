-- SUMMARY: The servers and the event router report on their error channels, `watchErrors` watches them, and `/health` fails exactly for a component that stopped on its own.
import Go42.Api.Grpc.Health
import Go42.App.Watch

/-!
# Liveness

`main` starts the HTTP server, the gRPC server and the event router, each of which reports
at most one error when it stops without being asked to, and lets `watchErrors` watch the
three channels. Only `shutdown` asks a component to stop, and it cancels the application
context first. The health endpoint looks at the context that `watchErrors` cancels.
-/

namespace Go42.App

/-- The components that `watchLiveness` watches, in its order. -/
inductive Component where
  | http
  | grpc
  | events
deriving DecidableEq

namespace Component

/-- What a component sends when it stopped with `err`. -/
def reportServeError : Component → Option GoError → GoError
  | http, err => Api.Http.serveError err
  | grpc, err => Api.Grpc.serveError err
  | events, none => .leaf "event router stopped unexpectedly without error"
  | events, some err => .wrap "event router stopped unexpectedly: " err ""

end Component

/-- Where the goroutine stands that reports on a component: `Start` of the HTTP server,
`Serve` of the gRPC server, `monitor` of the router. -/
inductive Reporting where
  | serving
  /-- Serving has ended with `err`. -/
  | stopped (err : Option GoError)
  /-- `s.errors <- err`. -/
  | sending (err : GoError)
  /-- The deferred `close(s.errors)`. -/
  | closing
  | finished
deriving DecidableEq

/-- What is left to do, with what a send gives `watchErrors` to do. -/
def Reporting.rank : Reporting → ℕ
  | serving => 0
  | stopped _ => 21
  | sending _ => 20
  | closing => 10
  | finished => 0

structure Reporter where
  component : Component
  place : Reporting
  /-- Its `Shutdown` was called: `shutdownCtx` is done or `shuttingDown` is set. -/
  stopping : Bool
deriving DecidableEq

/-- The application after its startup. Reporter `i` reports on channel `i`. -/
structure Process where
  watch : Watch
  reporters : List Reporter
deriving DecidableEq

inductive ProcessAction where
  /-- A step of `watchErrors`. -/
  | watch (a : WatchAction)
  /-- `mainCancel()`. -/
  | cancel
  /-- `shutdown` comes to component `i`. -/
  | shutdown (i : ℕ)
  /-- Component `i` stops serving. -/
  | stop (i : ℕ) (err : Option GoError)
  | check (i : ℕ)
  | send (i : ℕ)
  | close (i : ℕ)
deriving DecidableEq

/-- A step of the code, and not of what serves or of who shuts down. -/
def ProcessAction.own : ProcessAction → Bool
  | watch a => a.own
  | check _ | send _ | close _ => true
  | cancel | shutdown _ | stop _ _ => false

namespace Process

/-- A component that stops keeps silent. The router also looks at the context it was started with. -/
def silent (s : Process) (r : Reporter) : Bool :=
  r.stopping || (r.component = .events && s.watch.parentDone)

def goOn (s : Process) (i : ℕ) (r : Reporter) (place : Reporting) : List Reporter :=
  s.reporters.set i { r with place := place }

def next (s : Process) : ProcessAction → Option Process
  | .watch a => if a.own then (s.watch.next a).map fun w => { s with watch := w } else none
  | .cancel => (s.watch.next .cancel).map fun w => { s with watch := w }
  | .shutdown i =>
    match s.reporters[i]? with
    | some r =>
      if s.watch.parentDone then
        some { s with reporters := s.reporters.set i { r with stopping := true } }
      else none
    | none => none
  | .stop i err =>
    match s.reporters[i]? with
    | some r =>
      if r.place = .serving then some { s with reporters := s.goOn i r (.stopped err) } else none
    | none => none
  | .check i =>
    match s.reporters[i]? with
    | some ⟨component, .stopped err, stopping⟩ =>
      if s.silent ⟨component, .stopped err, stopping⟩ then
        some { s with reporters := s.goOn i ⟨component, .stopped err, stopping⟩ .closing }
      else
        some { s with reporters := s.goOn i ⟨component, .stopped err, stopping⟩
                        (.sending (component.reportServeError err)) }
    | _ => none
  | .send i =>
    match s.reporters[i]? with
    | some ⟨component, .sending err, stopping⟩ =>
      (s.watch.next (.send i (some err))).map fun w =>
        ⟨w, s.goOn i ⟨component, .sending err, stopping⟩ .closing⟩
    | _ => none
  | .close i =>
    match s.reporters[i]? with
    | some ⟨component, .closing, stopping⟩ =>
      (s.watch.next (.close i)).map fun w => ⟨w, s.goOn i ⟨component, .closing, stopping⟩ .finished⟩
    | _ => none

/-- What `watchErrors` watches. -/
def observables : List (Option ℕ) := [some 0, some 1, some 2]

def init : Process where
  watch := .init observables [([], false), ([], false), ([], false)]
  reporters := [⟨.http, .serving, false⟩, ⟨.grpc, .serving, false⟩, ⟨.events, .serving, false⟩]

/-- `livenessCheck`: `livenessCtx.Err()`. -/
def livenessCheck (s : Process) : Option Events.CtxErr :=
  if s.watch.marked = 0 then none else some .canceled

/-- The status of the answer to `/health`. -/
def health (s : Process) : ℕ := if s.livenessCheck.isSome then 503 else 200

end Process

/-! ## The channels -/

/-- What the reporters see of a channel. -/
def Chan.outside (ch : Chan) : Bool × List (Option GoError) := (ch.closed, ch.sent)

/-- The steps of `watchErrors` only take from the channels. -/
theorem Watch.next_outside {s s' : Watch} {a : WatchAction} (h : s.next a = some s') (ha : a.own = true) :
    s'.channels.map Chan.outside = s.channels.map Chan.outside := by
  cases a with
  | start =>
      simp only [next] at h
      split at h <;> cases h <;> rfl
  | wait =>
      simp only [next] at h
      split at h <;> cases h
      rfl
  | ctxDone i =>
      simp only [next] at h
      split at h
      · split at h <;> cases h
        rfl
      · cases h
  | receive i =>
      simp only [next] at h
      split at h
      · split at h <;> cases h
        · rename_i hch
          exact Pool.map_set hch rfl
        · rfl
      · cases h
  | check i =>
      simp only [next] at h
      split at h
      · split at h
        · cases h; rfl
        · split at h <;> cases h <;> rfl
      · cases h
  | report i =>
      simp only [next] at h
      split at h
      · split at h <;> cases h <;> rfl
      · cases h
  | mark i =>
      simp only [next] at h
      split at h <;> cases h
      rfl
  | stop i =>
      simp only [next] at h
      split at h <;> cases h
      rfl
  | send c err => cases ha
  | close c => cases ha
  | cancel => cases ha

theorem Watch.next_send {s s' : Watch} {c : ℕ} {err : Option GoError} (h : s.next (.send c err) = some s') :
    ∃ queue sent, s.channels[c]? = some ⟨queue, false, sent⟩ ∧
      s' = { s with channels := s.channels.set c ⟨queue ++ [err], false, sent ++ [err]⟩ } := by
  simp only [next] at h
  split at h <;> cases h
  exact ⟨_, _, by assumption, rfl⟩

theorem Watch.next_close {s s' : Watch} {c : ℕ} (h : s.next (.close c) = some s') :
    ∃ queue sent, s.channels[c]? = some ⟨queue, false, sent⟩ ∧
      s' = { s with channels := s.channels.set c ⟨queue, true, sent⟩ } := by
  simp only [next] at h
  split at h <;> cases h
  exact ⟨_, _, by assumption, rfl⟩

/-- Only `cancel` touches the parent context. -/
theorem Watch.next_parentDone {s s' : Watch} {a : WatchAction} (h : s.next a = some s') (ha : a ≠ .cancel) :
    s'.parentDone = s.parentDone := by
  cases a with
  | cancel => exact absurd rfl ha
  | _ =>
      simp only [next] at h
      repeat' split at h
      all_goals cases h
      all_goals rfl

namespace Process

variable {s s' : Process} {a : ProcessAction}

/-- The errors sent by a component that has reported, or kept silent because of a shutdown. -/
def Reported (shutdown : Bool) (sent : List (Option GoError)) : Prop :=
  (shutdown = true ∧ sent = []) ∨ ∃ e, sent = [some e]

/-- What the place of a reporter says about its channel. -/
def Matches (shutdown : Bool) (place : Reporting) (outside : Bool × List (Option GoError)) : Prop :=
  match place with
  | .serving | .stopped _ | .sending _ => outside = (false, [])
  | .closing => outside.1 = false ∧ Reported shutdown outside.2
  | .finished => outside.1 = true ∧ Reported shutdown outside.2

theorem Reported.mono {b b' : Bool} {sent : List (Option GoError)} (h : Reported b sent)
    (hb : b = true → b' = true) : Reported b' sent :=
  h.imp (.imp hb id) id

theorem Matches.mono {b b' : Bool} {place : Reporting} {outside : Bool × List (Option GoError)}
    (h : Matches b place outside) (hb : b = true → b' = true) : Matches b' place outside := by
  unfold Matches at h ⊢
  split at h
  · exact h
  · exact h
  · exact h
  · exact h.imp id (·.mono hb)
  · exact h.imp id (·.mono hb)

theorem Matches.length_le {b : Bool} {place : Reporting} {ch : Chan} (h : Matches b place ch.outside) :
    ch.sent.length ≤ 1 := by
  have hreported (h : Reported b ch.sent) : ch.sent.length ≤ 1 := by
    rcases h with ⟨-, hnil⟩ | ⟨e, hone⟩
    · simp [hnil]
    · simp [hone]
  have hopen (h : ch.outside = (false, [])) : ch.sent.length ≤ 1 := by
    simp [show ch.sent = [] from congrArg Prod.snd h]
  cases place with
  | serving => exact hopen h
  | stopped err => exact hopen h
  | sending err => exact hopen h
  | closing => exact hreported h.2
  | finished => exact hreported h.2

structure Inv (s : Process) : Prop where
  watch : s.watch.Inv observables
  reporters : s.reporters.length = 3
  channels : s.watch.channels.length = 3
  matching : ∀ (i : ℕ) (r : Reporter) o, s.reporters[i]? = some r → (s.watch.channels.map Chan.outside)[i]? = some o →
    Matches s.watch.parentDone r.place o
  /-- Nobody was asked to stop before the application context was done. -/
  stopping : s.watch.parentDone = false → ∀ r ∈ s.reporters, r.stopping = false

theorem init_inv : init.Inv where
  watch := Watch.init_inv
  reporters := rfl
  channels := rfl
  matching i r o hr ho := by
    match i, hr, ho with
    | 0, rfl, rfl => rfl
    | 1, rfl, rfl => rfl
    | 2, rfl, rfl => rfl
  stopping _ := by decide

/-- A reporter goes on and its channel with it; the others keep theirs. -/
theorem Inv.matching_set (hi : s.Inv) {i : ℕ} {r' : Reporter} {w : Watch}
    (hparent : w.parentDone = s.watch.parentDone)
    (hothers : ∀ j, i ≠ j → (w.channels.map Chan.outside)[j]? = (s.watch.channels.map Chan.outside)[j]?)
    (hself : ∀ o, (w.channels.map Chan.outside)[i]? = some o → Matches s.watch.parentDone r'.place o) :
    ∀ (j : ℕ) (q : Reporter) o, (s.reporters.set i r')[j]? = some q →
      (w.channels.map Chan.outside)[j]? = some o → Matches w.parentDone q.place o := by
  intro j q o hq ho
  rw [hparent]
  rcases Pool.getElem?_set_cases hq with ⟨rfl, rfl⟩ | ⟨hne, hold⟩
  · exact hself o ho
  · exact hi.matching j q o hold (hothers j hne ▸ ho)

theorem Inv.stopping_set (hi : s.Inv) {i : ℕ} {r : Reporter} (hr : s.reporters[i]? = some r) {place : Reporting}
    (hparent : s.watch.parentDone = false) :
    ∀ q ∈ s.goOn i r place, q.stopping = false :=
  Pool.forall_set (hi.stopping hparent) (hi.stopping hparent r (List.mem_of_getElem? hr))

/-- A component keeps silent only during a shutdown. -/
theorem Inv.parentDone_of_silent (hi : s.Inv) {r : Reporter} (hr : r ∈ s.reporters) (h : s.silent r = true) :
    s.watch.parentDone = true := by
  cases hparent : s.watch.parentDone with
  | true => rfl
  | false => simp [silent, hi.stopping hparent r hr, hparent] at h

theorem outside_set {chs : List Chan} {i j : ℕ} {ch : Chan} (hne : i ≠ j) :
    ((chs.set i ch).map Chan.outside)[j]? = (chs.map Chan.outside)[j]? := by
  rw [List.map_set, List.getElem?_set_ne hne]

theorem outside_set_self {chs : List Chan} {i : ℕ} {ch : Chan} {o : Bool × List (Option GoError)}
    (h : ((chs.set i ch).map Chan.outside)[i]? = some o) : o = ch.outside := by
  obtain ⟨hlt, ho⟩ := List.getElem?_eq_some_iff.mp h
  rw [← ho, List.getElem_map, List.getElem_set_self]

theorem outside_getElem? {chs : List Chan} {i : ℕ} {ch : Chan} (h : chs[i]? = some ch) :
    (chs.map Chan.outside)[i]? = some ch.outside := by
  rw [List.getElem?_map, h]
  rfl

/-- Every reporter has a channel. -/
theorem Inv.channel (hi : s.Inv) {i : ℕ} {r : Reporter} (hr : s.reporters[i]? = some r) :
    ∃ ch, s.watch.channels[i]? = some ch ∧ Matches s.watch.parentDone r.place ch.outside := by
  obtain ⟨hlt, -⟩ := List.getElem?_eq_some_iff.mp hr
  have hch := List.getElem?_eq_getElem (Nat.lt_of_lt_of_eq hlt (hi.reporters.trans hi.channels.symm))
  exact ⟨_, hch, hi.matching i r _ hr (outside_getElem? hch)⟩

/-- Every channel has a reporter. -/
theorem Inv.reporter (hi : s.Inv) {i : ℕ} {ch : Chan} (hch : s.watch.channels[i]? = some ch) :
    ∃ r ∈ s.reporters, s.reporters[i]? = some r ∧ Matches s.watch.parentDone r.place ch.outside := by
  obtain ⟨hlt, -⟩ := List.getElem?_eq_some_iff.mp hch
  have hr := List.getElem?_eq_getElem (Nat.lt_of_lt_of_eq hlt (hi.channels.trans hi.reporters.symm))
  exact ⟨_, List.getElem_mem _, hr, hi.matching i _ _ hr (outside_getElem? hch)⟩

theorem next_inv (hi : s.Inv) (h : s.next a = some s') : s'.Inv := by
  cases a with
  | watch a =>
      simp only [next] at h
      split at h
      · rename_i ha
        obtain ⟨w, hw, rfl⟩ := Option.map_eq_some_iff.mp h
        have hsame := Watch.next_outside hw ha
        have hparent := Watch.next_parentDone hw (by rintro rfl; cases ha)
        refine ⟨Watch.next_inv hi.watch hw, hi.reporters, ?_, fun i r o hr ho => ?_, fun hp => ?_⟩
        · have := congrArg List.length hsame
          simpa [hi.channels] using this
        · dsimp only at ho ⊢
          rw [hparent]
          exact hi.matching i r o hr (hsame ▸ ho)
        · exact hi.stopping (hparent ▸ hp)
      · cases h
  | cancel =>
      cases h
      exact ⟨Watch.next_inv (a := .cancel) hi.watch rfl, hi.reporters, hi.channels,
        fun i r o hr ho => (hi.matching i r o hr ho).mono fun _ => rfl, Bool.noConfusion⟩
  | shutdown i =>
      simp only [next] at h
      split at h
      · rename_i r hr
        split at h <;> cases h
        rename_i hparent
        refine ⟨hi.watch, by simpa using hi.reporters, hi.channels, ?_, fun hp => ?_⟩
        · exact hi.matching_set rfl (fun _ _ => rfl) fun o ho => hi.matching i r o hr ho
        · exact absurd (hparent.symm.trans hp) Bool.noConfusion
      · cases h
  | stop i err =>
      simp only [next] at h
      split at h
      · rename_i r hr
        split at h <;> cases h
        rename_i hserving
        refine ⟨hi.watch, by simpa [goOn] using hi.reporters, hi.channels, ?_, hi.stopping_set hr⟩
        refine hi.matching_set rfl (fun _ _ => rfl) fun o ho => ?_
        have := hi.matching i r o hr ho
        rw [hserving] at this
        exact this
      · cases h
  | check i =>
      simp only [next] at h
      split at h
      · rename_i component err stopping hr
        have hopen {o} (ho : (s.watch.channels.map Chan.outside)[i]? = some o) : o = (false, []) :=
          hi.matching i _ o hr ho
        split at h <;> cases h
        · rename_i hsilent
          have hparent := hi.parentDone_of_silent (List.mem_of_getElem? hr) hsilent
          refine ⟨hi.watch, by simpa [goOn] using hi.reporters, hi.channels, ?_, hi.stopping_set hr⟩
          refine hi.matching_set rfl (fun _ _ => rfl) fun o ho => ?_
          rw [hopen ho]
          exact ⟨rfl, .inl ⟨hparent, rfl⟩⟩
        · refine ⟨hi.watch, by simpa [goOn] using hi.reporters, hi.channels, ?_, hi.stopping_set hr⟩
          exact hi.matching_set rfl (fun _ _ => rfl) fun o ho => hopen ho
      · cases h
  | send i =>
      simp only [next] at h
      split at h
      · rename_i component err stopping hr
        obtain ⟨w, hw, rfl⟩ := Option.map_eq_some_iff.mp h
        obtain ⟨queue, sent, hch, rfl⟩ := Watch.next_send hw
        obtain ⟨-, rfl⟩ : (false, sent) = ((false, []) : Bool × List (Option GoError)) ∧ sent = [] := by
          have := hi.matching i _ _ hr (outside_getElem? hch)
          exact ⟨this, congrArg Prod.snd this⟩
        refine ⟨Watch.next_inv hi.watch hw, by simpa [goOn] using hi.reporters, by simpa using hi.channels, ?_,
          hi.stopping_set hr⟩
        refine hi.matching_set rfl (fun _ hne => outside_set hne) fun o ho => ?_
        rw [outside_set_self ho]
        exact ⟨rfl, .inr ⟨err, rfl⟩⟩
      · cases h
  | close i =>
      simp only [next] at h
      split at h
      · rename_i component stopping hr
        obtain ⟨w, hw, rfl⟩ := Option.map_eq_some_iff.mp h
        obtain ⟨queue, sent, hch, rfl⟩ := Watch.next_close hw
        have hreported : Matches s.watch.parentDone .closing (false, sent) :=
          hi.matching i _ _ hr (outside_getElem? hch)
        refine ⟨Watch.next_inv hi.watch hw, by simpa [goOn] using hi.reporters, by simpa using hi.channels, ?_,
          hi.stopping_set hr⟩
        refine hi.matching_set rfl (fun _ hne => outside_set hne) fun o ho => ?_
        rw [outside_set_self ho]
        exact ⟨rfl, hreported.2⟩
      · cases h

/-- To `watchErrors`, every step of the application is a step of its own or of its environment. -/
theorem next_watch (h : s.next a = some s') : s'.watch = s.watch ∨ ∃ b, s.watch.next b = some s'.watch := by
  cases a with
  | watch a =>
      simp only [next] at h
      split at h
      · obtain ⟨w, hw, rfl⟩ := Option.map_eq_some_iff.mp h
        exact .inr ⟨a, hw⟩
      · cases h
  | cancel =>
      cases h
      exact .inr ⟨.cancel, rfl⟩
  | shutdown i =>
      simp only [next] at h
      split at h
      · split at h <;> cases h
        exact .inl rfl
      · cases h
  | stop i err =>
      simp only [next] at h
      split at h
      · split at h <;> cases h
        exact .inl rfl
      · cases h
  | check i =>
      simp only [next] at h
      split at h
      · split at h <;> cases h <;> exact .inl rfl
      · cases h
  | send i =>
      simp only [next] at h
      split at h
      · obtain ⟨w, hw, rfl⟩ := Option.map_eq_some_iff.mp h
        exact .inr ⟨_, hw⟩
      · cases h
  | close i =>
      simp only [next] at h
      split at h
      · obtain ⟨w, hw, rfl⟩ := Option.map_eq_some_iff.mp h
        exact .inr ⟨_, hw⟩
      · cases h

/-! ## Before anything stops -/

/-- All components serve. -/
def Serving (s : Process) : Prop := ∀ r ∈ s.reporters, r.place = .serving

theorem Serving.next (hs : s.Serving) (h : s.next a = some s') (ha : ∀ i err, a ≠ .stop i err) : s'.Serving := by
  cases a with
  | watch a =>
      simp only [Process.next] at h
      split at h
      · obtain ⟨w, -, rfl⟩ := Option.map_eq_some_iff.mp h
        exact hs
      · cases h
  | cancel =>
      cases h
      exact hs
  | shutdown i =>
      simp only [Process.next] at h
      split at h
      · rename_i r hr
        split at h <;> cases h
        exact Pool.forall_set (P := fun r : Reporter => r.place = .serving) hs (hs r (List.mem_of_getElem? hr))
      · cases h
  | stop i err => exact absurd rfl (ha i err)
  | check i =>
      simp only [Process.next] at h
      split at h
      · cases hs _ (List.mem_of_getElem? (by assumption))
      · cases h
  | send i =>
      simp only [Process.next] at h
      split at h
      · cases hs _ (List.mem_of_getElem? (by assumption))
      · cases h
  | close i =>
      simp only [Process.next] at h
      split at h
      · cases hs _ (List.mem_of_getElem? (by assumption))
      · cases h

/-- Then nothing was sent, so nobody is on the way to mark a failure. -/
theorem Inv.late_of_serving (hi : s.Inv) (hs : s.Serving) :
    s.watch.marked = 0 ∧
      ∀ w ∈ s.watch.watchers, w.place ≠ .reporting ∧ w.place ≠ .marking ∧ w.place ≠ .stopping := by
  have hsent {c e} : ¬ s.watch.Sent c e := by
    rintro ⟨ch, hch, he⟩
    obtain ⟨r, hr, -, hmatch⟩ := hi.reporter hch
    rw [hs r hr] at hmatch
    rw [show ch.sent = [] from congrArg Prod.snd hmatch] at he
    cases he
  have hfresh : s.watch.failure = .fresh := by
    by_contra hne
    obtain ⟨c, e, -, he⟩ := hi.watch.cause hne
    exact hsent he
  refine ⟨?_, fun w hw => ?_⟩
  · have hle := hi.watch.marked_le
    rw [hfresh] at hle
    exact Nat.le_zero.mp hle
  · have hat := hi.watch.manned.places w hw
    refine ⟨fun hplace => ?_, fun hplace => ?_, fun hplace => ?_⟩ <;> rw [Watch.At, hplace] at hat <;>
      exact hsent hat.choose_spec

theorem next_late {m : ℕ} (hl : s.watch.Late m) (h : s.next a = some s') : s'.watch.Late m := by
  rcases next_watch h with hsame | ⟨b, hb⟩
  · rwa [hsame]
  · exact Watch.next_late hl hb

/-- A failure is marked only when a component stopped before the application context was done. -/
theorem stop_of_marked : ∀ {as : List ProcessAction} {s s' : Process}, s.Inv → s.Serving →
    runs next s as = some s' → s'.watch.marked ≠ 0 →
      ∃ bs i err cs, as = bs ++ .stop i err :: cs ∧ .cancel ∉ bs := by
  intro as
  induction as with
  | nil =>
      intro s s' hi hs h hmarked
      cases h
      exact absurd (hi.late_of_serving hs).1 hmarked
  | cons a as ih =>
      intro s s' hi hs h hmarked
      obtain ⟨s₁, hstep, hrest⟩ := runs_cons.mp h
      have hcons (ha : ∀ i err, a ≠ .stop i err) (hcancel : a ≠ .cancel) :
          ∃ bs i err cs, a :: as = bs ++ .stop i err :: cs ∧ .cancel ∉ bs := by
        obtain ⟨bs, i, err, cs, rfl, hbs⟩ := ih (next_inv hi hstep) (hs.next hstep ha) hrest hmarked
        exact ⟨a :: bs, i, err, cs, rfl, mt List.mem_cons.mp (not_or.mpr ⟨Ne.symm hcancel, hbs⟩)⟩
      cases a with
      | stop i err => exact ⟨[], i, err, as, rfl, List.not_mem_nil⟩
      | cancel =>
          obtain ⟨hzero, hplaces⟩ := hi.late_of_serving hs
          cases hstep
          have hlate : Watch.Late 0 { s.watch with parentDone := true } := ⟨rfl, hzero, hplaces⟩
          have hlate' := @runs_invariant _ _ _ (fun s : Process => s.watch.Late 0) next_late _ _ _ hlate hrest
          exact absurd hlate'.marked hmarked
      | _ => exact hcons (by simp) (by simp)

/-! ## The application at rest -/

def rank (s : Process) : ℕ := s.watch.rank + (s.reporters.map (·.place.rank)).sum

theorem rank_goOn {i : ℕ} {r : Reporter} (hr : s.reporters[i]? = some r) (place : Reporting) :
    rank { s with reporters := s.goOn i r place } + r.place.rank = s.rank + place.rank := by
  have hset : ((s.goOn i r place).map (·.place.rank)).sum + r.place.rank =
      (s.reporters.map (·.place.rank)).sum + place.rank := Pool.sum_map_set (f := (·.place.rank)) hr
  simp only [rank]
  omega

theorem ranked : Ranked next ProcessAction.own rank 21 where
  lowers {s s' a} h ha := by
    cases a with
    | watch a =>
        simp only [next] at h
        split at h
        · obtain ⟨w, hw, rfl⟩ := Option.map_eq_some_iff.mp h
          exact Nat.add_lt_add_right (Watch.ranked.lowers hw ha) _
        · cases h
    | check i =>
        simp only [next] at h
        split at h
        · rename_i component err stopping hr
          split at h <;> cases h
          · have hrank : rank _ + 21 = s.rank + 10 := rank_goOn hr .closing
            omega
          · have hrank : rank _ + 21 = s.rank + 20 :=
              rank_goOn hr (.sending (component.reportServeError err))
            omega
        · cases h
    | send i =>
        simp only [next] at h
        split at h
        · rename_i component err stopping hr
          obtain ⟨w, hw, rfl⟩ := Option.map_eq_some_iff.mp h
          have hwatch := Watch.ranked.env hw rfl
          have hrank : rank _ + 20 = s.rank + 10 := rank_goOn hr .closing
          simp only [rank] at hrank ⊢
          omega
        · cases h
    | close i =>
        simp only [next] at h
        split at h
        · rename_i component stopping hr
          obtain ⟨w, hw, rfl⟩ := Option.map_eq_some_iff.mp h
          have hwatch := Watch.ranked.env hw rfl
          have hrank : rank _ + 10 = s.rank + 0 := rank_goOn hr .finished
          simp only [rank] at hrank ⊢
          omega
        · cases h
    | cancel => cases ha
    | shutdown i => cases ha
    | stop i err => cases ha
  env {s s' a} h ha := by
    cases a with
    | cancel => cases h; exact Nat.le_add_right _ _
    | shutdown i =>
        simp only [next] at h
        split at h
        · rename_i r hr
          split at h <;> cases h
          have hset : ((s.reporters.set i { r with stopping := true }).map (·.place.rank)).sum + r.place.rank =
              (s.reporters.map (·.place.rank)).sum + r.place.rank :=
            Pool.sum_map_set (f := (·.place.rank)) hr
          simp only [rank]
          omega
        · cases h
    | stop i err =>
        simp only [next] at h
        split at h
        · rename_i r hr
          split at h <;> cases h
          have hrank : rank _ + r.place.rank = s.rank + 21 := rank_goOn hr (.stopped err)
          omega
        · cases h
    | watch a =>
        simp only [next] at h
        split at h
        · rename_i hown
          exact absurd (hown.symm.trans ha) Bool.noConfusion
        · cases h
    | _ => cases ha

theorem watch_atRest (hrest : AtRest next ProcessAction.own s) : AtRest Watch.next WatchAction.own s.watch := by
  intro a ha
  have := hrest (.watch a) ha
  simpa [next, ha] using this

/-- A component that stopped has reported. -/
theorem Inv.finished_of_atRest (hi : s.Inv) (hrest : AtRest next ProcessAction.own s) {i : ℕ} {r : Reporter}
    (hr : s.reporters[i]? = some r) (hne : r.place ≠ .serving) : r.place = .finished := by
  obtain ⟨⟨queue, closed, sent⟩, hch, hmatch⟩ := hi.channel hr
  obtain ⟨component, place, stopping⟩ := r
  cases place with
  | serving => exact absurd rfl hne
  | stopped err =>
      have := hrest (.check i) rfl
      simp only [next, hr] at this
      split at this <;> cases this
  | sending err =>
      cases hmatch
      have := hrest (.send i) rfl
      simp [next, hr, Watch.next, hch] at this
  | closing =>
      obtain rfl : closed = false := hmatch.1
      have := hrest (.close i) rfl
      simp [next, hr, Watch.next, hch] at this
  | finished => rfl

theorem health_eq : s.health = 503 ↔ s.watch.marked ≠ 0 := by
  simp [health, livenessCheck]

/-- In every run of the application: the health endpoint fails only if a component stopped
before the application context was canceled; every component sends at most one error; and
the reporting takes a bounded number of steps for what the components and the context do, and
always comes to rest. While the application context is not canceled, the endpoint then fails
exactly when some component has stopped, for whatever reason. -/
theorem health_exact {as : List ProcessAction} (h : runs next init as = some s) :
    (s.health = 503 → ∃ bs i err cs, as = bs ++ .stop i err :: cs ∧ .cancel ∉ bs) ∧
      (∀ ch ∈ s.watch.channels, ch.sent.length ≤ 1) ∧
      as.countP ProcessAction.own ≤ init.rank + 21 * as.countP (fun a => !a.own) ∧
      (∃ bs s', (∀ b ∈ bs, b.own = true) ∧ runs next s bs = some s' ∧ AtRest next ProcessAction.own s') ∧
      (AtRest next ProcessAction.own s → s.watch.parentDone = false →
        (s.health = 503 ↔ ∃ r ∈ s.reporters, r.place ≠ .serving)) := by
  have hi : s.Inv := runs_invariant next_inv init_inv h
  refine ⟨fun hhealth => ?_, fun ch hch => ?_, ranked.countP_le h,
    ranked.exists_atRest s, fun hrest hparent => ?_⟩
  · exact stop_of_marked init_inv (by unfold Serving; decide) h (health_eq.mp hhealth)
  · obtain ⟨i, hch⟩ := List.mem_iff_getElem?.mp hch
    obtain ⟨r, -, -, hmatch⟩ := hi.reporter hch
    exact hmatch.length_le
  · rw [health_eq]
    constructor
    · intro hmarked
      have hbegun : s.watch.failure ≠ .fresh := by
        intro hfresh
        have hle := hi.watch.marked_le
        rw [hfresh] at hle
        exact hmarked (Nat.le_zero.mp hle)
      obtain ⟨c, e, -, ch, hch, he⟩ := hi.watch.cause hbegun
      obtain ⟨r, hr, -, hmatch⟩ := hi.reporter hch
      refine ⟨r, hr, fun hserving => ?_⟩
      rw [hserving] at hmatch
      rw [show ch.sent = [] from congrArg Prod.snd hmatch] at he
      cases he
    · rintro ⟨r, hmem, hne⟩
      obtain ⟨i, hr⟩ := List.mem_iff_getElem?.mp hmem
      obtain ⟨ch, hch, hmatch⟩ := hi.channel hr
      rw [hi.finished_of_atRest hrest hr hne, hparent] at hmatch
      obtain ⟨e, he⟩ := hmatch.2.resolve_left (by simp)
      have hsent : s.watch.Sent i e := ⟨ch, hch, by rw [show ch.sent = [some e] from he]; exact List.mem_singleton_self _⟩
      have hwatched : some i ∈ observables := by
        obtain ⟨hlt, -⟩ := List.getElem?_eq_some_iff.mp hr
        rw [hi.reporters] at hlt
        match i, hlt with
        | 0, _ => decide
        | 1, _ => decide
        | 2, _ => decide
      have hdone := hi.watch.done_of_sent (watch_atRest hrest) hparent hwatched hsent
      rw [hi.watch.marked_of_done hdone]
      exact Nat.one_ne_zero

/-- The gRPC server cannot bind its address. -/
def bindRun : List ProcessAction :=
  [.watch .start, .watch .start, .stop 1 (some (.leaf "address already in use")), .check 1, .send 1,
    .watch .start, .watch .start, .watch (.receive 1), .watch (.check 1), .watch (.report 1), .close 1,
    .watch (.mark 1), .watch (.stop 1), .watch (.ctxDone 0), .watch (.ctxDone 2), .watch .wait]

theorem health_exact_bind : ∃ s, runs next init bindRun = some s ∧ s.health = 503 ∧
    (∃ bs i err cs, bindRun = bs ++ .stop i err :: cs ∧ .cancel ∉ bs) ∧
    (AtRest next ProcessAction.own s → ∃ r ∈ s.reporters, r.place ≠ .serving) := by
  obtain ⟨s, h, hhealth, hparent⟩ : ∃ s, runs next init bindRun = some s ∧ s.health = 503 ∧
      s.watch.parentDone = false := ⟨_, rfl, by decide⟩
  obtain ⟨hcause, -, -, -, hrest⟩ := health_exact h
  exact ⟨s, h, hhealth, hcause hhealth, fun h' => (hrest h' hparent).mp hhealth⟩

end Process

end Go42.App
