-- SUMMARY: Each delivery of a message: how often the handler is called, when the message is dead-lettered, and when it is acknowledged.
import Go42.Events.Router

/-!
# Deliveries

A delivery is a run of the chain of a subscription. Its log says how the handler answered and what
was published to the dead-letter topic. The broker call behind a dead letter may go on after the
delivery has ended.
-/

namespace Go42.Events

open Router (Cmd Res Choice World RouterProg)

/-! ## The call behind a dead letter -/

section Calls

variable {n i : ℕ} {topic : String} {msg : Message} {done : Bool} {c c' : Call} {s s' : PublisherState}

/-- A call that publishes `msg`, whose context was done from the start or not. -/
structure Call.For (topic : String) (msg : Message) (done : Bool) (c : Call) : Prop where
  inv : c.Inv
  topic_eq : c.topic = topic
  copied : ∀ m ∈ c.copied, m = msg
  waiting : c.caller = .acquiring ∨ c.caller = .copying → c.msg = msg
  dead : done = true → c.ctxErr ≠ none ∧ c.published = []

/-- The message may change once the call has returned. -/
theorem Call.For.step {a : CallAction} (h : c.For topic msg done) (hstep : c.step a = some c')
    (hchange : ∀ m, a = .change m → c.reply ≠ none) : c'.For topic msg done := by
  have hinv := Call.step_inv h.inv hstep
  obtain ⟨-, htopic, hcopied, hwaiting, hdead⟩ := h
  cases a with
  | change m =>
      have hreply := hchange m rfl
      cases hstep
      refine ⟨hinv, htopic, hcopied, ?_, hdead⟩
      rintro (hcaller | hcaller)
      · exact absurd (show c.reply = none by simp [reply, show c.caller = _ from hcaller]) hreply
      · exact absurd (show c.reply = none by simp [reply, show c.caller = _ from hcaller]) hreply
  | cancel e =>
      simp only [Call.step] at hstep
      split at hstep <;> cases hstep
      refine ⟨hinv, htopic, hcopied, hwaiting, fun hdone => ?_⟩
      exact ⟨Option.some_ne_none e, (hdead hdone).2⟩
  | acquire =>
      simp only [Call.step] at hstep
      split at hstep <;> cases hstep
      exact ⟨hinv, htopic, hcopied, fun _ => hwaiting (.inl (by assumption)), hdead⟩
  | copy =>
      simp only [Call.step] at hstep
      split at hstep <;> cases hstep
      refine ⟨hinv, htopic, fun m hm => ?_, fun hcaller => ?_, hdead⟩
      · cases List.mem_append.mp hm with
        | inl hold => exact hcopied m hold
        | inr hnew =>
            rw [List.mem_singleton.mp hnew]
            exact hwaiting (.inr (by assumption))
      · exact absurd hcaller (by simp)
  | check =>
      simp only [Call.step] at hstep
      split at hstep
      case h_2 => cases hstep
      case h_1 =>
        split at hstep <;> cases hstep
        case h_1 => exact ⟨hinv, htopic, hcopied, hwaiting, hdead⟩
        case h_2 hctx =>
          refine ⟨hinv, htopic, hcopied, hwaiting, fun hdone => ?_⟩
          exact absurd hctx (hdead hdone).1
  | giveUp | start | receive | contextDone =>
      simp only [Call.step] at hstep
      split at hstep <;> cases hstep
      exact ⟨hinv, htopic, hcopied, fun hcaller => absurd hcaller (by simp), hdead⟩
  | brokerReturn err =>
      simp only [Call.step] at hstep
      split at hstep <;> cases hstep
      exact ⟨hinv, htopic, hcopied, hwaiting, hdead⟩
  | send =>
      simp only [Call.step] at hstep
      split at hstep <;> cases hstep
      exact ⟨hinv, htopic, hcopied, hwaiting, hdead⟩
  | release =>
      simp only [Call.step] at hstep
      split at hstep <;> cases hstep
      exact ⟨hinv, htopic, hcopied, hwaiting, hdead⟩

theorem Call.For.withoutRest (h : c.For topic msg done) :
    Call.For topic msg done { c with rest := [] } :=
  ⟨⟨h.inv.caller, h.inv.worker, h.inv.result⟩, h.topic_eq, h.copied, h.waiting, h.dead⟩

theorem new_for : (Call.new topic msg []).For topic msg false where
  inv := Call.new_inv
  topic_eq := rfl
  copied := fun _ hm => absurd hm List.not_mem_nil
  waiting := fun _ => rfl
  dead := fun h => nomatch h

theorem cancelled_for (e : CtxErr) :
    Call.For topic msg true { Call.new topic msg [] with ctxErr := some e } where
  inv := @Call.step_inv (Call.new topic msg []) _ (.cancel e) Call.new_inv rfl
  topic_eq := rfl
  copied := fun _ hm => absurd hm List.not_mem_nil
  waiting := fun _ => rfl
  dead := fun _ => ⟨Option.some_ne_none e, rfl⟩

/-- The caller waits: nobody changes the message. -/
theorem runs_for : ∀ {as : List PublisherAction} {s : PublisherState} {c : Call},
    s.calls[i]? = some c → c.For topic msg done → as.any (Router.isChange i) = false →
      runs (PublisherState.next n) s as = some s' →
        ∃ c', s'.calls[i]? = some c' ∧ c'.For topic msg done := by
  intro as
  induction as with
  | nil => intro s c hc hfor _ h; cases h; exact ⟨c, hc, hfor⟩
  | cons a as ih =>
      intro s c hc hfor hchange h
      obtain ⟨s₁, h₁, h₂⟩ := runs_cons.mp h
      rw [List.any_cons, Bool.or_eq_false_iff] at hchange
      obtain ⟨c₁, hc₁, hcases⟩ := PublisherState.next_call hc h₁
      have hfor₁ : c₁.For topic msg done := by
        rcases hcases with rfl | rfl | ⟨ca, rfl, hstep⟩
        · exact hfor
        · exact hfor.withoutRest
        · apply hfor.step hstep
          rintro m rfl
          simp [Router.isChange] at hchange
      exact ih hc₁ hfor₁ hchange.2 h₂

/-- The call has returned: whatever happens, its reply stays. -/
theorem runs_replied {r : Option GoError} : ∀ {as : List PublisherAction} {s : PublisherState} {c : Call},
    s.calls[i]? = some c → c.For topic msg done → c.reply = some r →
      runs (PublisherState.next n) s as = some s' →
        ∃ c', s'.calls[i]? = some c' ∧ c'.For topic msg done ∧ c'.reply = some r := by
  intro as
  induction as with
  | nil => intro s c hc hfor hr h; cases h; exact ⟨c, hc, hfor, hr⟩
  | cons a as ih =>
      intro s c hc hfor hr h
      obtain ⟨s₁, h₁, h₂⟩ := runs_cons.mp h
      obtain ⟨c₁, hc₁, hcases⟩ := PublisherState.next_call hc h₁
      have hne : c.reply ≠ none := by rw [hr]; exact Option.some_ne_none r
      have hnext : c₁.For topic msg done ∧ c₁.reply = some r := by
        rcases hcases with rfl | rfl | ⟨ca, -, hstep⟩
        · exact ⟨hfor, hr⟩
        · exact ⟨hfor.withoutRest, hr⟩
        · refine ⟨hfor.step hstep fun _ _ => hne, ?_⟩
          rw [← hr, Call.reply, Call.reply, Call.step_replied hne hstep]
      exact ih hc₁ hnext.1 hnext.2 h₂

end Calls

/-! ## What a delivery has done -/

namespace Router

/-- The answer of the handler, if the step was one of its calls. -/
def handled? : Record Cmd Res (Option ℕ) → Option (Option GoError)
  | ⟨_, .handle _, .returned _, _⟩ => some none
  | ⟨_, .handle _, .failed err, _⟩ => some (some err)
  | _ => none

/-- The answers of the handler, in order. -/
def handled (log : RouterLog) : List (Option GoError) := (log.filterMap handled?).reverse

/-- A publish of the dead-letter queue: the number of its call, its arguments and its result. -/
structure DeadLetter where
  index : ℕ
  topic : String
  msg : Message
  err : Option GoError

def deadLetter? : Record Cmd Res (Option ℕ) → Option DeadLetter
  | ⟨_, .publish topic msg, .returned _, some i⟩ => some ⟨i, topic, msg, none⟩
  | ⟨_, .publish topic msg, .failed err, some i⟩ => some ⟨i, topic, msg, some err⟩
  | _ => none

def deadLetters (log : RouterLog) : List DeadLetter := (log.filterMap deadLetter?).reverse

variable {n T : ℕ} {log log' new : RouterLog} {w w' : World} {o : Outcome Unit} {msg : Message}

theorem handled_append : handled (new ++ log) = handled log ++ handled new := by
  simp [handled]

theorem deadLetters_append : deadLetters (new ++ log) = deadLetters log ++ deadLetters new := by
  simp [deadLetters]

/-- A publish that is answered is a call that has returned. -/
theorem exec_publish {topic : String} {ch : Choice} {e : Option ℕ}
    (h : exec n log T (.publish topic msg) ch w = some (o, e, w')) :
    ∃ i r c, o = ofErr r ∧ e = some i ∧ w'.publisher.calls[i]? = some c ∧ c.reply = some r ∧
      c.For topic msg w.ctxErr.isSome := by
  unfold exec at h
  dsimp only at h
  split at h
  case isTrue => cases h
  case isFalse hchange =>
    obtain ⟨s, hstart, h⟩ := Option.bind_eq_some_iff.mp h
    obtain ⟨w₁, hothers, h⟩ := Option.bind_eq_some_iff.mp h
    obtain ⟨r, hr, heq⟩ := Option.map_eq_some_iff.mp h
    obtain ⟨c, hc, hreply⟩ := Option.bind_eq_some_iff.mp hr
    obtain ⟨s', hruns, rfl⟩ := Option.map_eq_some_iff.mp hothers
    cases heq
    refine ⟨_, r, c, rfl, rfl, hc, hreply, ?_⟩
    have hchange : ch.others.any (isChange w.publisher.calls.length) = false := by simpa using hchange
    have hnew : ∃ c₀, s.calls[w.publisher.calls.length]? = some c₀ ∧ c₀.For topic msg w.ctxErr.isSome := by
      unfold startPublish at hstart
      dsimp only at hstart
      cases hctx : w.ctxErr with
      | none =>
          rw [hctx] at hstart
          cases hstart
          exact ⟨_, List.getElem?_concat_length, new_for⟩
      | some e =>
          rw [hctx] at hstart
          simp only [PublisherState.next, List.getElem?_concat_length, slots, Call.step, Call.new] at hstart
          cases hstart
          refine ⟨_, List.getElem?_set_self ?_, cancelled_for e⟩
          simp
    obtain ⟨c₀, hc₀, hfor₀⟩ := hnew
    obtain ⟨c', hc', hfor'⟩ := runs_for hc₀ hfor₀ hchange hruns
    rw [hc'] at hc
    cases hc
    exact hfor'

/-! ## Attempts -/

/-- What the attempts with `k` retries come to. -/
structure Tried (k : ℕ) (new : RouterLog) (o : Outcome Unit) (w' : World) : Prop where
  noDeadLetters : deadLetters new = []
  atLeastOne : 1 ≤ (handled new).length
  atMost : (handled new).length ≤ k + 1
  retried : ∀ a ∈ (handled new).dropLast, ∃ err, a = some err ∧ isPermanent err = false
  last : ∃ a, (handled new).getLast? = some a ∧ o = ofErr a ∧ ∀ err, a = some err →
    isPermanent err = true ∨ (handled new).length = k + 1 ∨ w'.ctxErr ≠ none

theorem consume_runs (h : (consume msg).Runs (exec n) T log w o log' w') :
    ∃ a e, o = ofErr a ∧ log' = ⟨T, .handle msg.payload, ofErr a, e⟩ :: log := by
  obtain ⟨ch, e, hexec, rfl⟩ := Prog.runs_call.mp h
  obtain ⟨w₁, -, heq⟩ := Option.map_eq_some_iff.mp hexec
  cases heq
  exact ⟨ch.answer, none, rfl, rfl⟩

theorem handled_consume (a : Option GoError) (e : Option ℕ) :
    handled [⟨T, .handle msg.payload, ofErr a, e⟩] = [a] := by
  cases a <;> rfl

theorem deadLetters_consume (a : Option GoError) (e : Option ℕ) :
    deadLetters [⟨T, .handle msg.payload, ofErr a, e⟩] = [] := by
  cases a <;> rfl

theorem ofErr_eq_failed {a : Option GoError} {err : GoError} (h : Outcome.failed err = ofErr a) :
    a = some err := by
  cases a with
  | none => cases h
  | some e => cases h; rfl

/-- Steps that neither call the handler nor publish. -/
def Silent (new : RouterLog) : Prop := handled new = [] ∧ deadLetters new = []

theorem waits_log (h : Waits n T log w log' w') : ∃ new, log' = new ++ log ∧ Silent new := by
  obtain ⟨p, o, hissues, hruns⟩ := h
  obtain ⟨new, hlog, hbackoff⟩ := hruns.issues hissues
  have hnone {β : Type} (f : Record Cmd Res (Option ℕ) → Option β) (hf : ∀ T answer e, f ⟨T, .backoff, answer, e⟩ = none) :
      new.filterMap f = [] := by
    apply List.filterMap_eq_nil_iff.mpr
    rintro ⟨T, cmd, answer, e⟩ hr
    cases hbackoff _ hr
    exact hf T answer e
  refine ⟨new, hlog, ?_, ?_⟩
  · rw [handled, hnone handled? fun _ _ _ => rfl, List.reverse_nil]
  · rw [deadLetters, hnone deadLetter? fun _ _ _ => rfl, List.reverse_nil]

/-- One attempt, and the library gives up. -/
theorem tried_once {k : ℕ} {a : Option GoError} {e : Option ℕ} {waits : RouterLog} (hwaits : Silent waits)
    (hend : ∀ err, a = some err → isPermanent err = true ∨ k = 0 ∨ w'.ctxErr ≠ none) :
    Tried k (waits ++ [⟨T, .handle msg.payload, ofErr a, e⟩]) (ofErr a) w' := by
  have hhandled : handled (waits ++ [⟨T, .handle msg.payload, ofErr a, e⟩]) = [a] := by
    rw [handled_append, handled_consume, hwaits.1]
    rfl
  refine ⟨?_, ?_, ?_, ?_, a, ?_, rfl, ?_⟩
  · rw [deadLetters_append, deadLetters_consume, hwaits.2, List.append_nil]
  · rw [hhandled]
    exact Nat.le_refl _
  · rw [hhandled]
    exact Nat.succ_le_succ (Nat.zero_le k)
  · rw [hhandled]
    exact fun _ ha => absurd ha List.not_mem_nil
  · rw [hhandled]
    rfl
  · rw [hhandled]
    rintro err rfl
    apply (hend err rfl).imp_right
    exact fun h => h.imp_left fun hk => by rw [hk]; rfl

/-- One attempt, and then others. -/
theorem Tried.again {k : ℕ} {err : GoError} {e : Option ℕ} {waits : RouterLog} (hwaits : Silent waits)
    (hretry : isPermanent err = false) (h : Tried k new o w') :
    Tried (k + 1) (new ++ (waits ++ [⟨T, .handle msg.payload, ofErr (some err), e⟩])) o w' := by
  have hhandled : handled (new ++ (waits ++ [⟨T, .handle msg.payload, ofErr (some err), e⟩])) =
      some err :: handled new := by
    rw [handled_append, handled_append, handled_consume, hwaits.1]
    rfl
  obtain ⟨hnone, hleast, hmost, hretried, a, hlast, ho, hend⟩ := h
  have hne : handled new ≠ [] := fun hnil => by rw [hnil] at hleast; exact absurd hleast (by simp)
  refine ⟨?_, ?_, ?_, ?_, a, ?_, ho, ?_⟩
  · rw [deadLetters_append, deadLetters_append, deadLetters_consume, hwaits.2, hnone]
    rfl
  · rw [hhandled]
    exact Nat.succ_le_succ (Nat.zero_le _)
  · rw [hhandled]
    exact Nat.succ_le_succ hmost
  · rw [hhandled, List.dropLast_cons_of_ne_nil hne]
    exact List.forall_mem_cons.mpr ⟨⟨err, rfl, hretry⟩, hretried⟩
  · rw [hhandled, List.getLast?_cons, hlast]
    rfl
  · rw [hhandled]
    intro err' herr'
    apply (hend err' herr').imp_right
    exact fun h => h.imp_left fun hlength => congrArg (· + 1) hlength

/-- By induction on the attempts. -/
theorem attempts_tried {k : ℕ}
    (h : Attempts n T (fun err => !isPermanent err) (consume msg) k log w o log' w') :
    ∃ new, log' = new ++ log ∧ Tried k new o w' := by
  have hsilent : Silent [] := ⟨rfl, rfl⟩
  induction h with
  | last hrun hfinal =>
      obtain ⟨a, e, rfl, rfl⟩ := consume_runs hrun
      refine ⟨[] ++ [_], rfl, tried_once hsilent ?_⟩
      rintro err rfl
      exact .inl (by simpa using hfinal err rfl)
  | exhausted hrun =>
      obtain ⟨a, e, ho, rfl⟩ := consume_runs hrun
      rw [ho]
      exact ⟨[] ++ [_], rfl, tried_once hsilent fun _ _ => .inr (.inl rfl)⟩
  | interrupted hrun hwaits hctx =>
      obtain ⟨a, e, ho, rfl⟩ := consume_runs hrun
      obtain ⟨waits, rfl, hnothing⟩ := waits_log hwaits
      rw [ho]
      refine ⟨waits ++ [_], by rw [List.append_assoc]; rfl, tried_once hnothing ?_⟩
      exact fun _ _ => .inr (.inr hctx)
  | again hrun hretry hwaits _ ih =>
      obtain ⟨a, e, ho, rfl⟩ := consume_runs hrun
      obtain ⟨waits, rfl, hnothing⟩ := waits_log hwaits
      obtain ⟨new, rfl, htried⟩ := ih
      obtain rfl := ofErr_eq_failed ho
      refine ⟨new ++ (waits ++ [⟨T, .handle msg.payload, ofErr (some _), e⟩]), ?_,
        htried.again hnothing (by simpa using hretry)⟩
      rw [List.append_assoc, List.append_assoc]
      rfl

/-! ## Deliveries -/

/-- The broker call of a dead letter, now or later. -/
structure BrokerCall (r : Router) (topic : String) (msg : Message) (log : RouterLog) (d : DeadLetter)
    (c : Events.Call) : Prop where
  topic_eq : c.topic = topic ++ r.deadLetterTopicSuffix
  copy : ∀ m ∈ c.published, m.uuid = msg.uuid ∧ m.payload = msg.payload
  once : c.published.length ≤ 1
  accepted : d.err = none → c.published.length = 1 ∧ c.answers = [none]
  /-- Nothing is published for a transient error before its retries are used up. -/
  exhausted : c.published ≠ [] → ∃ err, (handled log).getLast? = some (some err) ∧
    (isPermanent err = true ∨ (handled log).length = r.maxRetries + 1)

/-- What holds of a delivery that has ended with `o`. -/
structure Safe (r : Router) (topic : String) (n : ℕ) (msg : Message) (o : Outcome Unit) (log : RouterLog)
    (w' : World) : Prop where
  atLeastOne : 1 ≤ (handled log).length
  atMost : (handled log).length ≤ r.maxRetries + 1
  /-- The handler is called again after a transient error only. -/
  retried : ∀ a ∈ (handled log).dropLast, ∃ err, a = some err ∧ isPermanent err = false
  oneDeadLetter : (deadLetters log).length ≤ 1
  deadLetter : ∀ d ∈ deadLetters log, (∃ err, (handled log).getLast? = some (some err)) ∧
    d.topic = topic ++ r.deadLetterTopicSuffix ∧ d.msg.uuid = msg.uuid ∧ d.msg.payload = msg.payload
  /-- The message is acknowledged when the chain returns nil. -/
  acked : o.isReturned = true ↔
    (handled log).getLast? = some none ∨ ∃ d ∈ deadLetters log, d.err = none
  broker : ∀ d ∈ deadLetters log, ∀ (as : List PublisherAction) (s : PublisherState) (c : Events.Call),
    runs (PublisherState.next n) w'.publisher as = some s → s.calls[d.index]? = some c →
      BrokerCall r topic msg log d c

variable {r : Router} {topic : String}

/-- The handler did not fail. -/
theorem safe_of_passed (h : Tried r.maxRetries log o w') (ho : ∀ err, o ≠ .failed err) :
    Safe r topic n msg o log w' := by
  obtain ⟨hnone, hleast, hmost, hretried, a, hlast, rfl, -⟩ := h
  have hnil : a = none := by
    cases a with
    | none => rfl
    | some err => exact absurd rfl (ho err)
  subst hnil
  have hno {P : DeadLetter → Prop} : ∀ d ∈ deadLetters log, P d := by
    rw [hnone]
    exact fun _ hd => absurd hd List.not_mem_nil
  refine ⟨hleast, hmost, hretried, ?_, hno, ?_, hno⟩
  · rw [hnone]
    exact Nat.zero_le 1
  · exact ⟨fun _ => .inl hlast, fun _ => rfl⟩

/-- A dead letter whose call has returned. -/
theorem brokerCall_of_for {err : GoError} {msg' : Message} {w₁ : World} {i : ℕ} {reply : Option GoError}
    {c : Events.Call} (hlast : (handled log).getLast? = some (some err))
    (hend : isPermanent err = true ∨ (handled log).length = r.maxRetries + 1 ∨ w₁.ctxErr ≠ none)
    (huuid : msg'.uuid = msg.uuid) (hpayload : msg'.payload = msg.payload)
    (hfor : c.For (topic ++ r.deadLetterTopicSuffix) msg' w₁.ctxErr.isSome) (hreply : c.reply = some reply) :
    BrokerCall r topic msg log ⟨i, topic ++ r.deadLetterTopicSuffix, msg', reply⟩ c := by
  have hcopy : c.published = [] ∨ c.published = [msg'] := by
    cases hfor.inv.correct.publishes_copy with
    | inl hnone => exact .inl hnone
    | inr hcopied =>
        obtain ⟨m, hpublished, hcopied⟩ := hcopied
        rw [hfor.copied m (by rw [hcopied]; exact List.mem_singleton_self m)] at hpublished
        exact .inr hpublished
  constructor
  · exact hfor.topic_eq
  · intro m hm
    cases hcopy with
    | inl hnone =>
        rw [hnone] at hm
        cases hm
    | inr hone =>
        rw [hone] at hm
        rw [List.mem_singleton.mp hm]
        exact ⟨huuid, hpayload⟩
  · cases hcopy with
    | inl hnone => rw [hnone]; exact Nat.zero_le 1
    | inr hone => rw [hone]; exact Nat.le_refl 1
  · intro hnil
    have hnil : reply = none := hnil
    rw [hnil] at hreply
    have hanswers := hfor.inv.correct.nil_reply hreply
    refine ⟨?_, hanswers⟩
    cases hcopy with
    | inl hnone => exact absurd hnone (hfor.inv.published_of_answers (by rw [hanswers]; exact List.cons_ne_nil _ _))
    | inr hone => rw [hone]; rfl
  · intro hpublished
    refine ⟨err, hlast, ?_⟩
    rcases hend with hpermanent | hlength | hctx
    · exact .inl hpermanent
    · exact .inr hlength
    · -- A context that is done stops the publish.
      exact absurd (hfor.dead (Option.isSome_iff_ne_none.mpr hctx)).2 hpublished

/-- The handler failed, and the message went to the queue. -/
theorem safe_of_moved {err : GoError} {msg' : Message} {w₁ : World} {o₂ : Outcome Unit}
    (h : Tried r.maxRetries log (.failed err) w₁) (huuid : msg'.uuid = msg.uuid)
    (hpayload : msg'.payload = msg.payload)
    (hpub : (deadLetterPublish (topic ++ r.deadLetterTopicSuffix) msg').Runs (exec n) T log w₁ o₂ log' w')
    (ho : o.isReturned = o₂.isReturned) : Safe r topic n msg o log' w' := by
  obtain ⟨ch, e, hexec, rfl⟩ := Prog.runs_call.mp hpub
  obtain ⟨i, reply, c₀, rfl, rfl, hc₀, hreply, hfor⟩ := exec_publish hexec
  obtain ⟨hnone, hleast, hmost, hretried, a, hlast, ha, hend⟩ := h
  obtain rfl := ofErr_eq_failed ha
  have hhandled : handled (⟨T, .publish (topic ++ r.deadLetterTopicSuffix) msg', ofErr reply, some i⟩ :: log) =
      handled log := by
    cases reply <;> rfl
  have hletters : deadLetters
      (⟨T, .publish (topic ++ r.deadLetterTopicSuffix) msg', ofErr reply, some i⟩ :: log) =
        [⟨i, topic ++ r.deadLetterTopicSuffix, msg', reply⟩] := by
    rw [← List.singleton_append, deadLetters_append, hnone]
    cases reply <;> rfl
  constructor
  · rw [hhandled]
    exact hleast
  · rw [hhandled]
    exact hmost
  · rw [hhandled]
    exact hretried
  · rw [hletters]
    exact Nat.le_refl 1
  · rw [hletters, hhandled]
    intro d hd
    rw [List.mem_singleton.mp hd]
    exact ⟨⟨err, hlast⟩, rfl, huuid, hpayload⟩
  · rw [hletters, hhandled, hlast, ho]
    cases reply with
    | none => exact ⟨fun _ => .inr ⟨_, List.mem_singleton_self _, rfl⟩, fun _ => rfl⟩
    | some err' =>
        constructor
        · exact fun h => nomatch h
        · rintro (h | ⟨d, hd, hnone⟩)
          · cases h
          · rw [List.mem_singleton.mp hd] at hnone
            cases hnone
  · rw [hletters]
    intro d hd as s c hruns hc
    rw [List.mem_singleton.mp hd] at hc ⊢
    obtain ⟨c', hc', hfor', hreply'⟩ := runs_replied hc₀ hfor hreply hruns
    rw [hc] at hc'
    cases hc'
    rw [← hhandled] at hlast
    have hend' := hend err rfl
    rw [← hhandled] at hend'
    exact brokerCall_of_for hlast hend' huuid hpayload hfor' hreply'

/-- Every command can be answered: a call of `publish` at least gives up. -/
theorem exec_enabled (log : RouterLog) (c : Cmd) (w : World) : ∃ ch res, exec n log T c ch w = some res := by
  cases c with
  | handle event => exact ⟨⟨none, [], none⟩, _, rfl⟩
  | backoff => exact ⟨⟨none, [], none⟩, _, rfl⟩
  | publish topic msg =>
      have hgiveUp (e : CtxErr) (calls : List Events.Call) (held : ℕ) :
          PublisherState.next n ⟨calls ++ [{ Call.new topic msg [] with ctxErr := some e }], held⟩
            (.step calls.length .giveUp) = some ⟨calls ++
              [{ Call.new topic msg [] with ctxErr := some e, caller := .gaveUp e }], held⟩ := by
        simp [PublisherState.next, slots, Call.step, Call.new]
      have hcancel (e : CtxErr) (calls : List Events.Call) (held : ℕ) :
          PublisherState.next n ⟨calls ++ [Call.new topic msg []], held⟩ (.step calls.length (.cancel e)) =
            some ⟨calls ++ [{ Call.new topic msg [] with ctxErr := some e }], held⟩ := by
        simp [PublisherState.next, slots, Call.step, Call.new]
      cases hctx : w.ctxErr with
      | none =>
          refine ⟨⟨none, [.step w.publisher.calls.length (.cancel .canceled),
            .step w.publisher.calls.length .giveUp], none⟩, ?_⟩
          simp [exec, startPublish, interfere, runs, isChange, hctx, hgiveUp, hcancel, Call.reply]
      | some e =>
          refine ⟨⟨none, [.step w.publisher.calls.length .giveUp], none⟩, ?_⟩
          simp [exec, startPublish, interfere, runs, isChange, hctx, hgiveUp, hcancel, Call.reply]

end Router

/-! ## Main results -/

/-- Each delivery of a message ends, and is safe, whatever the handler answers and whatever the other
users of the publisher do. -/
theorem subscribe_safe {lib : Watermill} {n : ℕ} (hlib : lib.Documented n) {r : Router} {topic : String}
    {chain : HandlerFunc} (h : r.subscribe lib topic = .ok chain) (msg : Message) (T : ℕ) :
    (∀ w, ∃ o log w', (chain msg).Runs (Router.exec n) T [] w o log w') ∧
      ∀ {w w' : World} {o : Outcome Unit} {log : RouterLog},
        (chain msg).Runs (Router.exec n) T [] w o log w' → Router.Safe r topic n msg o log w' := by
  refine ⟨fun w => Prog.exists_runs Router.exec_enabled (chain msg) [] w, ?_⟩
  intro w w' o log hrun
  unfold Router.subscribe at h
  dsimp only at h
  split at h
  case isTrue => cases h
  case isFalse htopic =>
    have hdead : topic ++ r.deadLetterTopicSuffix ≠ "" := by
      intro hempty
      have hlength := congrArg String.length hempty
      rw [String.length_append] at hlength
      exact htopic (String.length_eq_zero_iff.mp (Nat.eq_zero_of_add_eq_zero_right hlength))
    split at h
    case h_1 => cases h
    case h_2 =>
      obtain ⟨queue, hqueue, hpoisoned⟩ := hlib.poisonQueue deadLetterPublish _ hdead
      rw [hqueue] at h
      cases h
      rw [hlib.addMiddleware] at hrun
      have hrun : (queue (traceMessage (retryWithMetrics lib r.retry consume)) msg).Runs (Router.exec n) T [] w
          o log w' := hrun
      cases hpoisoned _ _ hrun with
      | passed hretried ho =>
          obtain ⟨new, hlog, htried⟩ := Router.attempts_tried (hlib.retry r.retry consume msg hretried)
          rw [List.append_nil] at hlog
          subst hlog
          exact Router.safe_of_passed htried ho
      | moved hretried huuid hpayload hpub ho =>
          obtain ⟨new, hlog, htried⟩ := Router.attempts_tried (hlib.retry r.retry consume msg hretried)
          rw [List.append_nil] at hlog
          subst hlog
          exact Router.safe_of_moved htried huuid hpayload hpub ho

/-! ### A library as it is documented -/

/-- The attempts of a program with `k` retries left. -/
def attempts (shouldRetry : GoError → Bool) (p : RouterProg Unit) : ℕ → RouterProg Unit
  | 0 => p
  | k + 1 => p.handle fun
    | .failed err =>
      if shouldRetry err then
        (Router.call .backoff).handle fun
          | .returned _ => attempts shouldRetry p k
          | _ => .done (.failed err)
      else .done (.failed err)
    | o => .done o

/-- The queue of a topic: a message that was moved counts as handled. -/
def moveTo (pub : Message → RouterProg Unit) : HandlerMiddleware := fun next msg =>
  (next msg).handle fun
    | .failed err =>
      (pub { msg with metadata := msg.metadata ++ [("reason_poisoned", err.text)] }).handle fun
        | .failed pubErr => .fail (.wrap2 "" err "\n" pubErr)
        | o => .done o
    | o => .done o

def plainLibrary : Watermill where
  retry r h msg := attempts r.shouldRetry (h msg) r.maxRetries
  poisonQueue pub topic :=
    if topic = "" then .error (.leaf "invalid poison queue topic") else .ok (moveTo (pub topic))
  addMiddleware ms h := ms.foldr (fun m next => m next) h

section PlainLibrary

variable {n T : ℕ} {log log' : RouterLog} {w w' : World} {o : Outcome Unit}

/-- The library goes on, unless the context of the message is done. -/
theorem exec_backoff {ch : Choice} {e : Option ℕ}
    (h : Router.exec n log T .backoff ch w = some (o, e, w')) :
    o = .returned () ∨ w'.ctxErr ≠ none := by
  obtain ⟨w₁, -, heq⟩ := Option.map_eq_some_iff.mp h
  cases heq
  cases hctx : w'.ctxErr with
  | none => exact .inl rfl
  | some e => exact .inr (Option.some_ne_none e)

theorem attempts_documented {shouldRetry : GoError → Bool} {p : RouterProg Unit} (k : ℕ) :
    ∀ {log : RouterLog} {w : World}, (attempts shouldRetry p k).Runs (Router.exec n) T log w o log' w' →
      Attempts n T shouldRetry p k log w o log' w' := by
  induction k with
  | zero =>
      intro log w h
      cases o with
      | failed err => exact .exhausted h
      | returned u => exact .last h fun _ heq => nomatch heq
      | panicked v => exact .last h fun _ heq => nomatch heq
  | succ k ih =>
      intro log w h
      obtain ⟨o₁, log₁, w₁, hrun, hrest⟩ := Prog.runs_handle.mp h
      cases o₁ with
      | returned u =>
          obtain ⟨rfl, rfl, rfl⟩ := Prog.runs_done.mp hrest
          exact .last hrun fun _ heq => nomatch heq
      | panicked v =>
          obtain ⟨rfl, rfl, rfl⟩ := Prog.runs_done.mp hrest
          exact .last hrun fun _ heq => nomatch heq
      | failed err =>
          dsimp only at hrest
          split at hrest
          case isFalse hstop =>
            obtain ⟨rfl, rfl, rfl⟩ := Prog.runs_done.mp hrest
            refine .last hrun fun err' heq => ?_
            cases heq
            simpa using hstop
          case isTrue hretry =>
            obtain ⟨o₂, log₂, w₂, hwait, hrest⟩ := Prog.runs_handle.mp hrest
            have hwaits : Waits n T log₁ w₁ log₂ w₂ := ⟨_, o₂, Prog.Issues.call rfl, hwait⟩
            obtain ⟨ch, e, hexec, -⟩ := Prog.runs_call.mp hwait
            have hdone : o₂ = .returned () ∨ w₂.ctxErr ≠ none := exec_backoff hexec
            cases o₂ with
            | returned u => exact .again hrun hretry hwaits (ih hrest)
            | failed err' =>
                obtain ⟨rfl, rfl, rfl⟩ := Prog.runs_done.mp hrest
                exact .interrupted hrun hwaits (hdone.resolve_left fun heq => nomatch heq)
            | panicked v =>
                obtain ⟨rfl, rfl, rfl⟩ := Prog.runs_done.mp hrest
                exact .interrupted hrun hwaits (hdone.resolve_left fun heq => nomatch heq)

theorem plainLibrary_documented (n : ℕ) : plainLibrary.Documented n where
  retry := fun r h msg => attempts_documented r.maxRetries
  poisonQueue := by
    intro pub topic htopic
    refine ⟨moveTo (pub topic), if_neg htopic, ?_⟩
    intro h msg T log log' w w' o hrun
    obtain ⟨o₁, log₁, w₁, hnext, hrest⟩ := Prog.runs_handle.mp hrun
    cases o₁ with
    | returned u =>
        obtain ⟨rfl, rfl, rfl⟩ := Prog.runs_done.mp hrest
        exact .passed hnext fun _ heq => nomatch heq
    | panicked v =>
        obtain ⟨rfl, rfl, rfl⟩ := Prog.runs_done.mp hrest
        exact .passed hnext fun _ heq => nomatch heq
    | failed err =>
        obtain ⟨o₂, log₂, w₂, hpub, hrest⟩ := Prog.runs_handle.mp hrest
        cases o₂ with
        | returned u =>
            obtain ⟨rfl, rfl, rfl⟩ := Prog.runs_done.mp hrest
            refine .moved hnext ?_ ?_ hpub rfl
            · rfl
            · rfl
        | failed pubErr =>
            obtain ⟨rfl, rfl, rfl⟩ := Prog.runs_done.mp hrest
            refine .moved hnext ?_ ?_ hpub rfl
            · rfl
            · rfl
        | panicked v =>
            obtain ⟨rfl, rfl, rfl⟩ := Prog.runs_done.mp hrest
            refine .moved hnext ?_ ?_ hpub rfl
            · rfl
            · rfl
  addMiddleware := fun _ _ => rfl

end PlainLibrary

/-- One retry. -/
def usersRouter : Router := ⟨1, 250000000, 5000000000, "_dlq", none⟩

def usersChain : HandlerFunc :=
  plainLibrary.addMiddleware [restoreMessageContext, moveTo (deadLetterPublish ("users" ++ "_dlq")),
    traceMessage, retryWithMetrics plainLibrary usersRouter.retry] consume

theorem usersRouter_subscribe : usersRouter.subscribe plainLibrary "users" = .ok usersChain := by
  simp [Router.subscribe, usersRouter, plainLibrary, usersChain]

/-- The handler fails twice, and the broker accepts the dead letter. -/
def failTwice : List Choice :=
  [⟨some (.leaf "temporary failure"), [], none⟩, ⟨none, [], none⟩,
    ⟨some (.leaf "temporary failure"), [], none⟩,
    ⟨none, [.step 0 .acquire, .step 0 .copy, .step 0 .start, .step 0 .check, .step 0 (.brokerReturn none),
      .step 0 .send, .step 0 .receive], none⟩]

theorem failTwice_run : ∃ res, (usersChain ⟨"1", [], [1, 2]⟩).follow (Router.exec 1) 0 failTwice []
      ⟨.init, none⟩ = some res ∧ res.1.isReturned = true ∧
    Router.handled res.2.1 = [some (.leaf "temporary failure"), some (.leaf "temporary failure")] :=
  System.exists_of_any (by decide +kernel)

theorem subscribe_safe_failTwice : ∃ o log w',
    (usersChain ⟨"1", [], [1, 2]⟩).Runs (Router.exec 1) 0 [] ⟨.init, none⟩ o log w' ∧
      o.isReturned = true ∧ (Router.handled log).length = 2 ∧
      Router.Safe usersRouter "users" 1 ⟨"1", [], [1, 2]⟩ o log w' := by
  obtain ⟨⟨o, log, w'⟩, hfollow, ho, hhandled⟩ := failTwice_run
  have hruns := Prog.runs_of_follow hfollow
  refine ⟨o, log, w', hruns, ho, by rw [hhandled]; rfl, ?_⟩
  exact (subscribe_safe (plainLibrary_documented 1) usersRouter_subscribe ⟨"1", [], [1, 2]⟩ 0).2 hruns

end Go42.Events
