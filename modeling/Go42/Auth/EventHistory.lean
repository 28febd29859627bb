-- SUMMARY: The outbox, the broker and the subscriber together: each message becomes one record of the history, however often it is published, delivered and handled.
import Go42.Auth.EventSubscriber
import Go42.Lib.Steps
import Go42.Outbox.Service

/-!
# Exactly one record

The broker delivers what was published on the topic of the auth events: any of it, in any order,
any number of times, and several deliveries at once. What a call of `Publish` reported says
nothing about that, and neither does the end of the publisher's transaction.
-/

namespace Go42.Auth.EventHistory

open EventSubscriber
open Events (isPermanent)
open Outbox (Event newRow)
open Outbox.Lifecycle (Enqueued Produced Saved outbox savedAt)

/-- `domain.TopicNameAuthEvents`. -/
def topicNameAuthEvents : String := "auth_events_topic"

/-! ## The system -/

section System

variable (marshal : Event → Except GoError Bytes) (unmarshal : Bytes → Except GoError Event)
variable (store : ℤ → ℤ)

structure State where
  producer : (outbox marshal).State
  consumer : (subscriber unmarshal store).State

inductive Step where
  | produce (a : Action Outbox.Choice Outbox.Lifecycle.Call ℕ)
  | deliver (eventData : Bytes)
  | handle (T : ℕ) (ch : Choice)
  | crash (T : ℕ)
  | disconnect (T : ℕ)

/-- A publisher has handed the event to the broker. -/
def published (log : Outbox.OutboxLog) (eventData : Bytes) : Bool :=
  log.any fun r =>
    match r.cmd with
    | .publish topic _ payload => decide (topic = topicNameAuthEvents ∧ payload = eventData)
    | _ => false

variable {marshal unmarshal store}

/-- A step of the subscriber alone. -/
def State.consume (s : State marshal unmarshal store) (a : Action Choice Bytes ℕ) :
    Option (State marshal unmarshal store) :=
  ((subscriber unmarshal store).next s.consumer a).map fun c => { s with consumer := c }

def next (s : State marshal unmarshal store) : Step → Option (State marshal unmarshal store)
  | .produce a => ((outbox marshal).next s.producer a).map fun o => { s with producer := o }
  | .deliver eventData =>
    if published s.producer.log eventData then s.consume (.spawn eventData) else none
  | .handle T ch => s.consume (.step T ch)
  | .crash T => s.consume (.crash T)
  | .disconnect T => s.consume (.env T)

def init (clock : ℤ) : State marshal unmarshal store :=
  ⟨(outbox marshal).init (Outbox.plain Outbox.Lifecycle.emptyTables clock),
    (subscriber unmarshal store).init ⟨emptyHistory, ∅⟩⟩

end System

/-- The steps of the outbox. -/
def Step.produce? : Step → Option (Action Outbox.Choice Outbox.Lifecycle.Call ℕ)
  | .produce a => some a
  | _ => none

/-- The steps of the subscriber. -/
def Step.consume? : Step → Option (Action Choice Bytes ℕ)
  | .produce _ => none
  | .deliver eventData => some (.spawn eventData)
  | .handle T ch => some (.step T ch)
  | .crash T => some (.crash T)
  | .disconnect T => some (.env T)

/-! ## Each half by itself -/

variable {marshal : Event → Except GoError Bytes} {unmarshal : Bytes → Except GoError Event}
variable {store : ℤ → ℤ} {s s' : State marshal unmarshal store} {steps : List Step}

theorem next_produce {a : Action Outbox.Choice Outbox.Lifecycle.Call ℕ} (h : next s (.produce a) = some s') :
    (outbox marshal).next s.producer a = some s'.producer ∧ s'.consumer = s.consumer := by
  obtain ⟨o, hnext, rfl⟩ := Option.map_eq_some_iff.mp h
  exact ⟨hnext, rfl⟩

theorem consume_eq_some {a : Action Choice Bytes ℕ} (h : s.consume a = some s') :
    (subscriber unmarshal store).next s.consumer a = some s'.consumer ∧ s'.producer = s.producer := by
  unfold State.consume at h
  obtain ⟨c, hnext, rfl⟩ := Option.map_eq_some_iff.mp h
  exact ⟨hnext, rfl⟩

/-- A step of the whole is a step of one half. -/
theorem next_cases {step : Step} (h : next s step = some s') :
    (∃ a, step.produce? = some a ∧ step.consume? = none ∧
      (outbox marshal).next s.producer a = some s'.producer ∧ s'.consumer = s.consumer) ∨
    ∃ a, step.produce? = none ∧ step.consume? = some a ∧
      (subscriber unmarshal store).next s.consumer a = some s'.consumer ∧ s'.producer = s.producer ∧
        ∀ eventData, a = .spawn eventData → published s.producer.log eventData = true := by
  have hconsume {step : Step} {a : Action Choice Bytes ℕ} (hproduce : step.produce? = none)
      (ha : step.consume? = some a) (hs : s.consume a = some s')
      (hdeliver : ∀ eventData, a = .spawn eventData → published s.producer.log eventData = true) :
      ∃ a, step.produce? = none ∧ step.consume? = some a ∧
        (subscriber unmarshal store).next s.consumer a = some s'.consumer ∧ s'.producer = s.producer ∧
          ∀ eventData, a = .spawn eventData → published s.producer.log eventData = true :=
    ⟨a, hproduce, ha, (consume_eq_some hs).1, (consume_eq_some hs).2, hdeliver⟩
  cases step with
  | produce a => exact .inl ⟨a, rfl, rfl, next_produce h⟩
  | handle T ch => exact .inr (hconsume rfl rfl h fun _ h => (nomatch h))
  | crash T => exact .inr (hconsume rfl rfl h fun _ h => (nomatch h))
  | disconnect T => exact .inr (hconsume rfl rfl h fun _ h => (nomatch h))
  | deliver eventData =>
      obtain ⟨hpublished, h⟩ := Option.ite_none_right_eq_some.mp h
      refine .inr (hconsume rfl rfl h fun eventData' heq => ?_)
      cases heq
      exact hpublished

theorem run_halves : ∀ {s : State marshal unmarshal store}, runs next s steps = some s' →
    (outbox marshal).run s.producer (steps.filterMap Step.produce?) = some s'.producer ∧
      (subscriber unmarshal store).run s.consumer (steps.filterMap Step.consume?) = some s'.consumer := by
  induction steps with
  | nil => intro s h; cases h; exact ⟨rfl, rfl⟩
  | cons step steps ih =>
      intro s h
      obtain ⟨s₁, h₁, h₂⟩ := runs_cons.mp h
      obtain ⟨hproduced, hconsumed⟩ := ih h₂
      cases next_cases h₁ with
      | inl hproduce =>
          obtain ⟨a, ha, hnone, hnext, hsame⟩ := hproduce
          rw [List.filterMap_cons_some ha, List.filterMap_cons_none hnone, ← hsame]
          exact ⟨System.run_cons.mpr ⟨_, hnext, hproduced⟩, hconsumed⟩
      | inr hconsume =>
          obtain ⟨a, hnone, ha, hnext, hsame, -⟩ := hconsume
          rw [List.filterMap_cons_none hnone, List.filterMap_cons_some ha, ← hsame]
          exact ⟨hproduced, System.run_cons.mpr ⟨_, hnext, hconsumed⟩⟩

/-! ## What is delivered -/

theorem published_mono {log log' : Outbox.OutboxLog} {eventData : Bytes} (h : published log eventData = true)
    (hlog : log <:+ log') : published log' eventData = true := by
  obtain ⟨r, hr, hpublish⟩ := List.any_eq_true.mp h
  exact List.any_eq_true.mpr ⟨r, hlog.subset hr, hpublish⟩

/-- Every delivery is of a published event. -/
def Delivers (s : State marshal unmarshal store) : Prop :=
  ∀ eventData ∈ s.consumer.pool.map Thread.call, published s.producer.log eventData = true

theorem Delivers.next (h : Delivers s) {step : Step} (hnext : next s step = some s') : Delivers s' := by
  intro eventData hmem
  cases next_cases hnext with
  | inl hproduce =>
      obtain ⟨a, -, -, hrun, hsame⟩ := hproduce
      rw [hsame] at hmem
      exact published_mono (h eventData hmem) (System.next_log hrun)
  | inr hconsume =>
      obtain ⟨a, -, -, hrun, hsame, hdeliver⟩ := hconsume
      rw [System.next_calls hrun] at hmem
      rw [hsame]
      cases List.mem_append.mp hmem with
      | inl hold => exact h eventData hold
      | inr hnew =>
          obtain ⟨a', ha', hspawn⟩ := List.mem_filterMap.mp hnew
          cases List.mem_singleton.mp ha'
          cases a with
          | spawn call => cases hspawn; exact hdeliver eventData rfl
          | step T ch => cases hspawn
          | crash T => cases hspawn
          | env T => cases hspawn

/-! ## Every run -/

/-- What the row of a message says is what its record says. -/
def historyRecord (m : Outbox.OutboxMessage) : UserHistoryRecord where
  id := m.id
  occurredAt := m.createdAt
  userID := m.aggregateID
  eventType := m.aggregateType
  data := m.payload

/-- `encoding/json` reads back what it wrote, where the type of the event is UTF-8. -/
def RoundTrips (marshal : Event → Except GoError Bytes) (unmarshal : Bytes → Except GoError Event) : Prop :=
  ∀ event eventData, event.aggregateType.validString = true → marshal event = .ok eventData →
    unmarshal eventData = .ok event

/-- `uuid.New` gives no id to two messages. -/
def UniqueIds (log : Outbox.OutboxLog) : Prop :=
  ∀ m m', Enqueued log m → Enqueued log m' → m.id = m'.id → m = m'

/-- What holds of the history. -/
structure ExactlyOnce (s : State marshal unmarshal store) : Prop where
  atMostOne : ∀ id, (s.consumer.world.committed.rows.filter fun row => row.id = id).length ≤ 1
  records : ∀ row ∈ s.consumer.world.committed.rows, ∃ m, Enqueued s.producer.log m ∧ row = historyRecord m
  /-- A handler that returned nil has its message in the history, once. -/
  handled : ∀ T eventData, s.consumer.Finished T eventData (.returned ()) →
    ∃ m, Enqueued s.producer.log m ∧ marshal m.event = .ok eventData ∧
      (s.consumer.world.committed.rows.filter fun row => row.id = m.id) = [historyRecord m]
  notRejected : ∀ T eventData err, s.consumer.Finished T eventData (.failed err) → isPermanent err = false

theorem enqueued_of_published {clock : ℤ} {as : List (Action Outbox.Choice Outbox.Lifecycle.Call ℕ)}
    {o : (outbox marshal).State} {eventData : Bytes}
    (hrun : (outbox marshal).run ((outbox marshal).init
      (Outbox.plain Outbox.Lifecycle.emptyTables clock)) as = some o)
    (h : published o.log eventData = true) : ∃ m, Enqueued o.log m ∧ marshal m.event = .ok eventData := by
  obtain ⟨r, hr, hpublish⟩ := List.any_eq_true.mp h
  obtain ⟨newer, log, hlog⟩ := List.append_of_mem hr
  have hsuf : r :: log <:+ o.log := ⟨newer, hlog.symm⟩
  split at hpublish
  case h_2 => cases hpublish
  case h_1 topic id payload hcmd =>
    obtain ⟨m, hm, -, -, hjson⟩ :=
      (Outbox.Lifecycle.outbox_lossless hrun).published r log hsuf topic id payload hcmd
    obtain ⟨-, rfl⟩ := of_decide_eq_true hpublish
    exact ⟨m, hm.mono ((List.suffix_cons r log).trans hsuf), hjson⟩

/-- What the service validates is what the handler validates. -/
theorem validateEvent_of_saved {m : Outbox.OutboxMessage} (h : Saved store m) :
    validateEvent m.event = none ∧ m.event.aggregateType.validString = true := by
  obtain ⟨_, time, ⟨id, topic, msg, rfl, hid, hvalid, htype⟩, hshown, rfl⟩ := h
  obtain ⟨hid', hlen, -⟩ := Outbox.Message.validate_eq_none.mp hvalid
  have htime : time ≠ Outbox.zeroTime := ne_of_gt hshown.1
  exact ⟨if_pos ⟨hid, htime, hid', hlen⟩, htype⟩

/-- The column keeps the time of the row. -/
theorem stored_of_saved {m : Outbox.OutboxMessage} (h : Saved store m) :
    (eventLog m.event).stored store = historyRecord m := by
  obtain ⟨m₀, time, -, hshown, rfl⟩ := h
  exact congrArg (fun t => { historyRecord (savedAt m₀ time) with occurredAt := t }) hshown.2

theorem filter_id_length (t : History) (id : UUID) : (t.rows.filter fun row => row.id = id).length ≤ 1 := by
  have hcount := List.nodup_iff_count_le_one.mp t.ids_nodup id
  rw [List.count, List.countP_map, List.countP_eq_length_filter] at hcount
  exact hcount

/-- A row of the history, among all rows with its id. -/
theorem filter_id_of_mem {t : History} {row : UserHistoryRecord} (h : row ∈ t.rows) :
    (t.rows.filter fun row' => row'.id = row.id) = [row] := by
  have hmem : row ∈ t.rows.filter fun row' => row'.id = row.id := List.mem_filter.mpr ⟨h, by simp⟩
  have hlength := filter_id_length t row.id
  obtain ⟨row', heq⟩ := List.length_eq_one_iff.mp (le_antisymm hlength (List.length_pos_of_mem hmem))
  rw [heq] at hmem ⊢
  rw [List.mem_singleton.mp hmem]

theorem history_exactly_once {clock : ℤ} (hjson : RoundTrips marshal unmarshal)
    (hproduced : Produced store clock (steps.filterMap Step.produce?)) (hunique : UniqueIds s.producer.log)
    (hrun : runs next (init clock) steps = some s) : ExactlyOnce s := by
  obtain ⟨hproducer, hconsumer⟩ := run_halves hrun
  have hgood := (System.Good.init inv_init).run subscriber_sound hconsumer
  have hdelivers : Delivers s :=
    runs_invariant (fun h => h.next) (show Delivers (init clock) from fun _ h => (nomatch h)) hrun
  have hsaved {m : Outbox.OutboxMessage} (hm : Enqueued s.producer.log m) : Saved store m :=
    Outbox.Lifecycle.saved_of_enqueued hproduced hproducer hm
  -- Every delivery is of a message that the handler takes.
  have hmessage {T : ℕ} {eventData : Bytes} {p} (hT : s.consumer.pool[T]? = some ⟨eventData, p⟩) :
      ∃ m, Enqueued s.producer.log m ∧ marshal m.event = .ok eventData ∧
        Accepts unmarshal eventData m.event := by
    obtain ⟨m, hm, hmarshal⟩ := enqueued_of_published hproducer (hdelivers _ (List.mem_map_of_mem (List.mem_of_getElem? hT)))
    obtain ⟨hvalid, htype⟩ := validateEvent_of_saved (hsaved hm)
    exact ⟨m, hm, hmarshal, hjson _ _ htype hmarshal, hvalid⟩
  have hrecords : ∀ row ∈ s.consumer.world.committed.rows, ∃ m, Enqueued s.producer.log m ∧
      row = historyRecord m := by
    intro row hrow
    obtain ⟨r, hr, record, hcmd, rfl⟩ := hgood.inv.rows row hrow
    have hT := List.getElem?_eq_getElem (hgood.fresh hr)
    obtain ⟨newer, log, hlog⟩ := List.append_of_mem hr
    have hallowed := hgood.obeyed ⟨newer, hlog.symm⟩ hT
    rw [hcmd] at hallowed
    obtain ⟨event, haccepts, rfl⟩ := hallowed
    obtain ⟨m, hm, -, haccepts'⟩ := hmessage hT
    obtain rfl : event = m.event := Except.ok.inj (haccepts.1.symm.trans haccepts'.1)
    exact ⟨m, hm, stored_of_saved (hsaved hm)⟩
  constructor
  · exact filter_id_length _
  · exact hrecords
  · intro T eventData hfinished
    obtain ⟨m, hm, hmarshal, haccepts⟩ := hmessage hfinished
    obtain ⟨event, haccepts', hcommitted, hinserted⟩ := (hgood.finished hfinished).returned rfl
    obtain rfl : event = m.event := Except.ok.inj (haccepts'.1.symm.trans haccepts.1)
    obtain ⟨row, hrow, hid⟩ := List.mem_map.mp ((hgood.inv.committed T hcommitted).2 _ hinserted)
    obtain ⟨m', hm', rfl⟩ := hrecords row hrow
    obtain rfl : m' = m := hunique m' m hm' hm hid
    exact ⟨m', hm, hmarshal, filter_id_of_mem hrow⟩
  · intro T eventData err hfinished
    obtain ⟨m, -, -, haccepts⟩ := hmessage hfinished
    cases hpermanent : isPermanent err with
    | false => rfl
    | true =>
        cases (hgood.finished hfinished).rejected err rfl hpermanent with
        | inl hfact => exact absurd hfact (hgood.inv.calm T)
        | inr hrejected => exact absurd haccepts (hrejected m.event)

/-! ### One message -/

def signUpMessage : Outbox.Message := ⟨42, .utf8 "user.created", some [123, 125]⟩

def signUpID : UUID := "6ba7b810-9dad-41d1-80b4-00c04fd430c8"

/-- The sign-up of the user 42. -/
def enqueueSignUp : Outbox.Lifecycle.Enqueues where
  body := Outbox.newOutboxMessage signUpID topicNameAuthEvents signUpMessage
  issues := Outbox.Lifecycle.newOutboxMessage_enqueues _ _ _

def signUpRow : Outbox.OutboxMessage :=
  savedAt (newRow signUpID topicNameAuthEvents signUpMessage) 1700000000000000000

/-- The JSON text of its event. -/
def signUpJSON : Bytes :=
  ("\x7b\"id\":\"6ba7b810-9dad-41d1-80b4-00c04fd430c8\",\"created_at\":\"2023-11-14T22:13:20Z\"," ++
    "\"aggregate_id\":42,\"aggregate_type\":\"user.created\",\"payload\":\"e30=\"\x7d").toUTF8.data.toList

def marshalSignUp (event : Event) : Except GoError Bytes :=
  if event = signUpRow.event then .ok signUpJSON else .error (.leaf "json: unsupported value")

def unmarshalSignUp (eventData : Bytes) : Except GoError Event :=
  if eventData = signUpJSON then .ok signUpRow.event else .error (.leaf "unexpected end of JSON input")

/-- A column that keeps seconds. -/
def seconds (t : ℤ) : ℤ := t / 1000000000 * 1000000000

/-- The first publisher sends the event and is rolled back, and the second sends it again. The
first handler saves it and is told that its commit failed; the second finds the row. -/
def redelivered : List Step :=
  ([.spawn (.enqueue enqueueSignUp), .step 0 .run, .step 0 .run, .step 0 .run,
    .spawn (.publish 1 1 10), .step 1 .run, .step 1 (.time 1700000001000000000), .step 1 .run, .step 1 .run,
    .crash 1,
    .spawn (.publish 1 1 10), .step 2 .run, .step 2 (.time 1700000002000000000), .step 2 .run, .step 2 .run,
    .step 2 (.ctx none), .step 2 (.time 1700000003000000000), .step 2 .run, .step 2 .run].map Step.produce) ++
  [.deliver signUpJSON, .deliver signUpJSON, .handle 0 .run, .handle 1 .run, .handle 0 .run,
    .handle 0 (.lost ⟨.leaf "bad connection", rfl⟩), .handle 0 .run, .handle 1 .run, .handle 1 .run]

/-- Every insert that was committed is of that row. -/
def insertsSignUp (log : Outbox.OutboxLog) : Bool :=
  log.all fun r => r.effect.all fun write =>
    match write with
    | .insert m => decide (m = signUpRow)
    | _ => true

theorem uniqueIds_of_insertsSignUp {log : Outbox.OutboxLog} (h : insertsSignUp log = true) : UniqueIds log := by
  have heq {m : Outbox.OutboxMessage} (hm : Enqueued log m) : m = signUpRow := by
    obtain ⟨r, hr, -, hinsert⟩ := hm
    exact of_decide_eq_true (List.all_eq_true.mp (List.all_eq_true.mp h r hr) _ hinsert)
  exact fun m m' hm hm' _ => (heq hm).trans (heq hm').symm

theorem redelivered_produced : Produced seconds 1700000000000000000 (redelivered.filterMap Step.produce?) where
  calls := by
    intro call hmem
    have hcreates : (Outbox.Lifecycle.Call.enqueue enqueueSignUp).Creates :=
      @Outbox.Lifecycle.newOutboxMessage_creates signUpID topicNameAuthEvents signUpMessage (by decide) rfl
    simp [redelivered, Step.produce?] at hmem
    cases hmem with
    | inl henqueue => exact henqueue ▸ hcreates
    | inr hpublish => exact hpublish ▸ trivial
  clock := ⟨by decide, by decide⟩
  ticks := by
    intro T t hmem
    simp [redelivered, Step.produce?] at hmem
    rcases hmem with ⟨-, rfl⟩ | ⟨-, rfl⟩ | ⟨-, rfl⟩ <;> rfl

theorem redelivered_run : ∃ s : State marshalSignUp unmarshalSignUp seconds,
    runs next (init 1700000000000000000) redelivered = some s ∧ insertsSignUp s.producer.log = true ∧
      s.consumer.world.committed.rows = [historyRecord signUpRow] ∧
        (s.consumer.finished? 1).map Prod.snd = some (.returned ()) :=
  System.exists_of_any (by decide +kernel)

theorem roundTrips_signUp : RoundTrips marshalSignUp unmarshalSignUp := by
  intro event eventData _ hmarshal
  unfold marshalSignUp at hmarshal
  split at hmarshal
  case isFalse => cases hmarshal
  case isTrue heq =>
    cases hmarshal
    exact heq ▸ if_pos rfl

theorem history_exactly_once_redelivered : ∃ s : State marshalSignUp unmarshalSignUp seconds,
    runs next (init 1700000000000000000) redelivered = some s ∧
      s.consumer.world.committed.rows = [historyRecord signUpRow] ∧ ExactlyOnce s := by
  obtain ⟨s, hrun, hinserts, hrows, -⟩ := redelivered_run
  exact ⟨s, hrun, hrows, history_exactly_once roundTrips_signUp redelivered_produced
    (uniqueIds_of_insertsSignUp hinserts) hrun⟩

end Go42.Auth.EventHistory
