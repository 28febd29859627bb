-- SUMMARY: The outbox as a whole: enqueuing transactions, publisher workers and cleaners in any order, and what becomes of a message that was enqueued.
import Go42.Outbox.Cleaner
import Go42.Outbox.Publisher
import Go42.Outbox.Rows

/-!
# The life of a message

Any number of transactions that enqueue messages, runs of publisher workers and runs of cleaners
are interleaved. Each command may fail, a commit may be done and reported as failed, a thread may
disappear at any point, and a connection may be lost; the database then rolls its transaction
back. What `Publish` has done is not rolled back.
-/

namespace Go42.Outbox.Lifecycle

open Events (isPermanent)

/-! ## The system -/

/-- A command by which `NewOutboxMessage` saves a message. -/
def IsEnqueue : Cmd → Prop
  | .sql .transaction (.insertMessage m) => ∃ id topic msg, m = newRow id topic msg
  | _ => False

/-- The part of a transaction that concerns the outbox: it saves new messages, any number of
them, and ends as it likes. -/
structure Enqueues where
  body : OutboxProg Unit
  issues : body.Issues IsEnqueue

inductive Call where
  | enqueue (tx : Enqueues)
  | publish (retryInitialBackoff retryMaxBackoff batchSize : ℤ)
  | clean (c : OutboxMessageCleaner) (before : ℤ)

variable (marshal : Event → Except GoError Bytes)

def body : Call → OutboxProg Unit
  | .enqueue tx => db.withTransaction tx.body
  | .publish initial max batchSize => run ⟨marshal, initial, max⟩ batchSize
  | .clean c before => (fun _ => ()) <$> c.run before

/-- The database ends the transaction of a thread that is gone or whose connection is lost. -/
def loseConnection (T : ℕ) (w : World) : World := { w with db := w.db.rollback T }

/-- The workers call `run` again and again: each call is a thread. -/
def outbox : System Cmd Res Choice (List Write) World Call ℕ Unit where
  machine := exec
  body := body marshal
  env T w := some (loseConnection T w)
  crash := loseConnection

def emptyTables : Tables := ⟨[], List.nodup_nil⟩

/-! ## What a thread knows -/

inductive Fact where
  | began
  | inserted (m : OutboxMessage)
  | selected (rows : List OutboxMessage)
  | published (topic : String) (id : UUID) (payload : Bytes)
  | refused (topic : String) (id : UUID) (payload : Bytes) (err : GoError)
  | committed

/-- An answer of `Publish` is a fact, and so is a statement of a transaction that has succeeded. -/
def see : Observer Cmd Res Fact := fun c o =>
  match c, o with
  | .begin, .returned _ => some .began
  | .sql .transaction (.insertMessage m), .returned _ => some (.inserted m)
  | .sql .transaction (.selectUnprocessed _ _), .returned rows => some (.selected rows)
  | .publish topic id payload, .returned _ => some (.published topic id payload)
  | .publish topic id payload, .failed err => some (.refused topic id payload err)
  | .commit, .returned _ => some .committed
  | _, _ => none

/-- The same message at two times. -/
def Same (m m' : OutboxMessage) : Prop := m.topic = m'.topic ∧ m.event = m'.event

/-- A `Publish` of the message returned nil. -/
def Sent (F : List Fact) (m : OutboxMessage) : Prop :=
  ∃ payload, marshal m.event = .ok payload ∧ .published m.topic m.id payload ∈ F

/-- A `Publish` of the message returned a permanent error. -/
def Refused (F : List Fact) (m : OutboxMessage) : Prop :=
  ∃ payload err, marshal m.event = .ok payload ∧ isPermanent err = true ∧
    .refused m.topic m.id payload err ∈ F

variable {marshal} {F F' : List Fact} {m m' m'' : OutboxMessage}

theorem same_refl (m : OutboxMessage) : Same m m := ⟨rfl, rfl⟩

theorem Same.trans (h : Same m m') (h' : Same m' m'') : Same m m'' :=
  ⟨h.1.trans h'.1, h.2.trans h'.2⟩

theorem Same.symm (h : Same m m') : Same m' m := ⟨h.1.symm, h.2.symm⟩

theorem Same.id (h : Same m m') : m.id = m'.id := congrArg Event.id h.2

theorem same_markProcessed (m : OutboxMessage) (processedAt : ℤ) :
    Same m (m.markProcessed processedAt) := ⟨rfl, rfl⟩

theorem same_afterFailure (m : OutboxMessage) (err : GoError) (time : ℤ) :
    Same m (m.afterFailure err time) := ⟨rfl, rfl⟩

theorem Sent.mono (h : Sent marshal F m) (hF : F ⊆ F') : Sent marshal F' m := by
  obtain ⟨payload, hjson, hmem⟩ := h
  exact ⟨payload, hjson, hF hmem⟩

theorem Refused.mono (h : Refused marshal F m) (hF : F ⊆ F') : Refused marshal F' m := by
  obtain ⟨payload, err, hjson, hpermanent, hmem⟩ := h
  exact ⟨payload, err, hjson, hpermanent, hF hmem⟩

theorem Sent.same (h : Sent marshal F m) (hm : Same m m') : Sent marshal F m' := by
  obtain ⟨payload, hjson, hmem⟩ := h
  exact ⟨payload, hm.2 ▸ hjson, hm.1 ▸ hm.id ▸ hmem⟩

theorem Refused.same (h : Refused marshal F m) (hm : Same m m') : Refused marshal F m' := by
  obtain ⟨payload, err, hjson, hpermanent, hmem⟩ := h
  exact ⟨payload, err, hm.2 ▸ hjson, hpermanent, hm.1 ▸ hm.id ▸ hmem⟩

/-! ## What a thread may do -/

/-- A selected message that the thread has published. -/
def Delivered (marshal : Event → Except GoError Bytes) (F : List Fact) (m : OutboxMessage) : Prop :=
  (∃ rows, .selected rows ∈ F ∧ m ∈ rows) ∧ Sent marshal F m

/-- The row of a selected message that is still pending, or that is given up. -/
def Retried (marshal : Event → Except GoError Bytes) (F : List Fact) (m' : OutboxMessage) : Prop :=
  ∃ rows, .selected rows ∈ F ∧ ∃ m ∈ rows, Same m m' ∧
    (m'.status = m.status ∨ m'.status = .failed ∧ Refused marshal F m')

variable (marshal) in
/-- The commands of a call after what it has seen. -/
def Allowed (call : Call) (F : List Fact) : Cmd → Prop
  | .begin => F = []
  | .commit | .rollback | .now | .ctxErr | .jitter _ => True
  | .sql .transaction (.insertMessage m) => m.status = .pending
  | .sql .transaction (.selectUnprocessed _ _) => F = [.began]
  | .publish topic id payload => ∃ rows, .selected rows ∈ F ∧ ∃ m ∈ rows, m.topic = topic ∧
      m.id = id ∧ marshal m.event = .ok payload
  | .sql .transaction (.updateProcessed ids _) => ∀ id ∈ ids, ∃ m, m.id = id ∧ Delivered marshal F m
  | .sql .transaction (.updateMessage m) => Retried marshal F m
  | .sql .primary (.selectProcessed _ _) | .sql .primary (.selectOldestProcessed _) => True
  | .sql .primary (.deleteProcessed _ before) => F = [] ∧ ∃ c, call = .clean c before
  | .sql _ _ => False

/-- A call that enqueues returns only if its commit did. -/
def Post (call : Call) (F : List Fact) (o : Outcome Unit) : Prop :=
  ∀ tx, call = .enqueue tx → o.isReturned = true → .committed ∈ F

variable {call : Call}

/-- A selection and what became of its messages. -/
structure Progress (marshal : Event → Except GoError Bytes) (messages processed failed : List OutboxMessage)
    (F : List Fact) : Prop where
  left : ∃ rows, .selected rows ∈ F ∧ ∀ m ∈ messages, m ∈ rows
  processed : ∀ m ∈ processed, Delivered marshal F m
  failed : ∀ m ∈ failed, Retried marshal F m

theorem Delivered.mono (h : Delivered marshal F m) (hF : F ⊆ F') : Delivered marshal F' m := by
  obtain ⟨⟨rows, hrows, hm⟩, hsent⟩ := h
  exact ⟨⟨rows, hF hrows, hm⟩, hsent.mono hF⟩

theorem Retried.mono (h : Retried marshal F m) (hF : F ⊆ F') : Retried marshal F' m := by
  obtain ⟨rows, hrows, m₀, hm₀, hsame, hstatus⟩ := h
  exact ⟨rows, hF hrows, m₀, hm₀, hsame, hstatus.imp_right fun h => ⟨h.1, h.2.mono hF⟩⟩

variable {messages processed failed : List OutboxMessage}

theorem Progress.mono (h : Progress marshal messages processed failed F) (hF : F ⊆ F') :
    Progress marshal messages processed failed F' where
  left := h.left.imp fun _ hrows => ⟨hF hrows.1, hrows.2⟩
  processed := fun m hm => (h.processed m hm).mono hF
  failed := fun m hm => (h.failed m hm).mono hF

theorem Progress.tail (h : Progress marshal (m :: messages) processed failed F) :
    Progress marshal messages processed failed F :=
  ⟨h.left.imp fun _ hrows => ⟨hrows.1, fun m hm => hrows.2 m (List.mem_cons_of_mem _ hm)⟩,
    h.processed, h.failed⟩

/-- The next message was published. -/
theorem Progress.publish (h : Progress marshal (m :: messages) processed failed F)
    (hsent : Sent marshal F m) : Progress marshal messages (processed ++ [m]) failed F := by
  refine ⟨h.tail.left, ?_, h.failed⟩
  intro m' hm'
  cases List.mem_append.mp hm' with
  | inl hold => exact h.processed m' hold
  | inr hnew =>
      rw [List.mem_singleton.mp hnew]
      exact ⟨h.left.imp fun _ hrows => ⟨hrows.1, hrows.2 m List.mem_cons_self⟩, hsent⟩

/-- The next message was not published. -/
theorem Progress.fail {err : GoError} {payload : Bytes} (h : Progress marshal (m :: messages) processed failed F)
    (hjson : marshal m.event = .ok payload) (herr : .refused m.topic m.id payload err ∈ F) (time : ℤ) :
    Progress marshal messages processed (failed ++ [m.afterFailure err time]) F := by
  refine ⟨h.tail.left, h.processed, ?_⟩
  intro m' hm'
  cases List.mem_append.mp hm' with
  | inl hold => exact h.failed m' hold
  | inr hnew =>
      rw [List.mem_singleton.mp hnew]
      obtain ⟨rows, hrows, hleft⟩ := h.left
      refine ⟨rows, hrows, m, hleft m List.mem_cons_self, same_afterFailure m err time, ?_⟩
      cases hpermanent : isPermanent err with
      | false => exact .inl (by simp [OutboxMessage.afterFailure, hpermanent])
      | true =>
          refine .inr ⟨by simp [OutboxMessage.afterFailure, hpermanent], ?_⟩
          exact ⟨payload, err, hjson, hpermanent, herr⟩

theorem Progress.stop (h : Progress marshal messages processed failed F) :
    Progress marshal [] processed failed F :=
  ⟨h.left.imp fun _ hrows => ⟨hrows.1, fun _ hm => absurd hm List.not_mem_nil⟩, h.processed, h.failed⟩

/-! ### The publisher -/

variable {p : OutboxMessagePublisher}

theorem publishLoop_spec : ∀ {messages processed failed : List OutboxMessage} {F : List Fact},
    Progress p.marshal messages processed failed F →
      (publishLoop p messages processed failed).Spec see (Allowed p.marshal call)
        (fun F' o => ∀ r, o = .returned r → Progress p.marshal [] r.1 r.2 F') F
  | [], processed, failed, F, h => fun r hr => by cases hr; exact h
  | message :: messages, processed, failed, F, h => by
      unfold publishLoop
      cases hjson : p.marshal message.event with
      | error err => exact fun r hr => by cases hr
      | ok payload =>
          obtain ⟨rows, hrows, hleft⟩ := h.left
          have hallowed : Allowed p.marshal call F (.publish message.topic message.id payload) :=
            ⟨rows, hrows, message, hleft message List.mem_cons_self, rfl, rfl, hjson⟩
          refine ⟨hallowed, fun result => ?_⟩
          cases result with
          | panicked v => exact fun r hr => by cases hr
          | returned u =>
              have hsent : Sent p.marshal (.published message.topic message.id payload :: F) message :=
                ⟨payload, hjson, List.mem_cons_self⟩
              have hnext := (h.mono (List.subset_cons_self _ F)).publish hsent
              refine ⟨trivial, fun ctx => ?_⟩
              cases ctx with
              | returned c =>
                  cases c with
                  | none => exact publishLoop_spec hnext
                  | some err => exact fun r hr => by cases hr
              | failed err => exact fun r hr => by cases hr
              | panicked v => exact fun r hr => by cases hr
          | failed err =>
              have hrefused : .refused message.topic message.id payload err ∈
                  Fact.refused message.topic message.id payload err :: F := List.mem_cons_self
              have hprogress := h.mono (List.subset_cons_self (.refused message.topic message.id payload err) F)
              refine ⟨trivial, fun ctx => ?_⟩
              cases ctx with
              | failed err => exact fun r hr => by cases hr
              | panicked v => exact fun r hr => by cases hr
              | returned c =>
                  cases c with
                  | some err => exact fun r hr => by cases hr
                  | none =>
                      dsimp only [Prog.handle_done, Prog.leave_returned]
                      split
                      case isTrue => exact fun r hr => by cases hr; exact hprogress.stop
                      case isFalse =>
                        refine ⟨trivial, fun now => ?_⟩
                        cases now with
                        | failed err => exact fun r hr => by cases hr
                        | panicked v => exact fun r hr => by cases hr
                        | returned now =>
                            refine ⟨trivial, fun delay => ?_⟩
                            cases delay with
                            | failed err => exact fun r hr => by cases hr
                            | panicked v => exact fun r hr => by cases hr
                            | returned delay =>
                                have hnext := hprogress.fail hjson hrefused (now + delay)
                                dsimp only [Prog.handle_done, Prog.leave_returned]
                                split
                                case isTrue => exact fun r hr => by cases hr; exact hnext.stop
                                case isFalse => exact publishLoop_spec hnext

/-- The messages that were published are saved first. -/
theorem saveProcessedMessages_spec {Q : List Fact → Outcome Unit → Prop}
    (h : ∀ m ∈ processed, Delivered marshal F m) (hQ : ∀ o, Q F o) :
    (Repository.saveProcessedMessages .transaction processed).Spec see (Allowed marshal call) Q F := by
  refine ⟨trivial, fun now => ?_⟩
  cases now with
  | failed err => exact hQ _
  | panicked v => exact hQ _
  | returned now =>
      have hallowed : Allowed marshal call F
          (.sql .transaction (.updateProcessed (processed.map OutboxMessage.id) now)) := by
        intro id hid
        obtain ⟨m, hm, rfl⟩ := List.mem_map.mp hid
        exact ⟨m, rfl, h m hm⟩
      refine ⟨hallowed, fun o => ?_⟩
      cases o with
      | returned n => exact hQ _
      | failed err => exact hQ _
      | panicked v => exact hQ _

theorem saveFailedMessages_spec {Q : List Fact → Outcome Unit → Prop} (hQ : ∀ o, Q F o) :
    ∀ {failed : List OutboxMessage}, (∀ m ∈ failed, Retried marshal F m) →
      (Repository.saveFailedMessages .transaction failed).Spec see (Allowed marshal call) Q F
  | [], _ => hQ _
  | message :: messages, h => by
      obtain ⟨hm, hms⟩ := List.forall_mem_cons.mp h
      refine ⟨hm, fun o => ?_⟩
      cases o with
      | returned n => exact saveFailedMessages_spec hQ hms
      | failed err => exact hQ _
      | panicked v => exact hQ _

theorem saveMessages_spec (h : Progress marshal [] processed failed F) :
    (saveMessages processed failed).Spec see (Allowed marshal call) (fun _ _ => True) F := by
  have hfailed : (do if failed ≠ [] then
      (Repository.saveFailedMessages .transaction failed).mapErr fun err =>
        .wrap "failed to save failed messages: " err "" : OutboxProg Unit).Spec see (Allowed marshal call)
          (fun _ _ => True) F := by
    split
    case isTrue => exact Prog.Spec.mapErr (saveFailedMessages_spec (fun _ => trivial) h.failed)
    case isFalse => trivial
  unfold saveMessages
  dsimp only
  split
  case isFalse => exact hfailed
  case isTrue =>
    apply Prog.Spec.bind
    apply Prog.Spec.mapErr
    apply saveProcessedMessages_spec h.processed
    intro o
    cases o with
    | returned u => exact hfailed
    | failed err => trivial
    | panicked v => trivial

theorem runBatch_spec (batchSize : ℤ) : (runBatch p batchSize).Spec see (Allowed p.marshal call)
    (fun _ _ => True) [.began] := by
  apply Prog.Spec.bind
  apply Prog.Spec.mapErr
  refine ⟨trivial, fun now => ?_⟩
  cases now with
  | failed err => trivial
  | panicked v => trivial
  | returned now =>
      refine ⟨rfl, fun o => ?_⟩
      cases o with
      | failed err => trivial
      | panicked v => trivial
      | returned rows =>
          have hstart : Progress p.marshal rows [] [] [.selected rows, .began] :=
            ⟨⟨rows, List.mem_cons_self, fun _ hm => hm⟩, fun _ hm => absurd hm List.not_mem_nil,
              fun _ hm => absurd hm List.not_mem_nil⟩
          apply Prog.Spec.bind
          refine (publishLoop_spec hstart).mono fun F' o ho => ?_
          cases o with
          | returned r => exact saveMessages_spec (ho r rfl)
          | failed err => trivial
          | panicked v => trivial

/-! ### Transactions -/

/-- The end of a transaction is always allowed. -/
theorem rollback_spec {Q : List Fact → Outcome Unit → Prop} (hQ : ∀ o, Q F o) :
    db.rollback.Spec see (Allowed marshal call) Q F := by
  refine ⟨trivial, fun o => ?_⟩
  cases o with
  | returned u => exact hQ _
  | failed err => exact hQ _
  | panicked v => exact hQ _

theorem conclude_spec (o : Outcome Unit) : (db.conclude o).Spec see (Allowed marshal call)
    (fun F' o' => o'.isReturned = true → .committed ∈ F') F := by
  have hfail {k : Outcome Unit → OutboxProg Unit} (hk : ∀ r, ∃ o', k r = .done o' ∧ o'.isReturned = false) :
      (db.rollback.handle k).Spec see (Allowed marshal call)
        (fun F' o' => o'.isReturned = true → .committed ∈ F') F := by
    apply Prog.Spec.handle
    apply rollback_spec
    intro r
    obtain ⟨o', hdone, ho'⟩ := hk r
    rw [hdone]
    exact fun h => absurd h (by simp [ho'])
  cases o with
  | panicked v => exact fun h => absurd h (by simp)
  | failed err =>
      apply hfail
      intro r
      cases r with
      | returned u => exact ⟨_, rfl, rfl⟩
      | failed err' => exact ⟨_, rfl, rfl⟩
      | panicked v => exact ⟨_, rfl, rfl⟩
  | returned u =>
      refine ⟨trivial, fun o => ?_⟩
      cases o with
      | returned u => exact fun _ => List.mem_cons_self
      | panicked v => exact fun h => absurd h (by simp)
      | failed err =>
          apply hfail
          intro r
          cases r with
          | returned u => exact ⟨_, rfl, rfl⟩
          | failed err' => exact ⟨_, rfl, rfl⟩
          | panicked v => exact ⟨_, rfl, rfl⟩

theorem withTransaction_spec {fn : OutboxProg Unit}
    (h : fn.Spec see (Allowed marshal call) (fun _ _ => True) [.began]) :
    (db.withTransaction fn).Spec see (Allowed marshal call)
      (fun F o => o.isReturned = true → .committed ∈ F) [] := by
  apply Prog.Spec.bind
  apply Prog.Spec.mapErr
  apply Prog.Spec.mapErr
  refine ⟨rfl, fun o => ?_⟩
  cases o with
  | failed err => exact fun h => absurd h (by simp)
  | panicked v => exact fun h => absurd h (by simp)
  | returned u =>
      apply Prog.Spec.handle
      apply Prog.Spec.handle
      refine h.mono fun F o _ => ?_
      refine (conclude_spec o).mono fun F o ho => ?_
      cases o with
      | returned u => exact ho
      | failed err => exact fun h => absurd h (by simp)
      | panicked v =>
          apply Prog.Spec.handle
          apply rollback_spec
          intro r
          cases r with
          | returned u => exact fun h => absurd h (by simp)
          | failed err => exact fun h => absurd h (by simp)
          | panicked v => exact fun h => absurd h (by simp)

/-! ### The cleaner -/

/-- A command of a cleaner with the given cutoff. -/
def IsCleaning (before : ℤ) : Cmd → Prop
  | .ctxErr => True
  | .sql .primary (.selectProcessed _ _) => True
  | .sql .primary (.deleteProcessed _ time) => time = before
  | .sql .primary (.selectOldestProcessed _) => True
  | _ => False

section Cleaner

variable {c : OutboxMessageCleaner} {before : ℤ}

theorem deleteProcessedMessages_issues (limit : ℤ) :
    (Repository.deleteProcessedMessages .primary before limit).Issues (IsCleaning before) := by
  unfold Repository.deleteProcessedMessages
  split
  case isTrue => trivial
  case isFalse =>
    have hselect : IsCleaning before (.sql .primary (.selectProcessed before limit)) := trivial
    apply Prog.Issues.bind (Prog.Issues.mapErr (Prog.Issues.call hselect))
    intro ids
    split
    case isTrue => trivial
    case isFalse =>
      have hdelete : IsCleaning before (.sql .primary (.deleteProcessed ids before)) := rfl
      exact Prog.Issues.mapErr (Prog.Issues.call hdelete)

theorem batchLoop_issues (n : ℕ) :
    (OutboxMessageCleaner.batchLoop c before n).Issues (IsCleaning before) := by
  induction n with
  | zero => trivial
  | succ n ih =>
      have hctx : IsCleaning before .ctxErr := trivial
      apply Prog.Issues.bind (Prog.Issues.call hctx)
      intro err
      cases err with
      | some err => trivial
      | none =>
          apply Prog.Issues.bind (Prog.Issues.mapErr (deleteProcessedMessages_issues c.batchSize))
          intro deleted
          split
          case isTrue => trivial
          case isFalse => exact ih

theorem measureLag_issues : (OutboxMessageCleaner.measureLag before).Issues (IsCleaning before) := by
  have hctx : IsCleaning before .ctxErr := trivial
  have hselect : IsCleaning before (.sql .primary (.selectOldestProcessed before)) := trivial
  have holdest : (Repository.getOldestProcessedMessageTime .primary before).Issues (IsCleaning before) := by
    apply Prog.Issues.bind (Prog.Issues.attempt (Prog.Issues.call hselect))
    intro r
    cases r with
    | ok m => trivial
    | error err =>
        dsimp only
        split
        case isTrue => trivial
        case isFalse => trivial
  apply Prog.Issues.bind (Prog.Issues.call hctx)
  intro err
  cases err with
  | some err => trivial
  | none =>
      apply Prog.Issues.bind (Prog.Issues.mapErr holdest)
      intro oldest
      cases oldest with
      | none => trivial
      | some oldest => trivial

theorem cleaner_issues : (OutboxMessageCleaner.run c before).Issues (IsCleaning before) := by
  apply Prog.Issues.bind (batchLoop_issues c.maxBatches.toNat)
  intro finished
  cases finished with
  | false => trivial
  | true => exact measureLag_issues

theorem allowed_of_isCleaning {cmd : Cmd} (h : IsCleaning before cmd) :
    Allowed marshal (.clean c before) [] cmd := by
  unfold IsCleaning at h
  split at h
  case h_1 => exact trivial
  case h_2 => exact trivial
  case h_3 => exact ⟨rfl, c, by rw [h]⟩
  case h_4 => exact trivial
  case h_5 => exact h.elim

/-- A cleaner does nothing that counts as a fact. -/
theorem see_of_isCleaning {cmd : Cmd} (h : IsCleaning before cmd) (o : Outcome (Res cmd)) :
    see cmd o = none := by
  unfold IsCleaning at h
  split at h
  case h_1 => rfl
  case h_2 => rfl
  case h_3 => rfl
  case h_4 => rfl
  case h_5 => exact h.elim

end Cleaner

/-! ### Every call -/

theorem allowed_of_isEnqueue {c : Cmd} (h : IsEnqueue c) (F : List Fact) : Allowed marshal call F c := by
  unfold IsEnqueue at h
  split at h
  case h_1 m =>
    obtain ⟨id, topic, msg, rfl⟩ := h
    exact rfl
  case h_2 => exact h.elim

theorem body_spec (call : Call) : (body marshal call).Spec see (Allowed marshal call) (Post call) [] := by
  cases call with
  | enqueue tx =>
      have hbody : tx.body.Spec see (Allowed marshal (.enqueue tx)) (fun _ _ => True) [.began] :=
        tx.issues.specAny fun F c hc => allowed_of_isEnqueue hc F
      exact (withTransaction_spec hbody).mono fun F o ho _ _ => ho
  | publish initial max batchSize =>
      have hrun := withTransaction_spec (@runBatch_spec (.publish initial max batchSize)
        ⟨marshal, initial, max⟩ batchSize)
      exact hrun.mono fun F o _ tx htx => (nomatch htx)
  | clean c before =>
      have hissues : (body marshal (.clean c before)).Issues (IsCleaning before) :=
        Prog.Issues.bind cleaner_issues fun _ => trivial
      exact hissues.spec (fun _ h => allowed_of_isCleaning h) (fun _ h o => see_of_isCleaning h o)
        fun _ tx htx => (nomatch htx)

end Go42.Outbox.Lifecycle
