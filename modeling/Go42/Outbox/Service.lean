-- SUMMARY: `Service.NewOutboxMessage`, and where the rows of the outbox come from in every run.
import Go42.Outbox.Lossless

/-!
# The outbox service

What the consumers rely on is decided when a message is enqueued: the message was validated, its
row has an id of `uuid.New`, and the time of its creation is a time of the database.
-/

namespace Go42.Outbox

open Prog (fail)

/-- `NewOutboxMessage`, under the id of `uuid.New`. -/
def newOutboxMessage (id : UUID) (topic : String) (msg : Message) : OutboxProg Unit :=
  match msg.validate with
  | some err => fail err
  | none => Repository.newOutboxMessage .transaction (newRow id topic msg)

namespace Lifecycle

/-- The row of a valid message with a UTF-8 type. -/
def Built (m : OutboxMessage) : Prop :=
  ∃ id topic msg, m = newRow id topic msg ∧ id ≠ UUID.nil ∧ msg.validate = none ∧
    msg.aggregateType.validString = true

/-- A command that saves nothing but such rows. -/
def Creates : Cmd → Prop
  | .sql _ (.insertMessage m) => Built m
  | _ => True

theorem newOutboxMessage_creates {id : UUID} {topic : String} {msg : Message} (hid : id ≠ UUID.nil)
    (htype : msg.aggregateType.validString = true) : (newOutboxMessage id topic msg).Issues Creates := by
  unfold newOutboxMessage
  split
  case h_1 => trivial
  case h_2 hvalid =>
    have hcreates : Creates (.sql .transaction (.insertMessage (newRow id topic msg))) :=
      ⟨id, topic, msg, rfl, hid, hvalid, htype⟩
    exact Prog.Issues.mapErr (Prog.Issues.call hcreates)

theorem newOutboxMessage_enqueues (id : UUID) (topic : String) (msg : Message) :
    (newOutboxMessage id topic msg).Issues IsEnqueue := by
  unfold newOutboxMessage
  split
  case h_1 => trivial
  case h_2 =>
    have henqueue : IsEnqueue (.sql .transaction (.insertMessage (newRow id topic msg))) :=
      ⟨id, topic, msg, rfl⟩
    exact Prog.Issues.mapErr (Prog.Issues.call henqueue)

/-! ## Only the service saves rows -/

variable {marshal : Event → Except GoError Bytes} {p : OutboxMessagePublisher}

theorem withTransaction_creates {fn : OutboxProg Unit} (h : fn.Issues Creates) :
    (db.withTransaction fn).Issues Creates := by
  have hbegin : (call .begin : OutboxProg Unit).Issues Creates := Prog.Issues.call trivial
  have hcommit : db.commit.Issues Creates := Prog.Issues.mapErr (Prog.Issues.call trivial)
  have hrollback : db.rollback.Issues Creates := Prog.Issues.mapErr (Prog.Issues.call trivial)
  apply Prog.Issues.bind (Prog.Issues.mapErr (Prog.Issues.mapErr hbegin))
  intro _
  apply Prog.Issues.handle
  · apply h.handle
    intro o
    cases o with
    | returned a =>
        apply hcommit.handle
        intro o
        cases o with
        | returned _ => trivial
        | failed err => exact hrollback.handle fun o => by cases o <;> trivial
        | panicked v => trivial
    | failed err => exact hrollback.handle fun o => by cases o <;> trivial
    | panicked v => trivial
  · intro o
    cases o with
    | returned a => trivial
    | failed err => trivial
    | panicked v => exact hrollback.handle fun o => by cases o <;> trivial

theorem publishLoop_creates : ∀ messages processed failed : List OutboxMessage,
    (publishLoop p messages processed failed).Issues Creates
  | [], _, _ => trivial
  | message :: messages, processed, failed => by
      unfold publishLoop
      split
      case h_1 => trivial
      case h_2 jsonBytes _ =>
        have hpublish : Creates (.publish message.topic message.id jsonBytes) := trivial
        apply Prog.Issues.bind (Prog.Issues.attempt (Prog.Issues.call hpublish))
        intro published
        have hctx : Creates .ctxErr := trivial
        apply Prog.Issues.bind (Prog.Issues.call hctx)
        intro err
        cases err with
        | some err => trivial
        | none =>
            cases published with
            | ok u => exact publishLoop_creates messages _ _
            | error err =>
                dsimp only
                split
                case isTrue => trivial
                case isFalse =>
                  have hnow : Creates .now := trivial
                  apply Prog.Issues.bind (Prog.Issues.call hnow)
                  intro now
                  have hjitter : Creates (.jitter (backoff p message.countedRetry)) := trivial
                  apply Prog.Issues.bind (Prog.Issues.call hjitter)
                  intro delay
                  split
                  case isTrue => trivial
                  case isFalse => exact publishLoop_creates messages _ _

theorem saveFailedMessages_creates : ∀ messages : List OutboxMessage,
    (Repository.saveFailedMessages .transaction messages).Issues Creates
  | [] => trivial
  | message :: messages => by
      have hupdate : Creates (.sql .transaction (.updateMessage message)) := trivial
      apply Prog.Issues.bind (Prog.Issues.mapErr (Prog.Issues.call hupdate))
      intro _
      exact saveFailedMessages_creates messages

theorem saveProcessedMessages_creates (messages : List OutboxMessage) :
    (Repository.saveProcessedMessages .transaction messages).Issues Creates := by
  have hnow : Creates .now := trivial
  apply Prog.Issues.bind (Prog.Issues.call hnow)
  intro now
  have hupdate : Creates (.sql .transaction (.updateProcessed (messages.map OutboxMessage.id) now)) :=
    trivial
  apply Prog.Issues.bind (Prog.Issues.mapErr (Prog.Issues.call hupdate))
  intro _
  trivial

theorem saveMessages_creates (processed failed : List OutboxMessage) :
    (saveMessages processed failed).Issues Creates := by
  have hfailed : (do if failed ≠ [] then
      (Repository.saveFailedMessages .transaction failed).mapErr fun err =>
        .wrap "failed to save failed messages: " err "" : OutboxProg Unit).Issues Creates := by
    split
    case isTrue => exact Prog.Issues.mapErr (saveFailedMessages_creates failed)
    case isFalse => trivial
  unfold saveMessages
  dsimp only
  split
  case isFalse => exact hfailed
  case isTrue =>
    apply Prog.Issues.bind (Prog.Issues.mapErr (saveProcessedMessages_creates processed))
    exact fun _ => hfailed

theorem run_creates (batchSize : ℤ) : (run p batchSize).Issues Creates := by
  apply withTransaction_creates
  have hnow : Creates .now := trivial
  have hselect (now : ℤ) : Creates (.sql .transaction (.selectUnprocessed now batchSize)) := trivial
  have hmessages : (Repository.getUnprocessedMessages .transaction batchSize).Issues Creates := by
    apply Prog.Issues.bind (Prog.Issues.call hnow)
    intro now
    exact Prog.Issues.mapErr (Prog.Issues.call (hselect now))
  apply Prog.Issues.bind (Prog.Issues.mapErr hmessages)
  intro messages
  apply Prog.Issues.bind (publishLoop_creates messages [] [])
  intro r
  exact saveMessages_creates r.1 r.2

/-- A call whose transaction enqueues with `newOutboxMessage`. -/
def Call.Creates : Call → Prop
  | .enqueue tx => tx.body.Issues Lifecycle.Creates
  | _ => True

theorem creates_of_isCleaning {before : ℤ} {c : Cmd} (h : IsCleaning before c) : Creates c := by
  unfold IsCleaning at h
  split at h
  case h_5 => exact h.elim
  all_goals trivial

theorem body_creates {call : Call} (h : call.Creates) : (body marshal call).Issues Creates := by
  cases call with
  | enqueue tx => exact withTransaction_creates h
  | publish initial max batchSize => exact run_creates batchSize
  | clean c before =>
      have hissues : (body marshal (.clean c before)).Issues (IsCleaning before) :=
        Prog.Issues.bind cleaner_issues fun _ => trivial
      exact hissues.mono fun _ => creates_of_isCleaning

/-! ## Where a row comes from -/

variable (store : ℤ → ℤ)

/-- A time that the database may show: it is one that its time columns keep. -/
def Shown (time : ℤ) : Prop := zeroTime < time ∧ store time = time

/-- A row as it is after it was saved. -/
def Saved (m : OutboxMessage) : Prop := ∃ m₀ time, Built m₀ ∧ Shown store time ∧ m = savedAt m₀ time

/-- The calls and the clock of a run. `store` is what a time column keeps of a time. -/
structure Produced (clock : ℤ) (as : List (Action Choice Call ℕ)) : Prop where
  calls : ∀ call, .spawn call ∈ as → call.Creates
  clock : Shown store clock
  ticks : ∀ T t, .step T (.time t) ∈ as → store t = t

/-- What an open transaction inserts was saved. -/
def Pending (w : World) : Prop :=
  ∀ T tx, w.db.tx? T = some tx → ∀ m, .insert m ∈ tx.writes → Saved store m

/-- What is known of every state of such a run. -/
structure Origin (s : (outbox marshal).State) : Prop where
  clock : Shown store s.world.clock
  pool : ∀ (T : ℕ) call p, s.pool[T]? = some ⟨call, some p⟩ → p.Issues Creates
  pending : Pending store s.world
  log : ∀ r ∈ s.log, ∀ m, .insert m ∈ r.effect → Saved store m

variable {store} {log : OutboxLog} {T : ℕ} {c : Cmd} {ch : Choice} {o : Outcome (Res c)} {e : List Write}
variable {w w' : World} {m : OutboxMessage}

/-- Only `insertMessage` inserts. -/
theorem insert_of_run {q : Stmt} {now : ℤ} {held : UUID → Bool} {t : Tables}
    {r : Done q.Res Write Lock} (h : q.run now held t = .ok r) (hm : .insert m ∈ r.writes) :
    ∃ m₀, q = .insertMessage m₀ ∧ m = savedAt m₀ now := by
  cases q with
  | insertMessage m₀ =>
      unfold Stmt.run at h
      dsimp only at h
      split at h
      case isTrue => cases h
      case isFalse =>
        cases h
        cases List.mem_singleton.mp hm
        exact ⟨m₀, rfl, rfl⟩
  | selectUnprocessed time limit => cases h; exact absurd hm List.not_mem_nil
  | updateProcessed ids processedAt =>
      cases h
      obtain ⟨_, -, heq⟩ := List.mem_map.mp hm
      cases heq
  | updateMessage m' =>
      unfold Stmt.run at h
      dsimp only at h
      split at h
      case isTrue =>
        cases h
        cases List.mem_singleton.mp hm
      case isFalse => cases h; exact absurd hm List.not_mem_nil
  | selectProcessed before limit => cases h; exact absurd hm List.not_mem_nil
  | deleteProcessed ids before =>
      cases h
      obtain ⟨_, -, heq⟩ := List.mem_map.mp hm
      cases heq
  | selectOldestProcessed before =>
      unfold Stmt.run at h
      dsimp only at h
      split at h
      case h_1 => cases h
      case h_2 => cases h; exact absurd hm List.not_mem_nil

/-- Time passes only where a thread looks at the clock. -/
theorem exec_clock (h : exec log T c ch w = some (o, e, w')) :
    w'.clock = w.clock ∨ ∃ t, ch = .time t ∧ w.clock ≤ t ∧ w'.clock = t := by
  cases ch with
  | time t =>
      cases c with
      | now =>
          unfold exec at h
          dsimp only at h
          split at h
          case isTrue hle => cases h; exact .inr ⟨t, rfl, hle, rfl⟩
          case isFalse => cases h
      | _ => cases h
  | run =>
      cases c with
      | begin => cases h; exact .inl rfl
      | commit =>
          unfold exec execRun at h
          dsimp only at h
          split at h <;> cases h <;> exact .inl rfl
      | rollback =>
          unfold exec execRun at h
          dsimp only at h
          split at h <;> cases h <;> exact .inl rfl
      | sql conn q =>
          obtain ⟨r, -, hr⟩ := Option.map_eq_some_iff.mp h
          cases hr
          exact .inl rfl
      | publish topic id payload => cases h; exact .inl rfl
      | now => cases h
      | ctxErr => cases h
      | jitter delay => cases h
  | fail err =>
      obtain ⟨-, h⟩ := Option.ite_none_right_eq_some.mp h
      cases h
      exact .inl rfl
  | panic v =>
      obtain ⟨-, h⟩ := Option.ite_none_right_eq_some.mp h
      cases h
      exact .inl rfl
  | lost err =>
      cases c with
      | commit => cases h; exact .inl rfl
      | _ => cases h
  | ctx err =>
      cases c with
      | ctxErr => cases h; exact .inl rfl
      | _ => cases h
  | delay d =>
      cases c with
      | jitter delay => cases h; exact .inl rfl
      | _ => cases h

theorem Pending.rollback (h : Pending store w) (hdb : w'.db = w.db.rollback T) : Pending store w' := by
  intro T' tx htx
  rw [hdb] at htx
  rcases eq_or_ne T' T with rfl | hne
  · rw [Store.rollback_tx_self] at htx
    cases htx
  · rw [Store.rollback_tx_ne hne] at htx
    exact h T' tx htx

theorem Pending.same (h : Pending store w) (hdb : w'.db = w.db) : Pending store w' :=
  fun T tx htx => h T tx (hdb ▸ htx)

theorem Pending.statement {conn : Conn} {q : Stmt} {o : Outcome q.Res} (h : Pending store w)
    (hcreates : Creates (.sql conn q)) (hclock : Shown store w.clock)
    (hexec : exec log T (.sql conn q) ch w = some (o, e, w')) :
    Pending store w' ∧ ∀ m, .insert m ∈ e → Saved store m := by
  cases exec_sql_cases hexec with
  | inl hfailed =>
      obtain ⟨-, rfl, rfl⟩ := hfailed
      exact ⟨h, fun _ hm => absurd hm List.not_mem_nil⟩
  | inr hdone =>
      obtain ⟨t, r, hview, hrun, -, rfl, hwrite⟩ := hdone
      have hnew : ∀ m, .insert m ∈ r.writes → Saved store m := by
        intro m hm
        obtain ⟨m₀, rfl, rfl⟩ := insert_of_run hrun hm
        exact ⟨m₀, w.clock, hcreates, hclock, rfl⟩
      have he : e = (w.db.write T r.writes r.locks conn).1 := congrArg Prod.fst hwrite
      have hdb : w'.db = (w.db.write T r.writes r.locks conn).2 := congrArg Prod.snd hwrite
      cases conn with
      | primary =>
          have he : e = r.writes := he
          refine ⟨fun T' tx htx => ?_, fun m hm => hnew m (he ▸ hm)⟩
          rw [hdb, Store.write_tx_primary] at htx
          exact h T' tx htx
      | transaction =>
          obtain ⟨tx, htx, -⟩ := Store.view_eq_some hview
          have hnil : e = [] := he.trans (by simp [Store.write, htx])
          refine ⟨fun T' tx' htx' => ?_, fun m hm => absurd (hnil ▸ hm) List.not_mem_nil⟩
          rw [hdb] at htx'
          rcases eq_or_ne T' T with rfl | hne
          · rw [Store.write_tx_self htx] at htx'
            cases htx'
            intro m hm
            cases List.mem_append.mp hm with
            | inl hold => exact h T' tx htx m hold
            | inr hmem => exact hnew m hmem
          · rw [Store.write_tx_ne hne] at htx'
            exact h T' tx' htx'

/-- Whatever a command saves or commits was saved by `newOutboxMessage`. -/
theorem Pending.exec (h : Pending store w) (hcreates : Creates c) (hclock : Shown store w.clock)
    (hexec : exec log T c ch w = some (o, e, w')) :
    Pending store w' ∧ ∀ m, .insert m ∈ e → Saved store m := by
  have hnone {e : List Write} (he : e = []) : ∀ m, .insert m ∈ e → Saved store m :=
    fun m hm => absurd (he ▸ hm) List.not_mem_nil
  cases c with
  | sql conn q => exact h.statement hcreates hclock hexec
  | begin =>
      obtain ⟨he, hw⟩ := exec_begin_cases hexec
      refine ⟨?_, hnone he⟩
      cases hw with
      | inr hfailed => exact hfailed.2 ▸ h
      | inl hbegun =>
          intro T' tx htx
          rw [hbegun.2] at htx
          rcases eq_or_ne T' T with rfl | hne
          · cases Store.begin_tx_self.symm.trans htx
            exact fun _ hm => absurd hm List.not_mem_nil
          · exact h T' tx ((Store.begin_tx_ne hne).symm.trans htx)
  | commit =>
      cases exec_commit_cases hexec with
      | inr hfailed => exact ⟨h.same hfailed.2.2, hnone hfailed.2.1⟩
      | inl hdone =>
          obtain ⟨tx, htx, rfl, hdb⟩ := hdone
          refine ⟨fun T' tx' htx' => ?_, h T tx htx⟩
          rw [hdb] at htx'
          rcases eq_or_ne T' T with rfl | hne
          · rw [Store.commit_tx_self] at htx'
            cases htx'
          · rw [Store.commit_tx_ne hne] at htx'
            exact h T' tx' htx'
  | rollback =>
      obtain ⟨he, hdb⟩ := exec_rollback_cases hexec
      exact ⟨hdb.elim h.rollback h.same, hnone he⟩
  | publish topic id payload =>
      obtain ⟨he, rfl⟩ := exec_publish hexec
      exact ⟨h, hnone he⟩
  | now => exact ⟨h.same (exec_now hexec).2.2, hnone (exec_now hexec).2.1⟩
  | ctxErr =>
      obtain ⟨-, he, rfl⟩ := exec_ctxErr hexec
      exact ⟨h, hnone he⟩
  | jitter delay =>
      obtain ⟨-, he, rfl⟩ := exec_jitter hexec
      exact ⟨h, hnone he⟩

variable {s s' : (outbox marshal).State} {clock : ℤ} {as : List (Action Choice Call ℕ)}

theorem Origin.init (hclock : Shown store clock) :
    Origin store ((outbox marshal).init (plain emptyTables clock)) :=
  ⟨hclock, fun _ _ _ h => (nomatch h), fun _ _ h => (nomatch h), fun _ h => (nomatch h)⟩

/-- One action of the run. -/
theorem Origin.next (h : Origin store s) {a : Action Choice Call ℕ}
    (hcalls : ∀ call, a = .spawn call → call.Creates) (hticks : ∀ T t, a = .step T (.time t) → store t = t)
    (hnext : (outbox marshal).next s a = some s') : Origin store s' := by
  cases a with
  | spawn call =>
      cases hnext
      refine ⟨h.clock, fun T call' p hT => ?_, h.pending, h.log⟩
      rw [List.getElem?_append] at hT
      split at hT
      case isTrue => exact h.pool T call' p hT
      case isFalse =>
        have hmem := List.mem_of_getElem? hT
        cases List.mem_singleton.mp hmem
        exact body_creates (hcalls call rfl)
  | step T ch =>
      obtain ⟨call, c, k, o, e, w, hT, hexec, rfl⟩ := System.stepThread_eq_some.mp hnext
      have hexec : exec s.log T c ch s.world = some (o, e, w) := hexec
      have hissues := h.pool T call _ hT
      obtain ⟨hpending, heffect⟩ := h.pending.exec hissues.1 h.clock hexec
      refine ⟨?_, fun T' call' p hT' => ?_, hpending, ?_⟩
      · cases exec_clock hexec with
        | inl hsame => exact hsame ▸ h.clock
        | inr htick =>
            obtain ⟨t, rfl, hle, hclock⟩ := htick
            rw [hclock]
            exact ⟨lt_of_lt_of_le h.clock.1 hle, hticks T t rfl⟩
      · rcases eq_or_ne T' T with rfl | hne
        · rw [List.getElem?_set_self (List.getElem?_eq_some_iff.mp hT).1] at hT'
          cases hT'
          exact hissues.2 o
        · rw [List.getElem?_set_ne hne.symm] at hT'
          exact h.pool T' call' p hT'
      · exact List.forall_mem_cons.mpr ⟨heffect, h.log⟩
  | crash T =>
      simp only [System.next] at hnext
      split at hnext
      case h_2 => cases hnext
      case h_1 call c k hT =>
        cases hnext
        refine ⟨h.clock, fun T' call' p hT' => ?_, h.pending.rollback rfl, h.log⟩
        rcases eq_or_ne T' T with rfl | hne
        · rw [List.getElem?_set_self (List.getElem?_eq_some_iff.mp hT).1] at hT'
          cases hT'
        · rw [List.getElem?_set_ne hne.symm] at hT'
          exact h.pool T' call' p hT'
  | env T =>
      cases hnext
      exact ⟨h.clock, h.pool, h.pending.rollback rfl, h.log⟩

theorem origin_of_run (hproduced : Produced store clock as)
    (hrun : (outbox marshal).run ((outbox marshal).init (plain emptyTables clock)) as = some s) :
    Origin store s := by
  refine System.run_invariant ?_ (Origin.init hproduced.clock) hrun
  intro a ha s s' h hnext
  apply h.next _ _ hnext
  · exact fun call heq => hproduced.calls call (heq ▸ ha)
  · exact fun T t heq => hproduced.ticks T t (heq ▸ ha)

/-- Every enqueued message was built by `newOutboxMessage`. -/
theorem saved_of_enqueued (hproduced : Produced store clock as)
    (hrun : (outbox marshal).run ((outbox marshal).init (plain emptyTables clock)) as = some s)
    (hm : Enqueued s.log m) : Saved store m := by
  obtain ⟨r, hr, -, hinsert⟩ := hm
  exact (origin_of_run hproduced hrun).log r hr m hinsert

end Lifecycle
end Go42.Outbox
