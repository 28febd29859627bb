-- SUMMARY: `AuthEventSubscriber`: the history of the users, the handler of an event, and the handler run for any deliveries at once.
import Go42.Database.Repository
import Go42.Events.Errors
import Go42.Lib.Txn
import Go42.Outbox.Models

/-!
# The history of the users

An event is saved under its own id, and an insert that meets a row with that id does nothing. A
statement or a commit may fail, a commit may be done and reported as failed, and a connection may
be lost. No row is ever deleted: a user is only marked as deleted, so nothing cascades to the
history. The columns `created_at` and `metadata`, which the handler leaves to the database, and
log lines and metrics are left out.
-/

namespace Go42.Auth.EventSubscriber

open Outbox (Event zeroTime)
open Events (isPermanent permanent)
open Prog (fail)

/-! ## The table -/

structure UserHistoryRecord where
  id : UUID
  occurredAt : ℤ
  userID : ℤ
  eventType : GoString
  data : Option Bytes
deriving DecidableEq

/-- The committed rows of `auth_users_history`; no two have the same `id`. -/
structure History where
  rows : List UserHistoryRecord
  ids_nodup : (rows.map UserHistoryRecord.id).Nodup

/-- The only write is an insert. -/
def History.insert (t : History) (record : UserHistoryRecord) : History :=
  if h : record.id ∈ t.rows.map UserHistoryRecord.id then t
  else ⟨record :: t.rows, List.nodup_cons.mpr ⟨h, t.ids_nodup⟩⟩

instance : Applies History UserHistoryRecord := ⟨History.insert⟩

def emptyHistory : History := ⟨[], List.nodup_nil⟩

/-- `store` is what the column `occurred_at` keeps of a time. -/
def UserHistoryRecord.stored (store : ℤ → ℤ) (record : UserHistoryRecord) : UserHistoryRecord :=
  { record with occurredAt := store record.occurredAt }

/-- An insert with `OnConflict{Columns: id, DoNothing: true}`. It locks the key of its row, so
that another insert of that key waits for the end of the transaction. -/
def insertOnConflict (store : ℤ → ℤ) (record : UserHistoryRecord) (t : History) :
    Done Unit UserHistoryRecord UUID :=
  if record.id ∈ t.rows.map UserHistoryRecord.id then ⟨(), [], []⟩
  else ⟨(), [record.stored store], [record.id]⟩

/-! ## The machine -/

inductive Cmd where
  | begin
  | commit
  | rollback
  | insert (record : UserHistoryRecord)

abbrev Res : Cmd → Type := fun _ => Unit

/-- An error of the database. Only the package `events` makes permanent errors. -/
abbrev DriverError := { err : GoError // isPermanent err = false }

inductive Choice where
  | run
  | fail (err : DriverError)
  /-- A commit that is done, and reported as failed. -/
  | lost (err : DriverError)
  | panic (v : String)

abbrev World := Store History UserHistoryRecord UUID

abbrev HistoryLog := Log Cmd Res (List UserHistoryRecord)

def execRun (store : ℤ → ℤ) (T : ℕ) (w : World) :
    Cmd → Option (Outcome Unit × List UserHistoryRecord × World)
  | .begin => some (.returned (), [], w.begin T)
  | .commit =>
    match w.tx? T with
    | some _ => some (.returned (), w.commit T)
    | none => some (.failed errTxDone, [], w)
  | .rollback =>
    match w.tx? T with
    | some _ => some (.returned (), [], w.rollback T)
    | none => some (.failed errTxDone, [], w)
  | .insert record =>
    w.statement (fun a b => decide (a = b)) T false .transaction fun _ t =>
      .ok (insertOnConflict store record t)

def exec (store : ℤ → ℤ) : Machine Cmd Res Choice (List UserHistoryRecord) World := fun _ T c ch w =>
  match ch with
  | .run => execRun store T w c
  | .fail err => some (.failed err.1, [], w)
  | .lost err =>
    match c with
    | .commit => some (.failed err.1, w.commit T)
    | _ => none
  | .panic v => some (.panicked v, [], w)

/-! ## The handler -/

abbrev HistoryProg := Prog Cmd Res

abbrev call (c : Cmd) : HistoryProg Unit := Prog.call c

/-- The transactions of the repository. -/
def db : Database.Ops Cmd Res := ⟨call .begin, call .commit, call .rollback⟩

/-- `SaveUserHistoryRecord`, on the transaction of the context. -/
def saveUserHistoryRecord (record : UserHistoryRecord) : HistoryProg Unit := call (.insert record)

/-- The record of an event. -/
def eventLog (event : Event) : UserHistoryRecord where
  id := event.id
  occurredAt := event.createdAt
  userID := event.aggregateID
  eventType := event.aggregateType
  data := event.payload

def validateEvent (event : Event) : Option GoError :=
  if event.id ≠ UUID.nil ∧ event.createdAt ≠ zeroTime ∧ 0 < event.aggregateID ∧
      event.aggregateType.len ≠ 0 then none
  else some (permanent (.wrap "invalid event: " (.leaf "event is missing required fields") ""))

/-- `handleEvent`. `unmarshal` is `json.Unmarshal` into an event. -/
def handleEvent (unmarshal : Bytes → Except GoError Event) (eventData : Bytes) : HistoryProg Unit :=
  match unmarshal eventData with
  | .error err => fail (permanent (.wrap "failed to unmarshal event: " err ""))
  | .ok event =>
    match validateEvent event with
    | some err => fail err
    | none =>
      db.withTransaction ((saveUserHistoryRecord (eventLog event)).mapErr fun err =>
        .wrap "failed to save log: " err "")

/-- Each delivery of an event is a thread. -/
def subscriber (unmarshal : Bytes → Except GoError Event) (store : ℤ → ℤ) :
    System Cmd Res Choice (List UserHistoryRecord) World Bytes ℕ Unit where
  machine := exec store
  body := handleEvent unmarshal
  env T w := some (w.rollback T)
  crash := fun T w => w.rollback T

/-! ## What a delivery knows -/

inductive Fact where
  | saved (record : UserHistoryRecord)
  | committed
  | permanent

/-- A command that failed with a permanent error is a fact too. -/
def see : Observer Cmd Res Fact := fun c o =>
  match c, o with
  | .insert record, .returned _ => some (.saved record)
  | .commit, .returned _ => some .committed
  | _, .failed err => if isPermanent err then some .permanent else none
  | _, _ => none

variable (unmarshal : Bytes → Except GoError Event) (store : ℤ → ℤ)

/-- The handler takes the delivery for this event. -/
def Accepts (eventData : Bytes) (event : Event) : Prop :=
  unmarshal eventData = .ok event ∧ validateEvent event = none

/-- A delivery commits only what it saved. -/
def Allowed (eventData : Bytes) (F : List Fact) : Cmd → Prop
  | .begin => F = []
  | .insert record => ∃ event, Accepts unmarshal eventData event ∧ record = eventLog event
  | .commit => ∃ event, Accepts unmarshal eventData event ∧ .saved (eventLog event) ∈ F
  | .rollback => True

/-- A permanent error comes from a command. -/
def Honest (F : List Fact) (o : Outcome Unit) : Prop :=
  ∀ err, o = .failed err → isPermanent err = true → .permanent ∈ F

/-- A result on the record of an event. -/
structure Concluded (event : Event) (F : List Fact) (o : Outcome Unit) : Prop where
  honest : Honest F o
  returned : o.isReturned = true → .committed ∈ F ∧ .saved (eventLog event) ∈ F

/-- A permanent error may also come from a delivery that the handler does not take. -/
structure Post (eventData : Bytes) (F : List Fact) (o : Outcome Unit) : Prop where
  returned : o.isReturned = true → ∃ event, Accepts unmarshal eventData event ∧ .committed ∈ F ∧
    .saved (eventLog event) ∈ F
  rejected : ∀ err, o = .failed err → isPermanent err = true → .permanent ∈ F ∨
    ∀ event, ¬Accepts unmarshal eventData event

variable {unmarshal store} {eventData : Bytes} {event : Event} {F F' : List Fact} {o : Outcome Unit}

theorem honest_answer (c : Cmd) (o : Outcome Unit) : Honest ((see c o).toList ++ F) o := by
  intro err ho herr
  subst ho
  have hsee : see c (.failed err) = some .permanent := by cases c <;> simp [see, herr]
  rw [hsee]
  exact List.mem_cons_self

theorem Honest.wrap {err : GoError} (h : Honest F (.failed err)) (before after : String) :
    Honest F (.failed (.wrap before err after)) := by
  intro _ heq herr
  cases heq
  exact h err rfl herr

theorem Honest.wrap2 {err err' : GoError} (h : Honest F (.failed err)) (h' : Honest F (.failed err'))
    (before between : String) : Honest F (.failed (.wrap2 before err between err')) := by
  intro _ heq herr
  cases heq
  cases Bool.or_eq_true_iff.mp herr with
  | inl hleft => exact h err rfl hleft
  | inr hright => exact h' err' rfl hright

theorem Honest.mapErr (h : Honest F o) (before after : String) :
    Honest F (o.mapErr fun err => .wrap before err after) := by
  cases o with
  | returned u => exact h
  | failed err => exact h.wrap before after
  | panicked v => exact h

theorem Honest.mono (h : Honest F o) (hF : F ⊆ F') : Honest F' o :=
  fun err ho herr => hF (h err ho herr)

theorem honest_panicked {v : String} : Honest F (.panicked v) := fun _ h => (nomatch h)

theorem Concluded.failed {err : GoError} (h : Honest F (.failed err)) :
    Concluded event F (.failed err) := ⟨h, fun h => (nomatch h)⟩

theorem Concluded.panicked {v : String} : Concluded event F (.panicked v) :=
  ⟨honest_panicked, fun h => (nomatch h)⟩

/-- A rollback and what follows it. -/
theorem rollback_spec {k : Outcome Unit → HistoryProg Unit} (hk : ∀ F' o, F ⊆ F' → Honest F' o →
    ∃ o', k o = .done o' ∧ Concluded event F' o') :
    (db.rollback.handle k).Spec see (Allowed unmarshal eventData) (Concluded event) F := by
  apply Prog.Spec.handle
  apply Prog.Spec.mapErr
  refine ⟨trivial, fun o => ?_⟩
  have hhonest := (honest_answer (F := F) .rollback o).mapErr "failed to rollback transaction: " ""
  obtain ⟨o', hdone, hconcluded⟩ := hk _ _ (List.subset_append_right _ _) hhonest
  show Prog.Spec _ _ _ (k _) _
  rw [hdone]
  exact hconcluded

theorem conclude_spec (haccepts : Accepts unmarshal eventData event) (ho : Honest F o)
    (hsaved : o.isReturned = true → .saved (eventLog event) ∈ F) :
    (db.conclude o).Spec see (Allowed unmarshal eventData) (Concluded event) F := by
  cases o with
  | panicked v => exact .panicked
  | failed err =>
      apply rollback_spec
      intro F' o' hF hrollback
      cases o' with
      | returned u => exact ⟨_, rfl, .failed (ho.mono hF)⟩
      | failed rbErr => exact ⟨_, rfl, .failed (hrollback.wrap2 (ho.mono hF) _ _)⟩
      | panicked v => exact ⟨_, rfl, .panicked⟩
  | returned u =>
      apply Prog.Spec.handle
      apply Prog.Spec.mapErr
      refine ⟨⟨event, haccepts, hsaved rfl⟩, fun o => ?_⟩
      cases o with
      | returned u =>
          refine ⟨fun _ h => (nomatch h), fun _ => ⟨List.mem_cons_self, ?_⟩⟩
          exact List.mem_cons_of_mem _ (hsaved rfl)
      | panicked v => exact .panicked
      | failed err =>
          have hcommit := (honest_answer (F := F) .commit (.failed err)).wrap "failed to commit transaction: " ""
          apply rollback_spec
          intro F' o' hF hrollback
          cases o' with
          | returned u => exact ⟨_, rfl, .failed ((hcommit.mono hF).wrap _ _)⟩
          | failed rbErr => exact ⟨_, rfl, .failed (hrollback.wrap2 (hcommit.mono hF) _ _)⟩
          | panicked v => exact ⟨_, rfl, .panicked⟩

theorem saveEvent_spec (haccepts : Accepts unmarshal eventData event) :
    (db.withTransaction ((saveUserHistoryRecord (eventLog event)).mapErr fun err =>
      .wrap "failed to save log: " err "")).Spec see (Allowed unmarshal eventData) (Concluded event) [] := by
  apply Prog.Spec.bind
  apply Prog.Spec.mapErr
  apply Prog.Spec.mapErr
  refine ⟨rfl, fun o => ?_⟩
  have hbegin := (honest_answer (F := []) .begin o).mapErr "failed to begin transaction: " ""
  cases o with
  | failed err => exact .failed (hbegin.wrap _ _)
  | panicked v => exact .panicked
  | returned u =>
      apply Prog.Spec.handle
      apply Prog.Spec.handle
      apply Prog.Spec.mapErr
      refine ⟨⟨event, haccepts, rfl⟩, fun o => ?_⟩
      have hinsert := (honest_answer (F := []) (.insert (eventLog event)) o).mapErr "failed to save log: " ""
      have hsaved : (o.mapErr fun err => GoError.wrap "failed to save log: " err "").isReturned = true →
          .saved (eventLog event) ∈ (see (.insert (eventLog event)) o).toList ++ [] := by
        intro hreturned
        cases o with
        | returned u => exact List.mem_cons_self
        | failed err => cases hreturned
        | panicked v => cases hreturned
      apply (conclude_spec haccepts hinsert hsaved).mono
      intro F' o' hconcluded
      cases o' with
      | returned u => exact hconcluded
      | failed err => exact hconcluded
      | panicked v =>
          apply rollback_spec
          intro F'' o'' _ _
          cases o'' with
          | returned u => exact ⟨_, rfl, .panicked⟩
          | failed err => exact ⟨_, rfl, .panicked⟩
          | panicked v => exact ⟨_, rfl, .panicked⟩

theorem handleEvent_spec (eventData : Bytes) : (handleEvent unmarshal eventData).Spec see
    (Allowed unmarshal eventData) (Post unmarshal eventData) [] := by
  unfold handleEvent
  split
  case h_1 herr =>
    refine ⟨fun h => (nomatch h), fun _ _ _ => .inr ?_⟩
    exact fun event haccepts => (nomatch herr.symm.trans haccepts.1)
  case h_2 event hevent =>
    split
    case h_1 hinvalid =>
      refine ⟨fun h => (nomatch h), fun _ _ _ => .inr ?_⟩
      intro event' haccepts
      obtain rfl : event = event' := Except.ok.inj (hevent.symm.trans haccepts.1)
      exact nomatch hinvalid.symm.trans haccepts.2
    case h_2 hvalid =>
      apply (saveEvent_spec ⟨hevent, hvalid⟩).mono
      intro F o hconcluded
      refine ⟨fun h => ⟨event, ⟨hevent, hvalid⟩, hconcluded.returned h⟩, ?_⟩
      exact fun err ho herr => .inl (hconcluded.honest err ho herr)

/-! ## The history in every run -/

abbrev History.ids (t : History) : List UUID := t.rows.map UserHistoryRecord.id

theorem mem_ids_insert {t : History} {record : UserHistoryRecord} {id : UUID} :
    id ∈ (t.insert record).ids ↔ id = record.id ∨ id ∈ t.ids := by
  unfold History.insert
  split
  case isTrue h =>
    constructor
    · exact .inr
    · rintro (rfl | hid)
      · exact h
      · exact hid
  case isFalse => exact List.mem_cons

theorem mem_ids_applyAll {ws : List UserHistoryRecord} {id : UUID} : ∀ {t : History},
    id ∈ (applyAll t ws).ids ↔ id ∈ t.ids ∨ id ∈ ws.map UserHistoryRecord.id := by
  induction ws with
  | nil => simp
  | cons record ws ih =>
      intro t
      rw [applyAll_cons, ih, List.map_cons, List.mem_cons]
      show id ∈ (t.insert record).ids ∨ _ ↔ _
      rw [mem_ids_insert, or_comm (a := id = record.id), or_assoc]

theorem mem_rows_insert {t : History} {record row : UserHistoryRecord} (h : row ∈ (t.insert record).rows) :
    row = record ∨ row ∈ t.rows := by
  unfold History.insert at h
  split at h
  case isTrue => exact .inr h
  case isFalse => exact List.mem_cons.mp h

theorem mem_rows_applyAll {ws : List UserHistoryRecord} {row : UserHistoryRecord} : ∀ {t : History},
    row ∈ (applyAll t ws).rows → row ∈ t.rows ∨ row ∈ ws := by
  induction ws with
  | nil => exact fun h => .inl h
  | cons record ws ih =>
      intro t h
      cases ih h with
      | inr hlater => exact .inr (List.mem_cons_of_mem _ hlater)
      | inl hfirst =>
          cases mem_rows_insert hfirst with
          | inl heq => exact .inr (heq ▸ List.mem_cons_self)
          | inr hold => exact .inl hold

/-- After the insert the key is there, whoever inserted it. -/
theorem mem_ids_insertOnConflict {t : History} {record : UserHistoryRecord} :
    record.id ∈ (applyAll t (insertOnConflict store record t).writes).ids := by
  unfold insertOnConflict
  split
  case isTrue h => exact h
  case isFalse => exact mem_ids_applyAll.mpr (.inr List.mem_cons_self)

theorem mem_insertOnConflict {t : History} {record row : UserHistoryRecord}
    (h : row ∈ (insertOnConflict store record t).writes) : row = record.stored store := by
  unfold insertOnConflict at h
  split at h
  case isTrue => cases h
  case isFalse => exact List.mem_singleton.mp h

/-! ### What a command that was executed has done -/

variable {log : HistoryLog} {T : ℕ} {c : Cmd} {ch : Choice} {e : List UserHistoryRecord} {w w' : World}

theorem exec_begin (h : exec store log T .begin ch w = some (o, e, w')) : w' = w.begin T ∨ w' = w := by
  cases ch <;> cases h
  · exact .inl rfl
  · exact .inr rfl
  · exact .inr rfl

theorem exec_rollback (h : exec store log T .rollback ch w = some (o, e, w')) :
    w' = w.rollback T ∨ w' = w := by
  cases ch with
  | run =>
      unfold exec execRun at h
      dsimp only at h
      split at h <;> cases h
      · exact .inl rfl
      · exact .inr rfl
  | fail err => cases h; exact .inr rfl
  | lost err => cases h
  | panic v => cases h; exact .inr rfl

theorem exec_commit (h : exec store log T .commit ch w = some (o, e, w')) :
    (∃ tx, w.tx? T = some tx ∧ w' = (w.commit T).2) ∨ o.isReturned = false ∧ w' = w := by
  cases htx : w.tx? T with
  | none =>
      have hcommit : w.commit T = ([], w) := by simp [Store.commit, htx]
      cases ch with
      | run =>
          simp only [exec, execRun, htx] at h
          cases h
          exact .inr ⟨rfl, rfl⟩
      | lost err =>
          simp only [exec, hcommit] at h
          cases h
          exact .inr ⟨rfl, rfl⟩
      | fail err => cases h; exact .inr ⟨rfl, rfl⟩
      | panic v => cases h; exact .inr ⟨rfl, rfl⟩
  | some tx =>
      have hcommit := Store.commit_of_tx htx
      cases ch with
      | run =>
          simp only [exec, execRun, htx, hcommit] at h
          cases h
          exact .inl ⟨tx, rfl, by rw [hcommit]⟩
      | lost err =>
          simp only [exec, hcommit] at h
          cases h
          exact .inl ⟨tx, rfl, by rw [hcommit]⟩
      | fail err => cases h; exact .inr ⟨rfl, rfl⟩
      | panic v => cases h; exact .inr ⟨rfl, rfl⟩

theorem exec_insert {record : UserHistoryRecord} (h : exec store log T (.insert record) ch w = some (o, e, w')) :
    o.isReturned = false ∧ w' = w ∨ ∃ tx ls, w.tx? T = some tx ∧ w' = (w.write T
      (insertOnConflict store record (applyAll w.committed tx.writes)).writes ls .transaction).2 := by
  cases ch with
  | run =>
      have h : w.statement (fun a b => decide (a = b)) T false .transaction (fun _ t =>
        .ok (insertOnConflict store record t)) = some (o, e, w') := h
      cases Store.statement_cases h with
      | inl hfailed =>
          obtain ⟨⟨err, rfl⟩, -, rfl⟩ := hfailed
          exact .inl ⟨rfl, rfl⟩
      | inr hdone =>
          obtain ⟨t, r, hview, hrun, -, -, hwrite⟩ := hdone
          obtain ⟨tx, htx, rfl⟩ := Store.view_eq_some hview
          cases hrun
          exact .inr ⟨tx, _, htx, congrArg Prod.snd hwrite⟩
  | fail err => cases h; exact .inl ⟨rfl, rfl⟩
  | lost err => cases h
  | panic v => cases h; exact .inl ⟨rfl, rfl⟩

/-- The database never answers with a permanent error. -/
theorem exec_calm {err : GoError} (h : exec store log T c ch w = some (.failed err, e, w')) :
    isPermanent err = false := by
  cases ch with
  | fail err' => cases h; exact err'.2
  | panic v => cases h
  | lost err' =>
      cases c with
      | commit =>
          have hanswer := (Prod.mk.inj (Option.some.inj h)).1
          cases hanswer
          exact err'.2
      | _ => cases h
  | run =>
      have htxDone : isPermanent errTxDone = false := rfl
      cases c with
      | begin => cases h
      | commit =>
          unfold exec execRun at h
          dsimp only at h
          split at h <;> cases h
          exact htxDone
      | rollback =>
          unfold exec execRun at h
          dsimp only at h
          split at h <;> cases h
          exact htxDone
      | insert record =>
          simp only [exec, execRun, Store.statement] at h
          split at h
          case h_1 => cases h; exact htxDone
          case h_2 =>
            split at h
            · cases h
            · cases h

/-! ### The invariant -/

variable (store) in
/-- A row that some delivery has inserted. -/
def Written (log : HistoryLog) (row : UserHistoryRecord) : Prop :=
  ∃ r ∈ log, ∃ record, r.cmd = .insert record ∧ row = record.stored store

variable (store) in
structure Inv (log : HistoryLog) (w : World) : Prop where
  saved : ∀ T record, .saved record ∈ log.facts see T → ∀ tx, w.tx? T = some tx →
    record.id ∈ (applyAll w.committed tx.writes).ids
  committed : ∀ T, .committed ∈ log.facts see T → w.tx? T = none ∧
    ∀ record, .saved record ∈ log.facts see T → record.id ∈ w.committed.ids
  writes : ∀ T tx, w.tx? T = some tx → ∀ row ∈ tx.writes, Written store log row
  rows : ∀ row ∈ w.committed.rows, Written store log row
  calm : ∀ T, .permanent ∉ log.facts see T

theorem Written.mono {log' : HistoryLog} {row : UserHistoryRecord} (h : Written store log row)
    (hlog : log ⊆ log') : Written store log' row := by
  obtain ⟨r, hr, hrow⟩ := h
  exact ⟨r, hlog hr, hrow⟩

/-- A command of the thread `T`: what others know still holds, and what `T` knows is shown. -/
theorem Inv.advance (h : Inv store log w) (hids : w.committed.ids ⊆ w'.committed.ids)
    (hothers : ∀ T', T' ≠ T → w'.tx? T' = w.tx? T')
    (hsaved : ∀ record, .saved record ∈ Log.facts see (⟨T, c, o, e⟩ :: log) T → ∀ tx, w'.tx? T = some tx →
      record.id ∈ (applyAll w'.committed tx.writes).ids)
    (hcommitted : .committed ∈ Log.facts see (⟨T, c, o, e⟩ :: log) T → w'.tx? T = none ∧
      ∀ record, .saved record ∈ Log.facts see (⟨T, c, o, e⟩ :: log) T → record.id ∈ w'.committed.ids)
    (hwrites : ∀ tx, w'.tx? T = some tx → ∀ row ∈ tx.writes, Written store (⟨T, c, o, e⟩ :: log) row)
    (hrows : ∀ row ∈ w'.committed.rows, Written store (⟨T, c, o, e⟩ :: log) row)
    (hcalm : ∀ err, o = .failed err → isPermanent err = false) : Inv store (⟨T, c, o, e⟩ :: log) w' := by
  constructor
  · intro T' record hrecord tx htx
    rcases eq_or_ne T' T with rfl | hne
    · exact hsaved record hrecord tx htx
    · rw [Log.facts_cons_ne hne.symm] at hrecord
      have hmem := h.saved T' record hrecord tx ((hothers T' hne).symm.trans htx)
      exact mem_ids_applyAll.mpr ((mem_ids_applyAll.mp hmem).imp_left (@hids _))
  · intro T' hfact
    rcases eq_or_ne T' T with rfl | hne
    · exact hcommitted hfact
    · rw [Log.facts_cons_ne hne.symm] at hfact
      obtain ⟨hnone, hids'⟩ := h.committed T' hfact
      refine ⟨(hothers T' hne).trans hnone, fun record hrecord => ?_⟩
      rw [Log.facts_cons_ne hne.symm] at hrecord
      exact hids (hids' record hrecord)
  · intro T' tx htx
    rcases eq_or_ne T' T with rfl | hne
    · exact hwrites tx htx
    · exact fun row hrow => (h.writes T' tx ((hothers T' hne).symm.trans htx) row hrow).mono
        (List.subset_cons_self _ _)
  · exact hrows
  · intro T' hmem
    cases Log.mem_facts_cons.mp hmem with
    | inr hold => exact h.calm T' hold
    | inl hnew =>
        have hsee := hnew.2
        cases o with
        | failed err =>
            have hfalse := hcalm err rfl
            cases c <;> simp [see, hfalse] at hsee
        | returned u => cases c <;> cases hsee
        | panicked v => cases c <;> cases hsee

theorem saved_of_see {record : UserHistoryRecord} (h : see c o = some (.saved record)) :
    c = .insert record ∧ o.isReturned = true := by
  cases o with
  | returned u => cases c <;> cases h; exact ⟨rfl, rfl⟩
  | failed err =>
      simp only [see] at h
      split at h <;> cases h
  | panicked v => cases c <;> cases h

theorem committed_of_see (h : see c o = some .committed) : c = .commit ∧ o.isReturned = true := by
  cases o with
  | returned u => cases c <;> cases h; exact ⟨rfl, rfl⟩
  | failed err =>
      simp only [see] at h
      split at h <;> cases h
  | panicked v => cases c <;> cases h

theorem saved_cons {record : UserHistoryRecord} (h : .saved record ∈ Log.facts see (⟨T, c, o, e⟩ :: log) T) :
    c = .insert record ∧ o.isReturned = true ∨ .saved record ∈ log.facts see T :=
  (Log.mem_facts_cons.mp h).imp_left fun hnew => saved_of_see hnew.2

theorem committed_cons (h : .committed ∈ Log.facts see (⟨T, c, o, e⟩ :: log) T) :
    c = .commit ∧ o.isReturned = true ∨ .committed ∈ log.facts see T :=
  (Log.mem_facts_cons.mp h).imp_left fun hnew => committed_of_see hnew.2

/-- A command that changes nothing and tells nothing. -/
theorem Inv.stay (h : Inv store log w) (hinsert : ∀ record, c = .insert record → o.isReturned = false)
    (hcommit : c = .commit → o.isReturned = false) (hcalm : ∀ err, o = .failed err → isPermanent err = false) :
    Inv store (⟨T, c, o, e⟩ :: log) w := by
  have hsaved {record : UserHistoryRecord} (hmem : .saved record ∈ Log.facts see (⟨T, c, o, e⟩ :: log) T) :
      .saved record ∈ log.facts see T := by
    apply (saved_cons hmem).resolve_left
    rintro ⟨hc, ho⟩
    exact nomatch (hinsert record hc).symm.trans ho
  apply h.advance (List.Subset.refl _) (fun _ _ => rfl) _ _ _ _ hcalm
  · exact fun record hrecord => h.saved T record (hsaved hrecord)
  · intro hfact
    cases committed_cons hfact with
    | inl hnew => exact nomatch (hcommit hnew.1).symm.trans hnew.2
    | inr hold =>
        obtain ⟨hnone, hids⟩ := h.committed T hold
        exact ⟨hnone, fun record hrecord => hids record (hsaved hrecord)⟩
  · exact fun tx htx row hrow => (h.writes T tx htx row hrow).mono (List.subset_cons_self _ _)
  · exact fun row hrow => (h.rows row hrow).mono (List.subset_cons_self _ _)

/-- A transaction begins or is rolled back. -/
theorem Inv.restart (h : Inv store log w) (hinsert : ∀ record, c ≠ .insert record) (hcommit : c ≠ .commit)
    (hcommitted : w'.committed = w.committed) (hothers : ∀ T', T' ≠ T → w'.tx? T' = w.tx? T')
    (hself : w'.tx? T = none ∨ log.facts see T = [] ∧ w'.tx? T = some ⟨w.committed, [], []⟩)
    (hcalm : ∀ err, o = .failed err → isPermanent err = false) : Inv store (⟨T, c, o, e⟩ :: log) w' := by
  have hsaved {record : UserHistoryRecord} (hmem : .saved record ∈ Log.facts see (⟨T, c, o, e⟩ :: log) T) :
      .saved record ∈ log.facts see T := (saved_cons hmem).resolve_left fun hnew => hinsert record hnew.1
  apply h.advance (hcommitted ▸ List.Subset.refl _) hothers _ _ _ _ hcalm
  · intro record hrecord tx htx
    cases hself with
    | inl hnone => cases hnone.symm.trans htx
    | inr hfresh => exact nomatch hfresh.1 ▸ hsaved hrecord
  · intro hfact
    have hold := (committed_cons hfact).resolve_left fun hnew => hcommit hnew.1
    cases hself with
    | inr hfresh => exact nomatch hfresh.1 ▸ hold
    | inl hnone =>
        refine ⟨hnone, fun record hrecord => ?_⟩
        rw [hcommitted]
        exact (h.committed T hold).2 record (hsaved hrecord)
  · intro tx htx row hrow
    cases hself with
    | inl hnone => cases hnone.symm.trans htx
    | inr hfresh =>
        cases hfresh.2.symm.trans htx
        cases hrow
  · intro row hrow
    rw [hcommitted] at hrow
    exact (h.rows row hrow).mono (List.subset_cons_self _ _)

theorem Inv.commit (h : Inv store log w) {tx : Tx History UserHistoryRecord UUID} (htx : w.tx? T = some tx)
    (hcalm : ∀ err, o = .failed err → isPermanent err = false) :
    Inv store (⟨T, .commit, o, e⟩ :: log) (w.commit T).2 := by
  have hdone : (w.commit T).2.committed = applyAll w.committed tx.writes := by
    rw [Store.commit_of_tx htx]
  apply h.advance _ (fun T' => Store.commit_tx_ne) _ _ _ _ hcalm
  · intro id hid
    rw [hdone]
    exact mem_ids_applyAll.mpr (.inl hid)
  · intro record _ tx' htx'
    cases Store.commit_tx_self.symm.trans htx'
  · refine fun _ => ⟨Store.commit_tx_self, fun record hrecord => ?_⟩
    rw [hdone]
    apply h.saved T record _ tx htx
    exact (saved_cons hrecord).resolve_left fun hnew => (nomatch hnew.1)
  · intro tx' htx'
    cases Store.commit_tx_self.symm.trans htx'
  · intro row hrow
    rw [hdone] at hrow
    apply Written.mono _ (List.subset_cons_self _ _)
    cases mem_rows_applyAll hrow with
    | inl hold => exact h.rows row hold
    | inr hnew => exact h.writes T tx htx row hnew

theorem Inv.insert (h : Inv store log w) {record : UserHistoryRecord} {ls : List UUID}
    {tx : Tx History UserHistoryRecord UUID} (htx : w.tx? T = some tx)
    (hcalm : ∀ err, o = .failed err → isPermanent err = false) :
    Inv store (⟨T, .insert record, o, e⟩ :: log) (w.write T
      (insertOnConflict store record (applyAll w.committed tx.writes)).writes ls .transaction).2 := by
  have hsame : (w.write T (insertOnConflict store record (applyAll w.committed tx.writes)).writes ls
      .transaction).2.committed = w.committed := by
    simp [Store.write, htx]
  have hself := @Store.write_tx_self _ _ _ _ w T tx
    (insertOnConflict store record (applyAll w.committed tx.writes)).writes ls htx
  apply h.advance _ (fun T' => Store.write_tx_ne) _ _ _ _ hcalm
  · rw [hsame]
    exact List.Subset.refl _
  · intro record' hrecord tx' htx'
    cases hself.symm.trans htx'
    rw [hsame, applyAll_append]
    cases saved_cons hrecord with
    | inr hold => exact mem_ids_applyAll.mpr (.inl (h.saved T record' hold tx htx))
    | inl hnew =>
        cases hnew.1
        exact mem_ids_insertOnConflict
  · intro hfact
    have hold := (committed_cons hfact).resolve_left fun hnew => by cases hnew.1
    cases (h.committed T hold).1.symm.trans htx
  · intro tx' htx' row hrow
    cases hself.symm.trans htx'
    cases List.mem_append.mp hrow with
    | inl hold => exact (h.writes T tx htx row hold).mono (List.subset_cons_self _ _)
    | inr hnew => exact ⟨_, List.mem_cons_self, record, rfl, mem_insertOnConflict hnew⟩
  · intro row hrow
    rw [hsame] at hrow
    exact (h.rows row hrow).mono (List.subset_cons_self _ _)

/-- The transaction of a thread is rolled back by the database. -/
theorem Inv.abandon (h : Inv store log w) (T : ℕ) : Inv store log (w.rollback T) := by
  have htx {T' : ℕ} {tx : Tx History UserHistoryRecord UUID} (h : (w.rollback T).tx? T' = some tx) :
      w.tx? T' = some tx := by
    rcases eq_or_ne T' T with rfl | hne
    · cases Store.rollback_tx_self.symm.trans h
    · rwa [Store.rollback_tx_ne hne] at h
  refine ⟨fun T' record hrecord tx h' => h.saved T' record hrecord tx (htx h'), fun T' hfact => ?_,
    fun T' tx h' => h.writes T' tx (htx h'), h.rows, h.calm⟩
  refine ⟨?_, (h.committed T' hfact).2⟩
  rcases eq_or_ne T' T with rfl | hne
  · exact Store.rollback_tx_self
  · exact (Store.rollback_tx_ne hne).trans (h.committed T' hfact).1

theorem Inv.step (h : Inv store log w) (hallowed : Allowed unmarshal eventData (log.facts see T) c)
    (hexec : exec store log T c ch w = some (o, e, w')) : Inv store (⟨T, c, o, e⟩ :: log) w' := by
  have hcalm : ∀ err, o = .failed err → isPermanent err = false := by
    rintro err rfl
    exact exec_calm hexec
  cases c with
  | begin =>
      cases exec_begin hexec with
      | inl hbegun =>
          subst hbegun
          apply h.restart _ _ Store.begin_committed (fun T' => Store.begin_tx_ne) _ hcalm
          · exact fun _ h => (nomatch h)
          · exact fun h => (nomatch h)
          · exact .inr ⟨hallowed, Store.begin_tx_self⟩
      | inr hfailed =>
          subst hfailed
          exact h.stay (fun _ h => (nomatch h)) (fun h => (nomatch h)) hcalm
  | rollback =>
      cases exec_rollback hexec with
      | inl hdone =>
          subst hdone
          apply h.restart _ _ Store.rollback_committed (fun T' => Store.rollback_tx_ne) _ hcalm
          · exact fun _ h => (nomatch h)
          · exact fun h => (nomatch h)
          · exact .inl Store.rollback_tx_self
      | inr hfailed =>
          subst hfailed
          exact h.stay (fun _ h => (nomatch h)) (fun h => (nomatch h)) hcalm
  | commit =>
      cases exec_commit hexec with
      | inl hdone =>
          obtain ⟨tx, htx, rfl⟩ := hdone
          exact h.commit htx hcalm
      | inr hfailed =>
          obtain ⟨ho, rfl⟩ := hfailed
          exact h.stay (fun _ h => (nomatch h)) (fun _ => ho) hcalm
  | insert record =>
      cases exec_insert hexec with
      | inl hfailed =>
          obtain ⟨ho, rfl⟩ := hfailed
          exact h.stay (fun _ _ => ho) (fun h => (nomatch h)) hcalm
      | inr hdone =>
          obtain ⟨tx, ls, htx, rfl⟩ := hdone
          exact h.insert htx hcalm

theorem inv_init : Inv store [] ⟨emptyHistory, ∅⟩ :=
  ⟨fun _ _ h => (nomatch h), fun _ h => (nomatch h), fun _ _ h => (nomatch h), fun _ h => (nomatch h),
    fun _ h => (nomatch h)⟩

theorem subscriber_sound :
    (subscriber unmarshal store).Sound see (Allowed unmarshal) (Post unmarshal) (Inv store) where
  body := handleEvent_spec
  step := fun h hallowed hexec => h.step hallowed hexec
  env := fun h hw => by cases hw; exact h.abandon _
  crash := fun h => h.abandon _

end Go42.Auth.EventSubscriber
