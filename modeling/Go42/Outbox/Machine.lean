-- SUMMARY: The table `transactional_outbox`, the statements on it, and the machine that executes the workers of the outbox.
import Go42.Events.Errors
import Go42.Lib.System
import Go42.Lib.Txn
import Go42.Outbox.Models
import Mathlib.Data.List.Sort

/-!
# The outbox and its workers

The table has a primary key, which every write keeps. A statement that selects rows for an
update skips those that other transactions have locked.
-/

namespace Go42.Outbox

/-! ## The table -/

/-- The committed rows, in any order; no two have the same `id`. -/
structure Tables where
  rows : List OutboxMessage
  ids_nodup : (rows.map OutboxMessage.id).Nodup

/-- A change of one row. -/
inductive Write where
  | insert (m : OutboxMessage)
  | set (m : OutboxMessage)
  | delete (id : UUID)
deriving DecidableEq

/-- Put `m` in the place of the row with its `id`. -/
def OutboxMessage.replace (m x : OutboxMessage) : OutboxMessage := if x.id = m.id then m else x

@[simp] theorem OutboxMessage.replace_id (m x : OutboxMessage) : (m.replace x).id = x.id := by
  unfold replace
  split
  case isTrue h => exact h.symm
  case isFalse => rfl

theorem map_replace_id (m : OutboxMessage) (rows : List OutboxMessage) :
    (rows.map m.replace).map OutboxMessage.id = rows.map OutboxMessage.id := by
  simp [Function.comp_def]

def Tables.applyWrite (t : Tables) : Write → Tables
  | .insert m =>
    if h : m.id ∈ t.rows.map OutboxMessage.id then t
    else ⟨m :: t.rows, List.nodup_cons.mpr ⟨h, t.ids_nodup⟩⟩
  | .set m => ⟨t.rows.map m.replace, by rw [map_replace_id]; exact t.ids_nodup⟩
  | .delete id => ⟨t.rows.filter (·.id ≠ id), t.ids_nodup.sublist (List.filter_sublist.map _)⟩

instance : Applies Tables Write := ⟨Tables.applyWrite⟩

/-- A row lock. -/
abbrev Lock := UUID

/-- The earlier row first; rows of one time are in the order of their ids. -/
def OutboxMessage.before (time : OutboxMessage → ℤ) (a b : OutboxMessage) : Bool :=
  time a < time b || (time a = time b && a.id ≤ b.id)

/-- `Limit(limit)`; a negative limit is none. -/
def limited (limit : ℤ) (rows : List OutboxMessage) : List OutboxMessage :=
  if limit < 0 then rows else rows.take limit.toNat

/-- Pending, and its next attempt is not in the future. -/
def OutboxMessage.isDue (now : ℤ) (m : OutboxMessage) : Bool :=
  m.status = .pending && m.nextAttemptAt.all (· ≤ now)

/-- Processed before the given time. -/
def OutboxMessage.processedBefore (time : ℤ) (m : OutboxMessage) : Bool :=
  m.status = .processed && m.processedAt.any (· < time)

def OutboxMessage.processedTime (m : OutboxMessage) : ℤ := m.processedAt.getD 0

/-- The due rows that nobody else has locked, oldest first. -/
def Tables.unprocessed (t : Tables) (now limit : ℤ) (held : UUID → Bool) : List OutboxMessage :=
  limited limit ((t.rows.filter fun m => m.isDue now && !held m.id).insertionSort
    fun a b => OutboxMessage.before (·.createdAt) a b)

/-- The rows processed before the given time, oldest first. -/
def Tables.processed (t : Tables) (time : ℤ) : List OutboxMessage :=
  (t.rows.filter (·.processedBefore time)).insertionSort
    fun a b => OutboxMessage.before (·.processedTime) a b

/-! ## Statements -/

inductive Stmt where
  | insertMessage (m : OutboxMessage)
  | selectUnprocessed (now limit : ℤ)
  | updateProcessed (ids : List UUID) (processedAt : ℤ)
  | updateMessage (m : OutboxMessage)
  | selectProcessed (before limit : ℤ)
  | deleteProcessed (ids : List UUID) (before : ℤ)
  | selectOldestProcessed (before : ℤ)

/-- An update or a delete answers with the number of rows. -/
abbrev Stmt.Res : Stmt → Type
  | insertMessage _ => Unit
  | selectUnprocessed _ _ => List OutboxMessage
  | updateProcessed _ _ => ℕ
  | updateMessage _ => ℕ
  | selectProcessed _ _ => List UUID
  | deleteProcessed _ _ => ℕ
  | selectOldestProcessed _ => OutboxMessage

def errDuplicatedKey : GoError := .leaf "duplicated key not allowed"

/-- `gorm.ErrRecordNotFound`. -/
def errRecordNotFound : GoError := .leaf "record not found"

/-- The columns that a processed message sets. -/
def OutboxMessage.markProcessed (m : OutboxMessage) (processedAt : ℤ) : OutboxMessage :=
  { m with status := .processed, processedAt := some processedAt, nextAttemptAt := none }

/-- One statement on the data `t` at time `now`, with the rows that others hold. -/
def Stmt.run (now : ℤ) (held : UUID → Bool) (t : Tables) :
    (q : Stmt) → Except GoError (Done q.Res Write Lock)
  | .insertMessage m =>
    if m.id ∈ t.rows.map OutboxMessage.id then .error errDuplicatedKey
    else .ok ⟨(), [.insert { m with createdAt := now }], [m.id]⟩
  | .selectUnprocessed time limit =>
    let rows := t.unprocessed time limit held
    .ok ⟨rows, [], rows.map OutboxMessage.id⟩
  | .updateProcessed ids processedAt =>
    let rows := t.rows.filter fun m => ids.contains m.id
    .ok ⟨rows.length, rows.map fun m => .set (m.markProcessed processedAt),
      rows.map OutboxMessage.id⟩
  | .updateMessage m =>
    if m.id ∈ t.rows.map OutboxMessage.id then .ok ⟨1, [.set m], [m.id]⟩ else .ok ⟨0, [], []⟩
  | .selectProcessed before limit =>
    .ok ⟨(limited limit (t.processed before)).map OutboxMessage.id, [], []⟩
  | .deleteProcessed ids before =>
    let rows := t.rows.filter fun m => ids.contains m.id && m.processedBefore before
    .ok ⟨rows.length, rows.map fun m => .delete m.id, rows.map OutboxMessage.id⟩
  | .selectOldestProcessed before =>
    match t.processed before with
    | [] => .error errRecordNotFound
    | m :: _ => .ok ⟨m, [], []⟩

/-! ## The machine -/

inductive Cmd where
  | begin
  | commit
  | rollback
  | sql (c : Conn) (q : Stmt)
  | now
  | publish (topic : String) (id : UUID) (payload : Bytes)
  | ctxErr
  | jitter (delay : ℤ)

abbrev Res : Cmd → Type
  | .begin | .commit | .rollback => Unit
  | .sql _ q => q.Res
  | .now => ℤ
  | .publish _ _ _ => Unit
  | .ctxErr => Option Events.CtxErr
  | .jitter _ => ℤ

/-- What is decided elsewhere. -/
inductive Choice where
  | run
  | fail (err : GoError)
  /-- A commit that is done, and reported as failed. -/
  | lost (err : GoError)
  | time (t : ℤ)
  | ctx (err : Option Events.CtxErr)
  | delay (d : ℤ)
  | panic (v : String)

structure World where
  db : Store Tables Write Lock
  clock : ℤ

abbrev OutboxLog := Log Cmd Res (List Write)

def Cmd.canFail : Cmd → Bool
  | .begin | .commit | .rollback | .sql _ _ | .publish _ _ _ => true
  | .now | .ctxErr | .jitter _ => false

/-- A command that goes ahead. -/
def execRun (T : ℕ) (w : World) : (c : Cmd) → Option (Outcome (Res c) × List Write × World)
  | .begin => some (.returned (), [], { w with db := w.db.begin T })
  | .commit =>
    match w.db.tx? T with
    | some _ => some (.returned (), (w.db.commit T).1, { w with db := (w.db.commit T).2 })
    | none => some (.failed errTxDone, [], w)
  | .rollback =>
    match w.db.tx? T with
    | some _ => some (.returned (), [], { w with db := w.db.rollback T })
    | none => some (.failed errTxDone, [], w)
  | .sql c q =>
    (w.db.statement (fun a b => decide (a = b)) T false c fun held t => q.run w.clock held t).map
      fun r => (r.1, r.2.1, { w with db := r.2.2 })
  | .publish _ _ _ => some (.returned (), [], w)
  | .now | .ctxErr | .jitter _ => none

def exec : Machine Cmd Res Choice (List Write) World := fun _ T c ch w =>
  match ch with
  | .run => execRun T w c
  | .panic v => if c.canFail then some (.panicked v, [], w) else none
  | .fail err => if c.canFail then some (.failed err, [], w) else none
  | .lost err =>
    match c with
    | .commit => some (.failed err, (w.db.commit T).1, { w with db := (w.db.commit T).2 })
    | _ => none
  | .time t =>
    match c with
    | .now => if w.clock ≤ t then some (.returned t, [], { w with clock := t }) else none
    | _ => none
  | .ctx err =>
    match c with
    | .ctxErr => some (.returned err, [], w)
    | _ => none
  | .delay d =>
    match c with
    | .jitter _ => some (.returned d, [], w)
    | _ => none

/-! ### What a command that was executed has done -/

variable {log : OutboxLog} {T : ℕ} {ch : Choice} {w w' : World} {e : List Write}

theorem exec_publish {topic : String} {id : UUID} {payload : Bytes} {o : Outcome Unit}
    (h : exec log T (.publish topic id payload) ch w = some (o, e, w')) : e = [] ∧ w' = w := by
  cases ch <;> cases h <;> exact ⟨rfl, rfl⟩

theorem exec_ctxErr {o : Outcome (Option Events.CtxErr)}
    (h : exec log T .ctxErr ch w = some (o, e, w')) : (∃ c, o = .returned c) ∧ e = [] ∧ w' = w := by
  cases ch <;> cases h
  exact ⟨⟨_, rfl⟩, rfl, rfl⟩

theorem exec_now {o : Outcome ℤ} (h : exec log T .now ch w = some (o, e, w')) :
    (∃ t, o = .returned t) ∧ e = [] ∧ w'.db = w.db := by
  cases ch with
  | time t =>
      unfold exec at h
      dsimp only at h
      split at h <;> cases h
      exact ⟨⟨t, rfl⟩, rfl, rfl⟩
  | run => cases h
  | fail err => cases h
  | lost err => cases h
  | ctx err => cases h
  | delay d => cases h
  | panic v => cases h

theorem exec_jitter {delay : ℤ} {o : Outcome ℤ} (h : exec log T (.jitter delay) ch w = some (o, e, w')) :
    (∃ d, o = .returned d) ∧ e = [] ∧ w' = w := by
  cases ch <;> cases h
  exact ⟨⟨_, rfl⟩, rfl, rfl⟩

/-- A statement fails, or is answered while nobody else holds what it locks. -/
theorem exec_sql_cases {conn : Conn} {q : Stmt} {o : Outcome q.Res}
    (h : exec log T (.sql conn q) ch w = some (o, e, w')) :
    (o.isReturned = false ∧ e = [] ∧ w' = w) ∨
      ∃ t r, w.db.view T false conn = some t ∧
        q.run w.clock (w.db.lockedByOther (fun a b => decide (a = b)) T) t = .ok r ∧
        (∀ l ∈ r.locks, w.db.lockedByOther (fun a b => decide (a = b)) T l = false) ∧
        o = .returned r.answer ∧ (e, w'.db) = w.db.write T r.writes r.locks conn := by
  cases ch with
  | run =>
      obtain ⟨⟨o', e', d'⟩, hstmt, hresult⟩ := Option.map_eq_some_iff.mp h
      cases hresult
      cases Store.statement_cases hstmt with
      | inl hfailed =>
          obtain ⟨⟨err, rfl⟩, rfl, rfl⟩ := hfailed
          exact .inl ⟨rfl, rfl, rfl⟩
      | inr hdone =>
          obtain ⟨t, r, hview, hrun, hfree, ho, hwrite⟩ := hdone
          exact .inr ⟨t, r, hview, hrun, hfree, ho, hwrite⟩
  | fail err => cases h; exact .inl ⟨rfl, rfl, rfl⟩
  | panic v => cases h; exact .inl ⟨rfl, rfl, rfl⟩
  | lost err => cases h
  | time t => cases h
  | ctx err => cases h
  | delay d => cases h

/-- A statement of an open transaction fails, or adds its writes to those of the transaction. -/
theorem exec_sql {q : Stmt} {o : Outcome q.Res} {tx : Tx Tables Write Lock}
    (h : exec log T (.sql .transaction q) ch w = some (o, e, w')) (htx : w.db.tx? T = some tx) :
    e = [] ∧ w'.db.committed = w.db.committed ∧ (o.isReturned = false ∧ w' = w ∨
      ∃ r, q.run w.clock (w.db.lockedByOther (fun a b => decide (a = b)) T)
          (applyAll w.db.committed tx.writes) = .ok r ∧ o = .returned r.answer ∧
        w'.db.tx? T = some ⟨tx.snapshot, tx.writes ++ r.writes, tx.locks ++ r.locks⟩) := by
  cases exec_sql_cases h with
  | inl hfailed =>
      obtain ⟨ho, rfl, rfl⟩ := hfailed
      exact ⟨rfl, rfl, .inl ⟨ho, rfl⟩⟩
  | inr hdone =>
      obtain ⟨t, r, hview, hrun, -, ho, hwrite⟩ := hdone
      obtain ⟨tx', htx', rfl⟩ := Store.view_eq_some hview
      obtain rfl : tx' = tx := Option.some.inj (htx'.symm.trans htx)
      have heffect : (w.db.write T r.writes r.locks .transaction).1 = [] := by
        simp [Store.write, htx]
      have he : e = (w.db.write T r.writes r.locks .transaction).1 := congrArg Prod.fst hwrite
      have hdb : w'.db = (w.db.write T r.writes r.locks .transaction).2 := congrArg Prod.snd hwrite
      refine ⟨he.trans heffect, ?_, .inr ⟨r, hrun, ho, ?_⟩⟩
      · rw [hdb, Store.write_committed, heffect, applyAll_nil]
      · rw [hdb]
        exact Store.write_tx_self htx

/-- A commit does what the transaction wrote, or nothing; only a commit that is done can return. -/
theorem exec_commit_cases {o : Outcome Unit} (h : exec log T .commit ch w = some (o, e, w')) :
    (∃ tx, w.db.tx? T = some tx ∧ e = tx.writes ∧ w'.db = (w.db.commit T).2) ∨
      o.isReturned = false ∧ e = [] ∧ w'.db = w.db := by
  cases htx : w.db.tx? T with
  | none =>
      have hcommit : w.db.commit T = ([], w.db) := by simp [Store.commit, htx]
      cases ch with
      | run =>
          simp only [exec, execRun, htx] at h
          cases h
          exact .inr ⟨rfl, rfl, rfl⟩
      | lost err =>
          simp only [exec, hcommit] at h
          cases h
          exact .inr ⟨rfl, rfl, rfl⟩
      | fail err => cases h; exact .inr ⟨rfl, rfl, rfl⟩
      | panic v => cases h; exact .inr ⟨rfl, rfl, rfl⟩
      | time t => cases h
      | ctx err => cases h
      | delay d => cases h
  | some tx =>
      have heffect : (w.db.commit T).1 = tx.writes := by rw [Store.commit_of_tx htx]
      cases ch with
      | run =>
          simp only [exec, execRun, htx, heffect] at h
          cases h
          exact .inl ⟨tx, rfl, rfl, rfl⟩
      | lost err =>
          simp only [exec, heffect] at h
          cases h
          exact .inl ⟨tx, rfl, rfl, rfl⟩
      | fail err => cases h; exact .inr ⟨rfl, rfl, rfl⟩
      | panic v => cases h; exact .inr ⟨rfl, rfl, rfl⟩
      | time t => cases h
      | ctx err => cases h
      | delay d => cases h

theorem exec_rollback_cases {o : Outcome Unit} (h : exec log T .rollback ch w = some (o, e, w')) :
    e = [] ∧ (w'.db = w.db.rollback T ∨ w'.db = w.db) := by
  cases ch with
  | run =>
      unfold exec execRun at h
      dsimp only at h
      split at h <;> cases h
      · exact ⟨rfl, .inl rfl⟩
      · exact ⟨rfl, .inr rfl⟩
  | fail err => cases h; exact ⟨rfl, .inr rfl⟩
  | panic v => cases h; exact ⟨rfl, .inr rfl⟩
  | lost err => cases h
  | time t => cases h
  | ctx err => cases h
  | delay d => cases h

theorem exec_begin_cases {o : Outcome Unit} (h : exec log T .begin ch w = some (o, e, w')) :
    e = [] ∧ (o = .returned () ∧ w' = { w with db := w.db.begin T } ∨ o.isReturned = false ∧ w' = w) := by
  cases ch with
  | run => cases h; exact ⟨rfl, .inl ⟨rfl, rfl⟩⟩
  | fail err => cases h; exact ⟨rfl, .inr ⟨rfl, rfl⟩⟩
  | panic v => cases h; exact ⟨rfl, .inr ⟨rfl, rfl⟩⟩
  | lost err => cases h
  | time t => cases h
  | ctx err => cases h
  | delay d => cases h

/-! ### The selection -/

theorem limited_sublist (limit : ℤ) (rows : List OutboxMessage) : (limited limit rows).Sublist rows := by
  unfold limited
  split
  · exact List.Sublist.refl _
  · exact List.take_sublist _ _

variable {t : Tables} {now limit : ℤ} {held : UUID → Bool}

/-- A selected row is a due row that nobody holds. -/
theorem mem_unprocessed {m : OutboxMessage} (h : m ∈ t.unprocessed now limit held) :
    m ∈ t.rows ∧ m.isDue now = true ∧ held m.id = false := by
  have hmem : m ∈ t.rows.filter fun m => m.isDue now && !held m.id :=
    (List.perm_insertionSort _ _).mem_iff.mp ((limited_sublist _ _).subset h)
  simpa using hmem

theorem unprocessed_nodup : ((t.unprocessed now limit held).map OutboxMessage.id).Nodup := by
  have hsub := (limited_sublist limit ((t.rows.filter fun m => m.isDue now && !held m.id).insertionSort
    fun a b => OutboxMessage.before (·.createdAt) a b)).map OutboxMessage.id
  refine List.Nodup.sublist hsub ?_
  have hperm := (List.perm_insertionSort (fun a b => OutboxMessage.before (·.createdAt) a b = true)
    (t.rows.filter fun m => m.isDue now && !held m.id)).map OutboxMessage.id
  exact hperm.nodup_iff.mpr (t.ids_nodup.sublist (List.filter_sublist.map _))

end Go42.Outbox
