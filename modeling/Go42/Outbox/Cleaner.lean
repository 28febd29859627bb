-- SUMMARY: `OutboxMessageCleaner`: one run over bounded batches, what it deletes on its own, and what it keeps to among others.
import Go42.Outbox.Repository

/-!
# The outbox cleaner

A run deletes batch after batch, oldest rows first, until a batch is not full, the limit of
batches is reached or the context is done. It then measures how far it is behind. It works
outside of transactions, so each statement commits by itself and sees what others have done
since the one before. Log lines and counters are left out. The lag is what `run` sets its gauge
to.
-/

namespace Go42.Outbox

open Events (CtxErr)

structure OutboxMessageCleaner where
  batchSize : ℤ
  maxBatches : ℤ

/-- `t.Sub(u)`. A difference that a `time.Duration` cannot hold becomes the nearest one that
it can. -/
def timeSub (t u : ℤ) : ℤ := max (-2 ^ 63) (min (2 ^ 63 - 1) (t - u))

namespace OutboxMessageCleaner

variable (c : OutboxMessageCleaner) (before : ℤ)

/-- The loop of `run`, with the batches it has left; `false` when the context is done. -/
def batchLoop : ℕ → OutboxProg Bool
  | 0 => return true
  | n + 1 => do
    match ← call .ctxErr with
    | some _ => return false
    | none =>
      let deleted ← (Repository.deleteProcessedMessages .primary before c.batchSize).mapErr fun err =>
        .wrap "failed to delete processed outbox messages: " err ""
      if (deleted : ℤ) < c.batchSize then return true else batchLoop n

/-- `run`, after the loop. -/
def measureLag : OutboxProg (Option ℤ) := do
  match ← call .ctxErr with
  | some _ => return none
  | none =>
    match ← (Repository.getOldestProcessedMessageTime .primary before).mapErr fun err =>
      .wrap "failed to measure outbox cleanup lag: " err "" with
    | some oldest => return some (max 0 (timeSub before oldest))
    | none => return some 0

/-- `OutboxMessageCleaner.run`. It answers with the lag, or with `none` when it left the gauge
as it was. -/
def run : OutboxProg (Option ℤ) := do
  if ← batchLoop c before c.maxBatches.toNat then measureLag before else return none

end OutboxMessageCleaner

/-! ## The eligible rows -/

/-- Two rows of one table that are not after each other are the same. -/
theorem before_antisymm {t : Tables} {time : OutboxMessage → ℤ} {a b : OutboxMessage} (ha : a ∈ t.rows)
    (hb : b ∈ t.rows) (hab : OutboxMessage.before time a b = true)
    (hba : OutboxMessage.before time b a = true) : a = b := by
  simp only [OutboxMessage.before, Bool.or_eq_true, Bool.and_eq_true, decide_eq_true_eq] at hab hba
  have hid : a.id = b.id := by
    rcases hab with hlt | ⟨heq, hle⟩
    · rcases hba with hlt' | ⟨heq', -⟩
      · omega
      · omega
    · rcases hba with hlt' | ⟨-, hle'⟩
      · omega
      · exact String.le_antisymm hle hle'
  exact List.inj_on_of_nodup_map t.ids_nodup ha hb hid

instance (time : OutboxMessage → ℤ) :
    Std.Total fun a b => OutboxMessage.before time a b = true where
  total a b := by
    simp only [OutboxMessage.before, Bool.or_eq_true, Bool.and_eq_true, decide_eq_true_eq]
    rcases lt_trichotomy (time a) (time b) with h | h | h
    · exact .inl (.inl h)
    · cases String.le_total a.id b.id with
      | inl hid => exact .inl (.inr ⟨h, hid⟩)
      | inr hid => exact .inr (.inr ⟨h.symm, hid⟩)
    · exact .inr (.inl h)

instance (time : OutboxMessage → ℤ) :
    IsTrans OutboxMessage fun a b => OutboxMessage.before time a b = true where
  trans a b c := by
    simp only [OutboxMessage.before, Bool.or_eq_true, Bool.and_eq_true, decide_eq_true_eq]
    rintro (hab | ⟨hab, hid⟩) (hbc | ⟨hbc, hid'⟩)
    · exact .inl (hab.trans hbc)
    · exact .inl (hbc ▸ hab)
    · exact .inl (hab ▸ hbc)
    · exact .inr ⟨hab.trans hbc, String.le_trans hid hid'⟩

variable {t t' : Tables} {before : ℤ}

theorem processed_perm : (t.processed before).Perm (t.rows.filter (·.processedBefore before)) :=
  List.perm_insertionSort _ _

theorem mem_processed {m : OutboxMessage} :
    m ∈ t.processed before ↔ m ∈ t.rows ∧ m.processedBefore before = true := by
  rw [processed_perm.mem_iff, List.mem_filter]

/-- An eligible row has a time, before the cutoff. -/
theorem processedTime_lt {m : OutboxMessage} (h : m.processedBefore before = true) :
    m.processedTime < before := by
  have hany := (Bool.and_eq_true_iff.mp h).2
  obtain ⟨time, htime, hlt⟩ := (Option.any_eq_true _ _).mp hany
  rw [OutboxMessage.processedTime, htime]
  exact of_decide_eq_true hlt

theorem processed_pairwise : (t.processed before).Pairwise fun a b =>
    OutboxMessage.before (·.processedTime) a b = true :=
  List.pairwise_insertionSort _ _

theorem processed_nodup : ((t.processed before).map OutboxMessage.id).Nodup :=
  (processed_perm.map _).nodup_iff.mpr (t.ids_nodup.sublist (List.filter_sublist.map _))

/-- Rows that are removed from the table are removed from the eligible ones. -/
theorem processed_filter {keep : OutboxMessage → Bool} (h : t'.rows = t.rows.filter keep) :
    t'.processed before = (t.processed before).filter keep := by
  apply List.Perm.eq_of_pairwise _ processed_pairwise (processed_pairwise.filter _)
  · refine processed_perm.trans ?_
    rw [h, List.filter_comm]
    exact (processed_perm.filter _).symm
  · intro a b ha hb
    have ha' := (mem_processed.mp ha).1
    rw [h] at ha'
    exact before_antisymm (List.mem_filter.mp ha').1 (mem_processed.mp (List.mem_filter.mp hb).1).1

theorem Tables.eq_of_rows (h : t.rows = t'.rows) : t = t' := by
  cases t
  cases t'
  cases h
  rfl

/-- A list without its first elements. -/
theorem filter_notMem_take {α : Type} [DecidableEq α] {l : List α} (h : l.Nodup) (k : ℕ) :
    (l.filter fun a => a ∉ l.take k) = l.drop k := by
  have hdisjoint : ∀ a ∈ l.drop k, a ∉ l.take k := by
    rw [← List.take_append_drop k l] at h
    exact fun a ha ha' => List.disjoint_of_nodup_append h ha' ha
  conv_lhs => rw [← List.take_append_drop k l, List.filter_append]
  rw [List.take_append_drop, List.filter_eq_nil_iff.mpr, List.filter_eq_self.mpr, List.nil_append]
  · simpa using hdisjoint
  · simp

/-- The table without its `k` oldest eligible rows. -/
def Tables.deleteOldest (t : Tables) (before : ℤ) (k : ℕ) : Tables where
  rows := t.rows.filter fun m => m ∉ (t.processed before).take k
  ids_nodup := t.ids_nodup.sublist (List.filter_sublist.map _)

theorem processed_deleteOldest (k : ℕ) :
    (t.deleteOldest before k).processed before = (t.processed before).drop k := by
  rw [processed_filter rfl]
  exact filter_notMem_take (List.Nodup.of_map _ processed_nodup) k

theorem deleteOldest_congr {k k' : ℕ} (h : (t.processed before).take k = (t.processed before).take k') :
    t.deleteOldest before k = t.deleteOldest before k' := by
  simp only [Tables.deleteOldest, h]

theorem deleteOldest_zero : t.deleteOldest before 0 = t := by
  simp [Tables.deleteOldest]

theorem deleteOldest_deleteOldest (k k' : ℕ) :
    (t.deleteOldest before k).deleteOldest before k' = t.deleteOldest before (k + k') := by
  apply Tables.eq_of_rows
  show (t.rows.filter _).filter (fun m => m ∉ ((t.deleteOldest before k).processed before).take k') =
    t.rows.filter fun m => m ∉ (t.processed before).take (k + k')
  rw [processed_deleteOldest, List.filter_filter]
  apply List.filter_congr
  intro m _
  rw [Bool.and_comm]
  simp [List.take_add]

/-! ## The statements of a batch -/

theorem applyAll_delete (ms : List OutboxMessage) : ∀ t : Tables,
    (applyAll t (ms.map fun m => Write.delete m.id)).rows =
      t.rows.filter fun m => m.id ∉ ms.map OutboxMessage.id := by
  induction ms with
  | nil => simp
  | cons m ms ih =>
      intro t
      rw [List.map_cons, applyAll_cons, ih]
      show (t.rows.filter _).filter _ = _
      rw [List.filter_filter]
      apply List.filter_congr
      intro x _
      simp only [List.map_cons, List.mem_cons, not_or, ← Bool.decide_and]
      exact decide_eq_decide.mpr and_comm

/-- The rows that a delete finds again under the ids of the selected ones. -/
theorem reselected_perm (k : ℕ) :
    (t.rows.filter fun m => (((t.processed before).take k).map OutboxMessage.id).contains m.id &&
      m.processedBefore before).Perm ((t.processed before).take k) := by
  rw [List.perm_ext_iff_of_nodup]
  · intro m
    rw [List.mem_filter, Bool.and_eq_true, List.contains_iff_mem, List.mem_map]
    constructor
    · rintro ⟨hm, ⟨m', hm', hid⟩, -⟩
      have hrow := (mem_processed.mp ((List.take_sublist _ _).subset hm')).1
      rwa [← List.inj_on_of_nodup_map t.ids_nodup hrow hm hid]
    · intro hm
      obtain ⟨hrow, helig⟩ := mem_processed.mp ((List.take_sublist _ _).subset hm)
      exact ⟨hrow, ⟨m, hm, rfl⟩, helig⟩
  · exact (List.Nodup.of_map _ t.ids_nodup).filter _
  · exact (List.Nodup.of_map _ processed_nodup).sublist (List.take_sublist _ _)

/-! ## A run on its own -/

/-- A command that nobody else disturbs: it goes ahead, and the context is live. -/
def undisturbed (c : Cmd) (w : World) : Outcome (Res c) × World :=
  let ch : Choice := match c with
    | .ctxErr => .ctx none
    | _ => .run
  match exec [] 0 c ch w with
  | some (o, _, w') => (o, w')
  | none => (.panicked "not enabled", w)

/-- A world without open transactions. -/
def plain (t : Tables) (clock : ℤ) : World := ⟨⟨t, ∅⟩, clock⟩

variable {clock : ℤ}

theorem undisturbed_ctxErr {w : World} :
    (call .ctxErr).alone undisturbed w = (.returned none, w) := rfl

theorem plain_statement {R : Type} (f : (Lock → Bool) → Tables → Except GoError (Done R Write Lock)) :
    (plain t clock).db.statement (fun a b => decide (a = b)) 0 false .primary f =
      match f (fun _ => false) t with
      | .error err => some (.failed err, [], (plain t clock).db)
      | .ok r => some (.returned r.answer, r.writes, (plain (applyAll t r.writes) clock).db) := by
  have hfree : (plain t clock).db.lockedByOther (fun a b : Lock => decide (a = b)) 0 = fun _ => false :=
    funext fun _ => rfl
  have hview : (plain t clock).db.view 0 false .primary = some t := rfl
  rw [Store.statement, hfree, hview]
  dsimp only
  cases f (fun _ => false) t with
  | error err => rfl
  | ok r => simp [Store.write, plain]

/-- A statement that is answered sees the table and commits. -/
theorem undisturbed_sql_ok {q : Stmt} {r : Done q.Res Write Lock}
    (h : q.run clock (fun _ => false) t = .ok r) :
    (sql .primary q).alone undisturbed (plain t clock) =
      (.returned r.answer, plain (applyAll t r.writes) clock) := by
  have hexec : exec [] 0 (.sql .primary q) .run (plain t clock) =
      some (.returned r.answer, r.writes, plain (applyAll t r.writes) clock) := by
    have hstmt := @plain_statement t clock _ fun held t => q.run clock held t
    rw [h] at hstmt
    exact congrArg (Option.map _) hstmt
  simp only [Prog.call, Prog.alone, undisturbed, hexec]

theorem undisturbed_sql_error {q : Stmt} {err : GoError}
    (h : q.run clock (fun _ => false) t = .error err) :
    (sql .primary q).alone undisturbed (plain t clock) = (.failed err, plain t clock) := by
  have hexec : exec [] 0 (.sql .primary q) .run (plain t clock) =
      some (.failed err, [], plain t clock) := by
    have hstmt := @plain_statement t clock _ fun held t => q.run clock held t
    rw [h] at hstmt
    exact congrArg (Option.map _) hstmt
  simp only [Prog.call, Prog.alone, undisturbed, hexec]

namespace OutboxMessageCleaner

/-- One batch deletes the oldest eligible rows. -/
theorem deleteProcessedMessages_alone {limit : ℤ} (hlimit : 1 ≤ limit) :
    (Repository.deleteProcessedMessages .primary before limit).alone undisturbed (plain t clock) =
      (.returned (min limit.toNat (t.processed before).length),
        plain (t.deleteOldest before limit.toNat) clock) := by
  have hselected : limited limit (t.processed before) = (t.processed before).take limit.toNat := by
    rw [limited, if_neg (by omega)]
  have hselect : (sql .primary (.selectProcessed before limit)).alone undisturbed (plain t clock) =
      (.returned (((t.processed before).take limit.toNat).map OutboxMessage.id), plain t clock) := by
    rw [← hselected]
    exact undisturbed_sql_ok (q := .selectProcessed before limit) rfl
  rw [Repository.deleteProcessedMessages, if_neg (by omega),
    Prog.alone_seq _ (Prog.alone_mapErr _ hselect)]
  split
  case isTrue hnone =>
    -- Nothing is eligible.
    have hnil : (t.processed before).take limit.toNat = [] := List.map_eq_nil_iff.mp hnone
    have hlength : (t.processed before).length = 0 := by
      have := congrArg List.length hnil
      rw [List.length_take, List.length_nil] at this
      omega
    have htable : t.deleteOldest before limit.toNat = t :=
      (deleteOldest_congr (by rw [hnil, List.take_zero])).trans deleteOldest_zero
    rw [htable, hlength, Nat.min_zero]
    rfl
  case isFalse hsome =>
    have hperm := @reselected_perm t before limit.toNat
    have hdelete := @undisturbed_sql_ok t clock
      (.deleteProcessed (((t.processed before).take limit.toNat).map OutboxMessage.id) before) _ rfl
    rw [Prog.alone_mapErr _ hdelete]
    have hafter : applyAll t ((t.rows.filter fun m =>
        (((t.processed before).take limit.toNat).map OutboxMessage.id).contains m.id &&
          m.processedBefore before).map fun m => Write.delete m.id) =
        t.deleteOldest before limit.toNat := by
      apply Tables.eq_of_rows
      rw [applyAll_delete]
      apply List.filter_congr
      intro m hm
      rw [decide_eq_decide, not_iff_not, (hperm.map _).mem_iff, List.mem_map]
      constructor
      · rintro ⟨m', hm', hid⟩
        have hrow := (mem_processed.mp ((List.take_sublist _ _).subset hm')).1
        rwa [← List.inj_on_of_nodup_map t.ids_nodup hrow hm hid]
      · exact fun hm => ⟨m, hm, rfl⟩
    rw [hafter, hperm.length_eq, List.length_take]
    rfl

theorem batchLoop_alone {c : OutboxMessageCleaner} (hbatch : 1 ≤ c.batchSize) (n : ℕ) :
    ∀ t : Tables, (batchLoop c before n).alone undisturbed (plain t clock) =
      (.returned true, plain (t.deleteOldest before (c.batchSize.toNat * n)) clock) := by
  induction n with
  | zero => intro t; rw [Nat.mul_zero, deleteOldest_zero]; rfl
  | succ n ih =>
      intro t
      rw [batchLoop, Prog.alone_seq _ undisturbed_ctxErr]
      dsimp only
      rw [Prog.alone_seq _ (Prog.alone_mapErr _ (deleteProcessedMessages_alone hbatch))]
      split
      case isTrue hlt =>
        -- The batch was not full: nothing eligible is left.
        have hall : (t.processed before).length ≤ c.batchSize.toNat := by omega
        have htake : (t.processed before).take c.batchSize.toNat =
            (t.processed before).take (c.batchSize.toNat * (n + 1)) := by
          rw [List.take_of_length_le hall, List.take_of_length_le]
          exact hall.trans (Nat.le_mul_of_pos_right _ n.succ_pos)
        rw [deleteOldest_congr htake]
        rfl
      case isFalse =>
        rw [ih, deleteOldest_deleteOldest, Nat.mul_succ, Nat.add_comm]

/-- How far behind a cleaner is whose cutoff is `before`. -/
def lag (before : ℤ) : List OutboxMessage → ℤ
  | [] => 0
  | m :: _ => min (before - m.processedTime) (2 ^ 63 - 1)

/-- The lag of an eligible row is positive, and bounded by what a `time.Duration` can hold. -/
theorem max_timeSub {time : ℤ} (h : time < before) :
    max 0 (timeSub before time) = min (before - time) (2 ^ 63 - 1) := by
  unfold timeSub
  omega

theorem measureLag_alone : (measureLag before).alone undisturbed (plain t clock) =
    (.returned (some (lag before (t.processed before))), plain t clock) := by
  rw [measureLag, Prog.alone_seq _ undisturbed_ctxErr]
  dsimp only
  cases hrows : t.processed before with
  | nil =>
      have hselect : (sql .primary (.selectOldestProcessed before)).alone undisturbed (plain t clock) =
          (.failed errRecordNotFound, plain t clock) :=
        undisturbed_sql_error (by rw [Stmt.run, hrows])
      have holdest : (Repository.getOldestProcessedMessageTime .primary before).alone undisturbed
          (plain t clock) = (.returned none, plain t clock) := by
        rw [Repository.getOldestProcessedMessageTime,
          Prog.alone_seq _ (Prog.alone_attempt_error hselect)]
        rfl
      rw [Prog.alone_seq _ (Prog.alone_mapErr _ holdest)]
      rfl
  | cons m rest =>
      have hselect : (sql .primary (.selectOldestProcessed before)).alone undisturbed (plain t clock) =
          (.returned m, plain t clock) :=
        undisturbed_sql_ok (q := .selectOldestProcessed before) (r := ⟨m, [], []⟩)
          (by rw [Stmt.run, hrows])
      have holdest : (Repository.getOldestProcessedMessageTime .primary before).alone undisturbed
          (plain t clock) = (.returned (some m.processedTime), plain t clock) := by
        rw [Repository.getOldestProcessedMessageTime,
          Prog.alone_seq _ (Prog.alone_attempt_ok hselect)]
        rfl
      have hm : m.processedTime < before := by
        have hmem : m ∈ t.processed before := hrows ▸ List.mem_cons_self
        exact processedTime_lt (mem_processed.mp hmem).2
      rw [Prog.alone_seq _ (Prog.alone_mapErr _ holdest)]
      dsimp only
      rw [max_timeSub hm]
      rfl

theorem run_alone {c : OutboxMessageCleaner} (hbatch : 1 ≤ c.batchSize) (t : Tables) :
    (run c before).alone undisturbed (plain t clock) =
      (.returned (some (lag before
          ((t.processed before).drop (c.batchSize.toNat * c.maxBatches.toNat)))),
        plain (t.deleteOldest before (c.batchSize.toNat * c.maxBatches.toNat)) clock) := by
  rw [run, Prog.alone_seq _ (batchLoop_alone hbatch _ t), if_pos rfl, measureLag_alone,
    processed_deleteOldest]

end OutboxMessageCleaner
end Go42.Outbox
