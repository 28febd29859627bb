-- SUMMARY: A transactional store: buffered writes, row locks held until the end of a transaction, atomic commit and rollback, and reads of committed data or of the transaction's snapshot.
import Go42.Lib.Prog
import Mathlib.Data.List.AList

/-!
# Transactions

The store keeps the committed data and, for each thread inside a transaction, the
committed data at its start, the writes it has buffered and the locks it holds. A
statement runs either on the primary connection, where it commits by itself, or on
the open transaction of its thread. Committing applies the buffered writes at once;
rolling back forgets them; both release the locks. What a step commits is its effect.
-/

namespace Go42

/-- Data of type `S` that writes of type `W` act on. -/
class Applies (S : Type) (W : outParam Type) where
  apply : S → W → S

export Applies (apply)

def applyAll {S W : Type} [Applies S W] (s : S) (ws : List W) : S := ws.foldl apply s

section ApplyAll

variable {S W : Type} [Applies S W]

@[simp] theorem applyAll_nil (s : S) : applyAll s [] = s := rfl

@[simp] theorem applyAll_cons (s : S) (w : W) (ws : List W) :
    applyAll s (w :: ws) = applyAll (apply s w) ws := rfl

theorem applyAll_append (s : S) (ws ws' : List W) :
    applyAll s (ws ++ ws') = applyAll (applyAll s ws) ws' := by
  simp [applyAll]

end ApplyAll

/-- Where a statement runs: on the primary, or on the transaction in its context. -/
inductive Conn where
  | primary
  | transaction
deriving DecidableEq, Repr

structure Tx (S W L : Type) where
  snapshot : S
  writes : List W
  locks : List L
deriving DecidableEq, Repr

structure Store (S W L : Type) where
  committed : S
  txs : AList fun _ : ℕ => Tx S W L

/-- What a statement does on the data it sees: its answer, its writes and the locks it
takes. -/
structure Done (R W L : Type) where
  answer : R
  writes : List W
  locks : List L

/-- `sql.ErrTxDone`. -/
def errTxDone : GoError := .leaf "sql: transaction has already been committed or rolled back"

namespace Store

variable {S W L R : Type}

/-- The open transaction of thread `T`. -/
def tx? (d : Store S W L) (T : ℕ) : Option (Tx S W L) := d.txs.lookup T

/-- Some other transaction holds a lock that conflicts with `l`. -/
def lockedByOther (d : Store S W L) (conflicts : L → L → Bool) (T : ℕ) (l : L) : Bool :=
  d.txs.entries.any fun e => decide (e.1 ≠ T) && e.2.locks.any (conflicts l)

def begin (d : Store S W L) (T : ℕ) : Store S W L :=
  { d with txs := d.txs.insert T ⟨d.committed, [], []⟩ }

def rollback (d : Store S W L) (T : ℕ) : Store S W L :=
  { d with txs := d.txs.erase T }

variable [Applies S W]

/-- What thread `T` sees; `none` on a transaction that is not open. A plain read of a
transaction may also see the data of its `snapshot`. -/
def view (d : Store S W L) (T : ℕ) (snapshot : Bool) : Conn → Option S
  | .primary => some d.committed
  | .transaction =>
    (d.tx? T).map fun tx => applyAll (if snapshot then tx.snapshot else d.committed) tx.writes

/-- The writes and locks of a statement of thread `T`, and what they commit. -/
def write (d : Store S W L) (T : ℕ) (ws : List W) (ls : List L) : Conn → List W × Store S W L
  | .primary => (ws, { d with committed := applyAll d.committed ws })
  | .transaction =>
    match d.tx? T with
    | some tx =>
      ([], { d with txs := d.txs.insert T ⟨tx.snapshot, tx.writes ++ ws, tx.locks ++ ls⟩ })
    | none => ([], d)

def commit (d : Store S W L) (T : ℕ) : List W × Store S W L :=
  match d.tx? T with
  | some tx => (tx.writes, ⟨applyAll d.committed tx.writes, d.txs.erase T⟩)
  | none => ([], d)

/-- One statement of thread `T`. It fails on a transaction that is not open, and it
waits while another transaction holds a lock it needs. The statement `f` is told
which locks others hold, for `SKIP LOCKED`. -/
def statement (d : Store S W L) (conflicts : L → L → Bool) (T : ℕ) (snapshot : Bool) (c : Conn)
    (f : (L → Bool) → S → Except GoError (Done R W L)) :
    Option (Outcome R × List W × Store S W L) :=
  match d.view T snapshot c with
  | none => some (.failed errTxDone, [], d)
  | some s =>
    match f (d.lockedByOther conflicts T) s with
    | .error err => some (.failed err, [], d)
    | .ok r =>
      if r.locks.any (d.lockedByOther conflicts T) then none
      else some (.returned r.answer, d.write T r.writes r.locks c)

/-! ## Reading back -/

variable {d d' : Store S W L} {T T' : ℕ} {tx : Tx S W L} {ws : List W} {ls : List L} {c : Conn}

omit [Applies S W] in
@[simp] theorem begin_committed : (d.begin T).committed = d.committed := rfl
omit [Applies S W] in
@[simp] theorem begin_tx_self : (d.begin T).tx? T = some ⟨d.committed, [], []⟩ := by
  simp [begin, tx?]
omit [Applies S W] in
theorem begin_tx_ne (h : T' ≠ T) : (d.begin T).tx? T' = d.tx? T' := by
  simp [begin, tx?, AList.lookup_insert_ne h]

omit [Applies S W] in
@[simp] theorem rollback_committed : (d.rollback T).committed = d.committed := rfl
omit [Applies S W] in
@[simp] theorem rollback_tx_self : (d.rollback T).tx? T = none := by
  simp [rollback, tx?]
omit [Applies S W] in
theorem rollback_tx_ne (h : T' ≠ T) : (d.rollback T).tx? T' = d.tx? T' := by
  simp [rollback, tx?, AList.lookup_erase_ne h]

/-- Whatever a statement commits is its effect. -/
@[simp] theorem write_committed :
    (d.write T ws ls c).2.committed = applyAll d.committed (d.write T ws ls c).1 := by
  cases c with
  | primary => rfl
  | transaction => unfold write; cases d.tx? T <;> rfl

theorem write_tx_self (h : d.tx? T = some tx) :
    (d.write T ws ls .transaction).2.tx? T =
      some ⟨tx.snapshot, tx.writes ++ ws, tx.locks ++ ls⟩ := by
  simp only [write, h]; simp [tx?]

theorem write_tx_primary : (d.write T ws ls .primary).2.tx? T' = d.tx? T' := rfl

theorem write_tx_ne (h : T' ≠ T) : (d.write T ws ls c).2.tx? T' = d.tx? T' := by
  cases c with
  | primary => rfl
  | transaction =>
      unfold write
      cases d.tx? T with
      | none => rfl
      | some tx => simp [tx?, AList.lookup_insert_ne h]

theorem commit_of_tx (h : d.tx? T = some tx) :
    d.commit T = (tx.writes, ⟨applyAll d.committed tx.writes, d.txs.erase T⟩) := by
  simp [commit, h]

@[simp] theorem commit_committed :
    (d.commit T).2.committed = applyAll d.committed (d.commit T).1 := by
  unfold commit; cases d.tx? T <;> rfl

@[simp] theorem commit_tx_self : (d.commit T).2.tx? T = none := by
  unfold commit
  cases h : d.tx? T with
  | none => exact h
  | some tx => simp [tx?]

theorem commit_tx_ne (h : T' ≠ T) : (d.commit T).2.tx? T' = d.tx? T' := by
  unfold commit
  cases d.tx? T with
  | none => rfl
  | some tx => simp [tx?, AList.lookup_erase_ne h]

/-! ## Locks -/

omit [Applies S W] in
theorem lockedByOther_eq_false {conflicts : L → L → Bool} {l : L} :
    d.lockedByOther conflicts T l = false ↔
      ∀ T' tx, T' ≠ T → d.tx? T' = some tx → ∀ l' ∈ tx.locks, conflicts l l' = false := by
  simp only [lockedByOther, List.any_eq_false, Bool.and_eq_true, decide_eq_true_eq,
    List.any_eq_true, not_and, not_exists, Bool.not_eq_true]
  constructor
  · intro h T' tx hne htx l hl
    exact h ⟨T', tx⟩ (AList.mem_lookup_iff.mp htx) hne l hl
  · rintro h ⟨T', tx⟩ hmem hne l hl
    exact h T' tx hne (AList.mem_lookup_iff.mpr hmem) l hl

/-! ## Statements -/

variable {conflicts : L → L → Bool} {snapshot : Bool}
variable {f : (L → Bool) → S → Except GoError (Done R W L)}

/-- How a statement can end: with an error and no change, or with an answer, the
locks being free. -/
theorem statement_cases {o : Outcome R} {e : List W}
    (h : d.statement conflicts T snapshot c f = some (o, e, d')) :
    ((∃ err, o = .failed err) ∧ e = [] ∧ d' = d) ∨
      ∃ s r, d.view T snapshot c = some s ∧ f (d.lockedByOther conflicts T) s = .ok r ∧
        (∀ l ∈ r.locks, d.lockedByOther conflicts T l = false) ∧
        o = .returned r.answer ∧ (e, d') = d.write T r.writes r.locks c := by
  unfold statement at h
  split at h
  · cases h; exact .inl ⟨⟨_, rfl⟩, rfl, rfl⟩
  · rename_i s hs
    split at h
    · cases h; exact .inl ⟨⟨_, rfl⟩, rfl, rfl⟩
    · rename_i r hr
      split at h
      · cases h
      · rename_i hlock
        simp only [Option.some.injEq, Prod.mk.injEq] at h
        obtain ⟨rfl, h⟩ := h
        refine .inr ⟨s, r, hs, hr, fun l hl => ?_, rfl, h.symm⟩
        simp only [List.any_eq_true, not_exists, not_and, Bool.not_eq_true] at hlock
        exact hlock l hl

theorem view_eq_some {s : S} (h : d.view T snapshot .transaction = some s) :
    ∃ tx, d.tx? T = some tx ∧
      s = applyAll (if snapshot then tx.snapshot else d.committed) tx.writes := by
  obtain ⟨tx, htx, rfl⟩ := Option.map_eq_some_iff.mp h
  exact ⟨tx, htx, rfl⟩

end Store
end Go42
