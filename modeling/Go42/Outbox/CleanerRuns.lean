-- SUMMARY: Cleaners among others: whatever happens between two statements of a run, what it deletes is eligible and bounded.
import Go42.Outbox.Cleaner

/-!
# Cleaners among others

Any number of cleaners work on a table that others may change at will between two statements.
A statement may fail, also after it was done, the context may end at any time, and a cleaner may
disappear. The effect of a step is the table it met and what it committed there.
-/

namespace Go42.Outbox.OutboxMessageCleaner

/-- `exec`, where a command that goes ahead may also be reported as failed. -/
def disturbed : Machine Cmd Res (Choice ⊕ GoError) (Tables × List Write) World := fun _ T c ch w =>
  match ch with
  | .inl ch => (exec [] T c ch w).map fun r => (r.1, (w.db.committed, r.2.1), r.2.2)
  | .inr err => (exec [] T c .run w).map fun r => (.failed err, (w.db.committed, r.2.1), r.2.2)

/-- A cleaner is started with its cutoff. The environment puts any world in place of the one
there is. -/
def cleaners : System Cmd Res (Choice ⊕ GoError) (Tables × List Write) World
    (OutboxMessageCleaner × ℤ) World (Option ℤ) where
  machine := disturbed
  body call := run call.1 call.2
  env w _ := some w
  crash _ w := w

abbrev CleanerLog := Log Cmd Res (Tables × List Write)

/-- The changes of thread `T`. -/
def changes (log : CleanerLog) (T : ℕ) : List Write :=
  (log.filter fun r => r.thread = T).flatMap fun r => r.effect.2

/-! ## One cleaner -/

inductive Fact where
  | selected (limit : ℤ) (ids : List UUID)
  | deleted (ids : List UUID)
  | other

/-- Every command is a fact, so that there are as many facts as steps. -/
def see : Observer Cmd Res Fact := fun c o =>
  match c, o with
  | .sql .primary (.selectProcessed _ limit), .returned ids => some (.selected limit ids)
  | .sql .primary (.deleteProcessed ids _), _ => some (.deleted ids)
  | _, _ => some .other

/-- How many rows a command may have deleted. -/
def Fact.rows : Fact → ℕ
  | .deleted ids => ids.length
  | _ => 0

def Fact.isDelete : Fact → Bool
  | .deleted _ => true
  | _ => false

/-- The deletes among the facts. -/
def deletes (F : List Fact) : ℕ := F.countP Fact.isDelete

section Deletes

variable {F : List Fact} {limit : ℤ} {ids : List UUID}

@[simp] theorem deletes_selected : deletes (.selected limit ids :: F) = deletes F :=
  List.countP_cons_of_neg Bool.false_ne_true

@[simp] theorem deletes_other : deletes (.other :: F) = deletes F :=
  List.countP_cons_of_neg Bool.false_ne_true

@[simp] theorem deletes_deleted : deletes (.deleted ids :: F) = deletes F + 1 :=
  List.countP_cons_of_pos rfl

end Deletes

/-- A batch takes three commands, and the measurement two. -/
def maxSteps (c : OutboxMessageCleaner) : ℕ := 3 * c.maxBatches.toNat + 2

/-- What a cleaner may do: select, delete what was just selected, and look. -/
def Allowed (call : OutboxMessageCleaner × ℤ) (F : List Fact) (cmd : Cmd) : Prop :=
  F.length < call.1.maxSteps ∧
    match cmd with
    | .ctxErr => True
    | .sql .primary (.selectProcessed before limit) => before = call.2 ∧ limit = call.1.batchSize
    | .sql .primary (.deleteProcessed ids before) => before = call.2 ∧
        deletes F < call.1.maxBatches.toNat ∧
        ∃ F', F = .selected call.1.batchSize ids :: F'
    | .sql .primary (.selectOldestProcessed _) => True
    | _ => False

variable {c : OutboxMessageCleaner} {before : ℤ}

/-- One batch takes at most two commands and one delete. -/
theorem deleteProcessedMessages_spec {F : List Fact} (hlength : F.length + 2 ≤ maxSteps c)
    (hdeletes : deletes F < c.maxBatches.toNat) :
    (Repository.deleteProcessedMessages .primary before c.batchSize).Spec see (Allowed (c, before))
      (fun F' _ => F'.length ≤ F.length + 2 ∧ deletes F' ≤ deletes F + 1) F := by
  unfold Repository.deleteProcessedMessages
  split
  case isTrue => exact ⟨by omega, by omega⟩
  case isFalse =>
    apply Prog.Spec.seq
    apply Prog.Spec.mapErr
    refine Prog.Spec.call ⟨by dsimp only; omega, rfl, rfl⟩ fun o => ?_
    cases o with
    | failed err => exact ⟨by simp [see], by simp [see]⟩
    | panicked v => exact ⟨by simp [see], by simp [see]⟩
    | returned ids =>
        dsimp only [Outcome.mapErr]
        split
        case isTrue => exact ⟨by simp [see], by simp [see]⟩
        case isFalse =>
          apply Prog.Spec.mapErr
          refine Prog.Spec.call ⟨?_, rfl, ?_, F, rfl⟩ fun o => ⟨?_, ?_⟩
          · simp [see]; omega
          · simpa [see] using hdeletes
          · simp [see]
          · simp [see]

theorem batchLoop_spec (n : ℕ) : ∀ F : List Fact,
    deletes F + n ≤ c.maxBatches.toNat → F.length + 3 * n + 2 ≤ maxSteps c →
      (batchLoop c before n).Spec see (Allowed (c, before))
        (fun F' _ => F'.length + 2 ≤ maxSteps c) F := by
  induction n with
  | zero => exact fun F _ hlength => hlength
  | succ n ih =>
      intro F hdeletes hlength
      rw [batchLoop]
      apply Prog.Spec.seq
      refine Prog.Spec.call ⟨by dsimp only; omega, trivial⟩ fun o => ?_
      have hasked : (see .ctxErr o).toList ++ F = .other :: F := rfl
      rw [hasked]
      have hstop : (Fact.other :: F).length + 2 ≤ maxSteps c := by rw [List.length_cons]; omega
      cases o with
      | failed err => exact hstop
      | panicked v => exact hstop
      | returned err =>
          cases err with
          | some err => exact hstop
          | none =>
              apply Prog.Spec.seq
              apply Prog.Spec.mapErr
              have hbatch : (Repository.deleteProcessedMessages .primary before c.batchSize).Spec see
                  (Allowed (c, before)) _ (.other :: F) :=
                deleteProcessedMessages_spec (by rw [List.length_cons]; omega)
                  (by rw [deletes_other]; omega)
              refine hbatch.mono fun F' o hF' => ?_
              obtain ⟨hlength', hdeletes'⟩ := hF'
              rw [List.length_cons] at hlength'
              rw [deletes_other] at hdeletes'
              cases o with
              | failed err => dsimp only [Outcome.mapErr]; omega
              | panicked v => dsimp only [Outcome.mapErr]; omega
              | returned deleted =>
                  dsimp only [Outcome.mapErr]
                  split
                  case isTrue => show F'.length + 2 ≤ _; omega
                  case isFalse => exact ih F' (by omega) (by omega)

theorem measureLag_spec {F : List Fact} (hlength : F.length + 2 ≤ maxSteps c) :
    (measureLag before).Spec see (Allowed (c, before)) (fun F' _ => F'.length ≤ maxSteps c) F := by
  rw [measureLag]
  apply Prog.Spec.seq
  refine Prog.Spec.call ⟨by dsimp only; omega, trivial⟩ fun o => ?_
  have hasked : (see .ctxErr o).toList ++ F = .other :: F := rfl
  rw [hasked]
  have hstop : (Fact.other :: F).length ≤ maxSteps c := by rw [List.length_cons]; omega
  cases o with
  | failed err => exact hstop
  | panicked v => exact hstop
  | returned err =>
      cases err with
      | some err => exact hstop
      | none =>
          apply Prog.Spec.seq
          apply Prog.Spec.mapErr
          rw [Repository.getOldestProcessedMessageTime]
          apply Prog.Spec.seq
          apply Prog.Spec.attempt
          refine Prog.Spec.call ⟨by dsimp only; rw [List.length_cons]; omega, trivial⟩ fun o => ?_
          have hmeasured : ((see (.sql .primary (.selectOldestProcessed before)) o).toList ++
              .other :: F).length ≤ maxSteps c := by simp [see]; omega
          cases o with
          | returned m => exact hmeasured
          | panicked v => exact hmeasured
          | failed err =>
              dsimp only
              split
              case isTrue => exact hmeasured
              case isFalse => exact hmeasured

theorem run_spec (call : OutboxMessageCleaner × ℤ) :
    (run call.1 call.2).Spec see (Allowed call) (fun F _ => F.length ≤ maxSteps call.1) [] := by
  rw [run]
  apply Prog.Spec.seq
  have hloop : (batchLoop call.1 call.2 call.1.maxBatches.toNat).Spec see (Allowed call) _ [] :=
    batchLoop_spec call.1.maxBatches.toNat [] (by simp [deletes]) (by simp [maxSteps])
  refine hloop.mono fun F o hF => ?_
  have hstop : F.length ≤ maxSteps call.1 := by omega
  cases o with
  | failed err => exact hstop
  | panicked v => exact hstop
  | returned finished =>
      cases finished with
      | false => exact hstop
      | true => exact measureLag_spec hF

/-! ## What a step commits -/

variable {log : CleanerLog} {T : ℕ} {w w' : World} {call : OutboxMessageCleaner × ℤ} {F : List Fact}

/-- A statement on its own fails, or commits its writes on the table it meets. -/
theorem exec_sql_primary {q : Stmt} {ch : Choice} {o : Outcome q.Res} {e : List Write}
    (h : exec [] T (.sql .primary q) ch w = some (o, e, w')) :
    (o.isReturned = false ∧ e = []) ∨ ∃ held r, q.run w.clock held w.db.committed = .ok r ∧
      o = .returned r.answer ∧ e = r.writes := by
  cases exec_sql_cases h with
  | inl hfailed => exact .inl ⟨hfailed.1, hfailed.2.1⟩
  | inr hdone =>
      obtain ⟨t, r, hview, hrun, -, ho, hwrite⟩ := hdone
      cases hview
      exact .inr ⟨_, r, hrun, ho, (Prod.mk.inj hwrite).1⟩

/-- The rows that a delete statement finds. -/
def found (t : Tables) (ids : List UUID) (before : ℤ) : List OutboxMessage :=
  t.rows.filter fun m => ids.contains m.id && m.processedBefore before

/-- The choice behind a step, and what it comes to. -/
theorem disturbed_cases {cmd : Cmd} {ch : Choice ⊕ GoError} {o : Outcome (Res cmd)}
    {e : Tables × List Write} (h : disturbed log T cmd ch w = some (o, e, w')) :
    ∃ ch' o', exec [] T cmd ch' w = some (o', e.2, w') ∧ e.1 = w.db.committed ∧
      (o = o' ∨ ∃ err, o = .failed err) := by
  cases ch with
  | inl ch =>
      obtain ⟨r, hr, heq⟩ := Option.map_eq_some_iff.mp h
      cases heq
      exact ⟨ch, _, hr, rfl, .inl rfl⟩
  | inr err =>
      obtain ⟨r, hr, heq⟩ := Option.map_eq_some_iff.mp h
      cases heq
      exact ⟨.run, _, hr, rfl, .inr ⟨err, rfl⟩⟩

/-- A step of a cleaner commits nothing, or deletes eligible rows among those it selected. -/
theorem committed_of_step {cmd : Cmd} {ch : Choice ⊕ GoError} {o : Outcome (Res cmd)}
    {e : Tables × List Write} (hallowed : Allowed call F cmd)
    (h : disturbed log T cmd ch w = some (o, e, w')) :
    e.2 = [] ∨ ∃ ids, cmd = .sql .primary (.deleteProcessed ids call.2) ∧
      e.2 = (found e.1 ids call.2).map fun m => .delete m.id := by
  obtain ⟨ch', o', hexec, hmet, -⟩ := disturbed_cases h
  obtain ⟨-, hcmd⟩ := hallowed
  cases cmd with
  | ctxErr => exact .inl (exec_ctxErr hexec).2.1
  | sql conn q =>
      cases conn with
      | transaction => cases q <;> exact absurd hcmd (by simp)
      | primary =>
          cases exec_sql_primary hexec with
          | inl hnone => exact .inl hnone.2
          | inr hdone =>
              obtain ⟨held, r, hrun, -, hwrites⟩ := hdone
              cases q with
              | selectProcessed before limit => cases hrun; exact .inl hwrites
              | selectOldestProcessed before =>
                  simp only [Stmt.run] at hrun
                  split at hrun
                  case h_1 => cases hrun
                  case h_2 => cases hrun; exact .inl hwrites
              | deleteProcessed ids before =>
                  cases hrun
                  obtain ⟨rfl, -⟩ := hcmd
                  exact .inr ⟨ids, rfl, by rw [hwrites, hmet]; rfl⟩
              | insertMessage m => cases hcmd
              | selectUnprocessed now limit => cases hcmd
              | updateProcessed ids processedAt => cases hcmd
              | updateMessage m => cases hcmd
  | begin => cases hcmd
  | commit => cases hcmd
  | rollback => cases hcmd
  | now => cases hcmd
  | publish topic id payload => cases hcmd
  | jitter delay => cases hcmd

/-- No more rows are found than there are ids. -/
theorem found_length (t : Tables) (ids : List UUID) (before : ℤ) :
    (found t ids before).length ≤ ids.length := by
  rw [← List.length_map OutboxMessage.id]
  apply List.Subperm.length_le
  apply List.subperm_of_subset (t.ids_nodup.sublist (List.filter_sublist.map _))
  intro id hid
  obtain ⟨m, hm, rfl⟩ := List.mem_map.mp hid
  exact List.contains_iff_mem.mp (Bool.and_eq_true_iff.mp (List.mem_filter.mp hm).2).1

/-- A selection is as long as its limit at most. -/
theorem selected_length {before limit : ℤ} {ids : List UUID} {ch : Choice ⊕ GoError}
    {e : Tables × List Write} (hlimit : 0 ≤ limit)
    (h : disturbed log T (.sql .primary (.selectProcessed before limit)) ch w =
      some (.returned ids, e, w')) : (ids.length : ℤ) ≤ limit := by
  obtain ⟨ch', o', hexec, -, ho⟩ := disturbed_cases h
  have ho' : o' = .returned ids := by
    cases ho with
    | inl heq => exact heq.symm
    | inr hfailed => obtain ⟨err, heq⟩ := hfailed; cases heq
  subst ho'
  cases exec_sql_primary hexec with
  | inl hfailed => cases hfailed.1
  | inr hdone =>
      obtain ⟨held, r, hrun, hanswer, -⟩ := hdone
      cases hrun
      cases hanswer
      rw [List.length_map, limited, if_neg (by omega), List.length_take]
      omega

/-! ## All cleaners -/

/-- What holds of the log: selections keep to their limits, and no more is deleted than was
selected. -/
structure Inv (log : CleanerLog) (_ : World) : Prop where
  selections : ∀ {T limit ids}, .selected limit ids ∈ log.facts see T → 0 ≤ limit →
    (ids.length : ℤ) ≤ limit
  bounded : ∀ T, (changes log T).length ≤ ((log.facts see T).map Fact.rows).sum

/-- The rows that a step deletes are counted by its fact. -/
theorem step_length {cmd : Cmd} {ch : Choice ⊕ GoError} {o : Outcome (Res cmd)}
    {e : Tables × List Write} (hallowed : Allowed call F cmd)
    (h : disturbed log T cmd ch w = some (o, e, w')) :
    e.2.length ≤ (((see cmd o).toList).map Fact.rows).sum := by
  cases committed_of_step hallowed h with
  | inl hnone => rw [hnone]; exact Nat.zero_le _
  | inr hdelete =>
      obtain ⟨ids, rfl, hwrites⟩ := hdelete
      have hfact : see (.sql .primary (.deleteProcessed ids call.2)) o = some (.deleted ids) := rfl
      rw [hwrites, hfact, List.length_map]
      simpa [Fact.rows] using found_length e.1 ids call.2

theorem changes_cons (r : Record Cmd Res (Tables × List Write)) (log : CleanerLog) (T : ℕ) :
    changes (r :: log) T = (if r.thread = T then r.effect.2 else []) ++ changes log T := by
  by_cases hr : r.thread = T <;> simp [changes, hr]

theorem Inv.step {cmd : Cmd} {ch : Choice ⊕ GoError} {o : Outcome (Res cmd)}
    {e : Tables × List Write} (hinv : Inv log w) (hallowed : Allowed call (log.facts see T) cmd)
    (h : disturbed log T cmd ch w = some (o, e, w')) : Inv (⟨T, cmd, o, e⟩ :: log) w' where
  selections := by
    intro T' limit ids hmem hlimit
    cases Log.mem_facts_cons.mp hmem with
    | inr hold => exact hinv.selections hold hlimit
    | inl hnew =>
        obtain ⟨-, hsee⟩ := hnew
        unfold see at hsee
        split at hsee
        case h_1 before limit' ids' =>
          cases hsee
          exact selected_length hlimit h
        case h_2 => cases hsee
        case h_3 => cases hsee
  bounded := by
    intro T'
    rw [changes_cons, List.length_append]
    rcases eq_or_ne T T' with rfl | hne
    · rw [if_pos rfl, Log.facts_cons_self, List.map_append, List.sum_append]
      exact Nat.add_le_add (step_length hallowed h) (hinv.bounded T)
    · rw [if_neg hne, Log.facts_cons_ne hne, List.length_nil, Nat.zero_add]
      exact hinv.bounded T'

theorem cleaners_sound : cleaners.Sound see Allowed (fun call F _ => F.length ≤ maxSteps call.1) Inv where
  body := run_spec
  step := fun hinv hallowed h => hinv.step hallowed h
  env := fun hinv _ => ⟨hinv.selections, hinv.bounded⟩
  crash := fun hinv => ⟨hinv.selections, hinv.bounded⟩

theorem inv_nil (w : World) : Inv [] w :=
  ⟨fun h => absurd h List.not_mem_nil, fun _ => Nat.le_refl _⟩

/-! ## Every run -/

/-- The steps of thread `T`. -/
def steps (log : CleanerLog) (T : ℕ) : CleanerLog := log.filter fun r => r.thread = T

theorem facts_length (log : CleanerLog) (T : ℕ) : (log.facts see T).length = (steps log T).length := by
  have hsome (r : Record Cmd Res (Tables × List Write)) : (see r.cmd r.answer).isSome = true := by
    unfold see
    split <;> rfl
  induction log with
  | nil => rfl
  | cons r log ih =>
      rw [steps, List.filter_cons]
      by_cases hr : r.thread = T
      · obtain ⟨f, hf⟩ := Option.isSome_iff_exists.mp (hsome r)
        rw [Log.facts, List.filterMap_cons_some (b := f) (by rw [if_pos hr]; exact hf)]
        simpa [hr, Log.facts, steps] using ih
      · rw [Log.facts, List.filterMap_cons_none (by rw [if_neg hr])]
        simpa [hr, Log.facts, steps] using ih

/-- What the facts of a cleaner amount to: its deletions are as many as its batches at most, and
what each of them deletes was selected. -/
structure Bounded (c : OutboxMessageCleaner) (F : List Fact) : Prop where
  steps : F.length ≤ maxSteps c
  deletes : deletes F ≤ c.maxBatches.toNat
  rows : (∀ {limit ids}, .selected limit ids ∈ F → 0 ≤ limit → (ids.length : ℤ) ≤ limit) →
    0 ≤ c.batchSize → (F.map Fact.rows).sum ≤ c.batchSize.toNat * OutboxMessageCleaner.deletes F

theorem bounded_nil : Bounded c [] :=
  ⟨Nat.zero_le _, Nat.zero_le _, fun _ _ => Nat.zero_le _⟩

theorem Bounded.step {cmd : Cmd} (o : Outcome (Res cmd)) (hF : Bounded c F)
    (hallowed : Allowed (c, before) F cmd) : Bounded c ((see cmd o).toList ++ F) := by
  obtain ⟨hlength, hcmd⟩ := hallowed
  unfold see
  split
  case h_1 before' limit ids =>
    refine ⟨hlength, by simpa using hF.deletes, fun hselected hbatch => ?_⟩
    simpa [Fact.rows] using hF.rows (fun h => hselected (List.mem_cons_of_mem _ h)) hbatch
  case h_2 ids _ _ =>
    obtain ⟨-, hdeletes, F', rfl⟩ := hcmd
    dsimp only at hdeletes
    refine ⟨hlength, ?_, fun hselected hbatch => ?_⟩
    · show OutboxMessageCleaner.deletes (.deleted ids :: _) ≤ _
      rw [deletes_deleted]
      exact hdeletes
    dsimp only at hselected
    have hids := hselected (List.mem_cons_of_mem _ List.mem_cons_self) hbatch
    have hrest := hF.rows (fun h => hselected (List.mem_cons_of_mem _ h)) hbatch
    simp only [Option.toList, List.singleton_append, List.map_cons, List.sum_cons, Fact.rows,
      deletes_deleted, deletes_selected] at hrest ⊢
    rw [Nat.mul_succ]
    omega
  case h_3 =>
    refine ⟨hlength, by simpa using hF.deletes, fun hselected hbatch => ?_⟩
    simpa [Fact.rows] using hF.rows (fun h => hselected (List.mem_cons_of_mem _ h)) hbatch

/-- A command of a cleaner can always be answered, if only by a failure. -/
theorem enabled_of_allowed {cmd : Cmd} (hallowed : Allowed call F cmd) (log : CleanerLog) (T : ℕ)
    (w : World) : ∃ ch r, disturbed log T cmd ch w = some r := by
  obtain ⟨-, hcmd⟩ := hallowed
  cases cmd with
  | ctxErr => exact ⟨.inl (.ctx none), _, rfl⟩
  | sql conn q => exact ⟨.inl (.fail errTxDone), _, rfl⟩
  | begin => cases hcmd
  | commit => cases hcmd
  | rollback => cases hcmd
  | now => cases hcmd
  | publish topic id payload => cases hcmd
  | jitter delay => cases hcmd

/-- What a cleaner among others keeps to, in every state. -/
structure Safe (c : OutboxMessageCleaner) (before : ℤ) (T : ℕ) (s : cleaners.State) : Prop where
  /-- It only deletes rows that are eligible when it deletes them. -/
  eligible : ∀ r ∈ s.log, r.thread = T → ∀ write ∈ r.effect.2,
    ∃ m ∈ r.effect.1.rows, write = .delete m.id ∧ m.processedBefore before = true
  bounded : (changes s.log T).length ≤ c.batchSize.toNat * c.maxBatches.toNat
  /-- It stops: its steps are bounded, and until it has finished another one is enabled. -/
  steps : (steps s.log T).length ≤ maxSteps c
  enabled : ∀ q, s.pool[T]? = some ⟨(c, before), some q⟩ → (∃ o, q = .done o) ∨
    ∃ ch s', cleaners.next s (.step T ch) = some s'

theorem cleaners_safe {as : List (Action (Choice ⊕ GoError) (OutboxMessageCleaner × ℤ) World)}
    {s : cleaners.State} (hrun : cleaners.run (cleaners.init w) as = some s)
    {p : Option (OutboxProg (Option ℤ))} (hT : s.pool[T]? = some ⟨(c, before), p⟩)
    (hbatch : 1 ≤ c.batchSize) : Safe c before T s := by
  have hg := (System.Good.init (inv_nil w)).run cleaners_sound hrun
  have hbounded : Bounded c (s.log.facts see T) :=
    hg.facts_invariant hT bounded_nil fun o hF hallowed => hF.step o hallowed
  constructor
  · rintro r hr rfl write hwrite
    obtain ⟨newer, older, hlog⟩ := List.append_of_mem hr
    have hsuf : r :: older <:+ s.log := ⟨newer, hlog.symm⟩
    obtain ⟨s₁, s₂, ch, call', -, -, -, hM, -⟩ := System.Good.record cleaners_sound (inv_nil w) hrun hsuf
    have hstep : disturbed older r.thread r.cmd ch s₁.world = some (r.answer, r.effect, s₂.world) := hM
    cases committed_of_step (hg.obeyed hsuf hT) hstep with
    | inl hnone => rw [hnone] at hwrite; cases hwrite
    | inr hdelete =>
        obtain ⟨ids, -, hwrites⟩ := hdelete
        rw [hwrites] at hwrite
        obtain ⟨m, hm, rfl⟩ := List.mem_map.mp hwrite
        obtain ⟨hrow, helig⟩ := List.mem_filter.mp hm
        exact ⟨m, hrow, rfl, (Bool.and_eq_true_iff.mp helig).2⟩
  · have hrows := hbounded.rows (fun h => hg.inv.selections h) (by omega)
    calc (changes s.log T).length
        ≤ ((s.log.facts see T).map Fact.rows).sum := hg.inv.bounded T
      _ ≤ c.batchSize.toNat * deletes (s.log.facts see T) := hrows
      _ ≤ c.batchSize.toNat * c.maxBatches.toNat := Nat.mul_le_mul_left _ hbounded.deletes
  · rw [← facts_length]
    exact hbounded.steps
  · intro q hq
    cases q with
    | done o => exact .inl ⟨o, rfl⟩
    | op cmd k =>
        obtain ⟨ch, r, hr⟩ := enabled_of_allowed (hg.live hq).1 s.log T s.world
        exact .inr ⟨ch, _, System.stepThread_eq_some.mpr ⟨_, cmd, k, r.1, r.2.1, r.2.2, hq, hr, rfl⟩⟩

/-- On its own, a run deletes the oldest eligible rows, as many as its batches hold, and measures
the lag by the oldest one that remains, as far as a `time.Duration` goes. Among others, it
deletes nothing that is not eligible and no more rows, and it stops. -/
theorem cleaner_run_correct (c : OutboxMessageCleaner) (before : ℤ) (hbatch : 1 ≤ c.batchSize) :
    (∀ (t : Tables) (clock : ℤ),
      let n := c.batchSize.toNat * c.maxBatches.toNat
      ∃ t', (run c before).alone undisturbed (plain t clock) =
          (.returned (some (lag before ((t.processed before).drop n))), plain t' clock) ∧
        t'.rows = t.rows.filter fun m => m ∉ (t.processed before).take n) ∧
      ∀ (w : World) (as : List (Action (Choice ⊕ GoError) (OutboxMessageCleaner × ℤ) World))
        (s : cleaners.State), cleaners.run (cleaners.init w) as = some s →
          ∀ T p, s.pool[T]? = some ⟨(c, before), p⟩ → Safe c before T s :=
  ⟨fun t _ => ⟨_, run_alone hbatch t, rfl⟩, fun _ _ _ hrun _ _ hT => cleaners_safe hrun hT hbatch⟩

/-- A row that was processed at the given time. -/
def processedRow (id : UUID) (processedAt : ℤ) : OutboxMessage :=
  (newRow id "users" ⟨1, .utf8 "user", none⟩).markProcessed processedAt

/-- Two rows from the year 1700. -/
def oldRows : Tables :=
  ⟨[processedRow "b" (-8520336000000000000), processedRow "a" (-8520336000000000001)], by decide⟩

theorem cleaner_run_correct_old : ∃ t',
    (run ⟨1, 1⟩ 1704067200000000000).alone undisturbed (plain oldRows 0) =
        (.returned (some (lag 1704067200000000000
          ((oldRows.processed 1704067200000000000).drop 1))), plain t' 0) ∧
      t'.rows = oldRows.rows.filter fun m => m ∉ (oldRows.processed 1704067200000000000).take 1 :=
  (cleaner_run_correct ⟨1, 1⟩ 1704067200000000000 (by decide)).1 oldRows 0

/-- A lag of 324 years does not fit. -/
theorem lag_saturates :
    ((oldRows.processed 1704067200000000000).drop 1).map OutboxMessage.processedTime =
        [-8520336000000000000] ∧
      ((run ⟨1, 1⟩ 1704067200000000000).alone undisturbed (plain oldRows 0)).1 =
        .returned (some 9223372036854775807) ∧
      (9223372036854775807 : ℤ) ≠ 1704067200000000000 - -8520336000000000000 := by
  have hrows : oldRows.processed 1704067200000000000 =
      [processedRow "a" (-8520336000000000001), processedRow "b" (-8520336000000000000)] := by
    decide
  have hrun : (run ⟨1, 1⟩ 1704067200000000000).alone undisturbed (plain oldRows 0) = _ :=
    run_alone (by decide) oldRows
  rw [hrun]
  dsimp only
  rw [hrows]
  exact ⟨by decide, by decide, by decide⟩

end Go42.Outbox.OutboxMessageCleaner
