-- SUMMARY: No message is lost: the invariant of the outbox over every run of its workers, and what it says about one message.
import Go42.Outbox.Lifecycle

/-!
# No message is lost

What an open transaction has written is compared with the committed table row by row. It writes
to rows that it has locked, and nobody else changes those, so that its writes still mean the same
when it commits.
-/

namespace Go42.Outbox.Lifecycle

variable (marshal : Event → Except GoError Bytes)

/-! ## What the log says about a message -/

/-- The row of a message that is saved at the given time. -/
def savedAt (m : OutboxMessage) (time : ℤ) : OutboxMessage := { m with createdAt := time }

/-- A transaction that saved the message has committed. -/
def Enqueued (log : OutboxLog) (m : OutboxMessage) : Prop :=
  ∃ r ∈ log, r.cmd = .commit ∧ .insert m ∈ r.effect

/-- Some `Publish` of the message returned nil. -/
def Published (log : OutboxLog) (m : OutboxMessage) : Prop :=
  ∃ T, Sent marshal (log.facts see T) m

/-- Some `Publish` of the message returned a permanent error. -/
def Rejected (log : OutboxLog) (m : OutboxMessage) : Prop :=
  ∃ T, Refused marshal (log.facts see T) m

/-- A cleaner has deleted the row with this id, which was processed before its cutoff. -/
def Deleted (log : OutboxLog) (id : UUID) : Prop :=
  ∃ r ∈ log, ∃ ids before, r.cmd = .sql .primary (.deleteProcessed ids before) ∧ .delete id ∈ r.effect

/-- The status of the row is what became of its message. -/
structure Settled (log : OutboxLog) (m : OutboxMessage) : Prop where
  processed : m.status = .processed → Published marshal log m
  failed : m.status = .failed → Rejected marshal log m

/-- What the writes `ws` may make of a row. -/
inductive Moves (log : OutboxLog) (ws : List Write) : Option OutboxMessage → Option OutboxMessage → Prop
  | same (x : Option OutboxMessage) : Moves log ws x x
  | insert (m : OutboxMessage) : .insert m ∈ ws → m.status = .pending → Moves log ws none (some m)
  | settle (m m' : OutboxMessage) : m.status = .pending → Same m m' → Settled marshal log m' →
      Moves log ws (some m) (some m')

/-- A cleaner deletes a row that was processed before its cutoff. -/
def Purged (call : Call) (cmd : Cmd) (ws : List Write) (x y : Option OutboxMessage) : Prop :=
  ∃ c before ids m, call = .clean c before ∧ cmd = .sql .primary (.deleteProcessed ids before) ∧
    x = some m ∧ m.processedBefore before = true ∧ y = none ∧ .delete m.id ∈ ws

variable {marshal} {log log' : OutboxLog} {m m' : OutboxMessage} {ws ws' : List Write}
variable {x y : Option OutboxMessage}

theorem facts_subset (h : log <:+ log') (T : ℕ) : log.facts see T ⊆ log'.facts see T :=
  fun _ hf => Log.facts_of_suffix h hf

theorem Enqueued.mono (h : Enqueued log m) (hlog : log <:+ log') : Enqueued log' m := by
  obtain ⟨r, hr, hcommit⟩ := h
  exact ⟨r, hlog.subset hr, hcommit⟩

theorem Published.mono (h : Published marshal log m) (hlog : log <:+ log') :
    Published marshal log' m :=
  h.imp fun T hsent => hsent.mono (facts_subset hlog T)

theorem Rejected.mono (h : Rejected marshal log m) (hlog : log <:+ log') :
    Rejected marshal log' m :=
  h.imp fun T hrefused => hrefused.mono (facts_subset hlog T)

theorem Deleted.mono {id : UUID} (h : Deleted log id) (hlog : log <:+ log') : Deleted log' id := by
  obtain ⟨r, hr, hdelete⟩ := h
  exact ⟨r, hlog.subset hr, hdelete⟩

theorem Settled.mono (h : Settled marshal log m) (hlog : log <:+ log') : Settled marshal log' m :=
  ⟨fun hstatus => (h.processed hstatus).mono hlog, fun hstatus => (h.failed hstatus).mono hlog⟩

theorem Moves.mono (h : Moves marshal log ws x y) (hlog : log <:+ log') (hws : ws ⊆ ws') :
    Moves marshal log' ws' x y := by
  cases h with
  | same => exact .same _
  | insert m hinsert hstatus => exact .insert m (hws hinsert) hstatus
  | settle m m' hstatus hsame hsettled => exact .settle m m' hstatus hsame (hsettled.mono hlog)

theorem Moves.eq_none (h : Moves marshal log ws x none) : x = none := by cases h; rfl

/-- A row stays the same message. -/
theorem Moves.some (h : Moves marshal log ws (some m) y) : ∃ m', y = some m' ∧ Same m m' := by
  cases h with
  | same => exact ⟨m, rfl, same_refl m⟩
  | settle _ m' _ hsame _ => exact ⟨m', rfl, hsame⟩

/-- Only a pending row changes. -/
theorem Moves.eq_of_ne_pending (h : Moves marshal log ws (Option.some m) y) (hm : m.status ≠ .pending) :
    y = Option.some m := by
  cases h with
  | same => rfl
  | settle _ m' hstatus _ _ => exact absurd hstatus hm

/-! ## Open transactions -/

variable (marshal) in
/-- The transaction `tx` of thread `T`, against the committed table `t`. -/
structure Open (log : OutboxLog) (T : ℕ) (t : Tables) (tx : Tx Tables Write Lock) : Prop where
  began : log.facts see T ≠ []
  goesOn : .committed ∉ log.facts see T
  fresh : log.facts see T = [.began] → tx.writes = []
  locked : ∀ write ∈ tx.writes, write.id ∈ tx.locks
  moves : ∀ id, Moves marshal log tx.writes (t.row? id) (actAll tx.writes id (t.row? id))
  inserts : ∀ m, .insert m ∈ tx.writes → ∃ row, actAll tx.writes m.id (t.row? m.id) = some row ∧
    Same m row
  inserted : ∀ m, .inserted m ∈ log.facts see T → ∃ time, .insert (savedAt m time) ∈ tx.writes
  selected : ∀ rows, .selected rows ∈ log.facts see T → ∀ m ∈ rows,
    m.id ∈ tx.locks ∧ t.row? m.id = some m ∧ m.status = .pending

variable {T T' : ℕ} {t t' : Tables} {tx : Tx Tables Write Lock}

/-- Others do not change what is locked. -/
theorem Open.frame (h : Open marshal log T t tx) (hlog : log <:+ log')
    (hfacts : log'.facts see T = log.facts see T) (ht : ∀ id ∈ tx.locks, t'.row? id = t.row? id) :
    Open marshal log' T t' tx where
  began := by rw [hfacts]; exact h.began
  goesOn := by rw [hfacts]; exact h.goesOn
  fresh := by rw [hfacts]; exact h.fresh
  locked := h.locked
  moves := by
    intro id
    by_cases hid : id ∈ tx.locks
    · rw [ht id hid]
      exact (h.moves id).mono hlog (List.Subset.refl _)
    · have hne : ∀ write ∈ tx.writes, write.id ≠ id := fun write hwrite heq =>
        hid (heq ▸ h.locked write hwrite)
      rw [actAll_of_ne hne]
      exact .same _
  inserts := by
    intro m hm
    rw [ht m.id (h.locked _ hm)]
    exact h.inserts m hm
  inserted := by rw [hfacts]; exact h.inserted
  selected := by
    intro rows hrows m hm
    rw [hfacts] at hrows
    obtain ⟨hlocked, hrow, hstatus⟩ := h.selected rows hrows m hm
    exact ⟨hlocked, (ht m.id hlocked).trans hrow, hstatus⟩

/-- An answer of `Publish`. -/
def Fact.isAnswer : Fact → Prop
  | .published _ _ _ => True
  | .refused _ _ _ _ => True
  | _ => False

/-- The thread itself learns an answer, or nothing. -/
theorem Open.learn (h : Open marshal log T t tx) {f : Option Fact} (hf : ∀ a ∈ f, a.isAnswer)
    (hlog : log <:+ log') (hfacts : log'.facts see T = f.toList ++ log.facts see T) :
    Open marshal log' T t tx := by
  cases f with
  | none => exact h.frame hlog hfacts fun _ _ => rfl
  | some a =>
      have ha : a.isAnswer := hf a rfl
      have hold {b : Fact} (hb : ¬b.isAnswer) (hmem : b ∈ log'.facts see T) : b ∈ log.facts see T := by
        rw [hfacts] at hmem
        cases List.mem_cons.mp hmem with
        | inl heq => exact absurd (heq ▸ ha) hb
        | inr hmem => exact hmem
      constructor
      · rw [hfacts]
        exact List.cons_ne_nil _ _
      · exact fun hmem => h.goesOn (hold id hmem)
      · intro hbegan
        rw [hfacts] at hbegan
        rw [(List.cons.inj hbegan).1] at ha
        exact ha.elim
      · exact h.locked
      · exact fun id => (h.moves id).mono hlog (List.Subset.refl _)
      · exact h.inserts
      · exact fun m hm => h.inserted m (hold id hm)
      · exact fun rows hrows => h.selected rows (hold id hrows)

/-- A transaction that has only begun. -/
theorem open_begin {o : Outcome Unit} {e : List Write} (hfacts : log.facts see T = []) (ho : o.isReturned = true)
    (s : Tables) : Open marshal (⟨T, .begin, o, e⟩ :: log) T t ⟨s, [], []⟩ := by
  have hnew : Log.facts see (⟨T, .begin, o, e⟩ :: log) T = [.began] := by
    rw [Log.facts_cons_self, hfacts]
    cases o with
    | returned u => rfl
    | failed err => cases ho
    | panicked v => cases ho
  constructor
  · rw [hnew]
    exact List.cons_ne_nil _ _
  · rw [hnew]
    exact fun h => nomatch h
  · exact fun _ => rfl
  · exact fun _ h => absurd h List.not_mem_nil
  · exact fun _ => .same _
  · exact fun _ h => absurd h List.not_mem_nil
  · rw [hnew]
    exact fun _ h => nomatch h
  · rw [hnew]
    exact fun _ h => nomatch h

/-! ### A statement of an open transaction -/

variable {now : ℤ} {held : UUID → Bool} {e : List Write} {call : Call}

/-- What a transaction sees of a row that it selected. -/
theorem Open.view_selected (h : Open marshal log T t tx) {rows : List OutboxMessage}
    (hrows : .selected rows ∈ log.facts see T) (hm : m ∈ rows) :
    ∃ x, actAll tx.writes m.id (t.row? m.id) = some x ∧ Same m x := by
  obtain ⟨-, hrow, -⟩ := h.selected rows hrows m hm
  have hmoves := h.moves m.id
  rw [hrow] at hmoves ⊢
  exact hmoves.some

theorem Open.insertMessage (h : Open marshal log T t tx) (hpending : m.status = .pending)
    (hnew : actAll tx.writes m.id (t.row? m.id) = none) :
    Open marshal (⟨T, .sql .transaction (.insertMessage m), .returned (), e⟩ :: log) T t
      ⟨tx.snapshot, tx.writes ++ [.insert (savedAt m now)], tx.locks ++ [m.id]⟩ := by
  have hfacts : Log.facts see (⟨T, .sql .transaction (.insertMessage m), .returned (), e⟩ :: log) T =
      .inserted m :: log.facts see T := Log.facts_cons_self
  have hlog : log <:+ ⟨T, .sql .transaction (.insertMessage m), .returned (), e⟩ :: log :=
    List.suffix_cons _ _
  have hsub : tx.writes ⊆ tx.writes ++ [.insert (savedAt m now)] :=
    List.subset_append_left _ _
  have hself : actAll [.insert (savedAt m now)] m.id none = some (savedAt m now) :=
    actAll_insert_self
  constructor
  · rw [hfacts]
    exact List.cons_ne_nil _ _
  · rw [hfacts]
    exact fun hmem => h.goesOn ((List.mem_cons.mp hmem).resolve_left fun heq => nomatch heq)
  · intro hbegan
    rw [hfacts] at hbegan
    cases (List.cons.inj hbegan).1
  · intro write hwrite
    cases List.mem_append.mp hwrite with
    | inl hold => exact List.mem_append_left _ (h.locked write hold)
    | inr hnew =>
        rw [List.mem_singleton.mp hnew]
        exact List.mem_append_right _ (List.mem_singleton_self _)
  · intro id
    rw [actAll_append]
    by_cases hid : m.id = id
    · subst hid
      have hnone : t.row? m.id = none := (hnew ▸ h.moves m.id).eq_none
      rw [hnew, hnone, hself]
      exact .insert _ (List.mem_append_right _ (List.mem_singleton_self _)) hpending
    · have hid' : (savedAt m now).id ≠ id := hid
      rw [actAll_insert_ne hid']
      exact (h.moves id).mono hlog hsub
  · intro m' hm'
    cases List.mem_append.mp hm' with
    | inl hold =>
        obtain ⟨row, hrow, hsame⟩ := h.inserts m' hold
        have hne : (savedAt m now).id ≠ m'.id := by
          intro hid
          have hid : m.id = m'.id := hid
          rw [← hid, hnew] at hrow
          cases hrow
        rw [actAll_append, actAll_insert_ne hne]
        exact ⟨row, hrow, hsame⟩
    | inr hlast =>
        cases List.mem_singleton.mp hlast
        rw [actAll_append]
        exact ⟨savedAt m now, (congrArg _ hnew).trans hself, same_refl _⟩
  · intro m' hm'
    rw [hfacts] at hm'
    cases List.mem_cons.mp hm' with
    | inl heq =>
        cases heq
        exact ⟨now, List.mem_append_right _ (List.mem_singleton_self _)⟩
    | inr hold => exact (h.inserted m' hold).imp fun _ hmem => hsub hmem
  · intro rows hrows m' hm'
    rw [hfacts] at hrows
    have hold := (List.mem_cons.mp hrows).resolve_left fun heq => nomatch heq
    obtain ⟨hlocked, hrest⟩ := h.selected rows hold m' hm'
    exact ⟨List.mem_append_left _ hlocked, hrest⟩

theorem Open.selectUnprocessed {time limit : ℤ} (h : Open marshal log T t tx)
    (hbegan : log.facts see T = [.began]) :
    Open marshal (⟨T, .sql .transaction (.selectUnprocessed time limit),
        .returned ((applyAll t tx.writes).unprocessed time limit held), e⟩ :: log) T t
      ⟨tx.snapshot, tx.writes ++ [],
        tx.locks ++ ((applyAll t tx.writes).unprocessed time limit held).map OutboxMessage.id⟩ := by
  have hwrites : tx.writes = [] := h.fresh hbegan
  have hfacts : Log.facts see (⟨T, .sql .transaction (.selectUnprocessed time limit),
        .returned ((applyAll t tx.writes).unprocessed time limit held), e⟩ :: log) T =
      .selected ((applyAll t tx.writes).unprocessed time limit held) :: log.facts see T :=
    Log.facts_cons_self
  rw [hwrites] at hfacts ⊢
  rw [applyAll_nil] at hfacts ⊢
  constructor
  · rw [hfacts]
    exact List.cons_ne_nil _ _
  · rw [hfacts]
    exact fun hmem => h.goesOn ((List.mem_cons.mp hmem).resolve_left fun heq => nomatch heq)
  · exact fun _ => rfl
  · exact fun _ hmem => absurd hmem List.not_mem_nil
  · exact fun _ => .same _
  · exact fun _ hmem => absurd hmem List.not_mem_nil
  · intro m hm
    rw [hfacts, hbegan] at hm
    exact nomatch hm
  · intro rows hrows m hm
    rw [hfacts, hbegan] at hrows
    cases List.mem_cons.mp hrows with
    | inr hold => exact nomatch hold
    | inl heq =>
        cases heq
        obtain ⟨hrow, hdue, -⟩ := mem_unprocessed hm
        refine ⟨List.mem_append_right _ (List.mem_map_of_mem hm), row?_of_mem hrow, ?_⟩
        simpa using (Bool.and_eq_true_iff.mp hdue).1

/-- A statement that settles rows, which the transaction has selected. -/
theorem Open.update {q : Stmt} {a : q.Res} {ls : List Lock} (h : Open marshal log T t tx)
    (hsee : see (.sql .transaction q) (.returned a) = none)
    (hfresh : log.facts see T = [.began] → ws = []) (hnoInsert : ∀ m, .insert m ∉ ws)
    (hlocked : ∀ write ∈ ws, write.id ∈ tx.locks)
    (hsets : ∀ id x, actAll tx.writes id (t.row? id) = x → actAll ws id x = x ∨
      ∃ m m', t.row? id = some m ∧ m.status = .pending ∧ actAll ws id x = some m' ∧ Same m m' ∧
        Settled marshal log m') :
    Open marshal (⟨T, .sql .transaction q, .returned a, e⟩ :: log) T t
      ⟨tx.snapshot, tx.writes ++ ws, tx.locks ++ ls⟩ := by
  have hfacts : Log.facts see (⟨T, .sql .transaction q, .returned a, e⟩ :: log) T =
      log.facts see T := by
    rw [Log.facts_cons_self, hsee]
    rfl
  have hlog : log <:+ ⟨T, .sql .transaction q, .returned a, e⟩ :: log := List.suffix_cons _ _
  have hold {m : OutboxMessage} (hm : .insert m ∈ tx.writes ++ ws) : .insert m ∈ tx.writes :=
    (List.mem_append.mp hm).resolve_right (hnoInsert m)
  constructor
  · rw [hfacts]
    exact h.began
  · rw [hfacts]
    exact h.goesOn
  · intro hbegan
    rw [hfacts] at hbegan
    show tx.writes ++ ws = []
    rw [h.fresh hbegan, hfresh hbegan, List.append_nil]
  · intro write hwrite
    apply List.mem_append_left
    cases List.mem_append.mp hwrite with
    | inl hold => exact h.locked write hold
    | inr hnew => exact hlocked write hnew
  · intro id
    rw [actAll_append]
    cases hsets id _ rfl with
    | inl hsame =>
        rw [hsame]
        exact (h.moves id).mono hlog (List.subset_append_left _ _)
    | inr hset =>
        obtain ⟨m, m', hrow, hpending, hact, hsame, hsettled⟩ := hset
        rw [hact, hrow]
        exact .settle m m' hpending hsame (hsettled.mono hlog)
  · intro m₁ hm₁
    obtain ⟨row, hrow, hsame⟩ := h.inserts m₁ (hold hm₁)
    rw [actAll_append]
    cases hsets m₁.id _ rfl with
    | inl hsame' =>
        rw [hsame']
        exact ⟨row, hrow, hsame⟩
    | inr hset =>
        obtain ⟨m, m', hrow', -, hact, hsame', -⟩ := hset
        have hmoves := h.moves m₁.id
        rw [hrow, hrow'] at hmoves
        obtain ⟨row', heq, hrow''⟩ := hmoves.some
        cases heq
        exact ⟨m', hact, (hsame.trans hrow''.symm).trans hsame'⟩
  · intro m hm
    rw [hfacts] at hm
    exact (h.inserted m hm).imp fun _ hmem => List.mem_append_left _ hmem
  · intro rows hrows m hm
    rw [hfacts] at hrows
    obtain ⟨hlocked, hrest⟩ := h.selected rows hrows m hm
    exact ⟨List.mem_append_left _ hlocked, hrest⟩

/-- A message that was published has been published by someone. -/
theorem Delivered.settled (h : Delivered marshal (log.facts see T) m) (hsame : Same m m')
    (hstatus : m'.status = .processed) : Settled marshal log m' :=
  ⟨fun _ => ⟨T, h.2.same hsame⟩, fun hfailed => by rw [hstatus] at hfailed; cases hfailed⟩

theorem Open.updateProcessed {ids : List UUID} {processedAt : ℤ} (h : Open marshal log T t tx)
    (hids : ∀ id ∈ ids, ∃ m, m.id = id ∧ Delivered marshal (log.facts see T) m) :
    let rows := (applyAll t tx.writes).rows.filter fun m => ids.contains m.id
    Open marshal (⟨T, .sql .transaction (.updateProcessed ids processedAt), .returned rows.length, e⟩ :: log)
      T t ⟨tx.snapshot, tx.writes ++ rows.map fun m => .set (m.markProcessed processedAt),
        tx.locks ++ rows.map OutboxMessage.id⟩ := by
  intro rows
  have hrows {x : OutboxMessage} (hx : x ∈ rows) : actAll tx.writes x.id (t.row? x.id) = some x ∧
      ∃ m, m.id = x.id ∧ Delivered marshal (log.facts see T) m := by
    obtain ⟨hmem, hid⟩ := List.mem_filter.mp hx
    refine ⟨?_, hids x.id (List.contains_iff_mem.mp hid)⟩
    rw [← row?_applyAll]
    exact row?_of_mem hmem
  apply h.update rfl
  · intro hbegan
    cases hnone : rows with
    | nil => rfl
    | cons x rest =>
        obtain ⟨-, m, -, ⟨selected, hselected, -⟩, -⟩ := hrows (hnone ▸ List.mem_cons_self)
        rw [hbegan] at hselected
        exact nomatch hselected
  · intro m hm
    obtain ⟨x, -, heq⟩ := List.mem_map.mp hm
    cases heq
  · intro write hwrite
    obtain ⟨x, hx, rfl⟩ := List.mem_map.mp hwrite
    obtain ⟨-, m, hid, ⟨selected, hselected, hm⟩, -⟩ := hrows hx
    show x.id ∈ tx.locks
    rw [← hid]
    exact (h.selected selected hselected m hm).1
  · intro id x hview
    refine (@actAll_set id (fun m => m.markProcessed processedAt) (fun _ => rfl) rows x).imp_right ?_
    rintro ⟨m', hm', rfl, hact⟩
    obtain ⟨hview', m, hid, hdelivered⟩ := hrows hm'
    rw [hview] at hview'
    obtain ⟨⟨selected, hselected, hm⟩, -⟩ := id hdelivered
    obtain ⟨-, hrow, hpending⟩ := h.selected selected hselected m hm
    obtain ⟨y, hy, hsame⟩ := h.view_selected hselected hm
    rw [hid] at hrow hy
    rw [hview, hview'] at hy
    cases hy
    have hsame' : Same m (m'.markProcessed processedAt) :=
      hsame.trans (same_markProcessed m' processedAt)
    refine ⟨m, m'.markProcessed processedAt, hrow, hpending, ?_, hsame', hdelivered.settled hsame' rfl⟩
    rw [hact, hview']
    rfl

/-- A statement that writes nothing. -/
theorem Open.noWrites {q : Stmt} {a : q.Res} {ls : List Lock} (h : Open marshal log T t tx)
    (hsee : see (.sql .transaction q) (.returned a) = none) :
    Open marshal (⟨T, .sql .transaction q, .returned a, e⟩ :: log) T t
      ⟨tx.snapshot, tx.writes ++ [], tx.locks ++ ls⟩ :=
  h.update hsee (fun _ => rfl) (fun _ => List.not_mem_nil) (fun _ hw => absurd hw List.not_mem_nil)
    fun _ _ _ => .inl rfl

theorem Open.updateMessage {a : ℕ} (h : Open marshal log T t tx)
    (hm' : Retried marshal (log.facts see T) m') :
    Open marshal (⟨T, .sql .transaction (.updateMessage m'), .returned a, e⟩ :: log) T t
      ⟨tx.snapshot, tx.writes ++ [.set m'], tx.locks ++ [m'.id]⟩ := by
  obtain ⟨rows, hrows, m, hm, hsame, hstatus⟩ := hm'
  obtain ⟨hlock, hrow, hpending⟩ := h.selected rows hrows m hm
  apply h.update rfl
  · intro hbegan
    rw [hbegan] at hrows
    exact nomatch hrows
  · exact fun m hmem => nomatch List.mem_singleton.mp hmem
  · intro write hwrite
    rw [List.mem_singleton.mp hwrite]
    show m'.id ∈ tx.locks
    rw [← hsame.id]
    exact hlock
  · intro id x hview
    by_cases hid : m'.id = id
    · subst hid
      obtain ⟨y, hy, -⟩ := h.view_selected hrows hm
      rw [hsame.id] at hrow hy
      rw [hview] at hy
      subst hy
      refine .inr ⟨m, m', hrow, hpending, if_pos rfl, hsame, ?_⟩
      cases hstatus with
      | inl hsame =>
          rw [hpending] at hsame
          exact ⟨fun h => (nomatch hsame.symm.trans h), fun h => (nomatch hsame.symm.trans h)⟩
      | inr hfailed =>
          exact ⟨fun h => (nomatch hfailed.1.symm.trans h), fun _ => ⟨T, hfailed.2⟩⟩
    · exact .inl (actAll_of_ne (fun _ hw => List.mem_singleton.mp hw ▸ hid) x)

/-- What a statement of an open transaction leaves of it. -/
theorem Open.statement {q : Stmt} {r : Go42.Done q.Res Write Lock} (h : Open marshal log T t tx)
    (hallowed : Allowed marshal call (log.facts see T) (.sql .transaction q))
    (hrun : q.run now held (applyAll t tx.writes) = .ok r) :
    Open marshal (⟨T, .sql .transaction q, .returned r.answer, e⟩ :: log) T t
      ⟨tx.snapshot, tx.writes ++ r.writes, tx.locks ++ r.locks⟩ := by
  cases q with
  | insertMessage m =>
      unfold Stmt.run at hrun
      dsimp only at hrun
      split at hrun
      case isTrue => cases hrun
      case isFalse hfree =>
        cases hrun
        rw [← row?_eq_none, row?_applyAll] at hfree
        exact h.insertMessage hallowed hfree
  | selectUnprocessed time limit =>
      cases hrun
      exact h.selectUnprocessed hallowed
  | updateProcessed ids processedAt =>
      cases hrun
      exact h.updateProcessed hallowed
  | updateMessage m' =>
      unfold Stmt.run at hrun
      dsimp only at hrun
      split at hrun
      case isTrue =>
        cases hrun
        exact h.updateMessage hallowed
      case isFalse =>
        cases hrun
        exact h.noWrites rfl
  | selectProcessed before limit => exact hallowed.elim
  | deleteProcessed ids before => exact hallowed.elim
  | selectOldestProcessed before => exact hallowed.elim

/-! ## The invariant -/

variable (marshal) in
structure Inv (log : OutboxLog) (w : World) : Prop where
  disjoint : ∀ T T' tx tx', T ≠ T' → w.db.tx? T = some tx → w.db.tx? T' = some tx' →
    ∀ l ∈ tx.locks, l ∉ tx'.locks
  txs : ∀ T tx, w.db.tx? T = some tx → Open marshal log T w.db.committed tx
  rows : ∀ id row, w.db.committed.row? id = some row → Settled marshal log row ∧
    ∃ m, Enqueued log m ∧ Same m row
  kept : ∀ m, Enqueued log m → (∃ row, w.db.committed.row? m.id = some row ∧ Same m row) ∨
    Published marshal log m ∧ Deleted log m.id
  known : ∀ T rows, .selected rows ∈ log.facts see T → ∀ m ∈ rows, ∃ m₀, Enqueued log m₀ ∧ Same m₀ m
  committed : ∀ T m, .committed ∈ log.facts see T → .inserted m ∈ log.facts see T →
    ∃ time, Enqueued log (savedAt m time)

variable {w w' : World} {cmd : Cmd} {o : Outcome (Res cmd)}

/-- What a step of thread `T` makes of the rows, of the transactions of others and of its own. -/
structure Advances (marshal : Event → Except GoError Bytes) (log : OutboxLog) (T : ℕ) (call : Call)
    (cmd : Cmd) (o : Outcome (Res cmd)) (e : List Write) (w w' : World) : Prop where
  others : ∀ T', T' ≠ T → w'.db.tx? T' = w.db.tx? T'
  frame : ∀ T' tx, T' ≠ T → w.db.tx? T' = some tx → ∀ id ∈ tx.locks,
    w'.db.committed.row? id = w.db.committed.row? id
  self : ∀ tx, w'.db.tx? T = some tx → Open marshal (⟨T, cmd, o, e⟩ :: log) T w'.db.committed tx ∧
    ∀ T' tx', T' ≠ T → w.db.tx? T' = some tx' → ∀ l ∈ tx.locks, l ∉ tx'.locks
  rows : ∀ id, Moves marshal log e (w.db.committed.row? id) (w'.db.committed.row? id) ∨
    Purged call cmd e (w.db.committed.row? id) (w'.db.committed.row? id)
  inserts : ∀ m, .insert m ∈ e → cmd = .commit ∧ ∃ row, w'.db.committed.row? m.id = some row ∧ Same m row
  known : ∀ rows, see cmd o = some (.selected rows) → ∀ m ∈ rows, ∃ m₀, Enqueued log m₀ ∧ Same m₀ m
  committed : ∀ m, .committed ∈ (see cmd o).toList ++ log.facts see T →
    .inserted m ∈ (see cmd o).toList ++ log.facts see T →
      ∃ time, Enqueued (⟨T, cmd, o, e⟩ :: log) (savedAt m time)

/-- An eligible row is a processed one. -/
theorem processed_of_processedBefore {before : ℤ} (h : m.processedBefore before = true) :
    m.status = .processed := by
  simpa using (Bool.and_eq_true_iff.mp h).1

theorem Inv.advance (hinv : Inv marshal log w) (h : Advances marshal log T call cmd o e w w') :
    Inv marshal (⟨T, cmd, o, e⟩ :: log) w' := by
  have hlog : log <:+ ⟨T, cmd, o, e⟩ :: log := List.suffix_cons _ _
  constructor
  · intro T₁ T₂ tx₁ tx₂ hne h₁ h₂
    rcases eq_or_ne T₁ T with rfl | hne₁
    · rw [h.others T₂ hne.symm] at h₂
      exact (h.self tx₁ h₁).2 T₂ tx₂ hne.symm h₂
    · rw [h.others T₁ hne₁] at h₁
      rcases eq_or_ne T₂ T with rfl | hne₂
      · exact fun l hl hl' => (h.self tx₂ h₂).2 T₁ tx₁ hne h₁ l hl' hl
      · rw [h.others T₂ hne₂] at h₂
        exact hinv.disjoint T₁ T₂ tx₁ tx₂ hne h₁ h₂
  · intro T' tx htx
    rcases eq_or_ne T' T with rfl | hne
    · exact (h.self tx htx).1
    · rw [h.others T' hne] at htx
      exact (hinv.txs T' tx htx).frame hlog (Log.facts_cons_ne hne.symm) (h.frame T' tx hne htx)
  · intro id row hrow
    cases h.rows id with
    | inr hpurged =>
        obtain ⟨c, before, ids, m, -, -, -, -, hnone, -⟩ := hpurged
        rw [hrow] at hnone
        cases hnone
    | inl hmoves =>
        rw [hrow] at hmoves
        generalize hbefore : w.db.committed.row? id = x at hmoves
        cases hmoves with
        | same =>
            obtain ⟨hsettled, m, hm, hsame⟩ := hinv.rows id row hbefore
            exact ⟨hsettled.mono hlog, m, hm.mono hlog, hsame⟩
        | insert m hinsert hpending =>
            have hm : Enqueued (⟨T, cmd, o, e⟩ :: log) row :=
              ⟨_, List.mem_cons_self, (h.inserts row hinsert).1, hinsert⟩
            exact ⟨⟨fun hs => (nomatch hpending.symm.trans hs), fun hs => (nomatch hpending.symm.trans hs)⟩,
              row, hm, same_refl row⟩
        | settle m₁ m' hpending hsame hsettled =>
            obtain ⟨-, m, hm, hsame'⟩ := hinv.rows id m₁ hbefore
            exact ⟨hsettled.mono hlog, m, hm.mono hlog, hsame'.trans hsame⟩
  · intro m hm
    obtain ⟨r, hr, hcommit, hinsert⟩ := hm
    cases List.mem_cons.mp hr with
    | inl hnew =>
        subst hnew
        exact .inl (h.inserts m hinsert).2
    | inr hold =>
        cases hinv.kept m ⟨r, hold, hcommit, hinsert⟩ with
        | inr hgone => exact .inr ⟨hgone.1.mono hlog, hgone.2.mono hlog⟩
        | inl hkept =>
            obtain ⟨row, hrow, hsame⟩ := hkept
            cases h.rows m.id with
            | inl hmoves =>
                rw [hrow] at hmoves
                obtain ⟨row', hrow', hsame'⟩ := hmoves.some
                exact .inl ⟨row', hrow', hsame.trans hsame'⟩
            | inr hpurged =>
                obtain ⟨c, before, ids, m', -, hcmd, hm', hbefore, -, hdelete⟩ := hpurged
                rw [hrow] at hm'
                cases hm'
                obtain ⟨T', hsent⟩ := (hinv.rows m.id row hrow).1.processed
                  (processed_of_processedBefore hbefore)
                have hpublished : Published marshal log m := ⟨T', hsent.same hsame.symm⟩
                rw [← hsame.id] at hdelete
                exact .inr ⟨hpublished.mono hlog, _, List.mem_cons_self, ids, before, hcmd, hdelete⟩
  · intro T' rows hrows m hm
    cases Log.mem_facts_cons.mp hrows with
    | inl hnew =>
        obtain ⟨m₀, hm₀, hsame⟩ := h.known rows hnew.2 m hm
        exact ⟨m₀, hm₀.mono hlog, hsame⟩
    | inr hold =>
        obtain ⟨m₀, hm₀, hsame⟩ := hinv.known T' rows hold m hm
        exact ⟨m₀, hm₀.mono hlog, hsame⟩
  · intro T' m hcommitted hinserted
    rcases eq_or_ne T T' with rfl | hne
    · rw [Log.facts_cons_self] at hcommitted hinserted
      exact h.committed m hcommitted hinserted
    · rw [Log.facts_cons_ne hne] at hcommitted hinserted
      exact (hinv.committed T' m hcommitted hinserted).imp fun _ hm => hm.mono hlog

/-! ## Every step -/

/-- A step that neither opens a transaction nor writes, and teaches an answer of `Publish` at most. -/
theorem Inv.quiet (hinv : Inv marshal log w) (he : e = []) (hcommitted : w'.db.committed = w.db.committed)
    (hothers : ∀ T', T' ≠ T → w'.db.tx? T' = w.db.tx? T')
    (hself : ∀ tx, w'.db.tx? T = some tx → w.db.tx? T = some tx)
    (hfact : ∀ f ∈ see cmd o, f.isAnswer) : Advances marshal log T call cmd o e w w' where
  others := hothers
  frame := fun _ _ _ _ _ _ => by rw [hcommitted]
  self := by
    intro tx htx
    rw [hcommitted]
    refine ⟨(hinv.txs T tx (hself tx htx)).learn hfact (List.suffix_cons _ _) Log.facts_cons_self, ?_⟩
    exact fun T' tx' hne htx' => hinv.disjoint T T' tx tx' hne.symm (hself tx htx) htx'
  rows := by
    intro id
    rw [hcommitted]
    exact .inl (.same _)
  inserts := fun m hm => by rw [he] at hm; cases hm
  known := by
    intro rows hrows
    exact (hfact _ hrows).elim
  committed := by
    intro m hm hm'
    have hold {f : Fact} (hf : ¬f.isAnswer) (hmem : f ∈ (see cmd o).toList ++ log.facts see T) :
        f ∈ log.facts see T :=
      (List.mem_append.mp hmem).resolve_left fun h => hf (hfact f (Option.mem_toList.mp h))
    exact (hinv.committed T m (hold id hm) (hold id hm')).imp fun _ h => h.mono (List.suffix_cons _ _)

/-- A step that leaves the store as it is. -/
theorem Inv.idle (hinv : Inv marshal log w) (he : e = []) (hdb : w'.db = w.db)
    (hfact : ∀ f ∈ see cmd o, f.isAnswer) : Advances marshal log T call cmd o e w w' :=
  hinv.quiet he (by rw [hdb]) (fun _ _ => by rw [hdb]) (fun _ h => by rwa [hdb] at h) hfact

theorem not_mem_none {f : Fact} {P : Prop} (h : f ∈ (none : Option Fact)) : P := nomatch h

theorem Inv.begin (hinv : Inv marshal log w) {o : Outcome Unit} {ch : Choice}
    (hallowed : log.facts see T = []) (h : exec log T .begin ch w = some (o, e, w')) :
    Advances marshal log T call .begin o e w w' := by
  obtain ⟨rfl, hcases⟩ := exec_begin_cases h
  cases hcases with
  | inr hfailed =>
      obtain ⟨ho, rfl⟩ := hfailed
      apply hinv.idle rfl rfl
      intro f hf
      cases o with
      | returned u => cases ho
      | failed err => exact not_mem_none hf
      | panicked v => exact not_mem_none hf
  | inl hdone =>
      obtain ⟨rfl, rfl⟩ := hdone
      constructor
      · exact fun T' hne => Store.begin_tx_ne hne
      · exact fun _ _ _ _ _ _ => rfl
      · intro tx htx
        have htx : (w.db.begin T).tx? T = some tx := htx
        rw [Store.begin_tx_self] at htx
        cases htx
        exact ⟨open_begin hallowed rfl _, fun _ _ _ _ _ hl => absurd hl List.not_mem_nil⟩
      · exact fun _ => .inl (.same _)
      · exact fun _ hm => absurd hm List.not_mem_nil
      · exact fun _ hrows => nomatch hrows
      · intro m hm
        rw [hallowed] at hm
        exact nomatch hm

theorem Inv.commit (hinv : Inv marshal log w) {o : Outcome Unit} {ch : Choice}
    (h : exec log T .commit ch w = some (o, e, w')) :
    Advances marshal log T call .commit o e w w' := by
  cases exec_commit_cases h with
  | inr hfailed =>
      obtain ⟨ho, rfl, hdb⟩ := hfailed
      apply hinv.idle rfl hdb
      intro f hf
      cases o with
      | returned u => cases ho
      | failed err => exact not_mem_none hf
      | panicked v => exact not_mem_none hf
  | inl hdone =>
      obtain ⟨tx, htx, rfl, hdb⟩ := hdone
      have hopen := hinv.txs T tx htx
      have hrow (id : UUID) : w'.db.committed.row? id = actAll tx.writes id (w.db.committed.row? id) := by
        rw [hdb, Store.commit_of_tx htx]
        exact row?_applyAll tx.writes w.db.committed
      constructor
      · intro T' hne
        rw [hdb, Store.commit_tx_ne hne]
      · intro T' tx' hne htx' id hid
        rw [hrow]
        apply actAll_of_ne
        rintro write hwrite rfl
        exact hinv.disjoint T T' tx tx' hne.symm htx htx' _ (hopen.locked write hwrite) hid
      · intro tx' htx'
        rw [hdb, Store.commit_tx_self] at htx'
        cases htx'
      · intro id
        rw [hrow]
        exact .inl (hopen.moves id)
      · intro m hm
        rw [hrow]
        exact ⟨rfl, hopen.inserts m hm⟩
      · intro rows hrows
        cases o with
        | returned u => exact nomatch hrows
        | failed err => exact nomatch hrows
        | panicked v => exact nomatch hrows
      · intro m _ hm
        have hold : .inserted m ∈ log.facts see T := by
          cases o with
          | returned u => exact (List.mem_cons.mp hm).resolve_left fun heq => nomatch heq
          | failed err => exact hm
          | panicked v => exact hm
        obtain ⟨time, hinsert⟩ := hopen.inserted m hold
        exact ⟨time, _, List.mem_cons_self, rfl, hinsert⟩

theorem Inv.rollback (hinv : Inv marshal log w) {o : Outcome Unit} {ch : Choice}
    (h : exec log T .rollback ch w = some (o, e, w')) :
    Advances marshal log T call .rollback o e w w' := by
  have hfact : ∀ f ∈ see .rollback o, f.isAnswer := fun f hf => not_mem_none hf
  obtain ⟨rfl, hdb⟩ := exec_rollback_cases h
  cases hdb with
  | inr hsame => exact hinv.idle rfl hsame hfact
  | inl hdone =>
      apply hinv.quiet rfl (by rw [hdone, Store.rollback_committed]) _ _ hfact
      · intro T' hne
        rw [hdone, Store.rollback_tx_ne hne]
      · intro tx htx
        rw [hdone, Store.rollback_tx_self] at htx
        cases htx

/-- A statement that fails teaches nothing. -/
theorem see_sql_failed {conn : Conn} {q : Stmt} {o : Outcome q.Res} (ho : o.isReturned = false) :
    see (.sql conn q) o = none := by
  cases o with
  | returned a => cases ho
  | failed err => cases conn <;> cases q <;> rfl
  | panicked v => cases conn <;> cases q <;> rfl

theorem see_sql_ne_committed (conn : Conn) (q : Stmt) (o : Outcome q.Res) :
    see (.sql conn q) o ≠ some .committed := by
  intro h
  unfold see at h
  split at h
  case h_1 => cases h
  case h_2 => cases h
  case h_3 => cases h
  case h_4 => cases h
  case h_5 => cases h
  case h_6 heq _ => cases heq
  case h_7 => cases h

/-- What is selected was enqueued. -/
theorem Inv.known_of_run (hinv : Inv marshal log w) (htx : w.db.tx? T = some tx) {q : Stmt}
    {r : Go42.Done q.Res Write Lock} (hallowed : Allowed marshal call (log.facts see T) (.sql .transaction q))
    (hrun : q.run now held (applyAll w.db.committed tx.writes) = .ok r) :
    ∀ rows, see (.sql .transaction q) (.returned r.answer) = some (.selected rows) →
      ∀ m ∈ rows, ∃ m₀, Enqueued log m₀ ∧ Same m₀ m := by
  intro rows hrows m hm
  cases q with
  | insertMessage m' => cases hrows
  | updateProcessed ids processedAt => cases hrows
  | updateMessage m' => cases hrows
  | selectProcessed before limit => cases hrows
  | deleteProcessed ids before => cases hrows
  | selectOldestProcessed before => cases hrows
  | selectUnprocessed time limit =>
      cases hrun
      cases hrows
      rw [(hinv.txs T tx htx).fresh hallowed, applyAll_nil] at hm
      exact (hinv.rows m.id m (row?_of_mem (mem_unprocessed hm).1)).2

theorem Inv.statement (hinv : Inv marshal log w) {q : Stmt} {o : Outcome q.Res} {ch : Choice}
    (hallowed : Allowed marshal call (log.facts see T) (.sql .transaction q))
    (h : exec log T (.sql .transaction q) ch w = some (o, e, w')) :
    Advances marshal log T call (.sql .transaction q) o e w w' := by
  cases exec_sql_cases h with
  | inl hfailed =>
      obtain ⟨ho, rfl, rfl⟩ := hfailed
      apply hinv.idle rfl rfl
      rw [see_sql_failed ho]
      exact fun f hf => not_mem_none hf
  | inr hdone =>
      obtain ⟨t, r, hview, hrun, hfree, rfl, hwrite⟩ := hdone
      obtain ⟨tx, htx, rfl⟩ := Store.view_eq_some hview
      have hopen := hinv.txs T tx htx
      have he : e = [] := (congrArg Prod.fst hwrite).trans (by simp [Store.write, htx])
      have hdb : w'.db = (w.db.write T r.writes r.locks .transaction).2 := congrArg Prod.snd hwrite
      have hcommitted : w'.db.committed = w.db.committed := by
        rw [hdb, Store.write_committed]
        simp [Store.write, htx]
      subst he
      constructor
      · intro T' hne
        rw [hdb, Store.write_tx_ne hne]
      · intro _ _ _ _ _ _
        rw [hcommitted]
      · intro tx' htx'
        rw [hdb, Store.write_tx_self htx] at htx'
        cases htx'
        rw [hcommitted]
        refine ⟨hopen.statement hallowed hrun, ?_⟩
        intro T' tx' hne htx' l hl hl'
        cases List.mem_append.mp hl with
        | inl hold => exact hinv.disjoint T T' tx tx' hne.symm htx htx' l hold hl'
        | inr hnew =>
            have hconflict := Store.lockedByOther_eq_false.mp (hfree l hnew) T' tx' hne htx' l hl'
            simp at hconflict
      · intro id
        rw [hcommitted]
        exact .inl (.same _)
      · exact fun _ hm => absurd hm List.not_mem_nil
      · exact hinv.known_of_run htx hallowed hrun
      · intro m hm
        cases List.mem_append.mp hm with
        | inl hnew => exact absurd (Option.mem_toList.mp hnew) (see_sql_ne_committed _ _ _)
        | inr hold => exact absurd hold hopen.goesOn

/-- The table without the rows that a cleaner deletes. -/
theorem Inv.delete (hinv : Inv marshal log w) {ids : List UUID} {before : ℤ} {o : Outcome ℕ} {ch : Choice}
    (hallowed : Allowed marshal call (log.facts see T) (.sql .primary (.deleteProcessed ids before)))
    (h : exec log T (.sql .primary (.deleteProcessed ids before)) ch w = some (o, e, w')) :
    Advances marshal log T call (.sql .primary (.deleteProcessed ids before)) o e w w' := by
  obtain ⟨hfacts, c, rfl⟩ := hallowed
  have hnoTx : w.db.tx? T = none := by
    cases htx : w.db.tx? T with
    | none => rfl
    | some tx => exact absurd hfacts (hinv.txs T tx htx).began
  cases exec_sql_cases h with
  | inl hfailed =>
      obtain ⟨-, rfl, rfl⟩ := hfailed
      exact hinv.idle rfl rfl fun f hf => not_mem_none hf
  | inr hdone =>
      obtain ⟨t, r, hview, hrun, hfree, rfl, hwrite⟩ := hdone
      cases hview
      cases hrun
      have he : e = _ := congrArg Prod.fst hwrite
      have hdb : w'.db = _ := congrArg Prod.snd hwrite
      dsimp only [Store.write] at he hdb
      have hrow (id : UUID) : w'.db.committed.row? id = actAll e id (w.db.committed.row? id) := by
        rw [hdb, he]
        exact row?_applyAll _ w.db.committed
      have hdeleted (id : UUID) (x : Option OutboxMessage) : actAll e id x =
          if id ∈ (w.db.committed.rows.filter fun m => ids.contains m.id && m.processedBefore before).map
            OutboxMessage.id then none else x := by
        rw [he]
        exact actAll_delete _ x
      constructor
      · intro T' _
        rw [hdb]
        rfl
      · intro T' tx hne htx id hid
        rw [hrow, hdeleted, if_neg]
        intro hmem
        have hconflict := Store.lockedByOther_eq_false.mp (hfree id hmem) T' tx hne htx id hid
        simp at hconflict
      · intro tx htx
        have hsame : w'.db.tx? T = w.db.tx? T := by rw [hdb]; rfl
        rw [hsame, hnoTx] at htx
        cases htx
      · intro id
        rw [hrow, hdeleted]
        split
        case isFalse => exact .inl (.same _)
        case isTrue hmem =>
          obtain ⟨m, hm, rfl⟩ := List.mem_map.mp hmem
          obtain ⟨hrow, helig⟩ := List.mem_filter.mp hm
          refine .inr ⟨c, before, ids, m, rfl, rfl, row?_of_mem hrow, (Bool.and_eq_true_iff.mp helig).2, rfl, ?_⟩
          rw [he]
          exact List.mem_map_of_mem hm
      · intro m hm
        rw [he] at hm
        obtain ⟨m', -, heq⟩ := List.mem_map.mp hm
        cases heq
      · exact fun _ hrows => nomatch hrows
      · exact fun m hm hm' => (hinv.committed T m hm hm').imp fun _ h => h.mono (List.suffix_cons _ _)

/-- A statement that only reads. -/
theorem Inv.read (hinv : Inv marshal log w) {q : Stmt} {o : Outcome q.Res} {ch : Choice}
    (hreads : ∀ now held t r, q.run now held t = .ok r → r.writes = [])
    (hsee : see (.sql .primary q) o = none)
    (h : exec log T (.sql .primary q) ch w = some (o, e, w')) :
    Advances marshal log T call (.sql .primary q) o e w w' := by
  have hfact : ∀ f ∈ see (.sql .primary q) o, f.isAnswer := by
    rw [hsee]
    exact fun f hf => not_mem_none hf
  cases exec_sql_cases h with
  | inl hfailed =>
      obtain ⟨-, rfl, rfl⟩ := hfailed
      exact hinv.idle rfl rfl hfact
  | inr hdone =>
      obtain ⟨t, r, hview, hrun, -, -, hwrite⟩ := hdone
      have he : e = r.writes := congrArg Prod.fst hwrite
      have hdb : w'.db = (w.db.write T r.writes r.locks .primary).2 := congrArg Prod.snd hwrite
      rw [hreads _ _ _ _ hrun] at he hdb
      exact hinv.idle he hdb hfact

theorem Inv.advances (hinv : Inv marshal log w) {ch : Choice}
    (hallowed : Allowed marshal call (log.facts see T) cmd) (h : exec log T cmd ch w = some (o, e, w')) :
    Advances marshal log T call cmd o e w w' := by
  cases cmd with
  | begin => exact hinv.begin hallowed h
  | commit => exact hinv.commit h
  | rollback => exact hinv.rollback h
  | now =>
      obtain ⟨-, he, hdb⟩ := exec_now h
      exact hinv.idle he hdb fun f hf => not_mem_none hf
  | ctxErr =>
      obtain ⟨-, he, rfl⟩ := exec_ctxErr h
      exact hinv.idle he rfl fun f hf => not_mem_none hf
  | jitter delay =>
      obtain ⟨-, he, rfl⟩ := exec_jitter h
      exact hinv.idle he rfl fun f hf => not_mem_none hf
  | publish topic id payload =>
      obtain ⟨he, rfl⟩ := exec_publish h
      apply hinv.idle he rfl
      intro f hf
      cases o with
      | returned u => cases hf; trivial
      | failed err => cases hf; trivial
      | panicked v => exact not_mem_none hf
  | sql conn q =>
      cases conn with
      | transaction => exact hinv.statement hallowed h
      | primary =>
          cases q with
          | deleteProcessed ids before => exact hinv.delete hallowed h
          | selectProcessed before limit =>
              exact hinv.read (fun _ _ _ r hrun => by cases hrun; rfl) rfl h
          | selectOldestProcessed before =>
              apply hinv.read _ rfl h
              intro _ _ _ r hrun
              unfold Stmt.run at hrun
              dsimp only at hrun
              split at hrun
              case h_1 => cases hrun
              case h_2 => cases hrun; rfl
          | insertMessage m => exact hallowed.elim
          | selectUnprocessed now limit => exact hallowed.elim
          | updateProcessed ids processedAt => exact hallowed.elim
          | updateMessage m => exact hallowed.elim

/-- A connection that is lost. -/
theorem Inv.loseConnection (hinv : Inv marshal log w) (T : ℕ) : Inv marshal log (loseConnection T w) := by
  have htx {T' : ℕ} {tx : Tx Tables Write Lock} (h : (Lifecycle.loseConnection T w).db.tx? T' = some tx) :
      w.db.tx? T' = some tx := by
    have h : (w.db.rollback T).tx? T' = some tx := h
    rcases eq_or_ne T' T with rfl | hne
    · rw [Store.rollback_tx_self] at h
      cases h
    · rwa [Store.rollback_tx_ne hne] at h
  exact ⟨fun T₁ T₂ tx₁ tx₂ hne h₁ h₂ => hinv.disjoint T₁ T₂ tx₁ tx₂ hne (htx h₁) (htx h₂),
    fun T' tx h => hinv.txs T' tx (htx h), hinv.rows, hinv.kept, hinv.known, hinv.committed⟩

theorem inv_init (clock : ℤ) : Inv marshal [] (plain emptyTables clock) where
  disjoint := fun _ _ _ _ _ h => nomatch h
  txs := fun _ _ h => nomatch h
  rows := fun _ _ h => nomatch h
  kept := fun _ h => nomatch h.choose_spec.1
  known := fun _ _ h => nomatch h
  committed := fun _ _ h => nomatch h

theorem outbox_sound : (outbox marshal).Sound see (Allowed marshal) Post (Inv marshal) where
  body := body_spec
  step := fun hinv hallowed h => hinv.advance (hinv.advances hallowed h)
  env := fun hinv h => by cases h; exact hinv.loseConnection _
  crash := fun hinv => hinv.loseConnection _

/-! ## Every run -/

/-- Where a message is that was enqueued. -/
inductive Accounted (marshal : Event → Except GoError Bytes) (log : OutboxLog) (t : Tables)
    (m : OutboxMessage) : Prop where
  | pending (row : OutboxMessage) : row ∈ t.rows → Same m row → row.status = .pending →
      Accounted marshal log t m
  | failed (row : OutboxMessage) : row ∈ t.rows → Same m row → row.status = .failed →
      Rejected marshal log m → Accounted marshal log t m
  | processed (row : OutboxMessage) : row ∈ t.rows → Same m row → row.status = .processed →
      Published marshal log m → Accounted marshal log t m
  | deleted : Deleted log m.id → Published marshal log m → Accounted marshal log t m

theorem Inv.accounted (hinv : Inv marshal log w) (hm : Enqueued log m) :
    Accounted marshal log w.db.committed m := by
  cases hinv.kept m hm with
  | inr hgone => exact .deleted hgone.2 hgone.1
  | inl hkept =>
      obtain ⟨row, hrow, hsame⟩ := hkept
      have hsettled := (hinv.rows m.id row hrow).1
      have hmem := mem_of_row? hrow
      cases hstatus : row.status with
      | pending => exact .pending row hmem hsame hstatus
      | failed =>
          obtain ⟨T, hrefused⟩ := hsettled.failed hstatus
          exact .failed row hmem hsame hstatus ⟨T, hrefused.same hsame.symm⟩
      | processed =>
          obtain ⟨T, hsent⟩ := hsettled.processed hstatus
          exact .processed row hmem hsame hstatus ⟨T, hsent.same hsame.symm⟩

/-- What holds in every state of the outbox. -/
structure Lossless (marshal : Event → Except GoError Bytes) (s : (outbox marshal).State) : Prop where
  accounted : ∀ m, Enqueued s.log m → Accounted marshal s.log s.world.db.committed m
  /-- A transaction that has returned nil has enqueued all that it saved. -/
  enqueued : ∀ T tx, s.Finished T (.enqueue tx) (.returned ()) → ∀ m, .inserted m ∈ s.log.facts see T →
    ∃ time, Enqueued s.log (savedAt m time)
  /-- Only messages are published whose transactions had committed. -/
  published : ∀ r log, r :: log <:+ s.log → ∀ topic id payload, r.cmd = .publish topic id payload →
    ∃ m, Enqueued log m ∧ m.topic = topic ∧ m.id = id ∧ marshal m.event = .ok payload
  /-- A row stays in the table, and as it is once it is settled, until a cleaner deletes it. -/
  final : ∀ a s', (outbox marshal).next s a = some s' → ∀ row ∈ s.world.db.committed.rows,
    (∃ row' ∈ s'.world.db.committed.rows, Same row row' ∧ (row.status ≠ .pending → row' = row)) ∨
      row.status = .processed ∧ ∃ T ch c before p, a = .step T ch ∧
        s.pool[T]? = some ⟨.clean c before, p⟩ ∧ row.processedBefore before = true

theorem outbox_lossless {clock : ℤ} {as : List (Action Choice Call ℕ)} {s : (outbox marshal).State}
    (hrun : (outbox marshal).run ((outbox marshal).init (plain emptyTables clock)) as = some s) :
    Lossless marshal s := by
  have hg := (System.Good.init (inv_init clock)).run outbox_sound hrun
  constructor
  · exact fun m hm => hg.inv.accounted hm
  · intro T tx hfinished m hm
    have hcommitted := hg.finished hfinished tx rfl rfl
    exact hg.inv.committed T m hcommitted hm
  · intro r log hsuf topic id payload hcmd
    obtain ⟨s₁, s₂, ch, call, hg₁, rfl, hallowed, -⟩ :=
      System.Good.record outbox_sound (inv_init clock) hrun hsuf
    rw [hcmd] at hallowed
    obtain ⟨rows, hrows, m, hm, rfl, rfl, hjson⟩ := hallowed
    obtain ⟨m₀, hm₀, hsame⟩ := hg₁.inv.known r.thread rows hrows m hm
    exact ⟨m₀, hm₀, hsame.1, hsame.id, hsame.2 ▸ hjson⟩
  · intro a s' hnext row hrow
    have hsame : ∃ row' ∈ s.world.db.committed.rows, Same row row' ∧ (row.status ≠ .pending → row' = row) :=
      ⟨row, hrow, same_refl row, fun _ => rfl⟩
    cases a with
    | spawn call => cases hnext; exact .inl hsame
    | env _ => cases hnext; exact .inl hsame
    | crash _ =>
        simp only [System.next] at hnext
        split at hnext
        · cases hnext; exact .inl hsame
        · cases hnext
    | step T ch =>
        obtain ⟨call, cmd, k, o, e, w, hT, hM, rfl⟩ := System.stepThread_eq_some.mp hnext
        have hM : exec s.log T cmd ch s.world = some (o, e, w) := hM
        cases (hg.inv.advances (hg.live hT).1 hM).rows row.id with
        | inl hmoves =>
            rw [row?_of_mem hrow] at hmoves
            obtain ⟨row', hrow', hsame⟩ := hmoves.some
            refine .inl ⟨row', mem_of_row? hrow', hsame, fun hstatus => ?_⟩
            exact Option.some.inj (hrow'.symm.trans (hmoves.eq_of_ne_pending hstatus))
        | inr hpurged =>
            obtain ⟨c, before, ids, m, rfl, -, hm, hbefore, -⟩ := hpurged
            rw [row?_of_mem hrow] at hm
            cases hm
            exact .inr ⟨processed_of_processedBefore hbefore, T, ch, c, before, _, rfl, hT, hbefore⟩

/-- A transaction that saves one message. -/
def enqueueOne : Enqueues where
  body := sql .transaction (.insertMessage (newRow "a" "auth" ⟨42, .utf8 "user.created", none⟩))
  issues := ⟨⟨"a", "auth", ⟨42, .utf8 "user.created", none⟩, rfl⟩, fun _ => trivial⟩

/-- The message is published and processed, and then deleted by a cleaner. -/
def publishAndClean : List (Action Choice Call ℕ) :=
  [.spawn (.enqueue enqueueOne), .step 0 .run, .step 0 .run, .step 0 .run,
    .spawn (.publish 1 1 10), .step 1 .run, .step 1 (.time 1), .step 1 .run, .step 1 .run,
    .step 1 (.ctx none), .step 1 (.time 2), .step 1 .run, .step 1 .run,
    .spawn (.clean ⟨10, 1⟩ 100), .step 2 (.ctx none), .step 2 .run, .step 2 .run]

theorem publishAndClean_run : ∃ s, (outbox fun _ => .ok []).run
    ((outbox fun _ => .ok []).init (plain emptyTables 0)) publishAndClean = some s ∧
      s.world.db.committed.rows = [] ∧ (s.finished? 1).map Prod.snd = some (.returned ()) :=
  System.exists_of_any (by decide +kernel)

theorem outbox_lossless_one : ∃ s, (outbox fun _ => .ok []).run
    ((outbox fun _ => .ok []).init (plain emptyTables 0)) publishAndClean = some s ∧
      s.world.db.committed.rows = [] ∧ Lossless (fun _ => .ok []) s := by
  obtain ⟨s, hrun, hrows, -⟩ := publishAndClean_run
  exact ⟨s, hrun, hrows, outbox_lossless hrun⟩

end Go42.Outbox.Lifecycle
