-- SUMMARY: One run of the outbox publisher: which messages of the batch it publishes, how it ends, and what it commits.
import Go42.Outbox.Publisher

/-!
# One run of the outbox publisher

An attempt is what happened to one message of the batch: the answer of `Publish`, the state
of the context afterwards and, for a failure that counts, its time and the delay that was
drawn for it.
-/

namespace Go42.Outbox

open Events (errPublishCapacity isPermanent CtxErr)

/-! ## Attempts -/

structure Attempt where
  message : OutboxMessage
  payload : Bytes
  result : Outcome Unit
  ctxErr : Option CtxErr
  failedAt : ℤ
  delay : ℤ

abbrev OutboxRecord := Record Cmd Res (List Write)

namespace Attempt

variable (p : OutboxMessagePublisher) (T : ℕ) (a : Attempt)

/-- The loop goes on to the next message. -/
def goesOn : Bool :=
  a.ctxErr.isNone && match a.result with
    | .returned _ => true
    | .failed err => !err.is errPublishCapacity && !err.is CtxErr.deadlineExceeded.err
    | .panicked _ => false

/-- The loop did not end in an error. -/
def isSettled : Bool :=
  a.ctxErr.isNone && match a.result with
    | .panicked _ => false
    | _ => true

/-- What the worker did, first things first. -/
def records : List OutboxRecord :=
  ⟨T, .publish a.message.topic a.message.id a.payload, a.result, []⟩ ::
    match a.result with
    | .panicked _ => []
    | .returned _ => [⟨T, .ctxErr, .returned a.ctxErr, []⟩]
    | .failed err => ⟨T, .ctxErr, .returned a.ctxErr, []⟩ ::
      if a.ctxErr.isSome || err.is errPublishCapacity then []
      else [⟨T, .now, .returned a.failedAt, []⟩,
        ⟨T, .jitter (backoff p a.message.countedRetry), .returned a.delay, []⟩]

/-- The message, if it was published. -/
def published : Option OutboxMessage :=
  match a.result with
  | .returned _ => some a.message
  | _ => none

/-- The row to save, if it failed. -/
def failedRow : Option OutboxMessage :=
  match a.result with
  | .failed err =>
    if err.is errPublishCapacity then none
    else some (a.message.afterFailure err (a.failedAt + a.delay))
  | _ => none

variable {a}

theorem ctxErr_of_goesOn (h : a.goesOn = true) : a.ctxErr = none :=
  Option.isNone_iff_eq_none.mp (Bool.and_eq_true_iff.mp h).1

theorem ctxErr_of_isSettled (h : a.isSettled = true) : a.ctxErr = none :=
  Option.isNone_iff_eq_none.mp (Bool.and_eq_true_iff.mp h).1

end Attempt

/-- The attempts of the loop over `messages`: one for each message of a prefix, each but the
last one letting the loop go on, and none is left out unless the last one stopped it. -/
structure Tries (p : OutboxMessagePublisher) (messages : List OutboxMessage)
    (attempts : List Attempt) : Prop where
  inOrder : attempts.map Attempt.message <+: messages
  encoded : ∀ a ∈ attempts, p.marshal a.message.event = .ok a.payload
  goOn : ∀ a ∈ attempts.dropLast, a.goesOn = true
  complete : attempts.map Attempt.message = messages ∨
    ∃ a, attempts.getLast? = some a ∧ a.goesOn = false

/-- How the loop ends. -/
def LoopEnd (processed failed : List OutboxMessage) (attempts : List Attempt) :
    Outcome (List OutboxMessage × List OutboxMessage) → Prop
  | .returned r => (∀ a ∈ attempts, a.isSettled = true) ∧
      r = (processed ++ attempts.filterMap Attempt.published,
        failed ++ attempts.filterMap Attempt.failedRow)
  | .failed err => ∀ a ∈ attempts, ∀ e, a.ctxErr = some e → err = e.err
  | .panicked _ => ∀ a ∈ attempts, a.ctxErr = none

variable {p : OutboxMessagePublisher} {T : ℕ}

theorem tries_nil : Tries p [] [] :=
  ⟨List.prefix_refl _, fun _ ha => absurd ha List.not_mem_nil, fun _ ha => absurd ha List.not_mem_nil,
    .inl rfl⟩

/-- The last attempt. -/
theorem tries_stop {a : Attempt} {messages : List OutboxMessage}
    (hpayload : p.marshal a.message.event = .ok a.payload) (hstop : a.goesOn = false) :
    Tries p (a.message :: messages) [a] where
  inOrder := ⟨messages, rfl⟩
  encoded := fun _ hb => List.mem_singleton.mp hb ▸ hpayload
  goOn := fun _ hb => absurd hb List.not_mem_nil
  complete := .inr ⟨a, rfl, hstop⟩

/-- An attempt before others. -/
theorem tries_cons {a : Attempt} {messages : List OutboxMessage} {attempts : List Attempt}
    (hpayload : p.marshal a.message.event = .ok a.payload) (hgo : a.goesOn = true)
    (h : Tries p messages attempts) : Tries p (a.message :: messages) (a :: attempts) where
  inOrder := (List.prefix_cons_inj _).mpr h.inOrder
  encoded := List.forall_mem_cons.mpr ⟨hpayload, h.encoded⟩
  goOn := by
    cases attempts with
    | nil => exact fun _ hb => absurd hb List.not_mem_nil
    | cons b attempts => exact List.forall_mem_cons.mpr ⟨hgo, h.goOn⟩
  complete := by
    rcases h.complete with hall | ⟨b, hb, hstop⟩
    · exact .inl (congrArg _ hall)
    · refine .inr ⟨b, ?_, hstop⟩
      rw [List.getLast?_cons, hb]
      rfl

/-! ## The loop -/

/-- What is true of the loop over `messages` that started at `log` and `w`. -/
def LoopPost (p : OutboxMessagePublisher) (T : ℕ) (messages processed failed : List OutboxMessage)
    (log : OutboxLog) (w : World) (o : Outcome (List OutboxMessage × List OutboxMessage))
    (log' : OutboxLog) (w' : World) : Prop :=
  ∃ attempts, w'.db = w.db ∧ log' = (attempts.flatMap (Attempt.records p T)).reverse ++ log ∧
    Tries p messages attempts ∧ LoopEnd processed failed attempts o

/-- The loop ends with this attempt. -/
theorem loopPost_stop {a : Attempt} {messages processed failed : List OutboxMessage}
    {log : OutboxLog} {w w' : World} {o : Outcome (List OutboxMessage × List OutboxMessage)}
    (hdb : w'.db = w.db) (hpayload : p.marshal a.message.event = .ok a.payload)
    (hstop : a.goesOn = false) (hend : LoopEnd processed failed [a] o) :
    LoopPost p T (a.message :: messages) processed failed log w o ((a.records p T).reverse ++ log)
      w' :=
  ⟨[a], hdb, by rw [List.flatMap_singleton], tries_stop hpayload hstop, hend⟩

/-- The loop goes on after this attempt. -/
theorem loopPost_cons {a : Attempt} {messages processed failed : List OutboxMessage}
    {log log' : OutboxLog} {w w₁ w' : World}
    {o : Outcome (List OutboxMessage × List OutboxMessage)} (hdb : w₁.db = w.db)
    (hpayload : p.marshal a.message.event = .ok a.payload) (hgo : a.goesOn = true)
    (h : LoopPost p T messages (processed ++ a.published.toList) (failed ++ a.failedRow.toList)
      ((a.records p T).reverse ++ log) w₁ o log' w') :
    LoopPost p T (a.message :: messages) processed failed log w o log' w' := by
  obtain ⟨attempts, hdb', hlog, htries, hend⟩ := h
  refine ⟨a :: attempts, hdb'.trans hdb, ?_, tries_cons hpayload hgo htries, ?_⟩
  · rw [hlog, List.flatMap_cons, List.reverse_append, List.append_assoc]
  · have hctx : a.ctxErr = none := Attempt.ctxErr_of_goesOn hgo
    cases o with
    | returned r =>
        obtain ⟨hsettled, hr⟩ := hend
        refine ⟨List.forall_mem_cons.mpr ⟨?_, hsettled⟩, ?_⟩
        · unfold Attempt.goesOn at hgo
          unfold Attempt.isSettled
          cases hresult : a.result with
          | returned _ => simp [hctx]
          | failed err => simp [hctx]
          | panicked v => simp [hresult] at hgo
        · rw [hr]
          cases hpublished : a.published <;> cases hfailed : a.failedRow <;>
            simp [hpublished, hfailed]
    | failed err =>
        refine List.forall_mem_cons.mpr ⟨fun e he => ?_, hend⟩
        rw [hctx] at he
        cases he
    | panicked v => exact List.forall_mem_cons.mpr ⟨hctx, hend⟩

/-- The whole loop, by recursion on the messages that are left. -/
theorem publishLoop_wlp : ∀ {messages processed failed : List OutboxMessage} {log : OutboxLog}
    {w : World}, (∀ m ∈ messages, ∃ payload, p.marshal m.event = .ok payload) →
      (publishLoop p messages processed failed).wlp exec T
        (LoopPost p T messages processed failed log w) log w
  | [], processed, failed, log, w, _ =>
    ⟨[], rfl, rfl, tries_nil, fun _ ha => absurd ha List.not_mem_nil, by simp⟩
  | message :: messages, processed, failed, log, w, hjson => by
      obtain ⟨⟨payload, hpayload⟩, hrest⟩ := List.forall_mem_cons.mp hjson
      unfold publishLoop
      rw [hpayload]
      intro ch result e w₁ hpublish
      obtain ⟨rfl, rfl⟩ := exec_publish hpublish
      cases result with
      | panicked v =>
          apply loopPost_stop (a := ⟨message, payload, .panicked v, none, 0, 0⟩) rfl hpayload rfl
          exact fun a ha => List.mem_singleton.mp ha ▸ rfl
      | returned u =>
          intro ch ctx e w₂ hctx
          obtain ⟨⟨c, rfl⟩, rfl, rfl⟩ := exec_ctxErr hctx
          cases c with
          | some err =>
              apply loopPost_stop (a := ⟨message, payload, .returned u, some err, 0, 0⟩) rfl hpayload rfl
              exact fun a ha e he => by
                rw [List.mem_singleton.mp ha] at he
                cases he
                rfl
          | none =>
              refine (publishLoop_wlp hrest).mono fun o log' w' hpost => ?_
              apply loopPost_cons (a := ⟨message, payload, .returned u, none, 0, 0⟩) rfl hpayload rfl
              simpa [Attempt.records, Attempt.published, Attempt.failedRow] using hpost
      | failed err =>
          intro ch ctx e w₂ hctx
          obtain ⟨⟨c, rfl⟩, rfl, rfl⟩ := exec_ctxErr hctx
          cases c with
          | some err' =>
              apply loopPost_stop (a := ⟨message, payload, .failed err, some err', 0, 0⟩) rfl hpayload rfl
              exact fun a ha e he => by
                rw [List.mem_singleton.mp ha] at he
                cases he
                rfl
          | none =>
              dsimp only [Prog.handle_done, Prog.leave_returned]
              split
              · next hcapacity =>
                have hstop : LoopPost p T (message :: messages) processed failed log w₂
                    (.returned (processed, failed))
                    ((Attempt.records p T ⟨message, payload, .failed err, none, 0, 0⟩).reverse ++ log)
                    w₂ := by
                  apply loopPost_stop rfl hpayload
                  · simp [Attempt.goesOn, hcapacity]
                  · simp [LoopEnd, Attempt.isSettled, Attempt.published, Attempt.failedRow, hcapacity]
                simpa [Attempt.records, hcapacity] using hstop
              · next hcapacity =>
                intro ch now e w₃ hnow
                obtain ⟨⟨failedAt, rfl⟩, rfl, hdb⟩ := exec_now hnow
                intro ch delay e w₄ hjitter
                obtain ⟨⟨delay, rfl⟩, rfl, rfl⟩ := exec_jitter hjitter
                dsimp only [Prog.handle_done, Prog.leave_returned]
                split
                · next hdeadline =>
                  have hstop : LoopPost p T (message :: messages) processed failed log w₂
                      (.returned (processed, failed ++ [message.afterFailure err (failedAt + delay)]))
                      ((Attempt.records p T
                        ⟨message, payload, .failed err, none, failedAt, delay⟩).reverse ++ log) w₄ := by
                    apply loopPost_stop hdb hpayload
                    · simp [Attempt.goesOn, hdeadline]
                    · simp [LoopEnd, Attempt.isSettled, Attempt.published, Attempt.failedRow,
                        hcapacity]
                  simpa [Attempt.records, hcapacity] using hstop
                · next hdeadline =>
                  refine (publishLoop_wlp hrest).mono fun o log' w' hpost => ?_
                  apply loopPost_cons (a := ⟨message, payload, .failed err, none, failedAt, delay⟩)
                    hdb hpayload
                  · simp [Attempt.goesOn, hcapacity, hdeadline]
                  · simpa [Attempt.records, Attempt.published, Attempt.failedRow, hcapacity] using hpost

/-! ## What is saved -/

/-- The row of a message after its attempt, once the run has committed. -/
def Attempt.row (a : Attempt) (processedAt : ℤ) : OutboxMessage :=
  match a.result with
  | .returned _ => a.message.markProcessed processedAt
  | .failed err =>
    if err.is errPublishCapacity then a.message
    else { a.message with
      retryCount := min (a.message.retryCount + 1) maxInt32
      lastError := err.text
      status := if isPermanent err then .failed else .pending
      nextAttemptAt := if isPermanent err then none else some (a.failedAt + a.delay) }
  | .panicked _ => a.message

/-- A row after the run: that of its attempt, or as it was. -/
def settle (attempts : List Attempt) (processedAt : ℤ) (row : OutboxMessage) : OutboxMessage :=
  match attempts.find? (·.message.id = row.id) with
  | some a => a.row processedAt
  | none => row

/-- The writes of `SaveProcessedMessages` and `SaveFailedMessages`. -/
def saves (rows : List OutboxMessage) (attempts : List Attempt) (processedAt : ℤ) : List OutboxMessage :=
  ((rows.filter fun m =>
      ((attempts.filterMap Attempt.published).map OutboxMessage.id).contains m.id).map
        (·.markProcessed processedAt)) ++
    attempts.filterMap Attempt.failedRow

theorem applyAll_set (t : Tables) : ∀ ms : List OutboxMessage,
    (applyAll t (ms.map Write.set)).rows = t.rows.map fun x => ms.foldl (fun x m => m.replace x) x := by
  intro ms
  induction ms generalizing t with
  | nil => simp
  | cons m ms ih =>
      rw [List.map_cons, applyAll_cons, ih]
      simp [apply, Tables.applyWrite, Function.comp_def]

theorem foldl_replace_id (ms : List OutboxMessage) (x : OutboxMessage) :
    (ms.foldl (fun x m => m.replace x) x).id = x.id := by
  induction ms generalizing x with
  | nil => rfl
  | cons m ms ih => rw [List.foldl_cons, ih, OutboxMessage.replace_id]

/-- Rows with other ids make no difference. -/
theorem foldl_replace_ne {ms : List OutboxMessage} {x : OutboxMessage} (h : ∀ m ∈ ms, m.id ≠ x.id) :
    ms.foldl (fun x m => m.replace x) x = x := by
  induction ms with
  | nil => rfl
  | cons m ms ih =>
      obtain ⟨hm, hms⟩ := List.forall_mem_cons.mp h
      rw [List.foldl_cons, OutboxMessage.replace, if_neg (Ne.symm hm), ih hms]

/-- The one row with the same id takes the place of `x`. -/
theorem foldl_replace_mem {ms : List OutboxMessage} {m x : OutboxMessage}
    (hnodup : (ms.map OutboxMessage.id).Nodup) (hm : m ∈ ms) (hid : m.id = x.id) :
    ms.foldl (fun x m => m.replace x) x = m := by
  induction ms generalizing x with
  | nil => cases hm
  | cons m' ms ih =>
      obtain ⟨hnew, hnodup⟩ := List.nodup_cons.mp hnodup
      rw [List.foldl_cons]
      rcases List.mem_cons.mp hm with rfl | hm
      · rw [OutboxMessage.replace, if_pos hid.symm]
        apply foldl_replace_ne
        intro m' hm' heq
        exact hnew (heq ▸ List.mem_map_of_mem hm')
      · exact ih hnodup hm (hid.trans (OutboxMessage.replace_id m' x).symm)

/-- No two attempts are about one message. -/
theorem attempt_unique {attempts : List Attempt}
    (hnodup : ((attempts.map Attempt.message).map OutboxMessage.id).Nodup) {a b : Attempt}
    (ha : a ∈ attempts) (hb : b ∈ attempts) (hid : a.message.id = b.message.id) : a = b := by
  rw [List.map_map] at hnodup
  exact List.inj_on_of_nodup_map hnodup ha hb hid

theorem Attempt.published_eq_some {a : Attempt} {m : OutboxMessage} :
    a.published = some m ↔ (∃ u, a.result = .returned u) ∧ a.message = m := by
  unfold published
  cases a.result <;> simp

theorem Attempt.failedRow_id {a : Attempt} {m : OutboxMessage} (h : a.failedRow = some m) :
    m.id = a.message.id := by
  unfold failedRow at h
  cases hresult : a.result with
  | failed err =>
      simp only [hresult] at h
      split at h <;> cases h
      rfl
  | returned u => simp [hresult] at h
  | panicked v => simp [hresult] at h

theorem countedRetry_eq {m : OutboxMessage} (h : m.retryCount ≤ maxInt32) :
    m.countedRetry = min (m.retryCount + 1) maxInt32 := by
  unfold OutboxMessage.countedRetry
  split
  · omega
  · omega

/-- The failed rows that are saved are of different messages. -/
theorem failedRows_nodup {attempts : List Attempt}
    (hids : ((attempts.map Attempt.message).map OutboxMessage.id).Nodup) :
    ((attempts.filterMap Attempt.failedRow).map OutboxMessage.id).Nodup := by
  rw [List.Nodup, List.map_map, List.pairwise_map] at hids
  rw [List.Nodup, List.pairwise_map, List.pairwise_filterMap]
  refine hids.imp fun {a b} hne m hm m' hm' => ?_
  rw [Attempt.failedRow_id hm, Attempt.failedRow_id hm']
  exact hne

/-- `SaveProcessedMessages` on one row. -/
theorem foldl_processed {rows : List OutboxMessage} (hrows : (rows.map OutboxMessage.id).Nodup)
    (ids : List UUID) (processedAt : ℤ) {x : OutboxMessage} (hx : x ∈ rows) :
    ((rows.filter fun m => ids.contains m.id).map (·.markProcessed processedAt)).foldl
      (fun x m => m.replace x) x = if x.id ∈ ids then x.markProcessed processedAt else x := by
  split
  case isTrue hmem =>
    apply foldl_replace_mem
    · rw [List.map_map]
      exact hrows.sublist (List.filter_sublist.map OutboxMessage.id)
    · exact List.mem_map_of_mem (List.mem_filter.mpr ⟨hx, List.contains_iff_mem.mpr hmem⟩)
    · rfl
  case isFalse hmem =>
    apply foldl_replace_ne
    intro m hm heq
    obtain ⟨y, hy, rfl⟩ := List.mem_map.mp hm
    have hy' : y.id ∈ ids := List.contains_iff_mem.mp (List.mem_filter.mp hy).2
    exact hmem (heq ▸ hy')

/-- `SaveFailedMessages` on the row of an attempt. -/
theorem foldl_failed {attempts : List Attempt}
    (hids : ((attempts.map Attempt.message).map OutboxMessage.id).Nodup) {a : Attempt}
    (ha : a ∈ attempts) {x : OutboxMessage} (hid : a.message.id = x.id) :
    (attempts.filterMap Attempt.failedRow).foldl (fun x m => m.replace x) x =
      a.failedRow.getD x := by
  cases hrow : a.failedRow with
  | none =>
      apply foldl_replace_ne
      intro m hm heq
      obtain ⟨b, hb, hm⟩ := List.mem_filterMap.mp hm
      have hba : b = a := attempt_unique hids hb ha
        ((Attempt.failedRow_id hm).symm.trans (heq.trans hid.symm))
      rw [hba, hrow] at hm
      cases hm
  | some row =>
      exact foldl_replace_mem (failedRows_nodup hids) (List.mem_filterMap.mpr ⟨a, ha, hrow⟩)
        ((Attempt.failedRow_id hrow).trans hid)

/-- The message of an attempt was published exactly when its id is among the processed. -/
theorem mem_published {attempts : List Attempt}
    (hids : ((attempts.map Attempt.message).map OutboxMessage.id).Nodup) {a : Attempt}
    (ha : a ∈ attempts) :
    a.message.id ∈ (attempts.filterMap Attempt.published).map OutboxMessage.id ↔
      ∃ u, a.result = .returned u := by
  constructor
  · intro hmem
    obtain ⟨m, hm, hid⟩ := List.mem_map.mp hmem
    obtain ⟨b, hb, hm⟩ := List.mem_filterMap.mp hm
    obtain ⟨hresult, rfl⟩ := Attempt.published_eq_some.mp hm
    exact attempt_unique hids hb ha hid ▸ hresult
  · intro hresult
    exact List.mem_map_of_mem
      (List.mem_filterMap.mpr ⟨a, ha, Attempt.published_eq_some.mpr ⟨hresult, rfl⟩⟩)

/-- The writes leave each row as its attempt has it. -/
theorem foldl_saves {rows : List OutboxMessage} (hrows : (rows.map OutboxMessage.id).Nodup)
    {attempts : List Attempt} (hids : ((attempts.map Attempt.message).map OutboxMessage.id).Nodup)
    (hmem : ∀ a ∈ attempts, a.message ∈ rows ∧ a.message.status = .pending ∧
      a.message.retryCount ≤ maxInt32)
    (hsettled : ∀ a ∈ attempts, a.isSettled = true) (processedAt : ℤ) {x : OutboxMessage}
    (hx : x ∈ rows) :
    (saves rows attempts processedAt).foldl (fun x m => m.replace x) x =
      settle attempts processedAt x := by
  rw [saves, List.foldl_append, foldl_processed hrows _ _ hx]
  unfold settle
  cases hfind : attempts.find? (·.message.id = x.id) with
  | none =>
      have hother : ∀ a ∈ attempts, a.message.id ≠ x.id := by
        simpa using List.find?_eq_none.mp hfind
      have hnot : x.id ∉ (attempts.filterMap Attempt.published).map OutboxMessage.id := by
        intro hmem
        obtain ⟨m, hm, hid⟩ := List.mem_map.mp hmem
        obtain ⟨b, hb, hm⟩ := List.mem_filterMap.mp hm
        exact hother b hb ((Attempt.published_eq_some.mp hm).2 ▸ hid)
      rw [if_neg hnot]
      apply foldl_replace_ne
      intro m hm heq
      obtain ⟨b, hb, hm⟩ := List.mem_filterMap.mp hm
      exact hother b hb ((Attempt.failedRow_id hm).symm.trans heq)
  | some a =>
      have ha : a ∈ attempts := List.mem_of_find?_eq_some hfind
      have hid : a.message.id = x.id := by simpa using List.find?_some hfind
      obtain ⟨hrow, hpending, hcount⟩ := hmem a ha
      have hax : a.message = x := List.inj_on_of_nodup_map hrows hrow hx hid
      subst hax
      have hpublished := mem_published hids ha
      unfold Attempt.row
      cases hresult : a.result with
      | returned u =>
          have hfailed : a.failedRow = none := by simp [Attempt.failedRow, hresult]
          rw [if_pos (hpublished.mpr ⟨u, hresult⟩)]
          have hsaved : (attempts.filterMap Attempt.failedRow).foldl (fun x m => m.replace x)
              (a.message.markProcessed processedAt) =
                a.failedRow.getD (a.message.markProcessed processedAt) := foldl_failed hids ha rfl
          rw [hsaved, hfailed]
          simp [hresult]
      | failed err =>
          have hnot : ¬∃ u, a.result = .returned u := by simp [hresult]
          rw [if_neg (mt hpublished.mp hnot)]
          apply (foldl_failed hids ha rfl).trans
          by_cases hcapacity : err.is errPublishCapacity = true
          · simp [Attempt.failedRow, hresult, hcapacity]
          · simp [Attempt.failedRow, hresult, hcapacity, OutboxMessage.afterFailure,
              countedRetry_eq hcount, hpending]
      | panicked v =>
          have hpanic := hsettled a ha
          simp [Attempt.isSettled, hresult] at hpanic

/-! ## Logs -/

/-- One call of `Publish` and how it ended. -/
structure PublishCall where
  topic : String
  id : UUID
  payload : Bytes
  result : Outcome Unit
deriving DecidableEq

def publishCall : OutboxRecord → Option PublishCall
  | ⟨_, .publish topic id payload, result, _⟩ => some ⟨topic, id, payload, result⟩
  | _ => none

/-- The calls of `Publish`, first things first. -/
def publishCalls (log : OutboxLog) : List PublishCall := log.reverse.filterMap publishCall

def Attempt.call (a : Attempt) : PublishCall :=
  ⟨a.message.topic, a.message.id, a.payload, a.result⟩

/-- No statement failed. -/
def Saved (log : OutboxLog) : Prop :=
  ∀ r ∈ log, ∀ c q, r.cmd = .sql c q → r.answer.isReturned = true

theorem publishCalls_append (log log' : OutboxLog) :
    publishCalls (log' ++ log) = publishCalls log ++ publishCalls log' := by
  simp [publishCalls]

theorem Attempt.publishCall_records (a : Attempt) :
    (a.records p T).filterMap publishCall = [a.call] := by
  obtain ⟨message, payload, result, ctxErr, failedAt, delay⟩ := a
  unfold records
  cases result with
  | returned u => rfl
  | panicked v => rfl
  | failed err =>
      dsimp only
      split
      · rfl
      · rfl

theorem publishCalls_records (attempts : List Attempt) :
    publishCalls (attempts.flatMap (Attempt.records p T)).reverse = attempts.map Attempt.call := by
  unfold publishCalls
  rw [List.reverse_reverse]
  induction attempts with
  | nil => rfl
  | cons a attempts ih =>
      rw [List.flatMap_cons, List.filterMap_append, a.publishCall_records, ih]
      rfl

theorem saved_append {log log' : OutboxLog} (h : Saved log) (h' : Saved log') : Saved (log' ++ log) :=
  fun r hr => (List.mem_append.mp hr).elim (h' r) (h r)

/-- An attempt issues no statement. -/
theorem Attempt.saved_records (a : Attempt) : ∀ r ∈ a.records p T, ∀ c q, r.cmd ≠ .sql c q := by
  unfold records
  cases a.result with
  | returned u => simp
  | panicked v => simp
  | failed err =>
      dsimp only
      split
      · simp
      · simp

theorem saved_records (attempts : List Attempt) :
    Saved (attempts.flatMap (Attempt.records p T)).reverse := by
  intro r hr c q hcmd
  obtain ⟨a, -, hr⟩ := List.mem_flatMap.mp (List.mem_reverse.mp hr)
  exact absurd hcmd (a.saved_records r hr c q)

/-! ## The statements of a run -/

/-- The transaction of the worker is open, and has put these rows in the place of others. -/
def TxSets (T : ℕ) (w : World) (ms : List OutboxMessage) : Prop :=
  ∃ tx, w.db.tx? T = some tx ∧ tx.writes = ms.map Write.set

/-- A part of a run that publishes nothing and commits nothing. If it returns, its statements
succeeded, and `Q` holds of its result. -/
def Quiet {α : Type} (T : ℕ) (w : World) (log : OutboxLog) (Q : α → World → Prop) (o : Outcome α)
    (log' : OutboxLog) (w' : World) : Prop :=
  ∃ new, log' = new ++ log ∧ publishCalls new = [] ∧ w'.db.committed = w.db.committed ∧
    (∃ tx, w'.db.tx? T = some tx) ∧ match o with
      | .returned a => Saved new ∧ Q a w'
      | _ => True

section Quiet

variable {α β : Type} {log log' log₁ : OutboxLog} {w w' w₁ : World} {Q : α → World → Prop}
  {R : β → World → Prop}

theorem quiet_returned {a : α} (htx : ∃ tx, w.db.tx? T = some tx) (h : Q a w) :
    Quiet T w log Q (.returned a) log w :=
  ⟨[], rfl, rfl, rfl, htx, fun _ hr => absurd hr List.not_mem_nil, h⟩

theorem Quiet.of_not_returned {o : Outcome α} {o' : Outcome β} (ho : o'.isReturned = false)
    (h : Quiet T w log Q o log' w') : Quiet T w log R o' log' w' := by
  obtain ⟨new, hlog, hcalls, hcommitted, htx, -⟩ := h
  refine ⟨new, hlog, hcalls, hcommitted, htx, ?_⟩
  cases o' with
  | returned b => cases ho
  | failed err => trivial
  | panicked v => trivial

theorem Quiet.imp {Q' : α → World → Prop} {o : Outcome α} (h : Quiet T w log Q o log' w')
    (hQ : ∀ a, Q a w' → Q' a w') : Quiet T w log Q' o log' w' := by
  obtain ⟨new, hlog, hcalls, hcommitted, htx, hend⟩ := h
  refine ⟨new, hlog, hcalls, hcommitted, htx, ?_⟩
  cases o with
  | returned a => exact ⟨hend.1, hQ a hend.2⟩
  | failed err => trivial
  | panicked v => trivial

theorem Quiet.seq {a : α} {o : Outcome β} (h : Quiet T w log Q (.returned a) log₁ w₁)
    (h' : Quiet T w₁ log₁ R o log' w') : Quiet T w log R o log' w' := by
  obtain ⟨new, rfl, hcalls, hcommitted, -, hsaved, -⟩ := h
  obtain ⟨new', rfl, hcalls', hcommitted', htx', hend⟩ := h'
  refine ⟨new' ++ new, by rw [List.append_assoc], ?_, hcommitted'.trans hcommitted, htx', ?_⟩
  · rw [publishCalls_append, hcalls, hcalls', List.append_nil]
  · cases o with
    | returned b => exact ⟨saved_append hsaved hend.1, hend.2⟩
    | failed err => trivial
    | panicked v => trivial

theorem Quiet.bind {q : OutboxProg α} {f : α → OutboxProg β}
    (hq : q.wlp exec T (Quiet T w log Q) log w)
    (hf : ∀ a log' w', Q a w' → (∃ tx, w'.db.tx? T = some tx) →
      (f a).wlp exec T (Quiet T w' log' R) log' w') :
    (q >>= f).wlp exec T (Quiet T w log R) log w := by
  refine Prog.wlp.bind (hq.mono fun o log' w' h => ?_)
  cases o with
  | returned a =>
      obtain ⟨new, hlog, hcalls, hcommitted, htx, hsaved, hQ⟩ := h
      exact (hf a log' w' hQ htx).mono fun o log'' w'' h' =>
        Quiet.seq ⟨new, hlog, hcalls, hcommitted, htx, hsaved, hQ⟩ h'
  | failed err => exact h.of_not_returned rfl
  | panicked v => exact h.of_not_returned rfl

theorem Quiet.mapErr {q : OutboxProg α} {f : GoError → GoError}
    (hq : q.wlp exec T (Quiet T w log Q) log w) :
    (q.mapErr f).wlp exec T (Quiet T w log Q) log w := by
  refine Prog.wlp.mapErr (hq.mono fun o log' w' h => ?_)
  cases o with
  | returned a => exact h
  | failed err => exact h.of_not_returned rfl
  | panicked v => exact h

theorem quiet_now (htx : ∃ tx, w.db.tx? T = some tx) :
    (call .now).wlp exec T (Quiet T w log fun _ w' => w'.db = w.db) log w := by
  intro ch o e w' hnow
  obtain ⟨⟨t, rfl⟩, rfl, hdb⟩ := exec_now hnow
  refine ⟨[⟨T, .now, .returned t, []⟩], rfl, rfl, by rw [hdb], hdb ▸ htx, ?_, hdb⟩
  intro r hr c q hcmd
  rw [List.mem_singleton.mp hr] at hcmd
  cases hcmd

/-- A statement that succeeds has added its writes. -/
theorem quiet_sql {q : Stmt} {tx : Tx Tables Write Lock} (htx : w.db.tx? T = some tx) :
    (sql .transaction q).wlp exec T (Quiet T w log fun a w' => ∃ r,
      q.run w.clock (w.db.lockedByOther (fun a b => decide (a = b)) T)
        (applyAll w.db.committed tx.writes) = .ok r ∧ a = r.answer ∧
      w'.db.committed = w.db.committed ∧
      ∃ tx', w'.db.tx? T = some tx' ∧ tx'.writes = tx.writes ++ r.writes) log w := by
  intro ch o e w' hsql
  obtain ⟨rfl, hcommitted, ⟨ho, rfl⟩ | ⟨r, hrun, rfl, htx'⟩⟩ := exec_sql hsql htx
  · refine ⟨[⟨T, .sql .transaction q, o, []⟩], rfl, rfl, rfl, ⟨tx, htx⟩, ?_⟩
    cases o with
    | returned a => cases ho
    | failed err => trivial
    | panicked v => trivial
  · refine ⟨[⟨T, .sql .transaction q, .returned r.answer, []⟩], rfl, rfl, hcommitted, ⟨_, htx'⟩, ?_,
      r, hrun, rfl, hcommitted, _, htx', rfl⟩
    intro rec hrec c q' _
    rw [List.mem_singleton.mp hrec]
    rfl

end Quiet

variable {w : World} {log : OutboxLog}

theorem getUnprocessedMessages_wlp {batchSize : ℤ} (htx : TxSets T w []) :
    (Repository.getUnprocessedMessages .transaction batchSize).wlp exec T
      (Quiet T w log fun messages w' => TxSets T w' [] ∧ w'.db.committed = w.db.committed ∧
        ∃ now, messages = w.db.committed.unprocessed now batchSize
          (w.db.lockedByOther (fun a b => decide (a = b)) T)) log w := by
  obtain ⟨tx, htx, hwrites⟩ := htx
  apply Quiet.bind (quiet_now ⟨tx, htx⟩)
  intro now log₁ w₁ hdb _
  apply Quiet.mapErr
  refine (quiet_sql (hdb ▸ htx)).mono fun o log' w' h => h.imp ?_
  rintro messages ⟨r, hrun, rfl, hcommitted, tx', htx', hwrites'⟩
  cases hrun
  rw [hdb] at hcommitted
  refine ⟨⟨tx', htx', by rw [hwrites', hwrites]; rfl⟩, hcommitted, now, ?_⟩
  rw [hwrites, hdb]
  rfl

theorem saveProcessedMessages_wlp {messages : List OutboxMessage} (htx : TxSets T w []) :
    (Repository.saveProcessedMessages .transaction messages).wlp exec T
      (Quiet T w log fun _ w' => w'.db.committed = w.db.committed ∧ ∃ processedAt, TxSets T w'
        ((w.db.committed.rows.filter fun m => (messages.map OutboxMessage.id).contains m.id).map
          (·.markProcessed processedAt))) log w := by
  obtain ⟨tx, htx, hwrites⟩ := htx
  apply Quiet.bind (quiet_now ⟨tx, htx⟩)
  intro processedAt log₁ w₁ hdb _
  apply Quiet.bind (Quiet.mapErr (quiet_sql (hdb ▸ htx)))
  rintro rows log₂ w₂ ⟨r, hrun, rfl, hcommitted, tx', htx', hwrites'⟩ hopen
  apply quiet_returned hopen
  cases hrun
  rw [hdb] at hcommitted
  refine ⟨hcommitted, processedAt, tx', htx', ?_⟩
  rw [hwrites', hwrites, hdb, List.map_map]
  rfl

/-- Replacing rows changes no id. -/
theorem applyAll_set_id (t : Tables) (ms : List OutboxMessage) :
    (applyAll t (ms.map Write.set)).rows.map OutboxMessage.id = t.rows.map OutboxMessage.id := by
  rw [applyAll_set, List.map_map]
  exact List.map_congr_left fun x _ => foldl_replace_id ms x

theorem saveFailedMessages_wlp : ∀ {messages ms : List OutboxMessage} {w : World} {log : OutboxLog},
    TxSets T w ms → (∀ m ∈ messages, m.id ∈ w.db.committed.rows.map OutboxMessage.id) →
      (Repository.saveFailedMessages .transaction messages).wlp exec T (Quiet T w log fun _ w' =>
        w'.db.committed = w.db.committed ∧ TxSets T w' (ms ++ messages)) log w
  | [], ms, w, log, htx, _ => by
      have hopen : ∃ tx, w.db.tx? T = some tx := htx.imp fun _ h => h.1
      apply quiet_returned hopen
      exact ⟨rfl, by rwa [List.append_nil]⟩
  | message :: messages, ms, w, log, htx, hids => by
      obtain ⟨hid, hrest⟩ := List.forall_mem_cons.mp hids
      obtain ⟨tx, htx, hwrites⟩ := htx
      apply Quiet.bind (Quiet.mapErr (quiet_sql htx))
      rintro rows log₁ w₁ ⟨r, hrun, rfl, hcommitted, tx', htx', hwrites'⟩ _
      have hfound : message.id ∈
          (applyAll w.db.committed tx.writes).rows.map OutboxMessage.id := by
        rwa [hwrites, applyAll_set_id]
      simp only [Stmt.run, if_pos hfound] at hrun
      cases hrun
      have hsets : TxSets T w₁ (ms ++ [message]) :=
        ⟨tx', htx', by rw [hwrites', hwrites, List.map_append]; rfl⟩
      refine (saveFailedMessages_wlp hsets (by rwa [hcommitted])).mono fun o log' w' h => h.imp ?_
      rintro _ ⟨hcommitted', hsets'⟩
      exact ⟨hcommitted'.trans hcommitted, by rwa [List.append_assoc] at hsets'⟩

/-! ## The body of the transaction -/

theorem saveMessages_wlp {attempts : List Attempt} (htx : TxSets T w [])
    (hids : ∀ a ∈ attempts, a.message ∈ w.db.committed.rows) :
    (saveMessages (attempts.filterMap Attempt.published) (attempts.filterMap Attempt.failedRow)).wlp
      exec T (Quiet T w log fun _ w' => w'.db.committed = w.db.committed ∧ ∃ processedAt,
        TxSets T w' (saves w.db.committed.rows attempts processedAt)) log w := by
  -- The failed rows, after the rows `ms` of the processed ones.
  have hfailed {ms : List OutboxMessage} {w₁ : World} {log₁ : OutboxLog} (htx : TxSets T w₁ ms)
      (hcommitted : w₁.db.committed = w.db.committed) : Prog.wlp exec T (Quiet T w₁ log₁ fun _ w' =>
        w'.db.committed = w.db.committed ∧
          TxSets T w' (ms ++ attempts.filterMap Attempt.failedRow))
      (if attempts.filterMap Attempt.failedRow ≠ [] then
        (Repository.saveFailedMessages .transaction (attempts.filterMap Attempt.failedRow)).mapErr
          fun err => .wrap "failed to save failed messages: " err ""
      else return ()) log₁ w₁ := by
    split
    · apply Quiet.mapErr
      refine (saveFailedMessages_wlp htx fun m hm => ?_).mono fun o log' w' h => h.imp ?_
      · obtain ⟨a, ha, hrow⟩ := List.mem_filterMap.mp hm
        rw [Attempt.failedRow_id hrow, hcommitted]
        exact List.mem_map_of_mem (hids a ha)
      · exact fun _ h => ⟨h.1.trans hcommitted, h.2⟩
    · next hnone =>
      refine quiet_returned (htx.imp fun _ h => h.1) ⟨hcommitted, ?_⟩
      rwa [not_not.mp hnone, List.append_nil]
  unfold saveMessages
  dsimp only
  split
  · apply Quiet.bind (Quiet.mapErr (saveProcessedMessages_wlp htx))
    rintro _ log₁ w₁ ⟨hcommitted, processedAt, htx₁⟩ _
    exact (hfailed htx₁ hcommitted).mono fun o log' w' h => h.imp fun _ h =>
      ⟨h.1, processedAt, h.2⟩
  · next hnone =>
    refine (hfailed htx rfl).mono fun o log' w' h => h.imp fun _ h => ⟨h.1, 0, ?_⟩
    have hsaves : saves w.db.committed.rows attempts 0 = attempts.filterMap Attempt.failedRow := by
      simp [saves, not_not.mp hnone]
    rw [hsaves]
    exact h.2

/-- The batch that a run of thread `T` selects in `w`. -/
def World.batch (w : World) (T : ℕ) (now batchSize : ℤ) : List OutboxMessage :=
  w.db.committed.unprocessed now batchSize (w.db.lockedByOther (fun a b => decide (a = b)) T)

/-- The new part of the log is that of these attempts. -/
structure Logged (p : OutboxMessagePublisher) (T : ℕ) (attempts : List Attempt) (new : OutboxLog) :
    Prop where
  calls : publishCalls new = attempts.map Attempt.call
  records : ∀ a ∈ attempts, (a.records p T).reverse <:+: new

theorem logged_records (attempts : List Attempt) :
    Logged p T attempts (attempts.flatMap (Attempt.records p T)).reverse where
  calls := publishCalls_records attempts
  records := by
    intro a ha
    obtain ⟨as, bs, rfl⟩ := List.append_of_mem ha
    rw [List.flatMap_append, List.flatMap_cons, List.reverse_append, List.reverse_append]
    exact ⟨_, _, rfl⟩

/-- Parts that publish nothing may come before and after. -/
theorem Logged.pad {attempts : List Attempt} {new before after : OutboxLog}
    (h : Logged p T attempts new) (hbefore : publishCalls before = [])
    (hafter : publishCalls after = []) : Logged p T attempts (after ++ new ++ before) where
  calls := by
    rw [publishCalls_append, publishCalls_append, hbefore, hafter, h.calls, List.nil_append,
      List.append_nil]
  records := fun a ha => (h.records a ha).trans (List.infix_append after new before)

/-- What is true when the body of the transaction leaves. -/
def BatchEnd (T : ℕ) (rows : List OutboxMessage) (attempts : List Attempt) (new : OutboxLog)
    (w' : World) : Outcome Unit → Prop
  | .returned _ => (∀ a ∈ attempts, a.isSettled = true) ∧ Saved new ∧
      ∃ processedAt, TxSets T w' (saves rows attempts processedAt)
  | .failed err => ∀ a ∈ attempts, ∀ e, a.ctxErr = some e → err.is e.err = true
  | .panicked _ => ∀ a ∈ attempts, a.ctxErr = none

/-- The body of the transaction, from the world `w` on. -/
def BatchPost (p : OutboxMessagePublisher) (T : ℕ) (batchSize : ℤ) (w : World) (log : OutboxLog)
    (o : Outcome Unit) (log' : OutboxLog) (w' : World) : Prop :=
  ∃ new, log' = new ++ log ∧ w'.db.committed = w.db.committed ∧ (∃ tx, w'.db.tx? T = some tx) ∧
    (o.isReturned = false ∧ publishCalls new = [] ∨
      ∃ now attempts, Tries p (w.batch T now batchSize) attempts ∧ Logged p T attempts new ∧
        BatchEnd T w.db.committed.rows attempts new w' o)

theorem runBatch_wlp {batchSize : ℤ} (htx : TxSets T w [])
    (hjson : ∀ m ∈ w.db.committed.rows, m.status = .pending →
      ∃ payload, p.marshal m.event = .ok payload) :
    (runBatch p batchSize).wlp exec T (BatchPost p T batchSize w log) log w := by
  refine Prog.wlp.bind ((Quiet.mapErr (getUnprocessedMessages_wlp htx)).mono fun o log₁ w₁ h => ?_)
  obtain ⟨before, rfl, hbefore, hcommitted, hopen, hselected⟩ := h
  cases o with
  | failed err => exact ⟨before, rfl, hcommitted, hopen, .inl ⟨rfl, hbefore⟩⟩
  | panicked v => exact ⟨before, rfl, hcommitted, hopen, .inl ⟨rfl, hbefore⟩⟩
  | returned messages =>
      obtain ⟨hsavedBefore, htx₁, -, now, rfl⟩ := hselected
      have hmem : ∀ m ∈ w.batch T now batchSize, m ∈ w.db.committed.rows ∧ m.status = .pending := by
        intro m hm
        obtain ⟨hrow, hdue, -⟩ := mem_unprocessed hm
        exact ⟨hrow, by simpa using (Bool.and_eq_true_iff.mp hdue).1⟩
      have hencoded : ∀ m ∈ w.batch T now batchSize, ∃ payload, p.marshal m.event = .ok payload :=
        fun m hm => hjson m (hmem m hm).1 (hmem m hm).2
      refine Prog.wlp.bind ((publishLoop_wlp hencoded).mono fun o log₂ w₂ h => ?_)
      obtain ⟨attempts, hdb, rfl, htries, hend⟩ := h
      have hcommitted₂ : w₂.db.committed = w.db.committed := by rw [hdb, hcommitted]
      have hlogged : Logged p T attempts
          ([] ++ (attempts.flatMap (Attempt.records p T)).reverse ++ before) :=
        (logged_records attempts).pad hbefore rfl
      cases o with
      | failed err =>
          refine ⟨_, (List.append_assoc _ _ _).symm, hcommitted₂, hdb ▸ hopen,
            .inr ⟨now, attempts, htries, hlogged, fun a ha e he => ?_⟩⟩
          rw [hend a ha e he]
          exact GoError.is_self _
      | panicked v =>
          exact ⟨_, (List.append_assoc _ _ _).symm, hcommitted₂, hdb ▸ hopen,
            .inr ⟨now, attempts, htries, hlogged, hend⟩⟩
      | returned r =>
          obtain ⟨hsettled, rfl⟩ := hend
          have hrows : ∀ a ∈ attempts, a.message ∈ w₂.db.committed.rows := by
            intro a ha
            rw [hcommitted₂]
            exact (hmem _ (htries.inOrder.subset (List.mem_map_of_mem ha))).1
          have htx₂ : TxSets T w₂ [] := by
            unfold TxSets
            rwa [hdb]
          refine (saveMessages_wlp htx₂ hrows).mono fun o log₃ w₃ h => ?_
          obtain ⟨after, rfl, hafter, hcommitted₃, hopen₃, hsavedAfter⟩ := h
          refine ⟨after ++ (attempts.flatMap (Attempt.records p T)).reverse ++ before, by simp,
            hcommitted₃.trans hcommitted₂, hopen₃,
            .inr ⟨now, attempts, htries, (logged_records attempts).pad hbefore hafter, ?_⟩⟩
          cases o with
          | returned u =>
              obtain ⟨hsavedAfter, -, processedAt, hsets⟩ := hsavedAfter
              rw [hcommitted₂] at hsets
              exact ⟨hsettled, saved_append hsavedBefore
                (saved_append (saved_records attempts) hsavedAfter), processedAt, hsets⟩
          | failed err =>
              intro a ha e he
              rw [Attempt.ctxErr_of_isSettled (hsettled a ha)] at he
              cases he
          | panicked v => exact fun a ha => Attempt.ctxErr_of_isSettled (hsettled a ha)

/-! ## The transaction -/

/-- The run has committed: every attempt is settled, no statement failed, and each row is as its
attempt has it. -/
structure Committed (w w' : World) (attempts : List Attempt) (new : OutboxLog) : Prop where
  settled : ∀ a ∈ attempts, a.isSettled = true
  saved : Saved new
  rows : ∃ processedAt,
    w'.db.committed.rows = w.db.committed.rows.map (settle attempts processedAt)

/-- The run has changed nothing and fails; a context that was done is the reason it gives. -/
structure RolledBack (w w' : World) (attempts : List Attempt) (o : Outcome Unit) : Prop where
  failed : o.isReturned = false
  committed : w'.db.committed = w.db.committed
  reason : ∀ a ∈ attempts, ∀ e, a.ctxErr = some e → ∀ err, o = .failed err → err.is e.err = true

/-- One run of the worker. -/
def RunPost (p : OutboxMessagePublisher) (T : ℕ) (batchSize : ℤ) (w : World) (log : OutboxLog)
    (o : Outcome Unit) (log' : OutboxLog) (w' : World) : Prop :=
  ∃ new, log' = new ++ log ∧ (publishCalls new = [] ∧ RolledBack w w' [] o ∨
    ∃ now attempts, Tries p (w.batch T now batchSize) attempts ∧ Logged p T attempts new ∧
      (Committed w w' attempts new ∨ RolledBack w w' attempts o))

theorem exec_rollback {T : ℕ} {ch : Choice} {w w' : World} {e : List Write} {o : Outcome Unit}
    (h : exec log T .rollback ch w = some (o, e, w')) : w'.db.committed = w.db.committed := by
  cases (exec_rollback_cases h).2 with
  | inl hdone => rw [hdone, Store.rollback_committed]
  | inr hsame => rw [hsame]

/-- A commit does it all, or nothing; and it may report a failure either way. -/
theorem exec_commit {T : ℕ} {ch : Choice} {w w' : World} {e : List Write} {o : Outcome Unit}
    (h : exec log T .commit ch w = some (o, e, w')) :
    w'.db.committed = (w.db.commit T).2.committed ∨
      w'.db.committed = w.db.committed ∧ o.isReturned = false := by
  cases exec_commit_cases h with
  | inl hdone =>
      obtain ⟨tx, -, -, hdb⟩ := hdone
      exact .inl (by rw [hdb])
  | inr hfailed =>
      obtain ⟨ho, -, hdb⟩ := hfailed
      exact .inr ⟨by rw [hdb], ho⟩

/-- A part of the log that only ends the transaction. -/
def Ends (new : OutboxLog) : Prop := ∀ r ∈ new, r.cmd = .commit ∨ r.cmd = .rollback

theorem Ends.calls {new : OutboxLog} (h : Ends new) : publishCalls new = [] := by
  apply List.filterMap_eq_nil_iff.mpr
  rintro ⟨T, cmd, answer, effect⟩ hr
  rcases h _ (List.mem_reverse.mp hr) with hcmd | hcmd
  · cases hcmd; rfl
  · cases hcmd; rfl

theorem Ends.saved {new : OutboxLog} (h : Ends new) : Saved new := by
  intro r hr c q hcmd
  rcases h r hr with hend | hend
  · rw [hend] at hcmd; cases hcmd
  · rw [hend] at hcmd; cases hcmd

theorem ends_cons {new : OutboxLog} {r : OutboxRecord} (hr : r.cmd = .commit ∨ r.cmd = .rollback)
    (h : Ends new) : Ends (r :: new) := List.forall_mem_cons.mpr ⟨hr, h⟩

/-- The transaction that ran its body to `o` in the world `w` has ended with `o'`. -/
def Concluded (T : ℕ) (w : World) (log : OutboxLog) (o o' : Outcome Unit) (log' : OutboxLog)
    (w' : World) : Prop :=
  ∃ new, log' = new ++ log ∧ Ends new ∧
    (o.isReturned = true ∧ w'.db.committed = (w.db.commit T).2.committed ∨
      w'.db.committed = w.db.committed ∧ o'.isReturned = false ∧
        ∀ err, o = .failed err → ∀ err', o' = .failed err' → err.Within err')

theorem rollback_wlp {Q : Outcome Unit → OutboxLog → World → Prop}
    (h : ∀ o r w', r.cmd = .rollback → w'.db.committed = w.db.committed → Q o (r :: log) w') :
    db.rollback.wlp exec T Q log w := by
  apply Prog.wlp.mapErr
  exact fun ch o e w' hrollback => h _ _ _ rfl (exec_rollback hrollback)

/-- A rollback after the body or a failed commit, and what is made of its result. -/
theorem concluded_rollback {o : Outcome Unit} {k : Outcome Unit → OutboxProg Unit}
    {new : OutboxLog} {w₁ : World} (hends : Ends new)
    (hk : ∀ r, ∃ o', k r = .done o' ∧
      (o.isReturned = true ∧ w₁.db.committed = (w.db.commit T).2.committed ∨
        w₁.db.committed = w.db.committed ∧ o'.isReturned = false ∧
          ∀ err, o = .failed err → ∀ err', o' = .failed err' → err.Within err')) :
    (db.rollback.handle k).wlp exec T (Concluded T w log o) (new ++ log) w₁ := by
  apply Prog.wlp.handle
  apply rollback_wlp
  intro r rec w' hrec hcommitted
  obtain ⟨o', hdone, hend⟩ := hk r
  rw [hdone]
  exact ⟨rec :: new, rfl, ends_cons (.inr hrec) hends, by rwa [hcommitted]⟩

theorem conclude_wlp (o : Outcome Unit) :
    (db.conclude o).wlp exec T (Concluded T w log o) log w := by
  cases o with
  | returned u =>
      apply Prog.wlp.handle
      apply Prog.wlp.mapErr
      intro ch r e w₁ hcommit
      have hends : Ends [⟨T, .commit, r, e⟩] := ends_cons (.inl rfl) fun _ hr => absurd hr List.not_mem_nil
      have hcommitted := exec_commit hcommit
      cases r with
      | returned u' =>
          refine ⟨_, rfl, hends, .inl ⟨rfl, ?_⟩⟩
          exact hcommitted.resolve_right fun h => absurd h.2 (by simp)
      | failed err =>
          apply concluded_rollback hends
          intro r'
          have hend {o' : Outcome Unit} (ho' : o'.isReturned = false) :
              (Outcome.returned u : Outcome Unit).isReturned = true ∧
                w₁.db.committed = (w.db.commit T).2.committed ∨
              w₁.db.committed = w.db.committed ∧ o'.isReturned = false ∧
                ∀ err, Outcome.returned u = .failed err → ∀ err', o' = .failed err' →
                  err.Within err' := by
            rcases hcommitted with hdone | ⟨hsame, -⟩
            · exact .inl ⟨rfl, hdone⟩
            · exact .inr ⟨hsame, ho', by simp⟩
          cases r' with
          | returned u' => exact ⟨_, rfl, hend rfl⟩
          | failed err' => exact ⟨_, rfl, hend rfl⟩
          | panicked v => exact ⟨_, rfl, hend rfl⟩
      | panicked v =>
          refine ⟨_, rfl, hends, ?_⟩
          rcases hcommitted with hdone | ⟨hsame, -⟩
          · exact .inl ⟨rfl, hdone⟩
          · exact .inr ⟨hsame, rfl, by simp⟩
  | failed err =>
      show Prog.wlp exec T (Concluded T w log (.failed err)) _ ([] ++ log) w
      apply concluded_rollback fun _ hr => absurd hr List.not_mem_nil
      intro r
      cases r with
      | returned u => exact ⟨_, rfl, .inr ⟨rfl, rfl, by rintro _ ⟨⟩ _ ⟨⟩; exact GoError.within_refl err⟩⟩
      | failed rbErr =>
          exact ⟨_, rfl, .inr ⟨rfl, rfl, by
            rintro _ ⟨⟩ _ ⟨⟩
            exact GoError.within_wrap2_right (GoError.within_refl err) _ _ _⟩⟩
      | panicked v => exact ⟨_, rfl, .inr ⟨rfl, rfl, by simp⟩⟩
  | panicked v => exact ⟨[], rfl, fun _ hr => absurd hr List.not_mem_nil, .inr ⟨rfl, rfl, by simp⟩⟩

/-- The deferred rollback of a panic changes nothing. -/
theorem recovering_wlp {o o' : Outcome Unit} {log' : OutboxLog} {w' : World}
    (h : Concluded T w log o o' log' w') :
    (db.recovering o').wlp exec T (Concluded T w log o) log' w' := by
  cases o' with
  | returned u => exact h
  | failed err => exact h
  | panicked v =>
      obtain ⟨new, rfl, hends, hend⟩ := h
      apply concluded_rollback hends
      intro r
      have hend' {v' : String} : o.isReturned = true ∧ w'.db.committed = (w.db.commit T).2.committed ∨
          w'.db.committed = w.db.committed ∧ (Outcome.panicked v' : Outcome Unit).isReturned = false ∧
            ∀ err, o = .failed err → ∀ err', (Outcome.panicked v' : Outcome Unit) = .failed err' →
              err.Within err' :=
        hend.imp id fun h => ⟨h.1, rfl, by simp⟩
      cases r with
      | returned u => exact ⟨_, rfl, hend'⟩
      | failed err => exact ⟨_, rfl, hend'⟩
      | panicked v' => exact ⟨_, rfl, hend'⟩

/-- Opening a transaction changes neither the rows nor what others hold. -/
theorem batch_begin (now batchSize : ℤ) :
    World.batch { w with db := w.db.begin T } T now batchSize = w.batch T now batchSize := by
  have hheld : (w.db.begin T).lockedByOther (fun a b => decide (a = b)) T =
      w.db.lockedByOther (fun a b => decide (a = b)) T := by
    funext l
    rw [Bool.eq_iff_iff, ← not_iff_not, Bool.not_eq_true, Bool.not_eq_true,
      Store.lockedByOther_eq_false, Store.lockedByOther_eq_false]
    constructor
    · intro h T' tx hne htx
      exact h T' tx hne (by rwa [Store.begin_tx_ne hne])
    · intro h T' tx hne htx
      exact h T' tx hne (by rwa [Store.begin_tx_ne hne] at htx)
  rw [World.batch, World.batch, hheld]
  rfl

/-- The rows that the transaction commits. -/
theorem committed_rows {w₁ : World} {attempts : List Attempt} {now batchSize processedAt : ℤ}
    (hcommitted : w₁.db.committed = w.db.committed)
    (hsets : TxSets T w₁ (saves w.db.committed.rows attempts processedAt))
    (htries : Tries p (w.batch T now batchSize) attempts)
    (hsettled : ∀ a ∈ attempts, a.isSettled = true)
    (hretry : ∀ m ∈ w.db.committed.rows, m.status = .pending → m.retryCount ≤ maxInt32) :
    (w₁.db.commit T).2.committed.rows = w.db.committed.rows.map (settle attempts processedAt) := by
  obtain ⟨tx, htx, hwrites⟩ := hsets
  have hids : ((attempts.map Attempt.message).map OutboxMessage.id).Nodup :=
    unprocessed_nodup.sublist (htries.inOrder.sublist.map OutboxMessage.id)
  have hmem : ∀ a ∈ attempts, a.message ∈ w.db.committed.rows ∧ a.message.status = .pending ∧
      a.message.retryCount ≤ maxInt32 := by
    intro a ha
    obtain ⟨hrow, hdue, -⟩ :=
      mem_unprocessed (htries.inOrder.subset (List.mem_map_of_mem (f := Attempt.message) ha))
    have hpending : a.message.status = .pending := by simpa using (Bool.and_eq_true_iff.mp hdue).1
    exact ⟨hrow, hpending, hretry _ hrow hpending⟩
  rw [Store.commit_of_tx htx, hwrites, hcommitted, applyAll_set]
  exact List.map_congr_left fun x hx =>
    foldl_saves w.db.committed.ids_nodup hids hmem hsettled processedAt hx

theorem rolledBack_nil {o : Outcome Unit} {w' : World} (ho : o.isReturned = false)
    (hcommitted : w'.db.committed = w.db.committed) : RolledBack w w' [] o :=
  ⟨ho, hcommitted, fun _ ha => absurd ha List.not_mem_nil⟩

/-- How a run ends whose body has ended. -/
theorem runPost_of_concluded {batchSize : ℤ} {w₁ w' : World} {log₁ log' : OutboxLog}
    {o o' : Outcome Unit} {r : OutboxRecord} (hr : r.cmd = .begin) (hrok : r.answer.isReturned = true)
    (hretry : ∀ m ∈ w.db.committed.rows, m.status = .pending → m.retryCount ≤ maxInt32)
    (hbatch : BatchPost p T batchSize { w with db := w.db.begin T } (r :: log) o log₁ w₁)
    (hend : Concluded T w₁ log₁ o o' log' w') : RunPost p T batchSize w log o' log' w' := by
  obtain ⟨new, rfl, hcommitted, -, hcases⟩ := hbatch
  obtain ⟨after, rfl, hafter, hend⟩ := hend
  have hbegin : publishCalls [r] = [] := by
    obtain ⟨T', cmd, answer, effect⟩ := r
    cases hr
    rfl
  have hbeginSaved : Saved [r] := by
    intro r' hr' c q _
    rw [List.mem_singleton.mp hr']
    exact hrok
  refine ⟨after ++ new ++ [r], by simp, ?_⟩
  rcases hcases with ⟨ho, hcalls⟩ | ⟨now, attempts, htries, hlogged, hbody⟩
  · rcases hend with ⟨ho', -⟩ | ⟨hsame, ho', -⟩
    · rw [ho] at ho'
      cases ho'
    · refine .inl ⟨?_, rolledBack_nil ho' (hsame.trans hcommitted)⟩
      rw [publishCalls_append, publishCalls_append, hbegin, hcalls, hafter.calls]
      rfl
  · rw [batch_begin] at htries
    refine .inr ⟨now, attempts, htries, hlogged.pad hbegin hafter.calls, ?_⟩
    rcases hend with ⟨ho, hdone⟩ | ⟨hsame, ho', hwithin⟩
    · cases o with
      | failed err => cases ho
      | panicked v => cases ho
      | returned u =>
          obtain ⟨hsettled, hsaved, processedAt, hsets⟩ := hbody
          refine .inl ⟨hsettled, saved_append hbeginSaved (saved_append hsaved hafter.saved),
            processedAt, ?_⟩
          rw [hdone]
          exact committed_rows hcommitted hsets htries hsettled hretry
    · refine .inr ⟨ho', hsame.trans hcommitted, fun a ha e he err herr => ?_⟩
      cases o with
      | returned u =>
          rw [Attempt.ctxErr_of_isSettled (hbody.1 a ha)] at he
          cases he
      | failed err' => exact hwithin err' rfl err herr _ (hbody a ha e he)
      | panicked v =>
          rw [hbody a ha] at he
          cases he

theorem run_wlp {batchSize : ℤ}
    (hjson : ∀ m ∈ w.db.committed.rows, m.status = .pending →
      ∃ payload, p.marshal m.event = .ok payload)
    (hretry : ∀ m ∈ w.db.committed.rows, m.status = .pending → m.retryCount ≤ maxInt32) :
    (run p batchSize).wlp exec T (RunPost p T batchSize w log) log w := by
  apply Prog.wlp.bind
  apply Prog.wlp.mapErr
  apply Prog.wlp.mapErr
  intro ch o e w₁ hbegin
  have hnotBegun {o' : Outcome Unit} (ho' : o'.isReturned = false) (hw : w₁ = w) :
      RunPost p T batchSize w log o' (⟨T, .begin, o, e⟩ :: log) w₁ :=
    ⟨[⟨T, .begin, o, e⟩], rfl, .inl ⟨rfl, rolledBack_nil ho' (by rw [hw])⟩⟩
  rcases (exec_begin_cases hbegin).2 with ⟨rfl, rfl⟩ | ⟨ho, rfl⟩
  · have hopen : TxSets T { w with db := w.db.begin T } [] := ⟨_, Store.begin_tx_self, rfl⟩
    apply Prog.wlp.handle
    apply Prog.wlp.handle
    refine (runBatch_wlp hopen hjson).mono fun o log₁ w₁ hbatch => ?_
    refine (conclude_wlp o).mono fun o' log₂ w₂ hend => ?_
    exact (recovering_wlp hend).mono fun o'' log₃ w₃ hend =>
      runPost_of_concluded rfl rfl hretry hbatch hend
  · cases o with
    | returned u => cases ho
    | failed err => exact hnotBegun rfl rfl
    | panicked v => exact hnotBegun rfl rfl

/-! ## Main results -/

/-- A run publishes a prefix of its batch in order, each message once. The prefix ends with the
first capacity error, the first error of a deadline, a context that is done or a panic, and is
the whole batch otherwise. The run commits what became of each attempt, if each is settled and
no statement failed, or changes no row and fails. -/
theorem publisher_run_correct {batchSize : ℤ} {log' : OutboxLog} {w' : World} {o : Outcome Unit}
    (hrun : (run p batchSize).Runs exec T log w o log' w')
    (hjson : ∀ m ∈ w.db.committed.rows, m.status = .pending →
      ∃ payload, p.marshal m.event = .ok payload)
    (hretry : ∀ m ∈ w.db.committed.rows, m.status = .pending →
      0 ≤ m.retryCount ∧ m.retryCount ≤ maxInt32) :
    RunPost p T batchSize w log o log' w' ∧
      (o.isReturned = true → ∃ new now attempts, log' = new ++ log ∧
        Tries p (w.batch T now batchSize) attempts ∧ Logged p T attempts new ∧
        Committed w w' attempts new) := by
  have hpost := hrun.postLog (run_wlp hjson fun m hm hpending => (hretry m hm hpending).2)
  refine ⟨hpost, fun hreturned => ?_⟩
  obtain ⟨new, hlog, ⟨-, hrolledBack⟩ | ⟨now, attempts, htries, hlogged, hcases⟩⟩ := hpost
  · exact absurd hreturned (by simp [hrolledBack.failed])
  · rcases hcases with hcommitted | hrolledBack
    · exact ⟨new, now, attempts, hlog, htries, hlogged, hcommitted⟩
    · exact absurd hreturned (by simp [hrolledBack.failed])

/-- A pending message. -/
def pendingMessage (id : UUID) (createdAt : ℤ) : OutboxMessage :=
  { newRow id "auth" ⟨42, .utf8 "user.created", none⟩ with createdAt := createdAt }

def twoPending : World where
  db := ⟨⟨[pendingMessage "b" 2, pendingMessage "a" 1], by decide⟩, ∅⟩
  clock := 10

def plainPublisher : OutboxMessagePublisher := ⟨fun _ => .ok [], 5000000000, 300000000000⟩

/-- The first message is published, and there is no capacity for the second one. -/
theorem capacity_run : ∃ r, (run plainPublisher 10).follow exec 0
      [.run, .time 10, .run, .run, .ctx none,
        .fail (.wrap2 "" errPublishCapacity "\n" CtxErr.deadlineExceeded.err), .ctx none, .time 11,
        .run, .run] [] twoPending = some r ∧
    r.1.isReturned = true ∧ r.2.2.db.committed.rows =
      [pendingMessage "b" 2, (pendingMessage "a" 1).markProcessed 11] :=
  System.exists_of_any (by decide +kernel)

theorem publisher_run_correct_capacity : ∃ o log' w',
    (run plainPublisher 10).Runs exec 0 [] twoPending o log' w' ∧
    (∃ new now attempts, log' = new ++ [] ∧ Tries plainPublisher (twoPending.batch 0 now 10) attempts ∧
      Logged plainPublisher 0 attempts new ∧ Committed twoPending w' attempts new) ∧
    w'.db.committed.rows = [pendingMessage "b" 2, (pendingMessage "a" 1).markProcessed 11] := by
  obtain ⟨⟨o, log', w'⟩, hrun, hreturned, hrows⟩ := capacity_run
  have hruns := Prog.runs_of_follow hrun
  refine ⟨o, log', w', hruns, ?_, hrows⟩
  exact (publisher_run_correct hruns (fun m _ _ => ⟨[], rfl⟩) (by decide)).2 hreturned

end Go42.Outbox
