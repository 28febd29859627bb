-- SUMMARY: `AllowRateLimit` on memcached among other clients, expiry and eviction: why a call fails, and the one lost round that is not tried again.
import Go42.Cache.Memcached

/-!
# Interference on memcached

Between two commands of a call others may write any entry, and any entry may disappear. A command
may fail, also after it was done. A `CompareAndSwap` whose key has disappeared is answered like a
`Get` without a result.
-/

namespace Go42.Cache.Memcached.Interference

structure Call where
  key : String
  interval : ℤ
  burst : ℤ
  ttl : ℤ
deriving DecidableEq

inductive Choice where
  | run
  | time (t : ℤ)
  /-- The command fails; the flag says that it was done nevertheless. -/
  | fail (err : GoError) (done : Bool)

/-- What others do. -/
inductive Event where
  | write (item : Item)
  /-- Expiry, eviction or deletion. -/
  | remove (key : String)

/-- What became of a command. -/
inductive Reply where
  | answered
  /-- The entry is not the one that was read, or an entry that was absent is there. -/
  | conflict
  /-- The entry that was read is gone. -/
  | vanished
  | failed
deriving DecidableEq, Repr

/-- A round lost to others. -/
def Reply.lost : Reply → Bool
  | .conflict | .vanished => true
  | _ => false

/-- The reply of a server that works. -/
def reply (w : World) : Cmd → Reply
  | .add item => if (w.entries item.key).isSome then .conflict else .answered
  | .compareAndSwap item =>
    match w.entries item.key with
    | none => .vanished
    | some x => if x.casID = item.casID then .answered else .conflict
  | _ => .answered

/-- The errors by which the client reports such a reply. -/
def isReply (err : GoError) : Bool :=
  err.is errCacheMiss || err.is errCASConflict || err.is errNotStored

def exec : Machine Cmd Res Choice Reply World := fun _ _ c ch w =>
  match ch with
  | .run => if c = .unixMicro then none else some ((serve 0 w c).1, reply w c, (serve 0 w c).2.2)
  | .time t => if c = .unixMicro ∧ InInt64 t then some ((serve t w c).1, .answered, w) else none
  | .fail err done =>
    if c = .unixMicro ∨ isReply err then none
    else some (.failed err, .failed, if done then (serve 0 w c).2.2 else w)

def system : System Cmd Res Choice Reply World Call Event Bool where
  machine := exec
  body c := allowRateLimit c.key c.interval c.burst c.ttl
  env
    | .write item, w => some (w.store item)
    | .remove key, w => some { w with entries := Function.update w.entries key none }
  crash _ w := w

/-! ## What a call went through -/

structure Turn where
  cmd : Cmd
  answer : Outcome (Res cmd)
  reply : Reply

/-- The commands of thread `T`, the last one first. -/
def turns (log : Log Cmd Res Reply) (T : ℕ) : List Turn :=
  log.filterMap fun r => if r.thread = T then some ⟨r.cmd, r.answer, r.effect⟩ else none

/-- The rounds that were lost. -/
def losses (F : List Turn) : ℕ := F.countP fun t => t.reply.lost

/-- Why a call fails. -/
inductive Cause (call : Call) : List Turn → GoError → Prop where
  | arguments {err : GoError} :
      Tools.rateLimitTTL call.interval call.burst call.ttl = .error err → Cause call [] err
  | expiration {F : List Turn} {now ttl : ℤ} {err : GoError} :
      Tools.rateLimitTTL call.interval call.burst call.ttl = .ok ttl →
      rateLimitExpiration now ttl = .error err →
      Cause call (⟨.unixMicro, .returned now, .answered⟩ :: F) err
  | context {F : List Turn} {err : GoError} : Cause call (⟨.ctxErr, .failed err, .failed⟩ :: F) err
  | notInteger {F : List Turn} {item : Item} {err : GoError} : parseInt item.value = none →
      Cause call (⟨.get call.key, .returned item, .answered⟩ :: F) err
  | server {F : List Turn} {c : Cmd} {err : GoError} : c ≠ .ctxErr →
      Cause call (⟨c, .failed err, .failed⟩ :: F) err
  | contended {F : List Turn} {t : Turn} {err : GoError} : t.reply.lost = true →
      losses (t :: F) = maxCASAttempts → Cause call (t :: F) err

/-- What is stored goes back to the reading of the entry right before. -/
def Fresh (call : Call) (F : List Turn) : Cmd → Prop
  | .add item => item.key = call.key ∧ ∃ err F',
      F = ⟨.get call.key, .failed err, .answered⟩ :: F'
  | .compareAndSwap item => ∃ x F', F = ⟨.get call.key, .returned x, .answered⟩ :: F' ∧
      item.key = x.key ∧ item.casID = x.casID
  | _ => True

/-- True follows a store, and false a reading. -/
def Decided (b : Bool) (F : List Turn) : Prop := ∃ t F', F = t :: F' ∧ t.reply = .answered ∧
  match t.cmd with
  | .add _ | .compareAndSwap _ => b = true
  | .get _ => b = false
  | _ => False

/-- A call tries again from a fresh reading until it is decided, and fails for a cause only. -/
structure Retries (s : system.State) (T : ℕ) : Prop where
  caused : ∀ call err, s.Finished T call (.failed err) → Cause call (turns s.log T) err
  decided : ∀ call b, s.Finished T call (.returned b) → Decided b (turns s.log T)
  again : ∀ t F, turns s.log T = t :: F → t.reply.lost = true → losses (t :: F) < maxCASAttempts →
    ∀ call o, ¬s.Finished T call o
  fresh : ∀ call p, s.pool[T]? = some ⟨call, p⟩ → ∀ t F, t :: F <:+ turns s.log T →
    Fresh call F t.cmd

/-! ## One call -/

/-- The reply that an answer speaks of. -/
def classify : (c : Cmd) → Outcome (Res c) → Reply
  | .get _, .failed err => if err.is errCacheMiss then .answered else .failed
  | .add _, .failed err => if err.is errNotStored then .conflict else .failed
  | .compareAndSwap _, .failed err =>
    if err.is errCASConflict || err.is errNotStored then .conflict
    else if err.is errCacheMiss then .vanished
    else .failed
  | _, .returned _ => .answered
  | _, _ => .failed

def see : Observer Cmd Res Turn := fun c o => some ⟨c, o, classify c o⟩

/-- No command follows a reply that an entry is gone. -/
def allowed (call : Call) (F : List Turn) (c : Cmd) : Prop :=
  (∀ t ∈ F, t.reply ≠ .vanished) ∧ Fresh call F c

def post (call : Call) (F : List Turn) : Outcome Bool → Prop
  | .returned b => Decided b F
  | .failed err => Cause call F err ∨
      ∃ t F', F = t :: F' ∧ t.reply = .vanished ∧ losses F ≤ maxCASAttempts
  | .panicked _ => ∃ t F', F = t :: F' ∧ t.reply = .failed

/-- The rounds behind a call with `n` rounds left. -/
structure Ready (F : List Turn) (n : ℕ) : Prop where
  kept : ∀ t ∈ F, t.reply ≠ .vanished
  losses : losses F + n = maxCASAttempts
  lost : n = maxCASAttempts ∨ ∃ t F', F = t :: F' ∧ t.reply.lost = true

section Ready

variable {F : List Turn} {t : Turn} {n : ℕ}

theorem losses_lost (h : t.reply.lost = true) : losses (t :: F) = losses F + 1 :=
  List.countP_cons_of_pos h

theorem Ready.init : Ready [] maxCASAttempts where
  kept := nofun
  losses := rfl
  lost := .inl rfl

theorem kept_cons (h : ∀ t ∈ F, t.reply ≠ .vanished) (ht : t.reply ≠ .vanished) :
    ∀ t' ∈ t :: F, t'.reply ≠ .vanished :=
  List.forall_mem_cons.mpr ⟨ht, h⟩

/-- A round that a conflict ended. -/
theorem Ready.next (hkept : ∀ t ∈ F, t.reply ≠ .vanished) (hlosses : Interference.losses F + (n + 1) =
    maxCASAttempts) (ht : t.reply = .conflict) : Ready (t :: F) n where
  kept := kept_cons hkept (by rw [ht]; decide)
  losses := by
    rw [losses_lost (by rw [ht]; rfl)]
    omega
  lost := .inr ⟨t, F, rfl, by rw [ht]; rfl⟩

end Ready

/-- The end of a round that found no entry. -/
theorem add_keeps {call : Call} {F : List Turn} {err : GoError} {item : Item} {n : ℕ}
    {retry : MemcachedProg Bool} (hkept : ∀ t ∈ F, t.reply ≠ .vanished)
    (hlosses : losses F + (n + 1) = maxCASAttempts) (hkey : item.key = call.key)
    (hF : ∃ F', F = ⟨.get call.key, .failed err, .answered⟩ :: F')
    (ih : ∀ {F : List Turn}, Ready F n → retry.Spec see (allowed call) (post call) F) :
    Prog.Spec see (allowed call) (post call) (do
      match ← (Memcached.call (.add item)).attempt with
      | .ok _ => return true
      | .error err => if err.is errNotStored then retry else Prog.fail err) F := by
  apply Prog.Spec.seq
  apply Prog.Spec.attempt
  refine Prog.Spec.call ⟨hkept, hkey, err, hF⟩ fun o => ?_
  cases o with
  | returned u => exact ⟨_, F, rfl, rfl, rfl⟩
  | panicked v => exact ⟨_, F, rfl, rfl⟩
  | failed err =>
      dsimp only
      split
      case isTrue hlost => exact ih (.next hkept hlosses (if_pos hlost))
      case isFalse hfailed =>
        have hreply : classify (.add item) (.failed err) = .failed := if_neg hfailed
        simp only [see, hreply]
        exact .inl (.server (by simp))

/-- The end of a round that found an entry. -/
theorem compareAndSwap_keeps {call : Call} {F : List Turn} {x item : Item} {n : ℕ}
    {retry : MemcachedProg Bool} (hkept : ∀ t ∈ F, t.reply ≠ .vanished)
    (hlosses : losses F + (n + 1) = maxCASAttempts) (hkey : item.key = x.key)
    (hcas : item.casID = x.casID) (hF : ∃ F', F = ⟨.get call.key, .returned x, .answered⟩ :: F')
    (ih : ∀ {F : List Turn}, Ready F n → retry.Spec see (allowed call) (post call) F) :
    Prog.Spec see (allowed call) (post call) (do
      match ← (Memcached.call (.compareAndSwap item)).attempt with
      | .ok _ => return true
      | .error err => if err.is errCASConflict || err.is errNotStored then retry else Prog.fail err) F := by
  obtain ⟨F', hF'⟩ := hF
  apply Prog.Spec.seq
  apply Prog.Spec.attempt
  refine Prog.Spec.call ⟨hkept, x, F', hF', hkey, hcas⟩ fun o => ?_
  cases o with
  | returned u => exact ⟨_, F, rfl, rfl, rfl⟩
  | panicked v => exact ⟨_, F, rfl, rfl⟩
  | failed err =>
      dsimp only
      split
      case isTrue hlost => exact ih (.next hkept hlosses (if_pos hlost))
      case isFalse hother =>
        by_cases hmiss : err.is errCacheMiss = true
        · have hreply : classify (.compareAndSwap item) (.failed err) = .vanished := by
            rw [classify, if_neg hother, if_pos hmiss]
          have hcount : losses (⟨.compareAndSwap item, .failed err, .vanished⟩ :: F) = losses F + 1 :=
            losses_lost rfl
          simp only [see, hreply]
          exact .inr ⟨_, F, rfl, rfl, hcount.trans_le (by omega)⟩
        · have hreply : classify (.compareAndSwap item) (.failed err) = .failed := by
            rw [classify, if_neg hother, if_neg hmiss]
          simp only [see, hreply]
          exact .inl (.server (by simp))

/-- By induction on the rounds that are left. -/
theorem allowLoop_keeps {call : Call} {ttl : ℤ}
    (hvalid : Tools.rateLimitTTL call.interval call.burst call.ttl = .ok ttl) (n : ℕ) :
    ∀ {F : List Turn}, Ready F n →
      (allowLoop call.key (intervalMicros call.interval)
        (wrapInt64 ((call.burst - 1) * intervalMicros call.interval)) ttl n).Spec see (allowed call)
        (post call) F := by
  induction n with
  | zero =>
      intro F hF
      obtain hn | ⟨t, F, rfl, hlost⟩ := hF.lost
      · exact absurd hn (by decide)
      · exact .inl (.contended hlost hF.losses)
  | succ n ih =>
      intro F hF
      obtain ⟨hkept, hlosses, -⟩ := hF
      unfold allowLoop
      apply Prog.Spec.seq
      refine Prog.Spec.call ⟨hkept, trivial⟩ fun o => ?_
      cases o with
      | failed err => exact .inl .context
      | panicked v => exact ⟨_, _, rfl, rfl⟩
      | returned u =>
          have hctx : ∀ t ∈ _ :: F, t.reply ≠ .vanished :=
            kept_cons (t := ⟨.ctxErr, .returned u, .answered⟩) hkept nofun
          apply Prog.Spec.seq
          refine Prog.Spec.call ⟨hctx, trivial⟩ fun o => ?_
          cases o with
          | failed err => exact .inl (.server (by decide))
          | panicked v => exact ⟨_, _, rfl, rfl⟩
          | returned now =>
              have hread : ∀ t ∈ _ :: _ :: F, t.reply ≠ .vanished :=
                kept_cons (t := ⟨.unixMicro, .returned now, .answered⟩) hctx nofun
              dsimp only
              split
              · rename_i err hexpiration
                exact .inl (.expiration hvalid hexpiration)
              · apply Prog.Spec.seq
                apply Prog.Spec.attempt
                refine Prog.Spec.call ⟨hread, trivial⟩ fun o => ?_
                cases o with
                | panicked v => exact ⟨_, _, rfl, rfl⟩
                | failed err =>
                    dsimp only
                    split
                    case isFalse hmiss =>
                      have hreply : classify (.get call.key) (.failed err) = .failed := if_neg hmiss
                      simp only [see, hreply]
                      exact .inl (.server (by simp))
                    case isTrue hmiss =>
                      have hreply : classify (.get call.key) (.failed err) = .answered := if_pos hmiss
                      simp only [see, hreply]
                      have hget : ∀ t ∈ _ :: _ :: _ :: F, t.reply ≠ .vanished :=
                        kept_cons (t := ⟨.get call.key, .failed err, .answered⟩) hread nofun
                      exact add_keeps hget hlosses rfl ⟨_, rfl⟩ ih
                | returned item =>
                    have hget : ∀ t ∈ _ :: _ :: _ :: F, t.reply ≠ .vanished :=
                      kept_cons (t := ⟨.get call.key, .returned item, .answered⟩) hread nofun
                    dsimp only
                    split
                    · exact .inl (.notInteger ‹_›)
                    · split
                      · exact ⟨_, _, rfl, rfl, rfl⟩
                      · exact compareAndSwap_keeps (x := item) hget hlosses rfl rfl ⟨_, rfl⟩ ih

theorem body_keeps (call : Call) : (system.body call).Spec see (allowed call) (post call) [] := by
  change (allowRateLimit call.key call.interval call.burst call.ttl).Spec _ _ _ _
  unfold allowRateLimit
  split
  · exact .inl (.arguments ‹_›)
  · exact allowLoop_keeps ‹_› maxCASAttempts .init

/-! ## Every run -/

section Steps

variable {log : Log Cmd Res Reply} {w w' : World} {T : ℕ} {c : Cmd} {o : Outcome (Res c)} {e : Reply}

/-- The server's reply, and what the client makes of it. -/
theorem serve_classify {t : ℤ} (hc : c = .unixMicro ∨ reply w c = e) (he : c = .unixMicro → e = .answered) :
    e = classify c (serve t w c).1 := by
  cases c with
  | ctxErr => exact (hc.resolve_left nofun).symm
  | unixMicro => exact he rfl
  | get key =>
      rw [← hc.resolve_left nofun, serve]
      split <;> rfl
  | add item =>
      rw [← hc.resolve_left nofun, reply, serve]
      cases w.entries item.key <;> rfl
  | compareAndSwap item =>
      rw [← hc.resolve_left nofun, reply, serve]
      cases w.entries item.key with
      | none => rfl
      | some x =>
          dsimp only
          split <;> rfl

theorem exec_classify {ch : Choice} (h : exec log T c ch w = some (o, e, w')) : e = classify c o := by
  cases ch with
  | run =>
      simp only [exec] at h
      split at h
      · cases h
      · rename_i hclock
        cases h
        exact serve_classify (.inr rfl) fun hc => absurd hc hclock
  | time t =>
      simp only [exec] at h
      split at h
      · rename_i hclock
        cases h
        exact serve_classify (.inl hclock.1) fun _ => rfl
      · cases h
  | fail err done =>
      simp only [exec] at h
      split at h
      · cases h
      · rename_i hother
        cases h
        obtain ⟨hclock, herr⟩ := not_or.mp hother
        simp only [isReply, Bool.or_eq_true, not_or, Bool.not_eq_true] at herr
        obtain ⟨⟨hmiss, hconflict⟩, hstored⟩ := herr
        cases c with
        | ctxErr => rfl
        | unixMicro => exact absurd rfl hclock
        | get key => simp [classify, hmiss]
        | add item => simp [classify, hstored]
        | compareAndSwap item => simp [classify, hmiss, hconflict, hstored]

/-- Every effect is what the answer speaks of. -/
def Inv (log : Log Cmd Res Reply) (_ : World) : Prop := ∀ r ∈ log, r.effect = classify r.cmd r.answer

theorem sound : system.Sound see allowed post Inv where
  body := body_keeps
  step {log w T _ c _ o e w'} hi _ h :=
    List.forall_mem_cons.mpr ⟨@exec_classify log w w' T c o e _ h, hi⟩
  env hi _ := hi
  crash hi := hi

/-- What a call went through is what it knows. -/
theorem turns_eq (hi : Inv log w) : turns log T = log.facts see T := by
  apply List.filterMap_congr
  intro r hr
  rw [hi r hr]
  rfl

end Steps

/-- The commands of a call were all allowed. -/
def Obeyed (call : Call) (F : List Turn) : Prop :=
  ∀ t F', t :: F' <:+ F → (∀ t' ∈ F', t'.reply ≠ .vanished) ∧ Fresh call F' t.cmd

theorem Obeyed.cons {call : Call} {F : List Turn} {c : Cmd} (o : Outcome (Res c)) (h : Obeyed call F)
    (hc : allowed call F c) : Obeyed call ((see c o).toList ++ F) := by
  intro t F' hsuf
  rcases List.suffix_cons_iff.mp hsuf with heq | hsuf
  · cases heq
    exact hc
  · exact h t F' hsuf

/-- A reply that an entry is gone is the last one. -/
theorem Obeyed.last {call : Call} {F F' : List Turn} {t : Turn} (h : Obeyed call F) (hsuf : t :: F' <:+ F)
    (ht : t.reply = .vanished) : F = t :: F' := by
  obtain ⟨newer, rfl⟩ := hsuf
  cases newer with
  | nil => rfl
  | cons t' newer =>
      have hkept := (h t' (newer ++ t :: F') (List.suffix_refl _)).1
      exact absurd ht (hkept t (List.mem_append_right _ List.mem_cons_self))

/-- A call that ends with a lost round has lost all rounds, or its entry was gone. -/
theorem post.lost {call : Call} {F : List Turn} {t : Turn} {o : Outcome Bool}
    (hpost : post call (t :: F) o) (hlost : t.reply.lost = true) :
    losses (t :: F) = maxCASAttempts ∨ t.reply = .vanished := by
  cases o with
  | returned b =>
      obtain ⟨_, _, heq, hanswered, -⟩ := hpost
      cases heq
      rw [hanswered] at hlost
      cases hlost
  | panicked v =>
      obtain ⟨_, _, heq, hfailed⟩ := hpost
      cases heq
      rw [hfailed] at hlost
      cases hlost
  | failed err =>
      obtain hcause | ⟨_, _, heq, hvanished, -⟩ := hpost
      · cases hcause with
        | contended _ hall => exact .inl hall
        | _ => cases hlost
      · cases heq
        exact .inr hvanished

section Run

variable {w : World} {as : List (Action Choice Call Event)} {s : system.State} {T : ℕ}
  (h : system.run (system.init w) as = some s)

include h

theorem good_run : System.Good system see allowed post Inv s :=
  (System.Good.init nofun).run sound h

theorem turns_facts : turns s.log T = s.log.facts see T := turns_eq (good_run h).inv

theorem obeyed {call : Call} {p : Option (MemcachedProg Bool)} (hT : s.pool[T]? = some ⟨call, p⟩) :
    Obeyed call (turns s.log T) := by
  rw [turns_facts h]
  exact (good_run h).facts_invariant hT (fun t F hsuf => by simp at hsuf) fun o hF hc => hF.cons o hc

theorem finished_post {call : Call} {o : Outcome Bool} (hT : s.Finished T call o) :
    post call (turns s.log T) o := by
  rw [turns_facts h]
  exact (good_run h).finished hT

/-- In every run, a call tries again from a fresh reading after each lost round, and fails for a
cause only, exactly if no `CompareAndSwap` finds its key gone before the last attempt. -/
theorem allowRateLimit_retries (T : ℕ) : Retries s T ↔
    ∀ t F, t :: F <:+ turns s.log T → t.reply = .vanished → maxCASAttempts ≤ losses (t :: F) := by
  constructor
  · intro hretries t F hsuf hvanished
    have hmem : t ∈ s.log.facts see T := turns_facts h ▸ hsuf.mem List.mem_cons_self
    obtain ⟨call, o, hT⟩ := System.Good.finished_of_fact sound nofun
      (fun hmem hallowed => hallowed.1 t hmem hvanished) h hmem
    have heq := (obeyed h hT).last hsuf hvanished
    by_contra hlt
    exact hretries.again t F heq (by rw [hvanished]; rfl) (not_le.mp hlt) call o hT
  · intro hstays
    refine ⟨fun call err hT => ?_, fun call b hT => finished_post h hT, fun t F heq hlost hlt call o hT => ?_,
      fun call p hT t F hsuf => (obeyed h hT t F hsuf).2⟩
    · obtain hcause | ⟨t, F, heq, hvanished, hle⟩ := finished_post h hT
      · exact hcause
      · rw [heq] at hle ⊢
        have hge := hstays t F (heq ▸ List.suffix_refl _) hvanished
        exact .contended (by rw [hvanished]; rfl) (le_antisymm hle hge)
    · have hpost := finished_post h hT
      rw [heq] at hpost
      obtain hall | hvanished := hpost.lost hlost
      · exact hlt.ne hall
      · exact hlt.not_ge (hstays t F (heq ▸ List.suffix_refl _) hvanished)

end Run

/-- The entry is evicted between the `Get` and the `CompareAndSwap`. -/
def eviction : List (Action Choice Call Event) :=
  [.env (.write ⟨"client", "5000000", 60, 0⟩), .spawn ⟨"client", 1000000000, 1, 60000000000⟩,
    .step 0 .run, .step 0 (.time 7000000), .step 0 .run, .env (.remove "client"), .step 0 .run]

theorem eviction_run : ∃ s, system.run (system.init emptyWorld) eviction = some s ∧
    s.finished? 0 = some (⟨"client", 1000000000, 1, 60000000000⟩, .failed errCacheMiss) ∧
    (turns s.log 0).map Turn.reply = [.vanished, .answered, .answered, .answered] :=
  System.exists_of_any (by decide +kernel)

theorem evicted_not_retried : ¬∀ (w : World) (as : List (Action Choice Call Event)) (s : system.State),
    system.run (system.init w) as = some s → ∀ T, Retries s T := by
  intro hall
  obtain ⟨s, hs, hfinished, hturns⟩ := eviction_run
  cases hT : turns s.log 0 with
  | nil => rw [hT] at hturns; cases hturns
  | cons t F =>
      rw [hT] at hturns
      obtain ⟨ht, hF⟩ := List.cons.inj hturns
      have hnone : losses F = 0 := by
        have hmap : (F.map Turn.reply).countP Reply.lost = losses F := List.countP_map
        rw [← hmap, hF]
        rfl
      have hlost : t.reply.lost = true := by rw [ht]; rfl
      refine (hall emptyWorld eviction s hs 0).again t F hT hlost ?_ _ _ (System.finished_iff.mp hfinished)
      rw [losses_lost hlost, hnone]
      decide

/-- The entry is written between the `Get` and the `CompareAndSwap`. -/
def overwritten : List (Action Choice Call Event) :=
  [.env (.write ⟨"client", "5000000", 60, 0⟩), .spawn ⟨"client", 1000000000, 1, 60000000000⟩,
    .step 0 .run, .step 0 (.time 7000000), .step 0 .run, .env (.write ⟨"client", "6000000", 60, 0⟩),
    .step 0 .run, .step 0 .run, .step 0 (.time 7000001), .step 0 .run, .step 0 .run]

theorem overwritten_run : ∃ s, system.run (system.init emptyWorld) overwritten = some s ∧
    s.finished? 0 = some (⟨"client", 1000000000, 1, 60000000000⟩, .returned true) ∧
    .vanished ∉ (turns s.log 0).map Turn.reply :=
  System.exists_of_any (by decide +kernel)

theorem allowRateLimit_retries_overwritten : ∃ s, system.run (system.init emptyWorld) overwritten = some s ∧
    s.finished? 0 = some (⟨"client", 1000000000, 1, 60000000000⟩, .returned true) ∧ Retries s 0 := by
  obtain ⟨s, hs, hfinished, hkept⟩ := overwritten_run
  refine ⟨s, hs, hfinished, (allowRateLimit_retries hs 0).mpr fun t F hsuf hvanished => ?_⟩
  have hmem := List.mem_map_of_mem (f := Turn.reply) (hsuf.mem List.mem_cons_self)
  exact absurd (hvanished ▸ hmem) hkept

end Go42.Cache.Memcached.Interference
