-- SUMMARY: The cleanup of expired sessions: a run in which it takes part looks to every other call like the run without it.
import Go42.Auth.Issues
import Go42.Auth.Runs
import Go42.Lib.Hiding

/-!
# Cleanup of sessions

A row that expired is no different from a row that is missing: no call reads it, and none
extends it.
-/

namespace Go42.Auth

open Prog (Issues)

variable {P : Platform} {S : Service} {t t' : Tables} {now pick : ℤ} {q : Stmt}

/-! ## Rows after a statement -/

/-- The statement may change `auth_sessions`. -/
def Stmt.movesSessions : Stmt → Bool
  | .insertSession _ | .rotateSession _ _ _ _ _ | .revokeSession _ _ | .deleteSessions _ _ => true
  | _ => false

/-- What `RotateSession` selects. -/
def Tables.mayRotate (t : Tables) (sessionID userUUID previousTokenID : String) (now : ℤ)
    (s : Session) : Bool :=
  s.refreshTokenID = previousTokenID && (s.id = sessionID && s.revokedAt.isNone &&
    now < s.expiresAt && t.hasOwner s userUUID)

/-- What `RevokeSession` selects. -/
def Tables.mayRevoke (t : Tables) (sessionID userUUID : String) (s : Session) : Bool :=
  s.id = sessionID && s.revokedAt.isNone && t.users.any fun u => u.uuid = userUUID && u.id = s.userID

/-- The rows that a statement leaves. -/
inductive SessionsAfter (t : Tables) (now : ℤ) : Stmt → List Session → Prop where
  | same {q : Stmt} : q.movesSessions = false → SessionsAfter t now q t.sessions
  | inserted {s : Session} : (∀ x ∈ t.sessions, x.id ≠ s.id) →
      SessionsAfter t now (.insertSession s) (t.sessions ++ [s])
  | rotated {sid uid prev next : String} {expiresAt : ℤ} :
      SessionsAfter t now (.rotateSession sid uid prev next expiresAt) (t.sessions.map fun x =>
        if t.mayRotate sid uid prev now x then { x with refreshTokenID := next, expiresAt := expiresAt }
        else x)
  | revoked {sid uid : String} : SessionsAfter t now (.revokeSession sid uid) (t.sessions.map fun x =>
      if t.mayRevoke sid uid x then { x with revokedAt := some now } else x)
  | deleted {ids : List UUID} {cutoff : ℤ} : SessionsAfter t now (.deleteSessions ids cutoff)
      (t.sessions.filter fun x => !(ids.contains x.id && x.expiresAt ≤ cutoff))

/-- Writing changed rows back changes these rows. -/
theorem sessions_setSession {p : Session → Bool} {g : Session → Session}
    (hg : ∀ x, (g x).id = x.id) (hkeys : (t.sessions.map Session.id).Nodup) :
    (applyAll t ((t.sessions.filter p).map fun s => .setSession (g s))).sessions =
      t.sessions.map fun x => if p x then g x else x := by
  have hrows : ∀ (rows : List Session) (t : Tables), (rows.map Session.id).Nodup →
      (applyAll t (rows.map fun s => .setSession (g s))).sessions =
        t.sessions.map fun x => ((rows.find? fun s => s.id = x.id).map g).getD x := by
    intro rows
    induction rows with
    | nil => intro t _; simp
    | cons r rows ih =>
        intro t hnodup
        rw [List.map_cons, List.nodup_cons] at hnodup
        rw [List.map_cons, applyAll_cons, ih _ hnodup.2]
        change (t.sessions.map _).map _ = _
        rw [List.map_map]
        apply List.map_congr_left
        intro x _
        by_cases hid : r.id = x.id
        · have hnone : rows.find? (fun s => s.id = (g r).id) = none := by
            rw [hg, List.find?_eq_none]
            intro y hy heq
            exact hnodup.1 (List.mem_map.mpr ⟨y, hy, of_decide_eq_true heq⟩)
          rw [Function.comp_apply, if_pos ((hg r).trans hid).symm, hnone, List.find?_cons,
            decide_eq_true hid]
          rfl
        · rw [Function.comp_apply, if_neg fun heq => hid ((hg r).symm.trans heq.symm),
            List.find?_cons, decide_eq_false hid]
  have hnodup : ((t.sessions.filter p).map Session.id).Nodup :=
    hkeys.sublist (List.filter_sublist.map _)
  rw [hrows _ _ hnodup]
  apply List.map_congr_left
  intro x hx
  by_cases hp : p x = true
  · have hfind : (t.sessions.filter p).find? (fun s => s.id = x.id) = some x := by
      cases hfind : (t.sessions.filter p).find? (fun s => s.id = x.id) with
      | none =>
          have hne := List.find?_eq_none.mp hfind x (List.mem_filter.mpr ⟨hx, hp⟩)
          exact absurd (decide_eq_true rfl) hne
      | some y =>
          have hy := List.mem_of_mem_filter (List.mem_of_find?_eq_some hfind)
          have hid : y.id = x.id := by simpa using List.find?_some hfind
          rw [List.inj_on_of_nodup_map hkeys hy hx hid]
    rw [hfind, if_pos hp]
    rfl
  · have hfind : (t.sessions.filter p).find? (fun s => s.id = x.id) = none := by
      rw [List.find?_eq_none]
      intro y hy heq
      obtain ⟨hmem, hpy⟩ := List.mem_filter.mp hy
      rw [List.inj_on_of_nodup_map hkeys hmem hx (of_decide_eq_true heq)] at hpy
      exact hp hpy
    rw [hfind, if_neg hp]
    rfl

/-- A key tells the row. -/
theorem any_filter_id {ss : List Session} (hkeys : (ss.map Session.id).Nodup) {x : Session}
    (hx : x ∈ ss) (p : Session → Bool) : ((ss.filter p).any fun s => s.id = x.id) = p x := by
  rw [Bool.eq_iff_iff, List.any_eq_true]
  constructor
  · rintro ⟨s, hs, hid⟩
    obtain ⟨hmem, hs⟩ := List.mem_filter.mp hs
    rwa [List.inj_on_of_nodup_map hkeys hmem hx (of_decide_eq_true hid)] at hs
  · exact fun hp => ⟨x, List.mem_filter.mpr ⟨hx, hp⟩, decide_eq_true rfl⟩

theorem sessions_rotateSession (hkeys : (t.sessions.map Session.id).Nodup) (now : ℤ)
    (sid uid prev next : String) (expiresAt : ℤ) :
    (applyAll t (((t.activeSessions sid uid now).filter fun s => s.refreshTokenID = prev).map fun s =>
      .setSession { s with refreshTokenID := next, expiresAt := expiresAt })).sessions =
      t.sessions.map fun x => if t.mayRotate sid uid prev now x then
        { x with refreshTokenID := next, expiresAt := expiresAt } else x := by
  rw [Tables.activeSessions, List.filter_filter, sessions_setSession (g := fun x =>
    { x with refreshTokenID := next, expiresAt := expiresAt }) (fun _ => rfl) hkeys]
  rfl

theorem sessions_revokeSession (hkeys : (t.sessions.map Session.id).Nodup) (now : ℤ)
    (sid uid : String) :
    (applyAll t ((t.revocableSessions sid uid).map fun s =>
      .setSession { s with revokedAt := some now })).sessions =
      t.sessions.map fun x => if t.mayRevoke sid uid x then { x with revokedAt := some now }
        else x := by
  rw [Tables.revocableSessions, sessions_setSession (g := fun x =>
    { x with revokedAt := some now }) (fun _ => rfl) hkeys]
  rfl

/-- Deleting rows by their keys. -/
theorem sessions_deleteSessions (rows : List Session) : ∀ t : Tables,
    (applyAll t (rows.map fun s => .deleteSession s.id)).sessions =
      t.sessions.filter fun x => !rows.any fun s => s.id = x.id := by
  induction rows with
  | nil => intro t; simp
  | cons r rows ih =>
      intro t
      rw [List.map_cons, applyAll_cons, ih]
      change (t.sessions.filter _).filter _ = _
      rw [List.filter_filter]
      apply List.filter_congr
      intro x _
      by_cases hid : r.id = x.id
      · simp [hid]
      · simp [hid, Ne.symm hid]

theorem sessions_deleteExpired (hkeys : (t.sessions.map Session.id).Nodup) (ids : List UUID)
    (cutoff : ℤ) :
    (applyAll t ((t.sessions.filter fun s => ids.contains s.id && s.expiresAt ≤ cutoff).map fun s =>
      .deleteSession s.id)).sessions =
      t.sessions.filter fun x => !(ids.contains x.id && x.expiresAt ≤ cutoff) := by
  rw [sessions_deleteSessions]
  apply List.filter_congr
  intro x hx
  congr 1
  rw [any_filter_id hkeys hx]

def Lock.isSession : Lock → Bool
  | .session _ => true
  | _ => false

/-- Other statements leave the table and its locks alone. -/
theorem Stmt.run_outside {emailEq : String → String → Bool} {r : Done q.Res Write Lock}
    (hq : q.movesSessions = false) (h : q.run emailEq now pick t = .ok r) :
    (∀ v ∈ r.writes, v.isSession = false) ∧ ∀ l ∈ r.locks, l.isSession = false := by
  cases q with
  | selectUser | selectRole | selectActiveSession =>
      obtain ⟨_, -, rfl⟩ := first_eq_ok h
      simp [Done.read]
  | selectRoles | selectRolePermissions | selectExpiredSessions => cases h; simp [Done.read]
  | insertUser u => cases Stmt.run_insertUser h; simp [Write.isSession, Lock.isSession]
  | insertUserRole ur => cases Stmt.run_insertUserRole h; simp [Write.isSession, Lock.isSession]
  | insertOutbox m => cases h; simp [Write.isSession]
  | updateUser id version updated =>
      rcases Stmt.run_updateUser h with rfl | ⟨row, -, -, -, -, rfl⟩
      · simp [Done.read]
      · simp [Write.isSession, Lock.isSession]
  | deleteUser id =>
      rcases Stmt.run_deleteUser h with rfl | ⟨row, -, -, -, rfl⟩
      · simp [Done.read]
      · simp [Write.isSession, Lock.isSession]
  | insertSession | rotateSession | revokeSession | deleteSessions => cases hq

theorem Stmt.run_sessions {emailEq : String → String → Bool} {r : Done q.Res Write Lock}
    (hkeys : (t.sessions.map Session.id).Nodup) (h : q.run emailEq now pick t = .ok r) :
    SessionsAfter t now q (applyAll t r.writes).sessions := by
  cases q with
  | insertSession s =>
      obtain ⟨hnew, rfl⟩ := Stmt.run_insertSession h
      exact .inserted hnew
  | rotateSession sid uid prev next expiresAt =>
      cases h
      dsimp only
      rw [sessions_rotateSession hkeys now]
      exact .rotated
  | revokeSession sid uid =>
      cases h
      dsimp only
      rw [sessions_revokeSession hkeys now]
      exact .revoked
  | deleteSessions ids cutoff =>
      cases h
      dsimp only
      rw [sessions_deleteExpired hkeys]
      exact .deleted
  | _ =>
      rw [sessions_applyAll (Stmt.run_outside rfl h).1]
      exact .same rfl

theorem SessionsAfter.keys {ss : List Session} (h : SessionsAfter t now q ss)
    (hkeys : (t.sessions.map Session.id).Nodup) : (ss.map Session.id).Nodup := by
  have hmap {f : Session → Session} (hf : ∀ x, (f x).id = x.id) :
      ((t.sessions.map f).map Session.id).Nodup := by
    have heq : (t.sessions.map f).map Session.id = t.sessions.map Session.id := by
      rw [List.map_map]
      exact List.map_congr_left fun x _ => hf x
    exact heq ▸ hkeys
  cases h with
  | same => exact hkeys
  | inserted hnew =>
      rw [List.map_append, List.map_singleton, ← List.concat_eq_append]
      apply List.Nodup.concat _ hkeys
      intro hmem
      obtain ⟨x, hx, hid⟩ := List.mem_map.mp hmem
      exact hnew x hx hid
  | rotated => exact hmap fun x => by split <;> rfl
  | revoked => exact hmap fun x => by split <;> rfl
  | deleted => exact hkeys.sublist (List.filter_sublist.map _)

/-! ## Two kinds of calls -/

/-- The times that a thread was told. -/
def reads : Observer Cmd Res ℤ
  | .now, .returned t => some t
  | _, _ => none

/-- The commands of the cleanup; it deletes by a cutoff that it was told. -/
inductive Cmd.Cleanup (F : List ℤ) : Cmd → Prop where
  | now : Cmd.Cleanup F .now
  | select {cutoff : ℤ} {limit : ℕ} : Cmd.Cleanup F (.sql .primary (.selectExpiredSessions cutoff limit))
  | delete {ids : List UUID} {cutoff : ℤ} : cutoff ∈ F →
      Cmd.Cleanup F (.sql .primary (.deleteSessions ids cutoff))

def cleans (call : Call) (F : List ℤ) (c : Cmd) : Prop :=
  match call with
  | .deleteExpiredSessions => c.Cleanup F
  | _ => c.serves

theorem cleans_of_serves {call : Call} (hcall : call ≠ .deleteExpiredSessions) {F : List ℤ} {c : Cmd}
    (h : c.serves) : cleans call F c := by
  cases call with
  | deleteExpiredSessions => exact absurd rfl hcall
  | _ => exact h

theorem serves_of_cleans {call : Call} (hcall : call ≠ .deleteExpiredSessions) {F : List ℤ} {c : Cmd}
    (h : cleans call F c) : c.serves := by
  cases call with
  | deleteExpiredSessions => exact absurd rfl hcall
  | _ => exact h

theorem body_cleans (req : Call) :
    (body P S req).Spec reads (cleans req) (fun _ _ => True) [] := by
  by_cases hreq : req = .deleteExpiredSessions
  · subst hreq
    apply Prog.Spec.map
    unfold Repository.deleteExpiredSessions
    apply Prog.Spec.seq
    apply Prog.Spec.call Cmd.Cleanup.now
    intro o
    cases o with
    | failed e => trivial
    | panicked v => trivial
    | returned cutoff =>
        apply Prog.Spec.seq
        apply Prog.Spec.call Cmd.Cleanup.select
        intro o
        cases o with
        | failed e => trivial
        | panicked v => trivial
        | returned ids =>
            dsimp only
            split
            · trivial
            · exact Prog.Spec.call (.delete (by simp [reads])) fun _ => trivial
  · exact (body_serves hreq).specAny fun F c => cleans_of_serves hreq

/-- What the two kinds of calls keep. -/
structure CleanupInv (log : AuthLog) (w : World) : Prop where
  told : ∀ {T : ℕ} {t : ℤ}, t ∈ log.facts reads T → t ≤ w.clock
  keys : (w.db.committed.sessions.map Session.id).Nodup
  begun : ∀ {T tx}, w.db.tx? T = some tx → ∃ r ∈ log, r.thread = T ∧ r.cmd = .begin
  outside : ∀ {T tx}, w.db.tx? T = some tx →
    (∀ v ∈ tx.writes, v.isSession = false) ∧ ∀ l ∈ tx.locks, l.isSession = false

theorem CleanupInv.init {w : World} (hw : w.Initial) : CleanupInv [] w where
  told h := by cases h
  keys := by simp [hw.sessions]
  begun h := by rw [hw.txs] at h; cases h
  outside h := by rw [hw.txs] at h; cases h

theorem exec_reads {log : AuthLog} {T : ℕ} {c : Cmd} {ch : Choice} {w w' : World}
    {o : Outcome (Res c)} {e : List Write} (h : exec P log T c ch w = some (o, e, w')) {t : ℤ}
    (ht : reads c o = some t) : t = w.clock := by
  cases c with
  | now =>
      cases o with
      | returned a =>
          cases ht
          cases ch <;> cases h
          rfl
      | failed e => cases ht
      | panicked v => cases ht
  | _ => cases o <;> cases ht

/-- Inside a transaction no call touches `auth_sessions`. -/
theorem not_moves_of_cleans {call : Call} {F : List ℤ} (h : cleans call F (.sql .transaction q)) :
    q.movesSessions = false := by
  have hserves : (Cmd.sql .transaction q).serves ∨ (Cmd.sql .transaction q).Cleanup F := by
    by_cases hcall : call = .deleteExpiredSessions
    · subst hcall
      exact .inr h
    · exact .inl (serves_of_cleans hcall h)
  rcases hserves with h | h
  · cases q with
    | insertSession | rotateSession | revokeSession | deleteSessions => cases h
    | _ => rfl
  · cases h

theorem CleanupInv.step {log : AuthLog} {T : ℕ} {call : Call} {c : Cmd} {ch : Choice} {w w' : World}
    {o : Outcome (Res c)} {e : List Write} (hi : CleanupInv log w)
    (ha : cleans call (log.facts reads T) c) (h : exec P log T c ch w = some (o, e, w')) :
    CleanupInv (⟨T, c, o, e⟩ :: log) w' := by
  have hclock := (exec_frame h).2
  have htold : ∀ {T' : ℕ} {t : ℤ}, t ∈ Log.facts reads (⟨T, c, o, e⟩ :: log) T' → t ≤ w'.clock := by
    intro T' t ht
    rcases Log.mem_facts_cons.mp ht with ⟨-, ht⟩ | ht
    · rw [exec_reads h ht, hclock]
    · exact hclock ▸ hi.told ht
  -- Where no transaction is opened or written.
  have hold (hkeys : (w'.db.committed.sessions.map Session.id).Nodup)
      (htx : ∀ {T' tx}, w'.db.tx? T' = some tx → w.db.tx? T' = some tx) :
      CleanupInv (⟨T, c, o, e⟩ :: log) w' := by
    refine ⟨htold, hkeys, fun htx' => ?_, fun htx' => hi.outside (htx htx')⟩
    obtain ⟨r, hr, hrest⟩ := hi.begun (htx htx')
    exact ⟨r, List.mem_cons_of_mem _ hr, hrest⟩
  cases exec_moves h with
  | quiet => exact hold hi.keys id
  | begin =>
      refine ⟨htold, hi.keys, fun {T' tx} htx => ?_, fun {T' tx} htx => ?_⟩
      · rcases eq_or_ne T' T with rfl | hne
        · exact ⟨_, List.mem_cons_self, rfl, rfl⟩
        · rw [Store.begin_tx_ne hne] at htx
          obtain ⟨r, hr, hrest⟩ := hi.begun htx
          exact ⟨r, List.mem_cons_of_mem _ hr, hrest⟩
      · rcases eq_or_ne T' T with rfl | hne
        · rw [Store.begin_tx_self] at htx
          cases htx
          exact ⟨by simp, by simp⟩
        · rw [Store.begin_tx_ne hne] at htx
          exact hi.outside htx
  | commit htx =>
      apply hold
      · rw [Store.commit_committed, Store.commit_of_tx htx, sessions_applyAll (hi.outside htx).1]
        exact hi.keys
      · intro T' tx' htx'
        rcases eq_or_ne T' T with rfl | hne
        · rw [Store.commit_tx_self] at htx'
          cases htx'
        · rwa [Store.commit_tx_ne hne] at htx'
  | rollback =>
      apply hold hi.keys
      intro T' tx' htx'
      rcases eq_or_ne T' T with rfl | hne
      · rw [Store.rollback_tx_self] at htx'
        cases htx'
      · rwa [Store.rollback_tx_ne hne] at htx'
  | primary hrun hfree => exact hold ((Stmt.run_sessions hi.keys hrun).keys hi.keys) id
  | inTx htx hrun hkey hfree =>
      rename_i q pick r tx snapshot
      obtain ⟨hwrites, hlocks⟩ := Stmt.run_outside (not_moves_of_cleans ha) hrun
      refine ⟨htold, ?_, fun {T' tx'} htx' => ?_, fun {T' tx'} htx' => ?_⟩
      · rw [Store.write_committed]
        simpa [Store.write, htx] using hi.keys
      · rcases eq_or_ne T' T with rfl | hne
        · obtain ⟨r, hr, hrest⟩ := hi.begun htx
          exact ⟨r, List.mem_cons_of_mem _ hr, hrest⟩
        · rw [Store.write_tx_ne hne] at htx'
          obtain ⟨r, hr, hrest⟩ := hi.begun htx'
          exact ⟨r, List.mem_cons_of_mem _ hr, hrest⟩
      · rcases eq_or_ne T' T with rfl | hne
        · rw [Store.write_tx_self htx] at htx'
          cases htx'
          obtain ⟨hws, hls⟩ := hi.outside htx
          refine ⟨fun v hv => ?_, fun l hl => ?_⟩
          · exact (List.mem_append.mp hv).elim (hws v) (hwrites v)
          · exact (List.mem_append.mp hl).elim (hls l) (hlocks l)
        · rw [Store.write_tx_ne hne] at htx'
          exact hi.outside htx'

theorem CleanupInv.rollback {log : AuthLog} {w : World} (hi : CleanupInv log w) (T : ℕ) :
    CleanupInv log { w with db := w.db.rollback T } := by
  have htx : ∀ {T' tx}, (w.db.rollback T).tx? T' = some tx → w.db.tx? T' = some tx := by
    intro T' tx htx
    rcases eq_or_ne T' T with rfl | hne
    · rw [Store.rollback_tx_self] at htx
      cases htx
    · rwa [Store.rollback_tx_ne hne] at htx
  exact ⟨hi.told, hi.keys, fun h => hi.begun (htx h), fun h => hi.outside (htx h)⟩

theorem CleanupInv.env {log : AuthLog} {w : World} (hi : CleanupInv log w) (e : Env) :
    CleanupInv log (w.env e) := by
  cases e with
  | tick d => exact ⟨fun ht => (hi.told ht).trans (by simp [World.env]), hi.keys, hi.begun, hi.outside⟩
  | abort T => exact hi.rollback T

theorem cleanup_sound : (system P S).Sound reads cleans (fun _ _ _ => True) CleanupInv where
  body := body_cleans
  step hi ha h := hi.step ha h
  env hi h := by
    cases h
    exact hi.env _
  crash hi := hi.rollback _

/-- What holds of every state of every run, for the cleanup. -/
abbrev Tidy (P : Platform) (S : Service) (s : (system P S).State) : Prop :=
  System.Good (system P S) reads cleans (fun _ _ _ => True) CleanupInv s

/-! ## Tables without some expired rows -/

/-- Everything but `auth_sessions`. -/
def Tables.others (t : Tables) : Tables := { t with sessions := [] }

theorem others_apply (t : Tables) (v : Write) : (apply t v).others = (apply t.others v).others := by
  cases v <;> rfl

theorem others_applyAll (ws : List Write) : ∀ {t t' : Tables}, t.others = t'.others →
    (applyAll t ws).others = (applyAll t' ws).others := by
  induction ws with
  | nil => exact fun h => h
  | cons v ws ih =>
      intro t t' h
      apply ih
      rw [others_apply, h, ← others_apply]

/-- Writes on sessions change nothing else. -/
theorem others_applyAll_sessions {ws : List Write} (h : ∀ v ∈ ws, v.isSession = true) :
    ∀ t : Tables, (applyAll t ws).others = t.others := by
  induction ws with
  | nil => exact fun t => rfl
  | cons v ws ih =>
      intro t
      rw [applyAll_cons, ih fun v' hv' => h v' (List.mem_cons_of_mem _ hv')]
      have hv := h v List.mem_cons_self
      cases v <;> first | rfl | cases hv

/-- A statement that does not look at `auth_sessions`. -/
def Stmt.sessionFree : Stmt → Bool
  | .insertSession _ | .selectActiveSession _ _ | .rotateSession _ _ _ _ _ | .revokeSession _ _
  | .selectExpiredSessions _ _ | .deleteSessions _ _ => false
  | _ => true

theorem Stmt.run_others {emailEq : String → String → Bool} (hq : q.sessionFree = true) :
    q.run emailEq now pick t = q.run emailEq now pick t.others := by
  cases q <;> first | rfl | cases hq

theorem Stmt.not_moves (hq : q.sessionFree = true) : q.movesSessions = false := by
  cases q <;> first | rfl | cases hq

/-- The tables `t` are `t'` without rows that expired. `alive` says which rows are left. -/
structure Cleaned (alive : UUID → Bool) (now : ℤ) (t t' : Tables) : Prop where
  others : t.others = t'.others
  sessions : t.sessions = t'.sessions.filter fun x => alive x.id
  expired : ∀ x ∈ t'.sessions, alive x.id = false → x.expiresAt ≤ now

/-- The session was opened by these writes. -/
def opens (sessionID : String) (ws : List Write) : Bool :=
  ws.any fun
    | .insertSession s => s.id = sessionID
    | _ => false

namespace Cleaned

variable {alive : UUID → Bool}

theorem later {now' : ℤ} (h : Cleaned alive now t t') (hle : now ≤ now') : Cleaned alive now' t t' :=
  ⟨h.others, h.sessions, fun x hx hdead => (h.expired x hx hdead).trans hle⟩

theorem users (h : Cleaned alive now t t') : t.users = t'.users := by
  have heq : t.others.users = t'.others.users := by rw [h.others]
  exact heq

theorem keys (h : Cleaned alive now t t') (hkeys : (t'.sessions.map Session.id).Nodup) :
    (t.sessions.map Session.id).Nodup := by
  rw [h.sessions]
  exact hkeys.sublist (List.filter_sublist.map _)

/-- A condition that no expired row meets selects the same rows. -/
theorem filter_eq (h : Cleaned alive now t t') {p : Session → Bool}
    (hp : ∀ x, p x = true → now < x.expiresAt) : t.sessions.filter p = t'.sessions.filter p := by
  rw [h.sessions, List.filter_filter]
  apply List.filter_congr
  intro x hx
  cases halive : alive x.id with
  | true => rw [Bool.and_true]
  | false =>
      cases hpx : p x with
      | false => rfl
      | true => exact absurd (h.expired x hx halive) (Int.not_le.mpr (hp x hpx))

/-- Changing rows in place on both sides. -/
theorem map (h : Cleaned alive now t t') {t₁ t₁' : Tables} (hothers : t₁.others = t₁'.others)
    {f : Session → Session} (hid : ∀ x, (f x).id = x.id)
    (hexpired : ∀ x, x.expiresAt ≤ now → (f x).expiresAt ≤ now) (hs : t₁.sessions = t.sessions.map f)
    (hs' : t₁'.sessions = t'.sessions.map f) : Cleaned alive now t₁ t₁' where
  others := hothers
  sessions := by
    rw [hs, hs', h.sessions, List.filter_map]
    congr 1
    apply List.filter_congr
    intro x _
    rw [Function.comp_apply, hid]
  expired x hx hdead := by
    rw [hs'] at hx
    obtain ⟨y, hy, rfl⟩ := List.mem_map.mp hx
    rw [hid] at hdead
    exact hexpired y (h.expired y hy hdead)

/-- What a statement does on both sides. -/
structure Agrees (emailEq : String → String → Bool) (now pick : ℤ) (t t' : Tables) (q : Stmt)
    (r r' : Done q.Res Write Lock) : Prop where
  left : q.run emailEq now pick t = .ok r
  right : q.run emailEq now pick t' = .ok r'
  answer : r.answer = r'.answer
  locks : r.locks = r'.locks ∨ (∀ l ∈ r.locks, l.isSession = true) ∧ ∀ l ∈ r'.locks, l.isSession = true
  opens : ∀ sid, opens sid r.writes = opens sid r'.writes
  cleaned : ∃ alive', Cleaned alive' now (applyAll t r.writes) (applyAll t' r'.writes)

variable {emailEq : String → String → Bool}

/-- A statement that writes no session. -/
theorem agrees_of_eq (h : Cleaned alive now t t') (hq : q.movesSessions = false)
    (heq : q.run emailEq now pick t = q.run emailEq now pick t') :
    (∃ err, q.run emailEq now pick t = .error err ∧ q.run emailEq now pick t' = .error err) ∨
      ∃ r r', Agrees emailEq now pick t t' q r r' := by
  cases hrun : q.run emailEq now pick t' with
  | error err => exact .inl ⟨err, heq.trans hrun, rfl⟩
  | ok r =>
      have hws := (Stmt.run_outside hq hrun).1
      refine .inr ⟨r, r, heq.trans hrun, hrun, rfl, .inl rfl, fun _ => rfl, alive,
        others_applyAll _ h.others, ?_, ?_⟩
      · rw [sessions_applyAll hws, sessions_applyAll hws]
        exact h.sessions
      · rw [sessions_applyAll hws]
        exact h.expired

theorem activeSessions (h : Cleaned alive now t t') (sid uid : String) :
    t.activeSessions sid uid now = t'.activeSessions sid uid now := by
  unfold Tables.activeSessions Tables.hasOwner
  rw [h.users]
  apply h.filter_eq
  intro x hx
  simp only [Bool.and_eq_true, decide_eq_true_eq] at hx
  exact hx.1.2

theorem agrees_insertSession (h : Cleaned alive now t t') {s : Session}
    (hfresh : ∀ x ∈ t'.sessions, x.id ≠ s.id) :
    (∃ err, (Stmt.insertSession s).run emailEq now pick t = .error err ∧
        (Stmt.insertSession s).run emailEq now pick t' = .error err) ∨
      ∃ r r', Agrees emailEq now pick t t' (.insertSession s) r r' := by
  have hfresh' : ∀ x ∈ t.sessions, x.id ≠ s.id := by
    rw [h.sessions]
    exact fun x hx => hfresh x (List.mem_of_mem_filter hx)
  have hnone {ss : List Session} (hss : ∀ x ∈ ss, x.id ≠ s.id) :
      (ss.any fun x => decide (x.id = s.id)) = false := by
    simpa using hss
  by_cases huser : t'.users.any (fun u => decide (u.id = s.userID)) = true
  · have hrun {u : Tables} (hu : u.users = t'.users) (hss : ∀ x ∈ u.sessions, x.id ≠ s.id) :
        (Stmt.insertSession s).run emailEq now pick u =
          .ok ⟨(), [.insertSession s], [.session s.id]⟩ := by
      simp only [Stmt.run, hu, huser, hnone hss]
      rfl
    refine .inr ⟨_, _, hrun h.users hfresh', hrun rfl hfresh, rfl, .inl rfl, fun _ => rfl,
      fun id => id = s.id || alive id, others_applyAll _ h.others, ?_, ?_⟩
    · change t.sessions ++ [s] = (t'.sessions ++ [s]).filter _
      rw [List.filter_append, h.sessions]
      congr 1
      · apply List.filter_congr
        intro x hx
        simp [hfresh x hx]
      · simp
    · intro x hx hdead
      rcases List.mem_append.mp hx with hx | hx
      · simp only [Bool.or_eq_false_iff] at hdead
        exact h.expired x hx hdead.2
      · cases List.mem_singleton.mp hx
        simp at hdead
  · have hrun {u : Tables} (hu : u.users = t'.users) :
        (Stmt.insertSession s).run emailEq now pick u = .error errForeignKeyViolated := by
      simp only [Stmt.run, hu, huser]
      rfl
    exact .inl ⟨_, hrun h.users, hrun rfl⟩

/-- A rotation finds the same rows, none of which expired. -/
theorem agrees_rotateSession (h : Cleaned alive now t t')
    (hkeys : (t'.sessions.map Session.id).Nodup) {sid uid prev next : String} {expiresAt : ℤ} :
    ∃ r r', Agrees emailEq now pick t t' (.rotateSession sid uid prev next expiresAt) r r' := by
  have hrows := h.activeSessions sid uid
  have hrun : (Stmt.rotateSession sid uid prev next expiresAt).run emailEq now pick t =
      (Stmt.rotateSession sid uid prev next expiresAt).run emailEq now pick t' := by
    simp only [Stmt.run, hrows]
  have hselect : t.mayRotate sid uid prev now = t'.mayRotate sid uid prev now := by
    unfold Tables.mayRotate Tables.hasOwner
    rw [h.users]
  have hs := sessions_rotateSession (h.keys hkeys) now sid uid prev next expiresAt
  rw [hrows, hselect] at hs
  refine ⟨_, _, hrun, rfl, rfl, .inl rfl, fun _ => rfl, alive, ?_⟩
  apply h.map (others_applyAll _ h.others) _ _ hs (sessions_rotateSession hkeys now sid uid prev next expiresAt)
  · intro x
    split <;> rfl
  · -- A row that is rotated has not expired.
    intro x hx
    split
    · rename_i hrotate
      simp only [Tables.mayRotate, Bool.and_eq_true, decide_eq_true_eq] at hrotate
      exact absurd hx (Int.not_le.mpr hrotate.2.1.2)
    · exact hx

/-- A revocation may reach expired rows, which stay expired. -/
theorem agrees_revokeSession (h : Cleaned alive now t t')
    (hkeys : (t'.sessions.map Session.id).Nodup) {sid uid : String} :
    ∃ r r', Agrees emailEq now pick t t' (.revokeSession sid uid) r r' := by
  have hsession {α : Type} {rows : List α} {f : α → Session} :
      ∀ v ∈ rows.map fun s => Write.setSession (f s), v.isSession = true := by
    simp [Write.isSession]
  have hselect : t.mayRevoke sid uid = t'.mayRevoke sid uid := by
    unfold Tables.mayRevoke
    rw [h.users]
  have hs := sessions_revokeSession (h.keys hkeys) now sid uid
  rw [hselect] at hs
  refine ⟨_, _, rfl, rfl, rfl, .inr ⟨?_, ?_⟩, ?_, alive, ?_⟩
  · simp [Lock.isSession]
  · simp [Lock.isSession]
  · intro id
    have hopens {rows : List Session} {f : Session → Session} :
        opens id (rows.map fun s => .setSession (f s)) = false := by
      rw [opens, List.any_map, List.any_eq_false]
      intro x _ hx
      cases hx
    rw [hopens, hopens]
  · apply h.map _ _ _ hs (sessions_revokeSession hkeys now sid uid)
    · rw [others_applyAll_sessions hsession, others_applyAll_sessions hsession, h.others]
    · intro x
      split <;> rfl
    · intro x hx
      split
      · exact hx
      · exact hx

/-- A statement that serves requests does the same without the expired rows. -/
theorem agrees (h : Cleaned alive now t t') (emailEq : String → String → Bool) (pick : ℤ)
    (hkeys : (t'.sessions.map Session.id).Nodup) {c : Conn} (hserves : (Cmd.sql c q).serves)
    (hfresh : ∀ s, q = .insertSession s → ∀ x ∈ t'.sessions, x.id ≠ s.id) :
    (∃ err, q.run emailEq now pick t = .error err ∧ q.run emailEq now pick t' = .error err) ∨
      ∃ r r', Agrees emailEq now pick t t' q r r' := by
  by_cases hfree : q.sessionFree = true
  · apply h.agrees_of_eq (Stmt.not_moves hfree)
    rw [Stmt.run_others hfree, Stmt.run_others (t := t') hfree, h.others]
  · cases q with
    | insertSession s => exact h.agrees_insertSession (hfresh s rfl)
    | rotateSession sid uid prev next expiresAt => exact .inr (h.agrees_rotateSession hkeys)
    | revokeSession sid uid => exact .inr (h.agrees_revokeSession hkeys)
    | selectActiveSession sid uid =>
        apply h.agrees_of_eq rfl
        simp only [Stmt.run, h.activeSessions]
    | selectExpiredSessions cutoff limit => exact hserves.elim
    | deleteSessions ids cutoff => exact hserves.elim
    | _ => exact absurd rfl hfree

/-- Deleting expired rows on one side. -/
theorem delete (h : Cleaned alive now t t') (hkeys : (t'.sessions.map Session.id).Nodup)
    {ids : List UUID} {cutoff : ℤ} (hcutoff : cutoff ≤ now) {r : Done ℕ Write Lock}
    (hrun : (Stmt.deleteSessions ids cutoff).run emailEq now pick t = .ok r) :
    ∃ alive', Cleaned alive' now (applyAll t r.writes) t' := by
  let deleted (x : Session) : Bool := ids.contains x.id && x.expiresAt ≤ cutoff
  have halive : ∀ x ∈ t'.sessions,
      (!(t'.sessions.filter deleted).any fun s => s.id = x.id) = !deleted x := by
    intro x hx
    rw [any_filter_id hkeys hx]
  cases hrun
  refine ⟨fun id => alive id && !(t'.sessions.filter deleted).any fun s => s.id = id, ?_, ?_, ?_⟩
  · rw [← h.others]
    apply others_applyAll_sessions
    intro v hv
    obtain ⟨x, -, rfl⟩ := List.mem_map.mp hv
    rfl
  · rw [sessions_deleteExpired (h.keys hkeys), h.sessions, List.filter_filter]
    apply List.filter_congr
    intro x hx
    rw [halive x hx, Bool.and_comm]
  · intro x hx hdead
    rw [halive x hx] at hdead
    cases hold : alive x.id with
    | false => exact h.expired x hx hold
    | true =>
        rw [hold, Bool.true_and, Bool.not_eq_false', Bool.and_eq_true] at hdead
        exact (of_decide_eq_true hdead.2).trans hcutoff

end Cleaned
/-! ## Runs without the cleanup -/

structure CleanedTx (tx tx' : Tx Tables Write Lock) : Prop where
  snapshot : tx.snapshot.others = tx'.snapshot.others
  writes : tx.writes = tx'.writes
  locks : tx.locks = tx'.locks

structure CleanedWorld (w w' : World) : Prop where
  clock : w.clock = w'.clock
  committed : ∃ alive, Cleaned alive w.clock w.db.committed w'.db.committed
  txs : ∀ T, Option.Rel CleanedTx (w.db.tx? T) (w'.db.tx? T)

/-- What the logs tell the machine. -/
structure CleanedLog (log log' : AuthLog) : Prop where
  shows : ∀ f, f ≠ .cleaned → shows log f = shows log' f
  opened : ∀ sid, openedIn log sid = openedIn log' sid

structure CleanedRun (log : AuthLog) (w : World) (log' : AuthLog) (w' : World) : Prop where
  log : CleanedLog log log'
  world : CleanedWorld w w'

theorem CleanedRun.init {w : World} (hw : w.Initial) : CleanedRun [] w [] w where
  log := ⟨fun _ _ => rfl, fun _ => rfl⟩
  world := by
    refine ⟨rfl, ⟨fun _ => true, rfl, by simp, by simp⟩, fun T => ?_⟩
    rw [hw.txs]
    exact .none

namespace CleanedWorld

variable {w w' : World} (h : CleanedWorld w w')
include h

theorem others : w.db.committed.others = w'.db.committed.others := by
  obtain ⟨alive, hcleaned⟩ := h.committed
  exact hcleaned.others

theorem tick (d : ℕ) : CleanedWorld (w.env (.tick d)) (w'.env (.tick d)) := by
  obtain ⟨alive, hcleaned⟩ := h.committed
  exact ⟨by simp [World.env, h.clock], ⟨alive, hcleaned.later (by simp [World.env])⟩, h.txs⟩

theorem begin (T : ℕ) : CleanedWorld { w with db := w.db.begin T } { w' with db := w'.db.begin T } := by
  refine ⟨h.clock, h.committed, fun T' => ?_⟩
  rcases eq_or_ne T' T with rfl | hne
  · rw [Store.begin_tx_self, Store.begin_tx_self]
    exact .some ⟨h.others, rfl, rfl⟩
  · rw [Store.begin_tx_ne hne, Store.begin_tx_ne hne]
    exact h.txs T'

theorem rollback (T : ℕ) :
    CleanedWorld { w with db := w.db.rollback T } { w' with db := w'.db.rollback T } := by
  refine ⟨h.clock, h.committed, fun T' => ?_⟩
  rcases eq_or_ne T' T with rfl | hne
  · rw [Store.rollback_tx_self, Store.rollback_tx_self]
    exact .none
  · rw [Store.rollback_tx_ne hne, Store.rollback_tx_ne hne]
    exact h.txs T'

/-- Rolling back a transaction that is not open. -/
theorem rollback_left {T : ℕ} (hT : w.db.tx? T = none) :
    CleanedWorld { w with db := w.db.rollback T } w' := by
  refine ⟨h.clock, h.committed, fun T' => ?_⟩
  rcases eq_or_ne T' T with rfl | hne
  · rw [Store.rollback_tx_self]
    exact hT ▸ h.txs T'
  · rw [Store.rollback_tx_ne hne]
    exact h.txs T'

theorem commit {T : ℕ} {tx tx' : Tx Tables Write Lock} (htx : w.db.tx? T = some tx)
    (htx' : w'.db.tx? T = some tx') (hwrites : tx.writes = tx'.writes)
    (hsession : ∀ v ∈ tx.writes, v.isSession = false) :
    CleanedWorld { w with db := (w.db.commit T).2 } { w' with db := (w'.db.commit T).2 } := by
  refine ⟨h.clock, ?_, fun T' => ?_⟩
  · obtain ⟨alive, hcleaned⟩ := h.committed
    refine ⟨alive, ?_, ?_, ?_⟩
    · rw [Store.commit_of_tx htx, Store.commit_of_tx htx', ← hwrites]
      exact others_applyAll _ hcleaned.others
    · rw [Store.commit_of_tx htx, Store.commit_of_tx htx', ← hwrites]
      rw [sessions_applyAll hsession, sessions_applyAll hsession]
      exact hcleaned.sessions
    · rw [Store.commit_of_tx htx', ← hwrites, sessions_applyAll hsession]
      exact hcleaned.expired
  · rcases eq_or_ne T' T with rfl | hne
    · rw [Store.commit_tx_self, Store.commit_tx_self]
      exact .none
    · rw [Store.commit_tx_ne hne, Store.commit_tx_ne hne]
      exact h.txs T'

theorem view (T : ℕ) (snapshot : Bool) (c : Conn) :
    Option.Rel (fun t t' => t.others = t'.others) (w.db.view T snapshot c)
      (w'.db.view T snapshot c) := by
  cases c with
  | primary => exact .some h.others
  | transaction =>
      apply optionRel_map _ (h.txs T)
      intro tx tx' htx
      rw [htx.writes]
      apply others_applyAll
      cases snapshot with
      | true => exact htx.snapshot
      | false => exact h.others

theorem lockedByOther (T : ℕ) (l : Lock) :
    w.db.lockedByOther (Lock.conflicts P) T l = w'.db.lockedByOther (Lock.conflicts P) T l := by
  rw [Bool.eq_iff_iff, ← not_iff_not, Bool.not_eq_true, Bool.not_eq_true,
    Store.lockedByOther_eq_false, Store.lockedByOther_eq_false]
  constructor
  · intro hfree T' tx' hne htx' l' hl'
    obtain ⟨tx, htx, hrel⟩ := optionRel_some_right (htx' ▸ h.txs T')
    exact hfree T' tx hne htx l' (hrel.locks ▸ hl')
  · intro hfree T' tx hne htx l' hl'
    obtain ⟨tx', htx', hrel⟩ := optionRel_some_left (htx ▸ h.txs T')
    exact hfree T' tx' hne htx' l' (hrel.locks ▸ hl')

end CleanedWorld

/-- Nobody keeps a session locked. -/
theorem CleanupInv.unlocked {log : AuthLog} {w : World} (hi : CleanupInv log w) (T : ℕ) {l : Lock}
    (hl : l.isSession = true) : w.db.lockedByOther (Lock.conflicts P) T l = false := by
  rw [Store.lockedByOther_eq_false]
  intro T' tx _ htx l' hl'
  have hl'' := (hi.outside htx).2 l' hl'
  cases l with
  | session id =>
      cases l' with
      | session id' => cases hl''
      | _ => rfl
  | _ => cases hl

theorem shows_cons {log : AuthLog} {T : ℕ} {c : Cmd} {o : Outcome (Res c)} {e : List Write}
    {f : Fact} : shows (⟨T, c, o, e⟩ :: log) f = (decide (observe c o = some f) || shows log f) :=
  rfl

theorem openedIn_cons {log : AuthLog} {T : ℕ} {c : Cmd} {o : Outcome (Res c)} {e : List Write}
    {sid : String} : openedIn (⟨T, c, o, e⟩ :: log) sid = (opens sid e || openedIn log sid) :=
  rfl

theorem CleanedLog.cons {log log' : AuthLog} (h : CleanedLog log log') {T : ℕ} {c : Cmd}
    {o : Outcome (Res c)} {e e' : List Write} (he : ∀ sid, opens sid e = opens sid e') :
    CleanedLog (⟨T, c, o, e⟩ :: log) (⟨T, c, o, e'⟩ :: log') where
  shows f hf := by rw [shows_cons, shows_cons, h.shows f hf]
  opened sid := by rw [openedIn_cons, openedIn_cons, he, h.opened]

/-- The record of a step of the cleanup tells nothing. -/
theorem CleanedLog.skip {log log' : AuthLog} (h : CleanedLog log log') {T : ℕ} {c : Cmd}
    {o : Outcome (Res c)} {e : List Write} (hobs : ∀ f, observe c o = some f → f = .cleaned)
    (he : ∀ sid, opens sid e = false) : CleanedLog (⟨T, c, o, e⟩ :: log) log' where
  shows f hf := by
    rw [shows_cons, decide_eq_false fun heq => hf (hobs f heq), Bool.false_or, h.shows f hf]
  opened sid := by rw [openedIn_cons, he, Bool.false_or, h.opened]

/-- Two steps with the same answer, from and to states that differ in expired rows. -/
structure CleanedStep {α : Type} (r r' : Outcome α × List Write × World) : Prop where
  answer : r.1 = r'.1
  opens : ∀ sid, opens sid r.2.1 = opens sid r'.2.1
  world : CleanedWorld r.2.2 r'.2.2

/-- The same writes in the transactions of a thread. -/
theorem CleanedWorld.writeTx {w w' : World} {T : ℕ} (h : CleanedWorld w w')
    {tx tx' : Tx Tables Write Lock} (htx : w.db.tx? T = some tx) (htx' : w'.db.tx? T = some tx')
    (hrel : CleanedTx tx tx') {R : Type} (r : Done R Write Lock) :
    CleanedStep (Outcome.returned r.answer, (w.db.write T r.writes r.locks .transaction).1,
        { w with db := (w.db.write T r.writes r.locks .transaction).2 })
      (.returned r.answer, (w'.db.write T r.writes r.locks .transaction).1,
        { w' with db := (w'.db.write T r.writes r.locks .transaction).2 }) := by
  have hwrite : (w.db.write T r.writes r.locks .transaction).1 = [] := by
    simp only [Store.write, htx]
  have hwrite' : (w'.db.write T r.writes r.locks .transaction).1 = [] := by
    simp only [Store.write, htx']
  refine ⟨rfl, fun sid => by rw [hwrite, hwrite'], h.clock, ?_, fun T' => ?_⟩
  · rw [Store.write_committed, Store.write_committed, hwrite, hwrite']
    exact h.committed
  · rcases eq_or_ne T' T with rfl | hne
    · rw [Store.write_tx_self htx, Store.write_tx_self htx', hrel.writes, hrel.locks]
      exact .some ⟨hrel.snapshot, rfl, rfl⟩
    · rw [Store.write_tx_ne hne, Store.write_tx_ne hne]
      exact h.txs T'

/-- No call looks at `auth_sessions` inside a transaction. -/
theorem sessionFree_of_serves (h : (Cmd.sql .transaction q).serves) : q.sessionFree = true := by
  cases q with
  | insertSession | rotateSession | revokeSession | deleteSessions | selectActiveSession
  | selectExpiredSessions => cases h
  | _ => rfl

theorem keyUnused_others (t : Tables) (pick : ℤ) (q : Stmt) :
    keyUnused t pick q = keyUnused t.others pick q := by
  cases q <;> rfl

section Exec

variable {log log' : AuthLog} {w w' : World} {T : ℕ}

/-- Both sides ask for locks that nobody else holds, or both wait. -/
theorem CleanedWorld.waits (h : CleanedWorld w w') (hi : CleanupInv log w) (hi' : CleanupInv log' w')
    {ls ls' : List Lock}
    (hls : ls = ls' ∨ (∀ l ∈ ls, l.isSession = true) ∧ ∀ l ∈ ls', l.isSession = true) :
    ls.any (w.db.lockedByOther (Lock.conflicts P) T) = ls'.any (w'.db.lockedByOther (Lock.conflicts P) T) := by
  rcases hls with rfl | ⟨hls, hls'⟩
  · rw [funext fun l => h.lockedByOther (P := P) T l]
  · rw [List.any_eq_false.mpr fun l hl => ne_true_of_eq_false (hi.unlocked T (hls l hl)),
      List.any_eq_false.mpr fun l hl => ne_true_of_eq_false (hi'.unlocked T (hls' l hl))]

/-- Outside a transaction, a statement sees and writes the rows that are left. -/
theorem primary_cleaned (h : CleanedWorld w w') (hi : CleanupInv log w) (hi' : CleanupInv log' w')
    (hserves : (Cmd.sql .primary q).serves)
    (hfresh : ∀ s, q = .insertSession s → ∀ x ∈ w'.db.committed.sessions, x.id ≠ s.id)
    (snapshot : Bool) (pick : ℤ) : Option.Rel CleanedStep
      ((w.db.statement (Lock.conflicts P) T snapshot .primary fun _ t =>
        q.run P.emailEq w.clock pick t).map fun r => (r.1, r.2.1, { w with db := r.2.2 }))
      ((w'.db.statement (Lock.conflicts P) T snapshot .primary fun _ t =>
        q.run P.emailEq w'.clock pick t).map fun r => (r.1, r.2.1, { w' with db := r.2.2 })) := by
  obtain ⟨db, clock⟩ := w
  obtain ⟨db', clock'⟩ := w'
  obtain rfl : clock = clock' := h.clock
  obtain ⟨alive, hcleaned⟩ := h.committed
  simp only [Store.statement, Store.view]
  rcases hcleaned.agrees P.emailEq pick hi'.keys hserves hfresh with
    ⟨err, hrun, hrun'⟩ | ⟨r, r', hagrees⟩
  · rw [hrun, hrun']
    exact .some ⟨rfl, fun _ => rfl, h⟩
  · rw [hagrees.left, hagrees.right]
    simp only [h.waits (P := P) (T := T) hi hi' hagrees.locks, hagrees.answer]
    split
    · exact .none
    · exact .some ⟨rfl, hagrees.opens, h.clock, hagrees.cleaned, h.txs⟩

/-- Inside a transaction, it does not look at `auth_sessions`. -/
theorem transaction_cleaned (h : CleanedWorld w w') (hi : CleanupInv log w) (hi' : CleanupInv log' w')
    (hfree : q.sessionFree = true) (snapshot : Bool) (pick : ℤ) : Option.Rel CleanedStep
      ((w.db.statement (Lock.conflicts P) T snapshot .transaction fun _ t =>
        q.run P.emailEq w.clock pick t).map fun r => (r.1, r.2.1, { w with db := r.2.2 }))
      ((w'.db.statement (Lock.conflicts P) T snapshot .transaction fun _ t =>
        q.run P.emailEq w'.clock pick t).map fun r => (r.1, r.2.1, { w' with db := r.2.2 })) := by
  obtain ⟨db, clock⟩ := w
  obtain ⟨db', clock'⟩ := w'
  obtain rfl : clock = clock' := h.clock
  have hview := h.view T snapshot .transaction
  simp only [Store.statement]
  cases hv : db.view T snapshot .transaction with
  | none =>
      cases hv' : db'.view T snapshot .transaction with
      | none => exact .some ⟨rfl, fun _ => rfl, h⟩
      | some t' => rw [hv, hv'] at hview; cases hview
  | some t =>
      obtain ⟨t', hv', hothers⟩ := optionRel_some_left (hv ▸ hview)
      have hrun : q.run P.emailEq clock pick t = q.run P.emailEq clock pick t' := by
        rw [Stmt.run_others hfree, Stmt.run_others (t := t') hfree, hothers]
      rw [hv']
      simp only [hrun]
      cases hr : q.run P.emailEq clock pick t' with
      | error err => exact .some ⟨rfl, fun _ => rfl, h⟩
      | ok r =>
          dsimp only
          rw [h.waits (P := P) (T := T) hi hi' (.inl rfl)]
          split
          · exact .none
          · obtain ⟨tx, htx, -⟩ := Store.view_eq_some hv
            obtain ⟨tx', htx', hrel⟩ := optionRel_some_left (htx ▸ h.txs T)
            exact .some (h.writeTx htx htx' hrel r)

/-- A statement that serves requests. -/
theorem execSQL_cleaned (h : CleanedWorld w w') (hi : CleanupInv log w) (hi' : CleanupInv log' w')
    {c : Conn} (hserves : (Cmd.sql c q).serves)
    (hfresh : ∀ s, q = .insertSession s → ∀ x ∈ w'.db.committed.sessions, x.id ≠ s.id)
    (snapshot : Bool) (pick : ℤ) :
    Option.Rel CleanedStep (execSQL P w T c q snapshot pick) (execSQL P w' T c q snapshot pick) := by
  have hkey : (w.db.view T false c).all (keyUnused · pick q) =
      (w'.db.view T false c).all (keyUnused · pick q) := by
    have hview := h.view T false c
    generalize w.db.view T false c = x, w'.db.view T false c = y at hview
    cases hview with
    | none => rfl
    | some hothers =>
        rw [Option.all_some, Option.all_some, keyUnused_others, hothers, ← keyUnused_others]
  unfold execSQL
  rw [hkey]
  split
  · cases c with
    | primary => exact primary_cleaned h hi hi' hserves hfresh _ pick
    | transaction => exact transaction_cleaned h hi hi' (sessionFree_of_serves hserves) _ pick
  · exact .none

theorem exec_cleaned (h : CleanedRun log w log' w') (hi : CleanupInv log w) (hi' : CleanupInv log' w')
    {c : Cmd} (hserves : c.serves) (hfresh : ∀ conn s, c = .sql conn (.insertSession s) →
      ∀ x ∈ w'.db.committed.sessions, x.id ≠ s.id) (ch : Choice) :
    Option.Rel CleanedStep (exec P log T c ch w) (exec P log' T c ch w') := by
  have hquiet {α : Type} (o : Outcome α) : CleanedStep (o, ([] : List Write), w) (o, [], w') :=
    ⟨rfl, fun _ => rfl, h.world⟩
  cases ch with
  | panic v => exact .some (hquiet _)
  | fail err =>
      unfold exec
      dsimp only
      split
      · exact .some (hquiet _)
      · exact .none
  | uuid u =>
      cases c with
      | newUUID =>
          simp only [exec, h.log.shows (.generated u) (by simp)]
          split
          · exact .some (hquiet _)
          · exact .none
      | _ => exact .none
  | hash hash =>
      cases c with
      | generateFromPassword password =>
          simp only [exec]
          split
          · exact .some (hquiet _)
          · exact .none
      | _ => exact .none
  | allow b =>
      cases c with
      | allowRateLimit req => exact .some (hquiet _)
      | _ => exact .none
  | run snapshot pick =>
      cases c with
      | begin => exact .some ⟨rfl, fun _ => rfl, h.world.begin T⟩
      | commit =>
          have htxs := h.world.txs T
          simp only [exec, execRun]
          cases htx : w.db.tx? T with
          | none =>
              cases htx' : w'.db.tx? T with
              | none => exact .some (hquiet _)
              | some tx' => rw [htx, htx'] at htxs; cases htxs
          | some tx =>
              rw [htx] at htxs
              obtain ⟨tx', htx', hrel⟩ := optionRel_some_left htxs
              rw [htx']
              refine .some ⟨rfl, fun sid => ?_,
                h.world.commit htx htx' hrel.writes (hi.outside htx).1⟩
              rw [Store.commit_of_tx htx, Store.commit_of_tx htx', hrel.writes]
      | rollback =>
          have htxs := h.world.txs T
          simp only [exec, execRun]
          cases htx : w.db.tx? T with
          | none =>
              cases htx' : w'.db.tx? T with
              | none => exact .some (hquiet _)
              | some tx' => rw [htx, htx'] at htxs; cases htxs
          | some tx =>
              rw [htx] at htxs
              obtain ⟨tx', htx', hrel⟩ := optionRel_some_left htxs
              rw [htx']
              exact .some ⟨rfl, fun _ => rfl, h.world.rollback T⟩
      | sql conn q =>
          exact execSQL_cleaned h.world hi hi' hserves (fun s hs => hfresh conn s (by rw [hs])) snapshot
            pick
      | now =>
          simp only [exec, execRun, h.world.clock]
          exact .some (hquiet _)
      | compareHashAndPassword hash password => exact .some (hquiet _)
      | signedString secret claims => exact .some (hquiet _)
      | parseWithClaims opts token =>
          simp only [exec, execRun, h.world.clock]
          split
          · exact .some (hquiet _)
          · rename_i claims hparse
            rw [h.log.shows (.signed claims token) (by simp), h.log.opened]
            split
            · exact .some (hquiet _)
            · exact .none
      | newUUID => exact .none
      | generateFromPassword password => exact .none
      | allowRateLimit req => exact .none

/-- What a thread of the cleanup does is not noticed. -/
theorem CleanedRun.hidden (h : CleanedRun log w log' w') (hi : CleanupInv log w)
    (hi' : CleanupInv log' w') {c : Cmd} (hc : c.Cleanup (log.facts reads T)) {ch : Choice}
    {o : Outcome (Res c)} {e : List Write} {w₁ : World} (hexec : exec P log T c ch w = some (o, e, w₁)) :
    CleanedRun (⟨T, c, o, e⟩ :: log) w₁ log' w' := by
  have hobs : ∀ f, observe c o = some f → f = .cleaned := by
    intro f hf
    cases hc <;> cases o <;> cases hf
    rfl
  cases exec_moves hexec with
  | quiet => exact ⟨h.log.skip hobs fun _ => rfl, h.world⟩
  | begin => cases hc
  | commit => cases hc
  | rollback => cases hc
  | inTx => cases hc
  | primary hrun hfree =>
      obtain ⟨alive, hcleaned⟩ := h.world.committed
      cases hc with
      | select =>
          cases hrun
          exact ⟨h.log.skip hobs fun _ => rfl, h.world⟩
      | delete hcutoff =>
          refine ⟨h.log.skip hobs fun sid => ?_, h.world.clock,
            hcleaned.delete hi'.keys (hi.told hcutoff) hrun, h.world.txs⟩
          cases hrun
          rw [opens, List.any_map, List.any_eq_false]
          intro x _ hx
          cases hx

end Exec

/-- The calls of the cleanup. -/
def Call.isCleanup (call : Call) : Bool := call = .deleteExpiredSessions

/-- The row of a new session is one that nobody had. -/
theorem Healthy.newSession {init : List User} {s : (system P S).State} (hs : Healthy P S init s)
    {T : ℕ} {call : Call} {conn : Conn} {x : Session}
    {k : Outcome (Res (.sql conn (.insertSession x))) → AuthProg Answer}
    (hT : s.pool[T]? = some ⟨call, some (.op (.sql conn (.insertSession x)) k)⟩) :
    ∀ y ∈ s.world.db.committed.sessions, y.id ≠ x.id := by
  intro y hy
  obtain ⟨-, huses, hgenerated, -⟩ := (hs.live hT).1
  obtain ⟨opened, hopened, has⟩ := hs.inv.session.rows y hy
  rw [← has.id]
  exact hs.inv.session.ids.unopened huses hgenerated hopened

/-- The cleanup never opens a transaction. -/
theorem Tidy.tx_eq_none {s : (system P S).State} (hs : Tidy P S s) {T : ℕ} {call : Call}
    {p : Option (AuthProg Answer)} (hcall : call.isCleanup = true) (hT : s.pool[T]? = some ⟨call, p⟩) :
    s.world.db.tx? T = none := by
  cases htx : s.world.db.tx? T with
  | none => rfl
  | some tx =>
      obtain rfl : call = .deleteExpiredSessions := of_decide_eq_true hcall
      obtain ⟨r, hr, rfl, hbegin⟩ := hs.inv.begun htx
      obtain ⟨after, log, heq⟩ := List.append_of_mem hr
      have hobeyed := hs.obeyed ⟨after, heq.symm⟩ hT
      rw [hbegin] at hobeyed
      cases hobeyed

theorem cleanup_unwinds (init : List User) : (system P S).Unwinds Call.isCleanup
    (fun s => Healthy P S init s ∧ Tidy P S s) CleanedRun where
  keeps hI h := ⟨hI.1.next (sound _) h, hI.2.next cleanup_sound h⟩
  step {s s' T ch call c k} hI hI' hR hvisible hT hT' := by
    have hserves : c.serves := serves_of_cleans (of_decide_eq_false hvisible) (hI.2.live hT).1
    apply optionRel_mono _ (exec_cleaned hR hI.2.inv hI'.2.inv hserves _ ch)
    · rintro ⟨o, e, w⟩ ⟨o', e', w'⟩ hstep
      obtain rfl : o = o' := hstep.answer
      exact ⟨rfl, hR.log.cons hstep.opens, hstep.world⟩
    · rintro conn x rfl
      exact hI'.1.newSession hT'
  hide hI hI' hR hhidden hT hM := by
    have hcleans := (hI.2.live hT).1
    rw [of_decide_eq_true hhidden] at hcleans
    exact hR.hidden hI.2.inv hI'.2.inv hcleans hM
  env {s s' e} _ _ hR := by
    cases e with
    | tick d => exact .some ⟨hR.log, hR.world.tick d⟩
    | abort T => exact .some ⟨hR.log, hR.world.rollback T⟩
  crash {s s' T} _ _ hR := ⟨hR.log, hR.world.rollback T⟩
  hideCrash hI _ hR hhidden hT := ⟨hR.log, hR.world.rollback_left (hI.2.tx_eq_none hhidden hT)⟩

/-! ## Rows that go away -/

/-- The row goes away in a step of the cleanup, because it expired by a time that has come. -/
inductive DeletedAsExpired (s s' : (system P S).State) (x : Session) : Prop where
  | mk {T : ℕ} {p : Option (AuthProg Answer)} {ids : List UUID} {cutoff : ℤ} {n : ℕ} {e : List Write} :
      s.pool[T]? = some ⟨.deleteExpiredSessions, p⟩ →
      s'.log = ⟨T, .sql .primary (.deleteSessions ids cutoff), .returned n, e⟩ :: s.log →
      x.id ∈ ids → x.expiresAt ≤ cutoff → cutoff ≤ s.world.clock → DeletedAsExpired s s' x

/-- The rows that a statement misses out were deleted. -/
theorem SessionsAfter.removed {ss : List Session} (h : SessionsAfter t now q ss) {x : Session}
    (hx : x ∈ t.sessions) (hgone : ∀ y ∈ ss, y.id ≠ x.id) :
    ∃ ids cutoff, q = .deleteSessions ids cutoff ∧ x.id ∈ ids ∧ x.expiresAt ≤ cutoff := by
  cases h with
  | same => exact absurd rfl (hgone x hx)
  | inserted => exact absurd rfl (hgone x (List.mem_append_left _ hx))
  | rotated =>
      apply absurd _ (hgone _ (List.mem_map_of_mem hx))
      split <;> rfl
  | revoked =>
      apply absurd _ (hgone _ (List.mem_map_of_mem hx))
      split <;> rfl
  | @deleted ids cutoff =>
      cases hdeleted : ids.contains x.id && decide (x.expiresAt ≤ cutoff) with
      | false => exact absurd rfl (hgone x (List.mem_filter.mpr ⟨hx, by rw [hdeleted]; rfl⟩))
      | true =>
          rw [Bool.and_eq_true, List.contains_iff_mem, decide_eq_true_eq] at hdeleted
          exact ⟨ids, cutoff, rfl, hdeleted⟩

theorem Tidy.removed {s s' : (system P S).State} (hs : Tidy P S s) {a : Action Choice Call Env}
    (h : (system P S).next s a = some s') {x : Session} (hx : x ∈ s.world.db.committed.sessions)
    (hgone : ∀ y ∈ s'.world.db.committed.sessions, y.id ≠ x.id) : DeletedAsExpired s s' x := by
  cases a with
  | spawn call => cases h; exact absurd rfl (hgone x hx)
  | env e => cases h; exact absurd rfl (hgone x ((World.env_sessions s.world e).symm ▸ hx))
  | crash T =>
      simp only [System.next] at h
      split at h
      · cases h; exact absurd rfl (hgone x hx)
      · cases h
  | step T ch =>
      obtain ⟨call, c, k, o, e, w, hT, hM, rfl⟩ := System.stepThread_eq_some.mp h
      have hcleans := (hs.live hT).1
      cases exec_moves hM with
      | quiet => exact absurd rfl (hgone x hx)
      | begin => exact absurd rfl (hgone x hx)
      | rollback => exact absurd rfl (hgone x hx)
      | inTx htx hrun hkey hfree =>
          apply absurd rfl (hgone x _)
          rw [Store.write_committed]
          simpa [Store.write, htx] using hx
      | commit htx =>
          apply absurd rfl (hgone x _)
          rw [Store.commit_committed, Store.commit_of_tx htx, sessions_applyAll (hs.inv.outside htx).1]
          exact hx
      | primary hrun hfree =>
          obtain ⟨ids, cutoff, rfl, hid, hexpired⟩ :=
            (Stmt.run_sessions hs.inv.keys hrun).removed hx hgone
          by_cases hcall : call = .deleteExpiredSessions
          · subst hcall
            cases hcleans with
            | delete hcutoff =>
                exact .mk hT rfl hid hexpired (hs.inv.told hcutoff)
          · exact (serves_of_cleans hcall hcleans).elim

/-! ## The cleanup is not noticed -/

/-- Without the steps of the cleanup the run goes through all the same. Every other call has
the same outcome, nobody else waits longer or shorter, and a row is removed only when it has
expired by the cutoff at the moment it is deleted. -/
theorem cleanup_unobservable {w : World} (hw : w.Initial) {as : List (Action Choice Call Env)}
    {s : (system P S).State} (h : (system P S).run ((system P S).init w) as = some s) :
    (∃ s', (system P S).run ((system P S).init w) (System.withoutHidden Call.isCleanup as) = some s' ∧
      (∀ T call o, call.isCleanup = false → (s.Finished T call o ↔ s'.Finished T call o)) ∧
      ∀ a, System.hides Call.isCleanup (s.pool.map Thread.call) a = false →
        ((system P S).next s a).isSome = ((system P S).next s' a).isSome) ∧
    ∀ a s', (system P S).next s a = some s' → ∀ x ∈ s.world.db.committed.sessions,
      (∀ y ∈ s'.world.db.committed.sessions, y.id ≠ x.id) → DeletedAsExpired s s' x := by
  have hinit : Healthy P S w.db.committed.users ((system P S).init w) ∧ Tidy P S ((system P S).init w) :=
    ⟨System.Good.init (.init hw), System.Good.init (.init hw)⟩
  obtain ⟨s', hrun, hmatches, hI, hI'⟩ :=
    (cleanup_unwinds w.db.committed.users).run_init hinit (.init hw) h
  refine ⟨⟨s', hrun, fun T call o hcall => hmatches.finished hcall, fun a ha => ?_⟩, ?_⟩
  · have hvisible : System.hides Call.isCleanup (s.pool.map Thread.call ++ []) a = false := by
      rwa [List.append_nil]
    exact isSome_eq_of_optionRel ((cleanup_unwinds _).next hI hI' hmatches hvisible)
  · exact fun a s' hnext x hx hgone => hI.2.removed hnext hx hgone

/-- A refresh token is checked in its last second; before its session is looked up, the cleanup
removes it. -/
def lateLookup : List (Action Choice Call Env) :=
  .spawn annLogin :: loginSteps 0 'a' 'b' ++ [.env (.tick 3599000000000),
    .spawn (.validateJWTToken (annToken .refresh 'a' 'b' 3601) .refresh)] ++ steps 1 1 ++
    [.env (.tick 1000000000), .spawn .deleteExpiredSessions] ++ steps 2 3 ++ steps 1 1

theorem lateLookup_run : ∃ s, smallRun lateLookup = some s ∧
    s.finished? 2 = some (.deleteExpiredSessions, .returned (.count 1)) ∧
    s.finished? 1 = some (.validateJWTToken (annToken .refresh 'a' 'b' 3601) .refresh,
      .failed errInvalidToken) :=
  System.exists_of_any (by decide +kernel)

/-- The lookup fails without the cleanup as well. -/
theorem cleanup_unobservable_lateLookup : ∃ s s', smallRun lateLookup = some s ∧
    s.Finished 2 .deleteExpiredSessions (.returned (.count 1)) ∧
    smallRun (System.withoutHidden Call.isCleanup lateLookup) = some s' ∧
    s'.Finished 1 (.validateJWTToken (annToken .refresh 'a' 'b' 3601) .refresh) (.failed errInvalidToken) := by
  obtain ⟨s, hs, hcleanup, hlookup⟩ := lateLookup_run
  obtain ⟨⟨s', hs', hsame, -⟩, -⟩ := cleanup_unobservable smallWorld_initial hs
  exact ⟨s, s', hs, System.finished_iff.mp hcleanup, hs',
    (hsame 1 _ _ rfl).mp (System.finished_iff.mp hlookup)⟩

end Go42.Auth
