-- SUMMARY: When ValidateJWTToken accepts a token, and what every run guarantees about it: a refresh token works once, reuse or logout ends the session, and so does a change of credentials.
import Go42.Auth.Runs

/-!
# Guarantees about sessions

A token is accepted at a moment when `ValidateJWTToken`, run there, returns its claims.
-/

namespace Go42.Auth

variable {P : Platform} {S : Service}

/-! ## Accepted tokens -/

/-- `ValidateJWTToken(token, purpose)`, run in state `s`, returns `c`. -/
def Accepts (s : (system P S).State) (token : JWT) (purpose : JWTTokenPurpose) (c : JWTClaims) :
    Prop :=
  ∃ T log w, (validateJWTToken P S token purpose).Runs (exec P) T s.log s.world (.returned c) log w

/-- What `parseJWTToken` asks of a token. -/
structure Parses (P : Platform) (S : Service) (log : AuthLog) (w : World) (token : JWT)
    (purpose : JWTTokenPurpose) (c : JWTClaims) : Prop where
  known : ¬(purpose ≠ .access ∧ purpose ≠ .refresh)
  shape : ¬(maxJWTTokenBytes < token.length ∨ (!JWT.canonical token) = true)
  config : checkJWTConfiguration S = .ok ()
  parsed : P.jwt.parseWithClaims (parserOptions S) w.clock token = .ok c
  signed : shows log (.signed c token) = true
  opened : openedIn log c.sessionID = true
  claims : acceptableClaims P c purpose = true

open Prog

/-- The parser answers without touching the database. -/
theorem exec_parse_iff {T : ℕ} {log : AuthLog} {w w' : World} {opts : ParserOptions} {token : JWT}
    {c : JWTClaims} {e : List Write} :
    (∃ ch, exec P log T (.parseWithClaims opts token) ch w = some (.returned c, e, w')) ↔
      (P.jwt.parseWithClaims opts w.clock token = .ok c ∧ shows log (.signed c token) = true ∧
        openedIn log c.sessionID = true) ∧ e = [] ∧ w' = w := by
  constructor
  · rintro ⟨ch, h⟩
    obtain ⟨hparse, hsigned, hopen⟩ := exec_parse h
    cases exec_moves h with
    | quiet => exact ⟨⟨hparse, shows_iff.mpr hsigned, hopen⟩, rfl, rfl⟩
  · rintro ⟨⟨hparse, hsigned, hopen⟩, rfl, rfl⟩
    exact ⟨.run false 0, by simp [exec, execRun, hparse, hsigned, hopen]⟩

theorem runs_parseJWTToken {T : ℕ} {log log' : AuthLog} {w w' : World} {token : JWT}
    {purpose : JWTTokenPurpose} {c : JWTClaims} :
    (parseJWTToken P S token purpose).Runs (exec P) T log w (.returned c) log' w' ↔
      Parses P S log w token purpose c ∧ w' = w ∧
        log' = ⟨T, .parseWithClaims (parserOptions S) token, .returned c, []⟩ :: log := by
  have hfail : ∀ (e : GoError) {log₁ w₁}, ¬(fail e : AuthProg JWTClaims).Runs (exec P) T log₁ w₁
      (.returned c) log' w' := fun e log₁ w₁ h => by cases (runs_done.mp h).1
  unfold parseJWTToken
  split
  · rename_i h
    exact ⟨fun hr => absurd hr (hfail _), fun hp => absurd h hp.1.known⟩
  · rename_i hknown
    split
    · rename_i h
      exact ⟨fun hr => absurd hr (hfail _), fun hp => absurd h hp.1.shape⟩
    · rename_i hshape
      split
      · rename_i err hconfig
        exact ⟨fun hr => absurd hr (hfail _), fun hp => by rw [hp.1.config] at hconfig; cases hconfig⟩
      · rename_i hconfig
        simp only [runs_bind_returned, runs_mapErr_returned, runs_call]
        constructor
        · rintro ⟨c', log₁, w₁, ⟨ch, e, hM, rfl⟩, hr⟩
          obtain ⟨⟨hparse, hsigned, hopen⟩, rfl, rfl⟩ := exec_parse_iff.mp ⟨ch, hM⟩
          split at hr
          · rename_i hclaims
            obtain ⟨hc, rfl, rfl⟩ := runs_done.mp hr
            cases hc
            exact ⟨⟨hknown, hshape, hconfig, hparse, hsigned, hopen, hclaims⟩, rfl, rfl⟩
          · exact absurd hr (hfail _)
        · rintro ⟨hp, rfl, rfl⟩
          obtain ⟨ch, hM⟩ := exec_parse_iff.mpr ⟨⟨hp.parsed, hp.signed, hp.opened⟩, rfl, rfl⟩
          refine ⟨c, _, _, ⟨ch, [], hM, rfl⟩, ?_⟩
          rw [if_pos hp.claims]
          exact .done

/-- A lookup outside a transaction answers with the active session and changes nothing. -/
theorem exec_lookup_iff {T : ℕ} {log : AuthLog} {w w' : World} {sid uid : String} {x : Session}
    {e : List Write} :
    (∃ ch, exec P log T (.sql .primary (.selectActiveSession sid uid)) ch w =
      some (.returned x, e, w')) ↔
      (w.db.committed.activeSessions sid uid w.clock).head? = some x ∧ e = [] ∧ w' = w := by
  constructor
  · rintro ⟨ch, h⟩
    cases exec_moves h with
    | quiet hlocal => cases hlocal _ rfl
    | primary hrun hfree =>
        obtain ⟨a, ha, rfl⟩ := first_eq_ok hrun
        exact ⟨ha, rfl, rfl⟩
  · rintro ⟨hx, rfl, rfl⟩
    refine ⟨.run false 0, ?_⟩
    simp [exec, execRun, execSQL, Store.view, keyUnused, Store.statement, Stmt.run, hx, first,
      Done.read, Store.write]

/-- What acceptance comes down to: the token parses, its session is active, and a refresh
token is the current one. -/
theorem accepts_iff {s : (system P S).State} {token : JWT} {purpose : JWTTokenPurpose}
    {c : JWTClaims} : Accepts s token purpose c ↔
      Parses P S s.log s.world token purpose c ∧
        ∃ x, (s.world.db.committed.activeSessions c.sessionID c.subject s.world.clock).head? = some x ∧
          (purpose = .refresh → x.refreshTokenID = c.id) := by
  unfold Accepts validateJWTToken Repository.getActiveSession
  simp only [runs_bind_returned, runs_mapErr_returned, runs_parseJWTToken, runs_call]
  constructor
  · rintro ⟨T, log, w, c', log₁, w₁, ⟨hp, rfl, rfl⟩, x, log₂, w₂, ⟨ch, e, hM, rfl⟩, hr⟩
    obtain ⟨hx, rfl, rfl⟩ := exec_lookup_iff.mp ⟨ch, hM⟩
    split at hr
    · cases (runs_done.mp hr).1
    · rename_i hcurrent
      cases (runs_done.mp hr).1
      exact ⟨hp, x, hx, fun hpurpose => by_contra fun hne => hcurrent ⟨hpurpose, hne⟩⟩
  · rintro ⟨hp, x, hx, hcurrent⟩
    obtain ⟨ch, hM⟩ := exec_lookup_iff.mpr ⟨hx, rfl, rfl⟩
    refine ⟨0, ?_, s.world, c, _, _, ⟨hp, rfl, rfl⟩, x, _, _, ⟨ch, [], hM, rfl⟩, ?_⟩
    case refine_2 =>
      rw [if_neg fun h => h.2 (hcurrent h.1)]
      exact .done

/-! ## Reuse of refresh tokens -/

section Reuse

variable {w : World} {s s' : (system P S).State}

/-- A refresh token is rotated away at most once. -/
theorem rotated_once (hw : w.Initial) {as : List (Action Choice Call Env)}
    (h : (system P S).run ((system P S).init w) as = some s) {T T' n n' : ℕ}
    {sid uid uid' prev next next' : String}
    (hr : .rotated sid uid prev next n ∈ s.log.facts observe T) (hn : n ≠ 0)
    (hr' : .rotated sid uid' prev next' n' ∈ s.log.facts observe T') (hn' : n' ≠ 0) : T = T' := by
  -- The later of two rotations would have found the token current.
  have hlater : ∀ {r : Record Cmd Res (List Write)} {l : AuthLog} {uid next n}, r :: l <:+ s.log →
      observe r.cmd r.answer = some (.rotated sid uid prev next n) → n ≠ 0 →
      ∀ {uid' next' n'}, n' ≠ 0 → ¬Known l (.rotated sid uid' prev next' n') := by
    intro r l uid next n hsuf hobs hn uid' next' n' hn' hknown
    obtain ⟨s₁, s₂, ch, call, hg₁, rfl, ha, hM, -, -⟩ :=
      System.Good.record (sound _) (Inv.init hw) h hsuf
    have hstep := exec_sessionStep hg₁.inv.user ha hM
    generalize hobs' : observe r.cmd r.answer = obs at hstep
    rw [hobs] at hobs'
    subst hobs'
    cases hstep with
    | shrink hquiet _ => cases hquiet _ rfl
    | rotated =>
        obtain ⟨x, hx⟩ := List.exists_mem_of_length_pos (Nat.pos_of_ne_zero hn)
        obtain ⟨hactive, hprev⟩ := List.mem_filter.mp hx
        obtain ⟨hmem, hcond⟩ := List.mem_filter.mp hactive
        simp only [Bool.and_eq_true, decide_eq_true_eq] at hcond
        exact (hg₁.inv.session.consumed hknown hn').2 x hmem hcond.1.1.1 (of_decide_eq_true hprev)
  obtain ⟨r, hmem, rfl, hobs⟩ := Log.mem_facts.mp hr
  obtain ⟨r', hmem', rfl, hobs'⟩ := Log.mem_facts.mp hr'
  rcases Log.mem_order hmem hmem' with rfl | ⟨l, hsuf, hl⟩ | ⟨l, hsuf, hl⟩
  · rfl
  · exact absurd ⟨_, Log.mem_facts.mpr ⟨r', hl, rfl, hobs'⟩⟩ (hlater hsuf hobs hn hn')
  · exact absurd ⟨_, Log.mem_facts.mpr ⟨r, hl, rfl, hobs⟩⟩ (hlater hsuf hobs' hn' hn)

/-- At a moment one refresh token of a session is accepted at most. -/
theorem accepts_refresh_unique {init : List User} (hg : Healthy P S init s) {token token' : JWT}
    {c c' : JWTClaims} (h : Accepts s token .refresh c) (h' : Accepts s token' .refresh c')
    (hsid : c.sessionID = c'.sessionID) : token = token' := by
  obtain ⟨hp, x, hx, hcur⟩ := accepts_iff.mp h
  obtain ⟨hp', x', hx', hcur'⟩ := accepts_iff.mp h'
  have hids := hg.inv.session.ids
  obtain ⟨T, hT⟩ := shows_iff.mp hp.signed
  obtain ⟨T', hT'⟩ := shows_iff.mp hp'.signed
  obtain ⟨r, hr, s₀, hins, hs₀⟩ := openedIn_iff.mp hp.opened
  have hopened := hids.inserted hr hins
  -- Both tokens name the owner of the session, so the lookups agree.
  have hsub : c.subject = c'.subject := by
    obtain ⟨u, ⟨_, hread⟩, huid, huuid⟩ := hids.owner ⟨T, hT⟩ hopened hs₀.symm
    obtain ⟨u', ⟨_, hread'⟩, huid', huuid'⟩ :=
      hids.owner ⟨T', hT'⟩ hopened (hsid.symm.trans hs₀.symm)
    obtain ⟨v, hv, hlater⟩ := hg.inv.user.reads hread
    obtain ⟨v', hv', hlater'⟩ := hg.inv.user.reads hread'
    cases eq_of_key hg.inv.user.keys hv hv'
      (by rw [hlater.id, hlater'.id, huid, huid'])
    rw [← huuid, ← huuid', ← hlater.uuid, hlater'.uuid]
  rw [← hsid, ← hsub] at hx'
  cases Option.some.inj (hx.symm.trans hx')
  have hid : c.id = c'.id := (hcur rfl).symm.trans (hcur' rfl)
  have huse : ∀ {d : JWTClaims}, acceptableClaims P d .refresh = true → d.tokenUse = .refresh :=
    fun hd => by simp only [acceptableClaims, Bool.and_eq_true, decide_eq_true_eq] at hd; tauto
  cases hids.generated ((hids.origin hT).1 (huse hp.claims))
    (hid ▸ (hids.origin hT').1 (huse hp'.claims))
  cases hids.signsOnce hT hT' (by simp [Fact.signsRefresh, huse hp.claims])
    (by simp [Fact.signsRefresh, huse hp'.claims])
  rfl

/-- `T` has ended session `sid`: its refresh lost the compare-and-swap, or its logout
presented a refresh token of the session. -/
inductive EndsSession (s : (system P S).State) (T : ℕ) (sid : String) : Prop where
  | reuse {token : JWT} {uid prev next : String} {n : ℕ} :
      s.Finished T (.refresh token) (.failed errInvalidToken) →
      .rotated sid uid prev next n ∈ s.log.facts observe T → n ≠ 1 → EndsSession s T sid
  | logout {token : JWT} {c : JWTClaims} : s.Finished T (.logout token) (.returned .nil) →
      P.jwt.parseUnverified token = some c → c.sessionID = sid → EndsSession s T sid

theorem EndsSession.revoked {init : List User} (hg : Healthy P S init s) {T : ℕ} {sid : String}
    (h : EndsSession s T sid) : ∃ uid, Known s.log (.revoked sid uid) := by
  cases h with
  | reuse hfin hrot hn => exact ⟨_, T, (hg.finished hfin).2 _ _ _ _ _ hrot hn rfl⟩
  | logout hfin hclaims hsid =>
      obtain ⟨c', hparsed, hrev⟩ := hg.finished hfin rfl
      rw [(hg.inv.session.ids.parsed ⟨T, hparsed⟩).1] at hclaims
      cases hclaims
      exact ⟨_, T, hsid ▸ hrev⟩

/-- A session that no state after `l₀` finds active is of no more use: no token of it is
accepted, and no step looks it up or rotates it. -/
theorem rejected_of_inactive (hw : w.Initial) {as : List (Action Choice Call Env)}
    (h : (system P S).run ((system P S).init w) as = some s) {l₀ : AuthLog} (hl₀ : l₀ <:+ s.log)
    {sid : String} (hdead : ∀ {s₁ : (system P S).State}, Healthy P S w.db.committed.users s₁ →
      l₀ <:+ s₁.log → s₁.log <:+ s.log →
      ∀ uid, s₁.world.db.committed.activeSessions sid uid s₁.world.clock = []) :
    (∀ token purpose c, Accepts s token purpose c → c.sessionID ≠ sid) ∧
      ∀ r l, r :: l <:+ s.log → l₀ <:+ l → ∀ f, observe r.cmd r.answer = some f →
        ¬f.showsActive sid := by
  refine ⟨fun token purpose c hacc hsid => ?_, fun r l hsuf hl f hobs hactive => ?_⟩
  · obtain ⟨-, x, hx, -⟩ := accepts_iff.mp hacc
    rw [hsid, hdead (healthy_run hw h) hl₀ (List.suffix_refl _)] at hx
    cases hx
  · obtain ⟨s₁, s₂, ch, call, hg₁, rfl, ha, hM, -, -⟩ :=
      System.Good.record (sound _) (Inv.init hw) h hsuf
    obtain ⟨uid, hne⟩ := exec_showsActive hg₁.inv.user ha hM hobs hactive
    exact hne (hdead hg₁ hl ((List.suffix_cons _ _).trans hsuf) uid)

/-- Reuse detection and logout. A refresh token yields tokens once; a session has one
refresh token that is accepted; and once a session was ended, none of its tokens is
accepted again, no step of a running call finds it active, and later calls that present
one of its tokens do not succeed. -/
theorem refresh_reuse_ends_session (hw : w.Initial) {as : List (Action Choice Call Env)}
    (h : (system P S).run ((system P S).init w) as = some s) :
    (∀ token T T' t t', s.Finished T (.refresh token) (.returned (.tokens t)) →
      s.Finished T' (.refresh token) (.returned (.tokens t')) → T = T') ∧
    (∀ token token' c c', Accepts s token .refresh c → Accepts s token' .refresh c' →
      c.sessionID = c'.sessionID → token = token') ∧
    ∀ T sid, EndsSession s T sid → ∀ bs s', (system P S).run s bs = some s' →
      (∀ token purpose c, Accepts s' token purpose c → c.sessionID ≠ sid) ∧
      (∀ r l, r :: l <:+ s'.log → s.log <:+ l → ∀ f, observe r.cmd r.answer = some f →
        ¬f.showsActive sid) ∧
      ∀ T', s.pool.length ≤ T' →
        (∀ token purpose c, s'.Finished T' (.validateJWTToken token purpose)
          (.returned (.claims c)) → c.sessionID ≠ sid) ∧
        ∀ token t c, s'.Finished T' (.refresh token) (.returned (.tokens t)) →
          P.jwt.parseUnverified token = some c → c.sessionID ≠ sid := by
  have hg := healthy_run hw h
  refine ⟨fun token T T' t t' hfin hfin' => ?_, fun _ _ _ _ => accepts_refresh_unique hg,
    fun T sid hend bs s' hrun => ?_⟩
  · obtain ⟨c, next, hp, hr⟩ := (hg.finished hfin).1 t rfl
    obtain ⟨c', next', hp', hr'⟩ := (hg.finished hfin').1 t' rfl
    have hc := (hg.inv.session.ids.parsed ⟨T, hp⟩).1
    rw [(hg.inv.session.ids.parsed ⟨T', hp'⟩).1] at hc
    cases hc
    exact rotated_once hw h hr one_ne_zero hr' one_ne_zero
  · obtain ⟨uid, hrev⟩ := hend.revoked hg
    have hlog := System.run_log hrun
    obtain ⟨hnow, hstep⟩ := rejected_of_inactive hw (System.run_append.mpr ⟨s, h, hrun⟩) hlog
      fun hg₁ hl _ uid' => hg₁.inv.session.activeSessions_of_revoked (hrev.of_suffix hl)
    have hlater : ∀ T', s.pool.length ≤ T' → ∀ f ∈ s'.log.facts observe T', ¬f.showsActive sid := by
      intro T' hT' f hf
      obtain ⟨r, l, hsuf, hl, -, hobs⟩ := Log.facts_after hlog (hg.idle hT') hf
      exact hstep r l hsuf hl f hobs
    have hg' := hg.run (sound _) hrun
    refine ⟨hnow, hstep, fun T' hT' => ⟨fun token purpose c hfin hsid => ?_, fun token t c hfin hc hsid => ?_⟩⟩
    · obtain ⟨-, x, hx, -⟩ := hg'.finished hfin c rfl
      exact hlater T' hT' _ hx hsid
    · obtain ⟨c', next, hp, hr⟩ := (hg'.finished hfin).1 t rfl
      rw [(hg'.inv.session.ids.parsed ⟨T', hp⟩).1] at hc
      cases hc
      exact hlater T' hT' _ hr ⟨hsid, one_ne_zero⟩

/-- A refresh by thread `T` up to its compare-and-swap. -/
def refreshSteps (T : ℕ) (next access : Char) : List (Action Choice Call Env) :=
  steps T 1 ++ [.step T (.uuid (smallUUID next))] ++ steps T 2 ++
    [.step T (.uuid (smallUUID access))] ++ steps T 3

/-- The refresh token of a login is used twice. -/
def replay : List (Action Choice Call Env) :=
  .spawn annLogin :: loginSteps 0 'a' 'b' ++
    .spawn (.refresh (annToken .refresh 'a' 'b' 3601)) :: refreshSteps 1 '2' '3' ++
    .spawn (.refresh (annToken .refresh 'a' 'b' 3601)) :: refreshSteps 2 '4' '5' ++ steps 2 1

theorem replay_run : ∃ s, smallRun replay = some s ∧
    s.finished? 1 = some (.refresh (annToken .refresh 'a' 'b' 3601), .returned (.tokens
      ⟨annToken .access 'a' '3' 61, annToken .refresh 'a' '2' 3601, 60⟩)) ∧
    s.finished? 2 = some (.refresh (annToken .refresh 'a' 'b' 3601), .failed errInvalidToken) ∧
    .rotated (smallUUID 'a') ann.uuid (smallUUID 'b') (smallUUID '4') 0 ∈ s.log.facts observe 2 :=
  System.exists_of_any (by decide +kernel)

/-- The second use fails, and the tokens of the first are of no use any more. -/
theorem refresh_reuse_ends_session_replay : ∃ s, smallRun replay = some s ∧
    (∀ T t, s.Finished T (.refresh (annToken .refresh 'a' 'b' 3601)) (.returned (.tokens t)) →
      T = 1) ∧
    ∀ token purpose c, Accepts s token purpose c → c.sessionID ≠ smallUUID 'a' := by
  obtain ⟨s, hs, h₁, h₂, hlost⟩ := replay_run
  obtain ⟨honce, -, hend⟩ := refresh_reuse_ends_session smallWorld_initial hs
  refine ⟨s, hs, fun T t hT => honce _ T 1 t _ hT (System.finished_iff.mp h₁), ?_⟩
  exact (hend 2 _ (.reuse (System.finished_iff.mp h₂) hlost (by decide)) [] s rfl).1

end Reuse

/-! ## Changes of credentials -/

/-- No user owns a session whose credentials were changed, or whose user was deleted. -/
theorem Inv.hasOwner_of_changed {init : List User} {log older : AuthLog} {w : World}
    {rec : Record Cmd Res (List Write)} {prev next u : User} {T : ℕ} {x : Session} {uid : String}
    (hi : Inv P init log w) (hsuf : rec :: older <:+ log) (hset : .setUser prev next ∈ rec.effect)
    (hread : .read u ∈ older.facts observe T) (hid : prev.id = u.id) (huser : x.userID = u.id)
    (hver : x.credentialVersion = u.credentialVersion) :
    w.db.committed.hasOwner x uid = false := by
  simp only [Tables.hasOwner, List.any_eq_false, Bool.and_eq_true, decide_eq_true_eq,
    Option.isNone_iff_eq_none, not_and]
  intro r hr ⟨⟨⟨halive, _⟩, _⟩, hrver⟩ hrid
  obtain ⟨rd, hrd, rfl, hobs⟩ := Log.mem_facts.mp hread
  obtain ⟨hj, r', hr', hlater⟩ := hi.user.changed (hsuf.mem List.mem_cons_self) hset
  cases eq_of_key hi.user.keys hr hr' (by rw [hlater.id, hj.id, hid, hrid, huser])
  have hle := hlater.version_le
  rcases List.pairwise_cons.mp (hi.user.order.sublist hsuf.sublist) |>.1 rd hrd u prev next hobs hset
    hid with hlt | hdel
  · omega
  · rcases hlater.age with rfl | ⟨hnone, -⟩
    · simp [halive] at hdel
    · simp [hnone] at hdel

/-- The rows of a session are those its login inserted. -/
theorem IdInv.opened_unique {log : AuthLog} (hi : IdInv P log) {T : ℕ} {s s' : Session}
    (hs : .opened s ∈ log.facts observe T) (hs' : Known log (.opened s')) (hid : s'.id = s.id) :
    s' = s := by
  obtain ⟨T', hs'⟩ := hs'
  cases hi.generated (hi.origin hs).1 (hid ▸ (hi.origin hs').1)
  cases hi.usesOnce hs hs' rfl rfl
  rfl

section Credentials

variable {w : World} {s : (system P S).State}

/-- A step that neither commits anything nor signs a token changes nothing for
`ValidateJWTToken`. -/
theorem accepts_congr {s s' : (system P S).State} {T : ℕ} {c : Cmd} {o : Outcome (Res c)}
    (hlog : s'.log = ⟨T, c, o, []⟩ :: s.log) (hdb : s'.world.db.committed = s.world.db.committed)
    (hclock : s'.world.clock = s.world.clock)
    (hsigned : ∀ claims token, observe c o ≠ some (.signed claims token)) {token : JWT}
    {purpose : JWTTokenPurpose} {claims : JWTClaims} :
    Accepts s token purpose claims ↔ Accepts s' token purpose claims := by
  have hshows : shows s'.log (.signed claims token) = shows s.log (.signed claims token) := by
    simp [shows, hlog, hsigned]
  have hopen : openedIn s'.log claims.sessionID = openedIn s.log claims.sessionID := by
    simp [openedIn, hlog]
  rw [accepts_iff, accepts_iff, hdb, hclock]
  refine and_congr_left fun _ => ⟨fun h => ?_, fun h => ?_⟩
  · exact ⟨h.known, h.shape, h.config, hclock ▸ h.parsed, hshows.trans h.signed,
      hopen.trans h.opened, h.claims⟩
  · exact ⟨h.known, h.shape, h.config, hclock ▸ h.parsed, hshows.symm.trans h.signed,
      hopen.symm.trans h.opened, h.claims⟩

/-- Changed credentials end the sessions that were opened with the old ones, even those
inserted later by a login that had read the old row; a change that fails or asks for
nothing new leaves every token as it was, at each of its steps. -/
theorem credential_change_ends_sessions (hw : w.Initial) {as : List (Action Choice Call Env)}
    (h : (system P S).run ((system P S).init w) as = some s) :
    (∀ rec (older : AuthLog) prev next (u : User) T s₀, rec :: older <:+ s.log →
      .setUser prev next ∈ rec.effect → .read u ∈ older.facts observe T → prev.id = u.id → .opened s₀ ∈ s.log.facts observe T →
      (∀ token purpose c, Accepts s token purpose c → c.sessionID ≠ s₀.id) ∧
      ∀ r l, r :: l <:+ s.log → rec :: older <:+ l → ∀ f, observe r.cmd r.answer = some f →
        ¬f.showsActive s₀.id) ∧
    ∀ T call data current o, s.Finished T call o → call.update? = some (data, current) →
      o.isReturned = false ∨ AsksNothing P data (s.log.facts observe T) →
      ∀ as₁ as₂ ch s₁ s₂, (system P S).run ((system P S).init w) as₁ = some s₁ →
        (system P S).next s₁ (.step T ch) = some s₂ → (system P S).run s₂ as₂ = some s →
        ∀ token purpose c, Accepts s₁ token purpose c ↔ Accepts s₂ token purpose c := by
  have hg := healthy_run hw h
  refine ⟨fun rec older prev next u T s₀ hsuf hset hread hid hopened => ?_,
    fun T call data current o hfin hcall hnothing as₁ as₂ ch s₁ s₂ h₁ hstep h₂ => ?_⟩
  · have hread' := Log.facts_of_suffix ((List.suffix_cons _ _).trans hsuf) hread
    obtain ⟨huser, hver⟩ := hg.inv.session.ids.reader hopened hread'
    refine rejected_of_inactive hw h hsuf fun {s₁} hg₁ hl hl' uid => ?_
    refine List.filter_eq_nil_iff.mpr fun x hx hactive => ?_
    simp only [Bool.and_eq_true, decide_eq_true_eq] at hactive
    -- The row was inserted by the login that read `u`.
    obtain ⟨s', hs', hrow⟩ := hg₁.inv.session.rows x hx
    cases hg.inv.session.ids.opened_unique hopened (hs'.of_suffix hl')
      (hrow.id.trans hactive.1.1.1)
    have hnone : s₁.world.db.committed.hasOwner x uid = false :=
      hg₁.inv.hasOwner_of_changed hl hset hread hid (hrow.userID.symm.trans huser)
        (hrow.version.symm.trans hver)
    rw [hnone] at hactive
    cases hactive.2
  · have hg₁ := healthy_run hw h₁
    obtain ⟨call', c, k, a, e, w', hT, hM, rfl⟩ := System.stepThread_eq_some.mp hstep
    have hlog := System.run_log h₂
    have hnew : ∀ f, observe c a = some f → f ∈ s.log.facts observe T := fun f hobs =>
      Log.facts_of_suffix hlog (Log.mem_facts_cons.mpr (.inl ⟨rfl, hobs⟩))
    have hend : Ended P data (s.log.facts observe T) o := by
      have := hg.finished hfin
      cases call <;> cases hcall <;> exact this
    have heff : e = [] := hend.effect_nil hnothing hg₁.inv.user (hg₁.live hT).1 hM
      (fun f hf => Log.facts_of_suffix hlog hf)
    subst heff
    obtain ⟨hdb, hclock⟩ := exec_frame hM
    intro token purpose claims
    refine accepts_congr rfl hdb hclock fun claims' token' hobs => ?_
    simpa [Fact.actsOutside] using hend.outside _ (hnew _ hobs)

/-- A login has checked the password when the account moves to another address. -/
def lateLogin : List (Action Choice Call Env) :=
  .spawn annLogin :: (loginSteps 0 'a' 'b').take 3 ++
    .spawn (.updateUser ann.uuid ⟨some (.utf8 "bob@go42.dev"), none⟩) :: steps 1 4 ++
    .step 1 (.uuid (smallUUID '8')) :: steps 1 2 ++ (loginSteps 0 'a' 'b').drop 3

/-- The row that a login of `lateLogin` inserts. -/
def annSession : Session := ⟨smallUUID 'a', 1, 1, smallUUID 'b', 3601 * 1000000000, none⟩

def annMoved : User :=
  { ann with email := "bob@go42.dev", credentialVersion := 2, updatedAt := 1000000000 }

/-- The address was changed nine steps ago. -/
theorem lateLogin_run : ∃ s, smallRun lateLogin = some s ∧
    .opened annSession ∈ s.log.facts observe 0 ∧ annSession ∈ s.world.db.committed.sessions ∧
    ((s.log.drop 8).any fun r => .setUser ann annMoved ∈ r.effect) = true ∧
    ((s.log.drop 9).any fun r => .setUser ann annMoved ∈ r.effect) = false ∧ .read ann ∈ Log.facts observe (s.log.drop 9) 0 :=
  System.exists_of_any (by decide +kernel)

/-- The session is in the table, and none of its tokens is accepted. -/
theorem credential_change_ends_sessions_lateLogin : ∃ s, smallRun lateLogin = some s ∧
    annSession ∈ s.world.db.committed.sessions ∧
    ∀ token purpose c, Accepts s token purpose c → c.sessionID ≠ annSession.id := by
  obtain ⟨s, hs, hopened, hmem, hchanged, hbefore, hread⟩ := lateLogin_run
  refine ⟨s, hs, hmem, ?_⟩
  cases hdrop : s.log.drop 8 with
  | nil => rw [hdrop] at hchanged; cases hchanged
  | cons rec older =>
      have hsuf : rec :: older <:+ s.log := hdrop ▸ List.drop_suffix 8 s.log
      have holder : s.log.drop 9 = older := by
        rw [← List.drop_drop (i := 1), hdrop]; rfl
      rw [hdrop, List.any_cons] at hchanged
      rw [holder] at hbefore hread
      rw [hbefore, Bool.or_false] at hchanged
      exact ((credential_change_ends_sessions smallWorld_initial hs).1 rec older ann _ ann 0 annSession
        hsuf (of_decide_eq_true hchanged) hread rfl hopened).1

end Credentials

end Go42.Auth
