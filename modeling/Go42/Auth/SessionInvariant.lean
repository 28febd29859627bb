-- SUMMARY: The life of a session over all runs: who made its identifiers, which refresh tokens were used up, and when it is dead.
import Go42.Auth.UserInvariant

/-!
# The rows of `auth_sessions`

Identifiers belong to the thread that generated them. A refresh token identifier is put
to use once, by the login or the refresh that made it, and never becomes current again
after it was rotated away. A revoked session never comes back, because the key of a
session row is used once.
-/

namespace Go42.Auth

variable {P : Platform} {F F' : List Fact} {log : AuthLog} {w w' : World} {T T' : ℕ} {c : Cmd}
variable {o : Outcome (Res c)} {e : List Write} {call : Call} {f f' : Fact}

/-! ## What facts are grounded in -/

/-- What a thread with facts `F` went by when it acquired a fact. -/
def Grounds (F : List Fact) : Fact → Prop
  | .signed c _ => Without Fact.isOpened F ∧
      (c.tokenUse = .refresh → .generated c.id ∈ F ∧ Without Fact.signsRefresh F) ∧
      (.generated c.sessionID ∈ F ∨
        ∃ token c', .parsed token c' ∈ F ∧ c.sessionID = c'.sessionID ∧ c.subject = c'.subject)
  | .opened s => Without Fact.usesTokenID F ∧ .generated s.id ∈ F ∧
      .generated s.refreshTokenID ∈ F ∧
      ∃ u, (∀ v, .read v ∈ F ↔ v = u) ∧ s.userID = u.id ∧
        s.credentialVersion = u.credentialVersion ∧
        ∀ c token, .signed c token ∈ F → c.sessionID = s.id ∧ c.subject = u.uuid
  | .rotated sid uid prev next _ => Without Fact.usesTokenID F ∧ .generated next ∈ F ∧
      ∃ token c', .parsed token c' ∈ F ∧ sid = c'.sessionID ∧ uid = c'.subject ∧ prev = c'.id
  | .revoked sid uid => ∃ token c', .parsed token c' ∈ F ∧ sid = c'.sessionID ∧ uid = c'.subject
  | _ => True

theorem grounds_of_allowed (ha : allowed P call F c) (hobs : observe c o = some f) :
    Grounds F f := by
  cases o with
  | failed => cases hobs
  | panicked => cases hobs
  | returned a =>
      cases c with
      | sql conn q => cases q <;> cases hobs <;> first | trivial | exact ha.2
      | signedString secret claims => cases hobs; exact ha
      | _ => cases hobs <;> trivial

/-- The part of its grounds that a thread never loses. -/
def Origin (F : List Fact) : Fact → Prop
  | .signed c _ => (c.tokenUse = .refresh → .generated c.id ∈ F) ∧
      (.generated c.sessionID ∈ F ∨
        ∃ token c', .parsed token c' ∈ F ∧ c.sessionID = c'.sessionID ∧ c.subject = c'.subject)
  | .opened s => .generated s.id ∈ F ∧ .generated s.refreshTokenID ∈ F ∧
      ∃ u, .read u ∈ F ∧ s.userID = u.id ∧ s.credentialVersion = u.credentialVersion
  | .rotated sid uid prev next _ => .generated next ∈ F ∧
      ∃ token c', .parsed token c' ∈ F ∧ sid = c'.sessionID ∧ uid = c'.subject ∧ prev = c'.id
  | .revoked sid uid => ∃ token c', .parsed token c' ∈ F ∧ sid = c'.sessionID ∧ uid = c'.subject
  | _ => True

theorem Origin.mono (h : Origin F f) (hF : F ⊆ F') : Origin F' f := by
  cases f with
  | signed c token =>
      refine ⟨fun hr => hF (h.1 hr), h.2.imp (fun h => hF h) ?_⟩
      rintro ⟨token', c', hp, hrest⟩
      exact ⟨token', c', hF hp, hrest⟩
  | opened s =>
      obtain ⟨hid, hrt, u, hu, hrest⟩ := h
      exact ⟨hF hid, hF hrt, u, hF hu, hrest⟩
  | rotated sid uid prev next n =>
      obtain ⟨hnext, token, c', hp, hrest⟩ := h
      exact ⟨hF hnext, token, c', hF hp, hrest⟩
  | revoked sid uid =>
      obtain ⟨token, c', hp, hrest⟩ := h
      exact ⟨token, c', hF hp, hrest⟩
  | _ => trivial

theorem Grounds.origin (h : Grounds F f) : Origin F f := by
  cases f with
  | signed c token => exact ⟨fun hr => (h.2.1 hr).1, h.2.2⟩
  | opened s =>
      obtain ⟨-, hid, hrt, u, hread, huid, hcv, -⟩ := h
      exact ⟨hid, hrt, u, (hread u).mpr rfl, huid, hcv⟩
  | rotated => exact h.2
  | revoked => exact h
  | _ => trivial

/-! ## Identifiers -/

/-- Some thread has the fact. -/
def Known (log : AuthLog) (f : Fact) : Prop := ∃ T, f ∈ log.facts observe T

theorem Known.cons (h : Known log f) : Known (⟨T, c, o, e⟩ :: log) f := by
  obtain ⟨T', hT'⟩ := h
  exact ⟨T', UserInv.facts_cons hT'⟩

theorem known_cons : Known (⟨T, c, o, e⟩ :: log) f ↔ observe c o = some f ∨ Known log f := by
  constructor
  · rintro ⟨T', h⟩
    rcases Log.mem_facts_cons.mp h with ⟨-, h⟩ | h
    · exact .inl h
    · exact .inr ⟨T', h⟩
  · rintro (h | h)
    · exact ⟨T, Log.mem_facts_cons.mpr (.inl ⟨rfl, h⟩)⟩
    · exact h.cons

theorem Known.of_suffix {log log' : AuthLog} {f : Fact} (hlog : log <:+ log') (h : Known log f) :
    Known log' f := by
  obtain ⟨T, hT⟩ := h
  exact ⟨T, Log.facts_of_suffix hlog hT⟩

/-- What holds of the facts of all threads. -/
structure IdInv (P : Platform) (log : AuthLog) : Prop where
  generated : ∀ {T T' u}, .generated u ∈ log.facts observe T →
    .generated u ∈ log.facts observe T' → T = T'
  origin : ∀ {T f}, f ∈ log.facts observe T → Origin (log.facts observe T) f
  usesOnce : ∀ {T f f'}, f ∈ log.facts observe T → f' ∈ log.facts observe T →
    f.usesTokenID = true → f'.usesTokenID = true → f = f'
  signsOnce : ∀ {T f f'}, f ∈ log.facts observe T → f' ∈ log.facts observe T →
    f.signsRefresh = true → f'.signsRefresh = true → f = f'
  /-- A session has the credentials of every row its login read. -/
  reader : ∀ {T s u}, .opened s ∈ log.facts observe T → .read u ∈ log.facts observe T →
    s.userID = u.id ∧ s.credentialVersion = u.credentialVersion
  parsed : ∀ {token c}, Known log (.parsed token c) → P.jwt.parseUnverified token = some c ∧
    Known log (.signed c token) ∧ ∃ s, Known log (.opened s) ∧ s.id = c.sessionID
  /-- The subject of a token of a session is the user the session was opened for. -/
  owner : ∀ {c token s}, Known log (.signed c token) → Known log (.opened s) →
    c.sessionID = s.id → ∃ u, Known log (.read u) ∧ u.id = s.userID ∧ u.uuid = c.subject
  /-- A committed session row was opened by some thread. -/
  inserted : ∀ {r s}, r ∈ log → .insertSession s ∈ r.effect → Known log (.opened s)

theorem IdInv.init : IdInv P [] where
  generated h := by cases h
  origin h := by cases h
  usesOnce h := by cases h
  signsOnce h := by cases h
  reader h := by cases h
  parsed h := by obtain ⟨_, h⟩ := h; cases h
  owner h := by obtain ⟨_, h⟩ := h; cases h
  inserted h := by cases h

theorem Grounds.uses (h : Grounds F f) (hf : f.usesTokenID = true) :
    Without Fact.usesTokenID F := by
  cases f with
  | opened | rotated => exact h.1
  | _ => cases hf

theorem Grounds.signs (h : Grounds F f) (hf : f.signsRefresh = true) :
    Without Fact.signsRefresh F := by
  cases f with
  | signed c token => exact (h.2.1 (by simpa [Fact.signsRefresh] using hf)).2
  | _ => cases hf

/-- A fact that a thread can have only once. -/
theorem once_cons {kind : Fact → Bool}
    (hold : ∀ {T f f'}, f ∈ log.facts observe T → f' ∈ log.facts observe T →
      kind f = true → kind f' = true → f = f')
    (hnew : ∀ {f}, observe c o = some f → kind f = true → Without kind (log.facts observe T))
    {T' : ℕ} (h : f ∈ Log.facts observe (⟨T, c, o, e⟩ :: log) T')
    (h' : f' ∈ Log.facts observe (⟨T, c, o, e⟩ :: log) T') (hf : kind f = true)
    (hf' : kind f' = true) : f = f' := by
  rcases Log.mem_facts_cons.mp h with ⟨rfl, hobs⟩ | hmem
  · rcases Log.mem_facts_cons.mp h' with ⟨-, hobs'⟩ | hmem'
    · exact Option.some.inj (hobs.symm.trans hobs')
    · have := hnew hobs hf _ hmem'
      rw [hf'] at this
      cases this
  · rcases Log.mem_facts_cons.mp h' with ⟨rfl, hobs'⟩ | hmem'
    · have := hnew hobs' hf' _ hmem
      rw [hf] at this
      cases this
    · exact hold hmem hmem' hf hf'

/-- The identifiers of a session that is being opened are in no other session. -/
theorem IdInv.unopened (hi : IdInv P log) {s s' : Session}
    (hF : Without Fact.usesTokenID (log.facts observe T))
    (hgen : .generated s.id ∈ log.facts observe T) (hs' : Known log (.opened s')) :
    s'.id ≠ s.id := by
  intro hid
  obtain ⟨T', hs'⟩ := hs'
  cases hi.generated (hid ▸ hgen) (hi.origin hs').1
  simpa [Fact.usesTokenID] using hF _ hs'

/-- A row that a step commits into `auth_sessions` was inserted by that step. -/
theorem exec_insertSession {init : List User} {ch : Choice} {s : Session}
    (hu : UserInv init log w) (h : exec P log T c ch w = some (o, e, w'))
    (hs : .insertSession s ∈ e) : observe c o = some (.opened s) := by
  cases exec_moves h with
  | quiet | begin | rollback | inTx => cases hs
  | commit htx => cases (hu.tx htx).noSession _ hs
  | primary hrun hfree =>
      rename_i q pick r
      cases q with
      | insertSession s' =>
          obtain ⟨-, rfl⟩ := Stmt.run_insertSession hrun
          cases List.mem_singleton.mp hs
          rfl
      | selectUser | selectRole | selectActiveSession =>
          obtain ⟨_, -, rfl⟩ := first_eq_ok hrun; cases hs
      | selectRoles | selectRolePermissions | selectExpiredSessions => cases hrun; cases hs
      | insertUser => cases Stmt.run_insertUser hrun; simp at hs
      | insertUserRole => cases Stmt.run_insertUserRole hrun; simp at hs
      | updateUser =>
          rcases Stmt.run_updateUser hrun with rfl | ⟨_, -, -, -, -, rfl⟩
          · cases hs
          · simp at hs
      | deleteUser =>
          rcases Stmt.run_deleteUser hrun with rfl | ⟨_, -, -, -, rfl⟩
          · cases hs
          · simp at hs
      | rotateSession | revokeSession | deleteSessions | insertOutbox => cases hrun; simp at hs

theorem exec_generated {ch : Choice} {u : UUID} (h : exec P log T c ch w = some (o, e, w'))
    (hobs : observe c o = some (.generated u)) (T' : ℕ) : .generated u ∉ log.facts observe T' := by
  cases o with
  | failed => cases hobs
  | panicked => cases hobs
  | returned a =>
      cases c with
      | newUUID => cases hobs; exact exec_newUUID h T'
      | sql conn q => cases q <;> cases hobs
      | _ => cases hobs

theorem exec_parsed {ch : Choice} {token : JWT} {claims : JWTClaims}
    (h : exec P log T c ch w = some (o, e, w')) (hobs : observe c o = some (.parsed token claims)) :
    P.jwt.parseUnverified token = some claims ∧ Known log (.signed claims token) ∧
      openedIn log claims.sessionID = true := by
  cases o with
  | failed => cases hobs
  | panicked => cases hobs
  | returned a =>
      cases c with
      | parseWithClaims opts token' =>
          cases hobs
          obtain ⟨hparse, hsigned, hopen⟩ := exec_parse h
          exact ⟨P.jwt.parseUnverified_of_ok hparse, hsigned, hopen⟩
      | sql conn q => cases q <;> cases hobs
      | _ => cases hobs

theorem openedIn_iff {sid : String} :
    openedIn log sid = true ↔ ∃ r ∈ log, ∃ s, .insertSession s ∈ r.effect ∧ s.id = sid := by
  simp only [openedIn, List.any_eq_true]
  refine exists_congr fun r => and_congr_right fun _ => ⟨?_, ?_⟩
  · rintro ⟨x, hx, h⟩
    cases x with
    | insertSession s => exact ⟨s, hx, by simpa using h⟩
    | _ => cases h
  · rintro ⟨s, hs, hid⟩
    exact ⟨_, hs, by simpa using hid⟩

theorem IdInv.step {init : List User} {ch : Choice} (hi : IdInv P log) (hu : UserInv init log w)
    (ha : allowed P call (log.facts observe T) c) (h : exec P log T c ch w = some (o, e, w')) :
    IdInv P (⟨T, c, o, e⟩ :: log) := by
  have hground : ∀ {f}, observe c o = some f → Grounds (log.facts observe T) f :=
    fun hobs => grounds_of_allowed ha hobs
  refine ⟨fun {T₁ T₂ u} h₁ h₂ => ?_, fun {T' f} hf => ?_,
    once_cons hi.usesOnce fun hobs => (hground hobs).uses,
    once_cons hi.signsOnce fun hobs => (hground hobs).signs, fun {T' s u} hs hread => ?_,
    fun {token c'} hp => ?_,
    fun {c' token s} hc hs hid => ?_, fun {r s} hr hs => ?_⟩
  · rcases Log.mem_facts_cons.mp h₁ with ⟨rfl, hobs⟩ | hold
    · rcases Log.mem_facts_cons.mp h₂ with ⟨rfl, -⟩ | hold
      · rfl
      · exact absurd hold (exec_generated h hobs _)
    · rcases Log.mem_facts_cons.mp h₂ with ⟨rfl, hobs⟩ | hold'
      · exact absurd hold (exec_generated h hobs _)
      · exact hi.generated hold hold'
  · rcases Log.mem_facts_cons.mp hf with ⟨rfl, hobs⟩ | hf
    · exact (hground hobs).origin.mono fun _ => UserInv.facts_cons
    · exact (hi.origin hf).mono fun _ => UserInv.facts_cons
  · rcases Log.mem_facts_cons.mp hs with ⟨rfl, hobs⟩ | hold
    · rcases Log.mem_facts_cons.mp hread with ⟨-, hobs'⟩ | hread
      · rw [hobs] at hobs'; cases hobs'
      · obtain ⟨-, -, -, v, hone, huid, hcv, -⟩ := hground hobs
        cases (hone u).mp hread
        exact ⟨huid, hcv⟩
    · rcases Log.mem_facts_cons.mp hread with ⟨rfl, hobs⟩ | hread
      · simpa [Fact.isOpened] using (allowed_of_read ha hobs).1 _ hold
      · exact hi.reader hold hread
  · rcases known_cons.mp hp with hobs | hp
    · obtain ⟨hclaims, hsigned, hopen⟩ := exec_parsed h hobs
      obtain ⟨r, hr, s, hs, hid⟩ := openedIn_iff.mp hopen
      exact ⟨hclaims, hsigned.cons, s, (hi.inserted hr hs).cons, hid⟩
    · obtain ⟨hclaims, hsigned, s, hs, hid⟩ := hi.parsed hp
      exact ⟨hclaims, hsigned.cons, s, hs.cons, hid⟩
  · suffices hex : ∃ u, Known log (.read u) ∧ u.id = s.userID ∧ u.uuid = c'.subject by
      obtain ⟨u, hread, hrest⟩ := hex
      exact ⟨u, hread.cons, hrest⟩
    rcases known_cons.mp hc with hc | hc
    · rcases known_cons.mp hs with hs | hs
      · rw [hc] at hs; cases hs
      · -- A token for a session that is open continues a token that was parsed.
        obtain ⟨hnew, -, hsource⟩ := hground hc
        rcases hsource with hgen | ⟨token', c₀, hp, hsid, hsub⟩
        · obtain ⟨T', hs⟩ := hs
          cases hi.generated hgen (hid ▸ (hi.origin hs).1)
          simpa [Fact.isOpened] using hnew _ hs
        · obtain ⟨-, hsigned, -⟩ := hi.parsed ⟨_, hp⟩
          rw [hsub]
          exact hi.owner hsigned hs (hsid ▸ hid)
    · rcases known_cons.mp hs with hs | hs
      · -- The tokens of a session that is being opened were all signed by its login.
        obtain ⟨huses, hgen, -, u, hread, huid, -, hsigned⟩ := hground hs
        obtain ⟨T', hc⟩ := hc
        rcases (hi.origin hc).2 with hgen' | ⟨token', c₀, hp, hsid, -⟩
        · cases hi.generated (hid ▸ hgen) hgen'
          exact ⟨u, ⟨_, (hread u).mpr rfl⟩, huid.symm, (hsigned _ _ hc).2.symm⟩
        · obtain ⟨-, -, s', hs', hid'⟩ := hi.parsed ⟨_, hp⟩
          exact absurd (hid'.trans (hsid.symm.trans hid)) (hi.unopened huses hgen hs')
      · exact hi.owner hc hs hid
  · rcases List.mem_cons.mp hr with rfl | hr
    · exact known_cons.mpr (.inl (exec_insertSession hu h hs))
    · exact (hi.inserted hr hs).cons

/-! ## Rows -/

/-- Every row of `ss'` is an old row with a key outside `rows`, or a row of `rows` changed
by `g`. -/
def Replaced (rows : List Session) (g : Session → Session) (ss ss' : List Session) : Prop :=
  ∀ x' ∈ ss', (x' ∈ ss ∧ ∀ x ∈ rows, x.id ≠ x'.id) ∨ ∃ x ∈ rows, x' = g x

/-- Writing changed rows back one by one. -/
theorem replaced_setSession (g : Session → Session) (hg : ∀ x, (g x).id = x.id)
    (rows : List Session) : ∀ t : Tables, Replaced rows g t.sessions
      (applyAll t (rows.map fun x => .setSession (g x))).sessions := by
  induction rows with
  | nil => exact fun t x' hx' => .inl ⟨hx', by simp⟩
  | cons r rows ih =>
      intro t x' hx'
      rcases ih _ x' hx' with ⟨hmem, hne⟩ | ⟨x, hx, rfl⟩
      · obtain ⟨y, hy, rfl⟩ := List.mem_map.mp hmem
        split
        · exact .inr ⟨r, List.mem_cons_self, rfl⟩
        · rename_i hid
          rw [if_neg hid] at hne
          refine .inl ⟨hy, fun x hx => ?_⟩
          rcases List.mem_cons.mp hx with rfl | hx
          · exact fun h => hid (h.symm.trans (hg x).symm)
          · exact hne x hx
      · exact .inr ⟨x, List.mem_cons_of_mem _ hx, rfl⟩

/-- Other writes leave the table alone. -/
theorem sessions_applyAll {ws : List Write} (h : ∀ w ∈ ws, w.isSession = false) :
    ∀ t : Tables, (applyAll t ws).sessions = t.sessions := by
  induction ws with
  | nil => exact fun t => rfl
  | cons w ws ih =>
      intro t
      rw [applyAll_cons, ih fun w' hw' => h w' (List.mem_cons_of_mem _ hw')]
      have hw := h w List.mem_cons_self
      cases w <;> first | rfl | cases hw

theorem sessions_deleteSession (ids : List UUID) :
    ∀ t : Tables, (applyAll t (ids.map .deleteSession)).sessions ⊆ t.sessions := by
  induction ids with
  | nil => exact fun t _ hx => hx
  | cons id ids ih => exact fun t x hx => (List.mem_filter.mp (ih _ hx)).1

/-- The rows that `RotateSession` updates. -/
def Tables.rotatableSessions (t : Tables) (sid uid prev : String) (now : ℤ) : List Session :=
  (t.activeSessions sid uid now).filter fun x => x.refreshTokenID = prev

/-- A fact about a statement that writes sessions. -/
def Fact.movesSession : Fact → Bool
  | .opened _ | .rotated _ _ _ _ _ | .revoked _ _ => true
  | _ => false

/-- What a row keeps from its login. -/
structure OpenedAs (s x : Session) : Prop where
  id : s.id = x.id
  userID : s.userID = x.userID
  version : s.credentialVersion = x.credentialVersion

/-- One step of the table, and what its thread learns. -/
inductive SessionStep (t : Tables) (now : ℤ) (ss' : List Session) : Option Fact → Prop where
  /-- At most some rows went away. -/
  | shrink {obs : Option Fact} : (∀ f, obs = some f → f.movesSession = false) →
      ss' ⊆ t.sessions → SessionStep t now ss' obs
  | opened {s : Session} : ss' = t.sessions ++ [s] → SessionStep t now ss' (some (.opened s))
  | rotated {sid uid prev next : String} {expiresAt : ℤ} :
      Replaced (t.rotatableSessions sid uid prev now)
        (fun x => { x with refreshTokenID := next, expiresAt := expiresAt }) t.sessions ss' →
      SessionStep t now ss' (some (.rotated sid uid prev next
        (t.rotatableSessions sid uid prev now).length))
  | revoked {sid uid : String} :
      Replaced (t.revocableSessions sid uid) (fun x => { x with revokedAt := some now })
        t.sessions ss' →
      SessionStep t now ss' (some (.revoked sid uid))

/-- A row is the one that was just opened, or an old row with a new lease at most. -/
theorem SessionStep.row {t : Tables} {now : ℤ} {ss' : List Session} {obs : Option Fact}
    (h : SessionStep t now ss' obs) {x' : Session} (hx' : x' ∈ ss') :
    obs = some (.opened x') ∨ ∃ x ∈ t.sessions, OpenedAs x x' ∧
      (x.revokedAt.isSome = true → x'.revokedAt.isSome = true) ∧
      (x'.refreshTokenID = x.refreshTokenID ∨
        ∃ sid uid prev n, obs = some (.rotated sid uid prev x'.refreshTokenID n)) := by
  cases h with
  | shrink _ hsub => exact .inr ⟨x', hsub hx', ⟨rfl, rfl, rfl⟩, id, .inl rfl⟩
  | opened hss =>
      rw [hss] at hx'
      rcases List.mem_append.mp hx' with hx' | hx'
      · exact .inr ⟨x', hx', ⟨rfl, rfl, rfl⟩, id, .inl rfl⟩
      · cases List.mem_singleton.mp hx'; exact .inl rfl
  | rotated hrep =>
      rcases hrep x' hx' with ⟨hx', -⟩ | ⟨x, hx, rfl⟩
      · exact .inr ⟨x', hx', ⟨rfl, rfl, rfl⟩, id, .inl rfl⟩
      · exact .inr ⟨x, List.mem_of_mem_filter (List.mem_of_mem_filter hx), ⟨rfl, rfl, rfl⟩, id,
          .inr ⟨_, _, _, _, rfl⟩⟩
  | revoked hrep =>
      rcases hrep x' hx' with ⟨hx', -⟩ | ⟨x, hx, rfl⟩
      · exact .inr ⟨x', hx', ⟨rfl, rfl, rfl⟩, id, .inl rfl⟩
      · exact .inr ⟨x, List.mem_of_mem_filter hx, ⟨rfl, rfl, rfl⟩, fun _ => rfl, .inl rfl⟩

theorem exec_sessionStep {init : List User} {ch : Choice} (hu : UserInv init log w)
    (ha : allowed P call (log.facts observe T) c) (h : exec P log T c ch w = some (o, e, w')) :
    SessionStep w.db.committed w.clock w'.db.committed.sessions (observe c o) := by
  cases exec_moves h with
  | quiet hlocal =>
      refine .shrink (fun f hf => ?_) (List.Subset.refl _)
      have := hlocal f hf
      cases f <;> first | rfl | cases this
  | begin => exact .shrink (fun f hf => by cases hf) (List.Subset.refl _)
  | rollback => exact .shrink (fun f hf => by cases hf) (List.Subset.refl _)
  | commit htx =>
      refine .shrink (fun f hf => by cases hf; rfl) ?_
      simp only [Store.commit_of_tx htx]
      rw [sessions_applyAll (hu.tx htx).noSession]
      exact List.Subset.refl _
  | inTx htx hrun hkey hfree =>
      rename_i q pick r tx snapshot
      refine .shrink (fun f hf => ?_) ?_
      · cases q with
        | insertSession | rotateSession | revokeSession | deleteSessions => simp [allowed] at ha
        | _ => cases hf <;> rfl
      · simp [Store.write, htx]
  | primary hrun hfree =>
      rename_i q pick r
      have hquiet : (∀ v ∈ r.writes, v.isSession = false) →
          (∀ f, observe (.sql .primary q) (.returned r.answer) = some f → f.movesSession = false) →
          SessionStep w.db.committed w.clock (applyAll w.db.committed r.writes).sessions
            (observe (.sql .primary q) (.returned r.answer)) := fun hws hobs =>
        .shrink hobs (by rw [sessions_applyAll hws]; exact List.Subset.refl _)
      change SessionStep _ _ (applyAll w.db.committed r.writes).sessions _
      cases q with
      | selectUser | selectRole | selectActiveSession =>
          obtain ⟨_, -, rfl⟩ := first_eq_ok hrun
          exact hquiet (by simp [Done.read]) fun f hf => by cases hf <;> rfl
      | selectRoles | selectRolePermissions | selectExpiredSessions =>
          cases hrun
          exact hquiet (by simp [Done.read]) fun f hf => by cases hf
      | insertUser | updateUser | deleteUser => simp [allowed] at ha
      | insertUserRole =>
          cases Stmt.run_insertUserRole hrun
          exact hquiet (by simp [Write.isSession]) fun f hf => by cases hf; rfl
      | insertOutbox =>
          cases hrun
          exact hquiet (by simp [Write.isSession]) fun f hf => by cases hf; rfl
      | insertSession s => obtain ⟨-, rfl⟩ := Stmt.run_insertSession hrun; exact .opened rfl
      | rotateSession sid uid prev next expiresAt =>
          cases hrun
          exact .rotated (replaced_setSession
            (fun x => { x with refreshTokenID := next, expiresAt := expiresAt }) (fun _ => rfl) _ _)
      | revokeSession sid uid =>
          cases hrun
          exact .revoked (replaced_setSession (fun x => { x with revokedAt := some w.clock })
            (fun _ => rfl) _ _)
      | deleteSessions ids cutoff =>
          cases hrun
          refine .shrink (fun f hf => by cases hf; rfl) ?_
          rw [← Function.comp_def, ← List.map_map]
          exact sessions_deleteSession _ _

/-! ## Sessions over a run -/

/-- The identifier was put to use as the current refresh token of a session. -/
def InUse (log : AuthLog) (id : UUID) : Prop :=
  (∃ s, Known log (.opened s) ∧ s.refreshTokenID = id) ∨
    ∃ sid uid prev n, Known log (.rotated sid uid prev id n)

theorem InUse.cons {id : UUID} (h : InUse log id) : InUse (⟨T, c, o, e⟩ :: log) id := by
  rcases h with ⟨s, hs, hid⟩ | ⟨sid, uid, prev, n, h⟩
  · exact .inl ⟨s, hs.cons, hid⟩
  · exact .inr ⟨sid, uid, prev, n, h.cons⟩

/-- An identifier that a thread is about to put to use is not in use. -/
theorem IdInv.unused (hi : IdInv P log) {id : UUID}
    (hF : Without Fact.usesTokenID (log.facts observe T))
    (hgen : .generated id ∈ log.facts observe T) : ¬InUse log id := by
  rintro (⟨s, ⟨T', hs⟩, rfl⟩ | ⟨sid, uid, prev, n, T', h⟩)
  · cases hi.generated hgen (hi.origin hs).2.1
    simpa [Fact.usesTokenID] using hF _ hs
  · cases hi.generated hgen (hi.origin h).1
    simpa [Fact.usesTokenID] using hF _ h

/-- The invariant of `auth_sessions`. -/
structure SessionInv (P : Platform) (log : AuthLog) (ss : List Session) : Prop where
  ids : IdInv P log
  rows : ∀ x ∈ ss, ∃ s, Known log (.opened s) ∧ OpenedAs s x
  inUse : ∀ x ∈ ss, InUse log x.refreshTokenID
  /-- A refresh token that was rotated away is never current again. -/
  consumed : ∀ {sid uid prev next n}, Known log (.rotated sid uid prev next n) → n ≠ 0 →
    InUse log prev ∧ ∀ x ∈ ss, x.id = sid → x.refreshTokenID ≠ prev
  dead : ∀ {sid uid}, Known log (.revoked sid uid) → ∀ x ∈ ss, x.id = sid → x.revokedAt.isSome = true

namespace SessionInv

variable {ss : List Session}

theorem init : SessionInv P [] [] where
  ids := .init
  rows x hx := by cases hx
  inUse x hx := by cases hx
  consumed h := by obtain ⟨_, h⟩ := h; cases h
  dead h := by obtain ⟨_, h⟩ := h; cases h

/-- The session that a token names is open. -/
theorem opened_of_rotated (hi : IdInv P log) {sid uid prev next : String} {n : ℕ}
    (h : Known log (.rotated sid uid prev next n)) : ∃ s, Known log (.opened s) ∧ s.id = sid := by
  obtain ⟨T, hT⟩ := h
  obtain ⟨-, token, c, hp, rfl, -, -⟩ := hi.origin hT
  exact (hi.parsed ⟨T, hp⟩).2.2

theorem opened_of_revoked (hi : IdInv P log) {sid uid : String}
    (h : Known log (.revoked sid uid)) : ∃ s, Known log (.opened s) ∧ s.id = sid := by
  obtain ⟨T, hT⟩ := h
  obtain ⟨token, c, hp, rfl, -⟩ := hi.origin hT
  exact (hi.parsed ⟨T, hp⟩).2.2

/-- A revocation reaches every row of its session that is not revoked yet. -/
theorem mem_revocable {init : List User} (hu : UserInv init log w)
    (hi : SessionInv P log w.db.committed.sessions) {sid uid : String}
    (hg : Grounds (log.facts observe T) (.revoked sid uid)) {x : Session}
    (hx : x ∈ w.db.committed.sessions) (hid : x.id = sid) (halive : x.revokedAt = none) :
    x ∈ w.db.committed.revocableSessions sid uid := by
  obtain ⟨token, c, hp, rfl, rfl⟩ := hg
  obtain ⟨s, hs, hsx⟩ := hi.rows x hx
  -- The token of the call names the owner of the session.
  obtain ⟨u, ⟨T', hread⟩, huid, huuid⟩ :=
    hi.ids.owner (hi.ids.parsed ⟨T, hp⟩).2.1 hs (hid.symm.trans hsx.id.symm)
  obtain ⟨r, hr, hlater⟩ := hu.reads hread
  simp only [Tables.revocableSessions, List.mem_filter, Bool.and_eq_true, decide_eq_true_eq,
    Option.isNone_iff_eq_none, List.any_eq_true]
  exact ⟨hx, ⟨hid, halive⟩, r, hr, hlater.uuid.trans huuid,
    hlater.id.trans (huid.trans hsx.userID)⟩

theorem step {init : List User} {ch : Choice} (hu : UserInv init log w)
    (hi : SessionInv P log w.db.committed.sessions) (ha : allowed P call (log.facts observe T) c)
    (h : exec P log T c ch w = some (o, e, w')) :
    SessionInv P (⟨T, c, o, e⟩ :: log) w'.db.committed.sessions := by
  have hids := hi.ids.step hu ha h
  have hstep := exec_sessionStep hu ha h
  have hground : ∀ {f}, observe c o = some f → Grounds (log.facts observe T) f :=
    fun hobs => grounds_of_allowed ha hobs
  have hnew : ∀ {f}, observe c o = some f → Known (⟨T, c, o, e⟩ :: log) f :=
    fun hobs => known_cons.mpr (.inl hobs)
  -- The identifiers that the step puts to use are fresh.
  have hfresh : ∀ {sid uid prev next n}, observe c o = some (.rotated sid uid prev next n) →
      ¬InUse log next := fun hobs =>
    hi.ids.unused (hground hobs).1 (hground hobs).2.1
  have hunopened : ∀ {s s'}, observe c o = some (.opened s) → Known log (.opened s') →
      s'.id ≠ s.id := fun hobs hs' =>
    hi.ids.unopened (hground hobs).1 (hground hobs).2.1 hs'
  refine ⟨hids, fun x' hx' => ?_, fun x' hx' => ?_, fun {sid uid prev next n} hr hn => ?_,
    fun {sid uid} hr x' hx' hid => ?_⟩
  · rcases hstep.row hx' with hobs | ⟨x, hx, hxx', -⟩
    · exact ⟨x', hnew hobs, rfl, rfl, rfl⟩
    · obtain ⟨s, hs, hsx⟩ := hi.rows x hx
      exact ⟨s, hs.cons, hsx.id.trans hxx'.id, hsx.userID.trans hxx'.userID,
        hsx.version.trans hxx'.version⟩
  · rcases hstep.row hx' with hobs | ⟨x, hx, -, -, hrt | ⟨sid, uid, prev, n, hobs⟩⟩
    · exact .inl ⟨x', hnew hobs, rfl⟩
    · exact hrt ▸ (hi.inUse x hx).cons
    · exact .inr ⟨sid, uid, prev, n, hnew hobs⟩
  · rcases known_cons.mp hr with hobs | hr
    · -- The rotation found the token current, and nobody brings it back.
      generalize hobs' : observe c o = obs at hstep
      rw [hobs] at hobs'
      subst hobs'
      cases hstep with
      | shrink hquiet _ => cases hquiet _ rfl
      | rotated hrep =>
          obtain ⟨x, hx⟩ := List.exists_mem_of_length_pos (Nat.pos_of_ne_zero hn)
          have hxrow := List.mem_filter.mp hx
          have hxid : x.id = sid := by
            have := (List.mem_filter.mp hxrow.1).2
            simp only [Bool.and_eq_true, decide_eq_true_eq] at this
            exact this.1.1.1
          have huse : InUse log prev := by
            have := hi.inUse x (List.mem_of_mem_filter hxrow.1)
            rwa [of_decide_eq_true hxrow.2] at this
          refine ⟨huse.cons, fun x' hx' hid heq => ?_⟩
          rcases hrep x' hx' with ⟨-, hother⟩ | ⟨y, -, rfl⟩
          · exact hother x hx (hxid.trans hid.symm)
          · obtain rfl : next = prev := heq
            exact hfresh hobs huse
    · obtain ⟨huse, hgone⟩ := hi.consumed hr hn
      refine ⟨huse.cons, fun x' hx' hid heq => ?_⟩
      rcases hstep.row hx' with hobs | ⟨x, hx, hxx', -, hrt | ⟨sid, uid, prev, n, hobs⟩⟩
      · obtain ⟨s, hs, hsid⟩ := opened_of_rotated hi.ids hr
        exact hunopened hobs hs (hsid.trans hid.symm)
      · exact hgone x hx (hxx'.id.trans hid) (hrt ▸ heq)
      · exact hfresh hobs (heq ▸ huse)
  · rcases known_cons.mp hr with hobs | hr
    · generalize hobs' : observe c o = obs at hstep
      rw [hobs] at hobs'
      subst hobs'
      cases hstep with
      | shrink hquiet _ => cases hquiet _ rfl
      | revoked hrep =>
          rcases hrep x' hx' with ⟨hx', hother⟩ | ⟨x, -, rfl⟩
          · by_contra halive
            exact hother x' (mem_revocable hu hi (hground hobs) hx' hid (by simpa using halive)) rfl
          · rfl
    · rcases hstep.row hx' with hobs | ⟨x, hx, hxx', hdead, -⟩
      · obtain ⟨s, hs, hsid⟩ := opened_of_revoked hi.ids hr
        exact absurd (hsid.trans hid.symm) (hunopened hobs hs)
      · exact hdead (hi.dead hr x hx (hxx'.id.trans hid))

/-- A revoked session is not active. -/
theorem activeSessions_of_revoked (hi : SessionInv P log w.db.committed.sessions)
    {sid uid uid' : String} {now : ℤ} (hr : Known log (.revoked sid uid)) :
    w.db.committed.activeSessions sid uid' now = [] := by
  refine List.filter_eq_nil_iff.mpr fun x hx hactive => ?_
  simp only [Bool.and_eq_true, decide_eq_true_eq] at hactive
  have := hi.dead hr x hx hactive.1.1.1
  simp_all

end SessionInv

/-- The fact shows that session `sid` was active. -/
def Fact.showsActive (sid : String) : Fact → Prop
  | .lookedUp sid' _ _ => sid' = sid
  | .rotated sid' _ _ _ n => sid' = sid ∧ n ≠ 0
  | _ => False

theorem exec_showsActive {init : List User} {ch : Choice} {sid : String}
    (hu : UserInv init log w) (ha : allowed P call (log.facts observe T) c)
    (h : exec P log T c ch w = some (o, e, w')) (hobs : observe c o = some f)
    (hf : f.showsActive sid) : ∃ uid, w.db.committed.activeSessions sid uid w.clock ≠ [] := by
  cases f with
  | rotated sid' uid prev next n =>
      obtain ⟨rfl, hn⟩ := hf
      have hstep := exec_sessionStep hu ha h
      generalize hobs' : observe c o = obs at hstep
      rw [hobs] at hobs'
      subst hobs'
      cases hstep with
      | shrink hquiet _ => cases hquiet _ rfl
      | rotated =>
          refine ⟨uid, fun hnil => hn ?_⟩
          simp [Tables.rotatableSessions, hnil]
  | lookedUp sid' uid x =>
      cases hf
      refine ⟨uid, ?_⟩
      cases exec_moves h with
      | quiet hlocal => cases hlocal _ hobs
      | begin | commit | rollback => cases hobs
      | primary hrun hfree =>
          rename_i q pick r
          cases q with
          | selectActiveSession sid uid =>
              cases hobs
              obtain ⟨a, ha, -⟩ := first_eq_ok hrun
              exact List.ne_nil_of_mem (List.mem_of_mem_head? ha)
          | _ => cases hobs
      | inTx htx hrun hkey hfree =>
          rename_i q pick r tx snapshot
          cases q with
          | selectActiveSession sid uid => cases ha
          | _ => cases hobs
  | _ => cases hf

end Go42.Auth
