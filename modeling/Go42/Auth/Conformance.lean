-- SUMMARY: Every call of the authentication service keeps the protocol and ends as the protocol says.
import Go42.Auth.Protocol

/-!
# Conformance

One lemma for each method, in the order of the calls. A lemma takes what has to hold
after each way the method can leave, so that callers never look inside.
-/

namespace Go42.Auth

open Prog (Spec)

variable {P : Platform} {S : Service} {req : Call} {F : List Fact} {α : Type}

/-- `p` keeps the protocol from facts `F` on and ends in `Q`. -/
abbrev Keeps (P : Platform) (req : Call) (Q : List Fact → Outcome α → Prop) (p : AuthProg α)
    (F : List Fact) : Prop :=
  p.Spec observe (allowed P req) Q F

/-- Every way of leaving without a result ends in `Q`. -/
abbrev Bad (Q : List Fact → Outcome α → Prop) (F : List Fact) : Prop :=
  ∀ o : Outcome α, o.isReturned = false → Q F o

/-- A result goes on, anything else ends. -/
def OnReturn (next : List Fact → α → Prop) (stop : List Fact → Prop) (F : List Fact) :
    Outcome α → Prop
  | .returned a => next F a
  | _ => stop F

theorem Bad.onReturn {next : List Fact → α → Prop} {stop : List Fact → Prop} (h : stop F) :
    Bad (OnReturn next stop) F :=
  Outcome.forall_not_returned (fun _ => h) fun _ => h

/-! ## Commands -/

/-- A command by the ways it can answer; only a result is a fact. -/
theorem Keeps.single {c : Cmd} {Q : List Fact → Outcome (Res c) → Prop} (hc : allowed P req F c)
    (hret : ∀ a, Q ((observe c (.returned a)).toList ++ F) (.returned a)) (hbad : Bad Q F) :
    Keeps P req Q (call c) F := by
  refine Spec.call hc fun o => ?_
  cases o with
  | returned a => exact hret a
  | failed e => simpa using hbad _ rfl
  | panicked v => simpa using hbad _ rfl

/-- A program that ends badly is left with its facts, whatever was to follow. -/
theorem Keeps.seq {β : Type} {p : AuthProg β} {k : β → AuthProg α}
    {Q : List Fact → Outcome α → Prop}
    (hp : Keeps P req (OnReturn (fun F' b => Keeps P req Q (k b) F') (Bad Q)) p F) :
    Keeps P req Q (p >>= k) F := by
  refine Spec.seq (hp.mono fun F' o ho => ?_)
  cases o with
  | returned b => exact ho
  | failed e => exact ho _ rfl
  | panicked v => exact ho _ rfl

/-- Rewriting the error changes nothing for who only asks whether there is one. -/
theorem Keeps.mapErr {p : AuthProg α} {f : GoError → GoError} {next : List Fact → α → Prop}
    {stop : List Fact → Prop} (hp : Keeps P req (OnReturn next stop) p F) :
    Keeps P req (OnReturn next stop) (p.mapErr f) F :=
  Spec.mapErr (hp.mono fun _ o ho => by cases o <;> exact ho)

/-- A command followed by the rest. -/
theorem Keeps.step {c : Cmd} {k : Res c → AuthProg α} {Q : List Fact → Outcome α → Prop}
    (hc : allowed P req F c)
    (hret : ∀ a, Keeps P req Q (k a) ((observe c (.returned a)).toList ++ F)) (hbad : Bad Q F) :
    Keeps P req Q (call c >>= k) F :=
  Keeps.seq (Keeps.single hc hret (Bad.onReturn hbad))

/-- A command whose error is rewritten, followed by the rest. -/
theorem Keeps.stepErr {c : Cmd} {f : GoError → GoError} {k : Res c → AuthProg α}
    {Q : List Fact → Outcome α → Prop} (hc : allowed P req F c)
    (hret : ∀ a, Keeps P req Q (k a) ((observe c (.returned a)).toList ++ F)) (hbad : Bad Q F) :
    Keeps P req Q ((call c).mapErr f >>= k) F :=
  Keeps.seq (Keeps.mapErr (Keeps.single hc hret (Bad.onReturn hbad)))

/-! ## The repository and the limiter -/

theorem limitAuthentication_keeps {scope key : String} {requests window : ℤ}
    {Q : List Fact → Outcome Unit → Prop} (hQ : ∀ o, Q F o) :
    Keeps P req Q (limitAuthentication P S scope key requests window) F := by
  unfold limitAuthentication
  split
  · exact hQ _
  · split
    · exact hQ _
    · dsimp only
      split
      · exact hQ _
      · exact hQ _
      · refine Keeps.stepErr trivial (fun ok => ?_) fun o _ => hQ o
        cases ok <;> exact hQ _

theorem getUser_keeps {c : Conn} {f : UserFilter} {Q : List Fact → Outcome User → Prop}
    (hF : Without Fact.isOpened F ∧ Without Fact.changesUser F)
    (hret : ∀ u roles, Q (.read u :: F) (.returned { u with roles := roles }))
    (hbad : Bad Q F) (hbad' : ∀ u, Bad Q (.read u :: F)) :
    Keeps P req Q (Repository.getUser c f) F := by
  unfold Repository.getUser
  refine Keeps.stepErr hF (fun u => ?_) hbad
  refine Keeps.stepErr trivial (fun roles => ?_) (hbad' u)
  split
  · exact hret u _
  · refine Keeps.stepErr trivial (fun permissions => ?_) (hbad' u)
    exact hret u _

theorem setPassword_keeps {user : User} {password : GoString}
    {Q : List Fact → Outcome User → Prop}
    (hret : ∀ hash, Q (.hashed password hash :: F) (.returned { user with password := some hash }))
    (hbad : Bad Q F) : Keeps P req Q (setPassword user password) F :=
  Keeps.step trivial hret hbad

theorem sendEvent_keeps {c : Conn} {topic : String} {msg : Outbox.Message}
    {Q : List Fact → Outcome Unit → Prop}
    (hret : ∀ id, Q (.recorded c :: .generated id :: F) (.returned ())) (hbad : Bad Q F)
    (hbad' : ∀ id, Bad Q (.generated id :: F)) :
    Keeps P req Q (sendEvent c topic msg) F := by
  unfold sendEvent newOutboxMessage
  refine Spec.mapErr ?_
  split
  · exact hbad _ rfl
  · refine Keeps.step trivial (fun id => ?_) ?_
    · exact Spec.mapErr (Keeps.single trivial (fun _ => hret id)
        (Outcome.forall_not_returned (fun _ => hbad' id _ rfl) fun _ => hbad' id _ rfl))
    · exact Outcome.forall_not_returned (fun _ => hbad _ rfl) fun _ => hbad _ rfl

/-! ## Transactions -/

theorem rollback_keeps {Q : List Fact → Outcome Unit → Prop} (hQ : ∀ o, Q F o) :
    Keeps P req Q db.rollback F :=
  Spec.mapErr (Keeps.single trivial (fun _ => hQ _) fun _ _ => hQ _)

theorem recovering_keeps {o : Outcome α} {Q : List Fact → Outcome α → Prop} (hQ : Q F o)
    (hpanic : o.isReturned = false → ∀ v, Q F (.panicked v)) :
    Keeps P req Q (db.recovering o) F := by
  cases o with
  | returned a => exact hQ
  | failed e => exact hQ
  | panicked v =>
      refine Spec.handle (rollback_keeps fun o => ?_)
      cases o <;> exact hpanic rfl _

/-- The body runs between `Begin` and what its outcome leads to: its error is found in the
error of the call even when the rollback fails. -/
theorem withTransaction_keeps {fn : AuthProg α} {Q : List Fact → Outcome α → Prop}
    (hbegin : Bad Q F)
    (hfn : Keeps P req (fun F' o => match o with
      | .returned a => Q (.committed :: F') (.returned a) ∧ Bad Q F'
      | .failed e => (∀ e', e.Within e' → Q F' (.failed e')) ∧ ∀ v, Q F' (.panicked v)
      | .panicked _ => ∀ v, Q F' (.panicked v)) fn F) :
    Keeps P req Q (db.withTransaction fn) F := by
  refine Keeps.seq (Keeps.mapErr (Keeps.mapErr (Keeps.single trivial (fun _ => ?_)
    (Bad.onReturn hbegin))))
  refine Spec.handle (Spec.handle (hfn.mono fun F' o ho => ?_))
  cases o with
  | returned a =>
      refine Spec.handle (Spec.mapErr (Keeps.single trivial (fun _ => ho.1)
        (Outcome.forall_not_returned (fun e => ?_) fun v => ?_)))
      · refine Spec.handle (rollback_keeps fun o => ?_)
        cases o with
        | returned => exact ho.2 _ rfl
        | failed => exact ho.2 _ rfl
        | panicked v => exact recovering_keeps (ho.2 _ rfl) fun _ v => ho.2 _ rfl
      · exact recovering_keeps (ho.2 _ rfl) fun _ v => ho.2 _ rfl
  | failed e =>
      refine Spec.handle (rollback_keeps fun o => ?_)
      cases o with
      | returned => exact ho.1 _ (GoError.within_refl e)
      | failed rbErr => exact ho.1 _ (GoError.within_wrap2_right (GoError.within_refl e) _ _ _)
      | panicked v => exact recovering_keeps (ho.2 v) fun _ => ho.2
  | panicked v => exact recovering_keeps (ho v) fun _ => ho

/-! ## Tokens and sessions -/

/-- The facts of making tokens. -/
def Fact.mints : Fact → Bool
  | .generated _ | .signed _ _ => true
  | _ => false

/-- Nothing but tokens was made since `F`. -/
def OnlyMints (F F' : List Fact) : Prop := ∀ f ∈ F', f ∈ F ∨ f.mints = true

theorem OnlyMints.refl : OnlyMints F F := fun _ hf => .inl hf

theorem OnlyMints.cons {F' : List Fact} {f : Fact} (h : OnlyMints F F') (hf : f.mints = true) :
    OnlyMints F (f :: F') := by
  intro g hg
  rcases List.mem_cons.mp hg with rfl | hg
  · exact .inr hf
  · exact h g hg

theorem generateTokens_keeps {uuid sid rid : String} {exp : ℤ}
    {Q : List Fact → Outcome Tokens → Prop} (hopen : Without Fact.isOpened F)
    (hsign : Without Fact.signsRefresh F) (hrid : .generated rid ∈ F)
    (hsid : .generated sid ∈ F ∨
      ∃ token c', .parsed token c' ∈ F ∧ sid = c'.sessionID ∧ uuid = c'.subject)
    (hret : ∀ F' t, OnlyMints F F' →
      (∀ c token, .signed c token ∈ F' → .signed c token ∈ F ∨ c.sessionID = sid ∧ c.subject = uuid) →
      (∀ f ∈ F, f ∈ F') → Q F' (.returned t))
    (hbad : ∀ F', OnlyMints F F' → Bad Q F') :
    Keeps P req Q (generateTokens S uuid sid rid exp) F := by
  unfold generateTokens
  split
  · exact hbad F .refl _ rfl
  · refine Keeps.step trivial (fun now => ?_) (hbad F .refl)
    refine Keeps.step trivial (fun aid => ?_) (hbad F .refl)
    have hF₁ : OnlyMints F (.generated aid :: F) := .cons .refl rfl
    unfold signJWT
    split
    · exact hbad _ hF₁ _ rfl
    · refine Keeps.step ?_ (fun access => ?_) (hbad _ hF₁)
      · refine ⟨by simpa [observe, evidence, Fact.isOpened] using hopen, by simp, ?_⟩
        rcases hsid with h | ⟨token, c', h, hs, hu⟩
        · exact .inl (List.mem_cons_of_mem _ h)
        · exact .inr ⟨token, c', List.mem_cons_of_mem _ h, hs, hu⟩
      · have hF₂ := fun c => OnlyMints.cons (f := .signed c access) hF₁ rfl
        refine Keeps.step ?_ (fun refresh => ?_) (hbad _ (hF₂ _))
        · refine ⟨?_, fun _ => ⟨?_, ?_⟩, ?_⟩
          · simpa [observe, evidence, Fact.isOpened] using hopen
          · simp [observe, evidence, hrid]
          · simpa [observe, evidence, Fact.signsRefresh] using hsign
          · rcases hsid with h | ⟨token, c', h, hs, hu⟩
            · exact .inl (by simp [observe, evidence, h])
            · exact .inr ⟨token, c', by simp [observe, evidence, h], hs, hu⟩
        · refine hret _ _ ((hF₂ _).cons rfl) (fun c token hc => ?_) fun f hf => by simp [hf]
          simp only [observe, evidence, Option.toList_some, List.cons_append, List.nil_append, List.mem_cons,
            Fact.signed.injEq, reduceCtorEq, false_or] at hc
          rcases hc with ⟨rfl, -⟩ | ⟨rfl, -⟩ | hc
          · exact .inr ⟨rfl, rfl⟩
          · exact .inr ⟨rfl, rfl⟩
          · exact .inl hc

theorem parseJWTToken_keeps {token : JWT} {purpose : JWTTokenPurpose}
    {Q : List Fact → Outcome JWTClaims → Prop}
    (hret : ∀ c, Q (.parsed token c :: F) (.returned c)) (hbad : Bad Q F)
    (hbad' : ∀ c, Bad Q (.parsed token c :: F)) :
    Keeps P req Q (parseJWTToken P S token purpose) F := by
  unfold parseJWTToken
  split
  · exact hbad _ rfl
  · split
    · exact hbad _ rfl
    · split
      · exact hbad _ rfl
      · refine Keeps.stepErr trivial (fun c => ?_) hbad
        split
        · exact hret c
        · exact hbad' c _ rfl

/-- A thread that has only read `u`, and checked its password, opens a session for it. -/
theorem createSession_keeps {u user : User} {Q : List Fact → Outcome Tokens → Prop}
    (hu : ∀ v, .read v ∈ F ↔ v = u) (hid : user.id = u.id) (huuid : user.uuid = u.uuid)
    (hver : user.credentialVersion = u.credentialVersion)
    (huse : Without Fact.usesTokenID F) (hmint : Without Fact.mints F) (hQ : ∀ F' o, Q F' o) :
    Keeps P req Q (createSession S user) F := by
  have hopen : Without Fact.isOpened F := fun f hf => by
    have := huse f hf; cases f <;> simp_all [Fact.isOpened, Fact.usesTokenID]
  have hsign : Without Fact.signsRefresh F := fun f hf => by
    have := hmint f hf; cases f <;> simp_all [Fact.signsRefresh, Fact.mints]
  unfold createSession
  refine Keeps.step trivial (fun sid => ?_) fun _ _ => hQ _ _
  refine Keeps.step trivial (fun rid => ?_) fun _ _ => hQ _ _
  refine Keeps.step trivial (fun now => ?_) fun _ _ => hQ _ _
  refine Keeps.seq (generateTokens_keeps (by simpa [observe, evidence, Fact.isOpened] using hopen)
    (by simpa [observe, evidence, Fact.signsRefresh] using hsign) (by simp [observe, evidence])
    (.inl (by simp [observe, evidence])) (fun F' t hF' hsigned hsub => ?_)
    fun _ _ => Bad.onReturn fun _ _ => hQ _ _)
  have hF : ∀ f ∈ F', f ∈ F ∨ f.mints = true := fun f hf => by
    rcases hF' f hf with h | h
    · simp only [observe, evidence, Option.toList_some, Option.toList_none, List.cons_append, List.nil_append,
        List.mem_cons] at h
      rcases h with rfl | rfl | h
      · exact .inr rfl
      · exact .inr rfl
      · exact .inl h
    · exact .inr h
  refine Keeps.stepErr ⟨rfl, fun f hf => ?_, hsub _ (by simp [observe, evidence]), hsub _ (by simp [observe, evidence]),
    u, fun v => ⟨fun hv => ?_, fun hv => ?_⟩, hid, hver, fun c token hc => ?_⟩
    (fun _ => hQ _ _) fun _ _ => hQ _ _
  · rcases hF f hf with h | h
    · exact huse f h
    · cases f <;> simp_all [Fact.usesTokenID, Fact.mints]
  · rcases hF _ hv with h | h
    · exact (hu v).mp h
    · cases h
  · exact hsub _ (by simp [observe, evidence, (hu v).mpr hv])
  · rcases hsigned c token hc with h | ⟨h₁, h₂⟩
    · have : Fact.signed c token ∈ F := by simpa [observe, evidence] using h
      simpa [Fact.mints] using hmint _ this
    · exact ⟨h₁, h₂.trans huuid⟩

theorem compareDummyPassword_keeps {password : GoString} {Q : List Fact → Outcome Unit → Prop}
    (hQ : ∀ F o, Q F o) : Keeps P req Q (compareDummyPassword password) F :=
  Keeps.step trivial (fun _ => hQ _ _) fun _ _ => hQ _ _

theorem login_keeps {email password : GoString} {Q : List Fact → Outcome Tokens → Prop}
    (hQ : ∀ F o, Q F o) : Keeps P req Q (login P S email password) [] := by
  have hbad : ∀ F, Bad Q F := fun F o _ => hQ F o
  have hrefuse : ∀ F, Keeps P req Q (do
      compareDummyPassword password
      Prog.fail errInvalidCredentials) F := fun F =>
    Keeps.seq (compareDummyPassword_keeps fun F' o => by
      cases o <;> first | exact hQ _ _ | exact hbad _)
  unfold login
  split
  · exact hQ _ _
  · split
    · exact hQ _ _
    · refine Keeps.seq (limitAuthentication_keeps fun o => ?_)
      cases o with
      | failed e => exact hbad _
      | panicked v => exact hbad _
      | returned =>
          have herror : ∀ F e, Keeps P req Q (if (!GoError.is e errEntityNotFound) = true then
              Prog.fail (.wrap2 "" errAuthenticationUnavailable ": user lookup: " e)
              else do
                compareDummyPassword password
                Prog.fail errInvalidCredentials) F := fun F e => by
            split
            · exact hQ _ _
            · exact hrefuse F
          refine Keeps.seq (Spec.attempt (getUser_keeps ⟨by simp, by simp⟩ (fun u roles => ?_)
            (Outcome.forall_not_returned (herror _) fun _ => hbad _) fun u =>
            Outcome.forall_not_returned (herror _) fun _ => hbad _))
          simp only [OnReturn]
          split
          · exact hrefuse _
          · refine Keeps.step trivial (fun ok => ?_) (hbad _)
            split
            · exact hQ _ _
            · refine Keeps.seq (Keeps.mapErr (createSession_keeps (u := u) (by simp [observe, evidence]) rfl
                rfl rfl (by simp [observe, evidence, Fact.usesTokenID]) (by simp [observe, evidence, Fact.mints])
                fun F' o => ?_))
              cases o with
              | failed e => exact hbad _
              | panicked v => exact hbad _
              | returned t =>
                  refine Keeps.seq (Spec.attempt (sendEvent_keeps (fun _ => hQ _ _) ?_ fun _ => ?_))
                  all_goals exact Outcome.forall_not_returned (fun _ => hQ _ _) fun _ => hbad _

theorem refresh_keeps {token : JWT} :
    Keeps P (.refresh token) (fun F o => post P (.refresh token) F (o.map .tokens))
      (refresh P S token) [] := by
  have hbad : ∀ {F}, Without Fact.usesTokenID F →
      Bad (fun F o => post P (.refresh token) F (o.map Answer.tokens)) F := by
    intro F hF
    have hno : ∀ sid uid prev next n, Fact.rotated sid uid prev next n ∉ F := fun _ _ _ _ _ h => by
      simpa [Fact.usesTokenID] using hF _ h
    exact Outcome.forall_not_returned (fun e => ⟨by simp, fun _ _ _ _ _ h => absurd h (hno _ _ _ _ _)⟩)
      fun v => ⟨by simp, fun _ _ _ _ _ h => absurd h (hno _ _ _ _ _)⟩
  unfold refresh
  refine Keeps.seq (parseJWTToken_keeps (fun c => ?_) (Bad.onReturn (hbad (by simp)))
    fun c => Bad.onReturn (hbad (by simp [Fact.usesTokenID])))
  have hc : Without Fact.usesTokenID [.parsed token c] := by simp [Fact.usesTokenID]
  refine Keeps.seq (limitAuthentication_keeps fun o => ?_)
  cases o with
  | failed e => exact hbad hc
  | panicked v => exact hbad hc
  | returned =>
      refine Keeps.step trivial (fun next => ?_) (hbad hc)
      have hF : Without Fact.usesTokenID [.generated next, .parsed token c] := by
        simp [Fact.usesTokenID]
      refine Keeps.step trivial (fun now => ?_) (hbad hF)
      have hkeep : ∀ {F'}, OnlyMints [.generated next, .parsed token c] F' →
          Without Fact.usesTokenID F' := fun hF' f hf => by
        rcases hF' f hf with h | h
        · exact hF f h
        · cases f <;> simp_all [Fact.usesTokenID, Fact.mints]
      refine Keeps.seq (generateTokens_keeps (by simp [observe, evidence, Fact.isOpened])
        (by simp [observe, evidence, Fact.signsRefresh]) (by simp [observe, evidence])
        (.inr ⟨token, c, by simp [observe, evidence], rfl, rfl⟩) (fun F' t hF' _ hsub => ?_)
        fun F' hF' => Bad.onReturn (hbad (hkeep hF')))
      have hparsed : Fact.parsed token c ∈ F' := hsub _ (by simp [observe, evidence])
      refine Keeps.seq (Keeps.mapErr (Keeps.step ⟨rfl, hkeep hF', hsub _ (by simp [observe, evidence]), token,
        c, hparsed, rfl, rfl, rfl⟩ (fun n => ?_) (Bad.onReturn (hbad (hkeep hF')))))
      -- The compare-and-swap answered with `n` rows; only one row is a success.
      simp only [Prog.pure_eq, Spec, OnReturn, Bool.not_eq_true', decide_eq_false_iff_not]
      have hno : ∀ sid uid prev next n, Fact.rotated sid uid prev next n ∉ F' :=
        fun _ _ _ _ _ h => by simpa [Fact.usesTokenID] using hkeep hF' _ h
      split
      · refine Spec.seq (Spec.mapErr (Spec.call ⟨rfl, token, c, by simp [hparsed, observe, evidence], rfl, rfl⟩
          fun o => ?_))
        cases o with
        | returned =>
            refine ⟨by simp, fun sid uid prev next' m hm _ _ => ?_⟩
            simp [observe, evidence, hno] at hm
            simp [observe, evidence, hm]
        | failed e => exact ⟨by simp, fun _ _ _ _ _ _ _ h => by simp [errInvalidToken] at h⟩
        | panicked v => exact ⟨by simp, fun _ _ _ _ _ _ _ h => by simp at h⟩
      · rename_i hn
        refine ⟨fun t' _ => ⟨c, next, by simp [observe, evidence, hparsed], ?_⟩, by simp⟩
        simp [observe, evidence, not_not.mp hn]

theorem logout_keeps {token : JWT} :
    Keeps P (.logout token)
      (fun F o => o.isReturned = true →
        ∃ c, .parsed token c ∈ F ∧ .revoked c.sessionID c.subject ∈ F)
      (logout P S token) [] := by
  have hbad : ∀ F, Bad (fun F (o : Outcome Unit) => o.isReturned = true →
      ∃ c, Fact.parsed token c ∈ F ∧ Fact.revoked c.sessionID c.subject ∈ F) F := by
    intro F o ho h
    simp [ho] at h
  unfold logout
  refine Keeps.seq (parseJWTToken_keeps (fun c => ?_) (Bad.onReturn (hbad _))
    fun c => Bad.onReturn (hbad _))
  refine Keeps.stepErr ⟨rfl, token, c, by simp, rfl, rfl⟩ (fun _ => ?_) (hbad _)
  -- Whatever becomes of the event, the facts of the revocation stay.
  have hevent : Keeps P (.logout token) (fun F (_ : Outcome Unit) => .parsed token c ∈ F ∧
      .revoked c.sessionID c.subject ∈ F) (do
        let user ← Repository.getUserByUUID .primary c.subject
        sendEvent .primary topicNameAuthEvents (userEvent user.id eventTypeAuthLogout))
      [.revoked c.sessionID c.subject, .parsed token c] := by
    refine Keeps.seq (getUser_keeps (by simp [Fact.isOpened, Fact.changesUser]) (fun u roles => ?_)
      (Bad.onReturn fun _ _ => by simp) fun u => Bad.onReturn fun _ _ => by simp)
    exact sendEvent_keeps (fun _ => by simp) (fun _ _ => by simp) fun _ _ _ => by simp
  refine Keeps.seq (Spec.attempt (hevent.mono fun F o ho => ?_))
  cases o with
  | returned => exact fun _ => ⟨c, ho⟩
  | failed e => exact fun _ => ⟨c, ho⟩
  | panicked v => exact hbad F

theorem validateJWTToken_keeps {token : JWT} {purpose : JWTTokenPurpose} :
    Keeps P (.validateJWTToken token purpose)
      (fun F o => post P (.validateJWTToken token purpose) F (o.map .claims))
      (validateJWTToken P S token purpose) [] := by
  have hbad : ∀ F, Bad (fun F o => post P (.validateJWTToken token purpose) F
      (o.map Answer.claims)) F :=
    fun F => Outcome.forall_not_returned (fun _ => by simp [post]) fun _ => by simp [post]
  unfold validateJWTToken
  refine Keeps.seq (parseJWTToken_keeps (fun c => ?_) (Bad.onReturn (hbad _))
    fun c => Bad.onReturn (hbad _))
  refine Keeps.seq (Keeps.mapErr (Keeps.mapErr (Keeps.single rfl (fun s => ?_)
    (Bad.onReturn (hbad _)))))
  simp only [OnReturn]
  split
  · exact hbad _ _ rfl
  · rename_i hs
    intro c' hc'
    cases hc'
    exact ⟨by simp, s, by simp [observe, evidence], fun hp => not_not.mp fun h => hs ⟨hp, h⟩⟩

/-! ## Changes of users -/

theorem createAccount_keeps {eventType : String} {email password : GoString}
    {Q : List Fact → Outcome User → Prop} (hQ : ∀ F o, Q F o) :
    Keeps P req Q (createAccount P S eventType email password) [] := by
  have hbad : ∀ F, Bad Q F := fun F o _ => hQ F o
  unfold createAccount
  split
  · exact hQ _ _
  · split
    · exact hQ _ _
    · refine Keeps.step trivial (fun uuid => ?_) (hbad _)
      refine Keeps.seq (Keeps.mapErr (setPassword_keeps (fun hash => ?_) (Bad.onReturn (hbad _))))
      refine withTransaction_keeps (hbad _) (Spec.mono (Q := fun _ _ => True)
        (fun F o _ => by cases o <;> simp [hQ, Bad]) ?_)
      refine Keeps.seq (Keeps.mapErr (Keeps.stepErr ⟨rfl, by simp [observe, evidence, Fact.changesUser], rfl⟩
        (fun id => ?_) (Bad.onReturn fun _ _ => trivial)))
      refine Keeps.seq (Keeps.mapErr (Keeps.stepErr trivial (fun role => ?_)
        (Bad.onReturn fun _ _ => trivial)))
      refine Keeps.mapErr (Keeps.single trivial (fun _ => ?_) (Bad.onReturn fun _ _ => trivial))
      exact Keeps.seq (Keeps.mapErr (sendEvent_keeps (fun _ => trivial)
        (Bad.onReturn fun _ _ => trivial) fun _ => Bad.onReturn fun _ _ => trivial))

/-- A call on the transaction alone has committed only if it returns. -/
structure Inside (F : List Fact) : Prop where
  outside : Without Fact.actsOutside F
  open_ : .committed ∉ F

theorem Inside.cons {f : Fact} (h : Inside F) (hp : f.actsOutside = false)
    (hc : f ≠ .committed) : Inside (f :: F) :=
  ⟨without_cons.mpr ⟨hp, h.outside⟩, by simp [h.open_, hc.symm]⟩

theorem Inside.commit (h : Inside F) : Without Fact.actsOutside (.committed :: F) :=
  without_cons.mpr ⟨rfl, h.outside⟩

theorem deleteUser_keeps {uuid : String} :
    Keeps P (.deleteUser uuid) (fun F o => Without Fact.actsOutside F ∧
      (o.isReturned = false → .committed ∉ F)) (deleteUser uuid) [] := by
  have hnil : Inside [] := ⟨by simp, by simp⟩
  refine withTransaction_keeps (fun o _ => ⟨by simp, by simp⟩)
    (Spec.mono (Q := fun F _ => Inside F) (fun F o hF => ?_) ?_)
  · cases o with
    | returned => exact ⟨⟨hF.commit, by simp⟩, fun _ _ => ⟨hF.outside, fun _ => hF.open_⟩⟩
    | failed e => exact ⟨fun _ _ => ⟨hF.outside, fun _ => hF.open_⟩,
        fun _ => ⟨hF.outside, fun _ => hF.open_⟩⟩
    | panicked v => exact fun _ => ⟨hF.outside, fun _ => hF.open_⟩
  · refine Keeps.seq (Keeps.mapErr (getUser_keeps (by simp) (fun u roles => ?_)
      (Bad.onReturn fun _ _ => hnil) fun u => Bad.onReturn fun _ _ => hnil.cons rfl (by simp)))
    have hu : Inside [.read u] := hnil.cons rfl (by simp)
    refine Keeps.seq (Keeps.mapErr (Keeps.stepErr ⟨rfl, by simp [Fact.changesUser], rfl⟩ (fun n => ?_)
      (Bad.onReturn fun _ _ => hu)))
    have hd : Inside [.deleted u.id, .read u] := hu.cons rfl (by simp)
    split
    · exact fun _ _ => hd
    · exact Spec.mapErr (sendEvent_keeps (fun id => (hd.cons rfl (by simp)).cons rfl (by simp))
        (fun _ _ => hd) fun id _ _ => hd.cons rfl (by simp))

theorem setNewPassword_keeps {user : User} {password : Option GoString}
    {Q : List Fact → Outcome User → Prop}
    (hkeep : password = none → Q F (.returned user))
    (hset : ∀ pw hash, password = some pw →
      Q (.hashed pw hash :: F) (.returned { user with password := some hash }))
    (hbad : Bad Q F) : Keeps P req Q (setNewPassword user password) F := by
  cases password with
  | none => exact hkeep rfl
  | some pw =>
      refine Spec.mapErr (setPassword_keeps (fun hash => hset pw hash rfl)
        (Outcome.forall_not_returned (fun _ => hbad _ rfl) fun _ => hbad _ rfl))

theorem checkCurrentPassword_keeps {user : User} {currentPassword : Option GoString}
    {Q : List Fact → Outcome Unit → Prop}
    (hnone : currentPassword = none → Q F (.returned ()))
    (hret : ∀ pw, currentPassword = some pw → user.isActive = true →
      Q (.compared user.passwordHash pw true :: F) (.returned ()))
    (hbad : Bad Q F) (hbad' : ∀ pw, Bad Q (.compared user.passwordHash pw false :: F)) :
    Keeps P req Q (checkCurrentPassword P S user currentPassword) F := by
  cases currentPassword with
  | none => exact hnone rfl
  | some pw =>
      refine Spec.seq (limitAuthentication_keeps fun o => ?_)
      cases o with
      | failed e => exact hbad _ rfl
      | panicked v => exact hbad _ rfl
      | returned =>
          dsimp only
          split
          · exact hbad _ rfl
          · rename_i hactive
            simp only [Bool.or_eq_true, Bool.not_eq_true', not_or, Bool.not_eq_false] at hactive
            refine Keeps.step trivial (fun ok => ?_) hbad
            cases ok with
            | true => exact hret pw rfl hactive.1
            | false => exact hbad' pw _ rfl

/-- What `applyUpdate` leaves behind, for the callers that hold its transaction. -/
structure Applied (P : Platform) (data : UpdateUserData) (F : List Fact) (o : Outcome Unit) :
    Prop where
  inside : Inside F
  lost : ∀ id version next now, .updated id version next 0 now ∈ F →
    o.isReturned = false ∧ ∀ e, o = .failed e → e.is errInvalidCredentials = true
  noop : AsksNothing P data F → Without Fact.changesUser F ∧ .recorded .transaction ∉ F

/-- The facts before the update statement: one row read, a password checked or hashed. -/
def Fact.prepares (u : User) : Fact → Prop
  | .read v => v = u
  | .compared _ _ _ | .hashed _ _ => True
  | _ => False

def Prepared (u : User) (F : List Fact) : Prop := ∀ f ∈ F, f.prepares u

theorem Prepared.without {u : User} (h : Prepared u F) : Without Fact.changesUser F := fun f hf => by
  have := h f hf; cases f <;> simp_all [Fact.prepares, Fact.changesUser]

theorem Prepared.inside {u : User} (h : Prepared u F) : Inside F where
  outside f hf := by
    have := h f hf; cases f <;> simp_all [Fact.prepares, Fact.actsOutside]
  open_ hf := by simpa [Fact.prepares] using h _ hf

theorem Prepared.reads {u : User} (h : Prepared u F) (hu : .read u ∈ F) (v : User) :
    .read v ∈ F ↔ v = u :=
  ⟨fun hv => h _ hv, fun hv => hv ▸ hu⟩

theorem Prepared.applied {u : User} {data : UpdateUserData} {o : Outcome Unit}
    (h : Prepared u F) : Applied P data F o where
  inside := h.inside
  lost _ _ _ _ hf := by simpa [Fact.prepares] using h _ hf
  noop _ := ⟨h.without, fun hf => by simpa [Fact.prepares] using h _ hf⟩

theorem AsksNothing.congr {data : UpdateUserData} {F' : List Fact} (h : AsksNothing P data F')
    (hr : ∀ v, .read v ∈ F' ↔ .read v ∈ F) : AsksNothing P data F :=
  ⟨h.1, fun e he v hv => h.2 e he v ((hr v).mpr hv)⟩

theorem applied_of_asks {data : UpdateUserData} {o : Outcome Unit} (h : ¬AsksNothing P data F)
    (hin : Inside F) (hlost : ∀ id version next now, .updated id version next 0 now ∉ F) :
    Applied P data F o :=
  ⟨hin, fun _ _ _ _ hf => absurd hf (hlost _ _ _ _), fun hn => absurd hn h⟩

theorem saveUser_keeps {data : UpdateUserData} {current : Option GoString} {u user : User}
    (hreq : req.update? = some (data, current)) (hF : Prepared u F) (hu : .read u ∈ F)
    (hproved : Proved F u current) (hasks : ¬AsksNothing P data F) (hid : user.id = u.id)
    (hver : user.credentialVersion = u.credentialVersion)
    (hcomp : Computed P data F u { user with credentialVersion := user.credentialVersion + 1 }) :
    Keeps P req (Applied P data) (saveUser user) F := by
  have hbad : Bad (Applied P data) F := fun _ _ => hF.applied
  have hold : ∀ id version next now, Fact.updated id version next 0 now ∉ F := fun _ _ _ _ h => by
    simpa [Fact.prepares] using hF _ h
  unfold saveUser Repository.updateUser
  refine Spec.seq (Spec.mapErr (Keeps.stepErr
    ⟨rfl, hF.without, u, data, current, hF.reads hu, hreq, hid, hver, hcomp, hproved⟩ (fun r => ?_) ?_))
  · obtain ⟨n, now⟩ := r
    have hinside : Inside (.updated user.id user.credentialVersion
        { user with credentialVersion := user.credentialVersion + 1 } n now :: F) :=
      hF.inside.cons rfl (by simp)
    simp only [observe, evidence, Option.toList_some, List.cons_append, List.nil_append]
    split
    · -- Somebody else changed the row since it was read.
      refine ⟨hinside, fun _ _ _ _ _ => ⟨rfl, fun e he => ?_⟩,
        fun hn => absurd (hn.congr (by simp)) hasks⟩
      cases he
      exact GoError.is_wrap (GoError.is_self _)
    · rename_i hn
      have hnew : ∀ id version next now', Fact.updated id version next 0 now' ∉
          Fact.updated user.id user.credentialVersion
            { user with credentialVersion := user.credentialVersion + 1 } n now :: F := by
        intro id version next now' h
        rcases List.mem_cons.mp h with h | h
        · cases h; exact hn rfl
        · exact hold _ _ _ _ h
      refine Spec.mapErr (sendEvent_keeps (fun id => ?_) (fun o _ => ?_) fun id o _ => ?_)
      · exact applied_of_asks (fun hn => hasks (hn.congr (by simp))) ((hinside.cons rfl (by simp)).cons rfl (by simp))
          (by simpa using hnew)
      · exact applied_of_asks (fun hn => hasks (hn.congr (by simp))) hinside hnew
      · exact applied_of_asks (fun hn => hasks (hn.congr (by simp))) (hinside.cons rfl (by simp)) (by simpa using hnew)
  · exact Outcome.forall_not_returned (fun _ => hbad _ rfl) fun _ => hbad _ rfl

theorem applyUpdate_keeps {uuid : String} {data : UpdateUserData} {email : Option String}
    {current : Option GoString} (hreq : req.update? = some (data, current))
    (hemail : data.email.mapM (normalizeAndValidateEmail P) = .ok email) :
    Keeps P req (Applied P data) (applyUpdate P S uuid email data.password current) [] := by
  have hpre : ∀ {u F}, Prepared u F → Bad (Applied P data) F := fun h _ _ => h.applied
  have hnil : Bad (Applied P data) [] := fun _ _ =>
    ⟨⟨by simp, by simp⟩, by simp, fun _ => ⟨by simp, by simp⟩⟩
  unfold applyUpdate
  refine Keeps.seq (Keeps.mapErr (getUser_keeps (by simp) (fun u roles => ?_)
    (Bad.onReturn hnil) fun u => Bad.onReturn (hpre (u := u) (by simp [Prepared, Fact.prepares]))))
  -- The facts hold the row that was read and the proof of the password it asked for.
  suffices hrest : ∀ F, Prepared u F → .read u ∈ F → Proved F u current →
      Keeps P req (Applied P data) (do
        let user ← setNewPassword { u with roles := roles, email := email.getD u.email } data.password
        if email.any (· ≠ u.email) || data.password.isSome then saveUser user else return ()) F by
    have hread : Prepared u [.read u] := by simp [Prepared, Fact.prepares]
    have hcons : ∀ pw ok, Prepared u [.compared u.passwordHash pw ok, .read u] := fun _ _ => by
      simp [Prepared, Fact.prepares]
    refine Keeps.seq (checkCurrentPassword_keeps (fun hnone => ?_) (fun pw hpw hactive => ?_)
      (Bad.onReturn (hpre hread)) fun pw => Bad.onReturn (hpre (hcons pw false)))
    · exact hrest _ hread (by simp) (by simp [Proved, hnone])
    · refine hrest _ (hcons pw true) (by simp) fun pw' hpw' => ?_
      rw [hpw] at hpw'
      cases hpw'
      exact ⟨List.mem_cons_self, hactive⟩
  intro F hF hu hproved
  have hcomp : ∀ F' password, .read u ∈ F' → (data.password = none → password = u.password) →
      (∀ pw, data.password = some pw → ∃ hash, .hashed pw hash ∈ F' ∧ password = some hash) →
      Computed P data F' u { u with
        roles := roles, email := email.getD u.email, password := password,
        credentialVersion := u.credentialVersion + 1 } := by
    intro F' password _ hkeep hnew
    refine ⟨rfl, rfl, rfl, rfl, fun hnone => ?_, fun e he => ?_, hkeep, hnew⟩
    · rcases normalized_email hemail with ⟨-, h⟩ | ⟨e, e', h, -, -⟩
      · simp [h]
      · rw [hnone] at h; cases h
    · rcases normalized_email hemail with ⟨h, -⟩ | ⟨e₁, e', h, h', hn⟩
      · rw [he] at h; cases h
      · rw [he] at h; cases h; simpa [h'] using hn
  refine Keeps.seq (setNewPassword_keeps (fun hnone => ?_) (fun pw hash hpw => ?_)
    (Bad.onReturn (hpre hF)))
  · simp only [OnReturn]
    split
    · rename_i hdo
      refine saveUser_keeps hreq hF hu hproved ?_ rfl rfl (hcomp F _ hu (fun _ => rfl) (by simp [hnone]))
      rintro ⟨-, hsame⟩
      rcases normalized_email hemail with ⟨-, h⟩ | ⟨e, e', h, h', hn⟩
      · simp [h, hnone] at hdo
      · have := hsame e h u hu
        rw [hn] at this
        cases this
        simp [h', hnone] at hdo
    · exact hF.applied
  · have hF' : Prepared u (.hashed pw hash :: F) := fun f hf => by
      rcases List.mem_cons.mp hf with rfl | hf
      · trivial
      · exact hF f hf
    simp only [OnReturn]
    split
    · refine saveUser_keeps hreq hF' (by simp [hu]) (fun pw' hpw' => ?_) (by simp [AsksNothing, hpw])
        rfl rfl (hcomp _ _ (by simp [hu]) (by simp [hpw]) fun pw' hpw' => ?_)
      · exact ⟨List.mem_cons_of_mem _ (hproved pw' hpw').1, (hproved pw' hpw').2⟩
      · rw [hpw] at hpw'
        cases hpw'
        exact ⟨hash, List.mem_cons_self, rfl⟩
    · exact hF'.applied

theorem changeUser_keeps {uuid : String} {data : UpdateUserData} {current : Option GoString}
    (hreq : req.update? = some (data, current)) :
    Keeps P req (Ended P data) (changeUser P S uuid data current) [] := by
  have hnil : Bad (Ended (α := Unit) P data) [] := fun _ _ =>
    ⟨by simp, by simp, by simp, fun _ => ⟨by simp, by simp⟩⟩
  unfold changeUser
  split
  · exact hnil _ rfl
  · rename_i email hemail
    split
    · exact hnil _ rfl
    · refine withTransaction_keeps hnil ((applyUpdate_keeps hreq hemail).mono fun F o ho => ?_)
      have hbad : (∀ id version next now, .updated id version next 0 now ∉ F) →
          Bad (Ended (α := Unit) P data) F := fun hno o' _ =>
        ⟨ho.inside.outside, fun _ => ho.inside.open_, fun _ _ _ _ h => absurd h (hno _ _ _ _),
          ho.noop⟩
      have hpanic : ∀ v, Ended (α := Unit) P data F (.panicked v) := fun v =>
        ⟨ho.inside.outside, fun _ => ho.inside.open_, fun _ _ _ _ _ => ⟨rfl, by simp⟩, ho.noop⟩
      cases o with
      | returned a =>
          have hno : ∀ id version next now, .updated id version next 0 now ∉ F := fun _ _ _ _ h => by
            simpa using (ho.lost _ _ _ _ h).1
          refine ⟨⟨ho.inside.commit, by simp, by simpa using hno, fun hn => ?_⟩, hbad hno⟩
          simpa [Fact.changesUser] using ho.noop (hn.congr (by simp))
      | failed e =>
          refine ⟨fun e' he' => ⟨ho.inside.outside, fun _ => ho.inside.open_,
            fun _ _ _ _ h => ⟨rfl, fun e'' h' => ?_⟩, ho.noop⟩, hpanic⟩
          cases h'
          exact he' _ ((ho.lost _ _ _ _ h).2 e rfl)
      | panicked v => exact hpanic

/-! ## All calls -/

/-- The answer of a call says no more than the outcome of its method. -/
theorem Ended.map {β γ : Type} {data : UpdateUserData} {o : Outcome β} {f : β → γ}
    (h : Ended P data F o) : Ended P data F (o.map f) := by
  have hret : (o.map f).isReturned = o.isReturned := by cases o <;> rfl
  refine ⟨h.outside, hret ▸ h.undone, fun id v nx now hf => ⟨hret ▸ (h.lost id v nx now hf).1,
    fun e he => (h.lost id v nx now hf).2 e ?_⟩, h.noop⟩
  exact Outcome.map_eq_failed.mp he

theorem body_keeps (req : Call) : Keeps P req (post P req) (body P S req) [] := by
  cases req with
  | signUp email password => exact Spec.map (createAccount_keeps fun _ _ => trivial)
  | createUser data => exact Spec.map (createAccount_keeps fun _ _ => trivial)
  | login email password => exact Spec.map (login_keeps fun _ _ => trivial)
  | refresh token => exact Spec.map refresh_keeps
  | logout token =>
      refine Spec.map (logout_keeps.mono fun F o ho h => ho ?_)
      obtain ⟨a, rfl, -⟩ := Outcome.map_eq_returned.mp h
      rfl
  | validateJWTToken token purpose => exact Spec.map validateJWTToken_keeps
  | updateUser uuid data => exact Spec.map ((changeUser_keeps rfl).mono fun _ _ h => h.map)
  | updateSelf uuid data =>
      refine Spec.map ?_
      unfold updateSelf
      split
      · exact ⟨by simp, by simp, by simp, fun _ => ⟨by simp, by simp⟩⟩
      · exact (changeUser_keeps rfl).mono fun _ _ h => h.map
  | deleteUser uuid =>
      exact Spec.map (deleteUser_keeps.mono fun F o h => ⟨h.1, by cases o <;> simp_all⟩)
  | deleteExpiredSessions =>
      refine Spec.map ?_
      unfold Repository.deleteExpiredSessions
      refine Keeps.step trivial (fun cutoff => ?_) fun _ _ => trivial
      refine Keeps.step trivial (fun ids => ?_) fun _ _ => trivial
      split
      · trivial
      · exact Keeps.single rfl (fun _ => trivial) fun _ _ => trivial

end Go42.Auth
