-- SUMMARY: Password guesses and the limiter: which bucket a call consumes from before it compares a password, and when that is the bucket of the account.
import Go42.Auth.Issues
import Go42.Auth.Runs

/-!
# The account limiter

The bucket is chosen by the address that was submitted, the account by the comparison of
the column `email`. They agree where the comparison is exact. Under a collation that
ignores accents, two addresses of one account can have two buckets.
-/

namespace Go42.Auth

open Prog (Spec Issues)

variable {P : Platform} {S : Service} {α β : Type}

/-- The cache key of the bucket of an address. -/
def accountKey (P : Platform) (email : String) : String :=
  "rate_limit:" ++ ("auth:" ++ "account") ++ ":" ++ P.sha256Hex email

/-! ## Guards -/

/-- What bears on a comparison of passwords: the row that was found, the bucket that let the
thread pass, and an earlier comparison. -/
inductive Guard where
  | found (f : UserFilter) (u : User)
  | consumed (key : String)
  | compared
deriving DecidableEq

def watch : Observer Cmd Res Guard
  | .sql _ (.selectUser f), .returned u => some (.found f u)
  | .allowRateLimit req, .returned true => some (.consumed req.key)
  | .compareHashAndPassword _ _, _ => some .compared
  | _, _ => none

/-- A login has consumed from the bucket of the address that it looked up. -/
inductive LoginGuess (P : Platform) (e : String) : List Guard → String → Prop
  | notFound : LoginGuess P e [.consumed (accountKey P e)] dummyHash
  | found (u : User) (hash : String) : hash = dummyHash ∨ hash = u.passwordHash →
      LoginGuess P e [.found (.byEmail e) u, .consumed (accountKey P e)] hash

/-- An update of oneself has consumed from the bucket of the stored address. -/
inductive UpdateGuess (P : Platform) : List Guard → String → Prop
  | found (uuid : String) (u : User) : UpdateGuess P
      [.consumed (accountKey P (normalizeEmail u.email)), .found (.byUUID uuid) u] u.passwordHash

/-- What a login and an update of oneself look up, and what they know when they compare. -/
def guarded (P : Platform) (call : Call) (F : List Guard) (c : Cmd) : Prop :=
  match call, c with
  | .login email _, .sql c (.selectUser f) =>
    c = .primary ∧ ∃ e, normalizeAndValidateEmail P email = .ok e ∧ f = .byEmail e
  | .login email _, .compareHashAndPassword hash _ =>
    ∃ e, normalizeAndValidateEmail P email = .ok e ∧ LoginGuess P e F hash
  | .updateSelf _ _, .sql _ (.selectUser f) => ∃ uuid, f = .byUUID uuid
  | .updateSelf _ _, .compareHashAndPassword hash _ => UpdateGuess P F hash
  | _, _ => True

/-- A call that compares a password with the hash of an account. -/
def Call.guesses : Call → Bool
  | .login _ _ | .updateSelf _ _ => true
  | _ => false

/-- Nothing is asked of other calls. -/
theorem guarded_of_not_guesses {call : Call} (h : call.guesses = false) (F : List Guard) (c : Cmd) :
    guarded P call F c := by
  cases call with
  | login email password => cases h
  | updateSelf uuid data => cases h
  | _ => trivial

/-- A command that no guard speaks of. -/
def Cmd.free : Cmd → Prop
  | .compareHashAndPassword _ _ | .allowRateLimit _ | .sql _ (.selectUser _) => False
  | _ => True

theorem free_of_plain {c : Cmd} (h : c.plain) : c.free := by
  cases c with
  | compareHashAndPassword | allowRateLimit => cases h
  | sql conn q =>
      cases q with
      | selectUser f => cases h
      | _ => trivial
  | _ => trivial

theorem guarded_of_free {call : Call} {F : List Guard} {c : Cmd} (h : c.free) : guarded P call F c := by
  cases c with
  | compareHashAndPassword | allowRateLimit => cases h
  | sql conn q =>
      cases q with
      | selectUser f => cases h
      | _ => cases call <;> trivial
  | _ => cases call <;> trivial

theorem watch_of_free {c : Cmd} (h : c.free) (o : Outcome (Res c)) : watch c o = none := by
  cases c with
  | compareHashAndPassword | allowRateLimit => cases h
  | sql conn q =>
      cases q with
      | selectUser f => cases h
      | _ => rfl
  | _ => rfl

/-! ## Calls -/

section Calls

variable {call : Call} {F : List Guard}

/-- `p` keeps to what is guarded. -/
abbrev Guards (P : Platform) (call : Call) (Q : List Guard → Outcome α → Prop) (p : AuthProg α)
    (F : List Guard) : Prop :=
  p.Spec watch (guarded P call) Q F

theorem Guards.plain {p : AuthProg α} {Q : List Guard → Outcome α → Prop} (hp : p.Issues Cmd.plain)
    (hQ : ∀ o, Q F o) : Guards P call Q p F :=
  hp.spec (fun _ hc => guarded_of_free (free_of_plain hc)) (fun _ hc => watch_of_free (free_of_plain hc))
    hQ

/-- A call with no guards at all. -/
theorem Guards.unguarded {p : AuthProg α} (h : ∀ F c, guarded P call F c) :
    ∀ {F}, Guards P call (fun _ _ => True) p F := by
  induction p with
  | done o => exact fun {F} => trivial
  | op c k ih => exact fun {F} => ⟨h F c, fun o => ih o⟩

/-- Passing the limiter leaves a token of the bucket consumed. -/
theorem limitAuthentication_guards {key : String} {Q : List Guard → Outcome Unit → Prop}
    (henabled : S.rateLimiterEnabled = true) (hallowed : ∀ req, guarded P call F (.allowRateLimit req))
    (hpass : Q (.consumed (accountKey P key) :: F) (.returned ()))
    (hstop : ∀ F' o, o.isReturned = false → Q F' o) :
    Guards P call Q
      (limitAuthentication P S "account" key S.loginAccountRequests S.loginWindow) F := by
  unfold limitAuthentication
  split
  · rename_i h
    simp [henabled] at h
  · split
    · exact hstop _ _ rfl
    · dsimp only
      split
      · exact hstop _ _ rfl
      · exact hstop _ _ rfl
      · rename_i req hlimit
        have hkey : req.key = accountKey P key := by
          rw [Tools.RateLimiter.limit_key hlimit, Tools.newRateLimiter_scope (by decide), accountKey]
        apply Spec.seq
        apply Spec.mapErr
        refine ⟨hallowed req, fun o => ?_⟩
        cases o with
        | failed e => exact hstop _ _ rfl
        | panicked v => exact hstop _ _ rfl
        | returned ok =>
            cases ok with
            | false => exact hstop _ _ rfl
            | true =>
                change Q (.consumed req.key :: F) (.returned ())
                rw [hkey]
                exact hpass

/-- A lookup leaves the row, and what else it loads is of no account. -/
theorem getUser_guards {conn : Conn} {f : UserFilter} {Q : List Guard → Outcome User → Prop}
    (hallowed : guarded P call F (.sql conn (.selectUser f)))
    (hfound : ∀ u roles, Q (.found f u :: F) (.returned { u with roles := roles }))
    (hlost : ∀ u o, o.isReturned = false → Q (.found f u :: F) o)
    (hstop : ∀ o, o.isReturned = false → Q F o) : Guards P call Q (Repository.getUser conn f) F := by
  apply Spec.seq
  apply Spec.mapErr
  refine ⟨hallowed, fun o => ?_⟩
  cases o with
  | failed e => exact hstop _ rfl
  | panicked v => exact hstop _ rfl
  | returned u =>
      have hroles : Guards P call (fun F' _ => F' = .found f u :: F)
          (sql conn (.selectRoles u.id)) (.found f u :: F) :=
        Guards.plain (Issues.call trivial) fun _ => rfl
      apply Spec.seq
      apply Spec.mapErr
      refine hroles.mono fun F' o hF => ?_
      subst hF
      cases o with
      | failed e => exact hlost u _ rfl
      | panicked v => exact hlost u _ rfl
      | returned roles =>
          dsimp only [Outcome.mapErr_returned]
          split
          case isTrue => exact hfound u []
          case isFalse =>
            have hpermissions : Guards P call (fun F' _ => F' = .found f u :: F)
                (Repository.loadRolePermissions conn (roles.map Role.id)) (.found f u :: F) :=
              Guards.plain (Issues.call trivial) fun _ => rfl
            apply Spec.seq
            apply Spec.mapErr
            refine hpermissions.mono fun F' o hF => ?_
            subst hF
            cases o with
            | failed e => exact hlost u _ rfl
            | panicked v => exact hlost u _ rfl
            | returned permissions => exact hfound u _

theorem withTransaction_guards {fn : AuthProg α} (h : Guards P call (fun _ _ => True) fn F) :
    Guards P call (fun _ _ => True) (db.withTransaction fn) F := by
  apply Spec.bind
  apply Spec.mapErr
  apply Spec.mapErr
  refine ⟨guarded_of_free trivial, fun o => ?_⟩
  cases o with
  | failed e => trivial
  | panicked v => trivial
  | returned u =>
      apply Spec.handle
      apply Spec.handle
      refine h.mono fun F' o _ => ?_
      have hconclude : Guards P call (fun _ _ => True) (db.conclude o) F' :=
        Guards.plain conclude_plain fun _ => trivial
      exact hconclude.mono fun F' o _ => Guards.plain recovering_plain fun _ => trivial

theorem login_guards {email password : GoString} (henabled : S.rateLimiterEnabled = true) :
    Guards P (.login email password) (fun _ _ => True) (login P S email password) [] := by
  unfold login
  split
  case h_1 => trivial
  case h_2 e he =>
    split
    case isTrue => trivial
    case isFalse =>
      -- The decoy ends the call.
      have hdummy {F : List Guard} (hF : LoginGuess P e F dummyHash) :
          Guards P (.login email password) (fun _ _ => True)
            (do compareDummyPassword password; Prog.fail errInvalidCredentials : AuthProg Tokens) F := by
        apply Spec.bind
        apply Spec.bind
        refine ⟨⟨e, he, hF⟩, fun o => ?_⟩
        cases o <;> trivial
      have hlimit (req : Tools.RateLimitRequest) :
          guarded P (.login email password) [] (.allowRateLimit req) := trivial
      have hlookup : guarded P (.login email password) [.consumed (accountKey P e)]
          (.sql .primary (.selectUser (.byEmail e))) := ⟨rfl, e, he, rfl⟩
      apply Spec.bind
      apply limitAuthentication_guards henabled hlimit
      case hstop =>
        intro F' o ho
        cases o with
        | returned u => cases ho
        | failed err => trivial
        | panicked v => trivial
      case hpass =>
        apply Spec.bind
        apply Spec.attempt
        apply getUser_guards hlookup
        case hstop =>
          intro o ho
          cases o with
          | returned u => cases ho
          | panicked v => trivial
          | failed err =>
              dsimp only [Prog.leave_returned]
              split
              case isTrue => trivial
              case isFalse => exact hdummy .notFound
        case hlost =>
          intro u o ho
          cases o with
          | returned u => cases ho
          | panicked v => trivial
          | failed err =>
              dsimp only [Prog.leave_returned]
              split
              case isTrue => trivial
              case isFalse => exact hdummy (.found u _ (.inl rfl))
        case hfound =>
          intro u roles
          dsimp only [Prog.leave_returned]
          split
          case isTrue => exact hdummy (.found u _ (.inl rfl))
          case isFalse =>
            apply Spec.bind
            refine ⟨⟨e, he, .found u _ (.inr rfl)⟩, fun o => ?_⟩
            cases o with
            | failed err => trivial
            | panicked v => trivial
            | returned ok =>
                cases ok with
                | false => trivial
                | true =>
                  apply Spec.bind
                  apply Spec.mapErr
                  apply Guards.plain createSession_plain
                  intro o
                  cases o with
                  | failed err => trivial
                  | panicked v => trivial
                  | returned tokens =>
                      apply Guards.plain _ fun _ => trivial
                      apply Issues.bind (Issues.attempt sendEvent_plain)
                      exact fun _ => trivial

theorem checkCurrentPassword_guards {uuid : String} {data : UpdateSelfData} {u : User} {roles : List Role}
    {password : GoString} (henabled : S.rateLimiterEnabled = true) :
    Guards P (.updateSelf uuid data) (fun _ _ => True)
      (checkCurrentPassword P S { u with roles := roles } (some password)) [.found (.byUUID uuid) u] := by
  have hlimit (req : Tools.RateLimitRequest) :
      guarded P (.updateSelf uuid data) [.found (.byUUID uuid) u] (.allowRateLimit req) := trivial
  apply Spec.bind
  apply limitAuthentication_guards henabled hlimit
  case hstop =>
    intro F' o ho
    cases o with
    | returned u => cases ho
    | failed err => trivial
    | panicked v => trivial
  case hpass =>
    dsimp only [Prog.leave_returned]
    split
    case isTrue => trivial
    case isFalse =>
      apply Spec.bind
      refine ⟨.found uuid u, fun o => ?_⟩
      cases o with
      | failed err => trivial
      | panicked v => trivial
      | returned ok => cases ok <;> trivial

theorem updateSelf_guards {uuid : String} {data : UpdateSelfData} (henabled : S.rateLimiterEnabled = true) :
    Guards P (.updateSelf uuid data) (fun _ _ => True) (updateSelf P S uuid data) [] := by
  unfold updateSelf changeUser
  split
  case isTrue => trivial
  case isFalse =>
    split
    case h_1 => trivial
    case h_2 email _ =>
      split
      case isTrue => trivial
      case isFalse =>
        have hlookup : guarded P (.updateSelf uuid data) [] (.sql .transaction (.selectUser (.byUUID uuid))) :=
          ⟨uuid, rfl⟩
        apply withTransaction_guards
        apply Spec.bind
        apply Spec.mapErr
        apply getUser_guards hlookup
        case hstop =>
          intro o ho
          cases o with
          | returned u => cases ho
          | failed err => trivial
          | panicked v => trivial
        case hlost =>
          intro u o ho
          cases o with
          | returned u => cases ho
          | failed err => trivial
          | panicked v => trivial
        case hfound =>
          intro u roles
          apply Spec.bind
          refine (checkCurrentPassword_guards henabled).mono fun F o _ => ?_
          cases o with
          | failed err => trivial
          | panicked v => trivial
          | returned _ =>
              -- After the comparison nothing is guarded.
              apply Guards.plain _ fun _ => trivial
              apply Issues.bind setNewPassword_plain
              intro user
              split
              case isTrue => exact saveUser_plain
              case isFalse => trivial

theorem body_guards (henabled : S.rateLimiterEnabled = true) (call : Call) :
    Guards P call (fun _ _ => True) (body P S call) [] := by
  cases hguesses : call.guesses with
  | false => exact Guards.unguarded (guarded_of_not_guesses hguesses)
  | true =>
      cases call with
      | login email password => exact Spec.map (login_guards henabled)
      | updateSelf uuid data => exact Spec.map (updateSelf_guards henabled)
      | _ => cases hguesses

theorem limiter_sound (henabled : S.rateLimiterEnabled = true) :
    (system P S).Sound watch (guarded P) (fun _ _ _ => True) (fun _ _ => True) where
  body := body_guards henabled
  step := fun _ _ _ => trivial
  env := fun _ _ => trivial
  crash := fun _ => trivial

end Calls

/-! ## Every run -/

/-- A comparison with `hash` by a thread that knows `F`: it is the first of its call, it is with
the decoy or with the hash of an account that was found, and the bucket of an account that was
found is the one of its stored address. -/
structure Limited (P : Platform) (F : List Guard) (hash : String) : Prop where
  first : .compared ∉ F
  account : hash = dummyHash ∨ ∃ f u, .found f u ∈ F ∧ hash = u.passwordHash
  bucket : ∀ f u, .found f u ∈ F → .consumed (accountKey P (normalizeEmail u.email)) ∈ F

theorem LoginGuess.limited {e : String} {F : List Guard} {hash : String} (h : LoginGuess P e F hash)
    (hstored : ∀ u, .found (.byEmail e) u ∈ F → normalizeEmail u.email = e) : Limited P F hash := by
  cases h with
  | notFound =>
      refine ⟨?_, .inl rfl, fun f u hmem => ?_⟩
      · exact fun hmem => (nomatch List.mem_singleton.mp hmem)
      · exact nomatch List.mem_singleton.mp hmem
  | found u _ hhash =>
      refine ⟨?_, hhash.imp_right fun h => ⟨_, u, List.mem_cons_self, h⟩, fun f u' hmem => ?_⟩
      · exact fun hmem => by simp at hmem
      · have hbucket := hstored u List.mem_cons_self
        obtain ⟨rfl, rfl⟩ : f = .byEmail e ∧ u' = u := by simpa using hmem
        rw [hbucket]
        exact List.mem_cons_of_mem _ List.mem_cons_self

theorem UpdateGuess.limited {F : List Guard} {hash : String} (h : UpdateGuess P F hash) :
    Limited P F hash := by
  cases h with
  | found uuid u =>
      refine ⟨fun hmem => by simp at hmem, .inr ⟨_, u, List.mem_cons_of_mem _ List.mem_cons_self, rfl⟩, ?_⟩
      intro f u' hmem
      obtain ⟨rfl, rfl⟩ : f = .byUUID uuid ∧ u' = u := by simpa using hmem
      exact List.mem_cons_self

/-- Every guess of a run has consumed from the one bucket of the account. -/
def GuessesLimited (s : (system P S).State) : Prop :=
  ∀ r (log : AuthLog), r :: log <:+ s.log → ∀ hash password, r.cmd = .compareHashAndPassword hash password →
    ∀ call p, s.pool[r.thread]? = some ⟨call, p⟩ → call.guesses = true →
      Limited P (log.facts watch r.thread) hash

/-- Whenever a login is about to look up an address, the accounts that the column compares equal to
it have that address, normalized. -/
def LookupsExact (P : Platform) (S : Service) (w : World) (as : List (Action Choice Call Env)) : Prop :=
  ∀ pre T ch post s, as = pre ++ .step T ch :: post → (system P S).run ((system P S).init w) pre = some s →
    ∀ email password conn e k,
      s.pool[T]? = some ⟨.login email password, some (.op (.sql conn (.selectUser (.byEmail e))) k)⟩ →
        ∀ u ∈ s.world.db.committed.users, u.deletedAt = none → P.emailEq u.email e = true →
          normalizeEmail u.email = e

/-- A lookup outside transactions answers with a committed row. -/
theorem exec_selectUser {log : AuthLog} {T : ℕ} {f : UserFilter} {u : User} {ch : Choice} {w w' : World}
    {e : List Write} (h : exec P log T (.sql .primary (.selectUser f)) ch w = some (.returned u, e, w')) :
    u ∈ w.db.committed.users ∧ u.deletedAt = none ∧ f.matches P.emailEq u = true := by
  generalize ho : Outcome.returned u = o at h
  cases exec_moves h with
  | quiet _ hfails =>
      have hfails := hfails rfl
      rw [← ho] at hfails
      cases hfails
  | primary hrun =>
      obtain ⟨a, hfind, rfl⟩ := first_eq_ok hrun
      cases ho
      have hcond := List.find?_some hfind
      rw [Bool.and_eq_true, Option.isNone_iff_eq_none] at hcond
      exact ⟨List.mem_of_find?_eq_some hfind, hcond⟩

theorem found_of_watch {c : Cmd} {o : Outcome (Res c)} {f : UserFilter} {u : User}
    (h : watch c o = some (.found f u)) : ∃ conn, c = .sql conn (.selectUser f) := by
  unfold watch at h
  split at h
  case h_1 => cases h; exact ⟨_, rfl⟩
  case h_2 => cases h
  case h_3 => cases h
  case h_4 => cases h

section Runs

variable {w : World} {as : List (Action Choice Call Env)} {s : (system P S).State}

/-- What every run keeps to. -/
theorem guarded_run (henabled : S.rateLimiterEnabled = true)
    (hrun : (system P S).run ((system P S).init w) as = some s) :
    System.Good (system P S) watch (guarded P) (fun _ _ _ => True) (fun _ _ => True) s := by
  have hinit : System.Good (system P S) watch (guarded P) (fun _ _ _ => True) (fun _ _ => True)
      ((system P S).init w) := .init trivial
  exact hinit.run (limiter_sound henabled) hrun

/-- Where the column compares addresses exactly, as in PostgreSQL and SQLite, every lookup is
exact. -/
theorem lookupsExact_of_exact (hemailEq : ∀ a b, P.emailEq a b = true → a = b)
    (henabled : S.rateLimiterEnabled = true) : LookupsExact P S w as := by
  intro pre T ch post s _ hrun email password conn e k hT u _ _ heq
  have hstored : u.email = e := hemailEq _ _ heq
  have hguarded := ((guarded_run henabled hrun).live hT).1
  obtain ⟨-, e', hnormalized, hf⟩ := hguarded
  cases hf
  rw [hstored]
  unfold normalizeAndValidateEmail at hnormalized
  split at hnormalized
  case h_1 => cases hnormalized
  case h_2 submitted =>
    split at hnormalized
    case h_1 => cases hnormalized
    case h_2 =>
      have he : normalizeEmail submitted = e := Except.ok.inj hnormalized
      rw [← he]
      exact toLowerString_trimSpace_idem submitted

/-- A login that found a row was about to look it up. -/
theorem lookup_exact (henabled : S.rateLimiterEnabled = true)
    (hrun : (system P S).run ((system P S).init w) as = some s) (hexact : LookupsExact P S w as)
    {log : AuthLog} (hlog : log <:+ s.log) {T : ℕ} {email password : GoString} {p : Option (AuthProg Answer)}
    (hT : s.pool[T]? = some ⟨.login email password, p⟩) {e : String} {u : User}
    (hfound : .found (.byEmail e) u ∈ log.facts watch T) : normalizeEmail u.email = e := by
  have hgood := guarded_run henabled hrun
  obtain ⟨⟨_, cmd, answer, effect⟩, hr, rfl, hsee⟩ := Log.mem_facts.mp hfound
  obtain ⟨newer, older, hsplit⟩ := List.append_of_mem (hlog.subset hr)
  have hsuf : ⟨_, cmd, answer, effect⟩ :: older <:+ s.log := ⟨newer, hsplit.symm⟩
  obtain ⟨conn, rfl⟩ := found_of_watch hsee
  obtain ⟨rfl, -⟩ := hgood.obeyed hsuf hT
  obtain ⟨as₁, as₂, s₁, s₂, ch, h₁, rfl, hexec, hlog₂, hnext, hrest, has⟩ :=
    System.run_record hrun hsuf (by simp [System.init])
  obtain ⟨call, c, k, o, effect', w', hT₁, -, rfl⟩ := System.stepThread_eq_some.mp hnext
  have hT₂ := List.getElem?_set_self (a := ⟨call, some (k o)⟩) (List.getElem?_eq_some_iff.mp hT₁).1
  obtain ⟨p', hT'⟩ := System.run_call hrest hT₂
  cases hT.symm.trans hT'
  cases hlog₂
  cases answer with
  | failed err => cases hsee
  | panicked v => cases hsee
  | returned u' =>
      cases hsee
      obtain ⟨hmem, hdeleted, hmatches⟩ := exec_selectUser hexec
      exact hexact as₁ _ ch as₂ s₁ has h₁ email password .primary e k hT₁ u hmem hdeleted hmatches

/-- Where the lookups are exact, every guess has consumed from the one bucket of the account. -/
theorem guesses_limited (henabled : S.rateLimiterEnabled = true)
    (hrun : (system P S).run ((system P S).init w) as = some s) (hexact : LookupsExact P S w as) :
    GuessesLimited s := by
  intro r log hsuf hash password hcmd call p hT hguesses
  have hgood := guarded_run henabled hrun
  have hallowed := hgood.obeyed hsuf hT
  have hlog : log <:+ s.log := (List.suffix_cons r log).trans hsuf
  rw [hcmd] at hallowed
  cases call with
  | login email password' =>
      obtain ⟨e, -, hguess⟩ := hallowed
      have hstored (u : User) (hu : .found (.byEmail e) u ∈ log.facts watch r.thread) :
          normalizeEmail u.email = e := lookup_exact henabled hrun hexact hlog hT hu
      exact hguess.limited hstored
  | updateSelf uuid data => exact UpdateGuess.limited hallowed
  | _ => cases hguesses

end Runs

/-! ## Two spellings of one account -/

def limitedService : Service := { smallService with rateLimiterEnabled := true }

/-- A step that the limiter lets pass, and the steps up to the comparison of a login. -/
def guessSteps (T : ℕ) : List (Action Choice Call Env) := .step T (.allow true) :: steps T 3

def annUpdateSelf : Call :=
  .updateSelf ann.uuid ⟨⟨some (.utf8 "bob@go42.dev"), none⟩, .utf8 "correct horse"⟩

/-- A login, and then an update of oneself. -/
def guessRun : List (Action Choice Call Env) :=
  .spawn annLogin :: guessSteps 0 ++ .spawn annUpdateSelf :: steps 1 3 ++ .step 1 (.allow true) :: steps 1 1

theorem guesses_limited_twice :
    ∃ s : (system smallPlatform limitedService).State,
      (system smallPlatform limitedService).run ((system smallPlatform limitedService).init smallWorld)
        guessRun = some s ∧
      (s.log.filterMap fun r => watch r.cmd r.answer).count .compared = 2 ∧ GuessesLimited s := by
  have hemailEq (a b : String) (h : smallPlatform.emailEq a b = true) : a = b := of_decide_eq_true h
  obtain ⟨s, hrun, hcount⟩ := System.exists_of_any
    (x := (system smallPlatform limitedService).run
      ((system smallPlatform limitedService).init smallWorld) guessRun)
    (p := fun s => (s.log.filterMap fun r => watch r.cmd r.answer).count .compared = 2)
    (by decide +kernel)
  exact ⟨s, hrun, hcount, guesses_limited rfl hrun (lookupsExact_of_exact hemailEq rfl)⟩

/-- The latest step compares a password of an account whose bucket gave no token. -/
def unlimited (s : (system P S).State) : Bool :=
  match s.log with
  | [] => false
  | r :: log =>
    match r.cmd, s.pool[r.thread]? with
    | .compareHashAndPassword _ _, some t =>
      let F := Log.facts watch log r.thread
      t.call.guesses && F.any fun
        | .found _ u => !decide (.consumed (accountKey P (normalizeEmail u.email)) ∈ F)
        | _ => false
    | _, _ => false

theorem not_guessesLimited {s : (system P S).State} (h : unlimited s = true) : ¬ GuessesLimited s := by
  intro hlimited
  unfold unlimited at h
  split at h
  case h_1 => cases h
  case h_2 r log hlog =>
    split at h
    case h_2 => cases h
    case h_1 hash password t hcmd hT =>
      rw [Bool.and_eq_true] at h
      have hguess := hlimited r log (hlog ▸ List.suffix_refl _) hash password hcmd _ _ hT h.1
      obtain ⟨g, hg, hmissing⟩ := List.any_eq_true.mp h.2
      cases g with
      | found f u =>
          have hbucket := hguess.bucket f u hg
          simp [hbucket] at hmissing
      | consumed key => cases hmissing
      | compared => cases hmissing

def unaccented : Char → Char
  | 'é' => 'e'
  | c => c

/-- A column that ignores the accent of `é`, as the collation of the MySQL schema does. -/
def accentPlatform : Platform :=
  { smallPlatform with emailEq := fun a b => a.toList.map unaccented = b.toList.map unaccented }

def jose : User := { ann with email := "jose@go42.dev" }

def joseWorld : World := { smallWorld with db := ⟨⟨[jose], [⟨1, "user", none, []⟩], [], [], [], []⟩, ∅⟩ }

def accentLogin : Call := .login (.utf8 "josé@go42.dev") (.utf8 "long guess")

/-- A guess at `jose@go42.dev` consumes from the bucket of `josé@go42.dev`. -/
theorem guesses_unlimited :
    ∃ s : (system accentPlatform limitedService).State,
      (system accentPlatform limitedService).run ((system accentPlatform limitedService).init joseWorld)
        (.spawn accentLogin :: guessSteps 0) = some s ∧ ¬ GuessesLimited s := by
  obtain ⟨s, hrun, hmissed⟩ := System.exists_of_any
    (x := (system accentPlatform limitedService).run
      ((system accentPlatform limitedService).init joseWorld) (.spawn accentLogin :: guessSteps 0))
    (p := fun s => unlimited s = true) (by decide +kernel)
  exact ⟨s, hrun, not_guessesLimited hmissed⟩

end Go42.Auth
