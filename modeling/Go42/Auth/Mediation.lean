-- SUMMARY: Complete mediation of the HTTP adapter: which calls a request may make of the service, and why each response is the one it gets.
import Go42.Auth.HttpAdapter

/-!
# Mediation of HTTP requests

Whatever the service answers, an operation on users is called for an account that was
identified by this very request and holds the permission of the route, with what the
request carries. Every response is explained by the newest call.
-/

namespace Go42.Auth.Http

open Prog (fail)

variable [UUIDLib]

/-- A call that was answered. -/
abbrev Event := (c : ServiceCall) × Outcome c.Res

/-- A request sees every answer. -/
def observe : Observer ServiceCall ServiceCall.Res Event := fun c o => some ⟨c, o⟩

/-! ## Identities -/

/-- The calls `F` of the request identified an active account, with the permissions of its
roles or of its API token. A bearer token takes precedence over an API token. -/
inductive Identified (req : Request) (F : List Event) :
    UserModel → AuthenticationType → List String → Prop where
  | credentials {token : JWT} {claims : JWTClaims} {user : UserModel} :
      extractBearerToken req.authorization = .ok token →
      ⟨.validateJWTToken token .access, .returned claims⟩ ∈ F →
      UUIDLib.validate claims.subject = true →
      ⟨.getUserByUUID claims.subject, .returned user⟩ ∈ F → user.isActive = true →
      Identified req F user .credentials user.permissionList
  | apiToken {apiToken : Token} {user : UserModel} : req.authorization = [] → req.apiKey ≠ [] →
      ⟨.validateAPIToken req.apiKey, .returned apiToken⟩ ∈ F →
      ⟨.getUserByID apiToken.userID, .returned user⟩ ∈ F → user.isActive = true →
      Identified req F user .apiToken apiToken.permissionList

def Unidentified (req : Request) (F : List Event) : Prop :=
  ∀ user type permissions, ¬ Identified req F user type permissions

/-- The permission of a route, for those that need one. -/
def Route.permission : Route → Option String
  | .signup | .login | .refresh | .logout => none
  | .readSelf => some rbacPermissionUsersReadSelf
  | .updateSelf => some rbacPermissionUsersUpdateSelf
  | .listUsers => some rbacPermissionUsersList
  | .userByUUID => some rbacPermissionUsersReadOthers
  | .createUser => some rbacPermissionUsersCreate
  | .updateUser => some rbacPermissionUsersUpdate
  | .deleteUser => some rbacPermissionUsersDelete

/-- `user` was identified with the permission of the route. -/
def Granted (route : Route) (req : Request) (F : List Event) (user : UserModel) : Prop :=
  ∃ permission type permissions, route.permission = some permission ∧
    Identified req F user type permissions ∧ permission ∈ permissions

def Mediated (route : Route) (req : Request) (F : List Event) : Prop :=
  route.permission = none ∨ ∃ user, Granted route req F user

/-! ## Calls -/

/-- The limiter of authentication attempts that a route asks first. -/
def Route.limiter : Route → Option AuthenticationAction
  | .signup => some .signup
  | .login | .updateSelf => some .login
  | _ => none

/-- The address of the client has attempts left. -/
def WithinLimit (action : AuthenticationAction) (req : Request) (F : List Event) : Prop :=
  ⟨.checkIPLimit action req.realIP, .returned ()⟩ ∈ F

/-- The body has both credentials. -/
def Carries (req : Request) (email password : GoString) : Prop :=
  email ≠ .utf8 "" ∧ password ≠ .utf8 "" ∧
    ∃ fields, req.body = some fields ∧ fields.email = some email ∧ fields.password = some password

/-- What the operation of a route needs, and what it is called with. -/
def Operation (route : Route) (req : Request) (F : List Event) : ServiceCall → Prop
  | .signUp email password =>
    route = .signup ∧ WithinLimit .signup req F ∧ Carries req email password
  | .login email password =>
    route = .login ∧ WithinLimit .login req F ∧ Carries req email password
  | .refresh token =>
    route = .refresh ∧ token ≠ [] ∧ ∃ fields, req.body = some fields ∧ fields.token = some token
  | .logout token =>
    route = .logout ∧ token ≠ [] ∧
      ∃ fields, req.body = some fields ∧ fields.refreshToken = some token
  | .getUserByID id => route = .readSelf ∧ ∃ user, Granted route req F user ∧ id = user.id
  | .updateSelf uuid data =>
    route = .updateSelf ∧ WithinLimit .login req F ∧
      (∃ user, Granted route req F user ∧ uuid = user.uuid) ∧
      (∃ fields, req.body = some fields ∧ fields.email = data.email ∧
        fields.password = data.password ∧ fieldValue fields.currentPassword = data.currentPassword) ∧
      (data.email ≠ none ∨ data.password ≠ none → data.currentPassword ≠ .utf8 "")
  | .listUsers limit offset =>
    route = .listUsers ∧ (∃ user, Granted route req F user) ∧
      (Tools.Pagination.mk limit offset).Bounded ∧
      ∃ queryLimit queryOffset, queryInt req.limit = some queryLimit ∧
        queryInt req.offset = some queryOffset ∧
        Tools.normalizePagination queryLimit queryOffset = .ok ⟨limit, offset⟩
  | .getUserByUUID uuid =>
    route = .userByUUID ∧ (∃ user, Granted route req F user) ∧ uuid = req.uuid ∧
      UUIDLib.validate uuid = true
  | .createUser data =>
    route = .createUser ∧ (∃ user, Granted route req F user) ∧ Carries req data.email data.password
  | .updateUser uuid data =>
    route = .updateUser ∧ (∃ user, Granted route req F user) ∧ uuid = req.uuid ∧
      UUIDLib.validate uuid = true ∧
      ∃ fields, req.body = some fields ∧ fields.email = data.email ∧ fields.password = data.password
  | .deleteUser uuid =>
    route = .deleteUser ∧ (∃ user, Granted route req F user) ∧ uuid = req.uuid ∧
      UUIDLib.validate uuid = true
  | .checkIPLimit _ _ | .validateJWTToken _ _ | .validateAPIToken _ => False

/-- The calls an authentication makes: what is validated was presented, and the account that
is looked up is the one a valid token names. -/
def Authenticates (req : Request) (F : List Event) : ServiceCall → Prop
  | .validateJWTToken token purpose =>
    purpose = .access ∧ extractBearerToken req.authorization = .ok token
  | .validateAPIToken token => req.authorization = [] ∧ token = req.apiKey ∧ token ≠ []
  | .getUserByUUID uuid => ∃ token claims, extractBearerToken req.authorization = .ok token ∧
      ⟨.validateJWTToken token .access, .returned claims⟩ ∈ F ∧ uuid = claims.subject ∧
      UUIDLib.validate uuid = true
  | .getUserByID id => ∃ apiToken : Token, req.authorization = [] ∧
      ⟨.validateAPIToken req.apiKey, .returned apiToken⟩ ∈ F ∧ id = apiToken.userID
  | _ => False

/-- The limiter is asked once access was granted. -/
def Limits (route : Route) (req : Request) (F : List Event) (c : ServiceCall) : Prop :=
  ∃ action, route.limiter = some action ∧ c = .checkIPLimit action req.realIP ∧
    Mediated route req F

def Entitled (route : Route) (req : Request) (F : List Event) (c : ServiceCall) : Prop :=
  (route.permission ≠ none ∧ Authenticates req F c) ∨ Limits route req F c ∨
    Operation route req F c

/-! ## Responses -/

def problem (req : Request) (status : ℕ) : Response := sendJSONError ⟨req, none⟩ status

/-- What a client gets for an operation that succeeded. -/
def success : (c : ServiceCall) → c.Res → Response
  | .signUp _ _, user | .createUser _, user =>
    ⟨statusCreated, .user (userResponseFromModel user)⟩
  | .login _ _, tokens | .refresh _, tokens => ⟨statusOK, .tokens tokens⟩
  | .getUserByID _, user | .getUserByUUID _, user => ⟨statusOK, .user (userResponseFromModel user)⟩
  | .listUsers _ _, users => ⟨statusOK, .users (users.map userResponseFromModel)⟩
  | _, _ => ⟨statusOK, .none⟩

/-- How an authentication call that failed is answered: 503 blames the service, 401 the
client. -/
def authStatus (err : GoError) : ServiceCall → ℕ
  | .getUserByUUID _ =>
    if err.is errEntityNotFound then statusUnauthorized else statusServiceUnavailable
  | .getUserByID _ =>
    if err.is errEntityNotFound && !err.is errAuthenticationUnavailable then statusUnauthorized
    else statusServiceUnavailable
  | _ =>
    if err.is errAuthenticationUnavailable then statusServiceUnavailable else statusUnauthorized

/-- What is wrong with the parameters or the body of a request. -/
def Malformed (req : Request) : Route → Prop
  | .signup => req.body.all fun fields => credentialRules "SignupRequest" fields ≠ []
  | .login => req.body.all fun fields => credentialRules "LoginRequest" fields ≠ []
  | .createUser => req.body.all fun fields => credentialRules "CreateUserRequest" fields ≠ []
  | .refresh => req.body.all fun fields => refreshTokenRules fields ≠ []
  | .logout => req.body.all fun fields => logoutTokenRules fields ≠ []
  | .updateSelf => req.body.all fun fields => updateSelfRules fields ≠ []
  | .updateUser => UUIDLib.validate req.uuid = false ∨ req.body = none
  | .userByUUID | .deleteUser => UUIDLib.validate req.uuid = false
  | .listUsers => ∀ limit offset, queryInt req.limit = some limit → queryInt req.offset = some offset →
      Tools.normalizePagination limit offset = .error Tools.errInvalidPagination
  | .readSelf => False

/-- Every call so far returned. -/
def Settled (F : List Event) : Prop := ∀ e ∈ F, e.2.isReturned = true

/-- Why a request gets a response, by its newest call. -/
inductive Explains (route : Route) (req : Request) : List Event → Response → Prop where
  | performed {c : ServiceCall} {a : c.Res} {F : List Event} : Operation route req F c →
      Explains route req (⟨c, .returned a⟩ :: F) (success c a)
  | refused {c : ServiceCall} {err : GoError} {F : List Event} :
      Limits route req F c ∨ Operation route req F c →
      Explains route req (⟨c, .failed err⟩ :: F)
        (errorHandler req (.returned (processError ⟨req, none⟩ err)))
  | unauthenticated {c : ServiceCall} {err : GoError} {F : List Event} :
      Authenticates req F c → Unidentified req F →
      Explains route req (⟨c, .failed err⟩ :: F) (problem req (authStatus err c))
  | panicked {c : ServiceCall} {v : String} {F : List Event} :
      Explains route req (⟨c, .panicked v⟩ :: F) (errorHandler req (.panicked v))
  | unidentified {F : List Event} : Settled F → route.permission ≠ none → Unidentified req F →
      Explains route req F (problem req statusUnauthorized)
  | forbidden {F : List Event} {permission : String} {user : UserModel} {type : AuthenticationType}
      {permissions : List String} : Settled F → route.permission = some permission →
      Identified req F user type permissions → permission ∉ permissions →
      Explains route req F (problem req statusForbidden)
  | malformed {F : List Event} {response : Response} : Settled F → Mediated route req F →
      Malformed req route → response.status = statusBadRequest → Explains route req F response

/-! ## Identities grow -/

section

variable {route : Route} {req : Request} {F G : List Event} {e : Event}

theorem Identified.mono (hF : F ⊆ G) {user : UserModel} {type : AuthenticationType}
    {permissions : List String} (h : Identified req F user type permissions) :
    Identified req G user type permissions := by
  cases h with
  | credentials htoken hvalidated hsubject hfound hactive =>
      exact .credentials htoken (hF hvalidated) hsubject (hF hfound) hactive
  | apiToken hnone hkey hvalidated hfound hactive =>
      exact .apiToken hnone hkey (hF hvalidated) (hF hfound) hactive

theorem Granted.mono (hF : F ⊆ G) {user : UserModel} (h : Granted route req F user) :
    Granted route req G user := by
  obtain ⟨permission, type, permissions, hroute, hidentified, hmem⟩ := h
  exact ⟨permission, type, permissions, hroute, hidentified.mono hF, hmem⟩

theorem Mediated.mono (hF : F ⊆ G) (h : Mediated route req F) : Mediated route req G := by
  rcases h with hnone | ⟨user, huser⟩
  · exact .inl hnone
  · exact .inr ⟨user, huser.mono hF⟩

omit [UUIDLib] in
theorem settled_nil : Settled [] := by simp [Settled]

omit [UUIDLib] in
theorem settled_cons : Settled (e :: F) ↔ e.2.isReturned = true ∧ Settled F := by
  simp [Settled]

/-- Nobody is identified before an account was found. -/
theorem unidentified_of_no_user
    (hF : ∀ user : UserModel, (∀ uuid, ⟨.getUserByUUID uuid, .returned user⟩ ∈ F → user.isActive = false) ∧
      ∀ id, ⟨.getUserByID id, .returned user⟩ ∈ F → user.isActive = false) :
    Unidentified req F := by
  rintro user type permissions (⟨-, -, -, hfound, hactive⟩ | ⟨-, -, -, hfound, hactive⟩)
  · exact absurd hactive (by simp [(hF user).1 _ hfound])
  · exact absurd hactive (by simp [(hF user).2 _ hfound])

end

/-! ## Handlers -/

section Handlers

variable {route : Route} {req : Request} {ctx : Context} {F : List Event}

/-- A program that keeps to the calls of a route and ends in an explained response. -/
def Mediates (route : Route) (req : Request) (p : AdapterProg (Except HandlerError Response))
    (F : List Event) : Prop :=
  p.Spec observe (Entitled route req) (fun G o => Explains route req G (errorHandler req o)) F

/-- A rejection ends a request. -/
theorem mediates_rejectWith {status : ℕ} (hctx : ctx.request = req)
    (h : Explains route req F (problem req status)) :
    Mediates route req (rejectWith ctx status) F := by
  show Explains route req F (sendJSONError ctx status)
  rw [problem, sendJSONError] at h
  rwa [sendJSONError, hctx]

/-- A call, then what follows it when it returns. -/
theorem mediates_orProcessError {c : ServiceCall}
    {f : c.Res → AdapterProg (Except HandlerError Response)} (hctx : ctx.request = req)
    (hc : Limits route req F c ∨ Operation route req F c)
    (hf : ∀ a, Mediates route req (f a) (⟨c, .returned a⟩ :: F)) :
    Mediates route req (orProcessError ctx (call c) f) F := by
  apply Prog.Spec.seq
  apply Prog.Spec.attempt
  refine ⟨.inr hc, fun o => ?_⟩
  cases o with
  | returned a => exact hf a
  | failed err =>
      have hsame : processError ctx err = processError ⟨req, none⟩ err := by
        simp only [processError, sendJSONError, hctx]
      show Explains route req _ (errorHandler req (.returned (processError ctx err)))
      rw [hsame]
      exact .refused hc
  | panicked v => exact .panicked

/-- The operation of a route is its last call. -/
theorem mediates_operation {c : ServiceCall} (hctx : ctx.request = req)
    (hc : Operation route req F c) :
    Mediates route req (orProcessError ctx (call c) fun a => return .ok (success c a)) F :=
  mediates_orProcessError hctx (.inr hc) fun _ => .performed hc

/-- The limiter comes first, and leaves what was known. -/
theorem mediates_limited {action : AuthenticationAction}
    {f : AdapterProg (Except HandlerError Response)} (hctx : ctx.request = req)
    (hlimiter : route.limiter = some action) (hmediated : Mediated route req F)
    (hf : Mediates route req f (⟨.checkIPLimit action req.realIP, .returned ()⟩ :: F)) :
    Mediates route req (orProcessError ctx (call (.checkIPLimit action ctx.request.realIP)) fun _ => f)
      F := by
  apply mediates_orProcessError hctx
  · exact .inl ⟨action, hlimiter, by rw [hctx], hmediated⟩
  · intro a
    rw [hctx]
    exact hf

omit [UUIDLib] in
theorem bindAndValidate_cases (req : Request) (ctx : Context) (rules : Fields → List ValidationError) :
    (∃ err, bindAndValidate ctx rules = .error err ∧
      (ctx.request.body.all fun fields => rules fields ≠ []) = true ∧
      (errorHandler req (.returned (.error err))).status = statusBadRequest) ∨
    ∃ fields, bindAndValidate ctx rules = .ok fields ∧ ctx.request.body = some fields ∧
      rules fields = [] := by
  unfold bindAndValidate
  cases hbody : ctx.request.body with
  | none => exact .inl ⟨_, rfl, by simp, rfl⟩
  | some fields =>
      by_cases hrules : rules fields = []
      · exact .inr ⟨fields, by simp [hrules], rfl, hrules⟩
      · exact .inl ⟨.validation (rules fields), if_neg hrules, by simp [hrules], rfl⟩

/-- A body that breaks no rule is handed on; any other ends the request. -/
theorem mediates_withBody {rules : Fields → List ValidationError}
    {f : Fields → AdapterProg (Except HandlerError Response)} (hctx : ctx.request = req)
    (hsettled : Settled F) (hmediated : Mediated route req F)
    (hmalformed : (req.body.all fun fields => rules fields ≠ []) = true → Malformed req route)
    (hf : ∀ fields, req.body = some fields → rules fields = [] → Mediates route req (f fields) F) :
    Mediates route req (withBody ctx rules f) F := by
  unfold withBody
  rcases bindAndValidate_cases req ctx rules with
    ⟨err, herr, hbad, hstatus⟩ | ⟨fields, hok, hbody, hrules⟩
  · rw [herr]
    rw [hctx] at hbad
    exact .malformed hsettled hmediated (hmalformed hbad) hstatus
  · rw [hok]
    exact hf fields (hctx ▸ hbody) hrules

theorem mediates_withUUID {f : String → AdapterProg (Except HandlerError Response)}
    (hctx : ctx.request = req) (hsettled : Settled F) (hmediated : Mediated route req F)
    (hmalformed : UUIDLib.validate req.uuid = false → Malformed req route)
    (hf : UUIDLib.validate req.uuid = true → Mediates route req (f req.uuid) F) :
    Mediates route req (withUUID ctx f) F := by
  unfold withUUID
  rw [hctx]
  split
  · rename_i hvalid
    exact hf hvalid
  · rename_i hinvalid
    apply mediates_rejectWith hctx
    exact .malformed hsettled hmediated (hmalformed (by simpa using hinvalid)) rfl

omit [UUIDLib] in
theorem required_eq_nil {struct field : String} {missing : Bool} :
    required struct field missing = [] ↔ missing = false := by
  unfold required
  cases missing <;> simp

omit [UUIDLib] in
/-- Rules that ask for both credentials. -/
theorem carries_of_credentialRules {struct : String} {fields : Fields} (hbody : req.body = some fields)
    (h : credentialRules struct fields = []) :
    Carries req (fieldValue fields.email) (fieldValue fields.password) := by
  simp only [credentialRules, isMissing, List.append_eq_nil_iff, required_eq_nil] at h
  obtain ⟨hemail, hpassword⟩ := h
  cases he : fields.email with
  | none => simp [he] at hemail
  | some email =>
      cases hp : fields.password with
      | none => simp [hp] at hpassword
      | some password =>
          refine ⟨?_, ?_, fields, hbody, by rw [he]; rfl, by rw [hp]; rfl⟩
          · simpa [he, fieldValue] using hemail
          · simpa [hp, fieldValue] using hpassword

/-! ### The handlers without authentication -/

theorem signup_mediates (hctx : ctx.request = req) : Mediates .signup req (signup ctx) [] := by
  apply mediates_limited hctx rfl (.inl rfl)
  apply mediates_withBody hctx (by simp [Settled]) (.inl rfl)
  · exact fun h => h
  · intro fields hbody hrules
    exact mediates_operation hctx
      ⟨rfl, List.mem_cons_self, carries_of_credentialRules hbody hrules⟩

theorem login_mediates (hctx : ctx.request = req) : Mediates .login req (login ctx) [] := by
  apply mediates_limited hctx rfl (.inl rfl)
  apply mediates_withBody hctx (by simp [Settled]) (.inl rfl)
  · exact fun h => h
  · intro fields hbody hrules
    exact mediates_operation hctx
      ⟨rfl, List.mem_cons_self, carries_of_credentialRules hbody hrules⟩

theorem refresh_mediates (hctx : ctx.request = req) : Mediates .refresh req (refresh ctx) [] := by
  apply mediates_withBody hctx settled_nil (.inl rfl)
  · exact fun h => h
  · intro fields hbody hrules
    apply mediates_operation hctx
    rw [refreshTokenRules, required_eq_nil] at hrules
    cases htoken : fields.token with
    | none => simp [htoken] at hrules
    | some token => exact ⟨rfl, by simpa [htoken] using hrules, fields, hbody, htoken⟩

theorem logout_mediates (hctx : ctx.request = req) : Mediates .logout req (logout ctx) [] := by
  apply mediates_withBody hctx settled_nil (.inl rfl)
  · exact fun h => h
  · intro fields hbody hrules
    apply mediates_operation hctx
    rw [logoutTokenRules, required_eq_nil] at hrules
    cases htoken : fields.refreshToken with
    | none => simp [htoken] at hrules
    | some token => exact ⟨rfl, by simpa [htoken] using hrules, fields, hbody, htoken⟩

/-! ### The handlers behind the middleware -/

variable {user : UserModel} {type : AuthenticationType} {permissions : List String}

theorem readSelf_mediates (hctx : ctx.request = req)
    (hinfo : ctx.authInfo = some (authInfoOf user type permissions))
    (hgranted : Granted .readSelf req F user) : Mediates .readSelf req (readSelf ctx) F := by
  unfold readSelf
  rw [hinfo]
  exact mediates_operation hctx ⟨rfl, user, hgranted, rfl⟩

theorem updateSelf_mediates (hctx : ctx.request = req)
    (hinfo : ctx.authInfo = some (authInfoOf user type permissions)) (hsettled : Settled F)
    (hgranted : Granted .updateSelf req F user) : Mediates .updateSelf req (updateSelf ctx) F := by
  apply mediates_limited hctx rfl (.inr ⟨user, hgranted⟩)
  rw [hinfo]
  have hlater : Granted .updateSelf req
      (⟨.checkIPLimit .login req.realIP, .returned ()⟩ :: F) user :=
    hgranted.mono (List.subset_cons_self _ _)
  apply mediates_withBody hctx (settled_cons.mpr ⟨rfl, hsettled⟩) (.inr ⟨user, hlater⟩) fun h => h
  intro fields hbody hrules
  apply mediates_operation hctx
  refine ⟨rfl, List.mem_cons_self, ⟨user, hlater, rfl⟩, ⟨fields, hbody, rfl, rfl, rfl⟩, fun hasks => ?_⟩
  have hgiven : (fields.email.isSome || fields.password.isSome) = true := by
    rcases hasks with h | h <;> simp [Option.isSome_iff_ne_none.mpr h]
  rw [updateSelfRules, required_eq_nil, hgiven, Bool.true_and] at hrules
  cases hcurrent : fields.currentPassword with
  | none => simp [isMissing, hcurrent] at hrules
  | some current => simpa [isMissing, fieldValue, hcurrent] using hrules

theorem listUsers_mediates (hctx : ctx.request = req) (hsettled : Settled F)
    (hgranted : Granted .listUsers req F user) : Mediates .listUsers req (listUsers ctx) F := by
  have hbad {ctx : Context} : (errorHandler req (.returned
      (processError ctx Tools.errInvalidPagination))).status = statusBadRequest := rfl
  unfold listUsers
  rw [hctx]
  split
  · rename_i limit offset hlimit hoffset
    rcases Tools.normalizePagination_cases limit offset with herr | ⟨page, hok, hbounded⟩
    · rw [herr]
      refine .malformed hsettled (.inr ⟨user, hgranted⟩) ?_ hbad
      intro limit' offset' hlimit' hoffset'
      rw [hlimit] at hlimit'
      rw [hoffset] at hoffset'
      cases hlimit'
      cases hoffset'
      exact herr
    · rw [hok]
      exact mediates_operation hctx ⟨rfl, ⟨user, hgranted⟩, hbounded, limit, offset, hlimit, hoffset, hok⟩
  · rename_i hnone
    refine .malformed hsettled (.inr ⟨user, hgranted⟩) ?_ hbad
    exact fun limit offset hlimit hoffset => absurd hoffset (hnone limit offset hlimit)

theorem userByUUID_mediates (hctx : ctx.request = req) (hsettled : Settled F)
    (hgranted : Granted .userByUUID req F user) : Mediates .userByUUID req (userByUUID ctx) F :=
  mediates_withUUID hctx hsettled (.inr ⟨user, hgranted⟩) (fun h => h) fun hvalid =>
    mediates_operation hctx ⟨rfl, ⟨user, hgranted⟩, rfl, hvalid⟩

theorem createUser_mediates (hctx : ctx.request = req) (hsettled : Settled F)
    (hgranted : Granted .createUser req F user) : Mediates .createUser req (createUser ctx) F :=
  mediates_withBody hctx hsettled (.inr ⟨user, hgranted⟩) (fun h => h) fun _ hbody hrules =>
    mediates_operation hctx ⟨rfl, ⟨user, hgranted⟩, carries_of_credentialRules hbody hrules⟩

theorem updateUser_mediates (hctx : ctx.request = req) (hsettled : Settled F)
    (hgranted : Granted .updateUser req F user) : Mediates .updateUser req (updateUser ctx) F := by
  apply mediates_withUUID hctx hsettled (.inr ⟨user, hgranted⟩) Or.inl
  intro hvalid
  apply mediates_withBody hctx hsettled (.inr ⟨user, hgranted⟩)
  · intro hbad
    -- There are no rules to break.
    cases hbody : req.body with
    | none => exact .inr hbody
    | some _ => simp [hbody, updateUserRules] at hbad
  · intro fields hbody _
    exact mediates_operation hctx
      ⟨rfl, ⟨user, hgranted⟩, rfl, hvalid, fields, hbody, rfl, rfl⟩

theorem deleteUser_mediates (hctx : ctx.request = req) (hsettled : Settled F)
    (hgranted : Granted .deleteUser req F user) : Mediates .deleteUser req (deleteUser ctx) F :=
  mediates_withUUID hctx hsettled (.inr ⟨user, hgranted⟩) (fun h => h) fun hvalid =>
    mediates_operation hctx ⟨rfl, ⟨user, hgranted⟩, rfl, hvalid⟩

end Handlers

/-! ## Middleware -/

section Middleware

variable {route : Route} {req : Request} {F : List Event} {next : HandlerFunc}

/-- A handler that mediates for everyone who was identified with the permission of its route. -/
def MediatesGranted (route : Route) (req : Request) (next : HandlerFunc) : Prop :=
  ∀ {user type permissions F}, Settled F → Identified req F user type permissions →
    Granted route req F user →
    Mediates route req (next ⟨req, some (authInfoOf user type permissions)⟩) F

theorem newAccessMiddleware_mediates {permission : String} (hroute : route.permission = some permission)
    (hnext : MediatesGranted route req next) {user : UserModel} {type : AuthenticationType}
    {permissions : List String} (hsettled : Settled F)
    (hidentified : Identified req F user type permissions) :
    Mediates route req
      (newAccessMiddleware [permission] next ⟨req, some (authInfoOf user type permissions)⟩) F := by
  have hholds : (authInfoOf user type permissions).hasPermission permission = true ↔
      permission ∈ permissions := ContextAuthInfo.hasPermission_setPermissions _ _ _
  simp only [newAccessMiddleware, List.all_cons, List.all_nil, Bool.and_true]
  split
  · rename_i hmem
    exact hnext hsettled hidentified
      ⟨permission, type, permissions, hroute, hidentified, hholds.mp hmem⟩
  · rename_i hmem
    exact mediates_rejectWith rfl
      (.forbidden hsettled hroute hidentified fun h => hmem (hholds.mpr h))

/-- The status of an authentication that failed. -/
def refusal (err : GoError) : ℕ :=
  if err.is errAuthenticationUnavailable then statusServiceUnavailable else statusUnauthorized

/-- An authentication ends in an identity, or in the reason why there is none. -/
def Identity (route : Route) (req : Request) (F : List Event) : Outcome Context → Prop
  | .returned ctx => Settled F ∧ ∃ user type permissions,
      Identified req F user type permissions ∧ ctx = ⟨req, some (authInfoOf user type permissions)⟩
  | .failed err => Explains route req F (problem req (refusal err))
  | .panicked v => Explains route req F (errorHandler req (.panicked v))

theorem afterAuth_mediates {auth : AdapterProg Context}
    (hauth : auth.Spec observe (Entitled route req) (Identity route req) [])
    (hnext : ∀ {user type permissions F}, Settled F → Identified req F user type permissions →
      Mediates route req (next ⟨req, some (authInfoOf user type permissions)⟩) F) :
    Mediates route req (afterAuth ⟨req, none⟩ auth next) [] := by
  apply Prog.Spec.seq
  apply Prog.Spec.attempt
  refine Prog.Spec.mono (fun G o ho => ?_) hauth
  cases o with
  | returned ctx =>
      obtain ⟨hsettled, user, type, permissions, hidentified, rfl⟩ := ho
      exact hnext hsettled hidentified
  | failed err =>
      have hexplains : Explains route req G (problem req (refusal err)) := ho
      unfold refusal at hexplains
      dsimp only
      split
      · rename_i hunavailable
        rw [if_pos hunavailable] at hexplains
        exact mediates_rejectWith rfl hexplains
      · rename_i hunavailable
        rw [if_neg hunavailable] at hexplains
        exact mediates_rejectWith rfl hexplains
  | panicked v => exact ho

/-- A call of an authentication, whose error is turned into another with the right status. -/
theorem identity_call {c : ServiceCall} {wrap : GoError → GoError} {f : c.Res → AdapterProg Context}
    (hroute : route.permission ≠ none) (hc : Authenticates req F c) (hnobody : Unidentified req F)
    (hwrap : ∀ err, refusal (wrap err) = authStatus err c)
    (hf : ∀ a, (f a).Spec observe (Entitled route req) (Identity route req) (⟨c, .returned a⟩ :: F)) :
    ((call c).mapErr wrap >>= f).Spec observe (Entitled route req) (Identity route req) F := by
  apply Prog.Spec.seq
  apply Prog.Spec.mapErr
  refine ⟨.inl ⟨hroute, hc⟩, fun o => ?_⟩
  cases o with
  | returned a => exact hf a
  | failed err =>
      show Explains route req _ (problem req (refusal (wrap err)))
      rw [hwrap]
      exact .unauthenticated hc hnobody
  | panicked v => exact .panicked

/-- What an account that was found decides. -/
theorem identity_found {user : UserModel} {type : AuthenticationType} {permissions : List String}
    {err : GoError} (hroute : route.permission ≠ none) (hsettled : Settled F)
    (herr : refusal err = statusUnauthorized)
    (hactive : user.isActive = true → Identified req F user type permissions)
    (hinactive : user.isActive = false → Unidentified req F) :
    (if !user.isActive then fail err
      else return setAuthToContext ⟨req, none⟩ (authInfoOf user type permissions) :
        AdapterProg Context).Spec observe (Entitled route req) (Identity route req) F := by
  cases huser : user.isActive with
  | true => exact ⟨hsettled, user, type, permissions, hactive huser, rfl⟩
  | false =>
      show Explains route req F (problem req (refusal err))
      rw [herr]
      exact .unidentified hsettled hroute (hinactive huser)

omit [UUIDLib] in
/-- Wrapping an error does not change what it is. -/
theorem refusal_wrap (before after : String) (err : GoError) :
    refusal (.wrap before err after) = refusal err := by
  have hsame : (GoError.wrap before err after).is errAuthenticationUnavailable =
      err.is errAuthenticationUnavailable := by
    simp [GoError.is, errAuthenticationUnavailable]
  rw [refusal, hsame, refusal]

/-- An account that is not active identifies nobody. -/
theorem unidentified_of_inactive {user : UserModel} (hinactive : user.isActive = false)
    (hF : ∀ e ∈ F, (∃ uuid, e = ⟨.getUserByUUID uuid, .returned user⟩) ∨
      (∃ id, e = ⟨.getUserByID id, .returned user⟩) ∨
      (∀ uuid o, e ≠ ⟨.getUserByUUID uuid, o⟩) ∧ ∀ id o, e ≠ ⟨.getUserByID id, o⟩) :
    Unidentified req F := by
  apply unidentified_of_no_user
  intro found
  constructor
  · intro uuid hmem
    rcases hF _ hmem with ⟨uuid', heq⟩ | ⟨id', heq⟩ | ⟨hnot, -⟩
    · cases heq
      exact hinactive
    · cases heq
    · exact absurd rfl (hnot _ _)
  · intro id hmem
    rcases hF _ hmem with ⟨uuid', heq⟩ | ⟨id', heq⟩ | ⟨-, hnot⟩
    · cases heq
    · cases heq
      exact hinactive
    · exact absurd rfl (hnot _ _)

theorem processUserAuth_identifies (hroute : route.permission ≠ none) {token : JWT}
    (htoken : extractBearerToken req.authorization = .ok token) :
    (processUserAuth ⟨req, none⟩ token).Spec observe (Entitled route req) (Identity route req) [] := by
  refine identity_call hroute ?_ ?_ ?_ ?_
  · exact ⟨rfl, htoken⟩
  · exact unidentified_of_no_user (by simp)
  · exact fun err => refusal_wrap _ _ err
  intro claims
  have hnobody : Unidentified req [⟨.validateJWTToken token .access, .returned claims⟩] :=
    unidentified_of_no_user (by simp)
  split
  · exact .unidentified (by simp [Settled]) hroute hnobody
  rename_i hsubject
  have hsubject' : UUIDLib.validate claims.subject = true := by simpa using hsubject
  refine identity_call hroute ?_ hnobody ?_ ?_
  · exact ⟨token, claims, htoken, by simp, rfl, hsubject'⟩
  · intro err
    simp only [authStatus]
    split
    · rfl
    · exact if_pos (GoError.is_wrap2_left (GoError.is_self _))
  intro user
  apply identity_found hroute (by simp [Settled]) rfl
  · exact fun hactive => .credentials htoken (by simp) hsubject' (by simp) hactive
  · intro hinactive
    apply unidentified_of_inactive hinactive
    simp

theorem processTokenAuth_identifies (hroute : route.permission ≠ none)
    (hnone : req.authorization = []) (hkey : req.apiKey ≠ []) :
    (processTokenAuth ⟨req, none⟩ req.apiKey).Spec observe (Entitled route req) (Identity route req)
      [] := by
  refine identity_call hroute ?_ ?_ ?_ ?_
  · exact ⟨hnone, rfl, hkey⟩
  · exact unidentified_of_no_user (by simp)
  · exact fun err => refusal_wrap _ _ err
  intro apiToken
  refine identity_call hroute ?_ ?_ ?_ ?_
  · exact ⟨apiToken, hnone, by simp, rfl⟩
  · exact unidentified_of_no_user (by simp)
  · intro err
    simp only [authStatus]
    cases hfound : err.is errEntityNotFound with
    | false => exact if_pos (GoError.is_wrap2_left (GoError.is_self _))
    | true =>
        -- Only the wrapped error itself can still be unavailability.
        have hsame : (GoError.wrap2 "" errInvalidToken ": api token owner: " err).is
            errAuthenticationUnavailable = err.is errAuthenticationUnavailable := by
          simp [GoError.is, errInvalidToken, errAuthenticationUnavailable]
        simp only [if_true, refusal, hsame, Bool.true_and]
        cases err.is errAuthenticationUnavailable <;> rfl
  intro user
  apply identity_found hroute (by simp [Settled]) rfl
  · exact fun hactive => .apiToken hnone hkey (by simp) (by simp) hactive
  · intro hinactive
    apply unidentified_of_inactive hinactive
    simp

theorem newAuthMiddleware_mediates (hroute : route.permission ≠ none)
    (hnext : ∀ {user type permissions F}, Settled F → Identified req F user type permissions →
      Mediates route req (next ⟨req, some (authInfoOf user type permissions)⟩) F) :
    Mediates route req (newAuthMiddleware next ⟨req, none⟩) [] := by
  have hnobody : Unidentified req [] := unidentified_of_no_user (by simp)
  have hrejected : Mediates route req (rejectWith ⟨req, none⟩ statusUnauthorized) [] :=
    mediates_rejectWith rfl (.unidentified settled_nil hroute hnobody)
  unfold newAuthMiddleware
  split
  · split
    · exact hrejected
    · rename_i token htoken
      exact afterAuth_mediates (processUserAuth_identifies hroute htoken) hnext
  · rename_i hnone
    split
    · rename_i hkey
      have hnone' : req.authorization = [] := by simpa using hnone
      exact afterAuth_mediates (processTokenAuth_identifies hroute hnone' hkey) hnext
    · exact hrejected

/-- A route of the group `/users`. -/
theorem granted_mediates {permission : String} (hroute : route.permission = some permission)
    (hnext : MediatesGranted route req next) :
    Mediates route req (newAuthMiddleware (newAccessMiddleware [permission] next) ⟨req, none⟩) [] :=
  newAuthMiddleware_mediates (by simp [hroute]) fun hsettled hidentified =>
    newAccessMiddleware_mediates hroute hnext hsettled hidentified

end Middleware

/-! ## Every route -/

theorem register_mediates (route : Route) (req : Request) :
    Mediates route req (register route ⟨req, none⟩) [] := by
  cases route with
  | signup => exact signup_mediates rfl
  | login => exact login_mediates rfl
  | refresh => exact refresh_mediates rfl
  | logout => exact logout_mediates rfl
  | readSelf => exact granted_mediates rfl fun _ _ hgranted => readSelf_mediates rfl rfl hgranted
  | updateSelf =>
      exact granted_mediates rfl fun hsettled _ hgranted =>
        updateSelf_mediates rfl rfl hsettled hgranted
  | listUsers =>
      exact granted_mediates rfl fun hsettled _ hgranted => listUsers_mediates rfl hsettled hgranted
  | userByUUID =>
      exact granted_mediates rfl fun hsettled _ hgranted => userByUUID_mediates rfl hsettled hgranted
  | createUser =>
      exact granted_mediates rfl fun hsettled _ hgranted => createUser_mediates rfl hsettled hgranted
  | updateUser =>
      exact granted_mediates rfl fun hsettled _ hgranted => updateUser_mediates rfl hsettled hgranted
  | deleteUser =>
      exact granted_mediates rfl fun hsettled _ hgranted => deleteUser_mediates rfl hsettled hgranted

/-- Whatever the service answers, a request makes only the calls it is entitled to, and its
response is explained by them. -/
theorem requests_mediated {Choice Eff σ : Type}
    (M : Machine ServiceCall ServiceCall.Res Choice Eff σ) (T : ℕ) (route : Route) (req : Request)
    (s s' : σ) (o : Outcome Response) (log : Log ServiceCall ServiceCall.Res Eff)
    (hrun : (serve route req).Runs M T [] s o log s') :
    (∀ r older, r :: older <:+ log → Entitled route req (Log.facts observe older T) r.cmd) ∧
      ∃ response, o = .returned response ∧
        Explains route req (Log.facts observe log T) response := by
  have hspec : (serve route req).Spec observe (Entitled route req)
      (fun F o => ∃ response, o = .returned response ∧ Explains route req F response) [] :=
    Prog.Spec.handle ((register_mediates route req).mono fun F o ho => ⟨_, rfl, ho⟩)
  obtain ⟨hanswered, hlog⟩ := hrun.spec hspec
  refine ⟨fun r older hsuf => ?_, hanswered⟩
  rcases hlog hsuf with hold | hentitled
  · simp at hold
  · exact hentitled

/-- A service that knows one API token, which may only read its owner. -/
def oneToken : Machine ServiceCall ServiceCall.Res Unit Unit Unit := fun _ _ c _ _ =>
  match c with
  | .validateAPIToken _ => some (.returned {
      id := 7
      uuid := "bbbbbbbb-bbbb-4bbb-8bbb-bbbbbbbbbbbb"
      userID := 42
      token := ""
      name := "ci"
      lastUsedAt := none
      expiresAt := none
      createdAt := 0
      updatedAt := 0
      deletedAt := none
      permissions := [⟨"users", "read_self"⟩] }, (), ())
  | .getUserByID id => some (.returned {
      id := id
      uuid := "aaaaaaaa-aaaa-4aaa-8aaa-aaaaaaaaaaaa"
      email := "alice@example.com"
      password := none
      credentialVersion := 1
      status := .active
      updatedAt := 0
      deletedAt := none
      roles := []
      isSystem := false
      createdAt := "2026-01-02 03:04:05" }, (), ())
  | _ => some (.failed (.leaf "not here"), (), ())

def keyRequest : Request := ⟨[], [97, 112, 105], "10.0.0.1", "/users/me", "", none, none, none⟩

omit [UUIDLib] in
theorem requests_mediated_readSelf :
    letI := UUID.formats
    ∃ o log, (serve .readSelf keyRequest).Runs oneToken 0 [] () o log () ∧
      (∀ r older, r :: older <:+ log →
        Entitled .readSelf keyRequest (Log.facts observe older 0) r.cmd) ∧
      ∃ response, o = .returned response ∧
        Explains .readSelf keyRequest (Log.facts observe log 0) response := by
  let _ : UUIDLib := UUID.formats
  obtain ⟨⟨o, log, s'⟩, hfollow⟩ : ∃ r, (serve .readSelf keyRequest).follow oneToken 0
      [(), (), ()] [] () = some r := ⟨_, rfl⟩
  have hrun := Prog.runs_of_follow hfollow
  exact ⟨o, log, hrun, requests_mediated oneToken 0 .readSelf keyRequest () s' o log hrun⟩

end Go42.Auth.Http
