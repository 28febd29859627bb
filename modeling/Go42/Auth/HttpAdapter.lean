-- SUMMARY: The HTTP adapter of the authentication service: its routes with their middleware, the handlers, and how errors are answered.
import Go42.Auth.Token
import Go42.Lib.GoInt
import Go42.Lib.System
import Go42.Tools.Pagination

/-!
# HTTP adapter

A handler is a program whose commands are the calls of the service. What the router, the
decoder of bodies and the reader of the query make of a request is part of the request.
Metrics and log records are left out, and so are failures to write a response.
-/

namespace Go42.Auth

/-! ## Domain -/

inductive AuthenticationAction where
  | login
  | signup
deriving DecidableEq, Repr

def rbacPermissionUsersReadSelf : String := "users:read_self"
def rbacPermissionUsersUpdateSelf : String := "users:update_self"
def rbacPermissionUsersList : String := "users:list"
def rbacPermissionUsersReadOthers : String := "users:read_others"
def rbacPermissionUsersCreate : String := "users:create"
def rbacPermissionUsersUpdate : String := "users:update"
def rbacPermissionUsersDelete : String := "users:delete"

/-- A user with the fields that only the adapters read. `createdAt` is the time as it is
printed. -/
structure UserModel extends User where
  isSystem : Bool
  createdAt : String
deriving DecidableEq, Repr

def User.roleList (u : User) : List String := u.roles.map Role.name

/-- The names of the permissions of all roles, each once. -/
def User.permissionList (u : User) : List String :=
  u.roles.foldl
    (fun permissions role => role.permissions.foldl
      (fun permissions p =>
        if permissions.contains p.name then permissions else permissions ++ [p.name])
      permissions) []

/-! ## Calls of the service -/

/-- `serviceAccessor` and `authServiceAccessor`. -/
inductive ServiceCall where
  | signUp (email password : GoString)
  | login (email password : GoString)
  | refresh (token : JWT)
  | logout (refreshToken : JWT)
  | checkIPLimit (action : AuthenticationAction) (ip : String)
  | createUser (data : CreateUserData)
  | updateUser (uuid : String) (data : UpdateUserData)
  | updateSelf (uuid : String) (data : UpdateSelfData)
  | deleteUser (uuid : String)
  | listUsers (limit offset : ℤ)
  | getUserByID (id : ℤ)
  | getUserByUUID (uuid : String)
  | validateJWTToken (token : JWT) (expectedPurpose : JWTTokenPurpose)
  | validateAPIToken (token : List UInt8)
deriving DecidableEq

abbrev ServiceCall.Res : ServiceCall → Type
  | signUp _ _ | createUser _ | getUserByID _ | getUserByUUID _ => UserModel
  | login _ _ | refresh _ => Tokens
  | logout _ | checkIPLimit _ _ | updateUser _ _ | updateSelf _ _ | deleteUser _ => Unit
  | listUsers _ _ => List UserModel
  | validateJWTToken _ _ => JWTClaims
  | validateAPIToken _ => Token

abbrev AdapterProg (α : Type) := Prog ServiceCall ServiceCall.Res α

namespace Http

open Prog (fail)

variable [UUIDLib]

abbrev call (c : ServiceCall) : AdapterProg c.Res := Prog.call c

/-! ## Requests and responses -/

/-- The fields of all request bodies, as they are decoded. A field that is missing, or null,
is `none`. -/
structure Fields where
  email : Option GoString
  password : Option GoString
  currentPassword : Option GoString
  token : Option JWT
  refreshToken : Option JWT
deriving DecidableEq

structure Request where
  /-- `Header.Get("Authorization")`, empty when there is none. -/
  authorization : List UInt8
  /-- `Header.Get("x-api-key")`. -/
  apiKey : List UInt8
  realIP : String
  requestURI : String
  /-- `Param("uuid")`. -/
  uuid : String
  /-- The query parameters of a list, when they are there. -/
  limit : Option String
  offset : Option String
  /-- What `Bind` decodes, unless it fails. -/
  body : Option Fields
deriving DecidableEq

/-- The request with what its context carries. -/
structure Context where
  request : Request
  authInfo : Option ContextAuthInfo

structure UserResponse where
  uuid : UUID
  email : String
  createdAt : String
  roles : List String
  permissions : List String
deriving DecidableEq, Repr

def userResponseFromModel (user : UserModel) : UserResponse where
  uuid := user.uuid
  email := user.email
  createdAt := user.createdAt
  roles := user.roleList
  permissions := user.permissionList

/-- A field that failed a rule, by its JSON pointer. The text for people is left out. -/
structure ValidationError where
  pointer : String
  code : String
deriving DecidableEq, Repr

/-- `httpAPI.Error`. -/
structure Problem where
  type : String
  title : String
  status : ℕ
  errors : List ValidationError
deriving DecidableEq, Repr

inductive Body where
  | none
  | user (user : UserResponse)
  | users (users : List UserResponse)
  | tokens (tokens : Tokens)
  | problem (problem : Problem)
deriving DecidableEq

structure Response where
  status : ℕ
  body : Body
deriving DecidableEq

/-- The errors a handler returns for the error handler to render. -/
inductive HandlerError where
  /-- `echo.HTTPError`. -/
  | http (code : ℕ)
  | validation (fields : List ValidationError)
deriving DecidableEq, Repr

abbrev HandlerFunc := Context → AdapterProg (Except HandlerError Response)

def statusOK : ℕ := 200
def statusCreated : ℕ := 201
def statusBadRequest : ℕ := 400
def statusUnauthorized : ℕ := 401
def statusForbidden : ℕ := 403
def statusNotFound : ℕ := 404
def statusConflict : ℕ := 409
def statusTooManyRequests : ℕ := 429
def statusInternalServerError : ℕ := 500
def statusServiceUnavailable : ℕ := 503

/-- `http.StatusText`, for the codes above. -/
def statusText (code : ℕ) : String :=
  match code with
  | 200 => "OK"
  | 201 => "Created"
  | 400 => "Bad Request"
  | 401 => "Unauthorized"
  | 403 => "Forbidden"
  | 404 => "Not Found"
  | 409 => "Conflict"
  | 429 => "Too Many Requests"
  | 500 => "Internal Server Error"
  | 503 => "Service Unavailable"
  | _ => ""

/-- `SendJSONError(ctx, status, http.StatusText(status))`. -/
def sendJSONError (ctx : Context) (status : ℕ) : Response :=
  ⟨status, .problem ⟨ctx.request.requestURI, statusText status, status, []⟩⟩

def rejectWith (ctx : Context) (status : ℕ) : AdapterProg (Except HandlerError Response) :=
  return .ok (sendJSONError ctx status)

/-! ## Errors of the service -/

/-- The adapter's `processError`. -/
def processError (ctx : Context) (err : GoError) : Except HandlerError Response :=
  if err.is errEntityNotFound then .ok (sendJSONError ctx statusNotFound)
  else if err.is errUserAlreadyExists then .ok (sendJSONError ctx statusConflict)
  else if err.is errInvalidCredentials then .ok (sendJSONError ctx statusBadRequest)
  else if err.is errInvalidEmail then .ok (sendJSONError ctx statusBadRequest)
  else if err.is errPasswordWeak then .ok (sendJSONError ctx statusBadRequest)
  else if err.is Tools.errInvalidPagination then .ok (sendJSONError ctx statusBadRequest)
  else if err.is errRateLimited then .ok (sendJSONError ctx statusTooManyRequests)
  else if err.is errAuthenticationUnavailable then .ok (sendJSONError ctx statusServiceUnavailable)
  else if err.is errInvalidToken then .ok (sendJSONError ctx statusUnauthorized)
  else .error (.http statusInternalServerError)

/-- `if err != nil { return a.processError(ctx, err) }` after a call of the service. -/
def orProcessError (ctx : Context) (p : AdapterProg α)
    (f : α → AdapterProg (Except HandlerError Response)) :
    AdapterProg (Except HandlerError Response) := do
  match ← p.attempt with
  | .error err => return processError ctx err
  | .ok a => f a

/-- `NewErrorHandler`, behind the middleware that recovers from panics. -/
def errorHandler (req : Request) : Outcome (Except HandlerError Response) → Response
  | .returned (.ok response) => response
  | .returned (.error (.http code)) =>
    ⟨code, .problem ⟨req.requestURI, statusText code, code, []⟩⟩
  | .returned (.error (.validation fields)) =>
    ⟨statusBadRequest, .problem
      ⟨req.requestURI, statusText statusBadRequest, statusBadRequest, fields⟩⟩
  | .failed _ | .panicked _ =>
    ⟨statusInternalServerError, .problem
      ⟨req.requestURI, "Internal HTTPServer Error", statusInternalServerError, []⟩⟩

/-! ## Authentication and access -/

/-- `"Bearer "`. -/
def headerValueBearerPrefix : List UInt8 := [66, 101, 97, 114, 101, 114, 32]

def extractBearerToken (authHeader : List UInt8) : Except GoError JWT :=
  if !headerValueBearerPrefix.isPrefixOf authHeader then
    .error (.leaf "invalid Authorization header format, expected Bearer token")
  else
    let token := authHeader.drop headerValueBearerPrefix.length
    if token = [] then .error (.leaf "empty token in Authorization header") else .ok token

def setAuthToContext (ctx : Context) (authInfo : ContextAuthInfo) : Context :=
  { ctx with authInfo := some authInfo }

/-- The identity of `user` with the given permissions. -/
def authInfoOf (user : UserModel) (type : AuthenticationType) (permissions : List String) :
    ContextAuthInfo :=
  (⟨user.id, user.uuid, type, [], none⟩ : ContextAuthInfo).setPermissions permissions

def processUserAuth (ctx : Context) (token : JWT) : AdapterProg Context := do
  let claims ← (call (.validateJWTToken token .access)).mapErr fun err =>
    .wrap "invalid access token: " err ""
  if !UUIDLib.validate claims.subject then
    fail (.wrap "access token is not valid uuid: " (.leaf "invalid UUID") "")
  else
    let user ← (call (.getUserByUUID claims.subject)).mapErr fun err =>
      if err.is errEntityNotFound then errInvalidToken
      else .wrap2 "" errAuthenticationUnavailable ": retrieve user: " err
    if !user.isActive then fail (.leaf "user is not allowed to authenticate")
    else return setAuthToContext ctx (authInfoOf user .credentials user.permissionList)

def processTokenAuth (ctx : Context) (token : List UInt8) : AdapterProg Context := do
  let apiToken ← (call (.validateAPIToken token)).mapErr fun err =>
    .wrap "validate api token: " err ""
  let user ← (call (.getUserByID apiToken.userID)).mapErr fun err =>
    if err.is errEntityNotFound then .wrap2 "" errInvalidToken ": api token owner: " err
    else .wrap2 "" errAuthenticationUnavailable ": api token owner: " err
  if !user.isActive then fail (.wrap "" errInvalidToken ": api token owner is inactive")
  -- The permissions are those of the token alone.
  else return setAuthToContext ctx (authInfoOf user .apiToken apiToken.permissionList)

/-- What follows an authentication in `NewAuthMiddleware`. -/
def afterAuth (ctx : Context) (auth : AdapterProg Context) (next : HandlerFunc) :
    AdapterProg (Except HandlerError Response) := do
  match ← auth.attempt with
  | .error err =>
    if err.is errAuthenticationUnavailable then rejectWith ctx statusServiceUnavailable
    else rejectWith ctx statusUnauthorized
  | .ok authCtx => next authCtx

def newAuthMiddleware (next : HandlerFunc) : HandlerFunc := fun ctx =>
  if ctx.request.authorization ≠ [] then
    match extractBearerToken ctx.request.authorization with
    | .error _ => rejectWith ctx statusUnauthorized
    | .ok token => afterAuth ctx (processUserAuth ctx token) next
  else if ctx.request.apiKey ≠ [] then
    afterAuth ctx (processTokenAuth ctx ctx.request.apiKey) next
  else rejectWith ctx statusUnauthorized

def newAccessMiddleware (permissions : List String) (next : HandlerFunc) : HandlerFunc := fun ctx =>
  match ctx.authInfo with
  | none => rejectWith ctx statusUnauthorized
  | some authInfo =>
    if permissions.all authInfo.hasPermission then next ctx
    else rejectWith ctx statusForbidden

/-! ## Bodies -/

/-- The rules of a body: the fields that break one, in their order. -/
def required (struct field : String) (missing : Bool) : List ValidationError :=
  if missing then [⟨"#/" ++ struct ++ "/" ++ field, "INVALID_VALUE"⟩] else []

def isMissing (s : Option GoString) : Bool := s.all fun s => s = .utf8 ""

/-- `SignupRequest`, `LoginRequest` and `CreateUserRequest`: both fields are required. -/
def credentialRules (struct : String) (fields : Fields) : List ValidationError :=
  required struct "email" (isMissing fields.email) ++
    required struct "password" (isMissing fields.password)

def refreshTokenRules (fields : Fields) : List ValidationError :=
  required "RefreshTokenRequest" "token" (fields.token.all (· = []))

def logoutTokenRules (fields : Fields) : List ValidationError :=
  required "LogoutTokenRequest" "refresh_token" (fields.refreshToken.all (· = []))

/-- `required_with=Email Password`. -/
def updateSelfRules (fields : Fields) : List ValidationError :=
  required "UpdateSelfRequest" "current_password"
    ((fields.email.isSome || fields.password.isSome) && isMissing fields.currentPassword)

/-- `UpdateUserRequest` has no rules. -/
def updateUserRules (_ : Fields) : List ValidationError := []

/-- `BindAndValidate`. -/
def bindAndValidate (ctx : Context) (rules : Fields → List ValidationError) :
    Except HandlerError Fields :=
  match ctx.request.body with
  | none => .error (.http statusBadRequest)
  | some fields => if rules fields = [] then .ok fields else .error (.validation (rules fields))

/-- A handler with a body. -/
def withBody (ctx : Context) (rules : Fields → List ValidationError)
    (f : Fields → AdapterProg (Except HandlerError Response)) :
    AdapterProg (Except HandlerError Response) :=
  match bindAndValidate ctx rules with
  | .error err => return .error err
  | .ok fields => f fields

/-- The value of a field that is not a pointer. -/
def fieldValue (s : Option GoString) : GoString := s.getD (.utf8 "")

/-! ## Handlers -/

def signup : HandlerFunc := fun ctx =>
  orProcessError ctx (call (.checkIPLimit .signup ctx.request.realIP)) fun _ =>
    withBody ctx (credentialRules "SignupRequest") fun req =>
      orProcessError ctx (call (.signUp (fieldValue req.email) (fieldValue req.password)))
        fun user => return .ok ⟨statusCreated, .user (userResponseFromModel user)⟩

def login : HandlerFunc := fun ctx =>
  orProcessError ctx (call (.checkIPLimit .login ctx.request.realIP)) fun _ =>
    withBody ctx (credentialRules "LoginRequest") fun req =>
      orProcessError ctx (call (.login (fieldValue req.email) (fieldValue req.password)))
        fun tokens => return .ok ⟨statusOK, .tokens tokens⟩

def refresh : HandlerFunc := fun ctx =>
  withBody ctx refreshTokenRules fun req =>
    orProcessError ctx (call (.refresh (req.token.getD []))) fun tokens =>
      return .ok ⟨statusOK, .tokens tokens⟩

def logout : HandlerFunc := fun ctx =>
  withBody ctx logoutTokenRules fun req =>
    orProcessError ctx (call (.logout (req.refreshToken.getD []))) fun _ =>
      return .ok ⟨statusOK, .none⟩

def readSelf : HandlerFunc := fun ctx =>
  match ctx.authInfo with
  | none => rejectWith ctx statusUnauthorized
  | some authInfo =>
    orProcessError ctx (call (.getUserByID authInfo.id)) fun user =>
      return .ok ⟨statusOK, .user (userResponseFromModel user)⟩

def updateSelf : HandlerFunc := fun ctx =>
  orProcessError ctx (call (.checkIPLimit .login ctx.request.realIP)) fun _ =>
    match ctx.authInfo with
    | none => rejectWith ctx statusUnauthorized
    | some authInfo =>
      withBody ctx updateSelfRules fun req =>
        orProcessError ctx (call (.updateSelf authInfo.uuid
            ⟨⟨req.email, req.password⟩, fieldValue req.currentPassword⟩))
          fun _ => return .ok ⟨statusOK, .none⟩

/-- `strconv.Atoi` of a query parameter; zero when it is not there. -/
def queryInt : Option String → Option ℤ
  | none => some 0
  | some s => parseInt s

def listUsers : HandlerFunc := fun ctx =>
  match queryInt ctx.request.limit, queryInt ctx.request.offset with
  | some limit, some offset =>
    match Tools.normalizePagination limit offset with
    | .error err => return processError ctx err
    | .ok page =>
      orProcessError ctx (call (.listUsers page.limit page.offset)) fun users =>
        return .ok ⟨statusOK, .users (users.map userResponseFromModel)⟩
  | _, _ => return processError ctx Tools.errInvalidPagination

/-- The check of the path parameter in three handlers. -/
def withUUID (ctx : Context) (f : String → AdapterProg (Except HandlerError Response)) :
    AdapterProg (Except HandlerError Response) :=
  if UUIDLib.validate ctx.request.uuid then f ctx.request.uuid
  else rejectWith ctx statusBadRequest

def userByUUID : HandlerFunc := fun ctx =>
  withUUID ctx fun userUUID =>
    orProcessError ctx (call (.getUserByUUID userUUID)) fun user =>
      return .ok ⟨statusOK, .user (userResponseFromModel user)⟩

def createUser : HandlerFunc := fun ctx =>
  withBody ctx (credentialRules "CreateUserRequest") fun req =>
    orProcessError ctx (call (.createUser ⟨fieldValue req.email, fieldValue req.password⟩))
      fun user => return .ok ⟨statusCreated, .user (userResponseFromModel user)⟩

def updateUser : HandlerFunc := fun ctx =>
  withUUID ctx fun userUUID =>
    withBody ctx updateUserRules fun req =>
      orProcessError ctx (call (.updateUser userUUID ⟨req.email, req.password⟩)) fun _ =>
        return .ok ⟨statusOK, .none⟩

def deleteUser : HandlerFunc := fun ctx =>
  withUUID ctx fun userUUID =>
    orProcessError ctx (call (.deleteUser userUUID)) fun _ => return .ok ⟨statusOK, .none⟩

/-! ## Routes -/

inductive Route where
  /-- `POST /auth/signup` -/
  | signup
  /-- `POST /auth/login` -/
  | login
  /-- `POST /auth/refresh` -/
  | refresh
  /-- `POST /auth/logout` -/
  | logout
  /-- `GET /users/me` -/
  | readSelf
  /-- `PUT /users/me` -/
  | updateSelf
  /-- `GET /users` -/
  | listUsers
  /-- `GET /users/:uuid` -/
  | userByUUID
  /-- `POST /users` -/
  | createUser
  /-- `PUT /users/:uuid` -/
  | updateUser
  /-- `DELETE /users/:uuid` -/
  | deleteUser
deriving DecidableEq, Repr

/-- `Register`: the middleware of the group `/users` comes before that of its routes. -/
def register : Route → HandlerFunc
  | .signup => signup
  | .login => login
  | .refresh => refresh
  | .logout => logout
  | .readSelf => newAuthMiddleware (newAccessMiddleware [rbacPermissionUsersReadSelf] readSelf)
  | .updateSelf =>
    newAuthMiddleware (newAccessMiddleware [rbacPermissionUsersUpdateSelf] updateSelf)
  | .listUsers => newAuthMiddleware (newAccessMiddleware [rbacPermissionUsersList] listUsers)
  | .userByUUID =>
    newAuthMiddleware (newAccessMiddleware [rbacPermissionUsersReadOthers] userByUUID)
  | .createUser => newAuthMiddleware (newAccessMiddleware [rbacPermissionUsersCreate] createUser)
  | .updateUser => newAuthMiddleware (newAccessMiddleware [rbacPermissionUsersUpdate] updateUser)
  | .deleteUser => newAuthMiddleware (newAccessMiddleware [rbacPermissionUsersDelete] deleteUser)

/-- A request, from the router to its response. -/
def serve (route : Route) (req : Request) : AdapterProg Response :=
  (register route ⟨req, none⟩).handle fun o => .done (.returned (errorHandler req o))

end Http
end Go42.Auth
