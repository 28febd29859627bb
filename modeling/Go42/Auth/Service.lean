-- SUMMARY: The authentication service: sign-up, login, refresh, logout, token validation and the administration of users, as programs over the machine.
import Go42.Auth.Repository

/-!
# Authentication service

The programs follow the source statement by statement; metrics, traces and log lines
are left out.
-/

namespace Go42.Auth

open Prog (fail)
open Outbox (Message newRow)

/-- The configuration of the service. -/
structure Service where
  jwtSecrets : List JWTSecret
  jwtIssuer : String
  jwtAudience : List String
  accessTokenTTL : ℤ
  refreshTokenTTL : ℤ
  minPasswordEntropyBits : ℤ
  rateLimiterEnabled : Bool
  loginAccountRequests : ℤ
  loginWindow : ℤ
  refreshSessionRequests : ℤ
  refreshWindow : ℤ

variable (P : Platform) (S : Service)

/-! ## Checks -/

/-- Passwords are never trimmed or normalized; the maximum is measured in bytes. -/
def validPasswordLength (password : GoString) : Bool :=
  password.len ≤ maxPasswordBytes && password.validString &&
    minPasswordCharacters ≤ password.runeCount

/-- `none` when the password is strong enough. -/
def checkPasswordStrength (password : GoString) : Option GoError :=
  if !validPasswordLength password then some errPasswordWeak
  else P.validatePassword password S.minPasswordEntropyBits

def normalizeEmail (email : String) : String := toLowerString (trimSpace email)

def normalizeAndValidateEmail : GoString → Except GoError String
  | .invalid _ _ => .error errInvalidEmail
  | .utf8 email =>
    match P.validateEmail (normalizeEmail email) with
    | some err => .error (.wrap2 "" errInvalidEmail ": " err)
    | none => .ok (normalizeEmail email)

def limitAuthentication (scope key : String) (requests window : ℤ) : AuthProg Unit :=
  if !S.rateLimiterEnabled then return ()
  else if key = "" then
    fail (.wrap "" errAuthenticationUnavailable ": invalid authentication limiter configuration")
  else
    let unavailable := fun err =>
      GoError.wrap2 "" errAuthenticationUnavailable ": authentication rate limiter: " err
    match (Tools.newRateLimiter ("auth:" ++ scope) requests requests window window).limit
      P.sha256Hex key with
    | .error err => fail (unavailable err)
    | .ok none => fail errRateLimited
    | .ok (some req) => do
      let allowed ← (call (.allowRateLimit req)).mapErr unavailable
      if allowed then return () else fail errRateLimited

/-- `User.SetPassword`. -/
def setPassword (user : User) (password : GoString) : AuthProg User := do
  let hash ← call (.generateFromPassword password)
  return { user with password := some hash }

/-! ## Events -/

/-- `outbox.Service.NewOutboxMessage`. -/
def newOutboxMessage (c : Conn) (topic : String) (msg : Message) : AuthProg Unit :=
  match msg.validate with
  | some err => fail err
  | none => do
    let id ← call .newUUID
    Repository.newOutboxMessage c (newRow id topic msg)

def sendEvent (c : Conn) (topic : String) (msg : Message) : AuthProg Unit :=
  (newOutboxMessage c topic msg).mapErr fun err => .wrap "failed to send outbox message: " err ""

/-- An event about a user carries no payload. -/
def userEvent (userID : ℤ) (eventType : String) : Message := ⟨userID, .utf8 eventType, none⟩

/-! ## Tokens -/

def checkJWTConfiguration : Except GoError Unit :=
  if S.jwtSecrets = [] ∨ S.jwtIssuer = "" ∨ S.jwtAudience = [] ∨ S.accessTokenTTL ≤ 0 ∨
      S.refreshTokenTTL ≤ 0 then
    .error (.wrap "" errAuthenticationUnavailable ": incomplete JWT configuration")
  else if S.jwtSecrets.any (·.secret = "") then
    .error (.wrap "" errAuthenticationUnavailable ": empty JWT secret")
  else if S.jwtAudience.contains "" then
    .error (.wrap "" errAuthenticationUnavailable ": empty JWT audience")
  else .ok ()

/-- `t.Truncate(time.Second)`. -/
def truncateToSecond (t : ℤ) : ℤ := t / nanosPerSecond * nanosPerSecond

/-- The newest secret signs. -/
def signJWT (userUUID sessionID tokenID : String) (purpose : JWTTokenPurpose)
    (now expiresAt : ℤ) : AuthProg JWT :=
  match S.jwtSecrets.getLast? with
  | none => .done (.panicked "index out of range")
  | some secret => call (.signedString secret.secret {
      id := tokenID
      subject := userUUID
      issuer := S.jwtIssuer
      audience := S.jwtAudience
      issuedAt := some (now / nanosPerSecond)
      notBefore := none
      expiresAt := some (expiresAt / nanosPerSecond)
      kid := secret.sha256
      tokenUse := purpose
      sessionID := sessionID })

def generateTokens (userUUID sessionID refreshTokenID : String) (refreshExpiresAt : ℤ) :
    AuthProg Tokens :=
  match checkJWTConfiguration S with
  | .error err => fail err
  | .ok () => do
    let now ← call .now
    let accessTokenID ← call .newUUID
    let accessToken ← signJWT S userUUID sessionID accessTokenID .access now
      (now + S.accessTokenTTL)
    let refreshToken ← signJWT S userUUID sessionID refreshTokenID .refresh now refreshExpiresAt
    return ⟨accessToken, refreshToken, S.accessTokenTTL.tdiv nanosPerSecond⟩

/-- The key of a token, when its claims name one. -/
def keyFunc (claims : JWTClaims) : Except GoError String :=
  match S.jwtSecrets.find? fun secret => claims.kid == secret.sha256 with
  | some secret => .ok secret.secret
  | none => .error errInvalidToken

def parserOptions : ParserOptions where
  keyFunc := keyFunc S
  validMethods := ["HS256"]
  issuer := S.jwtIssuer
  audience := S.jwtAudience
  expirationRequired := true
  issuedAt := true
  strictDecoding := true

/-- Everything about the claims that the parser does not check. -/
def acceptableClaims (claims : JWTClaims) (expectedPurpose : JWTTokenPurpose) : Bool :=
  claims.tokenUse = expectedPurpose && claims.issuedAt.isSome && P.uuid.validate claims.subject &&
    P.uuid.validate claims.sessionID && P.uuid.validate claims.id

def parseJWTToken (token : JWT) (expectedPurpose : JWTTokenPurpose) : AuthProg JWTClaims :=
  if expectedPurpose ≠ .access ∧ expectedPurpose ≠ .refresh then fail errInvalidToken
  else if maxJWTTokenBytes < token.length ∨ !JWT.canonical token then fail errInvalidToken
  else
    match checkJWTConfiguration S with
    | .error err => fail err
    | .ok () => do
      let claims ← (call (.parseWithClaims (parserOptions S) token)).mapErr fun err =>
        .wrap2 "" errInvalidToken ": " err
      if acceptableClaims P claims expectedPurpose then return claims else fail errInvalidToken

/-! ## Sign-up and creation of users -/

def newUser (uuid : UUID) (email : String) : User where
  id := 0
  uuid := uuid
  email := email
  password := none
  credentialVersion := 1
  status := .active
  updatedAt := 0
  deletedAt := none
  roles := []

/-- The transaction of `SignUp` and `CreateUser`. -/
def insertNewUser (user : User) (eventType : String) : AuthProg User :=
  db.withTransaction do
    let user ← (Repository.createUser .transaction user).mapErr fun err =>
      .wrap "failed to create user: " err ""
    (Repository.assignRoleToUser .transaction user.id rbacRoleUser).mapErr fun err =>
      .wrap "failed to assign user role: " err ""
    (sendEvent .transaction topicNameAuthEvents (userEvent user.id eventType)).mapErr fun err =>
      .wrap "failed to send event: " err ""
    return user

/-- `SignUp` and `CreateUser` differ in the event they record. -/
def createAccount (eventType : String) (email password : GoString) : AuthProg User :=
  match normalizeAndValidateEmail P email with
  | .error err => fail err
  | .ok email =>
    if (checkPasswordStrength P S password).isSome then fail errPasswordWeak
    else do
      let uuid ← call .newUUID
      let user ← (setPassword (newUser uuid email) password).mapErr fun err =>
        .wrap "failed to set password: " err ""
      insertNewUser user eventType

def signUp (email password : GoString) : AuthProg User :=
  createAccount P S eventTypeAuthSignUp email password

def createUser (data : CreateUserData) : AuthProg User :=
  createAccount P S eventTypeUserCreate data.email data.password

/-! ## Sessions -/

def createSession (user : User) : AuthProg Tokens := do
  let id ← call .newUUID
  let refreshTokenID ← call .newUUID
  let now ← call .now
  let expiresAt := truncateToSecond (now + S.refreshTokenTTL)
  let session : Session := ⟨id, user.id, user.credentialVersion, refreshTokenID, expiresAt, none⟩
  let tokens ← generateTokens S user.uuid id refreshTokenID expiresAt
  (Repository.createSession .primary session).mapErr fun err =>
    .wrap2 "" errAuthenticationUnavailable ": create session: " err
  return tokens

/-- The hash unknown accounts are checked against. -/
def dummyHash : String := "$2a$10$N9qo8uLOickgx2ZMRZoMyeIjZAgcfl7p92ldGxad68LJZdL17lhWy"

def compareDummyPassword (password : GoString) : AuthProg Unit := do
  let _ ← call (.compareHashAndPassword dummyHash password)
  return ()

/-- `user.Password.V` is empty for NULL. -/
def User.passwordHash (u : User) : String := u.password.getD ""

def login (email password : GoString) : AuthProg Tokens :=
  match normalizeAndValidateEmail P email with
  | .error _ => fail errInvalidCredentials
  | .ok email =>
    if !validPasswordLength password then fail errInvalidCredentials
    else do
      limitAuthentication P S "account" email S.loginAccountRequests S.loginWindow
      match ← (Repository.getUserByEmail .primary email).attempt with
      | .error err =>
        if !err.is errEntityNotFound then
          fail (.wrap2 "" errAuthenticationUnavailable ": user lookup: " err)
        else
          compareDummyPassword password
          fail errInvalidCredentials
      | .ok user =>
        if !user.isActive then
          compareDummyPassword password
          fail errInvalidCredentials
        else
          let ok ← call (.compareHashAndPassword user.passwordHash password)
          if !ok then fail errInvalidCredentials
          else
            let tokens ← (createSession S user).mapErr fun err =>
              .wrap "failed to generate tokens: " err ""
            -- An event that cannot be recorded is only logged.
            let _ ← (sendEvent .primary topicNameAuthEvents
              (userEvent user.id eventTypeAuthLogin)).attempt
            return tokens

def refresh (token : JWT) : AuthProg Tokens := do
  -- A consumed token must reach the compare-and-swap, so the session is not looked up here.
  let claims ← parseJWTToken P S token .refresh
  limitAuthentication P S "refresh" claims.sessionID S.refreshSessionRequests S.refreshWindow
  let nextTokenID ← call .newUUID
  let now ← call .now
  let expiresAt := truncateToSecond (now + S.refreshTokenTTL)
  let tokens ← generateTokens S claims.subject claims.sessionID nextTokenID expiresAt
  let rotated ← (Repository.rotateSession .primary claims.sessionID claims.subject claims.id
    nextTokenID expiresAt).mapErr fun err =>
      .wrap2 "" errAuthenticationUnavailable ": rotate session: " err
  if !rotated then
    (Repository.revokeSession .primary claims.sessionID claims.subject).mapErr fun err =>
      .wrap2 "" errAuthenticationUnavailable ": revoke reused session: " err
    fail errInvalidToken
  else
    return tokens

def logout (refreshToken : JWT) : AuthProg Unit := do
  let claims ← parseJWTToken P S refreshToken .refresh
  (Repository.revokeSession .primary claims.sessionID claims.subject).mapErr fun err =>
    .wrap2 "" errAuthenticationUnavailable ": revoke session: " err
  -- The event is recorded when it can be.
  let _ ← (do
    let user ← Repository.getUserByUUID .primary claims.subject
    sendEvent .primary topicNameAuthEvents (userEvent user.id eventTypeAuthLogout)).attempt
  return ()

def validateJWTToken (token : JWT) (expectedPurpose : JWTTokenPurpose) : AuthProg JWTClaims := do
  let claims ← parseJWTToken P S token expectedPurpose
  let session ← (Repository.getActiveSession .primary claims.sessionID claims.subject).mapErr
    fun err =>
      if err.is errInvalidToken || err.is errEntityNotFound then errInvalidToken
      else .wrap2 "" errAuthenticationUnavailable ": session lookup: " err
  if expectedPurpose = .refresh ∧ session.refreshTokenID ≠ claims.id then fail errInvalidToken
  else return claims

/-! ## Changes of users -/

/-- The proof of the current password that `UpdateSelf` asks for. -/
def checkCurrentPassword (user : User) : Option GoString → AuthProg Unit
  | none => return ()
  | some currentPassword => do
    limitAuthentication P S "account" (normalizeEmail user.email) S.loginAccountRequests
      S.loginWindow
    if !user.isActive || !validPasswordLength currentPassword then fail errInvalidCredentials
    else
      let ok ← call (.compareHashAndPassword user.passwordHash currentPassword)
      if ok then return () else fail errInvalidCredentials

/-- `user.SetPassword` when a new password is given. -/
def setNewPassword (user : User) : Option GoString → AuthProg User
  | none => return user
  | some password =>
    (setPassword user password).mapErr fun err => .wrap "failed to set password: " err ""

/-- The end of the transaction of `updateUser`, once something is known to change. -/
def saveUser (user : User) : AuthProg Unit := do
  let user ← (Repository.updateUser .transaction user).mapErr fun err =>
    .wrap "failed to update user: " err ""
  (sendEvent .transaction topicNameAuthEvents (userEvent user.id eventTypeUserUpdate)).mapErr
    fun err => .wrap "failed to send event: " err ""

/-- The transaction of `updateUser`; `email` is the normalized new address. -/
def applyUpdate (uuid : String) (email : Option String) (password currentPassword : Option GoString) :
    AuthProg Unit := do
  let user ← (Repository.getUserByUUID .transaction uuid).mapErr fun err =>
    .wrap "failed to get user: " err ""
  checkCurrentPassword P S user currentPassword
  let doUpdate := email.any (· ≠ user.email) || password.isSome
  let user ← setNewPassword { user with email := email.getD user.email } password
  if doUpdate then saveUser user else return ()

/-- The service's `updateUser`; `currentPassword` is what `UpdateSelf` has to prove. -/
def changeUser (uuid : String) (data : UpdateUserData) (currentPassword : Option GoString) :
    AuthProg Unit :=
  match data.email.mapM (normalizeAndValidateEmail P) with
  | .error err => fail err
  | .ok email =>
    if data.password.any fun password => (checkPasswordStrength P S password).isSome then
      fail errPasswordWeak
    else db.withTransaction (applyUpdate P S uuid email data.password currentPassword)

def updateUser (uuid : String) (data : UpdateUserData) : AuthProg Unit :=
  changeUser P S uuid data none

def updateSelf (uuid : String) (data : UpdateSelfData) : AuthProg Unit :=
  if data.email = none ∧ data.password = none then return ()
  else changeUser P S uuid data.toUpdateUserData (some data.currentPassword)

def deleteUser (uuid : String) : AuthProg Unit :=
  db.withTransaction do
    let user ← (Repository.getUserByUUID .transaction uuid).mapErr fun err =>
      .wrap "failed to get user by id: " err ""
    (Repository.deleteUser .transaction user).mapErr fun err =>
      .wrap "failed to delete user: " err ""
    (sendEvent .transaction topicNameAuthEvents (userEvent user.id eventTypeUserDelete)).mapErr
      fun err => .wrap "failed to send event: " err ""

/-! ## The system -/

inductive Call where
  | signUp (email password : GoString)
  | login (email password : GoString)
  | refresh (token : JWT)
  | logout (refreshToken : JWT)
  | validateJWTToken (token : JWT) (expectedPurpose : JWTTokenPurpose)
  | createUser (data : CreateUserData)
  | updateUser (uuid : String) (data : UpdateUserData)
  | updateSelf (uuid : String) (data : UpdateSelfData)
  | deleteUser (uuid : String)
  | deleteExpiredSessions
deriving DecidableEq

inductive Answer where
  | user (u : User)
  | tokens (t : Tokens)
  | claims (c : JWTClaims)
  | count (n : ℕ)
  | nil
deriving DecidableEq

def body : Call → AuthProg Answer
  | .signUp email password => .user <$> signUp P S email password
  | .login email password => .tokens <$> login P S email password
  | .refresh token => .tokens <$> refresh P S token
  | .logout token => (fun _ => .nil) <$> logout P S token
  | .validateJWTToken token purpose => .claims <$> validateJWTToken P S token purpose
  | .createUser data => .user <$> createUser P S data
  | .updateUser uuid data => (fun _ => .nil) <$> updateUser P S uuid data
  | .updateSelf uuid data => (fun _ => .nil) <$> updateSelf P S uuid data
  | .deleteUser uuid => (fun _ => .nil) <$> deleteUser uuid
  | .deleteExpiredSessions => .count <$> Repository.deleteExpiredSessions .primary

def system : System Cmd Res Choice (List Write) World Call Env Answer where
  machine := exec P
  body := body P S
  env e w := some (w.env e)
  crash T w := w.crash T

end Go42.Auth
