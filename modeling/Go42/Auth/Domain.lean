-- SUMMARY: Errors, constants and values of the authentication domain.
import Go42.Lib.GoError
import Go42.Lib.GoString
import Go42.Lib.Uuid
import Mathlib.Data.Int.Notation

/-!
# Authentication domain

Times are nanoseconds since the Unix epoch unless a field says otherwise.
-/

namespace Go42.Auth

/-! ## Errors -/

def errEntityNotFound : GoError := .leaf "entity not found"
def errUserAlreadyExists : GoError := .leaf "user already exists"
def errInvalidCredentials : GoError := .leaf "invalid credentials"
def errInvalidEmail : GoError := .leaf "invalid email address"
def errInvalidToken : GoError := .leaf "invalid token"
def errAuthenticationUnavailable : GoError := .leaf "authentication unavailable"
def errPasswordWeak : GoError := .leaf "password is too weak"
def errRateLimited : GoError := .leaf "too many authentication attempts"

/-! ## Constants -/

def rbacRoleUser : String := "user"

inductive UserStatus where
  | active
  | inactive
deriving DecidableEq, Repr

def topicNameAuthEvents : String := "auth_events_topic"
def eventTypeAuthSignUp : String := "auth.signup"
def eventTypeAuthLogin : String := "auth.login"
def eventTypeAuthLogout : String := "auth.logout"
def eventTypeUserCreate : String := "user.create"
def eventTypeUserUpdate : String := "user.update"
def eventTypeUserDelete : String := "user.delete"

def maxJWTTokenBytes : ℕ := 8192
def minPasswordCharacters : ℕ := 8
def maxPasswordBytes : ℕ := 72

/-! ## Values -/

/-- `JWTTokenPurpose`; any other string is rejected before it is used. -/
inductive JWTTokenPurpose where
  | access
  | refresh
  | other (purpose : String)
deriving DecidableEq, Repr

/-- The claims of a token. Its three times are `NumericDate`s, in whole seconds. -/
structure JWTClaims where
  id : String
  subject : String
  issuer : String
  audience : List String
  issuedAt : Option ℤ
  notBefore : Option ℤ
  expiresAt : Option ℤ
  kid : String
  tokenUse : JWTTokenPurpose
  sessionID : String
deriving DecidableEq, Repr

/-- A token string, as the bytes it consists of. -/
abbrev JWT := List UInt8

structure Tokens where
  accessToken : JWT
  refreshToken : JWT
  expiresIn : ℤ
deriving DecidableEq

structure CreateUserData where
  email : GoString
  password : GoString
deriving DecidableEq

/-- A field that is `none` is left as it is. -/
structure UpdateUserData where
  email : Option GoString
  password : Option GoString
deriving DecidableEq

structure UpdateSelfData extends UpdateUserData where
  currentPassword : GoString
deriving DecidableEq

end Go42.Auth
