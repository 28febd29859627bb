-- SUMMARY: The authentication repository: each method with its statements, its error mapping and its reading of the row counts.
import Go42.Auth.Machine
import Go42.Database.Repository

/-!
# Authentication repository

A method takes the connection its context carries.
-/

namespace Go42.Auth

abbrev AuthProg := Prog Cmd Res

open Prog (fail)

abbrev call (c : Cmd) : AuthProg (Res c) := Prog.call c

abbrev sql (c : Conn) (q : Stmt) : AuthProg q.Res := call (.sql c q)

/-- The transactions of this repository. -/
def db : Database.Ops Cmd Res := ⟨call .begin, call .commit, call .rollback⟩

namespace Repository

def createUser (c : Conn) (user : User) : AuthProg User := do
  let id ← (sql c (.insertUser user)).mapErr fun err =>
    if isDuplicateKeyError err then errUserAlreadyExists
    else .wrap "error creating user: " err ""
  return { user with id := id }

/-- The row is updated only while it has the version `user` was loaded with. -/
def updateUser (c : Conn) (user : User) : AuthProg User := do
  let updated := { user with credentialVersion := user.credentialVersion + 1 }
  let (rows, now) ← (sql c (.updateUser user.id user.credentialVersion updated)).mapErr
    fun err =>
      if isDuplicateKeyError err then errUserAlreadyExists
      else .wrap "error updating user: " err ""
  if rows = 0 then
    -- A concurrent credential change makes the caller's password proof stale.
    fail errInvalidCredentials
  else
    return { user with credentialVersion := updated.credentialVersion, updatedAt := now }

def deleteUser (c : Conn) (user : User) : AuthProg Unit := do
  let rows ← (sql c (.deleteUser user.id)).mapErr fun err =>
    .wrap "error deleting user: " err ""
  if rows = 0 then fail errEntityNotFound else return ()

def loadRolePermissions (c : Conn) (roleIDs : List ℤ) : AuthProg (List (ℤ × Permission)) :=
  sql c (.selectRolePermissions roleIDs)

def getUser (c : Conn) (f : UserFilter) : AuthProg User := do
  let user ← (sql c (.selectUser f)).mapErr fun err =>
    if isNotFoundError err then errEntityNotFound else err
  let roles ← (sql c (.selectRoles user.id)).mapErr fun err =>
    .wrap "error fetching roles: " err ""
  if roles = [] then return { user with roles := [] }
  else
    let permissions ← (loadRolePermissions c (roles.map Role.id)).mapErr fun err =>
      .wrap "error fetching permissions: " err ""
    return { user with roles := roles.map fun r =>
      { r with permissions := (permissions.filter (·.1 = r.id)).map Prod.snd } }

def getUserByUUID (c : Conn) (uuid : String) : AuthProg User := getUser c (.byUUID uuid)

def getUserByEmail (c : Conn) (email : String) : AuthProg User := getUser c (.byEmail email)

def assignRoleToUser (c : Conn) (userID : ℤ) (roleName : String) : AuthProg Unit := do
  let role ← (sql c (.selectRole roleName)).mapErr fun err =>
    .wrap "error retrieving role: " err ""
  (sql c (.insertUserRole ⟨userID, role.id, none⟩)).mapErr fun err =>
    .wrap "error assigning role to user: " err ""

def createSession (c : Conn) (session : Session) : AuthProg Unit :=
  sql c (.insertSession session)

def getActiveSession (c : Conn) (sessionID userUUID : String) : AuthProg Session :=
  (sql c (.selectActiveSession sessionID userUUID)).mapErr fun err =>
    if isNotFoundError err then errInvalidToken else err

/-- One compare-and-swap on the current refresh token. -/
def rotateSession (c : Conn) (sessionID userUUID previousTokenID nextTokenID : String)
    (expiresAt : ℤ) : AuthProg Bool := do
  let rows ← sql c (.rotateSession sessionID userUUID previousTokenID nextTokenID expiresAt)
  return rows = 1

def revokeSession (c : Conn) (sessionID userUUID : String) : AuthProg Unit :=
  sql c (.revokeSession sessionID userUUID)

/-- Expiry is checked again when deleting, in case a refresh extended a session after the
selection. -/
def deleteExpiredSessions (c : Conn) : AuthProg ℕ := do
  let cutoff ← call .now
  let ids ← sql c (.selectExpiredSessions cutoff 1000)
  if ids = [] then return 0
  else sql c (.deleteSessions ids cutoff)

/-- `outbox.Repository.NewOutboxMessage`. -/
def newOutboxMessage (c : Conn) (m : Outbox.OutboxMessage) : AuthProg Unit :=
  (sql c (.insertOutbox m)).mapErr fun err => .wrap "error saving message: " err ""

end Repository
end Go42.Auth
