-- SUMMARY: The commands of the authentication service and what the database, the clock, the limiter and the libraries do with them.
import Go42.Auth.Jwt
import Go42.Auth.Models
import Go42.Lib.System

/-!
# The machine under the authentication service

Every command may panic, and those that talk to the database, the limiter or a
library that reports errors may fail without taking effect. A statement reads the
clock in the same step. Two facts about the outside world are built in: generated
UUIDs never repeat, and a token that passes verification was signed here before and
has left the service, which happens only after its session row was committed.
-/

namespace Go42.Auth

/-- The libraries and the schema the service runs on. -/
structure Platform where
  jwt : JWTLib
  uuid : UUIDLib
  /-- How the column `email` compares. -/
  emailEq : String → String → Bool
  /-- The `required,email` rules on a string. -/
  validateEmail : String → Option GoError
  /-- `passwordvalidator.Validate(password, bits)`. -/
  validatePassword : GoString → ℤ → Option GoError
  /-- `bcrypt.CompareHashAndPassword(hash, password) == nil`. -/
  compare : String → GoString → Bool
  sha256Hex : String → String

inductive Cmd where
  | begin
  | commit
  | rollback
  | sql (c : Conn) (q : Stmt)
  | now
  | newUUID
  | generateFromPassword (password : GoString)
  | compareHashAndPassword (hash : String) (password : GoString)
  | allowRateLimit (req : Tools.RateLimitRequest)
  | signedString (secret : String) (claims : JWTClaims)
  | parseWithClaims (opts : ParserOptions) (token : JWT)

abbrev Res : Cmd → Type
  | .begin | .commit | .rollback => Unit
  | .sql _ q => q.Res
  | .now => ℤ
  | .newUUID => UUID
  | .generateFromPassword _ => String
  | .compareHashAndPassword _ _ => Bool
  | .allowRateLimit _ => Bool
  | .signedString _ _ => JWT
  | .parseWithClaims _ _ => JWTClaims

inductive Choice where
  /-- Go ahead. A read inside a transaction may see its snapshot; the database picks the key of a
  new user, and the order of rows that tie. -/
  | run (snapshot : Bool) (pick : ℤ)
  | uuid (u : UUID)
  | hash (h : String)
  | allow (b : Bool)
  | fail (err : GoError)
  | panic (v : String)

structure World where
  db : Store Tables Write Lock
  clock : ℤ

abbrev AuthLog := Log Cmd Res (List Write)

/-! ## Facts -/

/-- What a thread knows from an answer, and the log about the run. -/
inductive Fact where
  | read (u : User)
  | generated (u : UUID)
  | hashed (password : GoString) (hash : String)
  | compared (hash : String) (password : GoString) (ok : Bool)
  | signed (claims : JWTClaims) (token : JWT)
  | parsed (token : JWT) (claims : JWTClaims)
  | lookedUp (sessionID userUUID : String) (s : Session)
  | opened (s : Session)
  | rotated (sessionID userUUID previousTokenID nextTokenID : String) (rows : ℕ)
  | revoked (sessionID userUUID : String)
  | cleaned
  | inserted (u : User)
  | updated (id version : ℤ) (next : User) (rows : ℕ) (now : ℤ)
  | deleted (id : ℤ)
  | recorded (c : Conn)
  | committed
deriving DecidableEq

/-- What a command that returned tells its thread. -/
def evidence : (c : Cmd) → Res c → Option Fact
  | .sql _ (.selectUser _), u => some (.read u)
  | .newUUID, u => some (.generated u)
  | .generateFromPassword password, hash => some (.hashed password hash)
  | .compareHashAndPassword hash password, ok => some (.compared hash password ok)
  | .signedString _ claims, token => some (.signed claims token)
  | .parseWithClaims _ token, claims => some (.parsed token claims)
  | .sql _ (.selectActiveSession sid uid), s => some (.lookedUp sid uid s)
  | .sql _ (.insertSession s), _ => some (.opened s)
  | .sql _ (.rotateSession sid uid prev next _), n => some (.rotated sid uid prev next n)
  | .sql _ (.revokeSession sid uid), _ => some (.revoked sid uid)
  | .sql _ (.deleteSessions _ _), _ => some .cleaned
  | .sql _ (.insertUser u), _ => some (.inserted u)
  | .sql _ (.updateUser id version u), (n, now) => some (.updated id version u n now)
  | .sql _ (.deleteUser id), _ => some (.deleted id)
  | .sql c (.insertUserRole _), _ => some (.recorded c)
  | .sql c (.insertOutbox _), _ => some (.recorded c)
  | .commit, _ => some .committed
  | _, _ => none

/-- An answer that is not a result tells nothing. -/
def observe : Observer Cmd Res Fact
  | c, .returned a => evidence c a
  | _, _ => none

@[simp] theorem observe_failed (c : Cmd) (e : GoError) : observe c (.failed e) = none := rfl

@[simp] theorem observe_panicked (c : Cmd) (v : String) : observe c (.panicked v) = none := rfl

/-! ## The machine -/

variable (P : Platform)

def Lock.conflicts : Lock → Lock → Bool
  | .email a, .email b => P.emailEq a b
  | l, l' => l = l'

/-- Some step of the run is evidence of `f`. -/
def shows (log : AuthLog) (f : Fact) : Bool := log.any fun r => observe r.cmd r.answer = some f

/-- The row of session `sessionID` was committed. -/
def openedIn (log : AuthLog) (sessionID : String) : Bool :=
  log.any fun r => r.effect.any fun
    | .insertSession s => s.id = sessionID
    | _ => false

/-- Reads that do not lock may see a snapshot; updates and deletes act on current rows. -/
def Stmt.isRead : Stmt → Bool
  | .selectUser _ | .selectRoles _ | .selectRolePermissions _ | .selectRole _ => true
  | _ => false

def Cmd.canFail : Cmd → Bool
  | .begin | .commit | .rollback | .sql _ _ | .generateFromPassword _ | .allowRateLimit _
  | .signedString _ _ => true
  | _ => false

/-- The key of a new row is one no visible user has. -/
def keyUnused (t : Tables) (pick : ℤ) : Stmt → Bool
  | .insertUser _ => !t.users.any (·.id = pick)
  | _ => true

/-- A statement of thread `T`. -/
def execSQL (w : World) (T : ℕ) (c : Conn) (q : Stmt) (snapshot : Bool) (pick : ℤ) :
    Option (Outcome q.Res × List Write × World) :=
  if (w.db.view T false c).all (keyUnused · pick q) then
    (w.db.statement (Lock.conflicts P) T (snapshot && q.isRead) c
      fun _ t => q.run P.emailEq w.clock pick t).map fun r => (r.1, r.2.1, { w with db := r.2.2 })
  else none

/-- A command that goes ahead. -/
def execRun (log : AuthLog) (T : ℕ) (w : World) (snapshot : Bool) (pick : ℤ) :
    (c : Cmd) → Option (Outcome (Res c) × List Write × World)
  | .begin => some (.returned (), [], { w with db := w.db.begin T })
  | .commit =>
    match w.db.tx? T with
    | some _ => some (.returned (), (w.db.commit T).1, { w with db := (w.db.commit T).2 })
    | none => some (.failed errTxDone, [], w)
  | .rollback =>
    match w.db.tx? T with
    | some _ => some (.returned (), [], { w with db := w.db.rollback T })
    | none => some (.failed errTxDone, [], w)
  | .sql c q => execSQL P w T c q snapshot pick
  | .now => some (.returned w.clock, [], w)
  | .compareHashAndPassword hash password =>
    some (.returned (P.compare hash password), [], w)
  | .signedString secret claims =>
    some (.returned (P.jwt.signedString secret claims), [], w)
  | .parseWithClaims opts token =>
    match P.jwt.parseWithClaims opts w.clock token with
    | .error err => some (.failed err, [], w)
    | .ok claims =>
      if shows log (.signed claims token) && openedIn log claims.sessionID then
        some (.returned claims, [], w)
      else none
  | .newUUID | .generateFromPassword _ | .allowRateLimit _ => none

def exec : Machine Cmd Res Choice (List Write) World := fun log T c ch w =>
  match ch with
  | .panic v => some (.panicked v, [], w)
  | .fail err => if c.canFail then some (.failed err, [], w) else none
  | .run snapshot pick => execRun P log T w snapshot pick c
  | .uuid u =>
    match c with
    | .newUUID => if P.uuid.validate u && !shows log (.generated u) then some (.returned u, [], w) else none
    | _ => none
  | .hash h =>
    match c with
    | .generateFromPassword password =>
      if P.compare h password then some (.returned h, [], w) else none
    | _ => none
  | .allow b =>
    match c with
    | .allowRateLimit _ => some (.returned b, [], w)
    | _ => none

/-- Time passes, and the database may abort an open transaction at any moment. -/
inductive Env where
  | tick (d : ℕ)
  | abort (T : ℕ)

def World.env (w : World) : Env → World
  | .tick d => { w with clock := w.clock + d }
  | .abort T => { w with db := w.db.rollback T }

def World.crash (w : World) (T : ℕ) : World := { w with db := w.db.rollback T }

end Go42.Auth
