-- SUMMARY: Every run of the authentication service keeps the invariants of its tables.
import Go42.Auth.SessionInvariant

/-!
# Runs of the authentication service
-/

namespace Go42.Auth

variable {P : Platform} {S : Service}

/-- A start: any users, no sessions, no open transactions. -/
structure World.Initial (w : World) : Prop where
  keys : (w.db.committed.users.map User.id).Nodup
  versions : ∀ u ∈ w.db.committed.users, 1 ≤ u.credentialVersion
  sessions : w.db.committed.sessions = []
  txs : ∀ T, w.db.tx? T = none

/-- What every run keeps. -/
structure Inv (P : Platform) (init : List User) (log : AuthLog) (w : World) : Prop where
  user : UserInv init log w
  session : SessionInv P log w.db.committed.sessions

theorem Inv.init {w : World} (hw : w.Initial) : Inv P w.db.committed.users [] w where
  user := .init hw.keys hw.versions hw.txs
  session := hw.sessions ▸ .init

theorem World.env_sessions (w : World) (e : Env) :
    (w.env e).db.committed.sessions = w.db.committed.sessions := by
  cases e <;> rfl

theorem sound (init : List User) :
    (system P S).Sound observe (allowed P) (post P) (Inv P init) where
  body := body_keeps
  step hi ha h := ⟨hi.user.step ha h, hi.session.step hi.user ha h⟩
  env hi h := by
    cases h
    exact ⟨hi.user.env _, by rw [World.env_sessions]; exact hi.session⟩
  crash hi := ⟨hi.user.crash _, hi.session⟩

/-- What holds of every state of every run. -/
abbrev Healthy (P : Platform) (S : Service) (init : List User) (s : (system P S).State) : Prop :=
  System.Good (system P S) observe (allowed P) (post P) (Inv P init) s

theorem healthy_run {w : World} (hw : w.Initial) {as : List (Action Choice Call Env)}
    {s : (system P S).State} (h : (system P S).run ((system P S).init w) as = some s) :
    Healthy P S w.db.committed.users s :=
  (System.Good.init (Inv.init hw)).run (sound _) h

/-! ## A small installation -/

def ascii (s : String) : Bytes := s.toList.map fun c => UInt8.ofNat c.toNat

def unascii (b : Bytes) : String := String.ofList (b.map fun x => Char.ofNat x.toNat)

def JWTTokenPurpose.text : JWTTokenPurpose → String
  | .access => "access"
  | .refresh => "refresh"
  | .other purpose => purpose

def decimal (b : Bytes) : ℤ :=
  (b.filter fun x => 48 ≤ x && x ≤ 57).foldl (fun n x => 10 * n + (x.toNat - 48 : ℕ)) 0

/-- The JSON of claims whose strings need no escapes, with one audience. -/
def claimsJSON (c : JWTClaims) : Bytes :=
  ascii "\x7b\"iss\":\"" ++ ascii c.issuer ++ ascii "\",\"sub\":\"" ++ ascii c.subject ++
    ascii "\",\"aud\":[\"" ++ ascii (c.audience.headD "") ++ ascii "\"],\"exp\":" ++
    ascii (toString (c.expiresAt.getD 0).toNat) ++ ascii ",\"iat\":" ++
    ascii (toString (c.issuedAt.getD 0).toNat) ++ ascii ",\"jti\":\"" ++ ascii c.id ++
    ascii "\",\"kid\":\"" ++ ascii c.kid ++ ascii "\",\"token_use\":\"" ++ ascii c.tokenUse.text ++
    ascii "\",\"sid\":\"" ++ ascii c.sessionID ++ ascii "\"\x7d"

/-- The claims in such a text, from its parts between quotation marks. -/
def parseClaims (b : Bytes) : Option JWTClaims :=
  let parts := b.splitOn 34
  if parts.length ≠ 33 then none
  else some {
    id := unascii (parts.getD 19 [])
    subject := unascii (parts.getD 7 [])
    issuer := unascii (parts.getD 3 [])
    audience := [unascii (parts.getD 11 [])]
    issuedAt := some (decimal (parts.getD 16 []))
    notBefore := none
    expiresAt := some (decimal (parts.getD 14 []))
    kid := unascii (parts.getD 23 [])
    tokenUse := if parts.getD 27 [] = ascii "access" then .access else .refresh
    sessionID := unascii (parts.getD 31 []) }

def headerJSON : Bytes := ascii "\x7b\"alg\":\"HS256\",\"typ\":\"JWT\"\x7d"

/-- A checksum of the secret and the input, in place of HMAC-SHA-256. -/
def checksum (secret : String) (input : Bytes) : Bytes :=
  let sum := (ascii secret ++ input).foldl (fun h x => (257 * h + x.toNat + 1) % 2 ^ 64) 5381
  (List.range 8).map fun i => UInt8.ofNat (sum / 256 ^ i)

def smallJWT : JWTFormat where
  header := headerJSON
  headerAlg b := if b = headerJSON then some "HS256" else none
  marshalClaims := claimsJSON
  unmarshalClaims := parseClaims
  mac := checksum

def smallPlatform : Platform where
  jwt := smallJWT.library
  uuid := UUID.formats
  emailEq a b := a = b
  validateEmail e := if e.toList.contains '@' then none else some (.leaf "email")
  validatePassword _ _ := none
  compare hash password := password = .utf8 hash
  sha256Hex s := s

def smallService : Service where
  jwtSecrets := [⟨"k1", "secret"⟩]
  jwtIssuer := "go42"
  jwtAudience := ["go42"]
  accessTokenTTL := 60 * 1000000000
  refreshTokenTTL := 3600 * 1000000000
  minPasswordEntropyBits := 0
  rateLimiterEnabled := false
  loginAccountRequests := 5
  loginWindow := 60 * 1000000000
  refreshSessionRequests := 5
  refreshWindow := 60 * 1000000000

/-- The identifier that ends in digit `n`. -/
def smallUUID (n : Char) : UUID := String.ofList (List.replicate 31 '0' ++ [n])

def ann : User where
  id := 1
  uuid := smallUUID '1'
  email := "ann@go42.dev"
  password := some "correct horse"
  credentialVersion := 1
  status := .active
  updatedAt := 0
  deletedAt := none
  roles := []

/-- One user and nothing else. -/
def smallWorld : World where
  db := ⟨⟨[ann], [⟨1, "user", none, []⟩], [], [], [], []⟩, ∅⟩
  clock := 1000000000

theorem smallWorld_initial : smallWorld.Initial where
  keys := by decide
  versions := by decide
  sessions := rfl
  txs _ := rfl

/-- The states that a run of the small installation ends in. -/
def smallRun (as : List (Action Choice Call Env)) :
    Option (system smallPlatform smallService).State :=
  (system smallPlatform smallService).run ((system smallPlatform smallService).init smallWorld) as

/-- `n` steps of `T` that go ahead. -/
def steps (T n : ℕ) : List (Action Choice Call Env) := List.replicate n (.step T (.run false 7))

/-- A login by thread `T` that opens session `sid` with refresh token `rid`. -/
def loginSteps (T : ℕ) (sid rid : Char) : List (Action Choice Call Env) :=
  steps T 3 ++ [.step T (.uuid (smallUUID sid)), .step T (.uuid (smallUUID rid))] ++ steps T 2 ++
    [.step T (.uuid (smallUUID 'e'))] ++ steps T 3

def annLogin : Call := .login (.utf8 "ann@go42.dev") (.utf8 "correct horse")

/-- A token that is issued at the start. -/
def annToken (purpose : JWTTokenPurpose) (sid id : Char) (expiresAt : ℤ) : JWT :=
  smallJWT.library.signedString "secret" {
    id := smallUUID id
    subject := ann.uuid
    issuer := "go42"
    audience := ["go42"]
    issuedAt := some 1
    notBefore := none
    expiresAt := some expiresAt
    kid := "k1"
    tokenUse := purpose
    sessionID := smallUUID sid }

end Go42.Auth
