-- SUMMARY: Minting and parsing of tokens across configurations: which of the tokens that one service mints another one accepts, and when.
import Go42.Auth.Runs
import Go42.Lib.GoInt

/-!
# Minting and parsing

The service that parses has the issuer and the audiences of the one that mints, and any list
of secrets: those in use before, during or after a rotation.
-/

namespace Go42.Auth

/-! ## Configurations -/

/-- An entry of `jwtSecrets`. -/
def jwtSecret (sha256Hex : String → String) (secret : String) : JWTSecret :=
  ⟨sha256Hex secret, secret⟩

/-- `WithJWTSecrets`. -/
def Service.withJWTSecrets (S : Service) (sha256Hex : String → String) (secrets : List String) :
    Service :=
  { S with jwtSecrets := S.jwtSecrets ++ secrets.map (jwtSecret sha256Hex) }

theorem Service.jwtSecrets_withJWTSecrets {S : Service} {sha256Hex : String → String}
    {secrets : List String} (hS : S.jwtSecrets = []) :
    (S.withJWTSecrets sha256Hex secrets).jwtSecrets = secrets.map (jwtSecret sha256Hex) := by
  rw [Service.withJWTSecrets, hS, List.nil_append]

/-! ## The machine -/

inductive CodecChoice where
  | run
  | time (t : ℤ)
  | uuid (u : UUID)
  | fail (err : GoError)

/-- The clock, the generator of UUIDs and the library, and nothing else. -/
def codec (P : Platform) : Machine Cmd Res CodecChoice Unit ℤ := fun _ _ c ch now =>
  match c, ch with
  | .now, .time t => if now ≤ t then some (.returned t, (), t) else none
  | .newUUID, .uuid u => if P.uuid.validate u then some (.returned u, (), now) else none
  | .signedString secret claims, .run =>
    some (.returned (P.jwt.signedString secret claims), (), now)
  | .signedString _ _, .fail err => some (.failed err, (), now)
  | .parseWithClaims opts token, .run =>
    some (.ofExcept (P.jwt.parseWithClaims opts now token), (), now)
  | _, _ => none

/-- `parseJWTToken` returns these claims at time `t`. -/
def Verifies (P : Platform) (V : Service) (token : JWT) (expectedPurpose : JWTTokenPurpose) (t : ℤ)
    (claims : JWTClaims) : Prop :=
  ∃ log, (parseJWTToken P V token expectedPurpose).Runs (codec P) 0 [] t (.returned claims) log t

/-! ## One token -/

section Token

variable {lib : JWTLib} {fmt : JWTFormat}

theorem JWTLib.Documented.canonical_signedString (hlib : lib.Documented fmt) (hfmt : fmt.Lawful)
    (secret : String) (claims : JWTClaims) : JWT.canonical (lib.signedString secret claims) = true := by
  rw [hlib.signedString_eq]
  exact JWT.canonical_joined hfmt.header_ne (hfmt.marshal_ne _) (hfmt.mac_ne _ _)

/-- What is left to check for a token that was signed: that its secret is known, and the
registered claims. -/
theorem JWTLib.Documented.parseWithClaims_signedString (hlib : lib.Documented fmt)
    (hfmt : fmt.Lawful) {opts : ParserOptions} (hmethods : opts.validMethods = ["HS256"]) (now : ℤ)
    (secret : String) {claims claims' : JWTClaims}
    (huse : claims.tokenUse = .access ∨ claims.tokenUse = .refresh) :
    lib.parseWithClaims opts now (lib.signedString secret claims) = .ok claims' ↔
      claims' = claims ∧ ValidClaims opts now claims ∧
        ∃ key, opts.keyFunc claims = .ok key ∧
          fmt.mac key (JWT.signingInput fmt.header (fmt.marshalClaims claims)) =
            fmt.mac secret (JWT.signingInput fmt.header (fmt.marshalClaims claims)) := by
  rw [hlib.signedString_eq, hlib.parseWithClaims_joined hmethods, hfmt.unmarshal_marshal claims huse]
  constructor
  · rintro ⟨-, hclaims, hkey, hvalid⟩
    cases hclaims
    exact ⟨rfl, hvalid, hkey⟩
  · rintro ⟨rfl, hvalid, hkey⟩
    exact ⟨hfmt.header_alg, rfl, hkey, hvalid⟩

/-- The claims of a service for a parser that expects its issuer and its audiences. -/
theorem validClaims_iff {opts : ParserOptions} {now iat exp : ℤ} {claims : JWTClaims}
    (hissuer : claims.issuer = opts.issuer) (haudience : claims.audience = opts.audience)
    (hempty : "" ∉ opts.audience) (hbefore : claims.notBefore = none)
    (hiat : claims.issuedAt = some iat) (hissued : iat * nanosPerSecond ≤ now)
    (hexp : claims.expiresAt = some exp) :
    ValidClaims opts now claims ↔ now < exp * nanosPerSecond := by
  refine ⟨fun h => h.expiresAt exp hexp, fun hnow => ?_⟩
  constructor
  · intro _
    simp [hexp]
  · intro t ht
    cases hexp.symm.trans ht
    exact hnow
  · intro t ht
    cases hbefore.symm.trans ht
  · intro _ t ht
    cases hiat.symm.trans ht
    exact hissued
  · intro hne
    rw [haudience]
    refine ⟨fun hsingle => hempty (hsingle ▸ List.mem_singleton_self _), ?_⟩
    obtain ⟨a, ha⟩ := List.exists_mem_of_ne_nil _ hne
    exact ⟨a, ha, ha⟩
  · exact fun _ => hissuer

end Token

/-! ## Configurations that parse -/

variable {P : Platform} {fmt : JWTFormat} {sha256Hex : String → String} {S V : Service}

theorem checkJWTConfiguration_ok {S : Service} : checkJWTConfiguration S = .ok () ↔
    S.jwtSecrets ≠ [] ∧ S.jwtIssuer ≠ "" ∧ S.jwtAudience ≠ [] ∧ 0 < S.accessTokenTTL ∧
      0 < S.refreshTokenTTL ∧ (∀ s ∈ S.jwtSecrets, s.secret ≠ "") ∧ "" ∉ S.jwtAudience := by
  unfold checkJWTConfiguration
  split
  case isTrue h =>
    refine ⟨fun hok => (nomatch hok), ?_⟩
    rintro ⟨hsecrets, hissuer, haudience, haccess, hrefresh, -, -⟩
    rcases h with h | h | h | h | h
    · exact absurd h hsecrets
    · exact absurd h hissuer
    · exact absurd h haudience
    · omega
    · omega
  case isFalse h =>
    have hcomplete : S.jwtSecrets ≠ [] ∧ S.jwtIssuer ≠ "" ∧ S.jwtAudience ≠ [] ∧
        0 < S.accessTokenTTL ∧ 0 < S.refreshTokenTTL := by
      simpa only [not_or, Int.not_le] using h
    split
    case isTrue h' =>
      refine ⟨fun hok => (nomatch hok), ?_⟩
      rintro ⟨-, -, -, -, -, hnonempty, -⟩
      obtain ⟨s, hs, hempty⟩ := List.any_eq_true.mp h'
      exact absurd (of_decide_eq_true hempty) (hnonempty s hs)
    case isFalse h' =>
      have hnonempty : ∀ s ∈ S.jwtSecrets, s.secret ≠ "" := by simpa using h'
      split
      case isTrue h'' =>
        refine ⟨fun hok => (nomatch hok), ?_⟩
        rintro ⟨-, -, -, -, -, -, hempty⟩
        exact absurd (List.contains_iff_mem.mp h'') hempty
      case isFalse h'' =>
        refine ⟨fun _ => ?_, fun _ => rfl⟩
        obtain ⟨hsecrets, hissuer, haudience, haccess, hrefresh⟩ := hcomplete
        exact ⟨hsecrets, hissuer, haudience, haccess, hrefresh, hnonempty,
          fun hmem => h'' (List.contains_iff_mem.mpr hmem)⟩

/-- With a hash that has no collisions, a key id names one secret. -/
theorem find_jwtSecret (hsha : Function.Injective sha256Hex) (secret : String) (keys : List String) :
    (keys.map (jwtSecret sha256Hex)).find? (fun s => sha256Hex secret == s.sha256) =
      if secret ∈ keys then some (jwtSecret sha256Hex secret) else none := by
  induction keys with
  | nil => rfl
  | cons key keys ih =>
      rw [List.map_cons, List.find?_cons]
      by_cases heq : secret = key
      · subst heq
        simp [jwtSecret]
      · have hne : (sha256Hex secret == (jwtSecret sha256Hex key).sha256) = false := by
          simpa [jwtSecret] using fun h => heq (hsha h)
        rw [hne, ih]
        simp [heq]

theorem keyFunc_withJWTSecrets (hsha : Function.Injective sha256Hex) (hV : V.jwtSecrets = [])
    (keys : List String) {secret : String} {claims : JWTClaims}
    (hkid : claims.kid = sha256Hex secret) :
    keyFunc (V.withJWTSecrets sha256Hex keys) claims =
      if secret ∈ keys then .ok secret else .error errInvalidToken := by
  rw [keyFunc, Service.jwtSecrets_withJWTSecrets hV, hkid, find_jwtSecret hsha]
  by_cases hmem : secret ∈ keys
  · rw [if_pos hmem, if_pos hmem]
    rfl
  · rw [if_neg hmem, if_neg hmem]

/-- The claims that `signJWT` signs. -/
def signedClaims (S : Service) (kid userUUID sessionID tokenID : String) (purpose : JWTTokenPurpose)
    (now expiresAt : ℤ) : JWTClaims where
  id := tokenID
  subject := userUUID
  issuer := S.jwtIssuer
  audience := S.jwtAudience
  issuedAt := some (now / nanosPerSecond)
  notBefore := none
  expiresAt := some (expiresAt / nanosPerSecond)
  kid := kid
  tokenUse := purpose
  sessionID := sessionID

theorem signJWT_eq {secret : JWTSecret} (h : S.jwtSecrets.getLast? = some secret)
    (userUUID sessionID tokenID : String) (purpose : JWTTokenPurpose) (now expiresAt : ℤ) :
    signJWT S userUUID sessionID tokenID purpose now expiresAt =
      call (.signedString secret.secret
        (signedClaims S secret.sha256 userUUID sessionID tokenID purpose now expiresAt)) := by
  unfold signJWT
  rw [h]
  rfl

/-! ## Parsing -/

theorem codec_parseWithClaims {log : Log Cmd Res Unit} {opts : ParserOptions} {token : JWT}
    {ch : CodecChoice} {now now' : ℤ} {e : Unit} {o : Outcome JWTClaims}
    (h : codec P log 0 (.parseWithClaims opts token) ch now = some (o, e, now')) :
    o = .ofExcept (P.jwt.parseWithClaims opts now token) ∧ now' = now := by
  cases ch <;> cases h
  exact ⟨rfl, rfl⟩

/-- `parseJWTToken` of a token that was signed. -/
theorem accepts_signedString (hlib : P.jwt.Documented fmt) (hfmt : fmt.Lawful) {secret : String}
    {claims claims' : JWTClaims}
    (hsize : (P.jwt.signedString secret claims).length ≤ maxJWTTokenBytes)
    {expectedPurpose : JWTTokenPurpose} {t : ℤ} :
    Verifies P V (P.jwt.signedString secret claims) expectedPurpose t claims' ↔
      (expectedPurpose = .access ∨ expectedPurpose = .refresh) ∧ checkJWTConfiguration V = .ok () ∧
      P.jwt.parseWithClaims (parserOptions V) t (P.jwt.signedString secret claims) =
        .ok claims' ∧ acceptableClaims P claims' expectedPurpose = true := by
  have hformat : ¬(maxJWTTokenBytes < (P.jwt.signedString secret claims).length ∨
      (!JWT.canonical (P.jwt.signedString secret claims)) = true) := by
    rw [hlib.canonical_signedString hfmt]
    simpa using hsize
  unfold Verifies parseJWTToken
  by_cases hpurpose : expectedPurpose ≠ .access ∧ expectedPurpose ≠ .refresh
  · rw [if_pos hpurpose]
    constructor
    · rintro ⟨log, ⟨⟩⟩
    · rintro ⟨h | h, -⟩
      · exact absurd h hpurpose.1
      · exact absurd h hpurpose.2
  · rw [if_neg hpurpose, if_neg hformat]
    have hpurpose' : expectedPurpose = .access ∨ expectedPurpose = .refresh := by
      by_contra hother
      exact hpurpose (not_or.mp hother)
    cases hconf : checkJWTConfiguration V with
    | error err =>
        constructor
        · rintro ⟨log, ⟨⟩⟩
        · rintro ⟨-, ⟨⟩, -⟩
    | ok u =>
        constructor
        · rintro ⟨log, hrun⟩
          obtain ⟨parsed, log₁, t₁, hparse, hrest⟩ := Prog.runs_bind_returned.mp hrun
          obtain ⟨ch, e, hM, -⟩ := Prog.runs_call.mp (Prog.runs_mapErr_returned.mp hparse)
          obtain ⟨hparsed, rfl⟩ := codec_parseWithClaims hM
          have hok : P.jwt.parseWithClaims (parserOptions V) t₁
              (P.jwt.signedString secret claims) = .ok parsed := by
            cases hresult : P.jwt.parseWithClaims (parserOptions V) t₁
                (P.jwt.signedString secret claims) with
            | error err => rw [hresult] at hparsed; cases hparsed
            | ok parsed' => rw [hresult] at hparsed; cases hparsed; rfl
          split at hrest
          · next hacceptable =>
            cases hrest
            exact ⟨hpurpose', rfl, hok, hacceptable⟩
          · cases hrest
        · rintro ⟨-, -, hparse, hacceptable⟩
          refine ⟨[⟨0, .parseWithClaims (parserOptions V) (P.jwt.signedString secret claims),
            .returned claims', ()⟩], ?_⟩
          apply Prog.runs_bind_returned.mpr
          refine ⟨claims', _, t, Prog.runs_mapErr_returned.mpr
            (Prog.runs_call.mpr ⟨.run, (), ?_, rfl⟩), ?_⟩
          · rw [codec, hparse]
            rfl
          · rw [if_pos hacceptable]
            exact .done

/-! ## Minting -/

/-- What `generateTokens` returns at time `now`. -/
def Minted (P : Platform) (S : Service) (secret : JWTSecret)
    (userUUID sessionID accessTokenID refreshTokenID : String) (now refreshExpiresAt : ℤ)
    (tokens : Tokens) : Prop :=
  tokens.accessToken = P.jwt.signedString secret.secret (signedClaims S secret.sha256 userUUID
      sessionID accessTokenID .access now (now + S.accessTokenTTL)) ∧
    tokens.refreshToken = P.jwt.signedString secret.secret (signedClaims S secret.sha256 userUUID
      sessionID refreshTokenID .refresh now refreshExpiresAt)

theorem codec_now {log : Log Cmd Res Unit} {ch : CodecChoice} {now now' t : ℤ} {e : Unit}
    (h : codec P log 0 .now ch now = some (.returned t, e, now')) : now ≤ t ∧ now' = t := by
  cases ch with
  | time t' =>
      unfold codec at h
      dsimp only at h
      split at h
      · next hle => cases h; exact ⟨hle, rfl⟩
      · cases h
  | run => cases h
  | uuid u => cases h
  | fail err => cases h

theorem codec_newUUID {log : Log Cmd Res Unit} {ch : CodecChoice} {now now' : ℤ} {u : UUID} {e : Unit}
    (h : codec P log 0 .newUUID ch now = some (.returned u, e, now')) :
    P.uuid.validate u = true ∧ now' = now := by
  cases ch with
  | uuid u' =>
      unfold codec at h
      dsimp only at h
      split at h
      · next hvalid => cases h; exact ⟨hvalid, rfl⟩
      · cases h
  | run => cases h
  | time t => cases h
  | fail err => cases h

theorem codec_signedString {log : Log Cmd Res Unit} {secret : String} {claims : JWTClaims}
    {ch : CodecChoice} {now now' : ℤ} {e : Unit} {token : JWT}
    (h : codec P log 0 (.signedString secret claims) ch now = some (.returned token, e, now')) :
    token = P.jwt.signedString secret claims ∧ now' = now := by
  cases ch <;> cases h
  exact ⟨rfl, rfl⟩

/-- The newest secret signs both tokens, at one time that the clock showed meanwhile. -/
theorem generateTokens_runs {secret : JWTSecret} (hsecret : S.jwtSecrets.getLast? = some secret)
    {userUUID sessionID refreshTokenID : String} {refreshExpiresAt t t' : ℤ} {tokens : Tokens}
    {log log' : Log Cmd Res Unit}
    (h : (generateTokens S userUUID sessionID refreshTokenID refreshExpiresAt).Runs (codec P) 0 log
      t (.returned tokens) log' t') :
    t ≤ t' ∧ ∃ accessTokenID, P.uuid.validate accessTokenID = true ∧
      Minted P S secret userUUID sessionID accessTokenID refreshTokenID t' refreshExpiresAt
        tokens := by
  unfold generateTokens at h
  cases hconf : checkJWTConfiguration S with
  | error err => rw [hconf] at h; cases h
  | ok u =>
      rw [hconf] at h
      obtain ⟨now, log₁, t₁, hnow, h⟩ := Prog.runs_bind_returned.mp h
      obtain ⟨accessTokenID, log₂, t₂, huuid, h⟩ := Prog.runs_bind_returned.mp h
      obtain ⟨accessToken, log₃, t₃, haccess, h⟩ := Prog.runs_bind_returned.mp h
      obtain ⟨refreshToken, log₄, t₄, hrefresh, h⟩ := Prog.runs_bind_returned.mp h
      rw [signJWT_eq hsecret] at haccess hrefresh
      obtain ⟨chNow, eNow, hnow, -⟩ := Prog.runs_call.mp hnow
      obtain ⟨chUUID, eUUID, huuid, -⟩ := Prog.runs_call.mp huuid
      obtain ⟨chAccess, eAccess, haccess, -⟩ := Prog.runs_call.mp haccess
      obtain ⟨chRefresh, eRefresh, hrefresh, -⟩ := Prog.runs_call.mp hrefresh
      obtain ⟨hle, rfl⟩ := codec_now hnow
      obtain ⟨hvalid, rfl⟩ := codec_newUUID huuid
      obtain ⟨rfl, rfl⟩ := codec_signedString haccess
      obtain ⟨rfl, rfl⟩ := codec_signedString hrefresh
      cases h
      exact ⟨hle, accessTokenID, hvalid, rfl, rfl⟩

/-! ## Main results -/

/-- The configuration that parses is complete when it has a secret. -/
theorem checkJWTConfiguration_verifier {secrets keys : List String}
    (hconf : checkJWTConfiguration (S.withJWTSecrets sha256Hex secrets) = .ok ())
    (hV : V.jwtSecrets = []) (hissuer : V.jwtIssuer = S.jwtIssuer)
    (haudience : V.jwtAudience = S.jwtAudience)
    (hTTL : 0 < V.accessTokenTTL ∧ 0 < V.refreshTokenTTL) (hkeys : ∀ key ∈ keys, key ≠ "")
    (hsome : keys ≠ []) : checkJWTConfiguration (V.withJWTSecrets sha256Hex keys) = .ok () := by
  obtain ⟨-, hissuer_ne, haudience_ne, -, -, -, hempty⟩ := checkJWTConfiguration_ok.mp hconf
  apply checkJWTConfiguration_ok.mpr
  refine ⟨?_, hissuer ▸ hissuer_ne, haudience ▸ haudience_ne, hTTL.1, hTTL.2, ?_, haudience ▸ hempty⟩
  · rw [Service.jwtSecrets_withJWTSecrets hV]
    exact mt List.map_eq_nil_iff.mp hsome
  · rw [Service.jwtSecrets_withJWTSecrets hV, List.forall_mem_map]
    exact hkeys

/-- A token with the claims that a service signs. -/
theorem accepts_signed_iff (hlib : P.jwt.Documented fmt) (hfmt : fmt.Lawful) (hsha : Function.Injective sha256Hex)
    {secrets keys : List String} (hV : V.jwtSecrets = [])
    (hconf : checkJWTConfiguration (S.withJWTSecrets sha256Hex secrets) = .ok ())
    (hissuer : V.jwtIssuer = S.jwtIssuer) (haudience : V.jwtAudience = S.jwtAudience)
    (hTTL : 0 < V.accessTokenTTL ∧ 0 < V.refreshTokenTTL) (hkeys : ∀ key ∈ keys, key ≠ "")
    {secret userUUID sessionID tokenID : String} (huser : P.uuid.validate userUUID = true)
    (hsession : P.uuid.validate sessionID = true) (hid : P.uuid.validate tokenID = true)
    {purpose expectedPurpose : JWTTokenPurpose} (hpurpose : purpose = .access ∨ purpose = .refresh)
    {now expiresAt t : ℤ} {claims claims' : JWTClaims}
    (hclaims : claims = signedClaims (S.withJWTSecrets sha256Hex secrets) (sha256Hex secret) userUUID
      sessionID tokenID purpose now expiresAt)
    (hsize : (P.jwt.signedString secret claims).length ≤ maxJWTTokenBytes) (ht : now ≤ t) :
    Verifies P (V.withJWTSecrets sha256Hex keys) (P.jwt.signedString secret claims)
        expectedPurpose t claims' ↔
      claims' = claims ∧ secret ∈ keys ∧ t < truncateToSecond expiresAt ∧
        expectedPurpose = purpose := by
  obtain ⟨-, -, -, -, -, -, hempty⟩ := checkJWTConfiguration_ok.mp hconf
  have hvalid : ValidClaims (parserOptions (V.withJWTSecrets sha256Hex keys)) t claims ↔
      t < truncateToSecond expiresAt := by
    have hissued : now / nanosPerSecond * nanosPerSecond ≤ t := by
      unfold nanosPerSecond
      omega
    have hempty' : "" ∉ V.jwtAudience := haudience ▸ hempty
    subst hclaims
    exact validClaims_iff hissuer.symm haudience.symm hempty' rfl rfl hissued rfl
  have hacceptable : acceptableClaims P claims expectedPurpose = true ↔ expectedPurpose = purpose := by
    simp [acceptableClaims, hclaims, signedClaims, huser, hsession, hid, eq_comm]
  have hkeyFunc : (parserOptions (V.withJWTSecrets sha256Hex keys)).keyFunc claims =
      if secret ∈ keys then .ok secret else .error errInvalidToken :=
    keyFunc_withJWTSecrets hsha hV keys (by rw [hclaims]; rfl)
  have huse : claims.tokenUse = .access ∨ claims.tokenUse = .refresh := hclaims ▸ hpurpose
  rw [accepts_signedString hlib hfmt hsize, hlib.parseWithClaims_signedString hfmt rfl _ _ huse, hvalid,
    hkeyFunc]
  constructor
  · rintro ⟨-, -, ⟨rfl, hexp, key, hkey, -⟩, haccept⟩
    refine ⟨rfl, ?_, hexp, hacceptable.mp haccept⟩
    by_contra hmem
    rw [if_neg hmem] at hkey
    cases hkey
  · rintro ⟨rfl, hmem, hexp, rfl⟩
    refine ⟨hpurpose, ?_, ⟨rfl, hexp, secret, if_pos hmem, rfl⟩, hacceptable.mpr rfl⟩
    exact checkJWTConfiguration_verifier hconf hV hissuer haudience hTTL hkeys
      (List.ne_nil_of_mem hmem)

/-- Each of the two tokens is accepted, with the claims that were signed, exactly while its whole
second of expiry has not come, by services that know the secret, for the purpose it has. -/
theorem minted_tokens_accepted_iff (hlib : P.jwt.Documented fmt) (hfmt : fmt.Lawful)
    (hsha : Function.Injective sha256Hex)
    {secrets keys : List String} (hS : S.jwtSecrets = []) (hV : V.jwtSecrets = [])
    (hconf : checkJWTConfiguration (S.withJWTSecrets sha256Hex secrets) = .ok ())
    (hissuer : V.jwtIssuer = S.jwtIssuer) (haudience : V.jwtAudience = S.jwtAudience)
    (hTTL : 0 < V.accessTokenTTL ∧ 0 < V.refreshTokenTTL) (hkeys : ∀ key ∈ keys, key ≠ "")
    {userUUID sessionID refreshTokenID : String} (huser : P.uuid.validate userUUID = true)
    (hsession : P.uuid.validate sessionID = true) (hrefresh : P.uuid.validate refreshTokenID = true)
    {refreshExpiresAt t₀ now : ℤ} {tokens : Tokens} {log log' : Log Cmd Res Unit}
    (hrun : (generateTokens (S.withJWTSecrets sha256Hex secrets) userUUID sessionID refreshTokenID
      refreshExpiresAt).Runs (codec P) 0 log t₀ (.returned tokens) log' now) :
    ∃ secret accessTokenID, secrets.getLast? = some secret ∧
      ∀ token claims expiresAt,
        (token = tokens.accessToken ∧ expiresAt = now + S.accessTokenTTL ∧
            claims = signedClaims (S.withJWTSecrets sha256Hex secrets) (sha256Hex secret) userUUID
              sessionID accessTokenID .access now expiresAt ∨
          token = tokens.refreshToken ∧ expiresAt = refreshExpiresAt ∧
            claims = signedClaims (S.withJWTSecrets sha256Hex secrets) (sha256Hex secret) userUUID
              sessionID refreshTokenID .refresh now expiresAt) →
        token.length ≤ maxJWTTokenBytes → ∀ t, now ≤ t → ∀ expectedPurpose claims',
          (Verifies P (V.withJWTSecrets sha256Hex keys) token expectedPurpose t claims' ↔
            claims' = claims ∧ secret ∈ keys ∧ t < truncateToSecond expiresAt ∧
              expectedPurpose = claims.tokenUse) := by
  have hsecrets : (S.withJWTSecrets sha256Hex secrets).jwtSecrets =
      secrets.map (jwtSecret sha256Hex) := Service.jwtSecrets_withJWTSecrets hS
  have hne : secrets ≠ [] := by
    rintro rfl
    exact (checkJWTConfiguration_ok.mp hconf).1 hsecrets
  have hlast : secrets.getLast? = some (secrets.getLast hne) := List.getLast?_eq_some_getLast hne
  have hsigning : (S.withJWTSecrets sha256Hex secrets).jwtSecrets.getLast? =
      some (jwtSecret sha256Hex (secrets.getLast hne)) := by
    rw [hsecrets, List.getLast?_map, hlast]
    rfl
  obtain ⟨-, accessTokenID, haccessID, haccess, hrefreshToken⟩ := generateTokens_runs hsigning hrun
  refine ⟨secrets.getLast hne, accessTokenID, hlast, ?_⟩
  rintro token claims expiresAt (⟨rfl, rfl, hclaims⟩ | ⟨rfl, rfl, hclaims⟩) hsize t ht expectedPurpose
    claims'
  · have htoken : tokens.accessToken = P.jwt.signedString (secrets.getLast hne) claims := by
      rw [haccess, hclaims]
      rfl
    rw [htoken] at hsize ⊢
    rw [accepts_signed_iff hlib hfmt hsha hV hconf hissuer haudience hTTL hkeys huser hsession haccessID
      (.inl rfl) hclaims hsize ht, hclaims]
    rfl
  · have htoken : tokens.refreshToken = P.jwt.signedString (secrets.getLast hne) claims := by
      rw [hrefreshToken, hclaims]
      rfl
    rw [htoken] at hsize ⊢
    rw [accepts_signed_iff hlib hfmt hsha hV hconf hissuer haudience hTTL hkeys huser hsession hrefresh
      (.inr rfl) hclaims hsize ht, hclaims]
    rfl

/-! ### A rotation -/

/-- The small installation before it has a secret. -/
def bareService : Service := { smallService with jwtSecrets := [] }

/-- The claims of its first two tokens. -/
def firstClaims (purpose : JWTTokenPurpose) : JWTClaims :=
  signedClaims (bareService.withJWTSecrets id ["old"]) "old" (smallUUID '1') (smallUUID '2')
    (smallUUID (if purpose = .access then 'a' else 'b')) purpose 0
    (if purpose = .access then 60000000000 else 3600000000000)

def charBytes (c : Char) : Bytes :=
  [1, UInt8.ofNat (c.toNat / 65536), UInt8.ofNat (c.toNat / 256), UInt8.ofNat c.toNat]

/-- Four bytes for a character, and a zero at the end of a string. -/
def stringsBytes : List String → Bytes
  | [] => []
  | s :: ss => s.toList.flatMap charBytes ++ 0 :: stringsBytes ss

/-- The strings in `b`, when `cs` was read of the first one. -/
def bytesStrings (cs : List Char) : Bytes → List String
  | 1 :: x :: y :: z :: b =>
    bytesStrings (cs ++ [Char.ofNat (65536 * x.toNat + 256 * y.toNat + z.toNat)]) b
  | _ :: b => String.ofList cs :: bytesStrings [] b
  | [] => []

theorem bytesStrings_chars (cs' : List Char) (b : Bytes) :
    ∀ cs, bytesStrings cs (cs'.flatMap charBytes ++ b) = bytesStrings (cs ++ cs') b := by
  induction cs' with
  | nil => simp
  | cons c cs' ih =>
      intro cs
      have hc : 65536 * (UInt8.ofNat (c.toNat / 65536)).toNat +
          256 * (UInt8.ofNat (c.toNat / 256)).toNat + (UInt8.ofNat c.toNat).toNat = c.toNat := by
        have hlt : c.toNat < 1114112 := by
          have hvalid : c.toNat.isValidChar := c.valid
          rcases hvalid with h | ⟨-, h⟩ <;> omega
        simp only [UInt8.toNat_ofNat']
        omega
      rw [List.flatMap_cons, charBytes]
      simp only [List.cons_append, List.nil_append]
      rw [bytesStrings, hc, Char.ofNat_toNat, ih, List.append_assoc]
      rfl

theorem bytesStrings_stringsBytes (ss : List String) : bytesStrings [] (stringsBytes ss) = ss := by
  induction ss with
  | nil => rfl
  | cons s ss ih =>
      rw [stringsBytes, bytesStrings_chars, bytesStrings, ih]
      · simp
      · exact fun _ _ _ _ h => absurd h (by decide)

def claimsStrings (c : JWTClaims) : List String :=
  c.id :: c.subject :: c.issuer :: c.kid :: c.sessionID :: c.tokenUse.text ::
    (c.issuedAt.map formatInt).getD "" :: (c.notBefore.map formatInt).getD "" ::
    (c.expiresAt.map formatInt).getD "" :: c.audience

def stringsClaims : List String → Option JWTClaims
  | id :: subject :: issuer :: kid :: sid :: use :: iat :: nbf :: exp :: audience => some {
      id := id
      subject := subject
      issuer := issuer
      audience := audience
      issuedAt := parseDecimal iat
      notBefore := parseDecimal nbf
      expiresAt := parseDecimal exp
      kid := kid
      tokenUse := if use = "access" then .access else .refresh
      sessionID := sid }
  | _ => none

theorem stringsClaims_claimsStrings {c : JWTClaims} (huse : c.tokenUse = .access ∨ c.tokenUse = .refresh) :
    stringsClaims (claimsStrings c) = some c := by
  have hdate (o : Option ℤ) : parseDecimal ((o.map formatInt).getD "") = o := by
    cases o with
    | none => rfl
    | some t => exact parseDecimal_formatInt t
  have hpurpose : (if c.tokenUse.text = "access" then JWTTokenPurpose.access else .refresh) =
      c.tokenUse := by
    rcases huse with h | h <;> rw [h] <;> rfl
  simp only [claimsStrings, stringsClaims, hdate, hpurpose]

/-- JSON, and strings in bytes for claims that would not read back from it. -/
@[irreducible] def marshalClaims (c : JWTClaims) : Bytes :=
  if parseClaims (claimsJSON c) = some c then claimsJSON c else 0 :: stringsBytes (claimsStrings c)

def unmarshalClaims : Bytes → Option JWTClaims
  | 0 :: b => stringsClaims (bytesStrings [] b)
  | b => parseClaims b

/-- A text of claims is an object. -/
theorem claimsJSON_eq (c : JWTClaims) : ∃ b, claimsJSON c = 123 :: b := by
  have hopen : ascii "\x7b\"iss\":\"" = 123 :: ascii "\"iss\":\"" := by decide +kernel
  apply List.head?_eq_some_iff.mp
  simp only [claimsJSON, List.append_assoc]
  rw [hopen]
  rfl

theorem unmarshalClaims_marshalClaims {c : JWTClaims}
    (huse : c.tokenUse = .access ∨ c.tokenUse = .refresh) :
    unmarshalClaims (marshalClaims c) = some c := by
  unfold marshalClaims
  by_cases hreads : parseClaims (claimsJSON c) = some c
  · rw [if_pos hreads]
    obtain ⟨b, hb⟩ := claimsJSON_eq c
    rw [hb] at hreads ⊢
    exact hreads
  · rw [if_neg hreads, unmarshalClaims, bytesStrings_stringsBytes, stringsClaims_claimsStrings huse]

example : marshalClaims (firstClaims .access) = claimsJSON (firstClaims .access) := by decide +kernel

theorem marshalClaims_ne (c : JWTClaims) : marshalClaims c ≠ [] := by
  unfold marshalClaims
  by_cases hreads : parseClaims (claimsJSON c) = some c
  · rw [if_pos hreads]
    obtain ⟨b, hb⟩ := claimsJSON_eq c
    simp [hb]
  · rw [if_neg hreads]
    simp

def rotationJWT : JWTFormat :=
  { smallJWT with marshalClaims := marshalClaims, unmarshalClaims := unmarshalClaims }

theorem checksum_ne (secret : String) (input : Bytes) : checksum secret input ≠ [] := by
  simp [checksum]

theorem rotationJWT_marshalClaims : rotationJWT.marshalClaims = marshalClaims := rfl

theorem rotationJWT_unmarshalClaims : rotationJWT.unmarshalClaims = unmarshalClaims := rfl

theorem rotationJWT_lawful : rotationJWT.Lawful where
  unmarshal_marshal _ huse := by
    rw [rotationJWT_marshalClaims, rotationJWT_unmarshalClaims, unmarshalClaims_marshalClaims huse]
  marshal_ne c := by
    rw [rotationJWT_marshalClaims]
    exact marshalClaims_ne c
  header_ne := by decide +kernel
  header_alg := by decide +kernel
  mac_ne secret message := checksum_ne secret message

def rotationPlatform : Platform := { smallPlatform with jwt := rotationJWT.library }

/-- An access token of the old secret while the new one is added: at half a minute it is accepted as
what it is, but not by a service without the old secret, and never as a refresh token. -/
theorem minted_tokens_accepted_iff_rotation :
    ∃ tokens log, (generateTokens (bareService.withJWTSecrets id ["old"]) (smallUUID '1')
        (smallUUID '2') (smallUUID 'b') 3600000000000).Runs (codec rotationPlatform) 0 [] 0
        (.returned tokens) log 0 ∧
      (∃ claims, Verifies rotationPlatform (bareService.withJWTSecrets id ["new", "old"])
        tokens.accessToken .access 30000000000 claims) ∧
      (∀ claims, ¬Verifies rotationPlatform (bareService.withJWTSecrets id ["new"])
        tokens.accessToken .access 30000000000 claims) ∧
      ∀ claims, ¬Verifies rotationPlatform (bareService.withJWTSecrets id ["new", "old"])
        tokens.accessToken .refresh 30000000000 claims := by
  have hrun : ∃ log, (generateTokens (bareService.withJWTSecrets id ["old"]) (smallUUID '1')
      (smallUUID '2') (smallUUID 'b') 3600000000000).Runs (codec rotationPlatform) 0 [] 0
      (.returned ⟨rotationJWT.library.signedString "old" (firstClaims .access),
        rotationJWT.library.signedString "old" (firstClaims .refresh), 60⟩) log 0 :=
    ⟨_, @Prog.runs_of_follow _ _ _ _ _ _ _ _ _ _ _ _ [.time 0, .uuid (smallUUID 'a'), .run, .run] _ _
      (by rfl)⟩
  obtain ⟨log, hrun⟩ := hrun
  have haccepts (keys : List String) (hkeys : ∀ key ∈ keys, key ≠ "") :
      ∃ signed, ∀ expectedPurpose claims,
        Verifies rotationPlatform (bareService.withJWTSecrets id keys)
            (rotationJWT.library.signedString "old" (firstClaims .access)) expectedPurpose 30000000000
            claims ↔ claims = signed ∧ "old" ∈ keys ∧ expectedPurpose = .access := by
    obtain ⟨secret, accessTokenID, hlast, hminted⟩ := minted_tokens_accepted_iff (V := bareService)
      rotationJWT.library_documented rotationJWT_lawful Function.injective_id rfl rfl (by decide) rfl
      rfl (by decide) hkeys (by decide +kernel) (by decide +kernel) (by decide +kernel) hrun
    cases hlast
    have hsigned := hminted _ _ _ (.inl ⟨rfl, rfl, rfl⟩) (by decide +kernel) 30000000000 (by decide)
    refine ⟨signedClaims (bareService.withJWTSecrets id ["old"]) "old" (smallUUID '1')
      (smallUUID '2') accessTokenID .access 0 (0 + bareService.accessTokenTTL),
      fun expectedPurpose claims => (hsigned expectedPurpose claims).trans ?_⟩
    simp [signedClaims, truncateToSecond, nanosPerSecond, bareService, smallService,
      Service.withJWTSecrets]
  obtain ⟨signed, hboth⟩ := haccepts ["new", "old"] (by decide)
  obtain ⟨signed', hnew⟩ := haccepts ["new"] (by decide)
  refine ⟨_, log, hrun, ⟨signed, (hboth _ _).mpr ⟨rfl, by simp, rfl⟩⟩, ?_, ?_⟩
  · intro claims haccept
    have hmem := ((hnew _ _).mp haccept).2.1
    simp at hmem
  · intro claims haccept
    cases ((hboth _ _).mp haccept).2.2

end Go42.Auth
