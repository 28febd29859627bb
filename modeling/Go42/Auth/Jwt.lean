-- SUMMARY: JSON Web Tokens: their canonical spelling, what is documented of the library that signs and parses them, and a library over any JSON and any MAC.
import Go42.Auth.Domain
import Go42.Lib.Base64
import Go42.Tools.RateLimit

/-!
# JSON Web Tokens

The JWT library is a parameter: what it does is documented, not part of the program.
The test of the canonical spelling is the program's own.
-/

namespace Go42.Auth

/-- A secret and the SHA-256 hash that names it in tokens. -/
structure JWTSecret where
  sha256 : String
  secret : String
deriving DecidableEq, Repr

/-- What `ParseWithClaims` gets besides the token. -/
structure ParserOptions where
  keyFunc : JWTClaims → Except GoError String
  validMethods : List String
  issuer : String
  audience : List String
  expirationRequired : Bool
  issuedAt : Bool
  strictDecoding : Bool

/-- The JWT library, on tokens with `JWTClaims`. -/
structure JWTLib where
  /-- `NewWithClaims(SigningMethodHS256, claims).SignedString(secret)`. -/
  signedString : String → JWTClaims → JWT
  /-- `ParseWithClaims`, at a time. -/
  parseWithClaims : ParserOptions → ℤ → JWT → Except GoError JWTClaims
  /-- `ParseUnverified`: the claims a token carries, whoever made it. -/
  parseUnverified : JWT → Option JWTClaims
  /-- Whatever the time and the options, the parser returns the claims the token carries. -/
  parseUnverified_of_ok : ∀ {opts now token claims}, parseWithClaims opts now token = .ok claims →
    parseUnverified token = some claims

namespace JWT

/-- The separator of the three segments. -/
def dot : UInt8 := 46

/-- `canonicalJWT`: three nonempty segments, each the one spelling of its bytes. -/
def canonical (token : JWT) : Bool :=
  let parts := token.splitOn dot
  parts.length == 3 && parts.all fun part =>
    part != [] && match Base64.decodeString part with
      | some decoded => Base64.encodeToString decoded == part
      | none => false

/-! ## The canonical spelling -/

/-- `enc(h) + "." + enc(p) + "." + enc(s)`. -/
def joined (h p s : Bytes) : JWT :=
  Base64.encodeToString h ++ dot :: (Base64.encodeToString p ++ dot :: Base64.encodeToString s)

/-- The bytes of the segments, when all of them decode. -/
def segments (token : JWT) : Option (List Bytes) := (token.splitOn dot).mapM Base64.decodeString

theorem splitOn_joined (h p s : Bytes) :
    (joined h p s).splitOn dot =
      [Base64.encodeToString h, Base64.encodeToString p, Base64.encodeToString s] := by
  have hdot (bs : Bytes) : dot ∉ Base64.encodeToString bs := (Base64.not_mem_encodeToString bs).1
  rw [joined, List.splitOn_append_cons_self_of_not_mem (hdot _),
    List.splitOn_append_cons_self_of_not_mem (hdot _), List.splitOn_eq_singleton (hdot _)]

theorem segments_joined (h p s : Bytes) : segments (joined h p s) = some [h, p, s] := by
  simp [segments, splitOn_joined, Base64.decodeString_encodeToString]

/-- The test of one segment: it is the encoding of some bytes. -/
theorem canonicalSegment_iff {part : Bytes} :
    (part != [] && match Base64.decodeString part with
      | some decoded => Base64.encodeToString decoded == part
      | none => false) = true ↔ ∃ bs, bs ≠ [] ∧ part = Base64.encodeToString bs := by
  constructor
  · intro h
    obtain ⟨hne, hspelling⟩ := Bool.and_eq_true_iff.mp h
    split at hspelling
    case h_1 decoded hdecode =>
      refine ⟨decoded, ?_, (beq_iff_eq.mp hspelling).symm⟩
      intro hnil
      rw [← beq_iff_eq.mp hspelling, hnil] at hne
      exact absurd hne (by decide)
    case h_2 => cases hspelling
  · rintro ⟨bs, hbs, rfl⟩
    rw [Base64.decodeString_encodeToString]
    simpa using Base64.encodeToString_ne_nil hbs

theorem canonical_joined {h p s : Bytes} (hh : h ≠ []) (hp : p ≠ []) (hs : s ≠ []) :
    canonical (joined h p s) = true := by
  unfold canonical
  rw [splitOn_joined, Bool.and_eq_true, List.all_eq_true]
  refine ⟨rfl, ?_⟩
  simp only [List.forall_mem_cons, List.not_mem_nil, false_implies, implies_true, and_true]
  exact ⟨canonicalSegment_iff.mpr ⟨h, hh, rfl⟩, canonicalSegment_iff.mpr ⟨p, hp, rfl⟩,
    canonicalSegment_iff.mpr ⟨s, hs, rfl⟩⟩

theorem joined_of_canonical {token : JWT} (h : canonical token = true) :
    ∃ h p s, h ≠ [] ∧ p ≠ [] ∧ s ≠ [] ∧ token = joined h p s := by
  obtain ⟨hlength, hparts⟩ := Bool.and_eq_true_iff.mp h
  obtain ⟨header, payload, signature, hsplit⟩ := List.length_eq_three.mp (beq_iff_eq.mp hlength)
  rw [hsplit, List.all_eq_true] at hparts
  simp only [List.forall_mem_cons, List.not_mem_nil, false_implies, implies_true, and_true] at hparts
  obtain ⟨hh, hp, hs⟩ := hparts
  obtain ⟨h', hh', rfl⟩ := canonicalSegment_iff.mp hh
  obtain ⟨p', hp', rfl⟩ := canonicalSegment_iff.mp hp
  obtain ⟨s', hs', rfl⟩ := canonicalSegment_iff.mp hs
  refine ⟨h', p', s', hh', hp', hs', ?_⟩
  -- A string is its segments with the separator between them.
  rw [← @List.intercalate_splitOn _ token _ _ dot, hsplit]
  simp [joined, List.intercalate, List.intersperse]

/-- The accepted strings are the joined encodings of three nonempty byte strings, which they
determine and which determine them. -/
theorem canonicalJWT_iff (token : JWT) :
    (canonical token = true ↔ ∃ h p s, h ≠ [] ∧ p ≠ [] ∧ s ≠ [] ∧ token = joined h p s) ∧
      (∀ h p s h' p' s', token = joined h p s → token = joined h' p' s' →
        h = h' ∧ p = p' ∧ s = s') ∧
      ∀ token', canonical token = true → canonical token' = true →
        segments token = segments token' → token = token' := by
  refine ⟨⟨joined_of_canonical, ?_⟩, ?_, ?_⟩
  · rintro ⟨h, p, s, hh, hp, hs, rfl⟩
    exact canonical_joined hh hp hs
  · intro h p s h' p' s' heq heq'
    have hsegments : some [h, p, s] = some [h', p', s'] := by
      rw [← segments_joined, ← segments_joined, ← heq, ← heq']
    simpa using hsegments
  · intro token' hcanonical hcanonical' hsegments
    obtain ⟨h, p, s, -, -, -, rfl⟩ := joined_of_canonical hcanonical
    obtain ⟨h', p', s', -, -, -, rfl⟩ := joined_of_canonical hcanonical'
    rw [segments_joined, segments_joined] at hsegments
    cases hsegments
    rfl

/-! ## The library -/

/-- What a signature is over: `enc(h) + "." + enc(p)`. -/
def signingInput (h p : Bytes) : Bytes :=
  Base64.encodeToString h ++ dot :: Base64.encodeToString p

end JWT

/-- JSON and the message authentication code, as the library uses them. -/
structure JWTFormat where
  /-- The JSON of the header of `NewWithClaims(SigningMethodHS256, …)`. -/
  header : Bytes
  /-- The `alg` of a header, when it is JSON. -/
  headerAlg : Bytes → Option String
  marshalClaims : JWTClaims → Bytes
  unmarshalClaims : Bytes → Option JWTClaims
  /-- HS256. -/
  mac : String → Bytes → Bytes

/-- JSON round trips, and nothing that goes into a token is empty. -/
structure JWTFormat.Lawful (fmt : JWTFormat) : Prop where
  unmarshal_marshal : ∀ claims, claims.tokenUse = .access ∨ claims.tokenUse = .refresh →
    fmt.unmarshalClaims (fmt.marshalClaims claims) = some claims
  marshal_ne : ∀ claims, fmt.marshalClaims claims ≠ []
  header_ne : fmt.header ≠ []
  header_alg : fmt.headerAlg fmt.header = some "HS256"
  mac_ne : ∀ secret message, fmt.mac secret message ≠ []

/-- What the validator of the library documents, option by option. -/
structure ValidClaims (opts : ParserOptions) (now : ℤ) (claims : JWTClaims) : Prop where
  required : opts.expirationRequired = true → claims.expiresAt ≠ none
  expiresAt : ∀ t, claims.expiresAt = some t → now < t * nanosPerSecond
  notBefore : ∀ t, claims.notBefore = some t → t * nanosPerSecond ≤ now
  issuedAt : opts.issuedAt = true → ∀ t, claims.issuedAt = some t → t * nanosPerSecond ≤ now
  audience : opts.audience ≠ [] →
    claims.audience ≠ [""] ∧ ∃ a ∈ claims.audience, a ∈ opts.audience
  issuer : opts.issuer ≠ "" → claims.issuer = opts.issuer

/-- What is documented of the library. A signed token is the compact serialization of its header,
its claims and their code. A token in its canonical spelling is accepted by a parser for HS256 when
its code is the one under the key that the key function finds for its claims, and they are valid. -/
structure JWTLib.Documented (lib : JWTLib) (fmt : JWTFormat) : Prop where
  signedString_eq : ∀ secret claims, lib.signedString secret claims =
    JWT.joined fmt.header (fmt.marshalClaims claims)
      (fmt.mac secret (JWT.signingInput fmt.header (fmt.marshalClaims claims)))
  parseWithClaims_joined : ∀ {opts}, opts.validMethods = ["HS256"] → ∀ now h p s claims,
    lib.parseWithClaims opts now (JWT.joined h p s) = .ok claims ↔
      fmt.headerAlg h = some "HS256" ∧ fmt.unmarshalClaims p = some claims ∧
        (∃ key, opts.keyFunc claims = .ok key ∧ fmt.mac key (JWT.signingInput h p) = s) ∧
        ValidClaims opts now claims

/-! ## A library over a format -/

namespace JWTFormat

def errTokenMalformed : GoError := .leaf "token is malformed"
def errTokenUnverifiable : GoError := .leaf "token is unverifiable"
def errTokenSignatureInvalid : GoError := .leaf "token signature is invalid"
def errTokenRequiredClaimMissing : GoError := .leaf "token is missing required claim"
def errTokenInvalidAudience : GoError := .leaf "token has invalid audience"
def errTokenExpired : GoError := .leaf "token is expired"
def errTokenUsedBeforeIssued : GoError := .leaf "token used before issued"
def errTokenInvalidIssuer : GoError := .leaf "token has invalid issuer"
def errTokenNotValidYet : GoError := .leaf "token is not valid yet"
def errTokenInvalidClaims : GoError := .leaf "token has invalid claims"

/-- What is wrong with the registered claims at time `now`. -/
def violations (opts : ParserOptions) (now : ℤ) (claims : JWTClaims) : List GoError :=
  (match claims.expiresAt with
    | none => if opts.expirationRequired then [errTokenRequiredClaimMissing] else []
    | some t => if now < t * nanosPerSecond then [] else [errTokenExpired]) ++
  (match claims.notBefore with
    | none => []
    | some t => if now < t * nanosPerSecond then [errTokenNotValidYet] else []) ++
  (match claims.issuedAt with
    | none => []
    | some t =>
      if opts.issuedAt ∧ now < t * nanosPerSecond then [errTokenUsedBeforeIssued] else []) ++
  (if opts.audience = [] then []
    else if claims.audience = [] ∨ claims.audience = [""] then [errTokenRequiredClaimMissing]
    else if claims.audience.any opts.audience.contains then [] else [errTokenInvalidAudience]) ++
  (if opts.issuer = "" then []
    else if claims.issuer = "" then [errTokenRequiredClaimMissing]
    else if claims.issuer = opts.issuer then [] else [errTokenInvalidIssuer])

theorem violations_eq_nil {opts : ParserOptions} {now : ℤ} {claims : JWTClaims} :
    violations opts now claims = [] ↔ ValidClaims opts now claims := by
  simp only [violations, List.append_eq_nil_iff, and_assoc]
  constructor
  · rintro ⟨hexpires, hbefore, hissued, haudience, hissuer⟩
    refine ⟨fun hrequired hnone => ?_, fun t ht => ?_, fun t ht => ?_, fun hopt t ht => ?_,
      fun hne => ?_, fun hne => ?_⟩
    · simp [hnone, hrequired] at hexpires
    · simpa [ht] using hexpires
    · simpa [ht] using hbefore
    · simpa [ht, hopt] using hissued
    · rw [if_neg hne] at haudience
      split at haudience
      · cases haudience
      · rename_i hsome
        exact ⟨fun hempty => hsome (.inr hempty), by simpa using haudience⟩
    · rw [if_neg hne] at hissuer
      split at hissuer
      · cases hissuer
      · simpa using hissuer
  · intro h
    refine ⟨?_, ?_, ?_, ?_, ?_⟩
    · cases hexpires : claims.expiresAt with
      | none => simpa using fun hrequired => h.required hrequired hexpires
      | some t => simpa using h.expiresAt t hexpires
    · cases hbefore : claims.notBefore with
      | none => rfl
      | some t => simpa using h.notBefore t hbefore
    · cases hissued : claims.issuedAt with
      | none => rfl
      | some t => simpa using fun hopt => h.issuedAt hopt t hissued
    · split
      · rfl
      · rename_i hne
        obtain ⟨hempty, hsome⟩ := h.audience hne
        have hne' : claims.audience ≠ [] := by
          obtain ⟨a, ha, -⟩ := hsome
          exact List.ne_nil_of_mem ha
        simpa [hempty, hne'] using hsome
    · split
      · rfl
      · rename_i hne
        have hissuer := h.issuer hne
        simp [hissuer, hne]

variable (fmt : JWTFormat)

/-- The claims in a payload. -/
def claimsOf (token : JWT) : Option JWTClaims :=
  match token.splitOn JWT.dot with
  | [_, payload, _] => Base64.decodeString payload >>= fmt.unmarshalClaims
  | _ => none

/-- A token with decoded segments: the method, the key, the code and the claims, in this order. -/
def verify (opts : ParserOptions) (now : ℤ) (alg : String) (claims : JWTClaims)
    (input signature : Bytes) : Except GoError JWTClaims :=
  if alg ≠ "HS256" then .error errTokenSignatureInvalid
  else
    match opts.keyFunc claims with
    | .error err => .error (.wrap2 "" errTokenUnverifiable ": error while executing keyfunc: " err)
    | .ok key =>
      if fmt.mac key input ≠ signature then .error errTokenSignatureInvalid
      else
        match violations opts now claims with
        | [] => .ok claims
        | err :: errs =>
          .error (.wrap2 "" errTokenInvalidClaims ": "
            (errs.foldl (fun e e' => .wrap2 "" e ", " e') err))

def parseWithClaims (opts : ParserOptions) (now : ℤ) (token : JWT) : Except GoError JWTClaims :=
  match token.splitOn JWT.dot with
  | [header, payload, signature] =>
    match Base64.decodeString header >>= fmt.headerAlg,
        Base64.decodeString payload >>= fmt.unmarshalClaims, Base64.decodeString signature with
    | some alg, some claims, some sig =>
      fmt.verify opts now alg claims (header ++ JWT.dot :: payload) sig
    | _, _, _ => .error errTokenMalformed
  | _ => .error errTokenMalformed

variable {fmt}

theorem verify_ok {opts : ParserOptions} {now : ℤ} {alg : String} {claims claims' : JWTClaims}
    {input signature : Bytes} :
    fmt.verify opts now alg claims input signature = .ok claims' ↔
      claims = claims' ∧ alg = "HS256" ∧
        (∃ key, opts.keyFunc claims = .ok key ∧ fmt.mac key input = signature) ∧
        ValidClaims opts now claims := by
  unfold verify
  by_cases hmethod : alg = "HS256"
  · rw [if_neg (not_not.mpr hmethod)]
    cases hkey : opts.keyFunc claims with
    | error err => simp
    | ok key =>
        dsimp only
        by_cases hmac : fmt.mac key input = signature
        · rw [if_neg (not_not.mpr hmac), ← violations_eq_nil]
          cases hviolations : violations opts now claims with
          | nil => simp [hmethod, hmac]
          | cons err errs => simp
        · rw [if_pos hmac]
          simp [hmac]
  · rw [if_pos hmethod]
    simp [hmethod]

theorem claimsOf_of_parseWithClaims {opts : ParserOptions} {now : ℤ} {token : JWT}
    {claims : JWTClaims} (h : fmt.parseWithClaims opts now token = .ok claims) :
    fmt.claimsOf token = some claims := by
  unfold parseWithClaims at h
  unfold claimsOf
  split at h
  · split at h
    · rename_i hclaims _
      rw [(verify_ok.mp h).1] at hclaims
      exact hclaims
    · cases h
  · cases h

/-- The documented behaviour, over the given JSON and code. -/
def library (fmt : JWTFormat) : JWTLib where
  signedString secret claims := JWT.joined fmt.header (fmt.marshalClaims claims)
    (fmt.mac secret (JWT.signingInput fmt.header (fmt.marshalClaims claims)))
  parseWithClaims := fmt.parseWithClaims
  parseUnverified := fmt.claimsOf
  parseUnverified_of_ok := claimsOf_of_parseWithClaims

theorem library_documented (fmt : JWTFormat) : fmt.library.Documented fmt where
  signedString_eq _ _ := rfl
  parseWithClaims_joined := by
    intro opts _ now h p s claims
    show fmt.parseWithClaims opts now (JWT.joined h p s) = .ok claims ↔ _
    unfold parseWithClaims
    rw [JWT.splitOn_joined]
    dsimp only
    simp only [Base64.decodeString_encodeToString, Option.bind_eq_bind, Option.bind_some]
    cases halg : fmt.headerAlg h with
    | none => simp
    | some alg =>
        cases hclaims : fmt.unmarshalClaims p with
        | none => simp
        | some claims' =>
            simp only [verify_ok, JWT.signingInput, Option.some.injEq]
            constructor
            · rintro ⟨rfl, hrest⟩
              exact ⟨hrest.1, rfl, hrest.2⟩
            · rintro ⟨hmethod, rfl, hrest⟩
              exact ⟨rfl, hmethod, hrest⟩

end JWTFormat
end Go42.Auth
