-- SUMMARY: `GetToken` and `validateAPIToken`: the cached token, the one in the database, and when a failed decode of the first leaves the second in charge.
import Go42.Auth.TokenLastUsed
import Go42.Cache.Encode
import Go42.Lib.System

/-!
# Cached API tokens

The repository returns whatever token it got from the cache, and reads the database only
when it got none. An error of the cache is logged and nothing else.
-/

namespace Go42.Auth

open Cache (Gob decodeAnswer getDecode setEncode)

namespace TokenCache

/-! ## The machine -/

structure TokenTables where
  tokens : List Token
  /-- The permissions of each token, as the join finds them. -/
  permissions : List (ℤ × Permission)

/-- The first row with this hash that is not deleted. -/
def TokenTables.findToken (t : TokenTables) (hashedToken : String) : Option Token :=
  t.tokens.find? fun a => a.deletedAt.isNone && a.token = hashedToken

def TokenTables.permissionsOf (t : TokenTables) (tokenID : ℤ) : List Permission :=
  (t.permissions.filter fun p => p.1 = tokenID).map Prod.snd

/-- The token that the database holds under a hash. -/
def TokenTables.loadToken (t : TokenTables) (hashedToken : String) : Option Token :=
  (t.findToken hashedToken).map fun a => { a with permissions := t.permissionsOf a.id }

inductive Cmd where
  | cacheGet (key : String)
  | cacheSet (key : String) (value : Bytes) (ttl : ℤ)
  | selectToken (hashedToken : String)
  | selectTokenPermissions (tokenID : ℤ)
  | now
  | sendTokenUsed (e : TokenWasUsed)

abbrev Res : Cmd → Type
  | .cacheGet _ => Option Bytes
  | .cacheSet _ _ _ => Unit
  | .selectToken _ => Token
  | .selectTokenPermissions _ => List Permission
  | .now => ℤ
  | .sendTokenUsed _ => Bool

abbrev TokenProg (α : Type) := Prog Cmd Res α

abbrev call (c : Cmd) : TokenProg (Res c) := Prog.call c

/-- The cache answers in any way; the other commands succeed or fail. -/
inductive Choice where
  | cached (answer : Except GoError (Option Bytes))
  | run
  | fail (err : GoError)
  | time (t : ℤ)

structure World where
  tables : TokenTables
  clock : ℤ
  tokensUsed : List TokenWasUsed

/-- `tools.BufferSize8192`. -/
def bufferSize8192 : ℕ := 8192

/-- A send that finds the channel full is dropped. -/
def tokenMachine : Machine Cmd Res Choice Unit World := fun _ _ c ch w =>
  match c, ch with
  | .cacheGet _, .cached answer => some (.ofExcept answer, (), w)
  | .cacheSet _ _ _, .run => some (.returned (), (), w)
  | .cacheSet _ _ _, .fail err => some (.failed err, (), w)
  | .selectToken hashedToken, .run =>
    match w.tables.findToken hashedToken with
    | none => some (.failed errRecordNotFound, (), w)
    | some a => some (.returned a, (), w)
  | .selectToken _, .fail err =>
    if err.is errRecordNotFound then none else some (.failed err, (), w)
  | .selectTokenPermissions tokenID, .run =>
    some (.returned (w.tables.permissionsOf tokenID), (), w)
  | .selectTokenPermissions _, .fail err => some (.failed err, (), w)
  | .now, .time t => if w.clock ≤ t then some (.returned t, (), { w with clock := t }) else none
  | .sendTokenUsed e, .run =>
    if w.tokensUsed.length < bufferSize8192 then
      some (.returned true, (), { w with tokensUsed := w.tokensUsed ++ [e] })
    else some (.returned false, (), w)
  | _, _ => none

/-- The result of a program under the given choices. -/
def result {α : Type} (p : TokenProg α) (w : World) (chs : List Choice) : Option (Outcome α) :=
  (p.follow tokenMachine 0 chs [] w).map Prod.fst

/-! ## The programs -/

/-- What the repository and the service are given. -/
structure TokenLib where
  gob : Gob (Option Token)
  secretCacheTTL : ℤ
  strToSHA256 : Bytes → String

variable (L : TokenLib)

def tokenCacheKeyPrefix : String := "cache:token"

/-- `GetToken`, from the database on. -/
def getTokenFromDB (cacheKey hashedToken : String) : TokenProg Token := do
  match ← (call (.selectToken hashedToken)).attempt with
  | .error err =>
    if err.is errRecordNotFound then .fail errEntityNotFound
    else .fail (.wrap "error fetching api token: " err "")
  | .ok apiToken => do
    let permissions ← (call (.selectTokenPermissions apiToken.id)).mapErr fun err =>
      .wrap "error fetching api token permissions: " err ""
    let apiToken := { apiToken with permissions := permissions }
    -- A failure to cache the token is only logged.
    let _ ← (setEncode L.gob (some apiToken)
      fun value => call (.cacheSet cacheKey value L.secretCacheTTL)).attempt
    return apiToken

/-- `Repository.GetToken`. -/
def getToken (hashedToken : String) : TokenProg Token := do
  let cacheKey := tokenCacheKeyPrefix ++ ":" ++ hashedToken
  -- The error beside the cached token is only logged.
  let (cachedToken, _) ← getDecode L.gob (call (.cacheGet cacheKey))
  match cachedToken with
  | some cachedToken => return cachedToken
  | none => getTokenFromDB L cacheKey hashedToken

def apiTokenPrefix : Bytes := [97, 112, 105, 95]
def apiTokenSecretBytes : ℕ := 32

/-- `base64.RawURLEncoding.EncodedLen`. -/
def encodedLen (n : ℕ) : ℕ := n / 3 * 4 + (n % 3 * 8 + 5) / 6

/-- `base64.CorruptInputError`, without the offset it reports. -/
def errCorruptInput : GoError := .leaf "illegal base64 data"

/-- `none` when the format is valid. -/
def validateAPITokenFormat (token : Bytes) : Option GoError :=
  if !apiTokenPrefix.isPrefixOf token then some (.leaf "missing \"api_\" prefix")
  else
    let secret := token.drop apiTokenPrefix.length
    if secret.length ≠ encodedLen apiTokenSecretBytes then
      some (.leaf ("invalid secret length: got " ++ toString secret.length ++ ", want " ++
        toString (encodedLen apiTokenSecretBytes)))
    else
      match Base64.decodeString secret with
      | none => some (.wrap "invalid base64url secret: " errCorruptInput "")
      | some decoded =>
        if decoded.length ≠ apiTokenSecretBytes then
          some (.leaf ("invalid decoded secret length: got " ++ toString decoded.length ++
            ", want " ++ toString apiTokenSecretBytes))
        else none

/-! ## The format of a token -/

theorem validateAPITokenFormat_encoded {b : Bytes} (hb : b.length = apiTokenSecretBytes) :
    validateAPITokenFormat (apiTokenPrefix ++ Base64.encodeToString b) = none := by
  have hlength : (Base64.encodeToString b).length = encodedLen apiTokenSecretBytes := by
    rw [Base64.encodeToString_length, hb, encodedLen]
  unfold validateAPITokenFormat
  rw [if_neg (by simp), List.drop_left]
  dsimp only
  rw [if_neg (not_not.mpr hlength), Base64.decodeString_encodeToString]
  exact if_neg (not_not.mpr hb)

/-- The decoder skips line breaks. A secret with one would have fewer than 43 digits left, and
these make fewer than 32 bytes. -/
theorem encoded_of_validateAPITokenFormat {token : Bytes} (h : validateAPITokenFormat token = none) :
    ∃ b : Bytes, b.length = apiTokenSecretBytes ∧
      token = apiTokenPrefix ++ Base64.encodeToString b := by
  unfold validateAPITokenFormat at h
  split at h
  case isTrue => cases h
  case isFalse hprefix =>
    have hcut : apiTokenPrefix <+: token := by simpa using hprefix
    obtain ⟨secret, rfl⟩ := hcut
    rw [List.drop_left] at h
    dsimp only at h
    split at h
    case isTrue => cases h
    case isFalse hlength =>
      split at h
      case h_1 => cases h
      case h_2 decoded hdecode =>
        split at h
        case isTrue => cases h
        case isFalse hdecoded =>
          have hdigits := Base64.encodeToString_decodeString hdecode
          refine ⟨decoded, not_not.mp hdecoded, ?_⟩
          rw [hdigits, List.filter_eq_self.mpr]
          apply List.length_filter_eq_length_iff.mp
          rw [← hdigits, Base64.encodeToString_length, not_not.mp hdecoded, not_not.mp hlength]
          rfl

/-- The accepted tokens are the prefix with the encoding of 32 bytes, in its one spelling. -/
theorem validateAPITokenFormat_iff (token : Bytes) :
    (validateAPITokenFormat token = none ↔ ∃ b : Bytes, b.length = apiTokenSecretBytes ∧
        token = apiTokenPrefix ++ Base64.encodeToString b) ∧
      (∀ b b', token = apiTokenPrefix ++ Base64.encodeToString b →
        token = apiTokenPrefix ++ Base64.encodeToString b' → b = b') ∧
      (validateAPITokenFormat token = none → 10 ∉ token ∧ 13 ∉ token) := by
  refine ⟨⟨encoded_of_validateAPITokenFormat, ?_⟩, ?_, ?_⟩
  · rintro ⟨b, hb, rfl⟩
    exact validateAPITokenFormat_encoded hb
  · intro b b' heq heq'
    have hencoded := List.append_cancel_left (heq.symm.trans heq')
    apply Option.some.inj
    rw [← Base64.decodeString_encodeToString b, hencoded, Base64.decodeString_encodeToString]
  · intro h
    obtain ⟨b, -, rfl⟩ := encoded_of_validateAPITokenFormat h
    obtain ⟨-, hlf, hcr⟩ := Base64.not_mem_encodeToString b
    simp only [List.mem_append, not_or]
    exact ⟨⟨by decide, hlf⟩, ⟨by decide, hcr⟩⟩

/-- `apiToken.ExpiresAt.Valid && apiToken.ExpiresAt.V.Before(time.Now())`. -/
def isExpired (apiToken : Token) : TokenProg Bool :=
  match apiToken.expiresAt with
  | none => return false
  | some expiresAt => do return decide (expiresAt < (← call .now))

/-- `validateAPIToken`, once it has a token. A full channel discards the use. -/
def useAPIToken (apiToken : Token) : TokenProg Token := do
  if ← isExpired apiToken then .fail (.wrap "" errInvalidToken ": expired api token")
  else do
    let when ← call .now
    let _ ← call (.sendTokenUsed ⟨apiToken.id, when⟩)
    return apiToken

/-- `Service.validateAPIToken`. -/
def validateAPIToken (token : Bytes) : TokenProg Token :=
  match validateAPITokenFormat token with
  | some err => .fail (.wrap2 "" errInvalidToken ": api token format: " err)
  | none => do
    match ← (getToken L (L.strToSHA256 token)).attempt with
    | .error err =>
      if err.is errEntityNotFound then
        .fail (.wrap2 "" errInvalidToken ": api token lookup: " err)
      else .fail (.wrap2 "" errAuthenticationUnavailable ": api token lookup: " err)
    | .ok apiToken => useAPIToken apiToken

/-! ## After the cache has answered -/

/-- What `GetToken` goes on with. -/
def afterCache (hashedToken : String) (answer : Except GoError (Option Bytes)) : TokenProg Token :=
  match (decodeAnswer L.gob answer).1 with
  | some cachedToken => return cachedToken
  | none => getTokenFromDB L (tokenCacheKeyPrefix ++ ":" ++ hashedToken) hashedToken

variable {L : TokenLib} {α : Type} {hashedToken : String} {w : World} {chs : List Choice}
  {answer : Except GoError (Option Bytes)}

theorem result_getToken_handle (f : Outcome Token → TokenProg α) :
    result ((getToken L hashedToken).handle f) w (.cached answer :: chs) =
      result ((afterCache L hashedToken answer).handle f) w chs := by
  have hcache : result ((getToken L hashedToken).handle f) w (.cached answer :: chs) =
      (((afterCache L hashedToken answer).handle f).follow tokenMachine 0 chs
        [⟨0, .cacheGet (tokenCacheKeyPrefix ++ ":" ++ hashedToken), .ofExcept answer, ()⟩] w).map
          Prod.fst := by
    cases answer with
    | ok found => rfl
    | error err => rfl
  rw [hcache]
  exact Prog.follow_log (fun _ _ => rfl) _ _

theorem result_getToken :
    result (getToken L hashedToken) w (.cached answer :: chs) =
      result (afterCache L hashedToken answer) w chs := by
  have hhandle : result ((getToken L hashedToken).handle .done) w (.cached answer :: chs) =
      result ((afterCache L hashedToken answer).handle .done) w chs := result_getToken_handle _
  rwa [Prog.handle_id, Prog.handle_id] at hhandle

/-- The service sees no more of the cache than the repository makes of it. -/
theorem result_validateAPIToken {answer' : Except GoError (Option Bytes)} {token : Bytes}
    (h : afterCache L (L.strToSHA256 token) answer = afterCache L (L.strToSHA256 token) answer') :
    result (validateAPIToken L token) w (.cached answer :: chs) =
      result (validateAPIToken L token) w (.cached answer' :: chs) := by
  unfold validateAPIToken
  cases validateAPITokenFormat token with
  | some err => rfl
  | none =>
      simp only [Prog.bind_eq, Prog.attempt, Prog.handle_handle]
      rw [result_getToken_handle, result_getToken_handle, h]

/-- A cached token is returned as it is. -/
theorem afterCache_some {a : Token} (h : (decodeAnswer L.gob answer).1 = some a) :
    afterCache L hashedToken answer = .done (.returned a) := by
  unfold afterCache
  rw [h]
  rfl

theorem afterCache_none (h : (decodeAnswer L.gob answer).1 = none) :
    afterCache L hashedToken answer = afterCache L hashedToken (.ok none) := by
  unfold afterCache
  rw [h]
  rfl

/-! ## What the database answers -/

/-- The token that the database holds, that it holds none, or an error of the database. -/
def FromDB (tables : TokenTables) (hashedToken : String) : Outcome Token → Prop
  | .returned a => tables.loadToken hashedToken = some a
  | .failed err => err = errEntityNotFound ∧ tables.loadToken hashedToken = none ∨
      ∃ e, err = .wrap "error fetching api token: " e "" ∨
        err = .wrap "error fetching api token permissions: " e ""
  | .panicked _ => False

theorem tokenMachine_selectToken {log : Log Cmd Res Unit} {ch : Choice} {w w' : World}
    {o : Outcome Token} {e : Unit}
    (h : tokenMachine log 0 (.selectToken hashedToken) ch w = some (o, e, w')) :
    w' = w ∧ ((∃ a, o = .returned a ∧ w.tables.findToken hashedToken = some a) ∨
      (o = .failed errRecordNotFound ∧ w.tables.findToken hashedToken = none) ∨
      ∃ err, o = .failed err ∧ err.is errRecordNotFound = false) := by
  cases ch with
  | run =>
      unfold tokenMachine at h
      cases hfind : w.tables.findToken hashedToken with
      | none =>
          simp only [hfind] at h
          cases h
          exact ⟨rfl, .inr (.inl ⟨rfl, rfl⟩)⟩
      | some a =>
          simp only [hfind] at h
          cases h
          exact ⟨rfl, .inl ⟨a, rfl, rfl⟩⟩
  | fail err =>
      unfold tokenMachine at h
      cases hnotFound : err.is errRecordNotFound with
      | true =>
          simp only [hnotFound] at h
          cases h
      | false =>
          simp only [hnotFound] at h
          cases h
          exact ⟨rfl, .inr (.inr ⟨err, rfl, hnotFound⟩)⟩
  | cached answer => cases h
  | time t => cases h

/-- The write to the cache has no influence on the result. -/
theorem cacheToken_wp {log : Log Cmd Res Unit} {cacheKey : String} {a b : Token}
    {Q : Outcome Token → World → Prop} (h : Q (.returned a) w) :
    Prog.wp tokenMachine 0 Q (do
      let _ ← (setEncode L.gob (some b)
        fun value => call (.cacheSet cacheKey value L.secretCacheTTL)).attempt
      return a) log w := by
  unfold setEncode
  cases L.gob.encode (some b) with
  | error err => exact h
  | ok value =>
      intro ch o e w' hset
      cases ch with
      | run => cases hset; exact h
      | fail err => cases hset; exact h
      | cached answer => cases hset
      | time t => cases hset

theorem getTokenFromDB_wp {log : Log Cmd Res Unit} {cacheKey : String} :
    (getTokenFromDB L cacheKey hashedToken).wp tokenMachine 0
      (fun o _ => FromDB w.tables hashedToken o) log w := by
  intro ch o e w' hselect
  obtain ⟨rfl, ⟨a, rfl, hfind⟩ | ⟨rfl, hfind⟩ | ⟨err, rfl, hnotFound⟩⟩ :=
    tokenMachine_selectToken hselect
  · intro ch o e w'' hpermissions
    have hload : w'.tables.loadToken hashedToken =
        some { a with permissions := w'.tables.permissionsOf a.id } := by
      rw [TokenTables.loadToken, hfind]
      rfl
    cases ch with
    | run => cases hpermissions; exact cacheToken_wp hload
    | fail err => cases hpermissions; exact .inr ⟨err, .inr rfl⟩
    | cached answer => cases hpermissions
    | time t => cases hpermissions
  · refine .inl ⟨rfl, ?_⟩
    rw [TokenTables.loadToken, hfind]
    rfl
  · show Prog.wp tokenMachine 0 _ (if err.is errRecordNotFound then _ else _) _ _
    rw [hnotFound]
    exact .inr ⟨err, .inl rfl⟩

theorem fromDB_of_result {cacheKey : String} {o : Outcome Token}
    (h : result (getTokenFromDB L cacheKey hashedToken) w chs = some o) :
    FromDB w.tables hashedToken o := by
  obtain ⟨⟨o', log', w'⟩, hfollow, rfl⟩ := Option.map_eq_some_iff.mp h
  exact (Prog.runs_of_follow hfollow).post getTokenFromDB_wp

/-- A token is used as it was found, or not at all. -/
theorem useAPIToken_wp {M : Machine Cmd Res Choice Unit World} {log : Log Cmd Res Unit} {a : Token} :
    (useAPIToken a).wp M 0 (fun o _ => ∀ b, o = .returned b → b = a) log w := by
  have huse {log : Log Cmd Res Unit} {w : World} : Prog.wp M 0
      (fun o _ => ∀ b, o = .returned b → b = a) (do
        let when ← call .now
        let _ ← call (.sendTokenUsed ⟨a.id, when⟩)
        return a) log w := by
    intro _ when _ _ _
    cases when with
    | returned when =>
        intro _ sent _ _ _
        cases sent with
        | returned _ => intro b hb; cases hb; rfl
        | failed err => intro b hb; cases hb
        | panicked v => intro b hb; cases hb
    | failed err => intro b hb; cases hb
    | panicked v => intro b hb; cases hb
  unfold useAPIToken isExpired
  cases a.expiresAt with
  | none => exact huse
  | some expiresAt =>
      intro _ now _ _ _
      cases now with
      | returned now =>
          show Prog.wp M 0 _ (if decide (expiresAt < now) = true then _ else _) _ _
          split
          · intro b hb; cases hb
          · exact huse
      | failed err => intro b hb; cases hb
      | panicked v => intro b hb; cases hb

/-- What is accepted without the help of the cache is in the database. -/
theorem accepted_of_miss {token : Bytes} {a : Token}
    (h : result (validateAPIToken L token) w (.cached (.ok none) :: chs) = some (.returned a)) :
    w.tables.loadToken (L.strToSHA256 token) = some a := by
  unfold validateAPIToken at h
  cases hformat : validateAPITokenFormat token with
  | some err =>
      rw [hformat] at h
      cases h
  | none =>
      simp only [hformat, Prog.bind_eq, Prog.attempt, Prog.handle_handle] at h
      rw [result_getToken_handle] at h
      obtain ⟨⟨o, log', w'⟩, hfollow, rfl⟩ := Option.map_eq_some_iff.mp h
      have hpost := (Prog.runs_of_follow hfollow).post
        (Q := fun o _ => ∀ b, o = .returned b → w.tables.loadToken (L.strToSHA256 token) = some b)
      refine hpost (Prog.wp.handle (getTokenFromDB_wp.mono fun o w₁ ho log₁ => ?_)) a rfl
      cases o with
      | returned b => exact useAPIToken_wp.mono fun o _ hb c hc => hb c hc ▸ ho
      | failed err =>
          dsimp only [Prog.handle_done, Prog.leave_returned]
          split
          · intro b hb; cases hb
          · intro b hb; cases hb
      | panicked v => cases ho

/-! ## Main results -/

/-- The database's token, not-found or database error, whatever an unusable cache answers; and
the service accepts no other token. -/
def IgnoresCache (L : TokenLib) (w : World) (token : Bytes)
    (answer : Except GoError (Option Bytes)) : Prop :=
  let hashedToken := L.strToSHA256 token
  (∀ chs, result (getToken L hashedToken) w (.cached answer :: chs) =
      result (getToken L hashedToken) w (.cached (.ok none) :: chs)) ∧
    (∀ chs o, result (getToken L hashedToken) w (.cached answer :: chs) = some o →
      FromDB w.tables hashedToken o) ∧
    ∀ chs a, result (validateAPIToken L token) w (.cached answer :: chs) = some (.returned a) →
      w.tables.loadToken hashedToken = some a

/-- A failed decode is ignored exactly when it left the target nil. A decode that succeeds
yields the token that was encoded. -/
theorem getToken_ignores_failed_decode_iff (hgob : L.gob.RoundTrips) (w : World) (token : Bytes) :
    (∀ answer, (decodeAnswer L.gob answer).2 ≠ none →
      (IgnoresCache L w token answer ↔ (decodeAnswer L.gob answer).1 = none)) ∧
    ∀ a value, L.gob.encode (some a) = .ok value → ∀ chs,
      result (getToken L (L.strToSHA256 token)) w (.cached (.ok (some value)) :: chs) =
        some (.returned a) := by
  constructor
  · intro answer _
    constructor
    · intro hignores
      cases hleft : (decodeAnswer L.gob answer).1 with
      | none => rfl
      | some a =>
          have hfail := hignores.1 [.fail (.leaf "driver: bad connection")]
          rw [result_getToken, result_getToken, afterCache_some hleft] at hfail
          exact absurd hfail (by rintro ⟨⟩)
    · intro hleft
      have hsame : afterCache L (L.strToSHA256 token) answer =
          afterCache L (L.strToSHA256 token) (.ok none) := afterCache_none hleft
      refine ⟨fun chs => ?_, fun chs o ho => ?_, fun chs a ha => ?_⟩
      · rw [result_getToken, result_getToken, hsame]
      · rw [result_getToken, hsame] at ho
        exact fromDB_of_result ho
      · rw [result_validateAPIToken hsame] at ha
        exact accepted_of_miss ha
  · intro a value hencode chs
    have hleft : (decodeAnswer L.gob (.ok (some value))).1 = some a := by
      rw [Cache.decodeAnswer_encode hgob hencode]
    rw [result_getToken, afterCache_some hleft]
    rfl

/-- A token that expired at time 5. -/
def expiredToken : Token :=
  ⟨1, UUID.nil, 1, "hash", "ci", none, some 5, 0, 0, none, [⟨"users", "read"⟩]⟩

/-- What is left of it when its time of expiry cannot be decoded. -/
def partialToken : Token := ⟨1, UUID.nil, 1, "hash", "ci", none, none, 0, 0, none, []⟩

/-- `[1]` is the encoded token, and `[2]` the same with a time of an unknown version. -/
def tokenGob : Gob (Option Token) where
  encode value := if value = some expiredToken then .ok [1] else .error (.leaf "gob: other value")
  decode
    | [1], _ => (some expiredToken, none)
    | [2], _ => (some partialToken, some (.leaf "Time.UnmarshalBinary: unsupported version"))
    | _, out => (out, some (.leaf "unexpected EOF"))

theorem tokenGob_roundTrips : tokenGob.RoundTrips := by
  intro value str h
  unfold tokenGob at h
  dsimp only at h
  split at h
  · next hvalue => cases h; rw [hvalue]; rfl
  · cases h

def tokenLib : TokenLib := ⟨tokenGob, 60000000000, fun _ => "hash"⟩

/-- `api_` and the encoding of 32 zero bytes. -/
def plainToken : Bytes := apiTokenPrefix ++ List.replicate 43 65

def expiredWorld : World where
  tables := ⟨[{ expiredToken with permissions := [] }], [(1, ⟨"users", "read"⟩)]⟩
  clock := 9
  tokensUsed := []

/-- The database has an expired token, and the failed decode has one without expiry. -/
theorem getToken_trusts_failed_decode :
    tokenLib.gob.RoundTrips ∧ (decodeAnswer tokenLib.gob (.ok (some [2]))).2 ≠ none ∧
    result (validateAPIToken tokenLib plainToken) expiredWorld
      [.cached (.ok none), .run, .run, .run, .time 10] =
        some (.failed (.wrap "" errInvalidToken ": expired api token")) ∧
    result (validateAPIToken tokenLib plainToken) expiredWorld
      [.cached (.ok (some [2])), .time 10, .run] = some (.returned partialToken) ∧
    ¬IgnoresCache tokenLib expiredWorld plainToken (.ok (some [2])) := by
  have haccepted : result (validateAPIToken tokenLib plainToken) expiredWorld
      [.cached (.ok (some [2])), .time 10, .run] = some (.returned partialToken) := by decide
  refine ⟨tokenGob_roundTrips, by decide, by decide, haccepted, fun hignores => ?_⟩
  exact absurd (hignores.2.2 _ _ haccepted) (by decide)

/-- A value that is no gob at all is ignored. -/
theorem getToken_ignores_failed_decode_iff_garbage :
    IgnoresCache tokenLib expiredWorld plainToken (.ok (some [3])) :=
  ((getToken_ignores_failed_decode_iff tokenGob_roundTrips expiredWorld plainToken).1 _
    (by decide)).mpr rfl

end TokenCache
end Go42.Auth
