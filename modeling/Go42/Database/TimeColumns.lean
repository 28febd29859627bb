-- SUMMARY: The statements of the repositories that compare times, over any representation of a time column: on SQLite's texts they do what they do on instants.
import Go42.Lib.GoTime
import Go42.Lib.Steps
import Go42.Outbox.Models
import Mathlib.Data.List.Sort

/-!
# Time columns

A driver binds a `time.Time` as a value of some column type and the database compares such
values. On SQLite the value is a text in the zone of the time. The repositories bind times in
UTC only, and they compare nothing else. Columns that hold no time which a statement compares
are left out, except for the keys.
-/

namespace Go42.Database

open Outbox (MessageStatus)

/-- How times are bound to a column, and `<` on the column. -/
structure TimeColumn (τ : Type) where
  bind : GoTime → τ
  lt : τ → τ → Bool

/-- The text of a time, compared byte by byte. -/
def sqliteText : TimeColumn Bytes := ⟨GoTime.format, fun a b => decide (a < b)⟩

def instants : TimeColumn ℤ := ⟨GoTime.unixNano, fun a b => decide (a < b)⟩

/-! ## Rows -/

structure Session (τ : Type) where
  id : UUID
  userID : ℤ
  credentialVersion : ℤ
  refreshTokenID : UUID
  expiresAt : τ
  revoked : Bool

structure Token (τ : Type) where
  id : ℤ
  lastUsedAt : Option τ
  deleted : Bool

structure Message (τ : Type) where
  id : UUID
  createdAt : τ
  processedAt : Option τ
  nextAttemptAt : Option τ
  status : MessageStatus

structure Store (τ : Type) where
  sessions : List (Session τ)
  tokens : List (Token τ)
  messages : List (Message τ)

inductive Answer (τ : Type) where
  | done
  | failed (err : GoError)
  | session (s : Option (Session τ))
  | rotated (ok : Bool)
  | deleted (rows : ℕ)
  | messages (ms : List (Message τ))
  | oldest (time : Option τ)

variable {τ σ : Type}

def Session.map (f : σ → τ) (s : Session σ) : Session τ := { s with expiresAt := f s.expiresAt }

def Token.map (f : σ → τ) (t : Token σ) : Token τ := { t with lastUsedAt := t.lastUsedAt.map f }

def Message.map (f : σ → τ) (m : Message σ) : Message τ where
  id := m.id
  createdAt := f m.createdAt
  processedAt := m.processedAt.map f
  nextAttemptAt := m.nextAttemptAt.map f
  status := m.status

def Store.map (f : σ → τ) (s : Store σ) : Store τ :=
  ⟨s.sessions.map (·.map f), s.tokens.map (·.map f), s.messages.map (·.map f)⟩

def Answer.map (f : σ → τ) : Answer σ → Answer τ
  | done => done
  | failed err => failed err
  | session s => session (s.map (·.map f))
  | rotated ok => rotated ok
  | deleted rows => deleted rows
  | messages ms => messages (ms.map (·.map f))
  | oldest time => oldest (time.map f)

/-! ## Comparisons -/

namespace TimeColumn

variable (C : TimeColumn τ)

/-- `a <= b`. -/
def le (a b : τ) : Bool := !C.lt b a

/-- `<` on a column with NULLs, which come first. -/
def ltNull : Option τ → Option τ → Bool
  | _, none => false
  | none, some _ => true
  | some a, some b => C.lt a b

/-- `ORDER BY time ASC, id ASC`. -/
def orderedBy (time : Message τ → Option τ) (a b : Message τ) : Bool :=
  C.ltNull (time a) (time b) || (!C.ltNull (time b) (time a) && a.id ≤ b.id)

end TimeColumn

/-- `Limit(limit)`; a negative limit is none. -/
def limited {α : Type} (limit : ℤ) (rows : List α) : List α :=
  if limit < 0 then rows else rows.take limit.toNat

/-- `UPDATE ... WHERE`. -/
def updateWhere {α : Type} (p : α → Bool) (update : α → α) (rows : List α) : List α :=
  rows.map fun row => if p row then update row else row

/-- `DELETE ... WHERE`. -/
def deleteWhere {α : Type} (p : α → Bool) (rows : List α) : List α := rows.filter fun row => !p row

/-- `id IN ids`, and the condition of the selection again. -/
def inBatch {α : Type} (id : α → UUID) (ids : List UUID) (p : α → Bool) (row : α) : Bool :=
  ids.contains (id row) && p row

def errDuplicatedKey : GoError := .leaf "duplicated key not allowed"
def errEntityNotFound : GoError := .leaf "entity not found"

/-! ## The authentication repository -/

/-- The subquery for the owner of a session, by its user, the version of the credentials and the
UUID; `true` for the one of `RevokeSession`. It compares no times. -/
abbrev Owner := Bool → ℤ → ℤ → UUID → Bool

variable (C : TimeColumn τ) (owner : Owner)

def createSession (session : Session GoTime) (s : Store τ) : Answer τ × Store τ :=
  let session := { session with expiresAt := session.expiresAt.utc }
  if s.sessions.any (·.id = session.id) then (.failed errDuplicatedKey, s)
  else (.done, { s with sessions := s.sessions ++ [session.map C.bind] })

/-- The condition of `activeSessionQuery`. -/
def isActive (sessionID userUUID : UUID) (now : GoTime) (session : Session τ) : Bool :=
  session.id = sessionID && !session.revoked && C.lt (C.bind now.utc) session.expiresAt &&
    owner false session.userID session.credentialVersion userUUID

def getActiveSession (sessionID userUUID : UUID) (now : GoTime) (s : Store τ) : Answer τ × Store τ :=
  (.session (s.sessions.find? (isActive C owner sessionID userUUID now)), s)

/-- The active session, while the token is its current one. -/
def isCurrent (sessionID userUUID previousTokenID : UUID) (now : GoTime) (session : Session τ) :
    Bool :=
  isActive C owner sessionID userUUID now session && session.refreshTokenID = previousTokenID

def Session.rotate (nextTokenID : UUID) (expiresAt : τ) (session : Session τ) : Session τ :=
  { session with refreshTokenID := nextTokenID, expiresAt := expiresAt }

def rotateSession (sessionID userUUID previousTokenID nextTokenID : UUID) (expiresAt now : GoTime)
    (s : Store τ) : Answer τ × Store τ :=
  let matched := isCurrent C owner sessionID userUUID previousTokenID now
  (.rotated ((s.sessions.filter matched).length = 1), { s with
    sessions := updateWhere matched (Session.rotate nextTokenID (C.bind expiresAt.utc)) s.sessions })

def isRevocable (sessionID userUUID : UUID) (session : Session τ) : Bool :=
  session.id = sessionID && !session.revoked &&
    owner true session.userID session.credentialVersion userUUID

def Session.revoke (session : Session τ) : Session τ := { session with revoked := true }

def revokeSession (sessionID userUUID : UUID) (s : Store τ) : Answer τ × Store τ :=
  (.done, { s with
    sessions := updateWhere (isRevocable owner sessionID userUUID) Session.revoke s.sessions })

/-- `expires_at <= cutoff`. -/
def isExpired (cutoff : GoTime) (session : Session τ) : Bool :=
  C.le session.expiresAt (C.bind cutoff.utc)

/-- The batch to delete. -/
def expiredIDs (cutoff : GoTime) (s : Store τ) : List UUID :=
  (((s.sessions.filter (isExpired C cutoff)).insertionSort
    fun a b => C.le a.expiresAt b.expiresAt).take 1000).map Session.id

def deleteExpiredSessions (now : GoTime) (s : Store τ) : Answer τ × Store τ :=
  let ids := expiredIDs C now s
  let selected := inBatch Session.id ids (isExpired C now)
  if ids = [] then (.deleted 0, s)
  else
    (.deleted (s.sessions.filter selected).length,
      { s with sessions := deleteWhere selected s.sessions })

def isToken (tokenID : ℤ) (token : Token τ) : Bool := token.id = tokenID && !token.deleted

/-- `last_used_at IS NULL OR last_used_at < when`. -/
def isOlder (tokenID : ℤ) (when : GoTime) (token : Token τ) : Bool :=
  isToken tokenID token && token.lastUsedAt.all (C.lt · (C.bind when.utc))

def Token.use (when : τ) (token : Token τ) : Token τ := { token with lastUsedAt := some when }

def updateTokenLastUsed (tokenID : ℤ) (when : GoTime) (s : Store τ) : Answer τ × Store τ :=
  if s.tokens.any (isOlder C tokenID when) then
    (.done, { s with
      tokens := updateWhere (isOlder C tokenID when) (Token.use (C.bind when.utc)) s.tokens })
  else if s.tokens.any (isToken tokenID) then (.done, s)
  else (.failed errEntityNotFound, s)

/-! ## The outbox repository -/

/-- `normalizeMessageTimes`. -/
def normalizeMessageTimes (m : Message GoTime) : Message GoTime := m.map GoTime.utc

/-- `IsZero`. -/
def isZero (t : GoTime) : Bool := t.unixNano = -62135596800000000000

/-- A time of creation that is not set is the one of `NowFunc`. -/
def newOutboxMessage (m : Message GoTime) (now : GoTime) (s : Store τ) : Answer τ × Store τ :=
  let m := normalizeMessageTimes m
  let m := if isZero m.createdAt then { m with createdAt := now.utc } else m
  if s.messages.any (·.id = m.id) then (.failed errDuplicatedKey, s)
  else (.done, { s with messages := s.messages ++ [m.map C.bind] })

/-- `next_attempt_at IS NULL OR next_attempt_at <= now`, of what is pending. -/
def isDue (now : GoTime) (m : Message τ) : Bool :=
  m.status = .pending && m.nextAttemptAt.all (C.le · (C.bind now.utc))

def getUnprocessedMessages (limit : ℤ) (now : GoTime) (s : Store τ) : Answer τ × Store τ :=
  (.messages (limited limit ((s.messages.filter (isDue C now)).insertionSort
    fun a b => C.orderedBy (fun m => some m.createdAt) a b)), s)

def Message.process (processedAt : τ) (m : Message τ) : Message τ :=
  { m with status := .processed, processedAt := some processedAt, nextAttemptAt := none }

def saveProcessedMessages (ids : List UUID) (now : GoTime) (s : Store τ) : Answer τ × Store τ :=
  (.done, { s with
    messages := updateWhere (ids.contains ·.id) (Message.process (C.bind now.utc)) s.messages })

/-- `status = 'processed' AND processed_at < before`. -/
def isProcessedBefore (before : GoTime) (m : Message τ) : Bool :=
  m.status = .processed && m.processedAt.any (C.lt · (C.bind before.utc))

/-- The rows processed before a time, oldest first. -/
def processedMessages (before : GoTime) (s : Store τ) : List (Message τ) :=
  (s.messages.filter (isProcessedBefore C before)).insertionSort
    fun a b => C.orderedBy Message.processedAt a b

def deleteProcessedMessages (before : GoTime) (limit : ℤ) (s : Store τ) : Answer τ × Store τ :=
  if limit ≤ 0 then (.failed (.leaf "outbox cleanup batch size must be positive"), s)
  else
    let ids := (limited limit (processedMessages C before s)).map Message.id
    let selected := inBatch Message.id ids (isProcessedBefore C before)
    if ids = [] then (.deleted 0, s)
    else
      (.deleted (s.messages.filter selected).length,
        { s with messages := deleteWhere selected s.messages })

def getOldestProcessedMessageTime (before : GoTime) (s : Store τ) : Answer τ × Store τ :=
  (.oldest ((processedMessages C before s).head?.bind Message.processedAt), s)

/-- Every column is overwritten. -/
def saveFailedMessage (m : Message GoTime) (rows : List (Message τ)) : List (Message τ) :=
  updateWhere (·.id = m.id) (fun _ => (normalizeMessageTimes m).map C.bind) rows

def saveFailedMessages (ms : List (Message GoTime)) (s : Store τ) : Answer τ × Store τ :=
  (.done, { s with messages := ms.foldl (fun rows m => saveFailedMessage C m rows) s.messages })

/-! ## Operations -/

inductive Op where
  | createSession (session : Session GoTime)
  | getActiveSession (sessionID userUUID : UUID) (now : GoTime)
  | rotateSession (sessionID userUUID previousTokenID nextTokenID : UUID) (expiresAt now : GoTime)
  | revokeSession (sessionID userUUID : UUID)
  | deleteExpiredSessions (now : GoTime)
  | updateTokenLastUsed (tokenID : ℤ) (when : GoTime)
  | newOutboxMessage (m : Message GoTime) (now : GoTime)
  | getUnprocessedMessages (limit : ℤ) (now : GoTime)
  | saveProcessedMessages (ids : List UUID) (now : GoTime)
  | deleteProcessedMessages (before : GoTime) (limit : ℤ)
  | getOldestProcessedMessageTime (before : GoTime)
  | saveFailedMessages (ms : List (Message GoTime))

/-- One call of a repository. -/
def step (s : Store τ) : Op → Answer τ × Store τ
  | .createSession session => createSession C session s
  | .getActiveSession sessionID userUUID now => getActiveSession C owner sessionID userUUID now s
  | .rotateSession sessionID userUUID previous next expiresAt now =>
    rotateSession C owner sessionID userUUID previous next expiresAt now s
  | .revokeSession sessionID userUUID => revokeSession owner sessionID userUUID s
  | .deleteExpiredSessions now => deleteExpiredSessions C now s
  | .updateTokenLastUsed tokenID when => updateTokenLastUsed C tokenID when s
  | .newOutboxMessage m now => newOutboxMessage C m now s
  | .getUnprocessedMessages limit now => getUnprocessedMessages C limit now s
  | .saveProcessedMessages ids now => saveProcessedMessages C ids now s
  | .deleteProcessedMessages before limit => deleteProcessedMessages C before limit s
  | .getOldestProcessedMessageTime before => getOldestProcessedMessageTime C before s
  | .saveFailedMessages ms => saveFailedMessages C ms s

/-! ## One representation for another -/

/-- Every time in the row. -/
def Message.times (m : Message τ) : List τ :=
  m.createdAt :: (m.processedAt.toList ++ m.nextAttemptAt.toList)

/-- Every stored time. -/
structure Store.All (P : τ → Prop) (s : Store τ) : Prop where
  sessions : ∀ session ∈ s.sessions, P session.expiresAt
  tokens : ∀ t ∈ s.tokens, ∀ a ∈ t.lastUsedAt, P a
  messages : ∀ m ∈ s.messages, ∀ a ∈ m.times, P a

/-- The times of a call. -/
def Op.times : Op → List GoTime
  | createSession session => [session.expiresAt]
  | getActiveSession _ _ now | deleteExpiredSessions now | getUnprocessedMessages _ now
  | saveProcessedMessages _ now => [now]
  | rotateSession _ _ _ _ expiresAt now => [expiresAt, now]
  | revokeSession _ _ => []
  | updateTokenLastUsed _ when => [when]
  | newOutboxMessage m now => now :: m.times
  | deleteProcessedMessages before _ | getOldestProcessedMessageTime before => [before]
  | saveFailedMessages ms => ms.flatMap Message.times

/-- On the values with `P`, `C` is `D` through `f`. -/
structure Represents (C : TimeColumn τ) (D : TimeColumn σ) (f : σ → τ) (P : σ → Prop) : Prop where
  bind (t : GoTime) : C.bind t.utc = f (D.bind t.utc)
  lt {a b : σ} : P a → P b → C.lt (f a) (f b) = D.lt a b

/-- The two halves of a result. -/
def both (f : σ → τ) (r : Answer σ × Store σ) : Answer τ × Store τ := (r.1.map f, r.2.map f)

section Lists

variable {α β : Type} {g : α → β} {xs : List α}

theorem filter_map_of_eq {p : β → Bool} {q : α → Bool} (h : ∀ x ∈ xs, p (g x) = q x) :
    (xs.map g).filter p = (xs.filter q).map g := by
  rw [List.filter_map]
  exact congrArg _ (List.filter_congr h)

theorem updateWhere_map {p : β → Bool} {q : α → Bool} {u : β → β} {v : α → α}
    (h : ∀ x ∈ xs, p (g x) = q x) (huv : ∀ x, u (g x) = g (v x)) :
    updateWhere p u (xs.map g) = (updateWhere q v xs).map g := by
  rw [updateWhere, updateWhere, List.map_map, List.map_map]
  apply List.map_congr_left
  intro x hx
  simp only [Function.comp, h x hx]
  split
  · exact huv x
  · rfl

theorem deleteWhere_map {p : β → Bool} {q : α → Bool} (h : ∀ x ∈ xs, p (g x) = q x) :
    deleteWhere p (xs.map g) = (deleteWhere q xs).map g :=
  filter_map_of_eq fun x hx => congrArg _ (h x hx)

theorem inBatch_map {p : β → Bool} {q : α → Bool} {id : β → UUID} {id' : α → UUID} (ids : List UUID)
    (hid : ∀ x, id (g x) = id' x) (h : ∀ x ∈ xs, p (g x) = q x) :
    ∀ x ∈ xs, inBatch id ids p (g x) = inBatch id' ids q x := by
  intro x hx
  rw [inBatch, inBatch, hid, h x hx]

theorem any_map_of_eq {p : β → Bool} {q : α → Bool} (h : ∀ x ∈ xs, p (g x) = q x) :
    (xs.map g).any p = xs.any q := by
  rw [List.any_map, Bool.eq_iff_iff, List.any_eq_true, List.any_eq_true]
  apply exists_congr
  intro x
  apply and_congr_right
  intro hx
  rw [Function.comp, h x hx]

theorem find?_map_of_eq {p : β → Bool} {q : α → Bool} (h : ∀ x ∈ xs, p (g x) = q x) :
    (xs.map g).find? p = (xs.find? q).map g := by
  rw [← List.head?_filter, ← List.head?_filter, filter_map_of_eq h, List.head?_map]

theorem insertionSort_map_of_eq {r : β → β → Bool} {r' : α → α → Bool}
    (h : ∀ x ∈ xs, ∀ y ∈ xs, r (g x) (g y) = r' x y) :
    (xs.map g).insertionSort (fun x y => r x y) = (xs.insertionSort fun x y => r' x y).map g := by
  symm
  apply List.map_insertionSort
  intro x hx y hy
  rw [h x hx y hy]

end Lists

section Represents

variable {C : TimeColumn τ} {D : TimeColumn σ} {f : σ → τ} {P : σ → Prop}

theorem Message.forall_times {m : Message σ} : (∀ a ∈ m.times, P a) ↔
    P m.createdAt ∧ (∀ a ∈ m.processedAt, P a) ∧ ∀ a ∈ m.nextAttemptAt, P a := by
  simp only [times, List.forall_mem_cons, List.forall_mem_append, Option.mem_toList, Option.mem_def]

/-! ### Comparisons -/

theorem Represents.le (hR : Represents C D f P) {a b : σ} (ha : P a) (hb : P b) :
    C.le (f a) (f b) = D.le a b :=
  congrArg _ (hR.lt hb ha)

theorem Represents.ltNull (hR : Represents C D f P) {a b : Option σ} (ha : ∀ x ∈ a, P x)
    (hb : ∀ x ∈ b, P x) : C.ltNull (a.map f) (b.map f) = D.ltNull a b := by
  cases b with
  | none => cases a <;> rfl
  | some y =>
      cases a with
      | none => rfl
      | some x => exact hR.lt (ha x rfl) (hb y rfl)

theorem Represents.orderedBy (hR : Represents C D f P) {time : Message τ → Option τ}
    {time' : Message σ → Option σ} {m m' : Message σ} (hm : time (m.map f) = (time' m).map f)
    (hm' : time (m'.map f) = (time' m').map f) (h : ∀ a ∈ time' m, P a) (h' : ∀ a ∈ time' m', P a) :
    C.orderedBy time (m.map f) (m'.map f) = D.orderedBy time' m m' := by
  rw [TimeColumn.orderedBy, TimeColumn.orderedBy, hm, hm', hR.ltNull h h', hR.ltNull h' h]
  rfl

/-! ### Calls -/

variable {s : Store σ} {now : GoTime}

theorem createSession_map (hR : Represents C D f P) (session : Session GoTime) :
    createSession C session (s.map f) = both f (createSession D session s) := by
  have hany : (s.sessions.map (Session.map f)).any (·.id = session.id) =
      s.sessions.any (·.id = session.id) := any_map_of_eq fun _ _ => rfl
  unfold createSession
  simp only [Store.map, hany]
  split
  · rfl
  · simp only [both, Store.map, Answer.map, List.map_append, List.map_cons, List.map_nil,
      Session.map, hR.bind]

theorem isActive_map (hR : Represents C D f P) (hs : s.All P) (hnow : P (D.bind now.utc))
    {owner : Owner} {sessionID userUUID : UUID} : ∀ session ∈ s.sessions,
      isActive C owner sessionID userUUID now (session.map f) =
        isActive D owner sessionID userUUID now session := by
  intro session hsession
  rw [isActive, isActive, hR.bind, ← hR.lt hnow (hs.sessions session hsession)]
  rfl

theorem getActiveSession_map (hR : Represents C D f P) (hs : s.All P) (hnow : P (D.bind now.utc))
    {owner : Owner} {sessionID userUUID : UUID} :
    getActiveSession C owner sessionID userUUID now (s.map f) =
      both f (getActiveSession D owner sessionID userUUID now s) := by
  have hfind : (s.sessions.map (Session.map f)).find? (isActive C owner sessionID userUUID now) =
      (s.sessions.find? (isActive D owner sessionID userUUID now)).map (Session.map f) :=
    find?_map_of_eq (isActive_map hR hs hnow)
  exact congrArg (fun found => (Answer.session found, s.map f)) hfind

theorem isCurrent_map (hR : Represents C D f P) (hs : s.All P) (hnow : P (D.bind now.utc))
    {owner : Owner} {sessionID userUUID previous : UUID} : ∀ session ∈ s.sessions,
      isCurrent C owner sessionID userUUID previous now (session.map f) =
        isCurrent D owner sessionID userUUID previous now session := by
  intro session hsession
  rw [isCurrent, isCurrent, isActive_map hR hs hnow session hsession]
  rfl

theorem rotateSession_map (hR : Represents C D f P) (hs : s.All P) (hnow : P (D.bind now.utc))
    {owner : Owner} {sessionID userUUID previous next : UUID} {expiresAt : GoTime} :
    rotateSession C owner sessionID userUUID previous next expiresAt now (s.map f) =
      both f (rotateSession D owner sessionID userUUID previous next expiresAt now s) := by
  unfold rotateSession both
  simp only [Store.map, Answer.map, hR.bind]
  rw [updateWhere_map (isCurrent_map hR hs hnow) (v := Session.rotate next (D.bind expiresAt.utc))
    fun _ => rfl]
  simp only [filter_map_of_eq (isCurrent_map hR hs hnow), List.length_map]

theorem revokeSession_map {owner : Owner} {sessionID userUUID : UUID} :
    revokeSession owner sessionID userUUID (s.map f) =
      both f (revokeSession owner sessionID userUUID s) := by
  unfold revokeSession both
  simp only [Store.map, Answer.map]
  rw [updateWhere_map (g := Session.map f) (q := isRevocable owner sessionID userUUID)
    (v := Session.revoke) (fun _ _ => rfl) fun _ => rfl]

theorem isExpired_map (hR : Represents C D f P) (hs : s.All P) (hnow : P (D.bind now.utc)) :
    ∀ session ∈ s.sessions, isExpired C now (session.map f) = isExpired D now session := by
  intro session hsession
  rw [isExpired, isExpired, hR.bind]
  exact hR.le (hs.sessions session hsession) hnow

theorem expiredIDs_map (hR : Represents C D f P) (hs : s.All P) (hnow : P (D.bind now.utc)) :
    expiredIDs C now (s.map f) = expiredIDs D now s := by
  unfold expiredIDs
  simp only [Store.map]
  rw [filter_map_of_eq (isExpired_map hR hs hnow), insertionSort_map_of_eq, ← List.map_take,
    List.map_map]
  · rfl
  · intro a ha b hb
    exact hR.le (hs.sessions a (List.mem_of_mem_filter ha)) (hs.sessions b (List.mem_of_mem_filter hb))

theorem deleteExpiredSessions_map (hR : Represents C D f P) (hs : s.All P)
    (hnow : P (D.bind now.utc)) :
    deleteExpiredSessions C now (s.map f) = both f (deleteExpiredSessions D now s) := by
  have hselected := @inBatch_map _ _ (Session.map f) _ _ _ Session.id Session.id
    (expiredIDs D now s) (fun _ => rfl) (isExpired_map hR hs hnow)
  unfold deleteExpiredSessions
  dsimp only
  rw [expiredIDs_map hR hs hnow]
  split
  · rfl
  · simp only [both, Store.map, Answer.map, filter_map_of_eq hselected, deleteWhere_map hselected,
      List.length_map]

theorem isOlder_map (hR : Represents C D f P) (hs : s.All P) {tokenID : ℤ} {when : GoTime}
    (hwhen : P (D.bind when.utc)) :
    ∀ t ∈ s.tokens, isOlder C tokenID when (t.map f) = isOlder D tokenID when t := by
  intro t ht
  have hlast := hs.tokens t ht
  rw [isOlder, isOlder, hR.bind]
  simp only [Token.map]
  generalize t.lastUsedAt = last at *
  cases last with
  | none => rfl
  | some a => exact congrArg _ (hR.lt (hlast a rfl) hwhen)

theorem updateTokenLastUsed_map (hR : Represents C D f P) (hs : s.All P) {tokenID : ℤ} {when : GoTime}
    (hwhen : P (D.bind when.utc)) :
    updateTokenLastUsed C tokenID when (s.map f) = both f (updateTokenLastUsed D tokenID when s) := by
  have holder : ∀ t ∈ s.tokens, isOlder C tokenID when (t.map f) = isOlder D tokenID when t :=
    isOlder_map hR hs hwhen
  have htoken : (s.tokens.map (Token.map f)).any (isToken tokenID) = s.tokens.any (isToken tokenID) :=
    any_map_of_eq fun _ _ => rfl
  unfold updateTokenLastUsed
  simp only [Store.map, any_map_of_eq holder, htoken, hR.bind]
  rw [updateWhere_map holder (v := Token.use (D.bind when.utc)) fun _ => rfl]
  split
  · rfl
  · split <;> rfl

theorem normalizeMessageTimes_map (hR : Represents C D f P) (m : Message GoTime) :
    (normalizeMessageTimes m).map C.bind = ((normalizeMessageTimes m).map D.bind).map f := by
  simp only [normalizeMessageTimes, Message.map, Option.map_map, Function.comp_def, hR.bind]

/-- A new message is the normalised one of some times, all of them the call's. -/
theorem created_eq (m : Message GoTime) (now : GoTime) : ∃ m' : Message GoTime,
    (if isZero (normalizeMessageTimes m).createdAt then
      { normalizeMessageTimes m with createdAt := now.utc } else normalizeMessageTimes m) =
        normalizeMessageTimes m' ∧
      ∀ Q : GoTime → Prop, Q now → (∀ t ∈ m.times, Q t) → ∀ t ∈ m'.times, Q t := by
  split
  · refine ⟨{ m with createdAt := now }, rfl, fun Q hnow h => ?_⟩
    exact Message.forall_times.mpr ⟨hnow, (Message.forall_times.mp h).2⟩
  · exact ⟨m, rfl, fun Q _ h => h⟩

theorem newOutboxMessage_map (hR : Represents C D f P) (m : Message GoTime) :
    newOutboxMessage C m now (s.map f) = both f (newOutboxMessage D m now s) := by
  obtain ⟨m', hm', -⟩ := created_eq m now
  unfold newOutboxMessage
  dsimp only
  rw [hm']
  have hany : (s.messages.map (Message.map f)).any (·.id = (normalizeMessageTimes m').id) =
      s.messages.any (·.id = (normalizeMessageTimes m').id) := any_map_of_eq fun _ _ => rfl
  simp only [Store.map, hany]
  split
  · rfl
  · simp only [both, Store.map, Answer.map, List.map_append, List.map_cons, List.map_nil,
      normalizeMessageTimes_map hR]

theorem isDue_map (hR : Represents C D f P) (hs : s.All P) (hnow : P (D.bind now.utc)) :
    ∀ m ∈ s.messages, isDue C now (m.map f) = isDue D now m := by
  intro m hm
  have hnext := (Message.forall_times.mp (hs.messages m hm)).2.2
  rw [isDue, isDue, hR.bind]
  simp only [Message.map]
  generalize m.nextAttemptAt = next at *
  cases next with
  | none => rfl
  | some a => exact congrArg _ (hR.le (hnext a rfl) hnow)

theorem limited_map {α β : Type} (g : α → β) (limit : ℤ) (rows : List α) :
    limited limit (rows.map g) = (limited limit rows).map g := by
  unfold limited
  split
  · rfl
  · rw [List.map_take]

theorem getUnprocessedMessages_map (hR : Represents C D f P) (hs : s.All P)
    (hnow : P (D.bind now.utc)) {limit : ℤ} :
    getUnprocessedMessages C limit now (s.map f) = both f (getUnprocessedMessages D limit now s) := by
  have hcreated : ∀ m ∈ s.messages.filter (isDue D now), ∀ a ∈ some m.createdAt, P a := by
    intro m hm a ha
    cases ha
    exact (Message.forall_times.mp (hs.messages m (List.mem_of_mem_filter hm))).1
  unfold getUnprocessedMessages both
  simp only [Store.map, Answer.map]
  rw [filter_map_of_eq (isDue_map hR hs hnow), insertionSort_map_of_eq, limited_map]
  intro a ha b hb
  exact hR.orderedBy rfl rfl (hcreated a ha) (hcreated b hb)

theorem saveProcessedMessages_map (hR : Represents C D f P) {ids : List UUID} :
    saveProcessedMessages C ids now (s.map f) = both f (saveProcessedMessages D ids now s) := by
  unfold saveProcessedMessages both
  simp only [Store.map, Answer.map, hR.bind]
  rw [updateWhere_map (g := Message.map f) (q := (ids.contains ·.id))
    (v := Message.process (D.bind now.utc)) (fun _ _ => rfl) fun _ => rfl]

theorem isProcessedBefore_map (hR : Represents C D f P) (hs : s.All P) {before : GoTime}
    (hbefore : P (D.bind before.utc)) :
    ∀ m ∈ s.messages, isProcessedBefore C before (m.map f) = isProcessedBefore D before m := by
  intro m hm
  have hprocessed := (Message.forall_times.mp (hs.messages m hm)).2.1
  rw [isProcessedBefore, isProcessedBefore, hR.bind]
  simp only [Message.map]
  generalize m.processedAt = processed at *
  cases processed with
  | none => rfl
  | some a => exact congrArg _ (hR.lt (hprocessed a rfl) hbefore)

theorem processedMessages_map (hR : Represents C D f P) (hs : s.All P) {before : GoTime}
    (hbefore : P (D.bind before.utc)) :
    processedMessages C before (s.map f) = (processedMessages D before s).map (Message.map f) := by
  have hprocessed : ∀ m ∈ s.messages.filter (isProcessedBefore D before), ∀ a ∈ m.processedAt, P a :=
    fun m hm => (Message.forall_times.mp (hs.messages m (List.mem_of_mem_filter hm))).2.1
  unfold processedMessages
  simp only [Store.map]
  rw [filter_map_of_eq (isProcessedBefore_map hR hs hbefore), insertionSort_map_of_eq]
  intro a ha b hb
  exact hR.orderedBy rfl rfl (hprocessed a ha) (hprocessed b hb)

theorem deleteProcessedMessages_map (hR : Represents C D f P) (hs : s.All P) {before : GoTime}
    (hbefore : P (D.bind before.utc)) {limit : ℤ} :
    deleteProcessedMessages C before limit (s.map f) =
      both f (deleteProcessedMessages D before limit s) := by
  have hids : (limited limit (processedMessages C before (s.map f))).map Message.id =
      (limited limit (processedMessages D before s)).map Message.id := by
    rw [processedMessages_map hR hs hbefore, limited_map, List.map_map]
    rfl
  unfold deleteProcessedMessages
  dsimp only
  rw [hids]
  generalize (limited limit (processedMessages D before s)).map Message.id = ids
  have hselected := @inBatch_map _ _ (Message.map f) _ _ _ Message.id Message.id ids
    (fun _ => rfl) (isProcessedBefore_map hR hs hbefore)
  split
  · rfl
  · split
    · rfl
    · simp only [both, Store.map, Answer.map, filter_map_of_eq hselected,
        deleteWhere_map hselected, List.length_map]

theorem getOldestProcessedMessageTime_map (hR : Represents C D f P) (hs : s.All P) {before : GoTime}
    (hbefore : P (D.bind before.utc)) :
    getOldestProcessedMessageTime C before (s.map f) =
      both f (getOldestProcessedMessageTime D before s) := by
  unfold getOldestProcessedMessageTime
  rw [processedMessages_map hR hs hbefore, List.head?_map]
  cases (processedMessages D before s).head? with
  | none => rfl
  | some m => rfl

theorem saveFailedMessages_map (hR : Represents C D f P) {ms : List (Message GoTime)} :
    saveFailedMessages C ms (s.map f) = both f (saveFailedMessages D ms s) := by
  have hrows : ∀ rows : List (Message σ),
      ms.foldl (fun rows m => saveFailedMessage C m rows) (rows.map (Message.map f)) =
        (ms.foldl (fun rows m => saveFailedMessage D m rows) rows).map (Message.map f) := by
    induction ms with
    | nil => exact fun rows => rfl
    | cons m ms ih =>
        intro rows
        have hrow : saveFailedMessage C m (rows.map (Message.map f)) =
            (saveFailedMessage D m rows).map (Message.map f) :=
          updateWhere_map (fun _ _ => rfl) fun _ => normalizeMessageTimes_map hR m
        rw [List.foldl_cons, hrow, ih, List.foldl_cons]
  exact congrArg (fun rows => (Answer.done, { s.map f with messages := rows })) (hrows s.messages)

/-! ### What is stored -/

theorem updateWhere_all {α : Type} {Q : α → Prop} {p : α → Bool} {u : α → α} {rows : List α}
    (h : ∀ x ∈ rows, Q x) (hu : ∀ x, Q x → Q (u x)) : ∀ x ∈ updateWhere p u rows, Q x := by
  intro x hx
  obtain ⟨y, hy, rfl⟩ := List.mem_map.mp hx
  split
  · exact hu y (h y hy)
  · exact h y hy

theorem deleteWhere_all {α : Type} {Q : α → Prop} {p : α → Bool} {rows : List α}
    (h : ∀ x ∈ rows, Q x) : ∀ x ∈ deleteWhere p rows, Q x :=
  fun x hx => h x (List.mem_of_mem_filter hx)

theorem normalizeMessageTimes_all {m : Message GoTime} (h : ∀ t ∈ m.times, P (D.bind t.utc)) :
    ∀ a ∈ ((normalizeMessageTimes m).map D.bind).times, P a := by
  obtain ⟨hcreated, hprocessed, hnext⟩ := Message.forall_times.mp h
  refine Message.forall_times.mpr ⟨hcreated, ?_, ?_⟩
  · intro a ha
    obtain ⟨_, hutc, rfl⟩ := Option.mem_map.mp ha
    obtain ⟨t, ht, rfl⟩ := Option.mem_map.mp hutc
    exact hprocessed t ht
  · intro a ha
    obtain ⟨_, hutc, rfl⟩ := Option.mem_map.mp ha
    obtain ⟨t, ht, rfl⟩ := Option.mem_map.mp hutc
    exact hnext t ht

theorem newOutboxMessage_all (hs : s.All P) {m : Message GoTime}
    (h : ∀ t ∈ m.times, P (D.bind t.utc)) (hnow : P (D.bind now.utc)) :
    (newOutboxMessage D m now s).2.All P := by
  obtain ⟨m', hm', htimes⟩ := created_eq m now
  unfold newOutboxMessage
  dsimp only
  rw [hm']
  split
  · exact hs
  · refine ⟨hs.sessions, hs.tokens, List.forall_mem_append.mpr ⟨hs.messages, ?_⟩⟩
    intro row hrow
    rw [List.mem_singleton.mp hrow]
    exact normalizeMessageTimes_all (htimes _ hnow h)

theorem saveFailedMessages_all (hs : s.All P) {ms : List (Message GoTime)}
    (h : ∀ t ∈ ms.flatMap Message.times, P (D.bind t.utc)) : (saveFailedMessages D ms s).2.All P := by
  refine ⟨hs.sessions, hs.tokens, ?_⟩
  have hrows := hs.messages
  unfold saveFailedMessages
  dsimp only
  generalize s.messages = rows at hrows
  induction ms generalizing rows with
  | nil => exact hrows
  | cons m ms ih =>
      rw [List.flatMap_cons, List.forall_mem_append] at h
      exact ih h.2 _ (updateWhere_all hrows fun _ _ => normalizeMessageTimes_all h.1)

/-- The times of the calls are all that is stored. -/
theorem step_all {owner : Owner} {op : Op} (hs : s.All P) (h : ∀ t ∈ op.times, P (D.bind t.utc)) :
    (step D owner s op).2.All P := by
  cases op with
  | createSession session =>
      simp only [step, createSession]
      split
      · exact hs
      · refine ⟨List.forall_mem_append.mpr ⟨hs.sessions, ?_⟩, hs.tokens, hs.messages⟩
        exact List.forall_mem_singleton.mpr (h _ (.head _))
  | getActiveSession | getUnprocessedMessages | getOldestProcessedMessageTime => exact hs
  | rotateSession sessionID userUUID previous next expiresAt now =>
      refine ⟨updateWhere_all (Q := fun session : Session σ => P session.expiresAt) hs.sessions ?_, hs.tokens,
        hs.messages⟩
      exact fun _ _ => h _ (.head _)
  | revokeSession sessionID userUUID =>
      exact ⟨updateWhere_all (Q := fun session : Session σ => P session.expiresAt) hs.sessions fun _ => id,
        hs.tokens, hs.messages⟩
  | deleteExpiredSessions now =>
      simp only [step, deleteExpiredSessions]
      split
      · exact hs
      · exact ⟨deleteWhere_all hs.sessions, hs.tokens, hs.messages⟩
  | updateTokenLastUsed tokenID when =>
      simp only [step, updateTokenLastUsed]
      split
      · refine ⟨hs.sessions, updateWhere_all (Q := fun t : Token σ => ∀ a ∈ t.lastUsedAt, P a) hs.tokens ?_,
          hs.messages⟩
        intro t _ a ha
        cases ha
        exact h _ (.head _)
      · split <;> exact hs
  | newOutboxMessage m now =>
      obtain ⟨hnow, hm⟩ := List.forall_mem_cons.mp h
      exact newOutboxMessage_all hs hm hnow
  | saveProcessedMessages ids now =>
      refine ⟨hs.sessions, hs.tokens,
        updateWhere_all (Q := fun m : Message σ => ∀ a ∈ m.times, P a) hs.messages fun m hm => ?_⟩
      refine Message.forall_times.mpr ⟨(Message.forall_times.mp hm).1, ?_, ?_⟩
      · intro a ha
        cases ha
        exact h _ (.head _)
      · exact fun a ha => (nomatch ha)
  | deleteProcessedMessages before limit =>
      simp only [step, deleteProcessedMessages]
      split
      · exact hs
      · split
        · exact hs
        · exact ⟨hs.sessions, hs.tokens, deleteWhere_all hs.messages⟩
  | saveFailedMessages ms => exact saveFailedMessages_all hs h

/-- One call answers and stores the same through `f`. -/
theorem step_map {owner : Owner} {op : Op} (hR : Represents C D f P) (hs : s.All P)
    (h : ∀ t ∈ op.times, P (D.bind t.utc)) :
    step C owner (s.map f) op = both f (step D owner s op) := by
  cases op with
  | createSession session => exact createSession_map hR session
  | getActiveSession sessionID userUUID now => exact getActiveSession_map hR hs (h _ (.head _))
  | rotateSession sessionID userUUID previous next expiresAt now =>
      exact rotateSession_map hR hs (h _ (.tail _ (.head _)))
  | revokeSession sessionID userUUID => exact revokeSession_map
  | deleteExpiredSessions now => exact deleteExpiredSessions_map hR hs (h _ (.head _))
  | updateTokenLastUsed tokenID when => exact updateTokenLastUsed_map hR hs (h _ (.head _))
  | newOutboxMessage m now => exact newOutboxMessage_map hR m
  | getUnprocessedMessages limit now => exact getUnprocessedMessages_map hR hs (h _ (.head _))
  | saveProcessedMessages ids now => exact saveProcessedMessages_map hR
  | deleteProcessedMessages before limit => exact deleteProcessedMessages_map hR hs (h _ (.head _))
  | getOldestProcessedMessageTime before =>
      exact getOldestProcessedMessageTime_map hR hs (h _ (.head _))
  | saveFailedMessages ms => exact saveFailedMessages_map hR

/-- So do the calls of a run. -/
theorem answers_step_map {owner : Owner} (hR : Represents C D f P) {ops : List Op} (hs : s.All P)
    (h : ∀ op ∈ ops, ∀ t ∈ op.times, P (D.bind t.utc)) :
    answers (step C owner) (s.map f) ops = (answers (step D owner) s ops).map (both f) := by
  have hanswers : (answers (step C owner) (s.map f) ops).map id =
      (answers (step D owner) s ops).map (both f) := answers_map
    (R := fun t s => t = Store.map f s ∧ s.All P)
    (P := fun op : Op => ∀ t ∈ op.times, P (D.bind t.utc)) (by
      rintro _ s op hop ⟨rfl, hs⟩
      exact ⟨step_map hR hs hop, congrArg Prod.snd (step_map hR hs hop), step_all hs hop⟩)
    ⟨rfl, hs⟩ h
  rwa [List.map_id] at hanswers

end Represents

/-! ## SQLite -/

/-- SQLite's texts stand for instants. -/
theorem sqliteText_represents :
    Represents sqliteText instants GoTime.textUTC GoTime.FourDigitYear where
  bind _ := rfl
  lt h h' := decide_eq_decide.mpr (GoTime.textUTC_lt_iff h h')

/-- For times of four-digit years in any zones, the texts that the repositories bind compare as
the instants do, and any calls on SQLite answer and store what they do on instants. -/
theorem sqlite_agrees (owner : Owner) :
    (∀ t t' : GoTime, GoTime.FourDigitYear t.unixNano → GoTime.FourDigitYear t'.unixNano →
      (sqliteText.lt (sqliteText.bind t.utc) (sqliteText.bind t'.utc) ↔ t.unixNano < t'.unixNano) ∧
        (sqliteText.bind t.utc = sqliteText.bind t'.utc ↔ t.unixNano = t'.unixNano)) ∧
      ∀ (s : Store ℤ) (ops : List Op), s.All GoTime.FourDigitYear →
        (∀ op ∈ ops, ∀ t ∈ op.times, GoTime.FourDigitYear t.unixNano) →
        answers (step sqliteText owner) (s.map GoTime.textUTC) ops =
          (answers (step instants owner) s ops).map (both GoTime.textUTC) := by
  constructor
  · intro t t' h h'
    exact ⟨decide_eq_true_iff.trans (GoTime.textUTC_lt_iff h h'), GoTime.textUTC_inj h h'⟩
  · exact fun s ops hs hops => answers_step_map sqliteText_represents hs hops

/-- A session created in one zone and read half a second before its expiry in another. -/
theorem sqlite_agrees_zones :
    sqliteText.lt (sqliteText.bind (⟨1000000000, 7200⟩ : GoTime).utc)
        (sqliteText.bind (⟨1500000000, -3600⟩ : GoTime).utc) ∧
      answers (step sqliteText fun _ _ _ _ => true) ⟨[], [], []⟩
          [.createSession ⟨.nil, 1, 0, .nil, ⟨1500000000, -3600⟩, false⟩,
            .getActiveSession .nil .nil ⟨1000000000, 7200⟩] =
        (answers (step instants fun _ _ _ _ => true) ⟨[], [], []⟩
          [.createSession ⟨.nil, 1, 0, .nil, ⟨1500000000, -3600⟩, false⟩,
            .getActiveSession .nil .nil ⟨1000000000, 7200⟩]).map (both GoTime.textUTC) := by
  have hagrees := sqlite_agrees fun _ _ _ _ => true
  refine ⟨((hagrees.1 ⟨1000000000, 7200⟩ ⟨1500000000, -3600⟩ (by decide) (by decide)).1).mpr
    (by decide), hagrees.2 ⟨[], [], []⟩ _ ?_ ?_⟩
  · exact ⟨fun _ h => (nomatch h), fun _ h => (nomatch h), fun _ h => (nomatch h)⟩
  · have hcreate : GoTime.FourDigitYear 1500000000 := by decide
    have hget : GoTime.FourDigitYear 1000000000 := by decide
    exact List.forall_mem_cons.mpr ⟨List.forall_mem_singleton.mpr hcreate,
      List.forall_mem_singleton.mpr (List.forall_mem_singleton.mpr hget)⟩

end Go42.Database
