-- SUMMARY: What a thread of the authentication service knows from its own steps, which commands it may issue on that knowledge, and what it has done when it ends.
import Go42.Auth.Service

/-!
# The protocol of the authentication service

The global arguments never look into the programs. They use two things: the condition
on a thread's facts under which it issues a command, and what its facts are when its
call ends.
-/

namespace Go42.Auth

/-! ## Kinds of facts -/

/-- A statement of a transaction on `auth_users` took place. -/
def Fact.changesUser : Fact → Bool
  | .inserted _ | .updated _ _ _ _ _ | .deleted _ => true
  | _ => false

/-- A statement outside a transaction wrote, or a token was signed. -/
def Fact.actsOutside : Fact → Bool
  | .signed _ _ | .opened _ | .rotated _ _ _ _ _ | .revoked _ _ | .cleaned | .recorded .primary => true
  | _ => false

def Fact.isOpened : Fact → Bool
  | .opened _ => true
  | _ => false

/-- A refresh token identifier came into use. -/
def Fact.usesTokenID : Fact → Bool
  | .opened _ | .rotated _ _ _ _ _ => true
  | _ => false

def Fact.signsRefresh : Fact → Bool
  | .signed c _ => c.tokenUse = .refresh
  | _ => false

/-- The thread has no fact of a kind. -/
def Without (kind : Fact → Bool) (F : List Fact) : Prop := ∀ f ∈ F, kind f = false

@[simp] theorem without_nil (kind : Fact → Bool) : Without kind [] := by simp [Without]

@[simp] theorem without_cons {kind : Fact → Bool} {f : Fact} {F : List Fact} :
    Without kind (f :: F) ↔ kind f = false ∧ Without kind F := by
  simp [Without]

/-! ## Commands -/

/-- The normalized address is there exactly when one was given. -/
theorem normalized_email {P : Platform} {data : UpdateUserData} {email : Option String}
    (h : data.email.mapM (normalizeAndValidateEmail P) = .ok email) :
    (data.email = none ∧ email = none) ∨
      ∃ e e', data.email = some e ∧ email = some e' ∧ normalizeAndValidateEmail P e = .ok e' := by
  cases he : data.email with
  | none => rw [he] at h; cases h; exact .inl ⟨rfl, rfl⟩
  | some e =>
      rw [he] at h
      cases hn : normalizeAndValidateEmail P e with
      | error err => simp [hn] at h
      | ok e' => exact .inr ⟨e, e', rfl, by simpa [hn, eq_comm] using h, hn⟩

/-- The row an update writes, computed from the row `u` that was read and the request. -/
structure Computed (P : Platform) (data : UpdateUserData) (F : List Fact) (u updated : User) :
    Prop where
  id : updated.id = u.id
  uuid : updated.uuid = u.uuid
  status : updated.status = u.status
  version : updated.credentialVersion = u.credentialVersion + 1
  keepsEmail : data.email = none → updated.email = u.email
  newEmail : ∀ e, data.email = some e → normalizeAndValidateEmail P e = .ok updated.email
  keepsPassword : data.password = none → updated.password = u.password
  newPassword : ∀ pw, data.password = some pw →
    ∃ hash, .hashed pw hash ∈ F ∧ updated.password = some hash

/-- What the call asks to change, and whether it has to prove the current password. -/
def Call.update? : Call → Option (UpdateUserData × Option GoString)
  | .updateUser _ data => some (data, none)
  | .updateSelf _ data => some (data.toUpdateUserData, some data.currentPassword)
  | _ => none

/-- The current password was compared with the hash in the row that was read. -/
def Proved (F : List Fact) (u : User) (currentPassword : Option GoString) : Prop :=
  ∀ password, currentPassword = some password →
    .compared u.passwordHash password true ∈ F ∧ u.isActive = true

/-- A row of `auth_users` is read once, before anything it decides. Session statements
run outside transactions and act on what the thread generated, read or parsed; changes
of users run inside one, at most one in a call. -/
def allowed (P : Platform) (call : Call) (F : List Fact) : Cmd → Prop
  | .sql _ (.selectUser _) => Without Fact.isOpened F ∧ Without Fact.changesUser F
  | .sql c (.insertUser u) => c = .transaction ∧ Without Fact.changesUser F ∧
      u.credentialVersion = 1
  | .sql c (.deleteUser _) => c = .transaction ∧ Without Fact.changesUser F ∧ call.update? = none
  | .sql c (.updateUser id version updated) => c = .transaction ∧ Without Fact.changesUser F ∧
      ∃ u data current, (∀ v, .read v ∈ F ↔ v = u) ∧ call.update? = some (data, current) ∧
        id = u.id ∧ version = u.credentialVersion ∧ Computed P data F u updated ∧
        Proved F u current
  | .signedString _ c => Without Fact.isOpened F ∧
      (c.tokenUse = .refresh → .generated c.id ∈ F ∧ Without Fact.signsRefresh F) ∧
      (.generated c.sessionID ∈ F ∨
        ∃ token c', .parsed token c' ∈ F ∧ c.sessionID = c'.sessionID ∧ c.subject = c'.subject)
  | .sql c (.insertSession s) => c = .primary ∧ Without Fact.usesTokenID F ∧
      .generated s.id ∈ F ∧ .generated s.refreshTokenID ∈ F ∧
      ∃ u, (∀ v, .read v ∈ F ↔ v = u) ∧ s.userID = u.id ∧
        s.credentialVersion = u.credentialVersion ∧
        ∀ c token, .signed c token ∈ F → c.sessionID = s.id ∧ c.subject = u.uuid
  | .sql c (.selectActiveSession _ _) => c = .primary
  | .sql c (.rotateSession sid uid prev next _) => c = .primary ∧ Without Fact.usesTokenID F ∧
      .generated next ∈ F ∧
      ∃ token c', .parsed token c' ∈ F ∧ sid = c'.sessionID ∧ uid = c'.subject ∧ prev = c'.id
  | .sql c (.revokeSession sid uid) => c = .primary ∧
      ∃ token c', .parsed token c' ∈ F ∧ sid = c'.sessionID ∧ uid = c'.subject
  | .sql c (.deleteSessions _ _) => c = .primary
  | _ => True

/-! ## Ends of calls -/

/-- A request for nothing new: no password, and no address but the one in the row that was
read. -/
def AsksNothing (P : Platform) (data : UpdateUserData) (F : List Fact) : Prop :=
  data.password = none ∧ ∀ e, data.email = some e → ∀ u, .read u ∈ F →
    normalizeAndValidateEmail P e = .ok u.email

/-- The end of a change of a user: all of it happened inside the transaction, a call that
does not return has not committed, a call that found its row changed fails, and a request
that asks for what is already there writes nothing. -/
structure Ended {α : Type} (P : Platform) (data : UpdateUserData) (F : List Fact) (o : Outcome α) :
    Prop where
  outside : Without Fact.actsOutside F
  undone : o.isReturned = false → .committed ∉ F
  lost : ∀ id version next now, .updated id version next 0 now ∈ F →
    o.isReturned = false ∧ ∀ e, o = .failed e → e.is errInvalidCredentials = true
  noop : AsksNothing P data F → Without Fact.changesUser F ∧ .recorded .transaction ∉ F

/-- What the facts of a thread are when its call ends with outcome `o`. -/
def post (P : Platform) (call : Call) (F : List Fact) (o : Outcome Answer) : Prop :=
  match call with
  | .refresh token =>
    (∀ t, o = .returned (.tokens t) → ∃ c next, .parsed token c ∈ F ∧
      .rotated c.sessionID c.subject c.id next 1 ∈ F) ∧
    (∀ sid uid prev next n, .rotated sid uid prev next n ∈ F → n ≠ 1 →
      o = .failed errInvalidToken → .revoked sid uid ∈ F)
  | .logout token =>
    o = .returned .nil → ∃ c, .parsed token c ∈ F ∧ .revoked c.sessionID c.subject ∈ F
  | .validateJWTToken token purpose =>
    ∀ c, o = .returned (.claims c) → .parsed token c ∈ F ∧
      ∃ s, .lookedUp c.sessionID c.subject s ∈ F ∧ (purpose = .refresh → s.refreshTokenID = c.id)
  | .updateUser _ data => Ended P data F o
  | .updateSelf _ data => Ended P data.toUpdateUserData F o
  | .deleteUser _ => Without Fact.actsOutside F ∧ (o.isReturned = false → .committed ∉ F)
  | _ => True

end Go42.Auth
