-- SUMMARY: The commands that the parts of the service may issue.
import Go42.Auth.Service

/-!
# Commands of the service

Requests are served without the statements of the cleanup, and `auth_sessions` is left
alone inside transactions.
-/

namespace Go42.Auth

open Prog (Issues)

variable {P : Platform} {S : Service} {α β : Type}

/-- A command that serves requests. -/
def Cmd.serves : Cmd → Prop
  | .sql _ (.selectExpiredSessions _ _) | .sql _ (.deleteSessions _ _) => False
  | .sql c (.insertSession _) | .sql c (.selectActiveSession _ _)
  | .sql c (.rotateSession _ _ _ _ _) | .sql c (.revokeSession _ _) => c = .primary
  | _ => True

/-- Such a command that neither looks up a user nor has to do with passwords or the limiter. -/
def Cmd.plain : Cmd → Prop
  | .compareHashAndPassword _ _ | .allowRateLimit _ | .sql _ (.selectUser _) => False
  | c => c.serves

theorem serves_of_plain {c : Cmd} (h : c.plain) : c.serves := by
  cases c with
  | compareHashAndPassword | allowRateLimit => cases h
  | sql conn q =>
      cases q with
      | selectUser f => cases h
      | _ => exact h
  | _ => exact h

/-! ## Plain parts -/

theorem signJWT_plain {uuid sid id : String} {purpose : JWTTokenPurpose} {now exp : ℤ} :
    (signJWT S uuid sid id purpose now exp).Issues Cmd.plain := by
  unfold signJWT
  split
  · trivial
  · exact Issues.call trivial

theorem generateTokens_plain {uuid sid rid : String} {exp : ℤ} :
    (generateTokens S uuid sid rid exp).Issues Cmd.plain := by
  unfold generateTokens
  split
  · trivial
  · apply Issues.bind (Issues.call trivial)
    intro now
    apply Issues.bind (Issues.call trivial)
    intro access
    apply Issues.bind signJWT_plain
    intro access
    apply Issues.bind signJWT_plain
    intro refresh
    trivial

theorem createSession_plain {user : User} : (createSession S user).Issues Cmd.plain := by
  unfold createSession
  apply Issues.bind (Issues.call trivial)
  intro id
  apply Issues.bind (Issues.call trivial)
  intro rid
  apply Issues.bind (Issues.call trivial)
  intro now
  apply Issues.bind generateTokens_plain
  intro tokens
  apply Issues.bind
  · apply Issues.mapErr
    exact Issues.call rfl
  · intro _
    trivial

theorem sendEvent_plain {c : Conn} {topic : String} {msg : Outbox.Message} :
    (sendEvent c topic msg).Issues Cmd.plain := by
  unfold sendEvent newOutboxMessage
  apply Issues.mapErr
  split
  · trivial
  · apply Issues.bind (Issues.call trivial)
    intro id
    exact Issues.mapErr (Issues.call trivial)

theorem setNewPassword_plain {user : User} {password : Option GoString} :
    (setNewPassword user password).Issues Cmd.plain := by
  cases password with
  | none => trivial
  | some pw =>
      apply Issues.mapErr
      apply Issues.bind (Issues.call trivial)
      intro hash
      trivial

theorem saveUser_plain {user : User} : (saveUser user).Issues Cmd.plain := by
  unfold saveUser
  apply Issues.bind
  · apply Issues.mapErr
    apply Issues.bind (Issues.mapErr (Issues.call trivial))
    rintro ⟨rows, now⟩
    dsimp only
    split <;> trivial
  · intro user
    exact Issues.mapErr sendEvent_plain

theorem rollback_plain : (db.rollback).Issues Cmd.plain :=
  Issues.mapErr (Issues.call trivial)

theorem recovering_plain {o : Outcome α} : (db.recovering o).Issues Cmd.plain := by
  cases o with
  | returned a => trivial
  | failed e => trivial
  | panicked v =>
      apply Issues.handle rollback_plain
      intro o
      cases o <;> trivial

theorem conclude_plain {o : Outcome α} : (db.conclude o).Issues Cmd.plain := by
  cases o with
  | returned a =>
      apply Issues.handle (Issues.mapErr (Issues.call trivial))
      intro o
      cases o with
      | returned => trivial
      | panicked v => trivial
      | failed e =>
          apply Issues.handle rollback_plain
          intro o
          cases o <;> trivial
  | failed e =>
      apply Issues.handle rollback_plain
      intro o
      cases o <;> trivial
  | panicked v => trivial

/-! ## Calls -/

theorem limitAuthentication_serves {scope key : String} {requests window : ℤ} :
    (limitAuthentication P S scope key requests window).Issues Cmd.serves := by
  unfold limitAuthentication
  split
  · trivial
  · split
    · trivial
    · dsimp only
      split
      · trivial
      · trivial
      · apply Issues.bind (Issues.mapErr (Issues.call trivial))
        intro allowed
        cases allowed <;> trivial

theorem getUser_serves {c : Conn} {f : UserFilter} :
    (Repository.getUser c f).Issues Cmd.serves := by
  unfold Repository.getUser
  apply Issues.bind (Issues.mapErr (Issues.call trivial))
  intro user
  apply Issues.bind (Issues.mapErr (Issues.call trivial))
  intro roles
  split
  · trivial
  · apply Issues.bind (Issues.mapErr (Issues.call trivial))
    intro permissions
    trivial

theorem withTransaction_serves {fn : AuthProg α} (hfn : fn.Issues Cmd.serves) :
    (db.withTransaction fn).Issues Cmd.serves := by
  unfold Database.Ops.withTransaction
  apply Issues.bind (Issues.mapErr (Issues.mapErr (Issues.call trivial)))
  intro _
  apply Issues.handle
  · apply Issues.handle hfn
    intro o
    exact conclude_plain.mono fun _ => serves_of_plain
  · intro o
    exact recovering_plain.mono fun _ => serves_of_plain

theorem createAccount_serves {eventType : String} {email password : GoString} :
    (createAccount P S eventType email password).Issues Cmd.serves := by
  unfold createAccount
  split
  · trivial
  · split
    · trivial
    · apply Issues.bind (Issues.call trivial)
      intro uuid
      apply Issues.bind
      · apply Issues.mapErr
        apply Issues.bind (Issues.call trivial)
        intro hash
        trivial
      · intro user
        apply withTransaction_serves
        apply Issues.bind
        · apply Issues.mapErr
          apply Issues.bind (Issues.mapErr (Issues.call trivial))
          intro id
          trivial
        · intro user
          apply Issues.bind
          · apply Issues.mapErr
            apply Issues.bind (Issues.mapErr (Issues.call trivial))
            intro role
            exact Issues.mapErr (Issues.call trivial)
          · intro _
            apply Issues.bind (Issues.mapErr (sendEvent_plain.mono fun _ => serves_of_plain))
            intro _
            trivial

theorem compareDummyPassword_serves {password : GoString} :
    (compareDummyPassword password).Issues Cmd.serves := by
  apply Issues.bind (Issues.call trivial)
  intro _
  trivial

theorem login_serves {email password : GoString} :
    (login P S email password).Issues Cmd.serves := by
  unfold login
  split
  · trivial
  · split
    · trivial
    · apply Issues.bind limitAuthentication_serves
      intro _
      apply Issues.bind (Issues.attempt getUser_serves)
      intro found
      cases found with
      | error err =>
          dsimp only
          split
          · trivial
          · apply Issues.bind compareDummyPassword_serves
            intro _
            trivial
      | ok user =>
          dsimp only
          split
          · apply Issues.bind compareDummyPassword_serves
            intro _
            trivial
          · apply Issues.bind (Issues.call trivial)
            intro ok
            split
            · trivial
            · apply Issues.bind
              · exact Issues.mapErr (createSession_plain.mono fun _ => serves_of_plain)
              · intro tokens
                apply Issues.bind
                · exact Issues.attempt (sendEvent_plain.mono fun _ => serves_of_plain)
                · intro _
                  trivial

theorem parseJWTToken_serves {token : JWT} {purpose : JWTTokenPurpose} :
    (parseJWTToken P S token purpose).Issues Cmd.serves := by
  unfold parseJWTToken
  split
  · trivial
  · split
    · trivial
    · split
      · trivial
      · apply Issues.bind (Issues.mapErr (Issues.call trivial))
        intro claims
        split <;> trivial

theorem refresh_serves {token : JWT} : (refresh P S token).Issues Cmd.serves := by
  unfold refresh
  apply Issues.bind parseJWTToken_serves
  intro claims
  apply Issues.bind limitAuthentication_serves
  intro _
  apply Issues.bind (Issues.call trivial)
  intro nextTokenID
  apply Issues.bind (Issues.call trivial)
  intro now
  apply Issues.bind (generateTokens_plain.mono fun _ => serves_of_plain)
  intro tokens
  apply Issues.bind
  · apply Issues.mapErr
    apply Issues.bind
    · exact Issues.call rfl
    · intro rows
      trivial
  · intro rotated
    split
    · apply Issues.bind
      · apply Issues.mapErr
        exact Issues.call rfl
      · intro _
        trivial
    · trivial

theorem logout_serves {token : JWT} : (logout P S token).Issues Cmd.serves := by
  unfold logout
  apply Issues.bind parseJWTToken_serves
  intro claims
  apply Issues.bind
  · apply Issues.mapErr
    exact Issues.call rfl
  · intro _
    apply Issues.bind
    · apply Issues.attempt
      apply Issues.bind getUser_serves
      intro user
      exact sendEvent_plain.mono fun _ => serves_of_plain
    · intro _
      trivial

theorem validateJWTToken_serves {token : JWT} {purpose : JWTTokenPurpose} :
    (validateJWTToken P S token purpose).Issues Cmd.serves := by
  unfold validateJWTToken
  apply Issues.bind parseJWTToken_serves
  intro claims
  apply Issues.bind
  · apply Issues.mapErr
    apply Issues.mapErr
    exact Issues.call rfl
  · intro session
    split <;> trivial

theorem checkCurrentPassword_serves {user : User} {current : Option GoString} :
    (checkCurrentPassword P S user current).Issues Cmd.serves := by
  cases current with
  | none => trivial
  | some password =>
      apply Issues.bind limitAuthentication_serves
      intro _
      split
      · trivial
      · apply Issues.bind (Issues.call trivial)
        intro ok
        cases ok <;> trivial

theorem changeUser_serves {uuid : String} {data : UpdateUserData} {current : Option GoString} :
    (changeUser P S uuid data current).Issues Cmd.serves := by
  unfold changeUser
  split
  · trivial
  · split
    · trivial
    · apply withTransaction_serves
      unfold applyUpdate
      apply Issues.bind (Issues.mapErr getUser_serves)
      intro user
      apply Issues.bind checkCurrentPassword_serves
      intro _
      apply Issues.bind (setNewPassword_plain.mono fun _ => serves_of_plain)
      intro user
      split
      · exact saveUser_plain.mono fun _ => serves_of_plain
      · trivial

theorem deleteUser_serves {uuid : String} : (deleteUser uuid).Issues Cmd.serves := by
  unfold deleteUser
  apply withTransaction_serves
  apply Issues.bind (Issues.mapErr getUser_serves)
  intro user
  apply Issues.bind
  · apply Issues.mapErr
    apply Issues.bind (Issues.mapErr (Issues.call trivial))
    intro rows
    split <;> trivial
  · intro _
    exact Issues.mapErr (sendEvent_plain.mono fun _ => serves_of_plain)

/-- Every call but the cleanup serves requests. -/
theorem body_serves {req : Call} (h : req ≠ .deleteExpiredSessions) :
    (body P S req).Issues Cmd.serves := by
  have hmap : ∀ {β : Type} {p : AuthProg β} {f : β → Answer}, p.Issues Cmd.serves →
      (f <$> p).Issues Cmd.serves := fun hp => Issues.bind hp fun _ => trivial
  cases req with
  | signUp email password => exact hmap createAccount_serves
  | createUser data => exact hmap createAccount_serves
  | login email password => exact hmap login_serves
  | refresh token => exact hmap refresh_serves
  | logout token => exact hmap logout_serves
  | validateJWTToken token purpose => exact hmap validateJWTToken_serves
  | updateUser uuid data => exact hmap changeUser_serves
  | updateSelf uuid data =>
      apply hmap
      unfold updateSelf
      split
      · trivial
      · exact changeUser_serves
  | deleteUser uuid => exact hmap deleteUser_serves
  | deleteExpiredSessions => exact absurd rfl h

end Go42.Auth
