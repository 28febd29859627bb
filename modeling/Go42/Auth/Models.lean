-- SUMMARY: Rows of the authentication tables, the writes on them, and the queries the repository issues.
import Go42.Auth.Domain
import Go42.Lib.Txn
import Go42.Outbox.Models
import Mathlib.Data.List.Permutation
import Mathlib.Data.List.Sort

/-!
# Authentication tables

A column the modelled code neither reads nor decides on is left out. Soft-deleted
users and roles keep their row.
-/

namespace Go42.Auth

open Go42.Outbox

structure Permission where
  resource : String
  action : String
deriving DecidableEq, Repr

/-- `permissions` is not a column; it is filled when a user is loaded. -/
structure Role where
  id : ℤ
  name : String
  deletedAt : Option ℤ
  permissions : List Permission
deriving DecidableEq, Repr

/-- `roles` is not a column; it is filled when a user is loaded. -/
structure User where
  id : ℤ
  uuid : UUID
  email : String
  password : Option String
  credentialVersion : ℤ
  status : UserStatus
  updatedAt : ℤ
  deletedAt : Option ℤ
  roles : List Role
deriving DecidableEq, Repr

def User.isActive (u : User) : Bool := u.status = .active

structure UserRole where
  userID : ℤ
  roleID : ℤ
  expiresAt : Option ℤ
deriving DecidableEq, Repr

/-- One login and its rotating family of refresh tokens. -/
structure Session where
  id : UUID
  userID : ℤ
  credentialVersion : ℤ
  refreshTokenID : UUID
  expiresAt : ℤ
  revokedAt : Option ℤ
deriving DecidableEq, Repr

structure Tables where
  users : List User
  roles : List Role
  rolePermissions : List (ℤ × Permission)
  userRoles : List UserRole
  sessions : List Session
  outbox : List OutboxMessage
deriving DecidableEq

/-! ## Writes -/

/-- A change of one row, with the row it replaces where a row of `auth_users` changes. -/
inductive Write where
  | insertUser (u : User)
  | setUser (prev next : User)
  | insertUserRole (ur : UserRole)
  | insertSession (s : Session)
  | setSession (s : Session)
  | deleteSession (id : UUID)
  | insertOutbox (m : OutboxMessage)
deriving DecidableEq

def Tables.applyWrite (t : Tables) : Write → Tables
  | .insertUser u => { t with users := t.users ++ [u] }
  | .setUser prev next => { t with users := t.users.map fun u => if u.id = prev.id then next else u }
  | .insertUserRole ur => { t with userRoles := t.userRoles ++ [ur] }
  | .insertSession s => { t with sessions := t.sessions ++ [s] }
  | .setSession s => { t with sessions := t.sessions.map fun x => if x.id = s.id then s else x }
  | .deleteSession id => { t with sessions := t.sessions.filter fun x => x.id ≠ id }
  | .insertOutbox m => { t with outbox := t.outbox ++ [m] }

instance : Applies Tables Write := ⟨Tables.applyWrite⟩

/-- Row and unique-key locks. -/
inductive Lock where
  | user (id : ℤ)
  | email (e : String)
  | userRole (userID roleID : ℤ)
  | session (id : UUID)
deriving DecidableEq, Repr

/-! ## Queries -/

inductive UserFilter where
  | byID (id : ℤ)
  | byUUID (uuid : String)
  | byEmail (email : String)
deriving DecidableEq, Repr

/-- `emailEq` is the comparison of the column `email`: exact, or by its collation. -/
def UserFilter.matches (emailEq : String → String → Bool) (u : User) : UserFilter → Bool
  | .byID id => u.id = id
  | .byUUID uuid => u.uuid = uuid
  | .byEmail email => emailEq u.email email

/-- Not soft-deleted and selected by the filter. -/
def Tables.findUser (t : Tables) (emailEq : String → String → Bool) (f : UserFilter) :
    Option User :=
  t.users.find? fun u => u.deletedAt.isNone && f.matches emailEq u

/-- The roles of a user that are neither expired nor deleted. -/
def Tables.rolesOf (t : Tables) (userID now : ℤ) : List Role :=
  t.roles.filter fun r => r.deletedAt.isNone && t.userRoles.any fun ur =>
    ur.roleID = r.id && ur.userID = userID && ur.expiresAt.all (now < ·)

/-- The subquery for the owner of session `s`: an active account whose credentials are
those the session was opened with. -/
def Tables.hasOwner (t : Tables) (s : Session) (userUUID : String) : Bool :=
  t.users.any fun u => u.deletedAt.isNone && u.uuid = userUUID && u.status = .active &&
    u.credentialVersion = s.credentialVersion && u.id = s.userID

/-- `activeSessionQuery`. -/
def Tables.activeSessions (t : Tables) (sessionID userUUID : String) (now : ℤ) : List Session :=
  t.sessions.filter fun s =>
    s.id = sessionID && s.revokedAt.isNone && now < s.expiresAt && t.hasOwner s userUUID

/-- The rows `RevokeSession` updates; a soft-deleted owner counts. -/
def Tables.revocableSessions (t : Tables) (sessionID userUUID : String) : List Session :=
  t.sessions.filter fun s => s.id = sessionID && s.revokedAt.isNone &&
    t.users.any fun u => u.uuid = userUUID && u.id = s.userID

/-- The row `Updates(ctx, &updated)` leaves: fields with a zero value are not written,
and the time of the update is set. -/
def User.updates (row updated : User) (now : ℤ) : User where
  id := row.id
  uuid := if updated.uuid = UUID.nil then row.uuid else updated.uuid
  email := if updated.email = "" then row.email else updated.email
  password := if updated.password.isSome then updated.password else row.password
  credentialVersion :=
    if updated.credentialVersion = 0 then row.credentialVersion else updated.credentialVersion
  status := updated.status
  updatedAt := now
  deletedAt := row.deletedAt
  roles := row.roles

/-! ## Statements -/

inductive Stmt where
  | selectUser (f : UserFilter)
  | selectRoles (userID : ℤ)
  | selectRolePermissions (roleIDs : List ℤ)
  | selectRole (name : String)
  | insertUser (u : User)
  | updateUser (id version : ℤ) (updated : User)
  | deleteUser (id : ℤ)
  | insertUserRole (ur : UserRole)
  | insertSession (s : Session)
  | selectActiveSession (sessionID userUUID : String)
  | rotateSession (sessionID userUUID previousTokenID nextTokenID : String) (expiresAt : ℤ)
  | revokeSession (sessionID userUUID : String)
  | selectExpiredSessions (cutoff : ℤ) (limit : ℕ)
  | deleteSessions (ids : List UUID) (cutoff : ℤ)
  | insertOutbox (m : OutboxMessage)
deriving DecidableEq

/-- An insert answers with the key the database chose; an update or a delete with the
number of rows, and an update of a user also with its time. -/
abbrev Stmt.Res : Stmt → Type
  | selectUser _ => User
  | selectRoles _ => List Role
  | selectRolePermissions _ => List (ℤ × Permission)
  | selectRole _ => Role
  | insertUser _ => ℤ
  | updateUser _ _ _ => ℕ × ℤ
  | deleteUser _ => ℕ
  | insertUserRole _ => Unit
  | insertSession _ => Unit
  | selectActiveSession _ _ => Session
  | rotateSession _ _ _ _ _ => ℕ
  | revokeSession _ _ => Unit
  | selectExpiredSessions _ _ => List UUID
  | deleteSessions _ _ => ℕ
  | insertOutbox _ => Unit

/-- `gorm.ErrRecordNotFound`. -/
def errRecordNotFound : GoError := .leaf "record not found"

/-- A violated unique key, as the driver reports it. -/
def errDuplicatedKey : GoError := .leaf "duplicated key not allowed"

/-- A violated foreign key, as the driver reports it. -/
def errForeignKeyViolated : GoError := .leaf "violates foreign key constraint"

def isNotFoundError (err : GoError) : Bool := err.is errRecordNotFound

def isDuplicateKeyError (err : GoError) : Bool := err.is errDuplicatedKey

/-- A read: no writes, no locks. -/
def Done.read {R : Type} (r : R) : Done R Write Lock := ⟨r, [], []⟩

/-- `First`: the row, or the error for none. -/
def first {R : Type} : Option R → Except GoError (Done R Write Lock)
  | some r => .ok (Done.read r)
  | none => .error errRecordNotFound

/-- The rows in the order number `pick` of those they may come in. -/
def rowOrder (pick : ℤ) (rows : List Session) : List Session := rows.permutations'.getD pick.toNat rows

/-- No order is left out. -/
theorem exists_rowOrder {rows rows' : List Session} : (∃ pick, rowOrder pick rows = rows') ↔ rows'.Perm rows := by
  constructor
  · rintro ⟨pick, rfl⟩
    rw [rowOrder, List.getD_eq_getElem?_getD]
    cases h : rows.permutations'[pick.toNat]? with
    | none => exact .refl _
    | some order => exact List.mem_permutations'.mp (List.mem_of_getElem? h)
  · intro h
    obtain ⟨i, hi⟩ := List.mem_iff_getElem?.mp (List.mem_permutations'.mpr h)
    exact ⟨i, by simp [rowOrder, List.getD_eq_getElem?_getD, hi]⟩

/-- One statement on the data `t` at time `now`. The database picks the key of a new user, and the
order of rows that a statement does not order. -/
def Stmt.run (emailEq : String → String → Bool) (now pick : ℤ) (t : Tables) :
    (q : Stmt) → Except GoError (Done q.Res Write Lock)
  | .selectUser f => first (t.findUser emailEq f)
  | .selectRoles userID => .ok (Done.read (t.rolesOf userID now))
  | .selectRolePermissions roleIDs =>
    .ok (Done.read (t.rolePermissions.filter fun rp => roleIDs.contains rp.1))
  | .selectRole name => first (t.roles.find? fun r => r.deletedAt.isNone && r.name = name)
  | .insertUser u =>
    if t.users.any fun v => v.uuid = u.uuid || emailEq v.email u.email then
      .error errDuplicatedKey
    else
      .ok ⟨pick, [.insertUser { u with id := pick, updatedAt := now, roles := [] }],
        [.user pick, .email u.email]⟩
  | .updateUser id version updated =>
    match t.users.find? fun u => u.id = id && u.credentialVersion = version &&
        u.deletedAt.isNone with
    | none => .ok (Done.read (0, now))
    | some row =>
      let row' := row.updates updated now
      if t.users.any fun v => v.id ≠ id && emailEq v.email row'.email then
        .error errDuplicatedKey
      else .ok ⟨(1, now), [.setUser row row'], [.user id, .email row'.email]⟩
  | .deleteUser id =>
    match t.users.find? fun u => u.id = id && u.deletedAt.isNone with
    | none => .ok (Done.read 0)
    | some row => .ok ⟨1, [.setUser row { row with deletedAt := some now }], [.user id]⟩
  | .insertUserRole ur =>
    if !(t.users.any (·.id = ur.userID) && t.roles.any (·.id = ur.roleID)) then
      .error errForeignKeyViolated
    else if t.userRoles.any fun x => x.userID = ur.userID && x.roleID = ur.roleID then
      .error errDuplicatedKey
    else .ok ⟨(), [.insertUserRole ur], [.userRole ur.userID ur.roleID]⟩
  | .insertSession s =>
    if !(t.users.any (·.id = s.userID)) then .error errForeignKeyViolated
    else if t.sessions.any (·.id = s.id) then .error errDuplicatedKey
    else .ok ⟨(), [.insertSession s], [.session s.id]⟩
  | .selectActiveSession sessionID userUUID => first (t.activeSessions sessionID userUUID now).head?
  | .rotateSession sessionID userUUID previousTokenID nextTokenID expiresAt =>
    let rows := (t.activeSessions sessionID userUUID now).filter
      fun s => s.refreshTokenID = previousTokenID
    .ok ⟨rows.length,
      rows.map fun s => .setSession { s with refreshTokenID := nextTokenID, expiresAt := expiresAt },
      rows.map fun s => .session s.id⟩
  | .revokeSession sessionID userUUID =>
    let rows := t.revocableSessions sessionID userUUID
    .ok ⟨(), rows.map fun s => .setSession { s with revokedAt := some now },
      rows.map fun s => .session s.id⟩
  | .selectExpiredSessions cutoff limit =>
    -- the sort leaves rows that tie as they come
    .ok (Done.read ((((rowOrder pick (t.sessions.filter fun s => s.expiresAt ≤ cutoff)).insertionSort
      fun a b => a.expiresAt ≤ b.expiresAt).take limit).map Session.id))
  | .deleteSessions ids cutoff =>
    let rows := t.sessions.filter fun s => ids.contains s.id && s.expiresAt ≤ cutoff
    .ok ⟨rows.length, rows.map fun s => .deleteSession s.id, rows.map fun s => .session s.id⟩
  | .insertOutbox m => .ok ⟨(), [.insertOutbox { m with createdAt := now }], []⟩

/-! ### What a statement that succeeds has done -/

section Run

variable {emailEq : String → String → Bool} {now pick : ℤ} {t : Tables}

/-- `First` found the row it answers with. -/
theorem first_eq_ok {R : Type} {x : Option R} {r : Done R Write Lock} (h : first x = .ok r) :
    ∃ a, x = some a ∧ r = Done.read a := by
  cases x with
  | none => cases h
  | some a => cases h; exact ⟨a, rfl, rfl⟩

theorem Stmt.run_insertUser {u : User} {r : Done ℤ Write Lock}
    (h : (Stmt.insertUser u).run emailEq now pick t = .ok r) :
    r = ⟨pick, [.insertUser { u with id := pick, updatedAt := now, roles := [] }],
      [.user pick, .email u.email]⟩ := by
  simp only [Stmt.run] at h
  split at h <;> cases h
  rfl

/-- The unique keys of a new row are those of no other row, deleted ones included. -/
theorem Stmt.run_insertUser_unique {u : User} {r : Done ℤ Write Lock}
    (h : (Stmt.insertUser u).run emailEq now pick t = .ok r) :
    ∀ v ∈ t.users, v.uuid ≠ u.uuid ∧ emailEq v.email u.email = false := by
  simp only [Stmt.run] at h
  split at h
  · cases h
  · rename_i hunique
    simpa using hunique

/-- Nothing matched, or one row of the wanted version that is not deleted is replaced. -/
theorem Stmt.run_updateUser {id version : ℤ} {updated : User} {r : Done (ℕ × ℤ) Write Lock}
    (h : (Stmt.updateUser id version updated).run emailEq now pick t = .ok r) :
    r = Done.read (0, now) ∨ ∃ row ∈ t.users, row.id = id ∧ row.credentialVersion = version ∧
      row.deletedAt = none ∧ r = ⟨(1, now), [.setUser row (row.updates updated now)],
        [.user id, .email (row.updates updated now).email]⟩ := by
  simp only [Stmt.run] at h
  split at h
  · cases h; exact .inl rfl
  · rename_i row hfind
    split at h <;> cases h
    have hcond := List.find?_some hfind
    simp only [Bool.and_eq_true, decide_eq_true_eq, Option.isNone_iff_eq_none] at hcond
    exact .inr ⟨row, List.mem_of_find?_eq_some hfind, hcond.1.1, hcond.1.2, hcond.2, rfl⟩

/-- The email of the row that replaces another is the one of no other row. -/
theorem Stmt.run_updateUser_unique {id version : ℤ} {updated row next : User}
    {r : Done (ℕ × ℤ) Write Lock} (h : (Stmt.updateUser id version updated).run emailEq now pick t = .ok r)
    (hw : r.writes = [.setUser row next]) :
    ∀ v ∈ t.users, v.id ≠ id → emailEq v.email next.email = false := by
  simp only [Stmt.run] at h
  split at h
  · cases h; cases hw
  · split at h
    · cases h
    · rename_i hunique
      cases h
      cases hw
      simpa using hunique

theorem Stmt.run_deleteUser {id : ℤ} {r : Done ℕ Write Lock}
    (h : (Stmt.deleteUser id).run emailEq now pick t = .ok r) :
    r = Done.read 0 ∨ ∃ row ∈ t.users, row.id = id ∧ row.deletedAt = none ∧
      r = ⟨1, [.setUser row { row with deletedAt := some now }], [.user id]⟩ := by
  simp only [Stmt.run] at h
  split at h
  · cases h; exact .inl rfl
  · rename_i row hfind
    cases h
    have hcond := List.find?_some hfind
    simp only [Bool.and_eq_true, decide_eq_true_eq, Option.isNone_iff_eq_none] at hcond
    exact .inr ⟨row, List.mem_of_find?_eq_some hfind, hcond.1, hcond.2, rfl⟩

theorem Stmt.run_insertUserRole {ur : UserRole} {r : Done Unit Write Lock}
    (h : (Stmt.insertUserRole ur).run emailEq now pick t = .ok r) :
    r = ⟨(), [.insertUserRole ur], [.userRole ur.userID ur.roleID]⟩ := by
  simp only [Stmt.run] at h
  split at h
  · cases h
  · split at h <;> cases h
    rfl

theorem Stmt.run_insertSession {s : Session} {r : Done Unit Write Lock}
    (h : (Stmt.insertSession s).run emailEq now pick t = .ok r) :
    (∀ x ∈ t.sessions, x.id ≠ s.id) ∧ r = ⟨(), [.insertSession s], [.session s.id]⟩ := by
  simp only [Stmt.run] at h
  split at h
  · cases h
  · split at h
    · cases h
    · rename_i hnew
      cases h
      simpa using hnew

end Run

end Go42.Auth
