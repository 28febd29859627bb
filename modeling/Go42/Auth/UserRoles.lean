-- SUMMARY: The roles and permissions of users: `ListUsers` with its three queries for a page, `GetUserByID` with its joins, and what both load.
import Go42.Auth.Domain
import Go42.Lib.Prog
import Mathlib.Data.List.AList
import Mathlib.Data.List.Dedup
import Mathlib.Data.List.Sort

/-!
# Users with their roles

`ListUsers` fetches the roles of a whole page and the permissions of all these roles, and
stitches them together through maps. `GetUserByID` fetches those of one user. A query without
an order answers with its rows in any order.
-/

namespace Go42.Auth.UserRoles

/-! ## Tables -/

structure UserRow where
  id : ℤ
  uuid : UUID
  email : String
  password : Option String
  credentialVersion : ℤ
  status : String
  isSystem : Bool
  metadata : String
  createdAt : ℤ
  updatedAt : ℤ
  deletedAt : Option ℤ
deriving DecidableEq

structure RoleRow where
  id : ℤ
  name : String
  description : String
  isSystem : Bool
  createdAt : ℤ
  updatedAt : ℤ
  deletedAt : Option ℤ
deriving DecidableEq

structure Permission where
  id : ℤ
  resource : String
  action : String
  createdAt : ℤ
deriving DecidableEq

structure UserRole where
  userID : ℤ
  roleID : ℤ
  createdAt : ℤ
  expiresAt : Option ℤ
deriving DecidableEq

structure RolePermission where
  roleID : ℤ
  permissionID : ℤ
deriving DecidableEq

/-- The tables, with their primary keys. -/
structure Tables where
  users : List UserRow
  roles : List RoleRow
  userRoles : List UserRole
  permissions : List Permission
  rolePermissions : List RolePermission
  users_key : (users.map UserRow.id).Nodup
  roles_key : (roles.map RoleRow.id).Nodup
  userRoles_key : (userRoles.map fun ur => (ur.userID, ur.roleID)).Nodup
  permissions_key : (permissions.map Permission.id).Nodup
  rolePermissions_key : rolePermissions.Nodup

/-! ## Models -/

structure Role where
  row : RoleRow
  permissions : List Permission
deriving DecidableEq

structure User where
  row : UserRow
  roles : List Role
deriving DecidableEq

structure UserRoleProjection where
  userID : ℤ
  role : Role
deriving DecidableEq

structure RolePermissionProjection where
  roleID : ℤ
  permission : Permission
deriving DecidableEq

/-! ## Queries -/

/-- `expires_at IS NULL OR expires_at > now`. -/
def UserRole.isLive (ur : UserRole) (now : ℤ) : Bool := ur.expiresAt.all (now < ·)

namespace Tables

variable (t : Tables)

/-- The scope of the model leaves out the users that are soft-deleted. -/
def page (limit offset : ℤ) : List UserRow :=
  let users := ((t.users.filter fun u => u.deletedAt.isNone).insertionSort
    fun a b => a.id ≤ b.id).drop offset.toNat
  if limit < 0 then users else users.take limit.toNat

def userByID (id : ℤ) : Option UserRow := t.users.find? fun u => u.deletedAt.isNone && u.id = id

/-- `auth_user_roles JOIN auth_roles`, for the given users. -/
def userRolesOf (userIDs : List ℤ) (now : ℤ) : List UserRoleProjection :=
  t.userRoles.flatMap fun ur =>
    (t.roles.filter fun r =>
      r.id = ur.roleID && userIDs.contains ur.userID && ur.isLive now && r.deletedAt.isNone).map
        fun r => ⟨ur.userID, ⟨r, []⟩⟩

/-- `DISTINCT` rows of `auth_roles JOIN auth_user_roles`, for one user. -/
def rolesOf (userID now : ℤ) : List Role :=
  (t.roles.flatMap fun r =>
    (t.userRoles.filter fun ur =>
      ur.roleID = r.id && ur.userID = userID && ur.isLive now && r.deletedAt.isNone).map
        fun _ => (⟨r, []⟩ : Role)).dedup

/-- `auth_permissions JOIN auth_role_permissions`, for the given roles. -/
def permissionsOf (roleIDs : List ℤ) : List RolePermissionProjection :=
  t.permissions.flatMap fun p =>
    (t.rolePermissions.filter fun rp => rp.permissionID = p.id && roleIDs.contains rp.roleID).map
      fun rp => ⟨rp.roleID, p⟩

end Tables

inductive Query where
  | now
  | listUsers (limit offset : ℤ)
  | userRoles (userIDs : List ℤ) (now : ℤ)
  | userByID (id : ℤ)
  | roles (userID now : ℤ)
  | rolePermissions (roleIDs : List ℤ)

abbrev Query.Res : Query → Type
  | now => ℤ
  | listUsers _ _ => List User
  | userRoles _ _ => List UserRoleProjection
  | userByID _ => User
  | roles _ _ => List Role
  | rolePermissions _ => List RolePermissionProjection

/-- `gorm.ErrRecordNotFound`. -/
def errRecordNotFound : GoError := .leaf "record not found"

/-- A database with these tables. Rows come in any order where a query has none, and a query
may fail. -/
structure Database (t : Tables) where
  userRoles : List ℤ → ℤ → List UserRoleProjection
  roles : ℤ → ℤ → List Role
  rolePermissions : List ℤ → List RolePermissionProjection
  failure : Query → Option GoError
  userRoles_perm : ∀ userIDs now, (userRoles userIDs now).Perm (t.userRolesOf userIDs now)
  roles_perm : ∀ userID now, (roles userID now).Perm (t.rolesOf userID now)
  rolePermissions_perm : ∀ roleIDs, (rolePermissions roleIDs).Perm (t.permissionsOf roleIDs)

/-- The rows that a query selects. -/
def Database.rows {t : Tables} (db : Database t) (now : ℤ) : (q : Query) → Outcome q.Res
  | .now => .returned now
  | .listUsers limit offset => .returned ((t.page limit offset).map fun u => ⟨u, []⟩)
  | .userRoles userIDs now => .returned (db.userRoles userIDs now)
  | .userByID id =>
    match t.userByID id with
    | some u => .returned ⟨u, []⟩
    | none => .failed errRecordNotFound
  | .roles userID now => .returned (db.roles userID now)
  | .rolePermissions roleIDs => .returned (db.rolePermissions roleIDs)

/-- The answer to a query at time `now`. -/
def Database.serve {t : Tables} (db : Database t) (now : ℤ) (q : Query) (s : Unit) :
    Outcome q.Res × Unit :=
  match db.failure q with
  | some err => (.failed err, s)
  | none => (db.rows now q, s)

abbrev UsersProg := Prog Query Query.Res

abbrev call (q : Query) : UsersProg q.Res := Prog.call q

/-! ## The repository -/

namespace Repository

def loadRolePermissions (roleIDs : List ℤ) : UsersProg (List RolePermissionProjection) :=
  call (.rolePermissions roleIDs)

/-- The ids of the roles in the order of their first rows, and a role for each. -/
def collectRoles (userRoles : List UserRoleProjection) : List ℤ × AList fun _ : ℤ => Role :=
  userRoles.foldl (fun acc ur =>
    if ur.role.row.id ∈ acc.2 then acc
    else (acc.1 ++ [ur.role.row.id], acc.2.insert ur.role.row.id ur.role)) ([], ∅)

/-- Each permission is appended to its role, in place. -/
def addPermissions (roleMap : AList fun _ : ℤ => Role)
    (rolePermissions : List RolePermissionProjection) : AList fun _ : ℤ => Role :=
  rolePermissions.foldl (fun roleMap rp =>
    match roleMap.lookup rp.roleID with
    | some role =>
      roleMap.insert rp.roleID { role with permissions := role.permissions ++ [rp.permission] }
    | none => roleMap) roleMap

/-- A copy of its role is appended to the user of each row. -/
def assignRoles (roleMap : AList fun _ : ℤ => Role) (userRoles : List UserRoleProjection)
    (users : List User) : List User :=
  userRoles.foldl (fun users ur =>
    match roleMap.lookup ur.role.row.id with
    | some role =>
      users.map fun u => if u.row.id = ur.userID then { u with roles := u.roles ++ [role] } else u
    | none => users) users

def listUsers (limit offset : ℤ) : UsersProg (List User) := do
  let users ← (call (.listUsers limit offset)).mapErr fun err => .wrap "error listing users: " err ""
  if users = [] then return users
  else
    let now ← call .now
    let userRoles ← (call (.userRoles (users.map fun u => u.row.id) now)).mapErr fun err =>
      .wrap "error fetching user roles: " err ""
    let (roleIDs, roleMap) := collectRoles userRoles
    if roleIDs = [] then return assignRoles roleMap userRoles users
    else
      let rolePermissions ← (loadRolePermissions roleIDs).mapErr fun err =>
        .wrap "error fetching permissions: " err ""
      return assignRoles (addPermissions roleMap rolePermissions) userRoles users

/-- `permissionMap`. -/
def permissionMap (permissions : List RolePermissionProjection) : AList fun _ : ℤ => List Permission :=
  permissions.foldl (fun m p => m.insert p.roleID ((m.lookup p.roleID).getD [] ++ [p.permission])) ∅

def getUserByID (id : ℤ) : UsersProg User := do
  let user ← (call (.userByID id)).mapErr fun err =>
    if err.is errRecordNotFound then errEntityNotFound else err
  let now ← call .now
  let roles ← (call (.roles user.row.id now)).mapErr fun err =>
    .wrap "error fetching roles: " err ""
  if roles = [] then return { user with roles := roles }
  else
    let permissions ← (loadRolePermissions (roles.map fun r => r.row.id)).mapErr fun err =>
      .wrap "error fetching permissions: " err ""
    let permissionMap := permissionMap permissions
    return { user with roles := roles.map fun r =>
      { r with permissions := (permissionMap.lookup r.row.id).getD [] } }

end Repository

/-! ## What is to be loaded -/

namespace Tables

variable (t : Tables) (now : ℤ)

/-- The role is not deleted, and assigned to the user by a row that has not expired. -/
def HasRole (userID : ℤ) (r : RoleRow) : Prop :=
  r ∈ t.roles ∧ r.deletedAt = none ∧
    ∃ ur ∈ t.userRoles, ur.userID = userID ∧ ur.roleID = r.id ∧ ur.isLive now = true

def HasPermission (roleID : ℤ) (p : Permission) : Prop :=
  p ∈ t.permissions ∧ (⟨roleID, p.id⟩ : RolePermission) ∈ t.rolePermissions

/-- A user with the roles and permissions that are the user's own, each role once. -/
structure Loaded (u : User) : Prop where
  nodup : (u.roles.map Role.row).Nodup
  roles : ∀ r, r ∈ u.roles.map Role.row ↔ t.HasRole now u.row.id r
  permissions : ∀ role ∈ u.roles, ∀ p, p ∈ role.permissions ↔ t.HasPermission role.row.id p

end Tables

/-! ## The queries select what is to be loaded -/

variable {t : Tables} {now : ℤ}

theorem mem_userRolesOf {userIDs : List ℤ} {x : UserRoleProjection} :
    x ∈ t.userRolesOf userIDs now ↔
      x.userID ∈ userIDs ∧ t.HasRole now x.userID x.role.row ∧ x.role.permissions = [] := by
  simp only [Tables.userRolesOf, List.mem_flatMap, List.mem_map, List.mem_filter, Bool.and_eq_true,
    decide_eq_true_eq, List.contains_iff_mem, Option.isNone_iff_eq_none]
  constructor
  · rintro ⟨ur, hur, r, ⟨hr, ⟨⟨hid, hmem⟩, hlive⟩, hdeleted⟩, rfl⟩
    exact ⟨hmem, ⟨hr, hdeleted, ur, hur, rfl, hid.symm, hlive⟩, rfl⟩
  · rintro ⟨hmem, ⟨hr, hdeleted, ur, hur, hid, hid', hlive⟩, hperms⟩
    refine ⟨ur, hur, x.role.row, ⟨hr, ⟨⟨hid'.symm, hid ▸ hmem⟩, hlive⟩, hdeleted⟩, ?_⟩
    rw [hid, ← hperms]

theorem mem_rolesOf {userID : ℤ} {role : Role} :
    role ∈ t.rolesOf userID now ↔ t.HasRole now userID role.row ∧ role.permissions = [] := by
  simp only [Tables.rolesOf, List.mem_dedup, List.mem_flatMap, List.mem_map, List.mem_filter,
    Bool.and_eq_true, decide_eq_true_eq, Option.isNone_iff_eq_none]
  constructor
  · rintro ⟨r, hr, ur, ⟨hur, ⟨⟨hid, huser⟩, hlive⟩, hdeleted⟩, rfl⟩
    exact ⟨⟨hr, hdeleted, ur, hur, huser, hid, hlive⟩, rfl⟩
  · rintro ⟨⟨hr, hdeleted, ur, hur, huser, hid, hlive⟩, hperms⟩
    refine ⟨role.row, hr, ur, ⟨hur, ⟨⟨hid, huser⟩, hlive⟩, hdeleted⟩, ?_⟩
    rw [← hperms]

theorem mem_permissionsOf {roleIDs : List ℤ} {x : RolePermissionProjection} :
    x ∈ t.permissionsOf roleIDs ↔ x.roleID ∈ roleIDs ∧ t.HasPermission x.roleID x.permission := by
  simp only [Tables.permissionsOf, List.mem_flatMap, List.mem_map, List.mem_filter,
    Bool.and_eq_true, decide_eq_true_eq, List.contains_iff_mem]
  constructor
  · rintro ⟨p, hp, ⟨roleID, permissionID⟩, ⟨hrp, hid, hmem⟩, rfl⟩
    exact ⟨hmem, hp, hid ▸ hrp⟩
  · rintro ⟨hmem, hp, hrp⟩
    exact ⟨x.permission, hp, ⟨x.roleID, x.permission.id⟩, ⟨hrp, rfl, hmem⟩, rfl⟩

/-- A row of `auth_user_roles` finds its role once, and no other row has its key. -/
theorem userRolesOf_nodup (userIDs : List ℤ) :
    ((t.userRolesOf userIDs now).map fun x => (x.userID, x.role.row.id)).Nodup := by
  rw [Tables.userRolesOf, List.map_flatMap, List.nodup_flatMap]
  constructor
  · intro ur _
    rw [List.map_map]
    have hids : ((t.roles.filter fun r => r.id = ur.roleID && userIDs.contains ur.userID &&
        ur.isLive now && r.deletedAt.isNone).map RoleRow.id).Nodup :=
      t.roles_key.sublist (List.filter_sublist.map _)
    exact (List.nodup_map_iff_inj_on hids.of_map).mpr fun r hr r' hr' heq =>
      List.inj_on_of_nodup_map hids hr hr' (Prod.mk.inj heq).2
  · apply (List.pairwise_map.mp t.userRoles_key).imp
    intro ur ur' hne x hx hx'
    simp only [List.map_map, List.mem_map, List.mem_filter, Bool.and_eq_true, decide_eq_true_eq,
      Function.comp_apply] at hx hx'
    obtain ⟨r, ⟨-, ⟨⟨hid, -⟩, -⟩, -⟩, rfl⟩ := hx
    obtain ⟨r', ⟨-, ⟨⟨hid', -⟩, -⟩, -⟩, heq⟩ := hx'
    apply hne
    rw [Prod.mk.injEq] at heq ⊢
    exact ⟨heq.1.symm, by rw [← hid, ← hid', heq.2]⟩

theorem rolesOf_nodup (userID : ℤ) : (t.rolesOf userID now).Nodup := List.nodup_dedup _

/-! ## The maps -/

namespace Repository

theorem collectRoles_append (userRoles : List UserRoleProjection) (ur : UserRoleProjection) :
    collectRoles (userRoles ++ [ur]) =
      if ur.role.row.id ∈ (collectRoles userRoles).2 then collectRoles userRoles
      else ((collectRoles userRoles).1 ++ [ur.role.row.id],
        (collectRoles userRoles).2.insert ur.role.row.id ur.role) :=
  List.foldl_append ..

/-- The map has exactly the roles that occur, and their ids are listed. -/
theorem collectRoles_spec (userRoles : List UserRoleProjection) :
    (∀ id, id ∈ (collectRoles userRoles).1 ↔ id ∈ (collectRoles userRoles).2) ∧
      (∀ ur ∈ userRoles, ur.role.row.id ∈ (collectRoles userRoles).2) ∧
      ∀ id role, (collectRoles userRoles).2.lookup id = some role →
        role.row.id = id ∧ ∃ ur ∈ userRoles, ur.role = role := by
  induction userRoles using List.reverseRecOn with
  | nil => simp [collectRoles]
  | append_singleton userRoles ur ih =>
      obtain ⟨hids, hmem, hlookup⟩ := ih
      rw [collectRoles_append]
      split
      case isTrue hseen =>
        refine ⟨hids, ?_, ?_⟩
        · intro ur' hur'
          rw [List.mem_append, List.mem_singleton] at hur'
          rcases hur' with hold | rfl
          · exact hmem ur' hold
          · exact hseen
        · intro id role h
          obtain ⟨hid, ur', hur', heq⟩ := hlookup id role h
          exact ⟨hid, ur', List.mem_append_left _ hur', heq⟩
      case isFalse hnew =>
        refine ⟨?_, ?_, ?_⟩
        · intro id
          rw [List.mem_append, List.mem_singleton, AList.mem_insert, hids, or_comm]
        · intro ur' hur'
          rw [List.mem_append, List.mem_singleton] at hur'
          rw [AList.mem_insert]
          rcases hur' with hold | rfl
          · exact .inr (hmem ur' hold)
          · exact .inl rfl
        · intro id role h
          rcases eq_or_ne id ur.role.row.id with rfl | hne
          · rw [AList.lookup_insert] at h
            cases h
            exact ⟨rfl, ur, List.mem_append_right _ List.mem_cons_self, rfl⟩
          · rw [AList.lookup_insert_ne hne] at h
            obtain ⟨hid, ur', hur', heq⟩ := hlookup id role h
            exact ⟨hid, ur', List.mem_append_left _ hur', heq⟩

/-- The permissions of one role. -/
def permissionsFor (id : ℤ) (rolePermissions : List RolePermissionProjection) : List Permission :=
  (rolePermissions.filter fun rp => rp.roleID = id).map RolePermissionProjection.permission

/-- Each role gets the permissions of its id behind those it has. -/
theorem lookup_addPermissions (id : ℤ) (rolePermissions : List RolePermissionProjection) :
    ∀ roleMap, (addPermissions roleMap rolePermissions).lookup id =
      (roleMap.lookup id).map fun role =>
        { role with permissions := role.permissions ++ permissionsFor id rolePermissions } := by
  unfold permissionsFor
  induction rolePermissions with
  | nil => intro roleMap; simp [addPermissions]
  | cons rp rolePermissions ih =>
      intro roleMap
      have hstep : addPermissions roleMap (rp :: rolePermissions) =
          addPermissions (match roleMap.lookup rp.roleID with
            | some role => roleMap.insert rp.roleID
                { role with permissions := role.permissions ++ [rp.permission] }
            | none => roleMap) rolePermissions := rfl
      rw [hstep, ih]
      rcases eq_or_ne id rp.roleID with rfl | hne
      · cases hrole : roleMap.lookup rp.roleID with
        | none => simp [hrole]
        | some role => simp
      · have hne' : ¬rp.roleID = id := fun heq => hne heq.symm
        cases hrole : roleMap.lookup rp.roleID with
        | none => simp [hne']
        | some role => simp [AList.lookup_insert_ne hne, hne']

/-- Each user gets the roles of the rows with the user's id. -/
theorem assignRoles_eq (roleMap : AList fun _ : ℤ => Role) (userRoles : List UserRoleProjection) :
    ∀ users, assignRoles roleMap userRoles users = users.map fun u => { u with roles := u.roles ++
      ((userRoles.filter fun ur => ur.userID = u.row.id).filterMap
        fun ur => roleMap.lookup ur.role.row.id) } := by
  induction userRoles with
  | nil => intro users; simp [assignRoles]
  | cons ur userRoles ih =>
      intro users
      have hstep : assignRoles roleMap (ur :: userRoles) users =
          assignRoles roleMap userRoles (match roleMap.lookup ur.role.row.id with
            | some role => users.map fun u =>
                if u.row.id = ur.userID then { u with roles := u.roles ++ [role] } else u
            | none => users) := rfl
      rw [hstep, ih]
      cases hrole : roleMap.lookup ur.role.row.id with
      | none =>
          apply List.map_congr_left
          intro u _
          by_cases hu : ur.userID = u.row.id <;> simp [hu, hrole]
      | some role =>
          rw [List.map_map]
          apply List.map_congr_left
          intro u _
          by_cases hu : ur.userID = u.row.id
          · simp [hu, hrole]
          · have hu' : ¬u.row.id = ur.userID := fun heq => hu heq.symm
            simp [hu, hu']

theorem lookup_permissionMap (id : ℤ) (permissions : List RolePermissionProjection) :
    ((permissionMap permissions).lookup id).getD [] = permissionsFor id permissions := by
  unfold permissionsFor
  induction permissions using List.reverseRecOn with
  | nil => rfl
  | append_singleton permissions rp ih =>
      have hstep : permissionMap (permissions ++ [rp]) = (permissionMap permissions).insert rp.roleID
          (((permissionMap permissions).lookup rp.roleID).getD [] ++ [rp.permission]) := by
        simp [permissionMap, List.foldl_append]
      rw [hstep]
      rcases eq_or_ne id rp.roleID with rfl | hne
      · simp [ih]
      · have hne' : ¬rp.roleID = id := fun heq => hne heq.symm
        rw [AList.lookup_insert_ne hne, ih]
        simp [hne']

end Repository

/-! ## What is loaded -/

variable {db : Database t}

/-- A query that is answered is answered with its rows. -/
theorem rows_of_served {q : Query} {a : q.Res} {s s' : Unit}
    (h : (call q).alone (db.serve now) s = (.returned a, s')) : db.rows now q = .returned a := by
  have hserve : db.serve now q s = (.returned a, s') := h
  unfold Database.serve at hserve
  split at hserve
  · cases hserve
  · exact congrArg Prod.fst hserve

namespace Repository

/-- What `ListUsers` returns: the page, each user with the roles of the map. -/
theorem listUsers_returned {limit offset : ℤ} {users : List User}
    (h : ((listUsers limit offset).alone (db.serve now) ()).1 = .returned users) :
    ∃ roleMap : AList fun _ : ℤ => Role,
      let userRoles := db.userRoles ((t.page limit offset).map UserRow.id) now
      let rolePermissions := db.rolePermissions (collectRoles userRoles).1
      (∀ id, roleMap.lookup id = ((collectRoles userRoles).2.lookup id).map fun role =>
        { role with permissions := role.permissions ++ permissionsFor id rolePermissions }) ∧
      users = assignRoles roleMap userRoles ((t.page limit offset).map fun u => ⟨u, []⟩) := by
  unfold listUsers at h
  obtain ⟨users₀, _, h₀, h⟩ := Prog.alone_bind_returned h
  cases rows_of_served (Prog.alone_mapErr_returned h₀)
  split at h
  case isTrue hempty =>
    cases h
    refine ⟨addPermissions (collectRoles (db.userRoles ((t.page limit offset).map UserRow.id) now)).2
      _, fun id => lookup_addPermissions id _ _, ?_⟩
    rw [hempty, assignRoles_eq]
    rfl
  case isFalse hsome =>
    obtain ⟨now', _, h₁, h⟩ := Prog.alone_bind_returned h
    cases rows_of_served h₁
    obtain ⟨userRoles, _, h₂, h⟩ := Prog.alone_bind_returned h
    cases rows_of_served (Prog.alone_mapErr_returned h₂)
    have hpage : ((t.page limit offset).map fun u => (⟨u, []⟩ : User)).map (fun u => u.row.id) =
        (t.page limit offset).map UserRow.id := List.map_map ..
    rw [hpage] at h
    dsimp only at h
    split at h
    case isTrue hnone =>
      cases h
      refine ⟨_, fun id => ?_, rfl⟩
      -- No role was collected.
      obtain ⟨hids, -, -⟩ := collectRoles_spec (db.userRoles ((t.page limit offset).map UserRow.id) now)
      have hlookup : (collectRoles (db.userRoles ((t.page limit offset).map UserRow.id) now)).2.lookup
          id = none := by
        rw [AList.lookup_eq_none, ← hids, hnone]
        exact List.not_mem_nil
      exact hlookup.trans (congrArg (Option.map _) hlookup).symm
    case isFalse =>
      obtain ⟨rolePermissions, _, h₃, h⟩ := Prog.alone_bind_returned h
      cases rows_of_served (Prog.alone_mapErr_returned h₃)
      cases h
      exact ⟨_, fun id => lookup_addPermissions id _ _, rfl⟩

/-- The users that `ListUsers` and `GetUserByID` make of a row and the rows of its roles. -/
def withRoles (row : UserRow) (roles : List RoleRow)
    (rolePermissions : List RolePermissionProjection) : User :=
  ⟨row, roles.map fun r => ⟨r, permissionsFor r.id rolePermissions⟩⟩

theorem mem_permissionsFor {id : ℤ} {rolePermissions : List RolePermissionProjection} {p : Permission} :
    p ∈ permissionsFor id rolePermissions ↔ (⟨id, p⟩ : RolePermissionProjection) ∈ rolePermissions := by
  simp only [permissionsFor, List.mem_map, List.mem_filter, decide_eq_true_eq]
  constructor
  · rintro ⟨rp, ⟨hrp, rfl⟩, rfl⟩
    exact hrp
  · exact fun h => ⟨_, ⟨h, rfl⟩, rfl⟩

/-- A user made of the right rows is loaded. -/
theorem withRoles_loaded {row : UserRow} {roles : List RoleRow} {roleIDs : List ℤ}
    (hnodup : roles.Nodup) (hroles : ∀ r, r ∈ roles ↔ t.HasRole now row.id r)
    (hids : ∀ r ∈ roles, r.id ∈ roleIDs) :
    t.Loaded now (withRoles row roles (db.rolePermissions roleIDs)) where
  nodup := by
    rw [withRoles, List.map_map]
    exact (List.map_id roles).symm ▸ hnodup
  roles := by
    intro r
    rw [withRoles, List.map_map]
    exact (List.map_id roles).symm ▸ hroles r
  permissions := by
    intro role hrole p
    obtain ⟨r, hr, rfl⟩ := List.mem_map.mp hrole
    rw [mem_permissionsFor, (db.rolePermissions_perm roleIDs).mem_iff, mem_permissionsOf]
    exact and_iff_right (hids r hr)

/-- The row of an id is unique, so a role of the map is the role of every row with its id. -/
theorem lookup_collectRoles {userIDs : List ℤ} {ur : UserRoleProjection}
    (h : ur ∈ db.userRoles userIDs now) :
    (collectRoles (db.userRoles userIDs now)).2.lookup ur.role.row.id = some ur.role := by
  have hselected {x : UserRoleProjection} (hx : x ∈ db.userRoles userIDs now) :
      x.role.row ∈ t.roles ∧ x.role.permissions = [] := by
    obtain ⟨-, ⟨hrole, -⟩, hperms⟩ := mem_userRolesOf.mp ((db.userRoles_perm userIDs now).mem_iff.mp hx)
    exact ⟨hrole, hperms⟩
  obtain ⟨-, hmem, hlookup⟩ := collectRoles_spec (db.userRoles userIDs now)
  obtain ⟨role, hrole⟩ := Option.isSome_iff_exists.mp (AList.lookup_isSome.mpr (hmem ur h))
  obtain ⟨hid, ur', hur', heq⟩ := hlookup _ _ hrole
  obtain ⟨hrow, hperms⟩ := hselected h
  obtain ⟨hrow', hperms'⟩ := hselected hur'
  rw [heq] at hrow' hperms'
  have hsame : role = ur.role := by
    cases role
    cases hr : ur.role
    simp only [Role.mk.injEq]
    rw [hr] at hrow hperms hid
    exact ⟨List.inj_on_of_nodup_map t.roles_key hrow' hrow hid, hperms'.trans hperms.symm⟩
  rw [hrole, hsame]

/-- The users that `ListUsers` returns are those of the page, each with its own roles. -/
theorem listUsers_loaded {limit offset : ℤ} {users : List User}
    (h : ((listUsers limit offset).alone (db.serve now) ()).1 = .returned users) :
    users.map User.row = t.page limit offset ∧ ∀ u ∈ users, t.Loaded now u := by
  obtain ⟨roleMap, hroleMap, rfl⟩ := listUsers_returned h
  rw [assignRoles_eq]
  refine ⟨by rw [List.map_map, List.map_map]; exact List.map_id _, fun u hu => ?_⟩
  obtain ⟨u₀, hu₀, rfl⟩ := List.mem_map.mp hu
  obtain ⟨row, hrow, rfl⟩ := List.mem_map.mp hu₀
  have hid : row.id ∈ (t.page limit offset).map UserRow.id := List.mem_map_of_mem hrow
  have hperm := db.userRoles_perm ((t.page limit offset).map UserRow.id) now
  generalize hids : (t.page limit offset).map UserRow.id = userIDs at *
  let own := (db.userRoles userIDs now).filter fun ur => ur.userID = row.id
  have hown {ur : UserRoleProjection} (hur : ur ∈ own) :
      ur ∈ db.userRoles userIDs now ∧ ur.userID = row.id := by simpa [own] using hur
  -- The roles of the map are those of the rows, with their permissions.
  have hroles : own.filterMap (fun ur => roleMap.lookup ur.role.row.id) =
      (own.map fun ur => ur.role.row).map fun r => ⟨r, permissionsFor r.id
        (db.rolePermissions (collectRoles (db.userRoles userIDs now)).1)⟩ := by
    rw [List.map_map, ← List.filterMap_eq_map]
    apply List.filterMap_congr
    intro ur hur
    have hur' := (hown hur).1
    rw [hroleMap, lookup_collectRoles hur']
    obtain ⟨-, -, hperms⟩ := mem_userRolesOf.mp (hperm.mem_iff.mp hur')
    simp [hperms]
  have hloaded : t.Loaded now (withRoles row (own.map fun ur => ur.role.row)
      (db.rolePermissions (collectRoles (db.userRoles userIDs now)).1)) := by
    apply withRoles_loaded
    · have hkeys := ((hperm.map _).nodup_iff.mpr (userRolesOf_nodup userIDs)).sublist
        (List.filter_sublist.map _ : (own.map _).Sublist _)
      apply (List.nodup_map_iff_inj_on hkeys.of_map).mpr
      intro ur hur ur' hur' heq
      apply List.inj_on_of_nodup_map hkeys hur hur'
      rw [(hown hur).2, (hown hur').2, heq]
    · intro r
      rw [List.mem_map]
      constructor
      · rintro ⟨ur, hur, rfl⟩
        obtain ⟨hmem, huser⟩ := hown hur
        obtain ⟨-, hrole, -⟩ := mem_userRolesOf.mp (hperm.mem_iff.mp hmem)
        exact huser ▸ hrole
      · intro hrole
        refine ⟨⟨row.id, ⟨r, []⟩⟩, ?_, rfl⟩
        have hmem : (⟨row.id, ⟨r, []⟩⟩ : UserRoleProjection) ∈ db.userRoles userIDs now :=
          hperm.mem_iff.mpr (mem_userRolesOf.mpr ⟨hid, hrole, rfl⟩)
        simpa [own] using hmem
    · intro r hr
      obtain ⟨ur, hur, rfl⟩ := List.mem_map.mp hr
      obtain ⟨hcollected, hmem, -⟩ := collectRoles_spec (db.userRoles userIDs now)
      exact (hcollected _).mpr (hmem ur (hown hur).1)
  show t.Loaded now ⟨row, [] ++ own.filterMap fun ur => roleMap.lookup ur.role.row.id⟩
  rw [List.nil_append, hroles]
  exact hloaded

theorem selectedUser {id : ℤ} {user : User} (h : db.rows now (.userByID id) = .returned user) :
    ∃ row, t.userByID id = some row ∧ user = ⟨row, []⟩ := by
  unfold Database.rows at h
  dsimp only at h
  cases hrow : t.userByID id with
  | none => rw [hrow] at h; cases h
  | some row => rw [hrow] at h; cases h; exact ⟨row, rfl, rfl⟩

/-- The user that `GetUserByID` returns has its own roles. -/
theorem getUserByID_loaded {id : ℤ} {user : User}
    (h : ((getUserByID id).alone (db.serve now) ()).1 = .returned user) :
    t.userByID id = some user.row ∧ t.Loaded now user := by
  unfold getUserByID at h
  obtain ⟨user₀, _, h₀, h⟩ := Prog.alone_bind_returned h
  obtain ⟨row, hrow, rfl⟩ := selectedUser (rows_of_served (Prog.alone_mapErr_returned h₀))
  obtain ⟨now', _, h₁, h⟩ := Prog.alone_bind_returned h
  cases rows_of_served h₁
  obtain ⟨roles, _, h₂, h⟩ := Prog.alone_bind_returned h
  cases rows_of_served (Prog.alone_mapErr_returned h₂)
  have hperm := db.roles_perm row.id now
  have hselected {role : Role} : role ∈ db.roles row.id now ↔
      t.HasRole now row.id role.row ∧ role.permissions = [] := hperm.mem_iff.trans mem_rolesOf
  have hmem (r : RoleRow) : r ∈ (db.roles row.id now).map Role.row ↔ t.HasRole now row.id r := by
    rw [List.mem_map]
    constructor
    · rintro ⟨role, hrole, rfl⟩
      exact (hselected.mp hrole).1
    · exact fun hr => ⟨⟨r, []⟩, hselected.mpr ⟨hr, rfl⟩, rfl⟩
  have hnodup : ((db.roles row.id now).map Role.row).Nodup := by
    apply (List.nodup_map_iff_inj_on (hperm.nodup_iff.mpr (rolesOf_nodup _))).mpr
    rintro ⟨r, perms⟩ hr ⟨r', perms'⟩ hr' heq
    obtain rfl : perms = [] := (hselected.mp hr).2
    obtain rfl : perms' = [] := (hselected.mp hr').2
    exact congrArg (Role.mk · []) heq
  split at h
  case isTrue hnone =>
    cases h
    have hnone' : db.roles row.id now = [] := hnone
    refine ⟨hrow, ?_⟩
    show t.Loaded now ⟨row, db.roles row.id now⟩
    rw [hnone'] at hmem ⊢
    exact ⟨List.nodup_nil, hmem, by simp⟩
  case isFalse =>
    obtain ⟨permissions, _, h₃, h⟩ := Prog.alone_bind_returned h
    cases rows_of_served (Prog.alone_mapErr_returned h₃)
    cases h
    refine ⟨hrow, ?_⟩
    have hloaded : t.Loaded now (withRoles row ((db.roles row.id now).map Role.row)
        (db.rolePermissions ((db.roles row.id now).map fun r => r.row.id))) := by
      apply withRoles_loaded hnodup hmem
      intro r hr
      obtain ⟨role, hrole, rfl⟩ := List.mem_map.mp hr
      exact List.mem_map_of_mem hrole
    rw [withRoles, List.map_map] at hloaded
    simpa only [lookup_permissionMap, Function.comp_def] using hloaded

end Repository

/-! ## Both load the same -/

/-- The same roles, each once, with the same permissions. -/
structure SameRoles (roles roles' : List Role) : Prop where
  nodup : (roles.map Role.row).Nodup
  nodup' : (roles'.map Role.row).Nodup
  rows : ∀ r, r ∈ roles.map Role.row ↔ r ∈ roles'.map Role.row
  permissions : ∀ role ∈ roles, ∀ role' ∈ roles', role.row = role'.row →
    ∀ p, p ∈ role.permissions ↔ p ∈ role'.permissions

theorem Tables.Loaded.sameRoles {u u' : User} (h : t.Loaded now u) (h' : t.Loaded now u')
    (hrow : u.row = u'.row) : SameRoles u.roles u'.roles where
  nodup := h.nodup
  nodup' := h'.nodup
  rows r := by rw [h.roles, h'.roles, hrow]
  permissions role hrole role' hrole' heq p := by
    rw [h.permissions role hrole, h'.permissions role' hrole', heq]

theorem userByID_of_page {limit offset : ℤ} {row : UserRow} (h : row ∈ t.page limit offset) :
    t.userByID row.id = some row := by
  have hrow : row ∈ t.users.filter fun u => u.deletedAt.isNone := by
    apply (List.perm_insertionSort (fun a b : UserRow => a.id ≤ b.id) _).mem_iff.mp
    unfold Tables.page at h
    dsimp only at h
    split at h
    · exact (List.drop_sublist _ _).subset h
    · exact (List.drop_sublist _ _).subset ((List.take_sublist _ _).subset h)
  obtain ⟨hmem, hlive⟩ := List.mem_filter.mp hrow
  cases hfind : t.userByID row.id with
  | none =>
      have hnone := List.find?_eq_none.mp hfind row hmem
      simp only [hlive, decide_true, Bool.and_self, not_true_eq_false] at hnone
  | some row' =>
      have hmatch : (row'.deletedAt.isNone && decide (row'.id = row.id)) = true :=
        List.find?_some (p := fun u : UserRow => u.deletedAt.isNone && u.id = row.id) hfind
      have hid := (Bool.and_eq_true_iff.mp hmatch).2
      exact congrArg some (List.inj_on_of_nodup_map t.users_key (List.mem_of_find?_eq_some hfind) hmem
        (of_decide_eq_true hid))

/-- A query that does not fail is answered with its rows. -/
theorem alone_served {q : Query} {a : q.Res} (hok : ∀ q, db.failure q = none)
    (h : db.rows now q = .returned a) (s : Unit) :
    (call q).alone (db.serve now) s = (.returned a, s) := by
  show db.serve now q s = _
  rw [Database.serve, hok, h]

/-- Without failures, `GetUserByID` returns a user that there is. -/
theorem getUserByID_returns {id : ℤ} {row : UserRow} (hok : ∀ q, db.failure q = none)
    (hrow : t.userByID id = some row) :
    ∃ user, ((Repository.getUserByID id).alone (db.serve now) ()).1 = .returned user := by
  have huser : db.rows now (.userByID id) = .returned ⟨row, []⟩ := by
    unfold Database.rows
    dsimp only
    rw [hrow]
  unfold Repository.getUserByID
  rw [Prog.alone_seq _ (Prog.alone_mapErr _ (alone_served hok huser ())),
    Prog.alone_seq _ (@alone_served t now db .now now hok rfl ())]
  rw [Prog.alone_seq _ (Prog.alone_mapErr _ (alone_served (q := .roles row.id now) hok rfl ()))]
  split
  case isTrue => exact ⟨_, rfl⟩
  case isFalse =>
    rw [Repository.loadRolePermissions,
      Prog.alone_seq _ (Prog.alone_mapErr _ (alone_served hok rfl ()))]
    exact ⟨_, rfl⟩

/-- The page is the slice of the users that are not deleted. Each of its users has exactly the
roles and permissions that are the user's own, and those that `GetUserByID` loads. -/
theorem listUsers_correct (t : Tables) (db : Database t) (now limit offset : ℤ)
    (hlimit : 1 ≤ limit) {users : List User}
    (h : ((Repository.listUsers limit offset).alone (db.serve now) ()).1 = .returned users) :
    users.map User.row = (((t.users.filter fun u => u.deletedAt.isNone).insertionSort
        fun a b => a.id ≤ b.id).drop offset.toNat).take limit.toNat ∧
      ∀ u ∈ users, t.Loaded now u ∧ ∀ db' : Database t,
        (∀ u', ((Repository.getUserByID u.row.id).alone (db'.serve now) ()).1 = .returned u' →
          u'.row = u.row ∧ SameRoles u.roles u'.roles) ∧
        ((∀ q, db'.failure q = none) →
          ∃ u', ((Repository.getUserByID u.row.id).alone (db'.serve now) ()).1 = .returned u') := by
  obtain ⟨hpage, hloaded⟩ := Repository.listUsers_loaded h
  refine ⟨?_, fun u hu => ⟨hloaded u hu, fun db' => ?_⟩⟩
  · rw [hpage, Tables.page, if_neg (by omega)]
  · have hfound : t.userByID u.row.id = some u.row :=
      userByID_of_page (hpage ▸ List.mem_map_of_mem hu)
    refine ⟨fun u' hu' => ?_, fun hok => getUserByID_returns hok hfound⟩
    obtain ⟨hfound', hloaded'⟩ := Repository.getUserByID_loaded hu'
    have hrow : u.row = u'.row := Option.some.inj (hfound.symm.trans hfound')
    exact ⟨hrow.symm, (hloaded u hu).sameRoles hloaded' hrow⟩

/-- A database that does not fail and keeps the order of its tables. -/
def plainDatabase (t : Tables) : Database t where
  userRoles := t.userRolesOf
  roles := t.rolesOf
  rolePermissions := t.permissionsOf
  failure _ := none
  userRoles_perm _ _ := List.Perm.refl _
  roles_perm _ _ := List.Perm.refl _
  rolePermissions_perm _ := List.Perm.refl _

/-- Two users with one role, which has a permission, and an assignment that has expired. -/
def sharedTables : Tables where
  users := [⟨2, "u2", "b@x", none, 1, "active", false, "", 0, 0, none⟩,
    ⟨1, "u1", "a@x", none, 1, "active", false, "", 0, 0, none⟩]
  roles := [⟨1, "shared", "", false, 0, 0, none⟩, ⟨2, "expired", "", false, 0, 0, none⟩]
  userRoles := [⟨1, 1, 0, none⟩, ⟨2, 1, 0, some 5⟩, ⟨2, 2, 0, some 3⟩]
  permissions := [⟨1, "users", "read", 0⟩]
  rolePermissions := [⟨1, 1⟩]
  users_key := by decide
  roles_key := by decide
  userRoles_key := by decide
  permissions_key := by decide
  rolePermissions_key := by decide

def sharedRole : Role := ⟨⟨1, "shared", "", false, 0, 0, none⟩, [⟨1, "users", "read", 0⟩]⟩

theorem listUsers_correct_shared : ∃ users,
    ((Repository.listUsers 2 0).alone ((plainDatabase sharedTables).serve 3) ()).1 = .returned users ∧
      users.map User.roles = [[sharedRole], [sharedRole]] ∧ ∀ u ∈ users, sharedTables.Loaded 3 u :=
  ⟨[⟨⟨1, "u1", "a@x", none, 1, "active", false, "", 0, 0, none⟩, [sharedRole]⟩,
    ⟨⟨2, "u2", "b@x", none, 1, "active", false, "", 0, 0, none⟩, [sharedRole]⟩], by decide, rfl,
    fun u hu => ((listUsers_correct sharedTables (plainDatabase sharedTables) 3 2 0 (by decide)
      (by decide)).2 u hu).1⟩

end Go42.Auth.UserRoles
