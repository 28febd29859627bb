-- SUMMARY: API tokens, the permissions they carry, and the identity a request carries once it is authenticated.
import Go42.Auth.Models

/-!
# API tokens
-/

namespace Go42.Auth

/-- `Resource + ":" + Action`. -/
def Permission.name (p : Permission) : String := p.resource ++ ":" ++ p.action

/-- `models.Token`; `permissions` is not a column, it is filled when a token is loaded. -/
structure Token where
  id : ℤ
  uuid : UUID
  userID : ℤ
  token : String
  name : String
  lastUsedAt : Option ℤ
  expiresAt : Option ℤ
  createdAt : ℤ
  updatedAt : ℤ
  deletedAt : Option ℤ
  permissions : List Permission
deriving DecidableEq, Repr

/-- The names of the permissions, each once. -/
def Token.permissionList (a : Token) : List String :=
  a.permissions.foldl
    (fun permissions p => if permissions.contains p.name then permissions else permissions ++ [p.name]) []

theorem Token.mem_permissionList {a : Token} {s : String} :
    s ∈ a.permissionList ↔ ∃ p ∈ a.permissions, p.name = s := by
  have hfold (ps : List Permission) : ∀ acc : List String, s ∈ ps.foldl
      (fun permissions p => if permissions.contains p.name then permissions
        else permissions ++ [p.name]) acc ↔ s ∈ acc ∨ ∃ p ∈ ps, p.name = s := by
    induction ps with
    | nil => simp
    | cons p ps ih =>
        intro acc
        rw [List.foldl_cons, ih]
        split
        case isTrue h => grind
        case isFalse h => grind
  simpa [permissionList] using hfold a.permissions []

inductive AuthenticationType where
  | credentials
  | apiToken
deriving DecidableEq, Repr

/-- Who is authenticated, how, and with which permissions. The set `permissionMap` is nil
until `SetPermissions` fills it. -/
structure ContextAuthInfo where
  id : ℤ
  uuid : String
  type : AuthenticationType
  permissions : List String
  permissionMap : Option (List String)
deriving DecidableEq, Repr

namespace ContextAuthInfo

def setPermissions (ctx : ContextAuthInfo) (permissions : List String) : ContextAuthInfo :=
  { ctx with permissions := permissions, permissionMap := some permissions }

def hasPermission (ctx : ContextAuthInfo) (permission : String) : Bool :=
  match ctx.permissionMap with
  | none => false
  | some permissions => permissions.contains permission

@[simp] theorem hasPermission_setPermissions (ctx : ContextAuthInfo) (permissions : List String)
    (permission : String) :
    (ctx.setPermissions permissions).hasPermission permission = true ↔ permission ∈ permissions := by
  simp [setPermissions, hasPermission]

end ContextAuthInfo
end Go42.Auth
