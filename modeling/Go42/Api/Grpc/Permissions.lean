-- SUMMARY: The registry of the permissions each gRPC method asks for.
import Mathlib.Data.List.AList

/-!
# Permission registry
-/

namespace Go42.Api.Grpc

structure PermissionRegistry where
  storage : AList fun _ : String => List String

namespace PermissionRegistry

/-- `NewPermissionRegistry`. -/
def new : PermissionRegistry := ⟨∅⟩

def register (pr : PermissionRegistry) (method : String) (permissions : List String) :
    PermissionRegistry :=
  let storage := if method ∈ pr.storage then pr.storage else pr.storage.insert method []
  ⟨storage.insert method ((storage.lookup method).getD [] ++ permissions)⟩

def permissionsForMethod (pr : PermissionRegistry) (method : String) : List String :=
  match pr.storage.lookup method with
  | some permissions => permissions
  | none => []

theorem permissionsForMethod_eq {pr : PermissionRegistry} {method : String} :
    pr.permissionsForMethod method = (pr.storage.lookup method).getD [] := by
  unfold permissionsForMethod
  cases pr.storage.lookup method <;> rfl

theorem permissionsForMethod_register {pr : PermissionRegistry} {method method' : String}
    {permissions : List String} :
    (pr.register method permissions).permissionsForMethod method' =
      pr.permissionsForMethod method' ++ if method' = method then permissions else [] := by
  have hnew (m : String) : ((if method ∈ pr.storage then pr.storage
      else pr.storage.insert method []).lookup m).getD [] = (pr.storage.lookup m).getD [] := by
    split
    case isTrue h => rfl
    case isFalse h =>
      rcases eq_or_ne m method with rfl | hne
      · simp [AList.lookup_eq_none.mpr h]
      · rw [AList.lookup_insert_ne hne]
  simp only [permissionsForMethod_eq, register]
  rcases eq_or_ne method' method with rfl | hne
  · simp [hnew]
  · simp [AList.lookup_insert_ne hne, hnew, hne]

/-- The registry after some calls of `Register`. -/
def registerAll (calls : List (String × List String)) : PermissionRegistry :=
  calls.foldl (fun pr call => pr.register call.1 call.2) new

/-- A method asks for every permission that any call registered for it, and no other. -/
theorem mem_registerAll {calls : List (String × List String)} {method permission : String} :
    permission ∈ (registerAll calls).permissionsForMethod method ↔
      ∃ call ∈ calls, call.1 = method ∧ permission ∈ call.2 := by
  have hfold : ∀ pr : PermissionRegistry, permission ∈ (calls.foldl
      (fun pr call => pr.register call.1 call.2) pr).permissionsForMethod method ↔
        permission ∈ pr.permissionsForMethod method ∨
          ∃ call ∈ calls, call.1 = method ∧ permission ∈ call.2 := by
    induction calls with
    | nil => simp
    | cons call calls ih =>
        intro pr
        rw [List.foldl_cons, ih, permissionsForMethod_register]
        rcases eq_or_ne method call.1 with rfl | hne
        · simp [or_assoc]
        · simp [hne, Ne.symm hne]
  have hnew : permission ∉ new.permissionsForMethod method := by simp [new, permissionsForMethod_eq]
  rw [registerAll, hfold]
  exact or_iff_right hnew

end PermissionRegistry
end Go42.Api.Grpc
