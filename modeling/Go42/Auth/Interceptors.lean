-- SUMMARY: The authentication and access interceptors, and default deny: in any chain, the handler of a method runs only for an accepted token that holds every permission registered for the method.
import Go42.Api.Grpc.Permissions
import Go42.Api.Grpc.Server

/-!
# Authentication and access interceptors

The access interceptor reads what the authentication interceptor left in the context. The
order of the two comes from the priorities of the options. In the wrong order, or with one
of them missing, nothing is left in the context and the call is rejected.
-/

namespace Go42.Auth

open Api.Grpc

variable {κ V A E R W : Type}

/-! ## Authentication -/

def metadataKeyXApiToken : String := "x-api-key"

def setAuthToContext (ctx : Context V) (authInfo : ContextAuthInfo) : Context V :=
  { ctx with authInfo := some authInfo }

def retrieveAuthFromContext (ctx : Context V) : Option ContextAuthInfo := ctx.authInfo

def extractFromGRPCMetadata (ctx : Context V) (key : String) : Except GoError String :=
  match ctx.incoming with
  | none => .error (statusError "Unauthenticated" "missing metadata")
  | some md =>
    match md.get key with
    | apiKey :: _ => .ok apiKey
    | [] => .error (statusError "Unauthenticated" ("missing metadata key: " ++ key))

def authenticateRequest (ctx : Context V) : GrpcProg κ E R W (Context V) :=
  match extractFromGRPCMetadata ctx metadataKeyXApiToken with
  | .error err => .fail err
  | .ok token => do
    let tokenInfo ← (call (.validateAPIToken token)).mapErr fun err =>
      if err.is errAuthenticationUnavailable then
        statusError "Unavailable" "authentication unavailable"
      else statusError "Unauthenticated" "invalid api token"
    let user ← (call (.getUserByID tokenInfo.userID)).mapErr fun err =>
      if err.is errEntityNotFound then statusError "Unauthenticated" "invalid api token"
      else statusError "Unavailable" "authentication unavailable"
    if !user.isActive then
      .fail (statusError "Unauthenticated" "user is not allowed to authenticate")
    else
      let authInfo : ContextAuthInfo := ⟨user.id, user.uuid, .apiToken, [], none⟩
      return setAuthToContext ctx (authInfo.setPermissions tokenInfo.permissionList)

def newUnaryAuthInterceptor : UnaryInterceptor V A E R W := fun x method =>
  if defaultSkipper method then next x
  else do
    let authCtx ← authenticateRequest x.ctx
    next { x with ctx := authCtx }

def newStreamAuthInterceptor : StreamInterceptor V E W := fun ss method =>
  if defaultSkipper method then next ss
  else do
    let authCtx ← authenticateRequest (← streamContext ss)
    next (.wrapped (some authCtx))

/-! ## Access -/

def errUnauthenticatedRequest : GoError := statusError "Unauthenticated" "unauthenticated request"

/-- The checks both access interceptors make on what they find in the context. -/
def checkPermissions (r : PermissionRegistry) (method : String) :
    Option ContextAuthInfo → Option GoError
  | none => some errUnauthenticatedRequest
  | some authInfo =>
    let permissions := r.permissionsForMethod method
    if permissions.isEmpty then
      some (statusError "PermissionDenied" ("no permissions found for method " ++ method))
    else
      (permissions.find? fun permission => !authInfo.hasPermission permission).map
        fun permission => statusError "PermissionDenied"
          ("permission " ++ permission ++ " is required for method " ++ method)

def newUnaryAccessInterceptor (r : PermissionRegistry) : UnaryInterceptor V A E R W :=
  fun x method =>
    if defaultSkipper method then next x
    else
      match checkPermissions r method (retrieveAuthFromContext x.ctx) with
      | some err => .fail err
      | none => next x

def newStreamAccessInterceptor (r : PermissionRegistry) : StreamInterceptor V E W :=
  fun ss method =>
    if defaultSkipper method then next ss
    else
      match ss with
      | .wrapped (some ctx) =>
        match checkPermissions r method (retrieveAuthFromContext ctx) with
        | some err => .fail err
        | none => next ss
      -- A nil wrapper, or a stream that was not authenticated.
      | _ => .fail errUnauthenticatedRequest

/-! ## What is known of a call -/

inductive AccessFact where
  | validated (token : String) (tokenInfo : Token)
  | found (id : ℤ) (user : User)
  | handled

/-- What the answers tell. -/
def witnessed : Observer (Cmd κ E) (Cmd.Res κ E R W) AccessFact
  | .validateAPIToken token, .returned tokenInfo => some (.validated token tokenInfo)
  | .getUserByID id, .returned user => some (.found id user)
  | .handler _, .returned _ => some .handled
  | _, _ => none

/-- Whatever is known of tokens and users in `F` is known in `F'`. -/
def Knows (F F' : List AccessFact) : Prop := ∀ f ∈ F, f ≠ .handled → f ∈ F'

/-- The token a call presents: the first value of its metadata key. -/
def Presents (incoming : Option Metadata) (token : String) : Prop :=
  ∃ md rest, incoming = some md ∧ md.get metadataKeyXApiToken = token :: rest

/-- The token was presented and accepted, and its owner was found and is active. -/
def Authenticated (incoming : Option Metadata) (F : List AccessFact) (tokenInfo : Token) : Prop :=
  ∃ token user, Presents incoming token ∧ .validated token tokenInfo ∈ F ∧
    .found tokenInfo.userID user ∈ F ∧ user.isActive = true

/-- An authenticated token holds every permission the method asks for, of which there is one. -/
def Granted (r : PermissionRegistry) (method : String) (incoming : Option Metadata)
    (F : List AccessFact) : Prop :=
  ∃ tokenInfo, Authenticated incoming F tokenInfo ∧ r.permissionsForMethod method ≠ [] ∧
    ∀ permission ∈ r.permissionsForMethod method, permission ∈ tokenInfo.permissionList

section Facts

variable {r : PermissionRegistry} {method : String} {incoming : Option Metadata}
variable {F F' : List AccessFact} {tokenInfo : Token}

theorem knows_of_subset (hF : F ⊆ F') : Knows F F' := fun _ hf _ => hF hf

theorem Authenticated.mono (hF : Knows F F') (h : Authenticated incoming F tokenInfo) :
    Authenticated incoming F' tokenInfo := by
  obtain ⟨token, user, hpresents, hvalidated, hfound, hactive⟩ := h
  exact ⟨token, user, hpresents, hF _ hvalidated (by simp), hF _ hfound (by simp), hactive⟩

theorem Granted.mono (hF : Knows F F') (h : Granted r method incoming F) :
    Granted r method incoming F' := by
  obtain ⟨tokenInfo, hauth, hperms⟩ := h
  exact ⟨tokenInfo, hauth.mono hF, hperms⟩

/-- The checks pass only for the permissions of the token that was set. -/
theorem granted_of_checkPermissions {authInfo : ContextAuthInfo}
    (h : checkPermissions r method (some (authInfo.setPermissions tokenInfo.permissionList)) = none)
    (hauth : Authenticated incoming F tokenInfo) : Granted r method incoming F := by
  simp only [checkPermissions] at h
  split at h
  · cases h
  · rename_i hsome
    rw [Option.map_eq_none_iff, List.find?_eq_none] at h
    refine ⟨tokenInfo, hauth, fun hnil => hsome (by simp [hnil]), fun permission hmem => ?_⟩
    have := h permission hmem
    simpa using this

end Facts

/-! ## Interceptors in a chain -/

section Chain

variable [Carrier κ V] (faithful : Prop) (r : PermissionRegistry) (method : String)
variable (incoming : Option Metadata)

/-- The call has the API keys it came with, and its authentication is backed by facts. -/
def Backed (F : List AccessFact) (x : κ) : Prop :=
  ∀ ctx, Carrier.context x = some ctx →
    valuesOf ctx.incoming metadataKeyXApiToken = valuesOf incoming metadataKeyXApiToken ∧
    ∀ authInfo, ctx.authInfo = some authInfo → ∃ tokenInfo, ∃ base : ContextAuthInfo,
      Authenticated incoming F tokenInfo ∧ authInfo = base.setPermissions tokenInfo.permissionList

/-- A program that calls the handler of the method only when access is granted and, when
`faithful`, replies only when that handler has. -/
def Denies (p : GrpcProg κ E R W R) (F : List AccessFact) : Prop :=
  p.Spec witnessed (fun G c => ∀ x, c = .handler x → Granted r method incoming G)
    (fun G o => F ⊆ G ∧ (faithful → o.isReturned = true → .handled ∈ G)) F

/-- What follows an interceptor denies, for calls that are backed when `ok` holds. -/
def DeniesAfter (ok : List AccessFact → Prop) (F : List AccessFact) (h : κ → GrpcProg κ E R W R) :
    Prop :=
  ∀ x G, F ⊆ G → Backed incoming G x → ok G → Denies faithful r method incoming (h x) G

/-- An interceptor that got a backed call hands on backed calls only, when `ok` holds, and,
when `faithful`, replies only when the next handler has. -/
def HandsOn (ok : List AccessFact → Prop) (i : Interceptor κ E R W) : Prop :=
  ∀ x F, Backed incoming F x → (i x method).Spec witnessed
    (fun G c => ∀ x', c = .handler x' → Backed incoming G x' ∧ ok G)
    (fun G o => faithful → o.isReturned = true → .handled ∈ G) F

variable {faithful r method incoming} {F F' : List AccessFact} {x x' : κ}

theorem Backed.mono (hF : Knows F F') (h : Backed incoming F x) : Backed incoming F' x := by
  intro ctx hctx
  obtain ⟨hincoming, hauth⟩ := h ctx hctx
  refine ⟨hincoming, fun authInfo hinfo => ?_⟩
  obtain ⟨tokenInfo, base, hauthenticated, heq⟩ := hauth authInfo hinfo
  exact ⟨tokenInfo, base, hauthenticated.mono hF, heq⟩

/-- Backing is a matter of the API keys and the authentication alone. -/
theorem Backed.of_identity (h : identity metadataKeyXApiToken x' = identity metadataKeyXApiToken x)
    (hx : Backed incoming F x) :
    Backed incoming F x' := by
  intro ctx' hctx'
  rw [identity, identity, hctx', Option.map_some] at h
  obtain ⟨ctx, hctx, heq⟩ := Option.map_eq_some_iff.mp h.symm
  obtain ⟨hincoming, hauth⟩ := Prod.mk.inj heq
  rw [← hincoming, ← hauth]
  exact hx ctx hctx

/-- Denying composes: the facts of the interceptor are among those of the whole. -/
theorem HandsOn.denies {ok : List AccessFact → Prop} {i : Interceptor κ E R W}
    {h : κ → GrpcProg κ E R W R} (hi : HandsOn faithful method incoming ok i)
    (hok : ∀ {G G'}, Knows G G' → ok G → ok G') (hh : DeniesAfter faithful r method incoming ok F h)
    (hx : Backed incoming F x) : Denies faithful r method incoming (through (i x method) h) F := by
  apply Prog.Spec.mono _ (Prog.Spec.interpret (R := fun F' G => Knows F' G ∧ (faithful → F' ⊆ G) ∧ F ⊆ G)
    (f := Cmd.through h) _ ⟨knows_of_subset (List.Subset.refl F), fun _ => List.Subset.refl F,
      List.Subset.refl F⟩ (hi x F hx))
  · rintro G o ⟨G', ⟨-, hsub, hF⟩, hreturned⟩
    exact ⟨hF, fun hfaithful ho => hsub hfaithful (hreturned hfaithful ho)⟩
  · rintro F' G c ⟨hknows, hsub, hF⟩ hc
    cases c with
    | handler x' =>
        obtain ⟨hbacked, hokF⟩ := hc x' rfl
        apply (hh x' G hF (hbacked.mono hknows) (hok hknows hokF)).mono
        rintro G' o ⟨hG, hreturned⟩
        have hknows' : Knows F' G' := fun f hf hne => hG (hknows f hf hne)
        have hsub' (hfaithful : faithful) : F' ⊆ G' := List.Subset.trans (hsub hfaithful) hG
        refine ⟨?_, ?_, List.Subset.trans hF hG⟩
        · cases o with
          | returned a =>
              rintro f (_ | ⟨_, hf⟩) hne
              · exact absurd rfl hne
              · exact hknows' f hf hne
          | failed e => exact hknows'
          | panicked v => exact hknows'
        · intro hfaithful
          cases o with
          | returned a => exact List.cons_subset.mpr ⟨hreturned hfaithful rfl, hsub' hfaithful⟩
          | failed e => exact hsub' hfaithful
          | panicked v => exact hsub' hfaithful
    | _ =>
        refine ⟨fun x' hx' => (nomatch hx'), fun o => ⟨?_, ?_, ?_⟩⟩
        · intro f hf hne
          rcases List.mem_append.mp hf with hf | hf
          · exact List.mem_append_left _ hf
          · exact List.mem_append_right _ (hknows f hf hne)
        · exact fun hfaithful => List.append_subset.mpr ⟨List.subset_append_left _ _,
            List.subset_append_of_subset_right _ (hsub hfaithful)⟩
        · exact List.subset_append_of_subset_right _ hF

theorem HandsOn.weaken {ok : List AccessFact → Prop} {i : Interceptor κ E R W}
    (hi : HandsOn faithful method incoming ok i) : HandsOn faithful method incoming (fun _ => True) i := by
  intro x F hx
  apply Prog.Spec.simulate (R := fun F' G => F' = G) ?_ ?_ rfl (hi x F hx)
  · rintro F' G c rfl hc
    exact ⟨fun x' hx' => ⟨(hc x' hx').1, trivial⟩, fun o => rfl⟩
  · rintro F' G o rfl ho
    exact ho

/-- Other interceptors hand on what they got. -/
theorem handsOn_of_passes {i : Interceptor κ E R W} (hi : Passes metadataKeyXApiToken faithful i) :
    HandsOn faithful method incoming (fun _ => True) i := by
  intro x F hx
  apply Prog.Spec.simulate (R := fun F' G => F ⊆ G ∧ (F' ≠ [] → .handled ∈ G)) ?_ ?_ ?_ (hi x method)
  · rintro F' G c ⟨hF, hhandled⟩ hc
    refine ⟨fun x' hx' => ⟨(hx.mono (knows_of_subset hF)).of_identity (hc x' hx'), trivial⟩, fun o => ?_⟩
    refine ⟨List.subset_append_of_subset_right _ hF, fun hne => ?_⟩
    cases c with
    | handler x' =>
        cases o with
        | returned a => exact List.mem_cons_self
        | failed e => exact hhandled hne
        | panicked v => exact hhandled hne
    | _ => exact List.mem_append_right _ (hhandled hne)
  · exact fun hR hQ hfaithful ho => hR.2 (hQ hfaithful ho)
  · exact ⟨List.Subset.refl F, fun h => absurd rfl h⟩

/-! ## The two interceptors -/

theorem next_handsOn {ok : List AccessFact → Prop} (hx : Backed incoming F x) (hok : ok F) :
    (next x : GrpcProg κ E R W R).Spec witnessed
      (fun G c => ∀ x', c = .handler x' → Backed incoming G x' ∧ ok G)
      (fun G o => faithful → o.isReturned = true → .handled ∈ G) F := by
  refine ⟨fun x' hx' => ?_, fun o _ ho => ?_⟩
  · cases hx'
    exact ⟨hx, hok⟩
  · cases o with
    | returned r => exact List.mem_cons_self
    | failed e => cases ho
    | panicked v => cases ho

theorem presents_iff {token : String} :
    Presents incoming token ↔ ∃ rest, valuesOf incoming metadataKeyXApiToken = token :: rest := by
  constructor
  · rintro ⟨md, rest, rfl, hget⟩
    exact ⟨rest, hget⟩
  · rintro ⟨rest, hvalues⟩
    cases incoming with
    | none => cases hvalues
    | some md => exact ⟨md, rest, rfl, hvalues⟩

theorem extractFromGRPCMetadata_ok {ctx : Context V} {token : String}
    (h : extractFromGRPCMetadata ctx metadataKeyXApiToken = .ok token) :
    Presents ctx.incoming token := by
  unfold extractFromGRPCMetadata at h
  split at h
  · cases h
  · rename_i md hmd
    split at h
    · rename_i rest heq
      cases h
      exact ⟨md, rest, hmd, heq⟩
    · cases h

/-- What follows an authentication may rely on the token it left in the context. -/
theorem authenticateRequest_handsOn {ok : List AccessFact → Prop} {ctx : Context V}
    {f : Context V → GrpcProg κ E R W R}
    (hincoming : valuesOf ctx.incoming metadataKeyXApiToken = valuesOf incoming metadataKeyXApiToken)
    (hf : ∀ (authInfo : ContextAuthInfo) (tokenInfo : Token) (G : List AccessFact), F ⊆ G →
      Authenticated incoming G tokenInfo →
      (f (setAuthToContext ctx (authInfo.setPermissions tokenInfo.permissionList))).Spec witnessed
        (fun G c => ∀ x', c = .handler x' → Backed incoming G x' ∧ ok G)
        (fun G o => faithful → o.isReturned = true → .handled ∈ G) G) :
    (authenticateRequest ctx >>= f).Spec witnessed
      (fun G c => ∀ x', c = .handler x' → Backed incoming G x' ∧ ok G)
      (fun G o => faithful → o.isReturned = true → .handled ∈ G) F := by
  apply Prog.Spec.seq
  unfold authenticateRequest
  split
  · exact fun _ ho => nomatch ho
  · rename_i token htoken
    have hpresents : Presents incoming token := by
      rw [presents_iff, ← hincoming, ← presents_iff]
      exact extractFromGRPCMetadata_ok htoken
    apply Prog.Spec.seq
    apply Prog.Spec.mapErr
    refine ⟨fun x' hx' => (nomatch hx'), fun o => ?_⟩
    cases o with
    | failed e => exact fun _ ho => nomatch ho
    | panicked v => exact fun _ ho => nomatch ho
    | returned tokenInfo =>
        apply Prog.Spec.seq
        apply Prog.Spec.mapErr
        refine ⟨fun x' hx' => (nomatch hx'), fun o => ?_⟩
        cases o with
        | failed e => exact fun _ ho => nomatch ho
        | panicked v => exact fun _ ho => nomatch ho
        | returned user =>
            change Prog.Spec _ _ _ (ite _ _ _) _
            split
            · exact fun _ ho => nomatch ho
            · rename_i hactive
              apply hf
              · exact List.subset_cons_of_subset _ (List.subset_cons_of_subset _ (List.Subset.refl F))
              · exact ⟨token, user, hpresents, List.mem_cons_of_mem _ List.mem_cons_self,
                  List.mem_cons_self, by simpa using hactive⟩

/-- A context that carries an authenticated token is backed. -/
theorem backed_setAuthToContext {ctx : Context V} {tokenInfo : Token} {authInfo : ContextAuthInfo}
    (hincoming : valuesOf ctx.incoming metadataKeyXApiToken = valuesOf incoming metadataKeyXApiToken)
    (hauth : Authenticated incoming F tokenInfo)
    (hx : Carrier.context x =
      some (setAuthToContext ctx (authInfo.setPermissions tokenInfo.permissionList))) :
    Backed incoming F x := by
  intro ctx' hctx'
  rw [hx] at hctx'
  cases hctx'
  refine ⟨hincoming, fun info hinfo => ⟨tokenInfo, authInfo, hauth, ?_⟩⟩
  cases hinfo
  rfl

theorem newUnaryAuthInterceptor_handsOn (hmethod : defaultSkipper method = false) :
    HandsOn faithful method incoming (fun _ => True)
      (newUnaryAuthInterceptor : UnaryInterceptor V A E R W) := by
  intro x F hx
  simp only [newUnaryAuthInterceptor, hmethod, Bool.false_eq_true, if_false]
  have hincoming := (hx x.ctx rfl).1
  apply authenticateRequest_handsOn hincoming
  intro authInfo tokenInfo G hG hauth
  exact next_handsOn (backed_setAuthToContext hincoming hauth rfl) trivial

theorem newStreamAuthInterceptor_handsOn (hmethod : defaultSkipper method = false) :
    HandsOn faithful method incoming (fun _ => True) (newStreamAuthInterceptor : StreamInterceptor V E W) := by
  intro ss F hss
  simp only [newStreamAuthInterceptor, hmethod, Bool.false_eq_true, if_false]
  unfold streamContext
  cases hctx : ss.context with
  | none => exact fun _ ho => nomatch ho
  | some ctx =>
      have hincoming := (hss ctx hctx).1
      apply authenticateRequest_handsOn hincoming
      intro authInfo tokenInfo G hG hauth
      exact next_handsOn (backed_setAuthToContext hincoming hauth rfl) trivial

/-- A backed call that passes the checks is granted. -/
theorem Backed.granted {ctx : Context V} (hx : Backed incoming F x)
    (hctx : Carrier.context x = some ctx)
    (h : checkPermissions r method (retrieveAuthFromContext ctx) = none) :
    Granted r method incoming F := by
  unfold retrieveAuthFromContext at h
  cases hinfo : ctx.authInfo with
  | none => rw [hinfo] at h; cases h
  | some authInfo =>
      obtain ⟨tokenInfo, base, hauth, rfl⟩ := (hx ctx hctx).2 authInfo hinfo
      rw [hinfo] at h
      exact granted_of_checkPermissions h hauth

theorem newUnaryAccessInterceptor_handsOn (hmethod : defaultSkipper method = false) :
    HandsOn faithful method incoming (Granted r method incoming)
      (newUnaryAccessInterceptor r : UnaryInterceptor V A E R W) := by
  intro x F hx
  simp only [newUnaryAccessInterceptor, hmethod, Bool.false_eq_true, if_false]
  split
  · exact fun _ ho => nomatch ho
  · rename_i hcheck
    exact next_handsOn hx (hx.granted rfl hcheck)

theorem newStreamAccessInterceptor_handsOn (hmethod : defaultSkipper method = false) :
    HandsOn faithful method incoming (Granted r method incoming)
      (newStreamAccessInterceptor r : StreamInterceptor V E W) := by
  intro ss F hss
  simp only [newStreamAccessInterceptor, hmethod, Bool.false_eq_true, if_false]
  split
  · split
    · exact fun _ ho => nomatch ho
    · rename_i ctx hcheck
      exact next_handsOn hss (hss.granted rfl hcheck)
  · exact fun _ ho => nomatch ho

/-! ## Chains -/

/-- A chain denies once access was granted, or when an access interceptor is still to come.
The induction is on the chain, from the outermost interceptor on. -/
theorem chain_denies (grpc : Chaining κ E R W) {is : List (Interceptor κ E R W)}
    (his : ∀ i ∈ is, HandsOn faithful method incoming (fun _ => True) i) {F : List AccessFact} {x : κ}
    (hgate : Granted r method incoming F ∨
      ∃ i ∈ is, HandsOn faithful method incoming (Granted r method incoming) i)
    (hx : Backed incoming F x) : Denies faithful r method incoming (grpc.chain is x method) F := by
  induction is generalizing F x with
  | nil =>
      rw [grpc.chain_nil]
      have hgranted := hgate.resolve_right (by simp)
      refine ⟨fun x' _ => hgranted, fun o => ⟨List.subset_append_right _ _, fun _ ho => ?_⟩⟩
      cases o with
      | returned a => exact List.mem_cons_self
      | failed e => cases ho
      | panicked v => cases ho
  | cons i is ih =>
      rw [grpc.chain_cons]
      have hrest := fun j hj => his j (List.mem_cons_of_mem i hj)
      by_cases hlater : ∃ j ∈ is, HandsOn faithful method incoming (Granted r method incoming) j
      · apply (his i List.mem_cons_self).denies (fun _ h => h) ?_ hx
        exact fun x' G _ hx' _ => ih hrest (.inr hlater) hx'
      · rcases hgate with hgranted | ⟨j, hj, hgate⟩
        · -- Facts are never lost, so what was granted stays granted.
          apply (his i List.mem_cons_self).denies (fun _ h => h) ?_ hx
          exact fun x' G hF hx' _ => ih hrest (.inl (hgranted.mono (knows_of_subset hF))) hx'
        · rcases List.mem_cons.mp hj with rfl | hj
          · apply hgate.denies (fun hG h => h.mono hG) ?_ hx
            exact fun x' G _ hx' hgranted => ih hrest (.inl hgranted) hx'
          · exact absurd ⟨j, hj, hgate⟩ hlater

end Chain

/-! ## Default deny -/

/-- The presented token was accepted, its owner was found and is active, a permission is
registered for the method, and the token holds all that are. -/
def Authorized (calls : List (String × List String)) (method : String) (incoming : Option Metadata)
    (F : List AccessFact) : Prop :=
  ∃ token tokenInfo user, Presents incoming token ∧ .validated token tokenInfo ∈ F ∧
    .found tokenInfo.userID user ∈ F ∧ user.isActive = true ∧
    (∃ call ∈ calls, call.1 = method ∧ call.2 ≠ []) ∧
    ∀ call ∈ calls, call.1 = method → ∀ permission ∈ call.2,
      ∃ p ∈ tokenInfo.permissions, p.name = permission

theorem Granted.authorized {calls : List (String × List String)} {method : String}
    {incoming : Option Metadata} {F : List AccessFact}
    (h : Granted (PermissionRegistry.registerAll calls) method incoming F) :
    Authorized calls method incoming F := by
  obtain ⟨tokenInfo, ⟨token, user, hpresents, hvalidated, hfound, hactive⟩, hne, hall⟩ := h
  refine ⟨token, tokenInfo, user, hpresents, hvalidated, hfound, hactive, ?_, ?_⟩
  · obtain ⟨permission, hpermission⟩ := List.exists_mem_of_ne_nil _ hne
    obtain ⟨call, hcall, hmethod, hmem⟩ := PermissionRegistry.mem_registerAll.mp hpermission
    exact ⟨call, hcall, hmethod, List.ne_nil_of_mem hmem⟩
  · intro call hcall hmethod permission hpermission
    apply Token.mem_permissionList.mp
    exact hall permission (PermissionRegistry.mem_registerAll.mpr ⟨call, hcall, hmethod, hpermission⟩)

/-- Whatever the service and everything else answer to a call that comes in without
authentication: its handler is called only after the call was authorized and, when
`faithful`, every other call is rejected, for only the handler makes it return a reply. -/
def DefaultDeny [Carrier κ V] (faithful : Prop) (calls : List (String × List String)) (method : String)
    (p : κ → GrpcProg κ E R W R) : Prop :=
  ∀ {Choice Eff σ : Type} (M : Machine (Cmd κ E) (Cmd.Res κ E R W) Choice Eff σ) (T : ℕ) (x : κ)
    (ctx : Context V) (s s' : σ) (o : Outcome R) (log : Log (Cmd κ E) (Cmd.Res κ E R W) Eff),
    Carrier.context x = some ctx → ctx.authInfo = none → (p x).Runs M T [] s o log s' →
      (∀ r older, r :: older <:+ log → (∃ x', r.cmd = .handler x') →
        Authorized calls method ctx.incoming (Log.facts witnessed older T)) ∧
      (faithful → o.isReturned = true → .handled ∈ Log.facts witnessed log T)

theorem defaultDeny_of_chain [Carrier κ V] {faithful : Prop} (grpc : Chaining κ E R W)
    {calls : List (String × List String)} {method : String} {is : List (Interceptor κ E R W)}
    (his : ∀ incoming, ∀ i ∈ is, HandsOn faithful method incoming (fun _ => True) i)
    (hgate : ∀ incoming, ∃ i ∈ is,
      HandsOn faithful method incoming (Granted (PermissionRegistry.registerAll calls) method incoming) i) :
    DefaultDeny faithful calls method fun x => grpc.chain is x method := by
  intro Choice Eff σ M T x ctx s s' o log hctx hfresh hrun
  have hx : Backed ctx.incoming [] x := by
    intro ctx' hctx'
    rw [hctx] at hctx'
    cases hctx'
    exact ⟨rfl, fun authInfo hinfo => by rw [hfresh] at hinfo; cases hinfo⟩
  have hdenies := chain_denies grpc (his ctx.incoming) (.inr (hgate ctx.incoming)) hx
  obtain ⟨⟨-, hreturned⟩, hlog⟩ := hrun.spec hdenies
  refine ⟨fun r older hsuf hr => ?_, hreturned⟩
  obtain ⟨x', hx'⟩ := hr
  rcases hlog hsuf with hold | hallowed
  · simp at hold
  · exact (hallowed x' hx').authorized

section Server

variable (unaryGrpc : Chaining (UnaryCall V A) E R W) (streamGrpc : Chaining (ServerStream V) E Unit W)
variable (unaryLib : Packaged (UnaryCall V A) E R W) (streamLib : Packaged (ServerStream V) E Unit W)
variable (unaryOrder : RangeOrder (Σ _ : ℤ, List (UnaryInterceptor V A E R W)))
variable (streamOrder : RangeOrder (Σ _ : ℤ, List (StreamInterceptor V E W)))
variable (opts : List (ServerOption V A E R W)) (calls : List (String × List String))

/-- What is built in passes calls on. -/
theorem builtins_passes [Carrier κ V] {lib : Packaged κ E R W}
    {requestID rateLimiter : Interceptor κ E R W} {key : String}
    (hrequestID : Passes key True requestID) (hrateLimiter : Passes key True rateLimiter)
    {p : ℤ} {i : Interceptor κ E R W}
    (h : (p, i) ∈ builtins lib requestID rateLimiter) : Passes key True i := by
  simp only [builtins, List.mem_cons, Prod.mk.injEq, List.not_mem_nil, or_false] at h
  rcases h with ⟨-, rfl⟩ | ⟨-, rfl⟩ | ⟨-, rfl⟩ | ⟨-, rfl⟩ | ⟨-, rfl⟩ | ⟨-, rfl⟩
  · exact hrequestID
  · exact lib.logging_passes key
  · exact metricsInterceptor_passes
  · exact lib.recovery_passes key
  · exact hrateLimiter
  · exact lib.protovalidate_passes key

/-- A chain holds the built-in and the extra interceptors, and no others. -/
theorem mem_chain {β : Type} {chain : List β} {builtin extra : List (ℤ × β)}
    (h : chain = (stableSort (builtin ++ extra)).map Prod.snd) {i : β} :
    i ∈ chain ↔ ∃ p, (p, i) ∈ builtin ∨ (p, i) ∈ extra := by
  rw [h, List.mem_map]
  constructor
  · rintro ⟨⟨p, j⟩, hmem, rfl⟩
    exact ⟨p, List.mem_append.mp ((stableSort_perm _).mem_iff.mp hmem)⟩
  · rintro ⟨p, hmem⟩
    exact ⟨(p, i), (stableSort_perm _).mem_iff.mpr (List.mem_append.mpr hmem), rfl⟩

theorem mem_unaryOptions {p : ℤ} {i : UnaryInterceptor V A E R W} :
    (p, i) ∈ unaryOptions opts ↔ .withUnaryInterceptor p i ∈ opts := by
  rw [unaryOptions, List.mem_filterMap]
  constructor
  · rintro ⟨opt, hmem, hopt⟩
    cases opt with
    | withUnaryInterceptor => cases hopt; exact hmem
    | withStreamInterceptor => cases hopt
    | withRateLimiter => cases hopt
  · exact fun hmem => ⟨_, hmem, rfl⟩

theorem mem_streamOptions {p : ℤ} {i : StreamInterceptor V E W} :
    (p, i) ∈ streamOptions opts ↔ .withStreamInterceptor p i ∈ opts := by
  rw [streamOptions, List.mem_filterMap]
  constructor
  · rintro ⟨opt, hmem, hopt⟩
    cases opt with
    | withStreamInterceptor => cases hopt; exact hmem
    | withUnaryInterceptor => cases hopt
    | withRateLimiter => cases hopt
  · exact fun hmem => ⟨_, hmem, rfl⟩

/-- With the access interceptors registered at any priorities, among authentication
interceptors and others that pass calls on, every method that is not skipped is denied by
default. -/
theorem server_denies_by_default {faithful : Prop}
    (hunary : ∃ p, .withUnaryInterceptor p
      (newUnaryAccessInterceptor (PermissionRegistry.registerAll calls)) ∈ opts)
    (hunaryOthers : ∀ p i, .withUnaryInterceptor p i ∈ opts → i = newUnaryAuthInterceptor ∨
      i = newUnaryAccessInterceptor (PermissionRegistry.registerAll calls) ∨
        Passes metadataKeyXApiToken faithful i)
    (hstream : ∃ p, .withStreamInterceptor p
      (newStreamAccessInterceptor (PermissionRegistry.registerAll calls)) ∈ opts)
    (hstreamOthers : ∀ p i, .withStreamInterceptor p i ∈ opts → i = newStreamAuthInterceptor ∨
      i = newStreamAccessInterceptor (PermissionRegistry.registerAll calls) ∨
        Passes metadataKeyXApiToken faithful i)
    {method : String} (hmethod : defaultSkipper method = false) :
    DefaultDeny faithful calls method (fun x => unaryGrpc.chain
        (new unaryLib streamLib unaryOrder streamOrder opts).unary x method) ∧
      DefaultDeny faithful calls method (fun ss => streamGrpc.chain
        (new unaryLib streamLib unaryOrder streamOrder opts).stream ss method) := by
  constructor
  · have hmem {i} := mem_chain (new_unary unaryLib streamLib unaryOrder streamOrder opts) (i := i)
    apply defaultDeny_of_chain unaryGrpc
    · intro incoming i hi
      obtain ⟨p, hbuiltin | hextra⟩ := hmem.mp hi
      · apply handsOn_of_passes
        exact (builtins_passes unaryRequestIDInterceptor_passes
          unaryServerRateLimiterInterceptor_passes hbuiltin).of_faithful
      · rcases hunaryOthers p i ((mem_unaryOptions opts).mp hextra) with rfl | rfl | hpasses
        · exact newUnaryAuthInterceptor_handsOn hmethod
        · exact (newUnaryAccessInterceptor_handsOn hmethod).weaken
        · exact handsOn_of_passes hpasses
    · intro incoming
      obtain ⟨p, hp⟩ := hunary
      exact ⟨_, hmem.mpr ⟨p, .inr ((mem_unaryOptions opts).mpr hp)⟩,
        newUnaryAccessInterceptor_handsOn hmethod⟩
  · have hmem {i} := mem_chain (new_stream unaryLib streamLib unaryOrder streamOrder opts) (i := i)
    apply defaultDeny_of_chain streamGrpc
    · intro incoming i hi
      obtain ⟨p, hbuiltin | hextra⟩ := hmem.mp hi
      · apply handsOn_of_passes
        exact (builtins_passes streamRequestIDInterceptor_passes
          streamServerRateLimiterInterceptor_passes hbuiltin).of_faithful
      · rcases hstreamOthers p i ((mem_streamOptions opts).mp hextra) with rfl | rfl | hpasses
        · exact newStreamAuthInterceptor_handsOn hmethod
        · exact (newStreamAccessInterceptor_handsOn hmethod).weaken
        · exact handsOn_of_passes hpasses
    · intro incoming
      obtain ⟨p, hp⟩ := hstream
      exact ⟨_, hmem.mpr ⟨p, .inr ((mem_streamOptions opts).mpr hp)⟩,
        newStreamAccessInterceptor_handsOn hmethod⟩

end Server

/-- The options the application starts its server with. -/
def applicationOptions (r : PermissionRegistry) : List (ServerOption V A E R W) :=
  [.withUnaryInterceptor interceptorPriorityAuthentication newUnaryAuthInterceptor,
    .withUnaryInterceptor interceptorPriorityAuthentication (newUnaryAccessInterceptor r),
    .withStreamInterceptor interceptorPriorityAuthentication newStreamAuthInterceptor,
    .withStreamInterceptor interceptorPriorityAuthentication (newStreamAccessInterceptor r)]

/-- Packaged interceptors on calls they have nothing to object to. -/
def agreeing [Carrier κ V] : Packaged κ E R W :=
  ⟨metricsInterceptor, metricsInterceptor, metricsInterceptor, fun _ => metricsInterceptor_passes,
    fun _ => metricsInterceptor_passes, fun _ => metricsInterceptor_passes⟩

theorem server_denies_by_default_application :
    DefaultDeny True [("/auth.v1.AuthService/ListUsers", ["users:list"])]
        "/auth.v1.AuthService/ListUsers" (fun x : UnaryCall Unit Unit => inOrder.chain
          (new agreeing agreeing ⟨id, fun _ => .refl _⟩ ⟨id, fun _ => .refl _⟩
            (applicationOptions (PermissionRegistry.registerAll
              [("/auth.v1.AuthService/ListUsers", ["users:list"])]) :
              List (ServerOption Unit Unit Unit Unit Unit))).unary
          x "/auth.v1.AuthService/ListUsers") ∧
      DefaultDeny True [("/auth.v1.AuthService/ListUsers", ["users:list"])]
        "/auth.v1.AuthService/ListUsers" (fun ss : ServerStream Unit => inOrder.chain
          (new agreeing agreeing ⟨id, fun _ => .refl _⟩ ⟨id, fun _ => .refl _⟩
            (applicationOptions (PermissionRegistry.registerAll
              [("/auth.v1.AuthService/ListUsers", ["users:list"])]) :
              List (ServerOption Unit Unit Unit Unit Unit))).stream
          ss "/auth.v1.AuthService/ListUsers") := by
  apply server_denies_by_default
  · exact ⟨interceptorPriorityAuthentication, by simp [applicationOptions]⟩
  · intro p i hi
    simp only [applicationOptions, List.mem_cons, List.not_mem_nil, or_false, reduceCtorEq,
      ServerOption.withUnaryInterceptor.injEq] at hi
    rcases hi with ⟨-, rfl⟩ | ⟨-, rfl⟩
    · exact .inl rfl
    · exact .inr (.inl rfl)
  · exact ⟨interceptorPriorityAuthentication, by simp [applicationOptions]⟩
  · intro p i hi
    simp only [applicationOptions, List.mem_cons, List.not_mem_nil, or_false, reduceCtorEq,
      ServerOption.withStreamInterceptor.injEq, false_or] at hi
    rcases hi with ⟨-, rfl⟩ | ⟨-, rfl⟩
    · exact .inl rfl
    · exact .inr (.inl rfl)
  · decide +kernel

end Go42.Auth
