-- SUMMARY: Interceptors as programs that may call the next handler, their chaining, and the interceptors every server has.
import Go42.Auth.Token
import Go42.Lib.System

/-!
# gRPC interceptors

An interceptor gets the call, the name of the method and the next handler. The call is a
context with a request, or a stream that has a context. Calling the next handler is a
command of the interceptor's program; chaining puts the next program in its place, and the
command that is left at the end of the chain is the handler of the method itself.

Metrics and log records are left out: nothing is decided on them.
-/

namespace Go42.Api.Grpc

open Auth

/-! ## Contexts and calls -/

/-- `metadata.MD`, with lower-case keys. -/
abbrev Metadata := List (String × List String)

def Metadata.get (md : Metadata) (key : String) : List String := (md.lookup key).getD []

/-- The values of a key in the incoming metadata, none when there is no metadata. -/
def valuesOf (incoming : Option Metadata) (key : String) : List String :=
  (incoming.map (·.get key)).getD []

/-- What the interceptors read from a context and put into it, and all other values. -/
structure Context (V : Type) where
  incoming : Option Metadata
  outgoing : List (String × String)
  /-- `extractRateLimitKeyFromCtx`: the address of the peer, empty when unknown. -/
  peer : String
  requestID : String
  authInfo : Option ContextAuthInfo
  values : V

/-- The context and the request of a unary call. -/
structure UnaryCall (V A : Type) where
  ctx : Context V
  req : A

/-- A `grpc.ServerStream`, by its dynamic type: a `*wrappedServerStream`, which may be nil,
or any other type with its context. -/
inductive ServerStream (V : Type) where
  | wrapped (w : Option (Context V))
  | other (ctx : Context V)

/-- `Context()`, which a nil wrapper does not have. -/
def ServerStream.context : ServerStream V → Option (Context V)
  | wrapped w => w
  | other ctx => some ctx

@[simp] theorem context_wrapped (w : Option (Context V)) : (ServerStream.wrapped w).context = w := rfl

@[simp] theorem context_other (ctx : Context V) : (ServerStream.other ctx).context = some ctx := rfl

/-- A kind of call. -/
class Carrier (κ : Type) (V : outParam Type) where
  context : κ → Option (Context V)

instance : Carrier (UnaryCall V A) V := ⟨fun x => some x.ctx⟩

instance : Carrier (ServerStream V) V := ⟨ServerStream.context⟩

@[simp] theorem context_unary (x : UnaryCall V A) : Carrier.context x = some x.ctx := rfl

@[simp] theorem context_stream (x : ServerStream V) : Carrier.context x = x.context := rfl

/-! ## Programs of interceptors -/

/-- What an interceptor does: it calls the next handler, the authentication service, the
rate limiter or a source of identifiers, or does something else. -/
inductive Cmd (κ E : Type) where
  | handler (x : κ)
  | validateAPIToken (token : String)
  | getUserByID (id : ℤ)
  | limit (key : String)
  | newRequestID
  | other (e : E)

/-- `R` is the reply of a handler, `W` the answer to anything else. -/
abbrev Cmd.Res (κ E R W : Type) : Cmd κ E → Type
  | .handler _ => R
  | .validateAPIToken _ => Token
  | .getUserByID _ => User
  | .limit _ => Bool
  | .newRequestID => String
  | .other _ => W

abbrev GrpcProg (κ E R W : Type) := Prog (Cmd κ E) (Cmd.Res κ E R W)

/-- `grpc.UnaryServerInterceptor` and `grpc.StreamServerInterceptor`. -/
abbrev Interceptor (κ E R W : Type) := κ → String → GrpcProg κ E R W R

variable {κ E R W V A : Type}

abbrev call (c : Cmd κ E) : GrpcProg κ E R W (Cmd.Res κ E R W c) := Prog.call c

/-- `handler(x)`. -/
def next (x : κ) : GrpcProg κ E R W R := call (.handler x)

/-- `status.Error(code, message)`. -/
def statusError (code message : String) : GoError := .typed "status.Error" (.leaf (code ++ ": " ++ message))

/-- What runs for a command of an interceptor whose next handler is `h`. -/
def Cmd.through (h : κ → GrpcProg κ E R W R) :
    (c : Cmd κ E) → GrpcProg κ E R W (Cmd.Res κ E R W c)
  | .handler x => h x
  | c => call c

/-- The program of an interceptor with its next handler in place. -/
def through (p : GrpcProg κ E R W R) (h : κ → GrpcProg κ E R W R) : GrpcProg κ E R W R :=
  p.interpret (Cmd.through h)

/-- `grpc.ChainUnaryInterceptor` and `grpc.ChainStreamInterceptor`: the first interceptor is
the outermost, the last one calls the handler of the method. -/
structure Chaining (κ E R W : Type) where
  chain : List (Interceptor κ E R W) → Interceptor κ E R W
  chain_nil : ∀ x method, chain [] x method = next x
  chain_cons : ∀ i is x method,
    chain (i :: is) x method = through (i x method) fun x' => chain is x' method

/-- Some chaining is like that. -/
def inOrder : Chaining κ E R W where
  chain := fun is x method => is.foldr (fun i h x => through (i x method) h) next x
  chain_nil _ _ := rfl
  chain_cons _ _ _ _ := rfl

/-! ## The interceptors of every server -/

/-- `DefaultSkipper`: server reflection and the health service. -/
def defaultSkipper (method : String) : Bool :=
  method == "/grpc.reflection.v1.ServerReflection/ServerReflectionInfo" ||
  method == "/grpc.health.v1.Health/List" ||
  method == "/grpc.health.v1.Health/Check" ||
  method == "/grpc.health.v1.Health/Watch"

def headerNameRequestID : String := "x-request-id"

/-- `getRequestID`. -/
def getRequestID (ctx : Context V) : GrpcProg κ E R W String :=
  match (ctx.incoming.map (·.get headerNameRequestID)).bind List.head? with
  | some id => if id = "" then call .newRequestID else return id
  | none => call .newRequestID

/-- `extractOrGenerateRequestID`. -/
def extractOrGenerateRequestID (ctx : Context V) : GrpcProg κ E R W (Context V) := do
  let requestID ← getRequestID ctx
  return { ctx with
    requestID := requestID, outgoing := ctx.outgoing ++ [(headerNameRequestID, requestID)] }

def errNilStream : String := "invalid memory address or nil pointer dereference"

/-- `stream.Context()` in an interceptor. -/
def streamContext (ss : ServerStream V) : GrpcProg κ E R W (Context V) :=
  match ss.context with
  | some ctx => return ctx
  | none => .done (.panicked errNilStream)

def unaryRequestIDInterceptor : Interceptor (UnaryCall V A) E R W := fun x _ => do
  let newCtx ← extractOrGenerateRequestID x.ctx
  next { x with ctx := newCtx }

def streamRequestIDInterceptor : Interceptor (ServerStream V) E R W := fun ss _ => do
  let newCtx ← extractOrGenerateRequestID (← streamContext ss)
  next (.other newCtx)

/-- `UnaryMetricsInterceptor` and `StreamMetricsInterceptor`. -/
def metricsInterceptor : Interceptor κ E R W := fun x _ => next x

/-- The tail the two rate limiting interceptors share. -/
def limited (peer : String) (x : κ) : GrpcProg κ E R W R := do
  let allowed ← (call (.limit peer)).mapErr
    fun _ => statusError "Unavailable" "rate limiter unavailable"
  if !allowed then .fail (statusError "ResourceExhausted" "rate limit exceeded")
  else next x

/-- `limiter` tells whether the server has one. -/
def unaryServerRateLimiterInterceptor (limiter : Bool) : Interceptor (UnaryCall V A) E R W :=
  fun x method => if !limiter || defaultSkipper method then next x else limited x.ctx.peer x

def streamServerRateLimiterInterceptor (limiter : Bool) : Interceptor (ServerStream V) E R W :=
  fun ss method =>
    if !limiter || defaultSkipper method then next ss
    else do limited (← streamContext ss).peer ss

/-! ## Interceptors that pass the call on -/

/-- A handler has returned a reply. -/
def replied : Observer (Cmd κ E) (Cmd.Res κ E R W) Unit
  | .handler _, .returned _ => some ()
  | _, _ => none

/-- What identifies the caller: the values of `key` in the incoming metadata, and the
authentication. -/
def identity [Carrier κ V] (key : String) (x : κ) : Option (List String × Option ContextAuthInfo) :=
  (Carrier.context x).map fun ctx => (valuesOf ctx.incoming key, ctx.authInfo)

/-- The interceptor hands on calls derived from its own, with the values of `key` and the
authentication that it got; all other metadata may change. When `faithful`, it also replies only
when the next handler has. -/
def Passes [Carrier κ V] (key : String) (faithful : Prop) (i : Interceptor κ E R W) : Prop :=
  ∀ x method, (i x method).Spec replied
    (fun _ c => ∀ x', c = .handler x' → identity key x' = identity key x)
    (fun F o => faithful → o.isReturned = true → F ≠ []) []

theorem Passes.of_faithful [Carrier κ V] {key : String} {faithful : Prop} {i : Interceptor κ E R W}
    (h : Passes key True i) : Passes key faithful i :=
  fun x method => (h x method).mono fun _ _ hreply _ => hreply trivial

section Passes

variable [Carrier κ V] {key : String} {x x' : κ} {F : List Unit}

/-- What a program of an interceptor that got `x` does, by the rule above. -/
abbrev PassesOn (key : String) (p : GrpcProg κ E R W α) (x : κ) (Q : List Unit → Outcome α → Prop)
    (F : List Unit) : Prop :=
  p.Spec replied (fun _ c => ∀ x', c = .handler x' → identity key x' = identity key x) Q F

theorem next_passes (h : identity key x' = identity key x) :
    PassesOn key (next x' : GrpcProg κ E R W R) x (fun F o => True → o.isReturned = true → F ≠ []) F := by
  refine ⟨fun y hy => ?_, fun o _ ho => ?_⟩
  · cases hy
    exact h
  · cases o with
    | returned r => exact List.cons_ne_nil _ _
    | failed e => cases ho
    | panicked v => cases ho

/-- A command that is no call of the handler. -/
def Cmd.aside : Cmd κ E → Prop
  | .handler _ => False
  | _ => True

theorem PassesOn.aside {p : GrpcProg κ E R W α} {Q : List Unit → Outcome α → Prop}
    (hp : p.Issues Cmd.aside) (hQ : ∀ o, Q F o) : PassesOn key p x Q F := by
  apply hp.spec
  · rintro c hc x' rfl
    cases hc
  · intro c hc o
    cases c with
    | handler x' => cases hc
    | _ => rfl
  · exact hQ

omit [Carrier κ V] in
theorem getRequestID_aside {ctx : Context V} :
    (getRequestID ctx : GrpcProg κ E R W String).Issues Cmd.aside := by
  unfold getRequestID
  split
  · split
    · exact Prog.Issues.call trivial
    · trivial
  · exact Prog.Issues.call trivial

/-- The request ID goes into the context; its metadata and authentication stay. -/
theorem extractOrGenerateRequestID_passes {ctx : Context V}
    {f : Context V → GrpcProg κ E R W R}
    (h : ∀ ctx' : Context V, ctx'.incoming = ctx.incoming → ctx'.authInfo = ctx.authInfo →
      PassesOn key (f ctx') x (fun F o => True → o.isReturned = true → F ≠ []) F) :
    PassesOn key (extractOrGenerateRequestID ctx >>= f) x (fun F o => True → o.isReturned = true → F ≠ []) F := by
  apply Prog.Spec.seq
  apply Prog.Spec.seq
  apply PassesOn.aside getRequestID_aside
  intro o
  cases o with
  | returned id => exact h _ rfl rfl
  | failed e => exact fun _ ho => nomatch ho
  | panicked v => exact fun _ ho => nomatch ho

theorem streamContext_passes {ss : ServerStream V} {f : Context V → GrpcProg κ E R W R}
    (h : ∀ ctx, ss.context = some ctx →
      PassesOn key (f ctx) x (fun F o => True → o.isReturned = true → F ≠ []) F) :
    PassesOn key (streamContext ss >>= f) x (fun F o => True → o.isReturned = true → F ≠ []) F := by
  unfold streamContext
  cases hctx : ss.context with
  | some ctx => exact h ctx hctx
  | none => exact fun _ ho => nomatch ho

theorem unaryRequestIDInterceptor_passes :
    Passes key True (unaryRequestIDInterceptor : Interceptor (UnaryCall V A) E R W) := by
  intro x method
  apply extractOrGenerateRequestID_passes
  intro ctx' hincoming hauth
  apply next_passes
  simp [identity, hincoming, hauth]

theorem streamRequestIDInterceptor_passes :
    Passes key True (streamRequestIDInterceptor : Interceptor (ServerStream V) E R W) := by
  intro ss method
  apply streamContext_passes
  intro ctx hctx
  apply extractOrGenerateRequestID_passes
  intro ctx' hincoming hauth
  apply next_passes
  simp [identity, hctx, hincoming, hauth]

theorem metricsInterceptor_passes : Passes key True (metricsInterceptor : Interceptor κ E R W) :=
  fun _ _ => next_passes rfl

theorem limited_passes {peer : String} :
    PassesOn key (limited peer x : GrpcProg κ E R W R) x (fun F o => True → o.isReturned = true → F ≠ []) F := by
  apply Prog.Spec.seq
  apply Prog.Spec.mapErr
  have hlimit : (call (.limit peer) : GrpcProg κ E R W Bool).Issues Cmd.aside :=
    Prog.Issues.call trivial
  apply PassesOn.aside hlimit
  intro o
  cases o with
  | returned allowed =>
      cases allowed with
      | true => exact next_passes rfl
      | false => exact fun _ ho => nomatch ho
  | failed e => exact fun _ ho => nomatch ho
  | panicked v => exact fun _ ho => nomatch ho

theorem unaryServerRateLimiterInterceptor_passes {limiter : Bool} :
    Passes key True (unaryServerRateLimiterInterceptor limiter : Interceptor (UnaryCall V A) E R W) := by
  intro x method
  unfold unaryServerRateLimiterInterceptor
  split
  · exact next_passes rfl
  · exact limited_passes

theorem streamServerRateLimiterInterceptor_passes {limiter : Bool} :
    Passes key True (streamServerRateLimiterInterceptor limiter : Interceptor (ServerStream V) E R W) := by
  intro ss method
  unfold streamServerRateLimiterInterceptor
  split
  · exact next_passes rfl
  · exact streamContext_passes fun _ _ => limited_passes

end Passes
end Go42.Api.Grpc
