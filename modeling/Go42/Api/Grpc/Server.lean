-- SUMMARY: The interceptor chains `New` builds from its options: the stable sort by priority, whatever the order in which the option maps are read.
import Go42.Api.Grpc.Interceptors
import Go42.Tools.Priority

/-!
# gRPC server

`New` keeps the extra interceptors in maps and reads these in an order that Go leaves
open. Certificates, limits on messages, reflection and health checks do not touch the
chains.
-/

namespace Go42.Api.Grpc

open Tools (PriorityQueue itemsAt)

variable {V A E R W β : Type}

abbrev UnaryInterceptor (V A E R W : Type) := Interceptor (UnaryCall V A) E R W

abbrev StreamInterceptor (V E W : Type) := Interceptor (ServerStream V) E Unit W

def interceptorPriorityPreprocess : ℤ := 1
def interceptorPriorityObservability : ℤ := 2
def interceptorPriorityAuthentication : ℤ := 3
def interceptorPriorityBusinessLogic : ℤ := 4

structure Server (V A E R W : Type) where
  /-- A rate limiter was set. -/
  rateLimiter : Bool
  extraUnaryInterceptors : AList fun _ : ℤ => List (UnaryInterceptor V A E R W)
  extraStreamInterceptors : AList fun _ : ℤ => List (StreamInterceptor V E W)

/-! ## Options -/

inductive ServerOption (V A E R W : Type) where
  | withRateLimiter
  | withUnaryInterceptor (priority : ℤ) (interceptor : UnaryInterceptor V A E R W)
  | withStreamInterceptor (priority : ℤ) (interceptor : StreamInterceptor V E W)

/-- `m[priority] = append(m[priority], item)`. -/
def appendAt (m : AList fun _ : ℤ => List β) (priority : ℤ) (item : β) : AList fun _ : ℤ => List β :=
  m.insert priority (itemsAt m priority ++ [item])

def ServerOption.apply (s : Server V A E R W) : ServerOption V A E R W → Server V A E R W
  | withRateLimiter => { s with rateLimiter := true }
  | withUnaryInterceptor priority interceptor =>
    { s with extraUnaryInterceptors := appendAt s.extraUnaryInterceptors priority interceptor }
  | withStreamInterceptor priority interceptor =>
    { s with extraStreamInterceptors := appendAt s.extraStreamInterceptors priority interceptor }

/-- The server before its queues are built. -/
def configured (opts : List (ServerOption V A E R W)) : Server V A E R W :=
  opts.foldl ServerOption.apply ⟨false, ∅, ∅⟩

/-- The unary interceptors of the options, in order. -/
def unaryOptions (opts : List (ServerOption V A E R W)) : List (ℤ × UnaryInterceptor V A E R W) :=
  opts.filterMap fun
    | .withUnaryInterceptor priority interceptor => some (priority, interceptor)
    | _ => none

/-- The stream interceptors of the options, in order. -/
def streamOptions (opts : List (ServerOption V A E R W)) : List (ℤ × StreamInterceptor V E W) :=
  opts.filterMap fun
    | .withStreamInterceptor priority interceptor => some (priority, interceptor)
    | _ => none

/-! ## Building the chains -/

/-- The interceptors of other packages that every server has, for one kind of call. -/
structure Packaged (κ E R W : Type) [Carrier κ V] where
  logging : Interceptor κ E R W
  recovery : Interceptor κ E R W
  protovalidate : Interceptor κ E R W
  logging_passes : ∀ key, Passes key True logging
  recovery_passes : ∀ key, Passes key True recovery
  protovalidate_passes : ∀ key, Passes key True protovalidate

/-- What `New` enqueues first. -/
def builtins [Carrier κ V] (lib : Packaged κ E R W) (requestID rateLimiter : Interceptor κ E R W) :
    List (ℤ × Interceptor κ E R W) :=
  [(interceptorPriorityPreprocess, requestID),
    (interceptorPriorityPreprocess, lib.logging),
    (interceptorPriorityPreprocess, metricsInterceptor),
    (interceptorPriorityPreprocess, lib.recovery),
    (interceptorPriorityPreprocess, rateLimiter),
    (interceptorPriorityBusinessLogic, lib.protovalidate)]

def unaryBuiltins (lib : Packaged (UnaryCall V A) E R W) (s : Server V A E R W) :
    List (ℤ × UnaryInterceptor V A E R W) :=
  builtins lib unaryRequestIDInterceptor (unaryServerRateLimiterInterceptor s.rateLimiter)

def streamBuiltins (lib : Packaged (ServerStream V) E Unit W) (s : Server V A E R W) :
    List (ℤ × StreamInterceptor V E W) :=
  builtins lib streamRequestIDInterceptor (streamServerRateLimiterInterceptor s.rateLimiter)

/-- An order in which `range` may visit the entries of a map. -/
abbrev RangeOrder (β : Type) := { order : List β → List β // ∀ entries, (order entries).Perm entries }

/-- `for priority, items := range m { for _, item := range items { … } }`. -/
def ranged (order : RangeOrder (Σ _ : ℤ, List β)) (m : AList fun _ : ℤ => List β) : List (ℤ × β) :=
  (order.1 m.entries).flatMap fun e => e.2.map fun item => (e.1, item)

/-- The chains handed to `grpc.ChainUnaryInterceptor` and `grpc.ChainStreamInterceptor`. -/
structure Chains (V A E R W : Type) where
  unary : List (UnaryInterceptor V A E R W)
  stream : List (StreamInterceptor V E W)

/-- The queue with the built-in interceptors and then the extra ones. -/
def buildQueue (order : RangeOrder (Σ _ : ℤ, List β)) (builtin : List (ℤ × β))
    (extra : AList fun _ : ℤ => List β) : PriorityQueue β :=
  (PriorityQueue.new.enqueueAll builtin).enqueueAll (ranged order extra)

/-- `New`. -/
def new (unaryLib : Packaged (UnaryCall V A) E R W) (streamLib : Packaged (ServerStream V) E Unit W)
    (unaryOrder : RangeOrder (Σ _ : ℤ, List (UnaryInterceptor V A E R W)))
    (streamOrder : RangeOrder (Σ _ : ℤ, List (StreamInterceptor V E W)))
    (opts : List (ServerOption V A E R W)) : Chains V A E R W :=
  let s := configured opts
  { unary := (buildQueue unaryOrder (unaryBuiltins unaryLib s) s.extraUnaryInterceptors).extract
    stream := (buildQueue streamOrder (streamBuiltins streamLib s) s.extraStreamInterceptors).extract }

/-! ## The maps of the options -/

theorem itemsAt_appendAt {m : AList fun _ : ℤ => List β} {priority p : ℤ} {item : β} :
    (itemsAt (appendAt m priority item) p).map (fun x => (p, x)) =
      (itemsAt m p).map (fun x => (p, x)) ++ atKey p [(priority, item)] := by
  rcases eq_or_ne p priority with rfl | hne
  · simp [appendAt, atKey]
  · simp [appendAt, Tools.itemsAt_insert_ne hne, atKey, hne.symm]

/-- Options append to one list of the map; each list keeps the order of its options. -/
theorem itemsAt_extraUnary (opts : List (ServerOption V A E R W)) (p : ℤ) :
    ∀ s : Server V A E R W,
      (itemsAt (opts.foldl ServerOption.apply s).extraUnaryInterceptors p).map (fun x => (p, x)) =
        (itemsAt s.extraUnaryInterceptors p).map (fun x => (p, x)) ++ atKey p (unaryOptions opts) := by
  induction opts with
  | nil => simp [unaryOptions]
  | cons opt opts ih =>
      intro s
      rw [List.foldl_cons, ih]
      cases opt with
      | withUnaryInterceptor priority interceptor =>
          have hcons : unaryOptions (.withUnaryInterceptor priority interceptor :: opts) =
              [(priority, interceptor)] ++ unaryOptions opts := rfl
          rw [hcons, atKey_append, ← List.append_assoc, ← itemsAt_appendAt]
          rfl
      | _ => rfl

theorem itemsAt_extraStream (opts : List (ServerOption V A E R W)) (p : ℤ) :
    ∀ s : Server V A E R W,
      (itemsAt (opts.foldl ServerOption.apply s).extraStreamInterceptors p).map (fun x => (p, x)) =
        (itemsAt s.extraStreamInterceptors p).map (fun x => (p, x)) ++
          atKey p (streamOptions opts) := by
  induction opts with
  | nil => simp [streamOptions]
  | cons opt opts ih =>
      intro s
      rw [List.foldl_cons, ih]
      cases opt with
      | withStreamInterceptor priority interceptor =>
          have hcons : streamOptions (.withStreamInterceptor priority interceptor :: opts) =
              [(priority, interceptor)] ++ streamOptions opts := rfl
          rw [hcons, atKey_append, ← List.append_assoc, ← itemsAt_appendAt]
          rfl
      | _ => rfl

/-- The entries at `p` among entries of distinct keys. -/
theorem atKey_entries {p : ℤ} {entries : List (Σ _ : ℤ, List β)} (h : entries.NodupKeys) :
    atKey p (entries.flatMap fun e => e.2.map fun item => (e.1, item)) =
      ((entries.dlookup p).getD []).map fun item => (p, item) := by
  induction entries with
  | nil => simp
  | cons e entries ih =>
      obtain ⟨q, items⟩ := e
      have hself : atKey p (items.map fun item => (q, item)) =
          if q = p then items.map fun item => (q, item) else [] := by
        split
        case isTrue heq => simp [atKey, heq]
        case isFalse hne => simp [atKey, hne]
      rw [List.nodupKeys_cons] at h
      rw [List.flatMap_cons, atKey_append, ih h.2, hself]
      rcases eq_or_ne q p with rfl | hne
      · simp [List.dlookup_eq_none.mpr h.1]
      · have hcons := List.dlookup_cons_ne entries ⟨q, items⟩ (Ne.symm hne)
        simp [hne, hcons]

/-- The order of a range decides nothing within one key. -/
theorem atKey_ranged (order : RangeOrder (Σ _ : ℤ, List β)) (m : AList fun _ : ℤ => List β) (p : ℤ) :
    atKey p (ranged order m) = (itemsAt m p).map fun item => (p, item) := by
  have hperm := order.2 m.entries
  have hnodup := (List.perm_nodupKeys hperm).mpr m.nodupKeys
  rw [ranged, atKey_entries hnodup, List.perm_dlookup p hnodup hperm]
  rfl

/-- Built-in and extra interceptors are sorted by priority, and stay in order within one. -/
theorem extract_buildQueue {order : RangeOrder (Σ _ : ℤ, List β)} {builtin options : List (ℤ × β)}
    {extra : AList fun _ : ℤ => List β}
    (h : ∀ p, (itemsAt extra p).map (fun item => (p, item)) = atKey p options) :
    (buildQueue order builtin extra).extract = (stableSort (builtin ++ options)).map Prod.snd := by
  rw [PriorityQueue.extract_eq]
  congr 1
  apply eq_stableSort (PriorityQueue.entries_pairwise _)
  intro p
  rw [buildQueue, PriorityQueue.entries_enqueueAll, atKey_append, PriorityQueue.entries_enqueueAll,
    PriorityQueue.entries_new, List.nil_append, atKey_ranged, h, ← atKey_append]

/-! ## The chains -/

/-- `sorted` is the stable sort of `builtin ++ extra`: ascending priorities; at each
priority the built-in interceptors and then the extra ones, both in their order; each as
often as it was registered. -/
structure StablySorted (sorted builtin extra : List (ℤ × β)) : Prop where
  ascending : sorted.Pairwise fun a b => a.1 ≤ b.1
  stable : ∀ p, atKey p sorted = atKey p builtin ++ atKey p extra
  perm : sorted.Perm (builtin ++ extra)

theorem stableSort_stablySorted (builtin extra : List (ℤ × β)) :
    StablySorted (stableSort (builtin ++ extra)) builtin extra where
  ascending := (stableSort_pairwise _).imp fun h => of_decide_eq_true h
  stable p := by rw [stableSort_atKey, atKey_append]
  perm := stableSort_perm _

variable (unaryLib : Packaged (UnaryCall V A) E R W) (streamLib : Packaged (ServerStream V) E Unit W)
variable (unaryOrder : RangeOrder (Σ _ : ℤ, List (UnaryInterceptor V A E R W)))
variable (streamOrder : RangeOrder (Σ _ : ℤ, List (StreamInterceptor V E W)))
variable (opts : List (ServerOption V A E R W))

theorem new_unary : (new unaryLib streamLib unaryOrder streamOrder opts).unary =
    (stableSort (unaryBuiltins unaryLib (configured opts) ++ unaryOptions opts)).map Prod.snd := by
  apply extract_buildQueue
  intro p
  rw [configured, itemsAt_extraUnary]
  simp [Tools.itemsAt]

theorem new_stream : (new unaryLib streamLib unaryOrder streamOrder opts).stream =
    (stableSort (streamBuiltins streamLib (configured opts) ++ streamOptions opts)).map Prod.snd := by
  apply extract_buildQueue
  intro p
  rw [configured, itemsAt_extraStream]
  simp [Tools.itemsAt]

/-- The chains are the stable sorts of the registered interceptors, whatever the orders in
which the option maps were read. -/
theorem new_chains_order_independent :
    (new unaryLib streamLib unaryOrder streamOrder opts).unary =
        (stableSort (unaryBuiltins unaryLib (configured opts) ++ unaryOptions opts)).map Prod.snd ∧
      StablySorted (stableSort (unaryBuiltins unaryLib (configured opts) ++ unaryOptions opts))
        (unaryBuiltins unaryLib (configured opts)) (unaryOptions opts) ∧
      (new unaryLib streamLib unaryOrder streamOrder opts).stream =
        (stableSort (streamBuiltins streamLib (configured opts) ++ streamOptions opts)).map Prod.snd ∧
      StablySorted (stableSort (streamBuiltins streamLib (configured opts) ++ streamOptions opts))
        (streamBuiltins streamLib (configured opts)) (streamOptions opts) :=
  ⟨new_unary .., stableSort_stablySorted .., new_stream .., stableSort_stablySorted ..⟩

end Go42.Api.Grpc
