-- SUMMARY: The HTTP cache middleware: what it stores and replays, which requests share a cache key, and for which sequences of requests no response is replayed to another request.
import Go42.Lib.Base64
import Go42.Lib.System

/-!
# Cache middleware

The key of a request is its method, its path and its raw query with two separators between
them. The path was percent-decoded, so it may contain the second separator, and two
requests can have one key.

Responses are what a handler writes with `c.JSON`: a status and the chunks of a body.
-/

namespace Go42.Api.Http

/-! ## Requests -/

def plus : UInt8 := 43
def slash : UInt8 := 47
def question : UInt8 := 63

/-- What the key is made of, as the server passes it on: the method is a token, and the
path is rooted, empty or an asterisk. -/
structure Request where
  method : Bytes
  path : Bytes
  rawQuery : Bytes
  method_token : slash ∉ method ∧ question ∉ method
  path_form : path = [] ∨ path = [42] ∨ ∃ rest, path = slash :: rest
deriving DecidableEq

/-- `fmt.Sprintf("%s+%s?%s", …)`. -/
def cacheKey (r : Request) : Bytes := r.method ++ plus :: (r.path ++ question :: r.rawQuery)

/-! ## Responses -/

/-- What was written to the client: the first status counts, and a body without a status
implies 200. -/
structure Response where
  status : Option ℕ
  body : Bytes
deriving DecidableEq, Repr

def statusOK : ℕ := 200

def Response.empty : Response := ⟨none, []⟩

def Response.writeHeader (w : Response) (status : ℕ) : Response :=
  { w with status := w.status.or (some status) }

def Response.write (w : Response) (b : Bytes) : Response :=
  ⟨w.status.or (some statusOK), w.body ++ b⟩

/-- `responseRecorder`. -/
structure ResponseRecorder where
  responseWriter : Response
  status : ℕ
  doWrite : Bool
  body : Bytes
  size : ℕ

namespace ResponseRecorder

/-- `newResponseRecorder`. -/
def new (w : Response) (doWrite : Bool) : ResponseRecorder := ⟨w, 0, doWrite, [], 0⟩

def writeHeader (r : ResponseRecorder) (status : ℕ) : ResponseRecorder :=
  { r with status := status, responseWriter := r.responseWriter.writeHeader status }

def write (r : ResponseRecorder) (b : Bytes) : ResponseRecorder :=
  { r with
    body := if r.doWrite then r.body ++ b else r.body
    responseWriter := r.responseWriter.write b
    size := r.size + b.length }

end ResponseRecorder

/-- What a handler does with a request: the status and the chunks of a body that it writes, if
it writes, and the error it returns. -/
structure Reply where
  written : Option (ℕ × List Bytes)
  err : Option GoError
deriving DecidableEq

abbrev Handler := Request → Reply

/-- A response, and the error that is left to the error handler. -/
abbrev Result := Response × Option GoError

/-- `c.JSON(status, …)` and `c.JSONBlob(status, …)`, on a plain response. -/
def writeJSON (w : Response) (status : ℕ) (chunks : List Bytes) : Response :=
  chunks.foldl Response.write (w.writeHeader status)

/-- The same on a recorder. -/
def recordJSON (r : ResponseRecorder) (status : ℕ) (chunks : List Bytes) : ResponseRecorder :=
  chunks.foldl ResponseRecorder.write (r.writeHeader status)

/-- `next(c)` on a plain response. -/
def Reply.respond (reply : Reply) (w : Response) : Response :=
  match reply.written with
  | none => w
  | some (status, chunks) => writeJSON w status chunks

/-- `next(c)` on a recorder. -/
def Reply.record (reply : Reply) (r : ResponseRecorder) : ResponseRecorder :=
  match reply.written with
  | none => r
  | some (status, chunks) => recordJSON r status chunks

/-- What a request gets from the handler alone. -/
def serve (next : Handler) (r : Request) : Result := ((next r).respond .empty, (next r).err)

theorem foldl_write (chunks : List Bytes) : ∀ w : Response,
    chunks.foldl Response.write w =
      ⟨if chunks = [] then w.status else w.status.or (some statusOK), w.body ++ chunks.flatten⟩ := by
  induction chunks with
  | nil => simp
  | cons b chunks ih =>
      intro w
      rw [List.foldl_cons, ih]
      cases hs : w.status <;> simp [Response.write, hs]

/-- The status that was written first, and the whole body. -/
theorem writeJSON_empty (status : ℕ) (chunks : List Bytes) :
    writeJSON .empty status chunks = ⟨some status, chunks.flatten⟩ := by
  rw [writeJSON, foldl_write]
  simp [Response.writeHeader, Response.empty]

/-- Recording does not alter what is written, and keeps its status and body. -/
theorem recordJSON_eq (status : ℕ) (chunks : List Bytes) :
    (recordJSON (.new .empty true) status chunks).responseWriter = writeJSON .empty status chunks ∧
      (recordJSON (.new .empty true) status chunks).status = status ∧
      (recordJSON (.new .empty true) status chunks).body = chunks.flatten := by
  have hfold (cs : List Bytes) : ∀ r : ResponseRecorder, r.doWrite = true →
      (cs.foldl ResponseRecorder.write r).responseWriter = cs.foldl Response.write r.responseWriter ∧
        (cs.foldl ResponseRecorder.write r).status = r.status ∧
        (cs.foldl ResponseRecorder.write r).body = r.body ++ cs.flatten := by
    induction cs with
    | nil => simp
    | cons b cs ih =>
        intro r hr
        obtain ⟨hwriter, hstatus, hbody⟩ := ih (r.write b) hr
        simp only [List.foldl_cons, hwriter, hstatus, hbody]
        simp [ResponseRecorder.write, hr]
  exact hfold chunks _ rfl

theorem Reply.record_responseWriter (reply : Reply) :
    (reply.record (.new .empty true)).responseWriter = reply.respond .empty := by
  unfold Reply.record Reply.respond
  cases reply.written with
  | none => rfl
  | some written => exact (recordJSON_eq written.1 written.2).1

/-- A recorded 200 is replayed as it was written. -/
theorem Reply.replay {reply : Reply}
    (hstatus : (reply.record (.new .empty true)).status = statusOK) :
    writeJSON .empty statusOK [(reply.record (.new .empty true)).body] = reply.respond .empty := by
  unfold Reply.record Reply.respond at *
  cases hwritten : reply.written with
  | none =>
      rw [hwritten] at hstatus
      cases hstatus
  | some written =>
      rw [hwritten] at hstatus
      obtain ⟨-, hrecorded, hbody⟩ := recordJSON_eq written.1 written.2
      have hok : written.1 = statusOK := hrecorded.symm.trans hstatus
      show writeJSON .empty statusOK [(recordJSON (.new .empty true) written.1 written.2).body] =
        writeJSON .empty written.1 written.2
      rw [hbody, hok, writeJSON_empty, writeJSON_empty, List.flatten_singleton]

/-! ## The middleware -/

inductive Cmd where
  | get (key : Bytes)
  | set (key value : Bytes) (ttl : ℤ)
deriving DecidableEq

/-- `Get` answers with the value when one was found. -/
abbrev Res : Cmd → Type
  | .get _ => Option Bytes
  | .set _ _ _ => Unit

abbrev call (c : Cmd) : Prog Cmd Res (Res c) := Prog.call c

/-- `next(c)` on the given outcome. -/
def pass (next : Handler) (r : Request) : Prog Cmd Res Result := return serve next r

/-- `CacheMiddleware` from the miss on. -/
def recordAndSet (ttl : ℤ) (next : Handler) (r : Request) : Prog Cmd Res Result :=
  let resRecorder := (next r).record (.new .empty true)
  match (next r).err with
  | some err => return (resRecorder.responseWriter, some err)
  | none =>
    if resRecorder.status ≠ statusOK then return (resRecorder.responseWriter, none)
    else do
      -- A failure to store the response is only logged.
      let _ ← (call (.set (cacheKey r) resRecorder.body ttl)).attempt
      return (resRecorder.responseWriter, none)

/-- `CacheMiddleware(cache, ttl)(next)`. -/
def cacheMiddleware (ttl : ℤ) (next : Handler) (r : Request) : Prog Cmd Res Result :=
  if ttl = 0 then pass next r
  else do
    match ← (call (.get (cacheKey r))).attempt with
    | .error _ => pass next r
    | .ok (some cached) => return (writeJSON .empty statusOK [cached], none)
    | .ok none => recordAndSet ttl next r

/-! ## The cache -/

/-- The values that were set, latest first. -/
abbrev CacheState := List (Bytes × Bytes)

/-- A read finds the last value, or nothing, or fails. A write that fails may have been
stored, and one that succeeds may be lost at once. -/
inductive CacheChoice where
  | good
  | forget
  | fail (err : GoError) (stored : Bool)

def cacheMachine : Machine Cmd Res CacheChoice Unit CacheState := fun _ _ c ch s =>
  match c, ch with
  | .get key, .good => some (.returned (s.lookup key), (), s)
  | .get _, .forget => some (.returned none, (), s)
  | .set key value _, .good => some (.returned (), (), (key, value) :: s)
  | .set _ _ _, .forget => some (.returned (), (), s)
  | .get _, .fail err _ => some (.failed err, (), s)
  | .set key value _, .fail err stored =>
    some (.failed err, (), if stored then (key, value) :: s else s)

/-- The requests are served one after the other, with the given outcomes. -/
inductive Served (ttl : ℤ) (next : Handler) :
    List Request → CacheState → List (Outcome Result) → CacheState → Prop where
  | nil {s : CacheState} : Served ttl next [] s [] s
  | cons {r : Request} {rs : List Request} {s s' s'' : CacheState} {o : Outcome Result}
      {os : List (Outcome Result)} {log : Log Cmd Res Unit} :
      (cacheMiddleware ttl next r).Runs cacheMachine 0 [] s o log s' → Served ttl next rs s' os s'' →
      Served ttl next (r :: rs) s (o :: os) s''

/-! ## Requests with one key -/

/-- The path of `r` runs on, over a question mark, into the raw query of `r'`. -/
def Splits (r r' : Request) : Prop :=
  r.method = r'.method ∧ ∃ w, r.path = r'.path ++ question :: w ∧
    r'.rawQuery = w ++ question :: r.rawQuery

/-- Neither of the two splits into the other. -/
def Apart (r r' : Request) : Prop := ¬Splits r r' ∧ ¬Splits r' r

theorem Request.ext' {r r' : Request} (hmethod : r.method = r'.method) (hpath : r.path = r'.path)
    (hquery : r.rawQuery = r'.rawQuery) : r = r' := by
  cases r
  cases r'
  cases hmethod
  cases hpath
  cases hquery
  rfl

/-- A path does not begin with the rest of a longer method. -/
theorem path_ne_token {r : Request} {a y : Bytes} (hslash : slash ∉ a) (hquestion : question ∉ a) :
    r.path ++ question :: r.rawQuery ≠ a ++ plus :: y := by
  intro h
  rcases r.path_form with hp | hp | ⟨rest, hp⟩
  · rw [hp, List.nil_append] at h
    cases a with
    | nil => cases h
    | cons b a => exact hquestion ((List.cons.inj h).1 ▸ List.mem_cons_self)
  · rw [hp, List.singleton_append] at h
    cases a with
    | nil => cases h
    | cons b a =>
        have htail : question :: r.rawQuery = a ++ plus :: y := (List.cons.inj h).2
        cases a with
        | nil => cases htail
        | cons c a =>
            exact hquestion (List.mem_cons_of_mem b ((List.cons.inj htail).1 ▸ List.mem_cons_self))
  · rw [hp, List.cons_append] at h
    cases a with
    | nil => cases h
    | cons b a => exact hslash ((List.cons.inj h).1 ▸ List.mem_cons_self)

/-- A method ends where the key says it does. -/
theorem method_of_key {r r' : Request} {a : Bytes} (hmethod : r'.method = r.method ++ a)
    (hrest : plus :: (r.path ++ question :: r.rawQuery) =
      a ++ plus :: (r'.path ++ question :: r'.rawQuery)) : a = [] := by
  cases a with
  | nil => rfl
  | cons b a =>
      obtain ⟨hslash, hquestion⟩ := r'.method_token
      rw [hmethod] at hslash hquestion
      have hmem {c : UInt8} (hc : c ∈ a) : c ∈ r.method ++ b :: a :=
        List.mem_append_right _ (List.mem_cons_of_mem b hc)
      exact absurd (List.cons.inj hrest).2
        (path_ne_token (fun h => hslash (hmem h)) (fun h => hquestion (hmem h)))

/-- The split of a path against a shorter one. -/
theorem splits_of_key {r r' : Request} {a : Bytes} (hmethod : r.method = r'.method)
    (hpath : r.path = r'.path ++ a)
    (hrest : question :: r'.rawQuery = a ++ question :: r.rawQuery) : r = r' ∨ Splits r r' := by
  cases a with
  | nil =>
      rw [List.append_nil] at hpath
      exact .inl (Request.ext' hmethod hpath (List.cons.inj hrest).2.symm)
  | cons b w =>
      obtain ⟨rfl, hquery⟩ := List.cons.inj hrest
      exact .inr ⟨hmethod, w, hpath, hquery⟩

/-- Two requests share a key when they are the same, or one splits into the other. -/
theorem cacheKey_eq_iff {r r' : Request} :
    cacheKey r = cacheKey r' ↔ r = r' ∨ Splits r r' ∨ Splits r' r := by
  constructor
  · intro h
    have hmethod : r.method = r'.method := by
      rcases List.append_eq_append_iff.mp h with ⟨a, ha, hrest⟩ | ⟨a, ha, hrest⟩
      · rw [ha, method_of_key ha hrest, List.append_nil]
      · rw [ha, method_of_key ha hrest, List.append_nil]
    unfold cacheKey at h
    rw [hmethod, List.append_cancel_left_eq, List.cons.injEq] at h
    rcases List.append_eq_append_iff.mp h.2 with ⟨a, ha, hrest⟩ | ⟨a, ha, hrest⟩
    · rcases splits_of_key hmethod.symm ha hrest with heq | hsplits
      · exact .inl heq.symm
      · exact .inr (.inr hsplits)
    · rcases splits_of_key hmethod ha hrest with heq | hsplits
      · exact .inl heq
      · exact .inr (.inl hsplits)
  · have hsplits {r r' : Request} (h : Splits r r') : cacheKey r = cacheKey r' := by
      obtain ⟨hmethod, w, hpath, hquery⟩ := h
      simp [cacheKey, hmethod, hpath, hquery]
    rintro (rfl | h | h)
    · rfl
    · exact hsplits h
    · exact (hsplits h).symm

/-! ## One request -/

/-- What a 200 response with this body is to a client. -/
def replayed (v : Bytes) : Result := (writeJSON .empty statusOK [v], none)

/-- The values that a request may meet under its key are bodies it would get. -/
def Fresh (next : Handler) (s : CacheState) (r : Request) : Prop :=
  ∀ v, (cacheKey r, v) ∈ s → serve next r = replayed v

theorem mem_of_lookup {s : CacheState} {k v : Bytes} (h : s.lookup k = some v) : (k, v) ∈ s := by
  obtain ⟨l, l', rfl, -⟩ := List.lookup_eq_some_iff.mp h
  exact List.mem_append_right l List.mem_cons_self

/-- Each value that a set leaves behind was there or is the one that was set. -/
theorem cacheMachine_set {log : Log Cmd Res Unit} {T : ℕ} {key value : Bytes} {ttl : ℤ}
    {ch : CacheChoice} {s s' : CacheState} {o : Outcome Unit} {e : Unit}
    (h : cacheMachine log T (.set key value ttl) ch s = some (o, e, s')) :
    (o = .returned () ∨ ∃ err, o = .failed err) ∧
      ∀ entry ∈ s', entry ∈ s ∨ entry = (key, value) := by
  have hcons : ∀ entry ∈ (key, value) :: s, entry ∈ s ∨ entry = (key, value) :=
    fun entry hentry => (List.mem_cons.mp hentry).symm
  cases ch with
  | good =>
      cases h
      exact ⟨.inl rfl, hcons⟩
  | forget =>
      cases h
      exact ⟨.inl rfl, fun _ => .inl⟩
  | fail err stored =>
      cases h
      refine ⟨.inr ⟨err, rfl⟩, ?_⟩
      cases stored with
      | false => exact fun _ => .inl
      | true => exact hcons

/-- What a request that found `s` leaves: what its handler gives, if it could meet nothing
else, and no new values but the body of its own 200 response. -/
def Post (next : Handler) (r : Request) (s : CacheState) (o : Outcome Result) (s' : CacheState) :
    Prop :=
  (Fresh next s r → o = .returned (serve next r)) ∧
    ∀ entry ∈ s', entry ∈ s ∨ entry.1 = cacheKey r ∧ serve next r = replayed entry.2

/-- The handler ran, and nothing was stored. -/
theorem post_serve {next : Handler} {r : Request} {s : CacheState} :
    Post next r s (.returned (serve next r)) s :=
  ⟨fun _ => rfl, fun _ => .inl⟩

/-- The handler runs, and the body is stored only if it is all there is to the response. -/
theorem recordAndSet_cases (ttl : ℤ) (next : Handler) (r : Request) :
    recordAndSet ttl next r = pass next r ∨
      serve next r = replayed ((next r).record (.new .empty true)).body ∧
        recordAndSet ttl next r = (do
          let _ ← (call (.set (cacheKey r) ((next r).record (.new .empty true)).body ttl)).attempt
          pass next r) := by
  unfold recordAndSet pass
  simp only [Reply.record_responseWriter]
  cases herr : (next r).err with
  | some err => exact .inl (by rw [serve, herr])
  | none =>
      have hserve : serve next r = ((next r).respond .empty, none) := by rw [serve, herr]
      rw [← hserve]
      by_cases hstatus : ((next r).record (.new .empty true)).status = statusOK
      · refine .inr ⟨?_, if_neg (not_not.mpr hstatus)⟩
        rw [hserve, replayed, Reply.replay hstatus]
      · exact .inl (if_pos hstatus)

theorem recordAndSet_wp {ttl : ℤ} {next : Handler} {r : Request} {s : CacheState}
    {log : Log Cmd Res Unit} :
    (recordAndSet ttl next r).wp cacheMachine 0 (Post next r s) log s := by
  rcases recordAndSet_cases ttl next r with heq | ⟨hvalue, heq⟩
  · rw [heq]
    exact post_serve
  · rw [heq]
    intro ch o e s' hset
    obtain ⟨ho, hentries⟩ := cacheMachine_set hset
    have hpost : Post next r s (.returned (serve next r)) s' := by
      refine ⟨fun _ => rfl, fun entry hentry => ?_⟩
      rcases hentries entry hentry with hold | rfl
      · exact .inl hold
      · exact .inr ⟨rfl, hvalue⟩
    rcases ho with rfl | ⟨err, rfl⟩
    · exact hpost
    · exact hpost

theorem cacheMiddleware_wp {ttl : ℤ} {next : Handler} {r : Request} {s : CacheState}
    {log : Log Cmd Res Unit} :
    (cacheMiddleware ttl next r).wp cacheMachine 0 (Post next r s) log s := by
  unfold cacheMiddleware
  split
  · exact post_serve
  · intro ch o e s' hget
    cases ch with
    | good =>
        cases hget
        cases hlookup : s.lookup (cacheKey r) with
        | none => exact recordAndSet_wp
        | some v =>
            exact ⟨fun hfresh => congrArg Outcome.returned (hfresh v (mem_of_lookup hlookup)).symm,
              fun _ => .inl⟩
    | forget =>
        cases hget
        exact recordAndSet_wp
    | fail err stored =>
        cases hget
        exact post_serve

/-! ## Sequences of requests -/

/-- Only bodies of 200 responses to requests with the key are ever stored. -/
theorem Served.stored {ttl : ℤ} {next : Handler} {rs : List Request} {s s' : CacheState}
    {os : List (Outcome Result)} (h : Served ttl next rs s os s') :
    ∀ entry ∈ s', entry ∈ s ∨ ∃ r ∈ rs, entry.1 = cacheKey r ∧ serve next r = replayed entry.2 := by
  induction h with
  | nil => exact fun _ => .inl
  | cons hrun hrest ih =>
      intro entry hentry
      rcases ih entry hentry with hmid | ⟨r, hr, hstored⟩
      · rcases (hrun.post cacheMiddleware_wp).2 entry hmid with hold | hnew
        · exact .inl hold
        · exact .inr ⟨_, List.mem_cons_self, hnew⟩
      · exact .inr ⟨r, List.mem_cons_of_mem _ hr, hstored⟩

/-- Requests that are apart, and a cache that is fresh for each of them. -/
theorem Served.eq_map {ttl : ℤ} {next : Handler} {rs : List Request} {s s' : CacheState}
    {os : List (Outcome Result)} (h : Served ttl next rs s os s') (hapart : rs.Pairwise Apart)
    (hfresh : ∀ r ∈ rs, Fresh next s r) : os = rs.map fun r => .returned (serve next r) := by
  induction h with
  | nil => rfl
  | @cons r rs s s₁ s₂ o os log hrun hrest ih =>
      obtain ⟨hhead, htail⟩ := List.pairwise_cons.mp hapart
      obtain ⟨ho, hstored⟩ := hrun.post cacheMiddleware_wp
      rw [List.map_cons, ho (hfresh r List.mem_cons_self), ih htail]
      intro r' hr' v hv
      rcases hstored _ hv with hold | ⟨hkey, hserve⟩
      · exact hfresh r' (List.mem_cons_of_mem r hr') v hold
      · rcases cacheKey_eq_iff.mp hkey with rfl | hsplits | hsplits
        · exact hserve
        · exact absurd hsplits (hhead r' hr').2
        · exact absurd hsplits (hhead r' hr').1

/-- A cache that remembers nothing serves any request. -/
theorem served_forget {ttl : ℤ} {next : Handler} {r : Request} {rs : List Request}
    {s s' : CacheState} {os : List (Outcome Result)} (h : Served ttl next rs s os s') :
    Served ttl next (r :: rs) s (.returned (serve next r) :: os) s' := by
  have hmiss (log : Log Cmd Res Unit) : ∃ log', (recordAndSet ttl next r).Runs cacheMachine 0 log s
      (.returned (serve next r)) log' s := by
    rcases recordAndSet_cases ttl next r with heq | ⟨-, heq⟩
    · rw [heq]
      exact ⟨log, .done⟩
    · rw [heq]
      exact ⟨_, Prog.runs_op.mpr ⟨.forget, .returned (), (), s, rfl, .done⟩⟩
  obtain ⟨log', hrun⟩ : ∃ log', (cacheMiddleware ttl next r).Runs cacheMachine 0 [] s
      (.returned (serve next r)) log' s := by
    unfold cacheMiddleware
    split
    · exact ⟨_, .done⟩
    · obtain ⟨log', hmiss⟩ := hmiss _
      exact ⟨log', Prog.runs_op.mpr ⟨.forget, .returned none, (), s, rfl, hmiss⟩⟩
  exact .cons hrun h

theorem served_forget_all {ttl : ℤ} {next : Handler} {s : CacheState} :
    ∀ rs : List Request, Served ttl next rs s (rs.map fun r => .returned (serve next r)) s
  | [] => .nil
  | _ :: rs => served_forget (served_forget_all rs)

/-- What the handler gives to each of the requests. -/
abbrev serveAll (next : Handler) (rs : List Request) : List (Outcome Result) :=
  rs.map fun r => .returned (serve next r)

/-! ## Requests that are not apart -/

/-- A handler that tells one request from all others. -/
def tell (r : Request) : Handler := fun q => ⟨some (statusOK, [[if q = r then 1 else 0]]), none⟩

theorem serve_tell_self (r : Request) : serve (tell r) r = replayed [1] := by
  simp [serve, tell, Reply.respond, replayed]

theorem not_splits_self (r : Request) : ¬Splits r r := by
  rintro ⟨-, w, hpath, -⟩
  have hlength := congrArg List.length hpath
  simp at hlength

/-- Two requests with one key that are not the same. -/
theorem ne_of_not_apart {r r' : Request} (h : ¬Apart r r') :
    r ≠ r' ∧ cacheKey r = cacheKey r' := by
  have hsplits : Splits r r' ∨ Splits r' r := by
    by_contra hnone
    exact h ⟨fun h => hnone (.inl h), fun h => hnone (.inr h)⟩
  refine ⟨?_, cacheKey_eq_iff.mpr (.inr hsplits)⟩
  rintro rfl
  exact not_splits_self r (hsplits.elim id id)

/-- A stored value is replayed. -/
theorem served_hit {ttl : ℤ} {next : Handler} {r : Request} {rs : List Request} {v : Bytes}
    {s s' : CacheState} {os : List (Outcome Result)} (httl : ttl ≠ 0)
    (hlookup : s.lookup (cacheKey r) = some v) (h : Served ttl next rs s os s') :
    Served ttl next (r :: rs) s (.returned (replayed v) :: os) s' := by
  obtain ⟨log', hrun⟩ : ∃ log', (cacheMiddleware ttl next r).Runs cacheMachine 0 [] s
      (.returned (replayed v)) log' s := by
    unfold cacheMiddleware
    rw [if_neg httl]
    refine ⟨_, Prog.runs_op.mpr ⟨.good, .returned (some v), (), s, ?_, .done⟩⟩
    rw [cacheMachine, hlookup]
  exact .cons hrun h

/-- The first request stores its response. -/
theorem served_store {ttl : ℤ} {r q : Request} {rs : List Request} {s' : CacheState}
    {os : List (Outcome Result)} (httl : ttl ≠ 0) (hne : q ≠ r)
    (h : Served ttl (tell r) rs [(cacheKey q, [0])] os s') :
    Served ttl (tell r) (q :: rs) [] (.returned (serve (tell r) q) :: os) s' := by
  have hreply : tell r q = ⟨some (statusOK, [[0]]), none⟩ := by simp [tell, hne]
  obtain ⟨log', hrun⟩ : ∃ log', (cacheMiddleware ttl (tell r) q).Runs cacheMachine 0 [] []
      (.returned (serve (tell r) q)) log' [(cacheKey q, [0])] := by
    unfold cacheMiddleware serve recordAndSet
    rw [if_neg httl, hreply]
    exact ⟨_, Prog.runs_op.mpr ⟨.good, .returned none, (), [], rfl,
      Prog.runs_op.mpr ⟨.good, .returned (), (), _, rfl, .done⟩⟩⟩
  exact .cons hrun h

/-- A request that meets another one's response is served it. -/
theorem exists_wrong_of_lookup {ttl : ℤ} {r : Request} {s : CacheState} (httl : ttl ≠ 0)
    (hlookup : s.lookup (cacheKey r) = some [0]) : ∀ {rs : List Request}, r ∈ rs →
      ∃ os s', Served ttl (tell r) rs s os s' ∧ os ≠ serveAll (tell r) rs
  | [], hr => absurd hr List.not_mem_nil
  | q :: rs, hr => by
      by_cases hq : q = r
      · subst hq
        refine ⟨_, s, served_hit httl hlookup (served_forget_all rs), ?_⟩
        rw [serveAll, List.map_cons, serve_tell_self]
        exact fun h => absurd (List.cons.inj h).1 (by decide)
      · have hrest : r ∈ rs := (List.mem_cons.mp hr).resolve_left (Ne.symm hq)
        obtain ⟨os, s', hserved, hne⟩ := exists_wrong_of_lookup httl hlookup hrest
        exact ⟨_, s', served_forget hserved, fun h => hne (List.cons.inj h).2⟩

/-- An earlier request with the same key stores that response. -/
theorem exists_wrong {ttl : ℤ} (httl : ttl ≠ 0) : ∀ {rs : List Request}, ¬rs.Pairwise Apart →
    ∃ next os s', Served ttl next rs [] os s' ∧ os ≠ serveAll next rs
  | [], h => absurd List.Pairwise.nil h
  | q :: rs, h => by
      by_cases hq : ∃ r ∈ rs, ¬Apart q r
      · obtain ⟨r, hr, hapart⟩ := hq
        obtain ⟨hne, hkey⟩ := ne_of_not_apart hapart
        have hlookup : List.lookup (cacheKey r) [(cacheKey q, ([0] : Bytes))] = some [0] := by
          simp [hkey]
        obtain ⟨os, s', hserved, hwrong⟩ := exists_wrong_of_lookup httl hlookup hr
        exact ⟨tell r, _, s', served_store httl hne hserved, fun h => hwrong (List.cons.inj h).2⟩
      · have hrest : ¬rs.Pairwise Apart := by
          intro hpairwise
          exact h (.cons (fun r hr => not_not.mp fun hapart => hq ⟨r, hr, hapart⟩) hpairwise)
        obtain ⟨next, os, s', hserved, hwrong⟩ := exists_wrong httl hrest
        exact ⟨next, _, s', served_forget hserved, fun h => hwrong (List.cons.inj h).2⟩

/-! ## Main results -/

/-- Every request of a sequence gets what the handler gives to it, whatever the handler and
the cache do, exactly when no two requests of the sequence share a key; and that is when no
path runs on into the raw query of another request. Only bodies of 200 responses are stored. -/
theorem cacheMiddleware_correct_iff {ttl : ℤ} (httl : 0 < ttl) (rs : List Request) :
    ((∀ next os s', Served ttl next rs [] os s' → os = serveAll next rs) ↔ rs.Pairwise Apart) ∧
      (rs.Pairwise Apart ↔ ∀ r ∈ rs, ∀ r' ∈ rs, cacheKey r = cacheKey r' → r = r') ∧
      ∀ next os s', Served ttl next rs [] os s' →
        ∀ entry ∈ s', ∃ r ∈ rs, entry.1 = cacheKey r ∧ serve next r = replayed entry.2 := by
  refine ⟨⟨?_, ?_⟩, ⟨?_, ?_⟩, ?_⟩
  · intro hall
    by_contra hapart
    obtain ⟨next, os, s', hserved, hwrong⟩ := exists_wrong (Int.ne_of_gt httl) hapart
    exact hwrong (hall next os s' hserved)
  · intro hapart next os s' hserved
    exact hserved.eq_map hapart fun _ _ _ hv => absurd hv List.not_mem_nil
  · intro hapart r hr r' hr' hkey
    by_contra hne
    have happart : Apart r r' :=
      hapart.forall_of_forall_of_flip (fun q _ => ⟨not_splits_self q, not_splits_self q⟩)
        (hapart.imp And.symm) hr hr'
    rcases cacheKey_eq_iff.mp hkey with heq | hsplits | hsplits
    · exact hne heq
    · exact happart.1 hsplits
    · exact happart.2 hsplits
  · intro hinj
    apply List.pairwise_of_forall_mem_list
    intro r hr r' hr'
    by_contra hapart
    obtain ⟨hne, hkey⟩ := ne_of_not_apart hapart
    exact hne (hinj r hr r' hr' hkey)
  · intro next os s' hserved entry hentry
    exact (hserved.stored entry hentry).resolve_left List.not_mem_nil

/-- `GET /a%3Fb`: its path is decoded to `/a?b`. -/
def escapedRequest : Request :=
  ⟨[71, 69, 84], [47, 97, 63, 98], [], by decide, .inr (.inr ⟨_, rfl⟩)⟩

/-- `GET /a?b?`. -/
def queryRequest : Request :=
  ⟨[71, 69, 84], [47, 97], [98, 63], by decide, .inr (.inr ⟨_, rfl⟩)⟩

/-- Both keys are `GET+/a?b?`, so that the second request gets the response to the first. -/
theorem cacheMiddleware_replays_to_other :
    ¬∀ next os s', Served 60000000000 next [escapedRequest, queryRequest] [] os s' →
      os = serveAll next [escapedRequest, queryRequest] := by
  intro hall
  have hwrong : ∃ os s', Served 60000000000 (tell queryRequest) [queryRequest]
      [(cacheKey escapedRequest, [0])] os s' ∧ os ≠ serveAll (tell queryRequest) [queryRequest] :=
    exists_wrong_of_lookup (by decide) (by decide) List.mem_cons_self
  obtain ⟨os, s', hserved, hne⟩ := hwrong
  exact hne (List.cons.inj (hall _ _ _ (served_store (by decide) (by decide) hserved))).2

theorem splits_escaped_query : Splits escapedRequest queryRequest := ⟨rfl, [98], rfl, rfl⟩

/-- A request may be repeated, but not follow the other one. -/
theorem cacheMiddleware_correct_iff_pairs :
    (∀ next os s', Served 60000000000 next [queryRequest, queryRequest] [] os s' →
      os = serveAll next [queryRequest, queryRequest]) ∧
    ¬∀ next os s', Served 60000000000 next [escapedRequest, queryRequest] [] os s' →
      os = serveAll next [escapedRequest, queryRequest] := by
  constructor
  · apply (cacheMiddleware_correct_iff (by decide) _).1.mpr
    exact .cons (fun _ hr => List.mem_singleton.mp hr ▸ ⟨not_splits_self _, not_splits_self _⟩)
      (List.pairwise_singleton _ _)
  · intro hall
    have hpairwise := (cacheMiddleware_correct_iff (by decide) _).1.mp hall
    exact (List.rel_of_pairwise_cons hpairwise List.mem_cons_self).1 splits_escaped_query

end Go42.Api.Http
