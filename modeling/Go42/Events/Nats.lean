-- SUMMARY: The connections of the NATS backend, from `New` over its subscriptions to `Shutdown`: each is closed once or has one holder.
import Go42.Events.Errors
import Go42.Lib.Ledger
import Go42.Lib.Pool
import Go42.Lib.Steps

/-!
# The NATS backend

`New` connects until an attempt succeeds or its time is up; every attempt constructs the
publisher in a goroutine of its own, which may outlive the attempt. Each subscription has a
connection of its own. The calls of the NATS and Watermill libraries take as long as they
like and answer as they like. A subscriber is known by its connection.
-/

namespace Go42.Events.Nats

/-- `connectionResult`: the library returns a publisher or an error. -/
inductive ConnectionResult where
  | publisher (conn : ℕ)
  | err (err : GoError)
deriving DecidableEq

/-- The goroutine of `connect`. -/
inductive Builder where
  /-- In `wnats.NewPublisher`. -/
  | constructing
  /-- The `select` between `ready <- result` and `<-ctx.Done()`. -/
  | offering (result : ConnectionResult)
  /-- In `result.close()`. -/
  | closing (result : ConnectionResult)
  | finished
deriving DecidableEq

inductive NewPlace where
  /-- Between attempts of `connectRetry.Do`. -/
  | waiting
  /-- The `select` of `connect`, for the goroutine `i`. -/
  | selecting (i : ℕ)
  /-- `ctx.Err()` and `result.err`, after `result := <-ready`. -/
  | checking (result : ConnectionResult)
  /-- In `result.close()`. -/
  | closing (result : ConnectionResult)
  | returned
  | failed
deriving DecidableEq

inductive SubscribePlace where
  /-- `n.mu.Lock()`. -/
  | locking
  /-- `n.closed`. -/
  | checking
  /-- `ctx.Err()`. -/
  | looking
  /-- In `natsgo.Connect`. -/
  | connecting
  /-- In `n.subscriptionConfig`. -/
  | configuring (conn : ℕ)
  /-- In `wnats.NewSubscriberWithNatsConn`. -/
  | constructing (conn : ℕ)
  /-- `conn.Close()`. -/
  | closing (conn : ℕ) (err : GoError)
  /-- `n.subscribers = append(n.subscribers, subscriber)`. -/
  | appending (conn : ℕ)
  /-- In `subscriber.Subscribe(ctx, topic)`. -/
  | delegating
  /-- The deferred `n.mu.Unlock()`. -/
  | unlocking (err : Option GoError)
  | returned (err : Option GoError)
deriving DecidableEq

/-- A call of `Close`, or the goroutine of a call of `Shutdown`. -/
inductive ClosePlace where
  /-- In `n.publisher.Close()`, which only `Shutdown` comes to. -/
  | publisher
  /-- `n.mu.Lock()`. -/
  | locking
  /-- `n.closed`. -/
  | checking
  /-- In `subscriber.Close()` for the first of `rest`. -/
  | closing (rest : List ℕ) (errs : List (Option GoError))
  /-- The deferred `n.mu.Unlock()`. -/
  | unlocking (err : Option GoError)
  | returned (err : Option GoError)
deriving DecidableEq

structure CloseCall where
  place : ClosePlace
  /-- For a `Shutdown`, what `n.publisher.Close()` returned. -/
  publisherErr : Option (Option GoError)
deriving DecidableEq

structure NATS where
  /-- `retryCtx` is done. -/
  ctxDone : Bool
  new : NewPlace
  builders : List Builder
  publisher : Option ℕ
  publisherClosed : Bool
  /-- `n.mu` is locked. -/
  locked : Bool
  closed : Bool
  subscribers : List ℕ
  subscribes : List SubscribePlace
  closes : List CloseCall
  connections : Ledger
deriving DecidableEq

inductive NatsAction where
  /-- `connectRetry.Do` starts an attempt. -/
  | attempt
  /-- `connectRetry.Do` gives up. -/
  | abandon
  /-- The context of the retries ends. -/
  | expire
  /-- `wnats.NewPublisher` returns in goroutine `i`. -/
  | built (i : ℕ) (err : Option GoError)
  /-- `ready <- result` meets `result := <-ready`. -/
  | hand (i : ℕ)
  /-- `<-ctx.Done()` in goroutine `i`. -/
  | giveUp (i : ℕ)
  /-- `result.close()` returns in goroutine `i`. -/
  | builtClosed (i : ℕ)
  /-- `<-ctx.Done()` in `connect`. -/
  | leave
  | check
  /-- `result.close()` returns in `connect`. -/
  | resultClosed
  | subscribe
  | lockSubscribe (i : ℕ)
  | checkSubscribe (i : ℕ)
  | look (i : ℕ) (err : Option CtxErr)
  /-- `natsgo.Connect` returns. -/
  | connected (i : ℕ) (err : Option GoError)
  /-- `n.subscriptionConfig` returns. -/
  | configured (i : ℕ) (err : Option GoError)
  /-- `wnats.NewSubscriberWithNatsConn` returns. -/
  | constructed (i : ℕ) (err : Option GoError)
  /-- `conn.Close()` returns. -/
  | connClosed (i : ℕ)
  | append (i : ℕ)
  /-- `subscriber.Subscribe` returns. -/
  | delegated (i : ℕ) (err : Option GoError)
  | unlockSubscribe (i : ℕ)
  | shutdown
  | close
  /-- `n.publisher.Close()` returns. -/
  | publisherClosed (i : ℕ) (err : Option GoError)
  | lockClose (i : ℕ)
  | checkClose (i : ℕ)
  /-- `subscriber.Close()` returns. -/
  | subscriberClosed (i : ℕ) (err : Option GoError)
  | join (i : ℕ)
  | unlockClose (i : ℕ)
deriving DecidableEq

/-- A step of the code, and not of a library, a context or a caller. -/
def NatsAction.own : NatsAction → Bool
  | abandon | hand _ | giveUp _ | leave | check => true
  | lockSubscribe _ | checkSubscribe _ | append _ | unlockSubscribe _ => true
  | lockClose _ | checkClose _ | join _ | unlockClose _ => true
  | _ => false

/-- What `result.close()` has closed once it returns. -/
def ConnectionResult.close (result : ConnectionResult) (connections : Ledger) : Ledger :=
  match result with
  | publisher conn => connections.release conn
  | err _ => connections

/-- What a call returns in the end: `Shutdown` joins two errors. -/
def CloseCall.result (publisherErr : Option (Option GoError)) (err : Option GoError) : Option GoError :=
  match publisherErr with
  | none => err
  | some publisherErr =>
    joinErrors [publisherErr.map fun e => .wrap "publisher close: " e "",
      err.map fun e => .wrap "subscriber close: " e ""]

namespace NATS

/-- A connection counts as closed once its `Close` was called and has returned, with an error or
without. -/
def next (s : NATS) : NatsAction → Option NATS
  | .attempt =>
    if s.new = .waiting then
      some { s with new := .selecting s.builders.length, builders := s.builders ++ [.constructing] }
    else none
  | .abandon => if s.new = .waiting ∧ s.ctxDone then some { s with new := .failed } else none
  | .expire => some { s with ctxDone := true }
  | .built i err =>
    if s.builders[i]? = some .constructing then
      match err with
      | none =>
        some { s with
          builders := s.builders.set i (.offering (.publisher s.connections.acquired))
          connections := s.connections.acquire }
      | some err => some { s with builders := s.builders.set i (.offering (.err err)) }
    else none
  | .hand i =>
    match s.builders[i]? with
    | some (.offering result) =>
      if s.new = .selecting i then
        some { s with new := .checking result, builders := s.builders.set i .finished }
      else none
    | _ => none
  | .giveUp i =>
    match s.builders[i]? with
    | some (.offering result) =>
      if s.ctxDone then some { s with builders := s.builders.set i (.closing result) } else none
    | _ => none
  | .builtClosed i =>
    match s.builders[i]? with
    | some (.closing result) =>
      some { s with builders := s.builders.set i .finished, connections := result.close s.connections }
    | _ => none
  | .leave =>
    match s.new with
    | .selecting _ => if s.ctxDone then some { s with new := .waiting } else none
    | _ => none
  | .check =>
    match s.new with
    | .checking (.publisher conn) =>
      if s.ctxDone then some { s with new := .closing (.publisher conn) }
      else
        -- `Do` cancels the context of the retries on its way out
        some { s with new := .returned, publisher := some conn, ctxDone := true }
    | .checking (.err err) => some { s with new := .closing (.err err) }
    | _ => none
  | .resultClosed =>
    match s.new with
    | .closing result => some { s with new := .waiting, connections := result.close s.connections }
    | _ => none
  | .subscribe => if s.new = .returned then some { s with subscribes := s.subscribes ++ [.locking] } else none
  | .lockSubscribe i =>
    if s.subscribes[i]? = some .locking ∧ s.locked = false then
      some { s with subscribes := s.subscribes.set i .checking, locked := true }
    else none
  | .checkSubscribe i =>
    if s.subscribes[i]? = some .checking then
      some { s with
        subscribes := s.subscribes.set i
          (if s.closed then .unlocking (some (.leaf "NATS subscriber is closed")) else .looking) }
    else none
  | .look i err =>
    if s.subscribes[i]? = some .looking then
      match err with
      | none => some { s with subscribes := s.subscribes.set i .connecting }
      | some err => some { s with subscribes := s.subscribes.set i (.unlocking (some err.err)) }
    else none
  | .connected i err =>
    if s.subscribes[i]? = some .connecting then
      match err with
      | none =>
        some { s with
          subscribes := s.subscribes.set i (.configuring s.connections.acquired)
          connections := s.connections.acquire }
      | some err => some { s with subscribes := s.subscribes.set i (.unlocking (some err)) }
    else none
  | .configured i err =>
    match s.subscribes[i]?, err with
    | some (.configuring conn), none => some { s with subscribes := s.subscribes.set i (.constructing conn) }
    | some (.configuring conn), some err => some { s with subscribes := s.subscribes.set i (.closing conn err) }
    | _, _ => none
  | .constructed i err =>
    match s.subscribes[i]?, err with
    | some (.constructing conn), none => some { s with subscribes := s.subscribes.set i (.appending conn) }
    | some (.constructing conn), some err => some { s with subscribes := s.subscribes.set i (.closing conn err) }
    | _, _ => none
  | .connClosed i =>
    match s.subscribes[i]? with
    | some (.closing conn err) =>
      some { s with
        subscribes := s.subscribes.set i (.unlocking (some err))
        connections := s.connections.release conn }
    | _ => none
  | .append i =>
    match s.subscribes[i]? with
    | some (.appending conn) =>
      some { s with subscribes := s.subscribes.set i .delegating, subscribers := s.subscribers ++ [conn] }
    | _ => none
  | .delegated i err =>
    if s.subscribes[i]? = some .delegating then
      some { s with subscribes := s.subscribes.set i (.unlocking err) }
    else none
  | .unlockSubscribe i =>
    match s.subscribes[i]? with
    | some (.unlocking err) => some { s with subscribes := s.subscribes.set i (.returned err), locked := false }
    | _ => none
  | .shutdown => if s.new = .returned then some { s with closes := s.closes ++ [⟨.publisher, none⟩] } else none
  | .close => if s.new = .returned then some { s with closes := s.closes ++ [⟨.locking, none⟩] } else none
  | .publisherClosed i err =>
    match s.closes[i]? with
    | some ⟨.publisher, _⟩ =>
      some { s with
        closes := s.closes.set i ⟨.locking, some err⟩
        publisherClosed := true
        -- a connection that is closed already stays as it is
        connections :=
          if s.publisherClosed then s.connections
          else s.publisher.elim s.connections s.connections.release }
    | _ => none
  | .lockClose i =>
    match s.closes[i]? with
    | some ⟨.locking, publisherErr⟩ =>
      if s.locked = false then
        some { s with closes := s.closes.set i ⟨.checking, publisherErr⟩, locked := true }
      else none
    | _ => none
  | .checkClose i =>
    match s.closes[i]? with
    | some ⟨.checking, publisherErr⟩ =>
      if s.closed then some { s with closes := s.closes.set i ⟨.unlocking none, publisherErr⟩ }
      else some { s with closes := s.closes.set i ⟨.closing s.subscribers [], publisherErr⟩, closed := true }
    | _ => none
  | .subscriberClosed i err =>
    match s.closes[i]? with
    | some ⟨.closing (conn :: rest) errs, publisherErr⟩ =>
      some { s with
        closes := s.closes.set i ⟨.closing rest (errs ++ [err]), publisherErr⟩
        connections := s.connections.release conn }
    | _ => none
  | .join i =>
    match s.closes[i]? with
    | some ⟨.closing [] errs, publisherErr⟩ =>
      some { s with closes := s.closes.set i ⟨.unlocking (joinErrors errs), publisherErr⟩ }
    | _ => none
  | .unlockClose i =>
    match s.closes[i]? with
    | some ⟨.unlocking err, publisherErr⟩ =>
      some { s with
        closes := s.closes.set i ⟨.returned (CloseCall.result publisherErr err), publisherErr⟩
        locked := false }
    | _ => none

/-- `New` has come to its retries. -/
def init : NATS where
  ctxDone := false
  new := .waiting
  builders := []
  publisher := none
  publisherClosed := false
  locked := false
  closed := false
  subscribers := []
  subscribes := []
  closes := []
  connections := .empty

/-! ## Who holds a connection -/

end NATS

def ConnectionResult.holds : ConnectionResult → List ℕ
  | publisher conn => [conn]
  | err _ => []

def Builder.holds : Builder → List ℕ
  | .offering result | .closing result => result.holds
  | .constructing | .finished => []

def NewPlace.holds : NewPlace → List ℕ
  | .checking result | .closing result => result.holds
  | _ => []

def SubscribePlace.holds : SubscribePlace → List ℕ
  | .configuring conn | .constructing conn | .closing conn _ | .appending conn => [conn]
  | _ => []

def CloseCall.holds (c : CloseCall) : List ℕ :=
  match c.place with
  | .closing rest _ => rest
  | _ => []

/-- Between `Lock` and `Unlock`. -/
def SubscribePlace.inside : SubscribePlace → Bool
  | .locking | .returned _ => false
  | _ => true

/-- Past the check of `n.closed`, and not yet appended. -/
def SubscribePlace.admitted : SubscribePlace → Bool
  | .looking | .connecting | .configuring _ | .constructing _ | .closing _ _ | .appending _ => true
  | _ => false

def CloseCall.inside (c : CloseCall) : Bool :=
  match c.place with
  | .publisher | .locking | .returned _ => false
  | _ => true

namespace NATS

/-- The connections of the engine itself. -/
def live (s : NATS) : List ℕ :=
  (if s.publisherClosed then [] else s.publisher.toList) ++ if s.closed then [] else s.subscribers

/-- How many places hold connection `r`. -/
def holders (s : NATS) (r : ℕ) : ℕ :=
  s.new.holds.count r + (s.builders.map (·.holds.count r)).sum + s.live.count r +
    (s.subscribes.map (·.holds.count r)).sum + (s.closes.map (·.holds.count r)).sum

variable {s s' : NATS} {a : NatsAction} {as : List NatsAction} {i r : ℕ}

/-! ### When a goroutine goes on -/

theorem trade_close (result : ConnectionResult) (L : Ledger) : L.Trade (result.close L) result.holds [] := by
  cases result with
  | publisher conn => exact .release conn []
  | err err => exact .keep []

section Trade

variable {t : NATS} (hi : s.connections.Balanced s.holders)
include hi

theorem trade_new (hbuilders : t.builders = s.builders) (hlive : t.live = s.live)
    (hsubscribes : t.subscribes = s.subscribes) (hcloses : t.closes = s.closes)
    (ht : s.connections.Trade t.connections s.new.holds t.new.holds) : t.connections.Balanced t.holders := by
  refine hi.trade ht fun r => ?_
  simp only [holders, hbuilders, hlive, hsubscribes, hcloses]
  omega

theorem trade_builders {b b' : Builder} (hb : s.builders[i]? = some b)
    (hbuilders : t.builders = s.builders.set i b') (hnew : t.new = s.new) (hlive : t.live = s.live)
    (hsubscribes : t.subscribes = s.subscribes) (hcloses : t.closes = s.closes)
    (ht : s.connections.Trade t.connections b.holds b'.holds) : t.connections.Balanced t.holders := by
  refine hi.trade ht fun r => ?_
  have hset := Pool.sum_map_set (f := (·.holds.count r)) (y := b') hb
  simp only [holders, hbuilders, hnew, hlive, hsubscribes, hcloses]
  omega

theorem trade_subscribes {p p' : SubscribePlace} (hp : s.subscribes[i]? = some p)
    (hsubscribes : t.subscribes = s.subscribes.set i p') (hnew : t.new = s.new) (hbuilders : t.builders = s.builders)
    (hlive : t.live = s.live) (hcloses : t.closes = s.closes)
    (ht : s.connections.Trade t.connections p.holds p'.holds) : t.connections.Balanced t.holders := by
  refine hi.trade ht fun r => ?_
  have hset := Pool.sum_map_set (f := (·.holds.count r)) (y := p') hp
  simp only [holders, hsubscribes, hnew, hbuilders, hlive, hcloses]
  omega

/-- `Close` takes from the connections of the engine. -/
theorem trade_closes {c c' : CloseCall} (hc : s.closes[i]? = some c)
    (hcloses : t.closes = s.closes.set i c') (hnew : t.new = s.new) (hbuilders : t.builders = s.builders)
    (hsubscribes : t.subscribes = s.subscribes)
    (ht : s.connections.Trade t.connections (c.holds ++ s.live) (c'.holds ++ t.live)) : t.connections.Balanced t.holders := by
  refine hi.trade ht fun r => ?_
  have hset := Pool.sum_map_set (f := (·.holds.count r)) (y := c') hc
  simp only [holders, hcloses, hnew, hbuilders, hsubscribes, List.count_append]
  omega

end Trade

/-- Nothing was done with the backend yet. -/
structure Fresh (s : NATS) : Prop where
  publisher : s.publisher = none
  publisherClosed : s.publisherClosed = false
  closed : s.closed = false
  subscribers : s.subscribers = []
  subscribes : s.subscribes = []
  closes : s.closes = []

theorem Fresh.live (h : s.Fresh) : s.live = [] := by
  simp [NATS.live, h.publisher, h.subscribers]

theorem next_balanced (hi : s.connections.Balanced s.holders) (hfresh : s.new ≠ .returned → s.Fresh)
    (hadmitted : ∀ p ∈ s.subscribes, p.admitted = true → s.closed = false) (h : s.next a = some s') :
    s'.connections.Balanced s'.holders := by
  cases a with
  | attempt =>
      simp only [next] at h
      split at h <;> cases h
      rename_i hnew
      exact hi.move fun r => by simp [holders, live, NewPlace.holds, Builder.holds, hnew]
  | abandon =>
      simp only [next] at h
      split at h <;> cases h
      rename_i hnew
      refine trade_new hi rfl rfl rfl rfl ?_
      rw [hnew.1]
      exact .keep []
  | expire =>
      cases h
      exact hi
  | built i err =>
      simp only [next] at h
      split at h
      · cases err <;> cases h
        · exact trade_builders hi (by assumption) rfl rfl rfl rfl rfl (.acquire [])
        · exact trade_builders hi (by assumption) rfl rfl rfl rfl rfl (.keep [])
      · cases h
  | hand i =>
      simp only [next] at h
      split at h
      · split at h <;> cases h
        rename_i result hbuilder hnew
        -- `connect` holds what the goroutine held
        refine hi.move fun r => ?_
        have hset := Pool.sum_map_set (f := (·.holds.count r)) (y := Builder.finished) hbuilder
        simp only [holders, live, Builder.holds, NewPlace.holds, hnew, List.count_nil] at hset ⊢
        omega
      · cases h
  | giveUp i =>
      simp only [next] at h
      split at h
      · split at h <;> cases h
        rename_i hbuilder _
        exact trade_builders hi hbuilder rfl rfl rfl rfl rfl (.keep _)
      · cases h
  | builtClosed i =>
      simp only [next] at h
      split at h <;> cases h
      rename_i result hbuilder
      exact trade_builders hi hbuilder rfl rfl rfl rfl rfl (trade_close result _)
  | leave =>
      simp only [next] at h
      split at h
      · split at h <;> cases h
        rename_i hnew _
        refine trade_new hi rfl rfl rfl rfl ?_
        rw [hnew]
        exact .keep []
      · cases h
  | check =>
      simp only [next] at h
      split at h
      · rename_i conn hnew
        split at h <;> cases h
        · refine trade_new hi rfl rfl rfl rfl ?_
          rw [hnew]
          exact .keep [conn]
        · -- the engine holds what `connect` held, and held nothing before
          have hfresh := hfresh (by simp [hnew])
          refine hi.move fun r => ?_
          simp only [holders, hfresh.live, hnew, NewPlace.holds, ConnectionResult.holds]
          simp only [live, hfresh.publisherClosed, hfresh.closed, hfresh.subscribers, Bool.false_eq_true, if_false,
            Option.toList_some, List.append_nil, List.count_nil]
          omega
      · cases h
        rename_i err hnew
        refine trade_new hi rfl rfl rfl rfl ?_
        rw [hnew]
        exact .keep []
      · cases h
  | resultClosed =>
      simp only [next] at h
      split at h <;> cases h
      rename_i result hnew
      refine trade_new hi rfl rfl rfl rfl ?_
      rw [hnew]
      exact trade_close result _
  | subscribe =>
      simp only [next] at h
      split at h <;> cases h
      exact hi.move fun r => by simp [holders, live, SubscribePlace.holds]
  | lockSubscribe i =>
      simp only [next] at h
      split at h <;> cases h
      rename_i hp
      exact trade_subscribes hi hp.1 rfl rfl rfl rfl rfl (.keep [])
  | checkSubscribe i =>
      simp only [next] at h
      split at h <;> cases h
      refine trade_subscribes hi (by assumption) rfl rfl rfl rfl rfl ?_
      split <;> exact .keep []
  | look i err =>
      simp only [next] at h
      split at h
      · cases err <;> cases h <;> exact trade_subscribes hi (by assumption) rfl rfl rfl rfl rfl (.keep [])
      · cases h
  | connected i err =>
      simp only [next] at h
      split at h
      · cases err <;> cases h
        · exact trade_subscribes hi (by assumption) rfl rfl rfl rfl rfl (.acquire [])
        · exact trade_subscribes hi (by assumption) rfl rfl rfl rfl rfl (.keep [])
      · cases h
  | configured | constructed =>
      simp only [next] at h
      split at h <;> cases h <;> exact trade_subscribes hi (by assumption) rfl rfl rfl rfl rfl (.keep [_])
  | connClosed i =>
      simp only [next] at h
      split at h <;> cases h
      exact trade_subscribes hi (by assumption) rfl rfl rfl rfl rfl (.release _ [])
  | append i =>
      simp only [next] at h
      split at h <;> cases h
      rename_i conn hp
      -- the engine is not closed, so that `Close` will find the subscriber
      have hclosed := hadmitted _ (List.mem_of_getElem? hp) rfl
      refine hi.move fun r => ?_
      have hset := Pool.sum_map_set (f := (·.holds.count r)) (y := SubscribePlace.delegating) hp
      simp only [holders, live, hclosed, SubscribePlace.holds, Bool.false_eq_true, if_false, List.count_append,
        List.count_nil] at hset ⊢
      omega
  | delegated | unlockSubscribe =>
      simp only [next] at h
      split at h <;> cases h
      exact trade_subscribes hi (by assumption) rfl rfl rfl rfl rfl (.keep [])
  | shutdown | close =>
      simp only [next] at h
      split at h <;> cases h
      exact hi.move fun r => by simp [holders, live, CloseCall.holds]
  | publisherClosed i err =>
      simp only [next] at h
      split at h <;> cases h
      refine trade_closes hi (by assumption) rfl rfl rfl rfl ?_
      simp only [CloseCall.holds, live, List.nil_append]
      -- a `Shutdown` before this one may have closed it
      cases s.publisherClosed with
      | true => exact .keep _
      | false =>
          cases s.publisher with
          | none => exact .keep _
          | some conn => exact .release conn _
  | lockClose i =>
      simp only [next] at h
      split at h
      · split at h <;> cases h
        rename_i hc _
        exact trade_closes hi hc rfl rfl rfl rfl (.keep _)
      · cases h
  | checkClose i =>
      simp only [next] at h
      split at h
      · split at h <;> cases h
        · rename_i hc _
          exact trade_closes hi hc rfl rfl rfl rfl (.keep _)
        · rename_i publisherErr hc hclosed
          -- the call takes over the subscribers of the engine
          refine hi.move fun r => ?_
          have hset := Pool.sum_map_set (f := (·.holds.count r)) (y := ⟨.closing s.subscribers [], publisherErr⟩) hc
          simp only [holders, live, hclosed, CloseCall.holds, if_true, if_false, Bool.false_eq_true, List.count_append,
            List.append_nil, List.count_nil] at hset ⊢
          omega
      · cases h
  | subscriberClosed i err =>
      simp only [next] at h
      split at h <;> cases h
      exact trade_closes hi (by assumption) rfl rfl rfl rfl (.release _ _)
  | join | unlockClose =>
      simp only [next] at h
      split at h <;> cases h
      rename_i hc
      exact trade_closes hi hc rfl rfl rfl rfl (.keep _)

/-! ### The mutex -/

/-- The goroutines between `Lock` and `Unlock`. -/
def insiders (s : NATS) : ℕ := s.subscribes.countP (·.inside) + s.closes.countP (·.inside)

section Mutex

variable {t : NATS} (hi : s.insiders = s.locked.toNat)
include hi

theorem mutex_subscribes {p p' : SubscribePlace} (hp : s.subscribes[i]? = some p)
    (hsubscribes : t.subscribes = s.subscribes.set i p') (hcloses : t.closes = s.closes)
    (hlocked : s.locked.toNat + p'.inside.toNat = t.locked.toNat + p.inside.toNat) :
    t.insiders = t.locked.toNat := by
  have hset := Pool.countP_set (p := (·.inside)) (y := p') hp
  simp only [insiders, hsubscribes, hcloses] at hi ⊢
  omega

theorem mutex_closes {c c' : CloseCall} (hc : s.closes[i]? = some c) (hcloses : t.closes = s.closes.set i c')
    (hsubscribes : t.subscribes = s.subscribes)
    (hlocked : s.locked.toNat + c'.inside.toNat = t.locked.toNat + c.inside.toNat) :
    t.insiders = t.locked.toNat := by
  have hset := Pool.countP_set (p := (·.inside)) (y := c') hc
  simp only [insiders, hsubscribes, hcloses] at hi ⊢
  omega

theorem locked_of_insiders (hpos : 0 < s.insiders) : s.locked = true := by
  cases hlocked : s.locked with
  | true => rfl
  | false => rw [hi, hlocked] at hpos; cases hpos

theorem locked_of_subscribe {p : SubscribePlace} (hp : p ∈ s.subscribes) (hinside : p.inside = true) :
    s.locked = true :=
  locked_of_insiders hi (Nat.add_pos_left (List.countP_pos_iff.mpr ⟨p, hp, hinside⟩) _)

theorem locked_of_close {c : CloseCall} (hc : c ∈ s.closes) (hinside : c.inside = true) : s.locked = true :=
  locked_of_insiders hi (Nat.add_pos_right _ (List.countP_pos_iff.mpr ⟨c, hc, hinside⟩))

/-- A `Subscribe` and a `Close` are never both inside. -/
theorem apart {p : SubscribePlace} {c : CloseCall} (hp : p ∈ s.subscribes) (hc : c ∈ s.closes)
    (hinside : p.inside = true) : c.inside = false := by
  cases hc' : c.inside with
  | false => rfl
  | true =>
      have hsubscribes : 0 < s.subscribes.countP (·.inside) := List.countP_pos_iff.mpr ⟨p, hp, hinside⟩
      have hcloses : 0 < s.closes.countP (·.inside) := List.countP_pos_iff.mpr ⟨c, hc, hc'⟩
      have hle := Bool.toNat_le s.locked
      rw [insiders] at hi
      omega

theorem next_mutex (h : s.next a = some s') : s'.insiders = s'.locked.toNat := by
  cases a with
  | subscribe =>
      simp only [next] at h
      split at h <;> cases h
      rw [← hi]
      simp [insiders, SubscribePlace.inside]
  | shutdown | close =>
      simp only [next] at h
      split at h <;> cases h
      all_goals rw [← hi]
      all_goals simp [insiders, CloseCall.inside]
  | lockSubscribe i =>
      simp only [next] at h
      split at h <;> cases h
      rename_i hp
      exact mutex_subscribes hi hp.1 rfl rfl (by rw [hp.2]; rfl)
  | checkSubscribe i =>
      simp only [next] at h
      split at h <;> cases h
      rename_i hp
      exact mutex_subscribes hi hp rfl rfl (by split <;> rfl)
  | look | connected =>
      simp only [next] at h
      split at h
      · rename_i err hp
        cases err <;> cases h <;> exact mutex_subscribes hi hp rfl rfl rfl
      · cases h
  | unlockSubscribe i =>
      simp only [next] at h
      split at h <;> cases h
      rename_i err hp
      refine mutex_subscribes hi hp rfl rfl ?_
      rw [locked_of_subscribe hi (List.mem_of_getElem? hp) rfl]
      rfl
  | configured | constructed | connClosed | append | delegated =>
      simp only [next] at h
      split at h <;> cases h
      all_goals rename_i hp
      all_goals exact mutex_subscribes hi hp rfl rfl rfl
  | lockClose i =>
      simp only [next] at h
      split at h
      · split at h <;> cases h
        rename_i hc hunlocked
        exact mutex_closes hi hc rfl rfl (by rw [hunlocked]; rfl)
      · cases h
  | checkClose i =>
      simp only [next] at h
      split at h
      · rename_i hc
        split at h <;> cases h <;> exact mutex_closes hi hc rfl rfl rfl
      · cases h
  | unlockClose i =>
      simp only [next] at h
      split at h <;> cases h
      rename_i hc
      refine mutex_closes hi hc rfl rfl ?_
      rw [locked_of_close hi (List.mem_of_getElem? hc) rfl]
      rfl
  | publisherClosed | subscriberClosed | join =>
      simp only [next] at h
      split at h <;> cases h
      rename_i hc
      exact mutex_closes hi hc rfl rfl rfl
  | _ =>
      simp only [next] at h
      repeat' split at h
      all_goals cases h
      all_goals exact hi

end Mutex

/-- A `Subscribe` that found the engine open is through before a `Close` closes it. -/
theorem next_admitted (hmutex : s.insiders = s.locked.toNat)
    (hi : ∀ p ∈ s.subscribes, p.admitted = true → s.closed = false) (h : s.next a = some s') :
    ∀ p ∈ s'.subscribes, p.admitted = true → s'.closed = false := by
  have hinside {p : SubscribePlace} (hp : p.admitted = true) : p.inside = true := by
    cases p <;> first | rfl | cases hp
  cases a with
  | subscribe =>
      simp only [next] at h
      split at h <;> cases h
      intro p hp hadmitted
      rcases List.mem_append.mp hp with hold | hnew
      · exact hi p hold hadmitted
      · rw [List.mem_singleton.mp hnew] at hadmitted
        cases hadmitted
  | checkSubscribe i =>
      simp only [next] at h
      split at h <;> cases h
      refine Pool.forall_set hi fun hadmitted => ?_
      cases hclosed : s.closed with
      | false => rfl
      | true => simp [hclosed, SubscribePlace.admitted] at hadmitted
  | lockSubscribe | delegated | unlockSubscribe | append | connClosed =>
      simp only [next] at h
      split at h <;> cases h
      exact Pool.forall_set hi fun hadmitted => by cases hadmitted
  | look | connected =>
      simp only [next] at h
      split at h
      · rename_i err hp
        have hopen := hi _ (List.mem_of_getElem? hp) rfl
        cases err <;> cases h <;> exact Pool.forall_set hi fun _ => hopen
      · cases h
  | configured | constructed =>
      simp only [next] at h
      split at h <;> cases h
      all_goals rename_i hp
      all_goals exact Pool.forall_set hi fun _ => hi _ (List.mem_of_getElem? hp) rfl
  | checkClose i =>
      simp only [next] at h
      split at h
      · rename_i hc
        split at h <;> cases h
        · exact hi
        · -- whoever closes the engine is the only one inside
          intro p hp hadmitted
          cases apart hmutex hp (List.mem_of_getElem? hc) (hinside hadmitted)
      · cases h
  | _ =>
      simp only [next] at h
      repeat' split at h
      all_goals cases h
      all_goals exact hi

/-! ## The engine -/

theorem next_returned (h : s.next a = some s') (hnew : s.new = .returned) :
    s'.new = .returned ∧ s'.publisher = s.publisher := by
  cases a with
  | attempt | abandon | leave | check | resultClosed => simp [next, hnew] at h
  | hand i =>
      simp only [next, hnew] at h
      split at h <;> simp at h
  | _ =>
      simp only [next] at h
      repeat' split at h
      all_goals cases h
      all_goals exact ⟨hnew, rfl⟩

theorem next_fresh (hi : s.new ≠ .returned → s.Fresh) (h : s.next a = some s') (hnew : s'.new ≠ .returned) :
    s'.Fresh := by
  obtain ⟨hpublisher, hpublisherClosed, hclosed, hsubscribers, hsubscribes, hcloses⟩ :=
    hi fun hnew' => hnew (next_returned h hnew').1
  have hold : s.new ≠ .returned := fun hnew' => hnew (next_returned h hnew').1
  cases a with
  | subscribe | shutdown | close => simp [next, hold] at h
  | lockSubscribe | checkSubscribe | look | connected | delegated | configured | constructed | connClosed | append |
      unlockSubscribe => simp [next, hsubscribes] at h
  | publisherClosed | lockClose | checkClose | subscriberClosed | join | unlockClose => simp [next, hcloses] at h
  | check =>
      simp only [next] at h
      split at h
      · split at h <;> cases h
        · exact ⟨hpublisher, hpublisherClosed, hclosed, hsubscribers, hsubscribes, hcloses⟩
        · exact absurd rfl hnew
      · cases h
        exact ⟨hpublisher, hpublisherClosed, hclosed, hsubscribers, hsubscribes, hcloses⟩
      · cases h
  | _ =>
      simp only [next] at h
      repeat' split at h
      all_goals cases h
      all_goals exact ⟨hpublisher, hpublisherClosed, hclosed, hsubscribers, hsubscribes, hcloses⟩

theorem next_publisher (hi : s.new = .returned → s.publisher.isSome = true) (h : s.next a = some s')
    (hnew : s'.new = .returned) : s'.publisher.isSome = true := by
  by_cases hold : s.new = .returned
  · rw [(next_returned h hold).2]
    exact hi hold
  · cases a with
    | check =>
        simp only [next] at h
        split at h
        · split at h <;> cases h
          · cases hnew
          · rfl
        · cases h
          cases hnew
        · cases h
    | _ =>
        simp only [next] at h
        repeat' split at h
        all_goals cases h
        all_goals first | exact absurd hnew hold | cases hnew

structure Inv (s : NATS) : Prop where
  balanced : s.connections.Balanced s.holders
  mutex : s.insiders = s.locked.toNat
  admitted : ∀ p ∈ s.subscribes, p.admitted = true → s.closed = false
  fresh : s.new ≠ .returned → s.Fresh
  publisher : s.new = .returned → s.publisher.isSome = true

theorem init_inv : init.Inv where
  balanced := Ledger.balanced_empty fun _ => rfl
  mutex := rfl
  admitted _ hp := absurd hp List.not_mem_nil
  fresh _ := ⟨rfl, rfl, rfl, rfl, rfl, rfl⟩
  publisher h := by cases h

theorem next_inv (hi : s.Inv) (h : s.next a = some s') : s'.Inv where
  balanced := next_balanced hi.balanced hi.fresh hi.admitted h
  mutex := next_mutex hi.mutex h
  admitted := next_admitted hi.mutex hi.admitted h
  fresh := next_fresh hi.fresh h
  publisher := next_publisher hi.publisher h

/-- Since state `s₀`, in which the engine was closed, nothing subscribed. -/
structure Sealed (s₀ s : NATS) : Prop where
  closed : s.closed = true
  subscribers : s.subscribers = s₀.subscribers
  admitted : ∀ p ∈ s.subscribes, p.admitted = false

theorem Inv.sealed (hi : s.Inv) (hclosed : s.closed = true) : s.Sealed s where
  closed := hclosed
  subscribers := rfl
  admitted p hp := by
    cases hadmitted : p.admitted with
    | false => rfl
    | true => cases hclosed.symm.trans (hi.admitted p hp hadmitted)

theorem next_sealed {s₀ : NATS} (hs : s₀.Sealed s) (h : s.next a = some s') : s₀.Sealed s' := by
  obtain ⟨hclosed, hsubscribers, hadmitted⟩ := hs
  cases a with
  | subscribe =>
      simp only [next] at h
      split at h <;> cases h
      refine ⟨hclosed, hsubscribers, fun p hp => ?_⟩
      rcases List.mem_append.mp hp with hold | hnew
      · exact hadmitted p hold
      · rw [List.mem_singleton.mp hnew]
        rfl
  | lockSubscribe | checkSubscribe | delegated | unlockSubscribe =>
      simp only [next] at h
      split at h <;> cases h
      exact ⟨hclosed, hsubscribers, Pool.forall_set hadmitted rfl⟩
  | look | connected =>
      simp only [next] at h
      split at h
      · rename_i hp
        cases hadmitted _ (List.mem_of_getElem? hp)
      · cases h
  | configured | constructed | connClosed | append =>
      simp only [next] at h
      split at h <;> cases h
      all_goals rename_i hp
      all_goals cases hadmitted _ (List.mem_of_getElem? hp)
  | checkClose i =>
      simp only [next, hclosed, if_true] at h
      split at h <;> cases h
      exact ⟨rfl, hsubscribers, hadmitted⟩
  | _ =>
      simp only [next] at h
      repeat' split at h
      all_goals cases h
      all_goals exact ⟨hclosed, hsubscribers, hadmitted⟩

/-- In every interleaving of the attempts of `New` and the goroutines they leave behind, of
subscriptions, calls of `Close` and of `Shutdown`, and whatever the libraries answer: every
connection that was made is closed once or has exactly one holder that is not yet through with
it, and none is closed before its holder closes it. An engine is returned with its publisher; before
that, or when `New` fails, nobody holds a connection but `New` and its goroutines. Only one
`Subscribe` or `Close` works on the subscribers at a time, and none subscribes once the engine is
closed. -/
theorem connections_accounted (h : runs next init as = some s) :
    s.connections.released.Nodup ∧
      (∀ r, r < s.connections.acquired → r ∈ s.connections.released ∨ s.holders r = 1) ∧
      (∀ r, 0 < s.holders r → r < s.connections.acquired ∧ r ∉ s.connections.released ∧ s.holders r = 1) ∧
      (s.new = .returned → s.publisher.isSome = true) ∧ (s.new ≠ .returned → s.Fresh) ∧ s.insiders ≤ 1 ∧
      (s.closed = true → ∀ bs s', runs next s bs = some s' →
        s'.subscribers = s.subscribers ∧ ∀ p ∈ s'.subscribes, p.admitted = false) := by
  have hi : s.Inv := runs_invariant next_inv init_inv h
  refine ⟨hi.balanced.released_nodup, fun r => hi.balanced.released_or_held, fun r => hi.balanced.of_held,
    hi.publisher, hi.fresh, ?_, fun hclosed bs s' hrun => ?_⟩
  · rw [hi.mutex]
    exact Bool.toNat_le s.locked
  · have hs : s.Sealed s' := runs_invariant next_sealed (hi.sealed hclosed) hrun
    exact ⟨hs.subscribers, hs.admitted⟩

/-- A server that stalls: the first attempt succeeds only after its time is up. -/
def stalledRun : List NatsAction :=
  [.attempt, .expire, .leave, .abandon, .built 0 none, .giveUp 0, .builtClosed 0]

theorem connections_accounted_stalled : ∃ s, runs next init stalledRun = some s ∧ s.new = .failed ∧
    s.connections.released = [0] ∧ s.Fresh ∧ s.holders 0 = 0 := by
  obtain ⟨s, h, hnew, hreleased, hacquired⟩ : ∃ s, runs next init stalledRun = some s ∧ s.new = .failed ∧
      s.connections.released = [0] ∧ s.connections.acquired = 1 := ⟨_, rfl, rfl, rfl, rfl⟩
  obtain ⟨-, -, hheld, -, hfresh, -⟩ := connections_accounted h
  refine ⟨s, h, hnew, hreleased, hfresh (by simp [hnew]), ?_⟩
  rcases Nat.eq_zero_or_pos (s.holders 0) with hnone | hpos
  · exact hnone
  · exact absurd (hreleased ▸ List.mem_singleton_self 0) (hheld 0 hpos).2.1

end NATS
end Go42.Events.Nats
