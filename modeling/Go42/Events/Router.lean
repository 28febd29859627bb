-- SUMMARY: `Router.Subscribe`: the chain of middlewares around a handler, over a library that is known by what it documents.
import Go42.Events.Publisher
import Go42.Lib.System

/-!
# The event router

A subscription wraps its handler in a retry, a span, the dead-letter queue and the restored
context, from the inside out. The retry, the queue and the order of a chain are those of the
messaging library; they are parameters here, with what the library documents about them. Spans,
values of contexts, counters and log lines are left out. A handler reads its event and answers
with an error or nil.

One delivery of one message runs while other messages are published. What others do is part of
each step.
-/

namespace Go42.Events

/-! ## Commands of a delivery -/

namespace Router

inductive Cmd where
  /-- The handler that was passed to `Subscribe`. -/
  | handle (event : Bytes)
  /-- `Retry` waits before it tries again. -/
  | backoff
  /-- `boundedPublisher.Publish` with one message. -/
  | publish (topic : String) (msg : Message)

abbrev Res : Cmd → Type
  | .handle _ => Unit
  | .backoff => Unit
  | .publish _ _ => Unit

/-- What is decided elsewhere: the answer of a handler, what the other users of the publisher do
in the meantime, and the end of the context of the message. -/
structure Choice where
  answer : Option GoError
  others : List PublisherAction
  ctxErr : Option CtxErr

structure World where
  publisher : PublisherState
  /-- `ctx.Err()` of the message. -/
  ctxErr : Option CtxErr

def ofErr : Option GoError → Outcome Unit
  | none => .returned ()
  | some err => .failed err

/-- What others do. -/
def interfere (n : ℕ) (w : World) (ch : Choice) : Option World :=
  (runs (PublisherState.next n) w.publisher ch.others).map fun s => ⟨s, w.ctxErr.or ch.ctxErr⟩

/-- The call of `publish` for a message whose context may be done already. -/
def startPublish (n : ℕ) (w : World) (topic : String) (msg : Message) : Option PublisherState :=
  let s : PublisherState := { w.publisher with calls := w.publisher.calls ++ [Call.new topic msg []] }
  match w.ctxErr with
  | none => some s
  | some e => s.next n (.step w.publisher.calls.length (.cancel e))

/-- The caller waits in `publish`, so that it does not change its message. -/
def isChange (i : ℕ) : PublisherAction → Bool
  | .step j (.change _) => j = i
  | _ => false

/-- A publisher with `n` slots. The effect of a publish is the number of its call. -/
def exec (n : ℕ) : Machine Cmd Res Choice (Option ℕ) World := fun _ _ c ch w =>
  match c with
  | .handle _ => (interfere n w ch).map fun w' => (ofErr ch.answer, none, w')
  | .backoff => (interfere n w ch).map fun w' => (ofErr (w'.ctxErr.map CtxErr.err), none, w')
  | .publish topic msg =>
    let i := w.publisher.calls.length
    if ch.others.any (isChange i) then none
    else
      (startPublish n w topic msg).bind fun s => (interfere n { w with publisher := s } ch).bind fun w' =>
        ((w'.publisher.calls[i]?).bind Call.reply).map fun err => (ofErr err, some i, w')

abbrev RouterProg := Prog Cmd Res

abbrev call (c : Cmd) : RouterProg (Res c) := Prog.call c

end Router

/-! ## The library -/

open Router (Cmd Res Choice World RouterProg)

/-- `message.HandlerFunc`. -/
abbrev HandlerFunc := Message → RouterProg Unit

abbrev HandlerMiddleware := HandlerFunc → HandlerFunc

/-- `middleware.Retry`. -/
structure Retry where
  maxRetries : ℕ
  initialInterval : ℤ
  maxInterval : ℤ
  shouldRetry : GoError → Bool

structure Watermill where
  /-- `Retry.Middleware`. -/
  retry : Retry → HandlerMiddleware
  /-- `middleware.PoisonQueue`. -/
  poisonQueue : (String → Message → RouterProg Unit) → String → Except GoError HandlerMiddleware
  /-- What `AddMiddleware` makes of a handler. -/
  addMiddleware : List HandlerMiddleware → HandlerFunc → HandlerFunc

abbrev RouterLog := Log Cmd Res (Option ℕ)

section Documented

variable (n T : ℕ)

/-- The library waits, or finds that it need not. -/
def Waits (log : RouterLog) (w : World) (log' : RouterLog) (w' : World) : Prop :=
  ∃ (p : RouterProg Unit) (o : Outcome Unit), p.Issues (· = .backoff) ∧
    p.Runs (Router.exec n) T log w o log' w'

/-- "Retry provides a middleware that retries the handler if errors are returned": the attempts
with the given number of retries left. It may stop early when the context of the message is done. -/
inductive Attempts (shouldRetry : GoError → Bool) (p : RouterProg Unit) :
    ℕ → RouterLog → World → Outcome Unit → RouterLog → World → Prop where
  | last {k : ℕ} {log log' : RouterLog} {w w' : World} {o : Outcome Unit} :
      p.Runs (Router.exec n) T log w o log' w' → (∀ err, o = .failed err → shouldRetry err = false) →
      Attempts shouldRetry p k log w o log' w'
  | exhausted {log log' : RouterLog} {w w' : World} {err : GoError} :
      p.Runs (Router.exec n) T log w (.failed err) log' w' →
      Attempts shouldRetry p 0 log w (.failed err) log' w'
  | interrupted {k : ℕ} {log log₁ log' : RouterLog} {w w₁ w' : World} {err : GoError} :
      p.Runs (Router.exec n) T log w (.failed err) log₁ w₁ → Waits n T log₁ w₁ log' w' →
      w'.ctxErr ≠ none → Attempts shouldRetry p k log w (.failed err) log' w'
  | again {k : ℕ} {log log₁ log₂ log' : RouterLog} {w w₁ w₂ w' : World} {err : GoError}
      {o : Outcome Unit} :
      p.Runs (Router.exec n) T log w (.failed err) log₁ w₁ → shouldRetry err = true →
      Waits n T log₁ w₁ log₂ w₂ → Attempts shouldRetry p k log₂ w₂ o log' w' →
      Attempts shouldRetry p (k + 1) log w o log' w'

/-- "PoisonQueue provides a middleware that salvages unprocessable messages and publishes them on
a separate topic". The message keeps its UUID and its payload. -/
inductive Poisoned (pub : Message → RouterProg Unit) (h : HandlerFunc) (msg : Message)
    (log : RouterLog) (w : World) : Outcome Unit → RouterLog → World → Prop where
  | passed {log' : RouterLog} {w' : World} {o : Outcome Unit} :
      (h msg).Runs (Router.exec n) T log w o log' w' → (∀ err, o ≠ .failed err) →
      Poisoned pub h msg log w o log' w'
  | moved {log₁ log' : RouterLog} {w₁ w' : World} {o₂ o : Outcome Unit} {err : GoError} {msg' : Message} :
      (h msg).Runs (Router.exec n) T log w (.failed err) log₁ w₁ → msg'.uuid = msg.uuid →
      msg'.payload = msg.payload → (pub msg').Runs (Router.exec n) T log₁ w₁ o₂ log' w' →
      o.isReturned = o₂.isReturned → Poisoned pub h msg log w o log' w'

end Documented

/-- What the library documents, with a publisher of `n` slots. -/
structure Watermill.Documented (lib : Watermill) (n : ℕ) : Prop where
  retry : ∀ (r : Retry) (h : HandlerFunc) (msg : Message) {T : ℕ} {log log' : RouterLog} {w w' : World}
    {o : Outcome Unit}, (lib.retry r h msg).Runs (Router.exec n) T log w o log' w' →
      Attempts n T r.shouldRetry (h msg) r.maxRetries log w o log' w'
  /-- The topic of the queue must not be empty. -/
  poisonQueue : ∀ (pub : String → Message → RouterProg Unit) (topic : String), topic ≠ "" →
    ∃ m, lib.poisonQueue pub topic = .ok m ∧ ∀ (h : HandlerFunc) (msg : Message)
      {T : ℕ} {log log' : RouterLog} {w w' : World} {o : Outcome Unit},
      (m h msg).Runs (Router.exec n) T log w o log' w' → Poisoned n T (pub topic) h msg log w o log' w'
  /-- "Middleware added at the beginning is executed first." -/
  addMiddleware : ∀ (ms : List HandlerMiddleware) (h : HandlerFunc),
    lib.addMiddleware ms h = ms.foldr (fun m next => m next) h

/-! ## Subscriptions -/

structure Router where
  maxRetries : ℕ
  initialBackoff : ℤ
  maxBackoff : ℤ
  deadLetterTopicSuffix : String
  /-- `InitializeTopic`, when the backend has it. -/
  initializeTopic : Option (String → Option GoError)

/-- `deadLetterPublisher.Publish`. -/
def deadLetterPublish (topic : String) (msg : Message) : RouterProg Unit :=
  Router.call (.publish topic msg)

/-- It sets a context with the correlation of the message. -/
def restoreMessageContext : HandlerMiddleware := fun next msg => next msg

/-- It sets a context with a span, and records an error in it. -/
def traceMessage : HandlerMiddleware := fun next msg => next msg

/-- It counts the attempts after the first one. -/
def retryWithMetrics (lib : Watermill) (retry : Retry) : HandlerMiddleware := fun next msg =>
  lib.retry retry (fun msg => next msg) msg

/-- `%q`, of a topic without characters to escape. -/
def quoted (topic : String) : String := "\"" ++ topic ++ "\""

def Router.retry (r : Router) : Retry where
  maxRetries := r.maxRetries
  initialInterval := r.initialBackoff
  maxInterval := r.maxBackoff
  shouldRetry := fun err => !isPermanent err

/-- The handler of a message: `handler(msg.Context(), msg.Payload)`. -/
def consume : HandlerFunc := fun msg => Router.call (.handle msg.payload)

/-- `Router.Subscribe`: the chain that is registered for the topic. -/
def Router.subscribe (r : Router) (lib : Watermill) (topic : String) : Except GoError HandlerFunc :=
  if topic = "" then .error (.leaf "event topic is required")
  else
    let deadLetterTopic := topic ++ r.deadLetterTopicSuffix
    match r.initializeTopic.bind (· deadLetterTopic) with
    | some err =>
      .error (.wrap ("failed to initialize dead-letter topic " ++ quoted deadLetterTopic ++ ": ") err "")
    | none =>
      match lib.poisonQueue deadLetterPublish deadLetterTopic with
      | .error err =>
        .error (.wrap ("failed to configure dead-letter topic " ++ quoted deadLetterTopic ++ ": ") err "")
      | .ok poisonQueue =>
        .ok (lib.addMiddleware
          [restoreMessageContext, poisonQueue, traceMessage, retryWithMetrics lib r.retry] consume)

end Go42.Events
