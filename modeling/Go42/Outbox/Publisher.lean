-- SUMMARY: `OutboxMessagePublisher`: one run over a batch, with its two ways to end the loop, and the delay before the next attempt.
import Go42.Lib.GoInt
import Go42.Outbox.Repository

/-!
# The outbox publisher

A run is one transaction: it selects a batch, publishes the messages one after the other,
and saves those that were published and those that failed. Log lines, metrics and the
values of the contexts are left out.
-/

namespace Go42.Outbox

open Events (errPublishCapacity isPermanent CtxErr)
open Prog (fail)

structure OutboxMessagePublisher where
  /-- `json.Marshal(event)`. -/
  marshal : Event → Except GoError Bytes
  retryInitialBackoff : ℤ
  retryMaxBackoff : ℤ

def maxInt32 : ℤ := 2147483647

variable (p : OutboxMessagePublisher)

/-- The loop of `retryDelay`, with at most the given number of rounds. -/
def backoffLoop (maxBackoff : ℤ) : ℕ → ℤ → ℤ
  | 0, delay => delay
  | n + 1, delay =>
    if delay < maxBackoff then
      if maxBackoff.tdiv 2 < delay then maxBackoff
      else backoffLoop maxBackoff n (wrapInt64 (delay * 2))
    else delay

/-- The delay of `retryDelay` before the jitter. -/
def backoff (attempt : ℤ) : ℤ :=
  min (backoffLoop p.retryMaxBackoff (attempt - 1).toNat p.retryInitialBackoff) p.retryMaxBackoff

def retryDelay (attempt : ℤ) : OutboxProg ℤ := call (.jitter (backoff p attempt))

/-- The new count of a message that failed. -/
def OutboxMessage.countedRetry (message : OutboxMessage) : ℤ :=
  if message.retryCount < maxInt32 then message.retryCount + 1 else message.retryCount

/-- The row of a message that failed with `err` and is due again at `nextAttemptAt`. -/
def OutboxMessage.afterFailure (message : OutboxMessage) (err : GoError) (nextAttemptAt : ℤ) :
    OutboxMessage :=
  { message with
    retryCount := message.countedRetry
    lastError := err.text
    nextAttemptAt := if isPermanent err then none else some nextAttemptAt
    status := if isPermanent err then .failed else message.status }

/-- The loop of `run`. It ends with the messages that were published and with the rows of
those that failed. -/
def publishLoop : List OutboxMessage → List OutboxMessage → List OutboxMessage →
    OutboxProg (List OutboxMessage × List OutboxMessage)
  | [], processed, failed => return (processed, failed)
  | message :: messages, processed, failed =>
    match p.marshal message.event with
    | .error err => fail (.wrap "failed to marshal event: " err "")
    | .ok jsonBytes => do
      let published ← (call (.publish message.topic message.id jsonBytes)).attempt
      -- The transaction may be out of time, or the worker may be shutting down.
      match ← call .ctxErr with
      | some err => fail err.err
      | none =>
        match published with
        | .ok _ => publishLoop messages (processed ++ [message]) failed
        | .error err =>
          if err.is errPublishCapacity then return (processed, failed)
          else do
            let now ← call .now
            let delay ← retryDelay p message.countedRetry
            let failed := failed ++ [message.afterFailure err (now + delay)]
            if err.is CtxErr.deadlineExceeded.err then return (processed, failed)
            else publishLoop messages processed failed

/-- `run`, after the loop. -/
def saveMessages (processed failed : List OutboxMessage) : OutboxProg Unit := do
  if processed ≠ [] then
    (Repository.saveProcessedMessages .transaction processed).mapErr fun err =>
      .wrap "failed to save processed messages: " err ""
  if failed ≠ [] then
    (Repository.saveFailedMessages .transaction failed).mapErr fun err =>
      .wrap "failed to save failed messages: " err ""

/-- What `run` does in its transaction. -/
def runBatch (batchSize : ℤ) : OutboxProg Unit := do
  let messages ← (Repository.getUnprocessedMessages .transaction batchSize).mapErr fun err =>
    .wrap "failed to get unprocessed messages: " err ""
  let (processed, failed) ← publishLoop p messages [] []
  saveMessages processed failed

/-- `OutboxMessagePublisher.run`. -/
def run (batchSize : ℤ) : OutboxProg Unit := db.withTransaction (runBatch p batchSize)

end Go42.Outbox
