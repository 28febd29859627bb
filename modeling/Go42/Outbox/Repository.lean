-- SUMMARY: The outbox repository: each method with its statements and its error mapping.
import Go42.Database.Repository
import Go42.Outbox.Machine

/-!
# Outbox repository
-/

namespace Go42.Outbox

abbrev OutboxProg := Prog Cmd Res

open Prog (fail)

abbrev call (c : Cmd) : OutboxProg (Res c) := Prog.call c

abbrev sql (c : Conn) (q : Stmt) : OutboxProg q.Res := call (.sql c q)

/-- The transactions of this repository. -/
def db : Database.Ops Cmd Res := ⟨call .begin, call .commit, call .rollback⟩

namespace Repository

def newOutboxMessage (c : Conn) (msg : OutboxMessage) : OutboxProg Unit :=
  (sql c (.insertMessage msg)).mapErr fun err => .wrap "error saving message: " err ""

def getUnprocessedMessages (c : Conn) (limit : ℤ) : OutboxProg (List OutboxMessage) := do
  let now ← call .now
  (sql c (.selectUnprocessed now limit)).mapErr fun err => .wrap "error fetching messages: " err ""

def saveProcessedMessages (c : Conn) (messages : List OutboxMessage) : OutboxProg Unit := do
  let now ← call .now
  let _ ← (sql c (.updateProcessed (messages.map OutboxMessage.id) now)).mapErr fun err =>
    .wrap "error updating processed messages: " err ""

/-- All columns are written, also those that are zero. -/
def saveFailedMessages (c : Conn) : List OutboxMessage → OutboxProg Unit
  | [] => return ()
  | message :: messages => do
    let _ ← (sql c (.updateMessage message)).mapErr fun err =>
      .wrap ("error updating message with ID " ++ message.id ++ ": ") err ""
    saveFailedMessages c messages

/-- Status and time are checked again when deleting, in case a message changed after the
selection. -/
def deleteProcessedMessages (c : Conn) (before limit : ℤ) : OutboxProg ℕ :=
  if limit ≤ 0 then fail (.leaf "outbox cleanup batch size must be positive")
  else do
    let ids ← (sql c (.selectProcessed before limit)).mapErr fun err =>
      .wrap "error selecting processed messages for cleanup: " err ""
    if ids = [] then return 0
    else
      (sql c (.deleteProcessed ids before)).mapErr fun err =>
        .wrap "error deleting processed messages: " err ""

/-- `none` when no processed message is older. -/
def getOldestProcessedMessageTime (c : Conn) (before : ℤ) : OutboxProg (Option ℤ) := do
  match ← (sql c (.selectOldestProcessed before)).attempt with
  | .ok message => return some message.processedTime
  | .error err =>
    if err.is errRecordNotFound then return none
    else fail (.wrap "error selecting oldest processed message: " err "")

end Repository
end Go42.Outbox
