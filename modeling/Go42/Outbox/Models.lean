-- SUMMARY: The outbox row, the message a caller enqueues, and the event that is published for it.
import Go42.Lib.Base64
import Go42.Lib.GoError
import Go42.Lib.GoString
import Go42.Lib.Uuid
import Mathlib.Data.Int.Notation

/-!
# Outbox models

Times are nanoseconds since the Unix epoch. A `[]byte` that may be nil is an
`Option`: `none` is nil and is stored as NULL.
-/

namespace Go42.Outbox

/-- `domain.Message`, what a caller enqueues. -/
structure Message where
  aggregateID : ℤ
  aggregateType : GoString
  payload : Option Bytes
deriving DecidableEq

inductive MessageStatus where
  | pending
  | processed
  | failed
deriving DecidableEq, Repr

/-- `models.Message`, a row of `transactional_outbox`. -/
structure OutboxMessage where
  id : UUID
  aggregateID : ℤ
  aggregateType : GoString
  topic : String
  payload : Option Bytes
  createdAt : ℤ
  processedAt : Option ℤ
  nextAttemptAt : Option ℤ
  status : MessageStatus
  retryCount : ℤ
  maxRetries : ℤ
  lastError : String
deriving DecidableEq

/-- `domain.Event`, the published form of a row. -/
structure Event where
  id : UUID
  createdAt : ℤ
  aggregateID : ℤ
  aggregateType : GoString
  payload : Option Bytes
deriving DecidableEq

/-- `time.Time{}`, the first of January of the year one. -/
def zeroTime : ℤ := -62135596800000000000

/-- `domain.MaxRetries`, stored as zero for new events. -/
def maxRetries : ℤ := 0

def OutboxMessage.event (m : OutboxMessage) : Event :=
  ⟨m.id, m.createdAt, m.aggregateID, m.aggregateType, m.payload⟩

/-- The rules `required,gte=1`, `required,min=3,max=100` and `omitzero,min=2`. The
length of a string is counted in runes. -/
def Message.violations (m : Message) : List String :=
  (if m.aggregateID = 0 then ["AggregateID is a required field"]
    else if m.aggregateID < 1 then ["AggregateID must be 1 or greater"] else []) ++
  (if m.aggregateType.len = 0 then ["AggregateType is a required field"]
    else if m.aggregateType.runeCount < 3 then
      ["AggregateType must be at least 3 characters in length"]
    else if 100 < m.aggregateType.runeCount then
      ["AggregateType must be a maximum of 100 characters in length"] else []) ++
  match m.payload with
  | some bs => if bs.length < 2 then ["Payload must contain at least 2 items"] else []
  | none => []

/-- `tools.ValidateStructCompact` on a message. -/
def Message.validate (m : Message) : Option GoError :=
  match m.violations with
  | [] => none
  | vs => some (.leaf ("validation errors: " ++ ",".intercalate vs))

theorem Message.validate_eq_none {m : Message} :
    m.validate = none ↔ 1 ≤ m.aggregateID ∧ m.aggregateType.len ≠ 0 ∧
      3 ≤ m.aggregateType.runeCount ∧ m.aggregateType.runeCount ≤ 100 ∧
      ∀ bs, m.payload = some bs → 2 ≤ bs.length := by
  have hv : m.validate = none ↔ m.violations = [] := by
    unfold Message.validate
    cases m.violations <;> simp
  rw [hv]
  simp only [Message.violations, List.append_eq_nil_iff]
  cases m.payload <;> simp <;> grind

/-- The row `Service.NewOutboxMessage` builds for a valid message. -/
def newRow (id : UUID) (topic : String) (m : Message) : OutboxMessage where
  id := id
  aggregateID := m.aggregateID
  aggregateType := m.aggregateType
  topic := topic
  payload := m.payload
  createdAt := 0
  processedAt := none
  nextAttemptAt := none
  status := .pending
  retryCount := 0
  maxRetries := maxRetries
  lastError := ""

end Go42.Outbox
