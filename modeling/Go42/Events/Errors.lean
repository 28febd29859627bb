-- SUMMARY: Permanent errors, the capacity error of the publisher, and the two errors of a context.
import Go42.Lib.GoError

/-!
# Errors of the event router
-/

namespace Go42.Events

def errPublishCapacity : GoError := .leaf "publish capacity unavailable"

/-- `IsPermanent`: `errors.As` finds a `*permanentError`. -/
def isPermanent (err : GoError) : Bool := err.as "permanentError"

/-- `Permanent`, on a non-nil error. -/
def permanent (err : GoError) : GoError :=
  if err.as "permanentError" then err else .typed "permanentError" err

theorem isPermanent_permanent (err : GoError) : isPermanent (permanent err) = true := by
  unfold permanent
  split
  case isTrue h => exact h
  case isFalse h => simp [isPermanent, GoError.as]

/-- Marking an error keeps its text and what `errors.Is` finds in it. -/
theorem permanent_text (err : GoError) : (permanent err).text = err.text := by
  unfold permanent
  split <;> rfl

theorem permanent_is {err target : GoError} (h : err.is target = true) :
    (permanent err).is target = true := by
  unfold permanent
  split
  case isTrue => exact h
  case isFalse => simp [GoError.is, h]

/-- `errors.Join`, which leaves out what is nil. -/
def joinErrors : List (Option GoError) → Option GoError
  | [] => none
  | none :: errs => joinErrors errs
  | some err :: errs =>
    match joinErrors errs with
    | none => some (.wrap "" err "")
    | some rest => some (.wrap2 "" err "\n" rest)

/-! ## Contexts -/

/-- Why a context is done. -/
inductive CtxErr where
  | canceled
  | deadlineExceeded
deriving DecidableEq, Repr

/-- `ctx.Err()`. -/
def CtxErr.err : CtxErr → GoError
  | canceled => .leaf "context canceled"
  | deadlineExceeded => .leaf "context deadline exceeded"

end Go42.Events
