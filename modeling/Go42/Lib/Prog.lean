-- SUMMARY: Programs that issue atomic commands, with Go's three ways of leaving a function, and their sequential runs.
import Go42.Lib.GoError

/-!
# Programs over atomic commands

A program is a tree. Each inner node issues one command and branches on its
answer; a leaf is the way the program ends. A Go function ends in one of three
ways: it returns a value with a nil error, it returns a non-nil error, or it
panics. Commands answer in the same three ways, so a failing callee and a
failing command look alike to a caller.

A program says nothing about what a command does. That is the job of the
machine that executes it, `Go42.Lib.System`.
-/

namespace Go42

/-- How a Go function leaves: with a result and a nil error, with a non-nil
error, or by a panic. -/
inductive Outcome (α : Type) where
  | returned (a : α)
  | failed (err : GoError)
  | panicked (v : String)
deriving DecidableEq, Repr

namespace Outcome

def map (f : α → β) : Outcome α → Outcome β
  | returned a => returned (f a)
  | failed e => failed e
  | panicked v => panicked v

/-- It left with a result. -/
def isReturned : Outcome α → Bool
  | returned _ => true
  | _ => false

/-- What a function with the two results of Go leaves with. -/
def ofExcept : Except GoError α → Outcome α
  | .ok a => returned a
  | .error e => failed e

/-- Rewrite the error. -/
def mapErr (f : GoError → GoError) : Outcome α → Outcome α
  | returned a => returned a
  | failed e => failed (f e)
  | panicked v => panicked v

@[simp] theorem isReturned_returned (a : α) : (returned a).isReturned = true := rfl
@[simp] theorem isReturned_failed (e : GoError) : (failed e : Outcome α).isReturned = false := rfl
@[simp] theorem isReturned_panicked (v : String) :
    (panicked v : Outcome α).isReturned = false := rfl

@[simp] theorem mapErr_returned (f : GoError → GoError) (a : α) :
    (returned a).mapErr f = returned a := rfl
@[simp] theorem mapErr_failed (f : GoError → GoError) (e : GoError) :
    (failed e : Outcome α).mapErr f = failed (f e) := rfl
@[simp] theorem mapErr_panicked (f : GoError → GoError) (v : String) :
    (panicked v : Outcome α).mapErr f = panicked v := rfl

@[simp] theorem map_returned (f : α → β) (a : α) : (returned a).map f = returned (f a) := rfl
@[simp] theorem map_failed (f : α → β) (e : GoError) : (failed e : Outcome α).map f = failed e := rfl
@[simp] theorem map_panicked (f : α → β) (v : String) :
    (panicked v : Outcome α).map f = panicked v := rfl

/-- The two ways of leaving without a result. -/
theorem forall_not_returned {motive : Outcome α → Prop} (hfail : ∀ e, motive (failed e))
    (hpanic : ∀ v, motive (panicked v)) : ∀ o : Outcome α, o.isReturned = false → motive o
  | failed e, _ => hfail e
  | panicked v, _ => hpanic v

theorem map_eq_returned {f : α → β} {o : Outcome α} {b : β} :
    o.map f = returned b ↔ ∃ a, o = returned a ∧ f a = b := by
  cases o <;> simp

theorem map_eq_failed {f : α → β} {o : Outcome α} {e : GoError} :
    o.map f = failed e ↔ o = failed e := by
  cases o <;> simp

end Outcome

inductive Prog (Cmd : Type) (Res : Cmd → Type) (α : Type) where
  | done (o : Outcome α)
  | op (c : Cmd) (k : Outcome (Res c) → Prog Cmd Res α)

namespace Prog

variable {Cmd : Type} {Res : Cmd → Type} {α β γ : Type}

/-- Continue with every outcome of a program, whichever way it left. All the
control flow of Go that the models use is an instance of this. -/
def handle : Prog Cmd Res α → (Outcome α → Prog Cmd Res β) → Prog Cmd Res β
  | done o, h => h o
  | op c k, h => op c fun o => (k o).handle h

/-- A failed or panicked outcome at another result type. -/
def leave (f : α → Prog Cmd Res β) : Outcome α → Prog Cmd Res β
  | .returned a => f a
  | .failed e => done (.failed e)
  | .panicked v => done (.panicked v)

/-- Sequencing: an error or a panic skips the rest. -/
def bind (p : Prog Cmd Res α) (f : α → Prog Cmd Res β) : Prog Cmd Res β :=
  p.handle (leave f)

instance : Monad (Prog Cmd Res) where
  pure a := done (.returned a)
  bind := bind

/-- Issue a command and return its answer. -/
def call (c : Cmd) : Prog Cmd Res (Res c) := op c done

/-- `return err`. -/
def fail (e : GoError) : Prog Cmd Res α := done (.failed e)

/-- `return fmt.Errorf(…, err)` at a call that failed. -/
def mapErr (f : GoError → GoError) (p : Prog Cmd Res α) : Prog Cmd Res α :=
  p.handle fun o => done (o.mapErr f)

/-- `x, err := p` for a caller that inspects `err` itself. -/
def attempt (p : Prog Cmd Res α) : Prog Cmd Res (Except GoError α) :=
  p.handle fun
    | .returned a => done (.returned (.ok a))
    | .failed e => done (.returned (.error e))
    | .panicked v => done (.panicked v)

/-- Run a program for each command. A middleware that calls the next handler is a program
with a command for that call. -/
def interpret (f : (c : Cmd) → Prog Cmd Res (Res c)) : Prog Cmd Res α → Prog Cmd Res α
  | done o => done o
  | op c k => (f c).handle fun o => (k o).interpret f

@[simp] theorem handle_done (o : Outcome α) (h : Outcome α → Prog Cmd Res β) :
    (done o : Prog Cmd Res α).handle h = h o := rfl

@[simp] theorem handle_op (c : Cmd) (k : Outcome (Res c) → Prog Cmd Res α)
    (h : Outcome α → Prog Cmd Res β) :
    (op c k).handle h = op c fun o => (k o).handle h := rfl

@[simp] theorem call_handle (c : Cmd) (h : Outcome (Res c) → Prog Cmd Res β) :
    (call c).handle h = op c h := rfl

@[simp] theorem handle_id (p : Prog Cmd Res α) : p.handle done = p := by
  induction p with
  | done o => rfl
  | op c k ih => simp [ih]

theorem handle_handle (p : Prog Cmd Res α) (f : Outcome α → Prog Cmd Res β)
    (g : Outcome β → Prog Cmd Res γ) :
    (p.handle f).handle g = p.handle fun o => (f o).handle g := by
  induction p with
  | done o => rfl
  | op c k ih => simp [ih]

theorem bind_eq (p : Prog Cmd Res α) (f : α → Prog Cmd Res β) :
    p >>= f = p.handle (leave f) := rfl

theorem pure_eq (a : α) : (pure a : Prog Cmd Res α) = done (.returned a) := rfl

@[simp] theorem leave_returned (f : α → Prog Cmd Res β) (a : α) :
    leave f (.returned a) = f a := rfl
@[simp] theorem leave_failed (f : α → Prog Cmd Res β) (e : GoError) :
    leave f (.failed e) = done (.failed e) := rfl
@[simp] theorem leave_panicked (f : α → Prog Cmd Res β) (v : String) :
    leave f (.panicked v) = done (.panicked v) := rfl

/-! ## Programs on their own -/

/-- A run that nobody else takes part in; commands are answered by `serve`. -/
def alone {σ : Type} (serve : (c : Cmd) → σ → Outcome (Res c) × σ) :
    Prog Cmd Res α → σ → Outcome α × σ
  | done o, s => (o, s)
  | op c k, s => (k (serve c s).1).alone serve (serve c s).2

theorem alone_handle {σ : Type} (serve : (c : Cmd) → σ → Outcome (Res c) × σ) (p : Prog Cmd Res β)
    (f : Outcome β → Prog Cmd Res α) : ∀ s : σ, (p.handle f).alone serve s =
      (f (p.alone serve s).1).alone serve (p.alone serve s).2 := by
  induction p with
  | done o => exact fun s => rfl
  | op c k ih => exact fun s => ih _ _

section Alone

variable {σ : Type} {serve : (c : Cmd) → σ → Outcome (Res c) × σ} {p : Prog Cmd Res β} {s s' : σ}

/-- A first part that returns. -/
theorem alone_seq {b : β} (f : β → Prog Cmd Res α) (h : p.alone serve s = (.returned b, s')) :
    (p >>= f).alone serve s = (f b).alone serve s' := by
  rw [bind_eq, alone_handle, h]
  rfl

theorem alone_attempt_ok {b : β} (h : p.alone serve s = (.returned b, s')) :
    p.attempt.alone serve s = (.returned (.ok b), s') := by
  rw [attempt, alone_handle, h]
  rfl

theorem alone_attempt_error {e : GoError} (h : p.alone serve s = (.failed e, s')) :
    p.attempt.alone serve s = (.returned (.error e), s') := by
  rw [attempt, alone_handle, h]
  rfl

theorem alone_mapErr {o : Outcome β} (f : GoError → GoError) (h : p.alone serve s = (o, s')) :
    (p.mapErr f).alone serve s = (o.mapErr f, s') := by
  rw [mapErr, alone_handle, h]
  rfl

/-- A sequence that returns has a first part that returns. -/
theorem alone_bind_returned {f : β → Prog Cmd Res α} {a : α}
    (h : ((p >>= f).alone serve s).1 = .returned a) :
    ∃ b s', p.alone serve s = (.returned b, s') ∧ ((f b).alone serve s').1 = .returned a := by
  rw [bind_eq, alone_handle] at h
  cases hp : p.alone serve s with
  | mk o s' =>
      rw [hp] at h
      cases o with
      | returned b => exact ⟨b, s', rfl, h⟩
      | failed e => cases h
      | panicked v => cases h

theorem alone_mapErr_returned {b : β} {f : GoError → GoError}
    (h : (p.mapErr f).alone serve s = (.returned b, s')) : p.alone serve s = (.returned b, s') := by
  rw [mapErr, alone_handle] at h
  cases hp : p.alone serve s with
  | mk o s'' =>
      rw [hp] at h
      cases o with
      | returned b' => cases h; rfl
      | failed e => cases h
      | panicked v => cases h

end Alone

end Prog
end Go42
