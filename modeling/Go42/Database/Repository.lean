-- SUMMARY: `BaseRepository.WithTransaction`: begin, run, and commit, roll back on an error, roll back and re-raise on a panic.
import Go42.Lib.System

/-!
# Transactions of a repository

The three database operations are parameters, so that every repository over every
machine shares this code.
-/

namespace Go42.Database

variable {Cmd : Type} {Res : Cmd → Type} {α : Type}

/-- The operations on the connection of a repository. -/
structure Ops (Cmd : Type) (Res : Cmd → Type) where
  beginTx : Prog Cmd Res Unit
  commitTx : Prog Cmd Res Unit
  rollbackTx : Prog Cmd Res Unit

namespace Ops

variable (db : Ops Cmd Res)

/-- `Begin`. -/
def begin : Prog Cmd Res Unit :=
  db.beginTx.mapErr fun err => .wrap "failed to begin transaction: " err ""

/-- `Commit`. -/
def commit : Prog Cmd Res Unit :=
  db.commitTx.mapErr fun err => .wrap "failed to commit transaction: " err ""

/-- `Rollback`. -/
def rollback : Prog Cmd Res Unit :=
  db.rollbackTx.mapErr fun err => .wrap "failed to rollback transaction: " err ""

/-- What follows the body: commit after a nil error, roll back after an error. -/
def conclude : Outcome α → Prog Cmd Res α
  | .returned a =>
    db.commit.handle fun
      | .returned _ => .done (.returned a)
      | .failed err =>
        db.rollback.handle fun
          | .returned _ => .fail (.wrap "failed to commit transaction: " err "")
          | .failed rbErr =>
            .fail (.wrap2 "error committing transaction (rollback failed: " rbErr "): " err)
          | .panicked v => .done (.panicked v)
      | .panicked v => .done (.panicked v)
  | .failed err =>
    db.rollback.handle fun
      | .returned _ => .fail err
      | .failed rbErr =>
        .fail (.wrap2 "error executing transaction (rollback failed: " rbErr "): " err)
      | .panicked v => .done (.panicked v)
  | .panicked v => .done (.panicked v)

/-- The deferred function: a panic anywhere after `Begin` rolls back and goes on, whether
or not the rollback failed. -/
def recovering : Outcome α → Prog Cmd Res α
  | .panicked v =>
    db.rollback.handle fun
      | .panicked v' => .done (.panicked v')
      | _ => .done (.panicked v)
  | o => .done o

/-- `WithTransaction(fn)`. -/
def withTransaction (fn : Prog Cmd Res α) : Prog Cmd Res α := do
  db.begin.mapErr fun err => .wrap "failed to begin transaction: " err ""
  (fn.handle db.conclude).handle db.recovering

end Ops
end Go42.Database
