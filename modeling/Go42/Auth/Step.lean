-- SUMMARY: All that one command can do to the database, and what its answer says about the state it ran in.
import Go42.Auth.Protocol

/-!
# Steps

`Moves` lists what a command does to the world. Every invariant is proved from it and
from the few facts about answers below, never from `exec`.
-/

namespace Go42.Auth

variable {P : Platform} {log : AuthLog} {T : ℕ} {c : Cmd} {ch : Choice} {w w' : World}
variable {o : Outcome (Res c)} {e : List Write}

/-- A fact that does not depend on the database. -/
def Fact.local : Fact → Bool
  | .generated _ | .hashed _ _ | .compared _ _ _ | .signed _ _ | .parsed _ _ => true
  | _ => false

/-- Locks a statement takes are held by nobody else. -/
def World.Free (P : Platform) (w : World) (T : ℕ) (ls : List Lock) : Prop :=
  ∀ l ∈ ls, w.db.lockedByOther (Lock.conflicts P) T l = false

/-- The commands that the database answers. -/
def Cmd.onDatabase : Cmd → Bool
  | .begin | .commit | .rollback | .sql _ _ => true
  | _ => false

inductive Moves (P : Platform) (w : World) (T : ℕ) :
    (c : Cmd) → Outcome (Res c) → List Write → World → Prop where
  /-- A refused command, or one that the database does not answer. -/
  | quiet {c : Cmd} {o : Outcome (Res c)} :
      (∀ f, observe c o = some f → f.local = true) →
      (c.onDatabase = true → o.isReturned = false) → Moves P w T c o [] w
  | begin : Moves P w T .begin (.returned ()) [] { w with db := w.db.begin T }
  | commit {tx : Tx Tables Write Lock} : w.db.tx? T = some tx →
      Moves P w T .commit (.returned ()) tx.writes { w with db := (w.db.commit T).2 }
  | rollback : Moves P w T .rollback (.returned ()) [] { w with db := w.db.rollback T }
  | primary {q : Stmt} {pick : ℤ} {r : Done q.Res Write Lock} :
      q.run P.emailEq w.clock pick w.db.committed = .ok r → w.Free P T r.locks →
      Moves P w T (.sql .primary q) (.returned r.answer) r.writes
        { w with db := (w.db.write T r.writes r.locks .primary).2 }
  | inTx {q : Stmt} {pick : ℤ} {r : Done q.Res Write Lock} {tx : Tx Tables Write Lock}
      {snapshot : Bool} : w.db.tx? T = some tx →
      q.run P.emailEq w.clock pick (applyAll (if snapshot && q.isRead then tx.snapshot
        else w.db.committed) tx.writes) = .ok r →
      keyUnused (applyAll w.db.committed tx.writes) pick q = true → w.Free P T r.locks →
      Moves P w T (.sql .transaction q) (.returned r.answer) []
        { w with db := (w.db.write T r.writes r.locks .transaction).2 }

theorem Moves.refused (h : o.isReturned = false) : Moves P w T c o [] w := by
  refine .quiet (fun f hf => ?_) fun _ => h
  cases o <;> first | cases hf | cases h

theorem execSQL_moves {conn : Conn} {q : Stmt} {o : Outcome q.Res} {snapshot : Bool} {pick : ℤ}
    (h : execSQL P w T conn q snapshot pick = some (o, e, w')) :
    Moves P w T (.sql conn q) o e w' := by
  unfold execSQL at h
  split at h
  case isFalse => cases h
  case isTrue hkey =>
    obtain ⟨⟨o', e', d⟩, hst, heq⟩ := Option.map_eq_some_iff.mp h
    simp only [Prod.mk.injEq] at heq
    obtain ⟨rfl, rfl, rfl⟩ := heq
    rcases Store.statement_cases hst with ⟨⟨err, rfl⟩, rfl, rfl⟩ | ⟨t, r, hview, hr, hfree, rfl, hw⟩
    · exact .refused rfl
    · cases conn with
      | primary =>
          simp only [Store.view, Option.some.injEq] at hview
          subst hview
          cases hw
          exact .primary hr hfree
      | transaction =>
          obtain ⟨tx, htx, rfl⟩ := Store.view_eq_some hview
          have hkey' : keyUnused (applyAll w.db.committed tx.writes) pick q = true := by
            simpa [Store.view, htx] using hkey
          have hw' : (e', d) = ([], (w.db.write T r.writes r.locks .transaction).2) := by
            rw [hw]; simp [Store.write, htx]
          cases hw'
          exact .inTx htx hr hkey' hfree

theorem execRun_moves {snapshot : Bool} {pick : ℤ}
    (h : execRun P log T w snapshot pick c = some (o, e, w')) : Moves P w T c o e w' := by
  cases c with
  | begin => cases h; exact .begin
  | commit =>
      simp only [execRun] at h
      split at h
      · rename_i tx htx
        cases h
        have heq : (w.db.commit T).1 = tx.writes := by rw [Store.commit_of_tx htx]
        exact heq ▸ .commit htx
      · cases h; exact .refused rfl
  | rollback =>
      simp only [execRun] at h
      split at h
      · cases h; exact .rollback
      · cases h; exact .refused rfl
  | sql conn q => exact execSQL_moves h
  | now => cases h; exact .quiet (fun f hf => by cases hf) (by simp [Cmd.onDatabase])
  | compareHashAndPassword hash password =>
      cases h; exact .quiet (fun f hf => by cases hf; rfl) (by simp [Cmd.onDatabase])
  | signedString secret claims => cases h; exact .quiet (fun f hf => by cases hf; rfl) (by simp [Cmd.onDatabase])
  | parseWithClaims opts token =>
      simp only [execRun] at h
      split at h
      · cases h; exact .refused rfl
      · split at h
        · cases h; exact .quiet (fun f hf => by cases hf; rfl) (by simp [Cmd.onDatabase])
        · cases h
  | newUUID => cases h
  | generateFromPassword password => cases h
  | allowRateLimit req => cases h

/-- Whatever `exec` does is a move. -/
theorem exec_moves (h : exec P log T c ch w = some (o, e, w')) : Moves P w T c o e w' := by
  cases ch with
  | panic v => cases h; exact .refused rfl
  | fail err =>
      simp only [exec] at h
      split at h
      · cases h; exact .refused rfl
      · cases h
  | run snapshot pick => exact execRun_moves h
  | uuid u =>
      cases c <;> simp only [exec] at h <;> try cases h
      split at h
      · cases h; exact .quiet (fun f hf => by cases hf; rfl) (by simp [Cmd.onDatabase])
      · cases h
  | hash hash =>
      cases c <;> simp only [exec] at h <;> try cases h
      split at h
      · cases h; exact .quiet (fun f hf => by cases hf; rfl) (by simp [Cmd.onDatabase])
      · cases h
  | allow b =>
      cases c <;> simp only [exec] at h <;> try cases h
      exact .quiet (fun f hf => by cases hf) (by simp [Cmd.onDatabase])

/-- What a step commits is its effect, and it takes no time. -/
theorem exec_frame (h : exec P log T c ch w = some (o, e, w')) :
    w'.db.committed = applyAll w.db.committed e ∧ w'.clock = w.clock := by
  cases exec_moves h with
  | quiet | begin | rollback => exact ⟨rfl, rfl⟩
  | commit htx => exact ⟨by rw [Store.commit_committed, Store.commit_of_tx htx], rfl⟩
  | primary => exact ⟨rfl, rfl⟩
  | inTx htx => exact ⟨by rw [Store.write_committed]; simp [Store.write, htx], rfl⟩

/-! ## Answers -/

theorem shows_iff {f : Fact} : shows log f = true ↔ ∃ T, f ∈ log.facts observe T := by
  simp [shows, Log.mem_facts]

/-- A generated UUID is new. -/
theorem exec_newUUID {u : UUID} (h : exec P log T .newUUID ch w = some (.returned u, e, w'))
    (T' : ℕ) : .generated u ∉ log.facts observe T' := by
  cases ch <;> simp only [exec, execRun, Option.some.injEq, Prod.mk.injEq, reduceCtorEq,
    false_and] at h
  case fail => split at h <;> cases h
  case uuid v =>
    split at h
    · rename_i hv
      cases h
      simp only [Bool.and_eq_true, Bool.not_eq_true'] at hv
      intro hmem
      have := shows_iff.mpr ⟨T', hmem⟩
      simp [hv.2] at this
    · cases h

/-- A token that parses was signed, and its session row was committed. -/
theorem exec_parse {opts : ParserOptions} {token : JWT} {claims : JWTClaims}
    (h : exec P log T (.parseWithClaims opts token) ch w = some (.returned claims, e, w')) :
    P.jwt.parseWithClaims opts w.clock token = .ok claims ∧
      (∃ T', .signed claims token ∈ log.facts observe T') ∧ openedIn log claims.sessionID = true := by
  cases ch <;> simp only [exec, execRun, Option.some.injEq, Prod.mk.injEq, reduceCtorEq,
    false_and] at h
  case fail => split at h <;> cases h
  case run =>
    split at h
    · cases h
    · split at h
      · rename_i hissued
        cases h
        rw [Bool.and_eq_true] at hissued
        exact ⟨by assumption, shows_iff.mp hissued.1, hissued.2⟩
      · cases h

/-- A generated hash fits its password. -/
theorem exec_hash {password : GoString} {hash : String}
    (h : exec P log T (.generateFromPassword password) ch w = some (.returned hash, e, w')) :
    P.compare hash password = true := by
  cases ch <;> simp only [exec, execRun, Option.some.injEq, Prod.mk.injEq, reduceCtorEq,
    false_and] at h
  case fail => split at h <;> cases h
  case hash =>
    split at h
    · cases h; assumption
    · cases h

end Go42.Auth
