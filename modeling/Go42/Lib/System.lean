-- SUMMARY: Interleaving execution of a pool of programs over shared state with a log of all steps, and the rule that splits a fact about all runs into facts about one program's history and one command.
import Go42.Lib.Prog
import Mathlib.Data.Nat.Notation
import Mathlib.Data.List.Infix
import Mathlib.Logic.Basic
import Mathlib.Tactic.Basic

/-!
# Interleaved programs

A machine answers one command of one thread at a time. The answer and the next
shared state may depend on a choice, which is how failures, fresh identifiers and
other outside decisions enter, and on the log of all steps so far. A step also has
an effect: what it made visible to others, such as the writes it committed.

A system adds a pool of threads, each running the program of the call it was
started with. Any thread may take the next step, new calls may start at any time, a
running thread may crash, and the environment may act.

Reasoning is split in two. An observer turns an answered command into a fact, or
ignores it. `Prog.Spec` looks at one program alone, with arbitrary answers to its
commands: which commands it may issue after which facts of its own, and which facts it
may end with. `System.Sound` adds an invariant of the log and the shared state that
every allowed command keeps. `System.Good.run` then speaks about every state of every
run.
-/

namespace Go42

/-! ## One program and its facts -/

/-- What an answered command is evidence of, if anything. -/
abbrev Observer (Cmd : Type) (Res : Cmd → Type) (Fact : Type) :=
  (c : Cmd) → Outcome (Res c) → Option Fact

namespace Prog

variable {Cmd : Type} {Res : Cmd → Type} {Fact : Type} {α β : Type}

/-- A program with the facts `F` behind it, newest first, issues only allowed commands
and ends in `Q`, whatever its commands answer. -/
def Spec (see : Observer Cmd Res Fact) (allowed : List Fact → Cmd → Prop)
    (Q : List Fact → Outcome α → Prop) : Prog Cmd Res α → List Fact → Prop
  | done o, F => Q F o
  | op c k, F => allowed F c ∧ ∀ o, Spec see allowed Q (k o) ((see c o).toList ++ F)

variable {see : Observer Cmd Res Fact} {allowed : List Fact → Cmd → Prop} {F : List Fact}
variable {Q R : List Fact → Outcome α → Prop}

theorem Spec.mono {p : Prog Cmd Res α} (hQR : ∀ F o, Q F o → R F o) :
    ∀ {F}, p.Spec see allowed Q F → p.Spec see allowed R F := by
  induction p with
  | done o => exact fun hp => hQR _ _ hp
  | op c k ih => exact fun hp => ⟨hp.1, fun o => ih o (hp.2 o)⟩

/-- The one rule for control flow: sequencing, error handling and recovery from
panics are all `handle`. -/
theorem Spec.handle {p : Prog Cmd Res β} {f : Outcome β → Prog Cmd Res α} :
    ∀ {F}, p.Spec see allowed (fun F' o => (f o).Spec see allowed Q F') F →
      (p.handle f).Spec see allowed Q F := by
  induction p with
  | done o => exact fun hp => hp
  | op c k ih => exact fun hp => ⟨hp.1, fun o => ih o (hp.2 o)⟩

theorem Spec.bind {p : Prog Cmd Res β} {f : β → Prog Cmd Res α}
    (hp : p.Spec see allowed (fun F' o => (leave f o).Spec see allowed Q F') F) :
    (p >>= f).Spec see allowed Q F :=
  Spec.handle hp

theorem Spec.mapErr {p : Prog Cmd Res α} {f : GoError → GoError}
    (hp : p.Spec see allowed (fun F' o => Q F' (o.mapErr f)) F) :
    (p.mapErr f).Spec see allowed Q F :=
  Spec.handle hp

/-- A bind, by the three ways its first part can leave. -/
theorem Spec.seq {p : Prog Cmd Res β} {f : β → Prog Cmd Res α}
    (hp : p.Spec see allowed (fun F' o => match o with
      | .returned b => (f b).Spec see allowed Q F'
      | .failed e => Q F' (.failed e)
      | .panicked v => Q F' (.panicked v)) F) :
    (p >>= f).Spec see allowed Q F :=
  Spec.bind (hp.mono fun _ o ho => by cases o <;> exact ho)

theorem Spec.map {p : Prog Cmd Res β} {f : β → α}
    (hp : p.Spec see allowed (fun F' o => Q F' (o.map f)) F) : (f <$> p).Spec see allowed Q F :=
  Spec.seq (hp.mono fun _ o ho => by cases o <;> exact ho)

theorem Spec.attempt {p : Prog Cmd Res β} {Q : List Fact → Outcome (Except GoError β) → Prop}
    (hp : p.Spec see allowed (fun F' o => match o with
      | .returned b => Q F' (.returned (.ok b))
      | .failed e => Q F' (.returned (.error e))
      | .panicked v => Q F' (.panicked v)) F) :
    p.attempt.Spec see allowed Q F :=
  Spec.handle (hp.mono fun _ o ho => by cases o <;> exact ho)

theorem Spec.call {c : Cmd} {Q : List Fact → Outcome (Res c) → Prop} (hc : allowed F c)
    (hQ : ∀ o, Q ((see c o).toList ++ F) o) : (call c).Spec see allowed Q F :=
  ⟨hc, hQ⟩

/-- A program that keeps to one set of rules keeps to another, when `R` relates what is
seen under the two. -/
theorem Spec.simulate {Fact' : Type} {see' : Observer Cmd Res Fact'}
    {allowed' : List Fact' → Cmd → Prop} {Q' : List Fact' → Outcome α → Prop}
    {R : List Fact' → List Fact → Prop} {p : Prog Cmd Res α}
    (hstep : ∀ {F' F c}, R F' F → allowed' F' c → allowed F c ∧
      ∀ o, R ((see' c o).toList ++ F') ((see c o).toList ++ F))
    (hQ : ∀ {F' F o}, R F' F → Q' F' o → Q F o) :
    ∀ {F' F}, R F' F → p.Spec see' allowed' Q' F' → p.Spec see allowed Q F := by
  induction p with
  | done o => exact fun hR hp => hQ hR hp
  | op c k ih =>
      intro F' F hR hp
      obtain ⟨hc, hR'⟩ := hstep hR hp.1
      exact ⟨hc, fun o => ih o (hR' o) (hp.2 o)⟩

/-- Programs in place of commands. `R` relates what the outer program has seen to what
happened below it. -/
theorem Spec.interpret {Fact' : Type} {see' : Observer Cmd Res Fact'}
    {allowed' : List Fact' → Cmd → Prop} {Q' : List Fact' → Outcome α → Prop}
    {R : List Fact' → List Fact → Prop} {f : (c : Cmd) → Prog Cmd Res (Res c)} {p : Prog Cmd Res α}
    (hf : ∀ {F' F c}, R F' F → allowed' F' c →
      (f c).Spec see allowed (fun G o => R ((see' c o).toList ++ F') G) F) :
    ∀ {F' F}, R F' F → p.Spec see' allowed' Q' F' →
      (p.interpret f).Spec see allowed (fun G o => ∃ G', R G' G ∧ Q' G' o) F := by
  induction p with
  | done o => exact fun hR hp => ⟨_, hR, hp⟩
  | op c k ih => exact fun hR hp => Spec.handle ((hf hR hp.1).mono fun G o hG => ih o hG (hp.2 o))

/-! ### Programs that stay within some commands -/

/-- Every command that `p` may issue satisfies `ok`. -/
def Issues (ok : Cmd → Prop) : Prog Cmd Res α → Prop
  | done _ => True
  | op c k => ok c ∧ ∀ o, Issues ok (k o)

variable {ok : Cmd → Prop}

theorem Issues.handle {p : Prog Cmd Res β} {f : Outcome β → Prog Cmd Res α} (hp : p.Issues ok)
    (hf : ∀ o, (f o).Issues ok) : (p.handle f).Issues ok := by
  induction p with
  | done o => exact hf o
  | op c k ih => exact ⟨hp.1, fun o => ih o (hp.2 o)⟩

theorem Issues.bind {p : Prog Cmd Res β} {f : β → Prog Cmd Res α} (hp : p.Issues ok)
    (hf : ∀ b, (f b).Issues ok) : (p >>= f).Issues ok :=
  hp.handle fun o => by cases o <;> first | exact hf _ | trivial

theorem Issues.mapErr {p : Prog Cmd Res α} {f : GoError → GoError} (hp : p.Issues ok) :
    (p.mapErr f).Issues ok :=
  hp.handle fun _ => trivial

theorem Issues.attempt {p : Prog Cmd Res α} (hp : p.Issues ok) : p.attempt.Issues ok :=
  hp.handle fun o => by cases o <;> trivial

theorem Issues.call {c : Cmd} (hc : ok c) : (call c : Prog Cmd Res (Res c)).Issues ok :=
  ⟨hc, fun _ => trivial⟩

theorem Issues.mono {ok' : Cmd → Prop} {p : Prog Cmd Res α} (hp : p.Issues ok)
    (h : ∀ c, ok c → ok' c) : p.Issues ok' := by
  induction p with
  | done o => trivial
  | op c k ih => exact ⟨h c hp.1, fun o => ih o (hp.2 o)⟩

/-- A program of commands that are always allowed. -/
theorem Issues.specAny {p : Prog Cmd Res α} (hp : p.Issues ok) (h : ∀ F c, ok c → allowed F c) :
    ∀ {F}, p.Spec see allowed (fun _ _ => True) F := by
  induction p with
  | done o => exact trivial
  | op c k ih => exact ⟨h _ c hp.1, fun o => ih o (hp.2 o)⟩

/-- A program of commands that are always allowed and tell nothing keeps its facts. -/
theorem Issues.spec {p : Prog Cmd Res α} (hp : p.Issues ok) (hallowed : ∀ c, ok c → allowed F c)
    (hsee : ∀ c, ok c → ∀ o, see c o = none) (hQ : ∀ o, Q F o) : p.Spec see allowed Q F := by
  induction p with
  | done o => exact hQ o
  | op c k ih =>
      refine ⟨hallowed c hp.1, fun o => ?_⟩
      rw [hsee c hp.1 o]
      exact ih o (hp.2 o)

end Prog

/-! ## Machines and logs -/

/-- One step of one thread. -/
structure Record (Cmd : Type) (Res : Cmd → Type) (E : Type) where
  thread : ℕ
  cmd : Cmd
  answer : Outcome (Res cmd)
  effect : E

/-- All steps so far, newest first. -/
abbrev Log (Cmd : Type) (Res : Cmd → Type) (E : Type) := List (Record Cmd Res E)

/-- The meaning of one atomic command of thread `T`; `none` when the command is not
enabled under that choice, for instance while it waits for a lock. -/
abbrev Machine (Cmd : Type) (Res : Cmd → Type) (Choice E σ : Type) :=
  Log Cmd Res E → ℕ → (c : Cmd) → Choice → σ → Option (Outcome (Res c) × E × σ)

namespace Log

variable {Cmd : Type} {Res : Cmd → Type} {E Fact : Type}

/-- The facts of thread `T`, newest first. -/
def facts (see : Observer Cmd Res Fact) (log : Log Cmd Res E) (T : ℕ) : List Fact :=
  log.filterMap fun r => if r.thread = T then see r.cmd r.answer else none

variable {see : Observer Cmd Res Fact} {log log' : Log Cmd Res E} {T T' : ℕ} {c : Cmd}
variable {o : Outcome (Res c)} {e : E} {f : Fact}

@[simp] theorem facts_cons_self :
    facts see (⟨T, c, o, e⟩ :: log) T = (see c o).toList ++ log.facts see T := by
  cases h : see c o <;> simp [facts, h]

theorem facts_cons_ne (h : T' ≠ T) :
    facts see (⟨T', c, o, e⟩ :: log) T = log.facts see T := by
  simp [facts, h]

theorem mem_facts :
    f ∈ log.facts see T ↔ ∃ r ∈ log, r.thread = T ∧ see r.cmd r.answer = some f := by
  simp [facts]

theorem facts_append : facts see (log' ++ log) T = log'.facts see T ++ log.facts see T := by
  simp [facts]

theorem facts_of_suffix (h : log <:+ log') (hf : f ∈ log.facts see T) :
    f ∈ log'.facts see T := by
  obtain ⟨post, rfl⟩ := h
  rw [facts_append]
  exact List.mem_append_right _ hf

/-- A step adds its own fact to its own thread. -/
theorem mem_facts_cons :
    f ∈ facts see (⟨T, c, o, e⟩ :: log) T' ↔ (T = T' ∧ see c o = some f) ∨ f ∈ log.facts see T' := by
  rcases eq_or_ne T T' with rfl | hne
  · simp
  · simp [facts_cons_ne hne, hne]

/-- Of two records one is the other, or comes before it. -/
theorem mem_order {r r' : Record Cmd Res E} (hr : r ∈ log) (hr' : r' ∈ log) :
    r = r' ∨ (∃ l, r :: l <:+ log ∧ r' ∈ l) ∨ ∃ l, r' :: l <:+ log ∧ r ∈ l := by
  obtain ⟨newer, older, rfl⟩ := List.append_of_mem hr
  rcases List.mem_append.mp hr' with h | h
  · obtain ⟨newest, between, rfl⟩ := List.append_of_mem h
    exact .inr (.inr ⟨between ++ r :: older, ⟨newest, by simp⟩, by simp⟩)
  · rcases List.mem_cons.mp h with rfl | h
    · exact .inl rfl
    · exact .inr (.inl ⟨older, ⟨newer, rfl⟩, h⟩)

/-- What is known of a thread that knew nothing at `log` was learned after `log`. -/
theorem facts_after (hlog : log <:+ log') (hidle : log.facts see T = [])
    (hf : f ∈ log'.facts see T) :
    ∃ r l, r :: l <:+ log' ∧ log <:+ l ∧ r.thread = T ∧ see r.cmd r.answer = some f := by
  obtain ⟨newer, rfl⟩ := hlog
  rw [facts_append, hidle, List.append_nil] at hf
  obtain ⟨r, hr, hrT, hsee⟩ := mem_facts.mp hf
  obtain ⟨newest, between, rfl⟩ := List.append_of_mem hr
  exact ⟨r, between ++ log, ⟨newest, by simp⟩, List.suffix_append _ _, hrT, hsee⟩

end Log

/-! ## Sequential runs -/

section Sequential

variable {Cmd : Type} {Res : Cmd → Type} {Choice E σ : Type} {α β : Type}

/-- The runs of one program of thread `T` with nobody else around. -/
inductive Prog.Runs (M : Machine Cmd Res Choice E σ) (T : ℕ) :
    Prog Cmd Res α → Log Cmd Res E → σ → Outcome α → Log Cmd Res E → σ → Prop where
  | done {o : Outcome α} {log : Log Cmd Res E} {s : σ} : Runs M T (.done o) log s o log s
  | op {c : Cmd} {k : Outcome (Res c) → Prog Cmd Res α} {log log' : Log Cmd Res E}
      {s s' s'' : σ} {ch : Choice} {o : Outcome (Res c)} {e : E} {r : Outcome α} :
      M log T c ch s = some (o, e, s') → Runs M T (k o) (⟨T, c, o, e⟩ :: log) s' r log' s'' →
      Runs M T (.op c k) log s r log' s''

section

variable {M : Machine Cmd Res Choice E σ} {T : ℕ} {log log' : Log Cmd Res E} {s s' : σ}

theorem Prog.runs_done {o r : Outcome α} :
    (Prog.done o : Prog Cmd Res α).Runs M T log s r log' s' ↔ r = o ∧ log' = log ∧ s' = s := by
  constructor
  · rintro ⟨⟩; exact ⟨rfl, rfl, rfl⟩
  · rintro ⟨rfl, rfl, rfl⟩; exact .done

theorem Prog.runs_op {c : Cmd} {k : Outcome (Res c) → Prog Cmd Res α} {r : Outcome α} :
    (Prog.op c k).Runs M T log s r log' s' ↔ ∃ ch o e s₁, M log T c ch s = some (o, e, s₁) ∧
      (k o).Runs M T (⟨T, c, o, e⟩ :: log) s₁ r log' s' := by
  constructor
  · rintro ⟨⟩; exact ⟨_, _, _, _, by assumption, by assumption⟩
  · rintro ⟨ch, o, e, s₁, hM, hk⟩; exact .op hM hk

/-- A run of two programs in sequence. -/
theorem Prog.runs_handle {p : Prog Cmd Res β} {f : Outcome β → Prog Cmd Res α} {r : Outcome α} :
    ∀ {log : Log Cmd Res E} {s : σ}, (p.handle f).Runs M T log s r log' s' ↔
      ∃ o log₁ s₁, p.Runs M T log s o log₁ s₁ ∧ (f o).Runs M T log₁ s₁ r log' s' := by
  induction p with
  | done o => intro log s; simp [runs_done]
  | op c k ih =>
      intro log s
      simp only [handle_op, runs_op, ih]
      constructor
      · rintro ⟨ch, o, e, s₁, hM, o', log₂, s₂, hk, hf⟩
        exact ⟨o', log₂, s₂, ⟨ch, o, e, s₁, hM, hk⟩, hf⟩
      · rintro ⟨o', log₂, s₂, ⟨ch, o, e, s₁, hM, hk⟩, hf⟩
        exact ⟨ch, o, e, s₁, hM, o', log₂, s₂, hk, hf⟩

theorem Prog.runs_call {c : Cmd} {r : Outcome (Res c)} :
    (Prog.call c : Prog Cmd Res (Res c)).Runs M T log s r log' s' ↔
      ∃ ch e, M log T c ch s = some (r, e, s') ∧ log' = ⟨T, c, r, e⟩ :: log := by
  simp only [Prog.call, runs_op, runs_done]
  constructor
  · rintro ⟨ch, o, e, s₁, hM, rfl, rfl, rfl⟩; exact ⟨ch, e, hM, rfl⟩
  · rintro ⟨ch, e, hM, rfl⟩; exact ⟨ch, r, e, s', hM, rfl, rfl, rfl⟩

/-- A sequence that returns has two parts that return. -/
theorem Prog.runs_bind_returned {p : Prog Cmd Res β} {f : β → Prog Cmd Res α} {a : α} :
    (p >>= f).Runs M T log s (.returned a) log' s' ↔ ∃ b log₁ s₁,
      p.Runs M T log s (.returned b) log₁ s₁ ∧ (f b).Runs M T log₁ s₁ (.returned a) log' s' := by
  rw [bind_eq, runs_handle]
  constructor
  · rintro ⟨o, log₁, s₁, hp, hf⟩
    cases o with
    | returned b => exact ⟨b, log₁, s₁, hp, hf⟩
    | failed e => exact absurd (runs_done.mp hf).1 (by simp)
    | panicked v => exact absurd (runs_done.mp hf).1 (by simp)
  · rintro ⟨b, log₁, s₁, hp, hf⟩
    exact ⟨.returned b, log₁, s₁, hp, hf⟩

theorem Prog.runs_mapErr_returned {p : Prog Cmd Res α} {g : GoError → GoError} {a : α} :
    (p.mapErr g).Runs M T log s (.returned a) log' s' ↔
      p.Runs M T log s (.returned a) log' s' := by
  rw [Prog.mapErr, runs_handle]
  constructor
  · rintro ⟨o, log₁, s₁, hp, hf⟩
    obtain ⟨ho, rfl, rfl⟩ := runs_done.mp hf
    cases o with
    | returned b => cases ho; exact hp
    | failed e => cases ho
    | panicked v => cases ho
  · exact fun hp => ⟨_, _, _, hp, .done⟩

end

/-- A sequential run only adds to the log. -/
theorem Prog.Runs.log {M : Machine Cmd Res Choice E σ} {T : ℕ} {p : Prog Cmd Res α}
    {log log' : Log Cmd Res E} {s s' : σ} {o : Outcome α} (h : p.Runs M T log s o log' s') :
    log <:+ log' := by
  induction h with
  | done => exact List.suffix_refl _
  | op _ _ ih => exact (List.suffix_cons _ _).trans ih

/-- When every command can be answered, every program has a run. -/
theorem Prog.exists_runs {M : Machine Cmd Res Choice E σ} {T : ℕ}
    (hM : ∀ log c s, ∃ ch r, M log T c ch s = some r) (p : Prog Cmd Res α) :
    ∀ (log : Log Cmd Res E) (s : σ), ∃ o log' s', p.Runs M T log s o log' s' := by
  induction p with
  | done o => exact fun log s => ⟨o, log, s, .done⟩
  | op c k ih =>
      intro log s
      obtain ⟨ch, ⟨o, e, s₁⟩, hstep⟩ := hM log c s
      obtain ⟨r, log', s', hruns⟩ := ih o (⟨T, c, o, e⟩ :: log) s₁
      exact ⟨r, log', s', .op hstep hruns⟩

/-- The steps of a program that stays within some commands. -/
theorem Prog.Runs.issues {M : Machine Cmd Res Choice E σ} {T : ℕ} {ok : Cmd → Prop} {p : Prog Cmd Res α}
    {log log' : Log Cmd Res E} {s s' : σ} {o : Outcome α} (h : p.Runs M T log s o log' s')
    (hp : p.Issues ok) : ∃ new, log' = new ++ log ∧ ∀ r ∈ new, ok r.cmd := by
  induction h with
  | done => exact ⟨[], rfl, fun _ hr => absurd hr List.not_mem_nil⟩
  | @op c k log₀ log₁ s₀ s₁ s₂ ch o e r hstep _ ih =>
      obtain ⟨new, hnew, hok⟩ := ih (hp.2 o)
      refine ⟨new ++ [⟨T, c, o, e⟩], by rw [hnew, List.append_assoc]; rfl, fun r hr => ?_⟩
      cases List.mem_append.mp hr with
      | inl hlater => exact hok r hlater
      | inr hfirst =>
          rw [List.mem_singleton.mp hfirst]
          exact hp.1

/-- A machine that allows less has fewer runs. -/
theorem Prog.Runs.mono {M M' : Machine Cmd Res Choice E σ} {T : ℕ} {p : Prog Cmd Res α}
    {log log' : Log Cmd Res E} {s s' : σ} {o : Outcome α} (h : p.Runs M T log s o log' s')
    (hM : ∀ log c ch s r, M log T c ch s = some r → M' log T c ch s = some r) :
    p.Runs M' T log s o log' s' := by
  induction h with
  | done => exact .done
  | op hstep _ ih => exact .op (hM _ _ _ _ _ hstep) ih

/-- What a program may do and end with, in its runs on any machine. -/
theorem Prog.Runs.spec {Fact : Type} {see : Observer Cmd Res Fact} {allowed : List Fact → Cmd → Prop}
    {Q : List Fact → Outcome α → Prop} {M : Machine Cmd Res Choice E σ} {T : ℕ} {p : Prog Cmd Res α}
    {log log' : Log Cmd Res E} {s s' : σ} {o : Outcome α} (h : p.Runs M T log s o log' s')
    (hp : p.Spec see allowed Q (log.facts see T)) :
    Q (log'.facts see T) o ∧ ∀ {r : Record Cmd Res E} {l : Log Cmd Res E}, r :: l <:+ log' →
      r :: l <:+ log ∨ allowed (l.facts see T) r.cmd := by
  induction h with
  | done => exact ⟨hp, fun hl => .inl hl⟩
  | op hM hk ih =>
      obtain ⟨hc, hk'⟩ := hp
      obtain ⟨hQ, hlog⟩ := ih (Log.facts_cons_self ▸ hk' _)
      refine ⟨hQ, fun {r l} hl => ?_⟩
      rcases hlog hl with hold | hallowed
      · rcases List.suffix_cons_iff.mp hold with heq | hold
        · cases heq
          exact .inr hc
        · exact .inl hold
      · exact .inr hallowed

/-- The run that makes the given choices. -/
def Prog.follow (M : Machine Cmd Res Choice E σ) (T : ℕ) :
    Prog Cmd Res α → List Choice → Log Cmd Res E → σ → Option (Outcome α × Log Cmd Res E × σ)
  | .done o, _, log, s => some (o, log, s)
  | .op _ _, [], _, _ => none
  | .op c k, ch :: chs, log, s =>
    (M log T c ch s).bind fun r => (k r.1).follow M T chs (⟨T, c, r.1, r.2.1⟩ :: log) r.2.2

theorem Prog.runs_of_follow {M : Machine Cmd Res Choice E σ} {T : ℕ} {p : Prog Cmd Res α}
    {o : Outcome α} {log' : Log Cmd Res E} {s' : σ} : ∀ {chs : List Choice} {log : Log Cmd Res E}
    {s : σ}, p.follow M T chs log s = some (o, log', s') → p.Runs M T log s o log' s' := by
  induction p with
  | done o => intro chs log s h; cases h; exact .done
  | op c k ih =>
      intro chs log s h
      cases chs with
      | nil => cases h
      | cons ch chs =>
          obtain ⟨⟨o, e, s₁⟩, hM, hk⟩ := Option.bind_eq_some_iff.mp h
          exact .op hM (ih o hk)

/-- On a machine that does not look at the log, what was done before makes no difference. -/
theorem Prog.follow_log {M : Machine Cmd Res Choice E σ} {T : ℕ} (hM : ∀ log log', M log = M log')
    {p : Prog Cmd Res α} : ∀ {chs : List Choice} (log log' : Log Cmd Res E) {s : σ},
      (p.follow M T chs log s).map Prod.fst = (p.follow M T chs log' s).map Prod.fst := by
  induction p with
  | done o => intro chs log log' s; rfl
  | op c k ih =>
      intro chs log log' s
      cases chs with
      | nil => rfl
      | cons ch chs =>
          simp only [follow, Option.map_bind, hM log log']
          exact congrArg _ (funext fun r => ih r.1 _ _)

/-- The weakest precondition of a sequential run. -/
def Prog.wp (M : Machine Cmd Res Choice E σ) (T : ℕ) (Q : Outcome α → σ → Prop) :
    Prog Cmd Res α → Log Cmd Res E → σ → Prop
  | .done o, _, s => Q o s
  | .op c k, log, s => ∀ ch o e s', M log T c ch s = some (o, e, s') →
      Prog.wp M T Q (k o) (⟨T, c, o, e⟩ :: log) s'

variable {M : Machine Cmd Res Choice E σ} {T : ℕ} {Q R : Outcome α → σ → Prop}

theorem Prog.Runs.post {p : Prog Cmd Res α} {log log' : Log Cmd Res E} {s s' : σ} {o : Outcome α}
    (hrun : p.Runs M T log s o log' s') (h : p.wp M T Q log s) : Q o s' := by
  induction hrun with
  | done => exact h
  | op hM _ ih => exact ih (h _ _ _ _ hM)

theorem Prog.wp.mono {p : Prog Cmd Res α} (hQR : ∀ o s, Q o s → R o s) :
    ∀ {log s}, p.wp M T Q log s → p.wp M T R log s := by
  induction p with
  | done o => exact fun h => hQR _ _ h
  | op c k ih => exact fun h ch o e s' hM => ih o (h ch o e s' hM)

theorem Prog.wp.handle {p : Prog Cmd Res β} {f : Outcome β → Prog Cmd Res α} :
    ∀ {log s}, p.wp M T (fun o s' => ∀ log', (f o).wp M T Q log' s') log s →
      (p.handle f).wp M T Q log s := by
  induction p with
  | done o => exact fun h => h _
  | op c k ih => exact fun h ch o e s' hM => ih o (h ch o e s' hM)

theorem Prog.wp.bind {p : Prog Cmd Res β} {f : β → Prog Cmd Res α} {log : Log Cmd Res E} {s : σ}
    (h : p.wp M T (fun o s' => ∀ log', (leave f o).wp M T Q log' s') log s) :
    (p >>= f).wp M T Q log s :=
  Prog.wp.handle h

theorem Prog.wp.mapErr {p : Prog Cmd Res α} {f : GoError → GoError} {log : Log Cmd Res E} {s : σ}
    (h : p.wp M T (fun o s' => Q (o.mapErr f) s') log s) : (p.mapErr f).wp M T Q log s :=
  Prog.wp.handle (h.mono fun o _ ho _ => by cases o <;> exact ho)

/-! ### Preconditions for a run and its log -/

/-- The weakest precondition of a sequential run whose log matters. -/
def Prog.wlp (M : Machine Cmd Res Choice E σ) (T : ℕ)
    (Q : Outcome α → Log Cmd Res E → σ → Prop) : Prog Cmd Res α → Log Cmd Res E → σ → Prop
  | .done o, log, s => Q o log s
  | .op c k, log, s => ∀ ch o e s', M log T c ch s = some (o, e, s') →
      Prog.wlp M T Q (k o) (⟨T, c, o, e⟩ :: log) s'

variable {Q' R' : Outcome α → Log Cmd Res E → σ → Prop}

@[simp] theorem Prog.wlp_pure {a : α} {log : Log Cmd Res E} {s : σ} :
    (pure a : Prog Cmd Res α).wlp M T Q' log s ↔ Q' (.returned a) log s := Iff.rfl

theorem Prog.Runs.postLog {p : Prog Cmd Res α} {log log' : Log Cmd Res E} {s s' : σ}
    {o : Outcome α} (hrun : p.Runs M T log s o log' s') (h : p.wlp M T Q' log s) : Q' o log' s' := by
  induction hrun with
  | done => exact h
  | op hM _ ih => exact ih (h _ _ _ _ hM)

theorem Prog.wlp.mono {p : Prog Cmd Res α} (hQR : ∀ o log s, Q' o log s → R' o log s) :
    ∀ {log s}, p.wlp M T Q' log s → p.wlp M T R' log s := by
  induction p with
  | done o => exact fun h => hQR _ _ _ h
  | op c k ih => exact fun h ch o e s' hM => ih o (h ch o e s' hM)

theorem Prog.wlp.handle {p : Prog Cmd Res β} {f : Outcome β → Prog Cmd Res α} :
    ∀ {log s}, p.wlp M T (fun o log' s' => (f o).wlp M T Q' log' s') log s →
      (p.handle f).wlp M T Q' log s := by
  induction p with
  | done o => exact fun h => h
  | op c k ih => exact fun h ch o e s' hM => ih o (h ch o e s' hM)

theorem Prog.wlp.bind {p : Prog Cmd Res β} {f : β → Prog Cmd Res α} {log : Log Cmd Res E} {s : σ}
    (h : p.wlp M T (fun o log' s' => (leave f o).wlp M T Q' log' s') log s) :
    (p >>= f).wlp M T Q' log s :=
  Prog.wlp.handle h

theorem Prog.wlp.mapErr {p : Prog Cmd Res α} {f : GoError → GoError} {log : Log Cmd Res E} {s : σ}
    (h : p.wlp M T (fun o log' s' => Q' (o.mapErr f) log' s') log s) :
    (p.mapErr f).wlp M T Q' log s :=
  Prog.wlp.handle (h.mono fun o _ _ ho => by cases o <;> exact ho)

end Sequential

/-! ## Systems -/

structure System (Cmd : Type) (Res : Cmd → Type) (Choice E σ Call Env Answer : Type) where
  machine : Machine Cmd Res Choice E σ
  body : Call → Prog Cmd Res Answer
  /-- A step of the environment, such as the passing of time. -/
  env : Env → σ → Option σ
  /-- What the shared state does when a thread disappears. -/
  crash : ℕ → σ → σ

/-- A thread keeps the call it was started with. A crashed thread has no program
left. -/
structure Thread (Cmd : Type) (Res : Cmd → Type) (Call Answer : Type) where
  call : Call
  prog : Option (Prog Cmd Res Answer)

inductive Action (Choice Call Env : Type) where
  | spawn (c : Call)
  | step (T : ℕ) (ch : Choice)
  | crash (T : ℕ)
  | env (e : Env)

namespace System

variable {Cmd : Type} {Res : Cmd → Type} {Choice E σ Call Env Answer : Type}

/-- The shared state, the threads started so far, and the log of their steps. A
thread's number is its position in the pool. -/
structure State (_ : System Cmd Res Choice E σ Call Env Answer) where
  world : σ
  pool : List (Thread Cmd Res Call Answer)
  log : Log Cmd Res E

variable (S : System Cmd Res Choice E σ Call Env Answer)

/-- A system starts with no threads. -/
def init (w : σ) : S.State := ⟨w, [], []⟩

/-- One step of thread `T`, when it is running and its next command is enabled. -/
def stepThread (T : ℕ) (ch : Choice) (s : S.State) : Option S.State :=
  match s.pool[T]? with
  | some ⟨call, some (.op c k)⟩ =>
    (S.machine s.log T c ch s.world).map fun (o, e, w) =>
      { world := w, pool := s.pool.set T ⟨call, some (k o)⟩, log := ⟨T, c, o, e⟩ :: s.log }
  | _ => none

def next (s : S.State) : Action Choice Call Env → Option S.State
  | .spawn c => some { s with pool := s.pool ++ [⟨c, some (S.body c)⟩] }
  | .step T ch => S.stepThread T ch s
  | .crash T =>
    match s.pool[T]? with
    | some ⟨call, some (.op _ _)⟩ =>
      some { s with world := S.crash T s.world, pool := s.pool.set T ⟨call, none⟩ }
    | _ => none
  | .env e => (S.env e s.world).map fun w => { s with world := w }

def run : S.State → List (Action Choice Call Env) → Option S.State
  | s, [] => some s
  | s, a :: as => (S.next s a).bind (run · as)

/-- `T` has finished call `c` with outcome `o`. -/
def State.Finished {S : System Cmd Res Choice E σ Call Env Answer} (s : S.State) (T : ℕ) (c : Call)
    (o : Outcome Answer) : Prop :=
  s.pool[T]? = some ⟨c, some (.done o)⟩

/-- What `T` has finished, for evaluating concrete runs. -/
def State.finished? {S : System Cmd Res Choice E σ Call Env Answer} (s : S.State) (T : ℕ) :
    Option (Call × Outcome Answer) :=
  match s.pool[T]? with
  | some ⟨c, some (.done o)⟩ => some (c, o)
  | _ => none

variable {S}

/-- A concrete run and what is checked of its last state. -/
theorem exists_of_any {α : Type} {x : Option α} {p : α → Prop} [DecidablePred p]
    (h : x.any (fun a => decide (p a)) = true) : ∃ a, x = some a ∧ p a := by
  obtain ⟨a, hx, hp⟩ := (Option.any_eq_true _ _).mp h
  exact ⟨a, hx, of_decide_eq_true hp⟩

theorem finished_iff {s : S.State} {T : ℕ} {c : Call} {o : Outcome Answer} :
    s.finished? T = some (c, o) ↔ s.Finished T c o := by
  unfold State.finished? State.Finished
  split <;> simp_all

theorem run_cons {s s' : S.State} {a : Action Choice Call Env} {as : List _} :
    S.run s (a :: as) = some s' ↔ ∃ s₁, S.next s a = some s₁ ∧ S.run s₁ as = some s' := by
  simp [run, Option.bind_eq_some_iff]

theorem stepThread_eq_some {T : ℕ} {ch : Choice} {s s' : S.State} :
    S.stepThread T ch s = some s' ↔ ∃ call c k o e w, s.pool[T]? = some ⟨call, some (.op c k)⟩ ∧
      S.machine s.log T c ch s.world = some (o, e, w) ∧
      s' = ⟨w, s.pool.set T ⟨call, some (k o)⟩, ⟨T, c, o, e⟩ :: s.log⟩ := by
  unfold stepThread
  constructor
  · intro h
    split at h
    · rename_i call c k hT
      obtain ⟨⟨o, e, w⟩, hM, rfl⟩ := Option.map_eq_some_iff.mp h
      exact ⟨call, c, k, o, e, w, hT, hM, rfl⟩
    · cases h
  · rintro ⟨call, c, k, o, e, w, hT, hM, rfl⟩
    simp [hT, hM]

/-- A step of a run only adds to the log. -/
theorem next_log {s s' : S.State} {a : Action Choice Call Env} (h : S.next s a = some s') :
    s.log <:+ s'.log := by
  cases a with
  | spawn c => cases h; exact List.suffix_refl _
  | step T ch =>
      obtain ⟨call, c, k, o, e, w, _, _, rfl⟩ := stepThread_eq_some.mp h
      exact List.suffix_cons _ _
  | crash T =>
      simp only [next] at h
      split at h
      · cases h; exact List.suffix_refl _
      · cases h
  | env e =>
      obtain ⟨w, _, rfl⟩ := Option.map_eq_some_iff.mp h
      exact List.suffix_refl _

theorem run_log {as : List (Action Choice Call Env)} :
    ∀ {s s' : S.State}, S.run s as = some s' → s.log <:+ s'.log := by
  induction as with
  | nil => intro s s' h; cases h; exact List.suffix_refl _
  | cons a as ih =>
      intro s s' h
      obtain ⟨s₁, h₁, h₂⟩ := run_cons.mp h
      exact (next_log h₁).trans (ih h₂)

theorem run_append {as bs : List (Action Choice Call Env)} :
    ∀ {s s' : S.State}, S.run s (as ++ bs) = some s' ↔
      ∃ s₁, S.run s as = some s₁ ∧ S.run s₁ bs = some s' := by
  induction as with
  | nil => intro s s'; simp [run]
  | cons a as ih =>
      intro s s'
      simp only [List.cons_append, run_cons, ih]
      constructor
      · rintro ⟨s₁, h₁, s₂, h₂, h₃⟩
        exact ⟨s₂, ⟨s₁, h₁, h₂⟩, h₃⟩
      · rintro ⟨s₂, ⟨s₁, h₁, h₂⟩, h₃⟩
        exact ⟨s₁, h₁, s₂, h₂, h₃⟩

/-! ### Calls -/

/-- The calls that a run starts, in order. -/
def spawned (as : List (Action Choice Call Env)) : List Call :=
  as.filterMap fun
    | .spawn c => some c
    | _ => none

/-- A thread goes on with another program and the same call. -/
theorem map_call_set {pool : List (Thread Cmd Res Call Answer)} {T : ℕ} {call : Call}
    {p q : Option (Prog Cmd Res Answer)} (hT : pool[T]? = some ⟨call, p⟩) :
    (pool.set T ⟨call, q⟩).map Thread.call = pool.map Thread.call := by
  obtain ⟨hlt, heq⟩ := List.getElem?_eq_some_iff.mp hT
  have hlt' : T < (pool.map Thread.call).length := by rwa [List.length_map]
  have hcall : (pool.map Thread.call)[T] = call := by rw [List.getElem_map, heq]
  rw [List.map_set]
  change (pool.map Thread.call).set T call = _
  conv_lhs => rw [← hcall]
  exact List.set_getElem_self _

theorem next_calls {s s₁ : S.State} {a : Action Choice Call Env} (h : S.next s a = some s₁) :
    s₁.pool.map Thread.call = s.pool.map Thread.call ++ spawned [a] := by
  cases a with
  | spawn c =>
      cases h
      rw [List.map_append]
      rfl
  | env e =>
      obtain ⟨w, -, rfl⟩ := Option.map_eq_some_iff.mp h
      exact (List.append_nil _).symm
  | step T ch =>
      obtain ⟨call, c, k, o, e, w, hT, hM, rfl⟩ := stepThread_eq_some.mp h
      exact (map_call_set hT).trans (List.append_nil _).symm
  | crash T =>
      simp only [System.next] at h
      split at h
      · rename_i call c k hT
        cases h
        exact (map_call_set hT).trans (List.append_nil _).symm
      · cases h

theorem run_calls {as : List (Action Choice Call Env)} : ∀ {s s' : S.State}, S.run s as = some s' →
    s'.pool.map Thread.call = s.pool.map Thread.call ++ spawned as := by
  induction as with
  | nil => intro s s' h; cases h; exact (List.append_nil _).symm
  | cons a as ih =>
      intro s s' h
      obtain ⟨s₁, h₁, h₂⟩ := run_cons.mp h
      rw [ih h₂, next_calls h₁, List.append_assoc]
      exact congrArg _ (List.filterMap_append (l := [a])).symm

/-- A thread keeps its call. -/
theorem run_call {as : List (Action Choice Call Env)} {s s' : S.State} (h : S.run s as = some s') {T : ℕ}
    {c : Call} {p : Option (Prog Cmd Res Answer)} (hT : s.pool[T]? = some ⟨c, p⟩) :
    ∃ p', s'.pool[T]? = some ⟨c, p'⟩ := by
  have hcall : (s'.pool.map Thread.call)[T]? = some c := by
    have hlt := (List.getElem?_eq_some_iff.mp hT).1
    rw [run_calls h, List.getElem?_append_left (by rwa [List.length_map]), List.getElem?_map, hT]
    rfl
  rw [List.getElem?_map] at hcall
  obtain ⟨t, hT', rfl⟩ := Option.map_eq_some_iff.mp hcall
  exact ⟨t.prog, hT'⟩

/-- What every action of the run keeps, the run keeps. -/
theorem run_invariant {P : S.State → Prop} {as : List (Action Choice Call Env)} : ∀ {s s' : S.State},
    (∀ a ∈ as, ∀ {s s' : S.State}, P s → S.next s a = some s' → P s') → P s → S.run s as = some s' →
      P s' := by
  induction as with
  | nil => intro s s' _ hs h; cases h; exact hs
  | cons a as ih =>
      intro s s' hstep hs h
      obtain ⟨s₁, h₁, h₂⟩ := run_cons.mp h
      obtain ⟨ha, has⟩ := List.forall_mem_cons.mp hstep
      exact ih has (ha hs h₁) h₂

/-- Every record of the log was made by a step of the run. -/
theorem run_record {as : List (Action Choice Call Env)} {r : Record Cmd Res E} {log : Log Cmd Res E} :
    ∀ {s s' : S.State}, S.run s as = some s' → r :: log <:+ s'.log → ¬r :: log <:+ s.log →
      ∃ as₁ as₂ s₁ s₂ ch, S.run s as₁ = some s₁ ∧ s₁.log = log ∧
        S.machine log r.thread r.cmd ch s₁.world = some (r.answer, r.effect, s₂.world) ∧
        s₂.log = r :: log ∧ S.next s₁ (.step r.thread ch) = some s₂ ∧ S.run s₂ as₂ = some s' ∧
        as = as₁ ++ .step r.thread ch :: as₂ := by
  induction as with
  | nil => intro s s' h hsuf hnew; cases h; exact absurd hsuf hnew
  | cons a as ih =>
      intro s s' h hsuf hnew
      obtain ⟨s₁, h₁, h₂⟩ := run_cons.mp h
      by_cases hold : r :: log <:+ s₁.log
      · -- It was this very step.
        cases a with
        | spawn c => cases h₁; exact absurd hold hnew
        | crash T =>
            simp only [next] at h₁
            split at h₁
            · cases h₁; exact absurd hold hnew
            · cases h₁
        | env e =>
            obtain ⟨w, _, rfl⟩ := Option.map_eq_some_iff.mp h₁
            exact absurd hold hnew
        | step T ch =>
            obtain ⟨call, c, k, o, e, w, _, hM, rfl⟩ := stepThread_eq_some.mp h₁
            rcases List.suffix_cons_iff.mp hold with heq | hold
            · cases heq
              exact ⟨[], as, s, _, ch, rfl, rfl, hM, rfl, h₁, h₂, rfl⟩
            · exact absurd hold hnew
      · obtain ⟨as₁, as₂, s₂, s₃, ch, hrun, hlog, hM, hlog₃, hnext, hrest, rfl⟩ := ih h₂ hsuf hold
        exact ⟨a :: as₁, as₂, s₂, s₃, ch, run_cons.mpr ⟨s₁, h₁, hrun⟩, hlog, hM, hlog₃, hnext, hrest, rfl⟩

/-! ### Soundness of an invariant -/

variable (S) {Fact : Type}

/-- What has to be shown: every call issues allowed commands only and ends in its
postcondition, and every allowed command keeps the invariant. -/
structure Sound (see : Observer Cmd Res Fact) (allowed : Call → List Fact → Cmd → Prop)
    (post : Call → List Fact → Outcome Answer → Prop) (inv : Log Cmd Res E → σ → Prop) :
    Prop where
  body : ∀ c, (S.body c).Spec see (allowed c) (post c) []
  step : ∀ {log w T call c ch o e w'}, inv log w → allowed call (log.facts see T) c →
    S.machine log T c ch w = some (o, e, w') → inv (⟨T, c, o, e⟩ :: log) w'
  env : ∀ {log w e w'}, inv log w → S.env e w = some w' → inv log w'
  crash : ∀ {log w T}, inv log w → inv log (S.crash T w)

variable {S} {see : Observer Cmd Res Fact} {allowed : Call → List Fact → Cmd → Prop}
variable {post : Call → List Fact → Outcome Answer → Prop} {inv : Log Cmd Res E → σ → Prop}

/-- The invariant of whole runs. -/
structure Good (S : System Cmd Res Choice E σ Call Env Answer) (see : Observer Cmd Res Fact)
    (allowed : Call → List Fact → Cmd → Prop) (post : Call → List Fact → Outcome Answer → Prop)
    (inv : Log Cmd Res E → σ → Prop) (s : S.State) : Prop where
  inv : inv s.log s.world
  live : ∀ {T : ℕ} {c p}, s.pool[T]? = some ⟨c, some p⟩ →
    p.Spec see (allowed c) (post c) (s.log.facts see T)
  fresh : ∀ {r}, r ∈ s.log → r.thread < s.pool.length
  /-- Every step was allowed when it was made. -/
  obeyed : ∀ {r} {log : Log Cmd Res E}, r :: log <:+ s.log → ∀ {c p}, s.pool[r.thread]? = some ⟨c, p⟩ →
    allowed c (log.facts see r.thread) r.cmd

theorem Good.init {w : σ} (hi : inv [] w) : Good S see allowed post inv (S.init w) :=
  ⟨hi, fun h => by simp [System.init] at h, fun h => by simp [System.init] at h,
    fun h => by simp [System.init] at h⟩

/-- A thread that has not started has no facts. -/
theorem Good.idle {s : S.State} (hg : Good S see allowed post inv s) {T : ℕ}
    (hT : s.pool.length ≤ T) : s.log.facts see T = [] := by
  simp only [Log.facts, List.filterMap_eq_nil_iff, ite_eq_right_iff]
  intro r hr hrT
  have := hg.fresh hr
  omega

/-- A step of thread `T` adds one allowed record of `T`. -/
theorem Good.step (hS : S.Sound see allowed post inv) {T : ℕ} {ch : Choice} {s s' : S.State}
    (hg : Good S see allowed post inv s) (h : S.stepThread T ch s = some s') :
    Good S see allowed post inv s' := by
  obtain ⟨call, c, k, o, e, w, hT, hM, rfl⟩ := stepThread_eq_some.mp h
  obtain ⟨hc, hk⟩ := hg.live hT
  have hlt : T < s.pool.length := (List.getElem?_eq_some_iff.mp hT).1
  have hcall : ∀ {T' : ℕ} {c' p}, (s.pool.set T ⟨call, some (k o)⟩)[T']? = some ⟨c', p⟩ →
      ∃ p', s.pool[T']? = some ⟨c', p'⟩ := by
    intro T' c' p hT'
    rcases eq_or_ne T' T with rfl | hne
    · rw [List.getElem?_set_self hlt] at hT'
      cases hT'
      exact ⟨_, hT⟩
    · exact ⟨p, by rwa [List.getElem?_set_ne hne.symm] at hT'⟩
  refine ⟨hS.step hg.inv hc hM, fun {T' c' p} hT' => ?_, fun {r} hr => ?_,
    fun {r log} hsuf c' p hT' => ?_⟩
  · rcases eq_or_ne T' T with rfl | hne
    · rw [List.getElem?_set_self hlt] at hT'
      cases hT'
      rw [Log.facts_cons_self]
      exact hk o
    · rw [List.getElem?_set_ne hne.symm] at hT'
      rw [Log.facts_cons_ne hne.symm]
      exact hg.live hT'
  · rw [List.length_set]
    rcases List.mem_cons.mp hr with rfl | hr
    · exact hlt
    · exact hg.fresh hr
  · obtain ⟨p', hT'⟩ := hcall hT'
    rcases List.suffix_cons_iff.mp hsuf with heq | hsuf
    · cases heq
      rw [hT] at hT'
      cases hT'
      exact hc
    · exact hg.obeyed hsuf hT'

theorem Good.next (hS : S.Sound see allowed post inv) {a : Action Choice Call Env}
    {s s' : S.State} (hg : Good S see allowed post inv s) (h : S.next s a = some s') :
    Good S see allowed post inv s' := by
  cases a with
  | step T ch => exact hg.step hS h
  | spawn c =>
      cases h
      refine ⟨hg.inv, fun {T c' p} hT => ?_, fun {r} hr => ?_, fun {r log} hsuf c' p hT => ?_⟩
      · rw [List.getElem?_append] at hT
        split at hT
        · exact hg.live hT
        · rename_i hge
          obtain ⟨hlt, heq⟩ := List.getElem?_eq_some_iff.mp hT
          rw [List.getElem_singleton] at heq
          cases heq
          rw [hg.idle (by omega)]
          exact hS.body c
      · simp only [List.length_append, List.length_singleton]
        have := hg.fresh hr
        omega
      · have hlt := hg.fresh (hsuf.mem List.mem_cons_self)
        rw [List.getElem?_append_left hlt] at hT
        exact hg.obeyed hsuf hT
  | crash T =>
      simp only [System.next] at h
      split at h
      · rename_i call c k hT
        cases h
        have hlt : T < s.pool.length := (List.getElem?_eq_some_iff.mp hT).1
        refine ⟨hS.crash hg.inv, fun {T' c' p} hT' => ?_, fun {r} hr => ?_,
          fun {r log} hsuf c' p hT' => ?_⟩
        · rcases eq_or_ne T' T with rfl | hne
          · rw [List.getElem?_set_self hlt] at hT'
            cases hT'
          · rw [List.getElem?_set_ne hne.symm] at hT'
            exact hg.live hT'
        · rw [List.length_set]
          exact hg.fresh hr
        · rcases eq_or_ne r.thread T with hr | hne
          · rw [hr, List.getElem?_set_self hlt] at hT'
            cases hT'
            exact hg.obeyed hsuf (hr ▸ hT)
          · rw [List.getElem?_set_ne hne.symm] at hT'
            exact hg.obeyed hsuf hT'
      · cases h
  | env e =>
      obtain ⟨w, hw, rfl⟩ := Option.map_eq_some_iff.mp h
      exact ⟨hS.env hg.inv hw, hg.live, hg.fresh, hg.obeyed⟩

/-- Every state of every run is good. -/
theorem Good.run (hS : S.Sound see allowed post inv) {as : List (Action Choice Call Env)} :
    ∀ {s s' : S.State}, Good S see allowed post inv s → S.run s as = some s' →
      Good S see allowed post inv s' := by
  induction as with
  | nil => intro s s' hg h; cases h; exact hg
  | cons a as ih =>
      intro s s' hg h
      obtain ⟨s₁, h₁, h₂⟩ := run_cons.mp h
      exact ih (hg.next hS h₁) h₂

/-- A record of a run was made in a good state, by a command that was allowed there, and
left a good state. -/
theorem Good.record (hS : S.Sound see allowed post inv) {w : σ} (hi : inv [] w)
    {as : List (Action Choice Call Env)} {s : S.State} (h : S.run (S.init w) as = some s)
    {r : Record Cmd Res E} {log : Log Cmd Res E} (hr : r :: log <:+ s.log) :
    ∃ (s₁ s₂ : S.State) (ch : Choice) (call : Call), Good S see allowed post inv s₁ ∧
      s₁.log = log ∧ allowed call (log.facts see r.thread) r.cmd ∧
      S.machine log r.thread r.cmd ch s₁.world = some (r.answer, r.effect, s₂.world) ∧
      Good S see allowed post inv s₂ ∧ s₂.log = r :: log := by
  obtain ⟨as₁, as₂, s₁, s₂, ch, h₁, hlog, hM, hlog₂, hnext, -, -⟩ :=
    run_record h hr (by simp [System.init])
  have hg₁ := (Good.init hi).run hS h₁
  have hg₂ := hg₁.next hS hnext
  have hlt := hg₂.fresh (r := r) (by rw [hlog₂]; exact List.mem_cons_self)
  exact ⟨s₁, s₂, ch, _, hg₁, hlog, hg₂.obeyed (by rw [hlog₂]) (List.getElem?_eq_getElem hlt), hM,
    hg₂, hlog₂⟩

theorem Good.finished {s : S.State} {T : ℕ} {c : Call} {o : Outcome Answer}
    (hg : Good S see allowed post inv s) (h : s.Finished T c o) :
    post c (s.log.facts see T) o :=
  hg.live h

/-- A fact of a thread comes from a command that was allowed after the facts before it. -/
theorem Good.allowed_of_fact {s : S.State} {T : ℕ} {c : Call} {p} {f : Fact}
    (hg : Good S see allowed post inv s) (hT : s.pool[T]? = some ⟨c, p⟩)
    (hf : f ∈ s.log.facts see T) :
    ∃ (r : _) (log : Log Cmd Res E), r :: log <:+ s.log ∧ r.thread = T ∧ see r.cmd r.answer = some f ∧
      allowed c (log.facts see T) r.cmd := by
  obtain ⟨r, hr, rfl, hsee⟩ := Log.mem_facts.mp hf
  obtain ⟨post, log, heq⟩ := List.append_of_mem hr
  have hsuf : r :: log <:+ s.log := ⟨post, heq.symm⟩
  exact ⟨r, log, hsuf, rfl, hsee, hg.obeyed hsuf hT⟩

/-- What the first facts of a thread satisfy, and every allowed command keeps, all its facts
satisfy. -/
theorem Good.facts_invariant {P : List Fact → Prop} {s : S.State} {T : ℕ} {c : Call} {p}
    (hg : Good S see allowed post inv s) (hT : s.pool[T]? = some ⟨c, p⟩) (hnil : P [])
    (hstep : ∀ {F cmd} (o : Outcome (Res cmd)), P F → allowed c F cmd →
      P ((see cmd o).toList ++ F)) : P (s.log.facts see T) := by
  suffices hsuffix : ∀ log : Log Cmd Res E, log <:+ s.log → P (log.facts see T) from
    hsuffix s.log (List.suffix_refl _)
  intro log
  induction log with
  | nil => exact fun _ => hnil
  | cons r log ih =>
      intro hsuf
      have hlog := ih ((List.suffix_cons _ _).trans hsuf)
      rcases eq_or_ne r.thread T with rfl | hne
      · rw [show r = ⟨r.thread, r.cmd, r.answer, r.effect⟩ from rfl, Log.facts_cons_self]
        exact hstep r.answer hlog (hg.obeyed hsuf hT)
      · rw [show r = ⟨r.thread, r.cmd, r.answer, r.effect⟩ from rfl, Log.facts_cons_ne hne]
        exact hlog

/-- A thread that knows something after which it may do nothing more has finished. -/
theorem Good.finished_of_fact (hS : S.Sound see allowed post inv) {w : σ} (hi : inv [] w) {f : Fact}
    (hlast : ∀ {call F c}, f ∈ F → ¬allowed call F c) {as : List (Action Choice Call Env)} {s : S.State}
    (h : S.run (S.init w) as = some s) {T : ℕ} (hf : f ∈ s.log.facts see T) :
    ∃ c o, s.Finished T c o := by
  suffices hrun : ∀ {as : List (Action Choice Call Env)} {s s' : S.State}, Good S see allowed post inv s →
      (∀ T, f ∈ s.log.facts see T → ∃ c o, s.Finished T c o) → S.run s as = some s' →
      ∀ T, f ∈ s'.log.facts see T → ∃ c o, s'.Finished T c o from
    hrun (Good.init hi) (fun T hf => by cases hf) h T hf
  intro as
  induction as with
  | nil => intro s s' _ hdone h; cases h; exact hdone
  | cons a as ih =>
      intro s s' hg hdone h
      obtain ⟨s₁, h₁, h₂⟩ := run_cons.mp h
      refine ih (hg.next hS h₁) (fun T hf => ?_) h₂
      cases a with
      | spawn c =>
          cases h₁
          obtain ⟨c, o, hT⟩ := hdone T hf
          exact ⟨c, o, (List.getElem?_append_left (List.getElem?_eq_some_iff.mp hT).1).trans hT⟩
      | env e =>
          obtain ⟨w, -, rfl⟩ := Option.map_eq_some_iff.mp h₁
          exact hdone T hf
      | crash T' =>
          simp only [System.next] at h₁
          split at h₁
          · rename_i call c k hT'
            cases h₁
            obtain ⟨c, o, hT⟩ := hdone T hf
            refine ⟨c, o, (List.getElem?_set_ne ?_).trans hT⟩
            rintro rfl
            cases hT'.symm.trans hT
          · cases h₁
      | step T' ch =>
          have hg₁ := hg.next hS h₁
          obtain ⟨call, c, k, o, e, w, hT', hM, rfl⟩ := stepThread_eq_some.mp h₁
          rcases eq_or_ne T' T with rfl | hne
          · have hself := List.getElem?_set_self (a := ⟨call, some (k o)⟩) (List.getElem?_eq_some_iff.mp hT').1
            have hspec := hg₁.live hself
            -- A program that goes on would issue a command.
            cases hk : k o with
            | done o' =>
                rw [hk] at hself
                exact ⟨call, o', hself⟩
            | op c' k' =>
                rw [hk] at hspec
                exact absurd hspec.1 (hlast hf)
          · obtain ⟨c, o, hT⟩ := hdone T (by rwa [Log.facts_cons_ne hne] at hf)
            exact ⟨c, o, (List.getElem?_set_ne hne).trans hT⟩

end System
end Go42
