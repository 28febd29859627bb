-- SUMMARY: Unwinding: when the steps of some threads of a system cannot be noticed, a run without them exists and looks the same to all others.
import Go42.Lib.System

/-!
# Hidden threads

Some calls of a system are hidden. Two states are compared by a relation on logs and
shared states; the threads of all other calls have to be the same in both. A step of
such a thread has to lead to related states again, from both or from neither, and a step
of a hidden thread must not lead out of the relation.
-/

namespace Go42

/-- Related options stay related under functions that keep to the relation. -/
theorem optionRel_map {α β γ δ : Type} {r : α → β → Prop} {r' : γ → δ → Prop} {f : α → γ}
    {g : β → δ} (hfg : ∀ a b, r a b → r' (f a) (g b)) {x : Option α} {y : Option β}
    (h : Option.Rel r x y) : Option.Rel r' (x.map f) (y.map g) := by
  cases h with
  | none => exact .none
  | some hab => exact .some (hfg _ _ hab)

theorem optionRel_mono {α β : Type} {r r' : α → β → Prop} (hr : ∀ a b, r a b → r' a b)
    {x : Option α} {y : Option β} (h : Option.Rel r x y) : Option.Rel r' x y := by
  cases h with
  | none => exact .none
  | some hab => exact .some (hr _ _ hab)

theorem optionRel_some_left {α β : Type} {r : α → β → Prop} {a : α} {y : Option β}
    (h : Option.Rel r (some a) y) : ∃ b, y = some b ∧ r a b := by
  cases h with
  | some hab => exact ⟨_, rfl, hab⟩

theorem optionRel_some_right {α β : Type} {r : α → β → Prop} {x : Option α} {b : β}
    (h : Option.Rel r x (some b)) : ∃ a, x = some a ∧ r a b := by
  cases h with
  | some hab => exact ⟨_, rfl, hab⟩

theorem isSome_eq_of_optionRel {α β : Type} {r : α → β → Prop} {x : Option α} {y : Option β}
    (h : Option.Rel r x y) : x.isSome = y.isSome := by
  cases h <;> rfl

namespace System

variable {Cmd : Type} {Res : Cmd → Type} {Choice E σ Call Env Answer : Type}

/-- The thread that an action is about. -/
def thread? : Action Choice Call Env → Option ℕ
  | .step T _ | .crash T => some T
  | .spawn _ | .env _ => none

/-- An action of a thread whose call is hidden, when the threads run `calls`. -/
def hides (hidden : Call → Bool) (calls : List Call) (a : Action Choice Call Env) : Bool :=
  (thread? a).any fun T => calls[T]?.any hidden

/-- A run without what its hidden threads do. -/
def withoutHidden (hidden : Call → Bool) (as : List (Action Choice Call Env)) :
    List (Action Choice Call Env) :=
  as.filter fun a => !hides hidden (spawned as) a

/-- What has to be shown, with an invariant `I` of both runs. -/
structure Unwinds (S : System Cmd Res Choice E σ Call Env Answer) (hidden : Call → Bool)
    (I : S.State → Prop) (R : Log Cmd Res E → σ → Log Cmd Res E → σ → Prop) : Prop where
  keeps : ∀ {s s' : S.State} {a : Action Choice Call Env}, I s → S.next s a = some s' → I s'
  step : ∀ {s s' : S.State} {T : ℕ} {ch : Choice} {call : Call} {c : Cmd}
    {k : Outcome (Res c) → Prog Cmd Res Answer}, I s → I s' → R s.log s.world s'.log s'.world →
    hidden call = false → s.pool[T]? = some ⟨call, some (.op c k)⟩ →
    s'.pool[T]? = some ⟨call, some (.op c k)⟩ →
    Option.Rel (fun r r' => r.1 = r'.1 ∧
        R (⟨T, c, r.1, r.2.1⟩ :: s.log) r.2.2 (⟨T, c, r'.1, r'.2.1⟩ :: s'.log) r'.2.2)
      (S.machine s.log T c ch s.world) (S.machine s'.log T c ch s'.world)
  hide : ∀ {s s' : S.State} {T : ℕ} {ch : Choice} {call : Call} {c : Cmd}
    {k : Outcome (Res c) → Prog Cmd Res Answer} {o : Outcome (Res c)} {e : E} {w : σ}, I s → I s' →
    R s.log s.world s'.log s'.world → hidden call = true →
    s.pool[T]? = some ⟨call, some (.op c k)⟩ → S.machine s.log T c ch s.world = some (o, e, w) →
    R (⟨T, c, o, e⟩ :: s.log) w s'.log s'.world
  env : ∀ {s s' : S.State} {e : Env}, I s → I s' → R s.log s.world s'.log s'.world →
    Option.Rel (fun w w' => R s.log w s'.log w') (S.env e s.world) (S.env e s'.world)
  crash : ∀ {s s' : S.State} {T : ℕ}, I s → I s' → R s.log s.world s'.log s'.world →
    R s.log (S.crash T s.world) s'.log (S.crash T s'.world)
  hideCrash : ∀ {s s' : S.State} {T : ℕ} {call : Call} {p : Option (Prog Cmd Res Answer)}, I s →
    I s' → R s.log s.world s'.log s'.world → hidden call = true → s.pool[T]? = some ⟨call, p⟩ →
    R s.log (S.crash T s.world) s'.log s'.world

variable {S : System Cmd Res Choice E σ Call Env Answer} {hidden : Call → Bool} {I : S.State → Prop}
variable {R : Log Cmd Res E → σ → Log Cmd Res E → σ → Prop}

/-- Two states that look the same but for hidden threads. -/
structure Matches (hidden : Call → Bool) (R : Log Cmd Res E → σ → Log Cmd Res E → σ → Prop)
    (s s' : S.State) : Prop where
  world : R s.log s.world s'.log s'.world
  calls : s'.pool.map Thread.call = s.pool.map Thread.call
  threads : ∀ {T : ℕ} {t : Thread Cmd Res Call Answer}, hidden t.call = false →
    (s.pool[T]? = some t ↔ s'.pool[T]? = some t)

theorem Matches.init {w w' : σ} (h : R [] w [] w') :
    Matches hidden R (S.init w) (S.init w') :=
  ⟨h, rfl, fun _ => Iff.rfl⟩

/-- Threads that are not hidden have finished with the same outcomes. -/
theorem Matches.finished {s s' : S.State} (h : Matches hidden R s s') {T : ℕ} {c : Call}
    {o : Outcome Answer} (hc : hidden c = false) : s.Finished T c o ↔ s'.Finished T c o :=
  h.threads hc

/-- The same thread makes the same step in both pools. -/
theorem Matches.set {s s' : S.State} (h : Matches hidden R s s') {T : ℕ} {call : Call}
    {p q : Option (Prog Cmd Res Answer)} (hT : s.pool[T]? = some ⟨call, p⟩)
    (hT' : s'.pool[T]? = some ⟨call, p⟩) {w w' : σ} {log log' : Log Cmd Res E}
    (hR : R log w log' w') :
    Matches hidden R (⟨w, s.pool.set T ⟨call, q⟩, log⟩ : S.State)
      ⟨w', s'.pool.set T ⟨call, q⟩, log'⟩ where
  world := hR
  calls := by rw [map_call_set hT, map_call_set hT', h.calls]
  threads {T' t} hvisible := by
    have hlt : T < s.pool.length := (List.getElem?_eq_some_iff.mp hT).1
    have hlt' : T < s'.pool.length := (List.getElem?_eq_some_iff.mp hT').1
    rcases eq_or_ne T' T with rfl | hne
    · rw [List.getElem?_set_self hlt, List.getElem?_set_self hlt']
    · rw [List.getElem?_set_ne hne.symm, List.getElem?_set_ne hne.symm]
      exact h.threads hvisible

/-- A hidden thread goes on in the first pool only. -/
theorem Matches.setHidden {s s' : S.State} (h : Matches hidden R s s') {T : ℕ} {call : Call}
    {p q : Option (Prog Cmd Res Answer)} (hT : s.pool[T]? = some ⟨call, p⟩)
    (hhidden : hidden call = true) {w : σ} {log : Log Cmd Res E} (hR : R log w s'.log s'.world) :
    Matches hidden R (⟨w, s.pool.set T ⟨call, q⟩, log⟩ : S.State) s' where
  world := hR
  calls := by rw [map_call_set hT, h.calls]
  threads {T' t} hvisible := by
    have hlt : T < s.pool.length := (List.getElem?_eq_some_iff.mp hT).1
    rcases eq_or_ne T' T with rfl | hne
    · have hne : ∀ {p' : Option (Prog Cmd Res Answer)}, (⟨call, p'⟩ : Thread Cmd Res Call Answer) ≠ t := by
        rintro p' rfl
        rw [hhidden] at hvisible
        cases hvisible
      rw [List.getElem?_set_self hlt, ← h.threads hvisible, hT]
      simp [hne]
    · rw [List.getElem?_set_ne hne.symm]
      exact h.threads hvisible

theorem hides_of_getElem? {pool : List (Thread Cmd Res Call Answer)} {T : ℕ}
    {t : Thread Cmd Res Call Answer} (hT : pool[T]? = some t) {a : Action Choice Call Env}
    (ha : thread? a = some T) (calls : List Call) :
    hides hidden (pool.map Thread.call ++ calls) a = hidden t.call := by
  have hlt : T < (pool.map Thread.call).length := by
    rw [List.length_map]
    exact (List.getElem?_eq_some_iff.mp hT).1
  rw [hides, ha, Option.any_some, List.getElem?_append_left hlt, List.getElem?_map, hT]
  rfl

/-- The thread of a visible action is the same in both pools. -/
theorem Matches.getElem?_eq {s s' : S.State} (h : Matches hidden R s s')
    {a : Action Choice Call Env} {T : ℕ} (haT : thread? a = some T) {calls : List Call}
    (ha : hides hidden (s.pool.map Thread.call ++ calls) a = false) :
    s'.pool[T]? = s.pool[T]? ∧ ∀ t, s.pool[T]? = some t → hidden t.call = false := by
  cases hT : s.pool[T]? with
  | none =>
      have hlength := congrArg List.length h.calls
      rw [List.length_map, List.length_map] at hlength
      rw [List.getElem?_eq_none_iff] at hT ⊢
      exact ⟨hlength.trans_le hT, by rintro t ⟨⟩⟩
  | some t =>
      have hvisible : hidden t.call = false := (hides_of_getElem? hT haT calls).symm.trans ha
      refine ⟨(h.threads hvisible).mp hT, ?_⟩
      rintro _ ⟨⟩
      exact hvisible

namespace Unwinds

variable (hS : S.Unwinds hidden I R)
include hS

/-- A visible action is enabled in both states or in neither. -/
theorem next {s s' : S.State} (hI : I s) (hI' : I s') (h : Matches hidden R s s')
    {a : Action Choice Call Env} {calls : List Call}
    (ha : hides hidden (s.pool.map Thread.call ++ calls) a = false) :
    Option.Rel (Matches hidden R) (S.next s a) (S.next s' a) := by
  cases a with
  | spawn c =>
      refine .some ⟨h.world, by simp [h.calls], fun {T t} hvisible => ?_⟩
      have hlength : s'.pool.length = s.pool.length := by
        simpa using congrArg List.length h.calls
      rw [List.getElem?_append, List.getElem?_append, hlength]
      split
      · exact h.threads hvisible
      · rfl
  | env e =>
      apply optionRel_map _ (hS.env hI hI' h.world)
      intro w w' hR
      exact ⟨hR, h.calls, h.threads⟩
  | step T ch =>
      obtain ⟨hsame, hvisible⟩ := h.getElem?_eq rfl ha
      change Option.Rel _ (S.stepThread T ch s) (S.stepThread T ch s')
      rw [stepThread, stepThread, hsame]
      split
      · rename_i call c k hT
        apply optionRel_map _ (hS.step hI hI' h.world (hvisible _ hT) hT (hsame.trans hT))
        rintro ⟨o, e, w⟩ ⟨o', e', w'⟩ ⟨rfl, hR⟩
        exact h.set hT (hsame.trans hT) hR
      · exact .none
  | crash T =>
      obtain ⟨hsame, hvisible⟩ := h.getElem?_eq rfl ha
      simp only [System.next, hsame]
      split
      · rename_i call c k hT
        exact .some (h.set hT (hsame.trans hT) (hS.crash hI hI' h.world))
      · exact .none

/-- A hidden action is not noticed. -/
theorem next_hidden {s s' s₁ : S.State} (hI : I s) (hI' : I s') (h : Matches hidden R s s')
    {a : Action Choice Call Env} {calls : List Call}
    (ha : hides hidden (s.pool.map Thread.call ++ calls) a = true) (hnext : S.next s a = some s₁) :
    Matches hidden R s₁ s' := by
  cases a with
  | spawn c => cases ha
  | env e => cases ha
  | step T ch =>
      obtain ⟨call, c, k, o, e, w, hT, hM, rfl⟩ := stepThread_eq_some.mp hnext
      have hhidden : hidden call = true := (hides_of_getElem? hT rfl calls).symm.trans ha
      exact h.setHidden hT hhidden (hS.hide hI hI' h.world hhidden hT hM)
  | crash T =>
      simp only [System.next] at hnext
      split at hnext
      · rename_i call c k hT
        cases hnext
        have hhidden : hidden call = true := (hides_of_getElem? hT rfl calls).symm.trans ha
        exact h.setHidden hT hhidden (hS.hideCrash hI hI' h.world hhidden hT)
      · cases hnext

/-- Whatever runs, runs without its hidden actions. -/
theorem run {as : List (Action Choice Call Env)} : ∀ {s s' s₁ : S.State}, I s → I s' →
    Matches hidden R s s' → S.run s as = some s₁ → ∃ s₁',
      S.run s' (as.filter fun a => !hides hidden (s.pool.map Thread.call ++ spawned as) a) = some s₁' ∧
        Matches hidden R s₁ s₁' ∧ I s₁ ∧ I s₁' := by
  induction as with
  | nil =>
      intro s s' s₁ hI hI' h hrun
      cases hrun
      exact ⟨s', rfl, h, hI, hI'⟩
  | cons a as ih =>
      intro s s' s₁ hI hI' h hrun
      obtain ⟨s₂, hnext, hrun⟩ := run_cons.mp hrun
      have hI₂ := hS.keeps hI hnext
      have hcalls : s₂.pool.map Thread.call ++ spawned as =
          s.pool.map Thread.call ++ spawned (a :: as) := by
        rw [next_calls hnext, List.append_assoc]
        congr 1
        cases a <;> rfl
      rw [List.filter_cons]
      cases ha : hides hidden (s.pool.map Thread.call ++ spawned (a :: as)) a with
      | true =>
          have h₂ := hS.next_hidden hI hI' h ha hnext
          obtain ⟨s₁', hrun', hrest⟩ := ih hI₂ hI' h₂ hrun
          rw [hcalls] at hrun'
          exact ⟨s₁', hrun', hrest⟩
      | false =>
          have hrel := hS.next hI hI' h ha
          rw [hnext] at hrel
          cases hnext' : S.next s' a with
          | none => rw [hnext'] at hrel; cases hrel
          | some s₂' =>
              rw [hnext'] at hrel
              obtain ⟨s₁', hrun', hrest⟩ := ih hI₂ (hS.keeps hI' hnext')
                (Option.rel_some_some.mp hrel) hrun
              rw [hcalls] at hrun'
              exact ⟨s₁', run_cons.mpr ⟨s₂', hnext', hrun'⟩, hrest⟩

/-- A run from the start. -/
theorem run_init {w : σ} (hI : I (S.init w)) (hR : R [] w [] w)
    {as : List (Action Choice Call Env)} {s : S.State} (h : S.run (S.init w) as = some s) :
    ∃ s', S.run (S.init w) (withoutHidden hidden as) = some s' ∧ Matches hidden R s s' ∧ I s ∧ I s' :=
  hS.run hI hI (.init hR) h

end Unwinds
end System
end Go42
