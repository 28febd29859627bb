-- SUMMARY: Concurrent calls of `AllowRateLimit` on memcached: no update is lost, and no window of time admits more than the limit.
import Go42.Cache.Memcached
import Go42.Lib.Gcra
import Mathlib.Data.List.Perm.Subperm

/-!
# Contention on memcached
-/

namespace Go42.Cache.Memcached

variable {interval burst : ℤ} {key : String} {log : CacheLog} {w w' : World} {T : ℕ} {c : Cmd}
variable {o : Outcome (Res c)} {e : Option Change}

/-! ## What a call knows -/

inductive Fact where
  | read (now : ℤ)
  | got (key : String) (item : Item)
  | stored (item : Item)
deriving DecidableEq

def observe : Observer Cmd Res Fact
  | .unixMicro, .returned now => some (.read now)
  | .get key, .returned item => some (.got key item)
  | .add item, .returned _ => some (.stored item)
  | .compareAndSwap item, .returned _ => some (.stored item)
  | _, _ => none

def Fact.isStored : Fact → Bool
  | .stored _ => true
  | _ => false

/-- What the clock showed last. -/
def reading (F : List Fact) : Option ℤ :=
  F.findSome? fun
    | .read now => some now
    | _ => none

theorem mem_of_reading {F : List Fact} {now : ℤ} (h : reading F = some now) : .read now ∈ F := by
  obtain ⟨f, hf, hread⟩ := List.exists_of_findSome?_eq_some h
  cases f with
  | read t => cases hread; exact hf
  | got k x => cases hread
  | stored x => cases hread

/-- Nothing is stored yet, and the value to store was computed from the reading of the clock
and the item it replaces. -/
def allowed (interval burst : ℤ) (call : Call) (F : List Fact) (c : Cmd) : Prop :=
  (∀ f ∈ F, f.isStored = false) ∧ match c with
    | .add item => item.key = call.key ∧ ∃ now, reading F = some now ∧
        item.value = formatInt (wrapInt64 (now + intervalMicros interval))
    | .compareAndSwap item => ∃ now got tat, reading F = some now ∧ .got call.key got ∈ F ∧
        item.key = got.key ∧ item.casID = got.casID ∧ parseInt got.value = some tat ∧
        ¬now < wrapInt64 (currentTat tat now - wrapInt64 ((burst - 1) * intervalMicros interval)) ∧
        item.value = formatInt (wrapInt64 (currentTat tat now + intervalMicros interval))
    | _ => True

/-- A call returns true right after it stored, and only then. -/
def post (_ : Call) (F : List Fact) (o : Outcome Bool) : Prop :=
  if o = .returned true then ∃ item F', F = .stored item :: F' ∧ ∀ f ∈ F', f.isStored = false
  else ∀ f ∈ F, f.isStored = false

theorem post_refused {call : Call} {F : List Fact} (hF : ∀ f ∈ F, f.isStored = false)
    {o : Outcome Bool} (ho : o ≠ .returned true) : post call F o := by
  rw [post, if_neg ho]
  exact hF

theorem post_stored {call : Call} {F : List Fact} (hF : ∀ f ∈ F, f.isStored = false) (item : Item) :
    post call (.stored item :: F) (.returned true) := by
  rw [post, if_pos rfl]
  exact ⟨item, F, rfl, hF⟩

/-- How the last command of an attempt ends. -/
inductive StoreEnd (item : Item) (F : List Fact) : List Fact → Outcome (Except GoError Unit) → Prop where
  | stored : StoreEnd item F (.stored item :: F) (.returned (.ok ()))
  | refused {err : GoError} : StoreEnd item F F (.returned (.error err))
  | panicked {v : String} : StoreEnd item F F (.panicked v)

theorem add_keeps {call : Call} {F : List Fact} {item : Item}
    (hc : allowed interval burst call F (.add item)) :
    (Memcached.call (.add item)).attempt.Spec observe (allowed interval burst call) (StoreEnd item F) F := by
  apply Prog.Spec.attempt
  refine Prog.Spec.call hc fun o => ?_
  cases o with
  | returned u => exact .stored
  | failed err => exact .refused
  | panicked v => exact .panicked

theorem compareAndSwap_keeps {call : Call} {F : List Fact} {item : Item}
    (hc : allowed interval burst call F (.compareAndSwap item)) :
    (Memcached.call (.compareAndSwap item)).attempt.Spec observe (allowed interval burst call)
      (StoreEnd item F) F := by
  apply Prog.Spec.attempt
  refine Prog.Spec.call hc fun o => ?_
  cases o with
  | returned u => exact .stored
  | failed err => exact .refused
  | panicked v => exact .panicked

/-- By induction on the attempts that are left. -/
theorem allowLoop_keeps {call : Call} {ttl : ℤ} (n : ℕ) :
    ∀ {F : List Fact}, (∀ f ∈ F, f.isStored = false) →
      (allowLoop call.key (intervalMicros interval) (wrapInt64 ((burst - 1) * intervalMicros interval))
        ttl n).Spec observe (allowed interval burst call) (post call) F := by
  induction n with
  | zero => exact fun hF => post_refused hF nofun
  | succ n ih =>
      intro F hF
      unfold allowLoop
      apply Prog.Spec.seq
      refine Prog.Spec.call ⟨hF, trivial⟩ fun o => ?_
      cases o with
      | failed err => exact post_refused hF nofun
      | panicked v => exact post_refused hF nofun
      | returned u =>
          apply Prog.Spec.seq
          refine Prog.Spec.call ⟨hF, trivial⟩ fun o => ?_
          cases o with
          | failed err => exact post_refused hF nofun
          | panicked v => exact post_refused hF nofun
          | returned now =>
              have hread : ∀ f ∈ Fact.read now :: F, f.isStored = false :=
                List.forall_mem_cons.mpr ⟨rfl, hF⟩
              dsimp only
              split
              · exact post_refused hread nofun
              · apply Prog.Spec.seq
                apply Prog.Spec.attempt
                refine Prog.Spec.call ⟨hread, trivial⟩ fun o => ?_
                cases o with
                | panicked v => exact post_refused hread nofun
                | failed err =>
                    dsimp only
                    split
                    · apply Prog.Spec.seq
                      refine Prog.Spec.mono (fun F' o hend => ?_) (add_keeps ⟨hread, rfl, now, rfl, rfl⟩)
                      cases hend with
                      | stored => exact post_stored hread _
                      | panicked => exact post_refused hread nofun
                      | refused =>
                          dsimp only
                          split
                          · exact ih hread
                          · exact post_refused hread nofun
                    · exact post_refused hread nofun
                | returned item =>
                    have hgot : ∀ f ∈ Fact.got call.key item :: .read now :: F, f.isStored = false :=
                      List.forall_mem_cons.mpr ⟨rfl, hread⟩
                    dsimp only
                    split
                    · exact post_refused hgot nofun
                    · split
                      · exact post_refused hgot nofun
                      · rename_i tat hparse hdue
                        apply Prog.Spec.seq
                        refine Prog.Spec.mono (fun F' o hend => ?_) (compareAndSwap_keeps ⟨hgot, now, item, tat,
                          rfl, List.mem_cons_self, rfl, rfl, hparse, hdue, rfl⟩)
                        cases hend with
                        | stored => exact post_stored hgot _
                        | panicked => exact post_refused hgot nofun
                        | refused =>
                            dsimp only
                            split
                            · exact ih hgot
                            · exact post_refused hgot nofun

theorem body_keeps (call : Call) :
    ((system interval burst).body call).Spec observe (allowed interval burst call) (post call) [] := by
  change (allowRateLimit call.key interval burst call.ttl).Spec _ _ _ _
  unfold allowRateLimit
  split
  · exact post_refused (by simp) nofun
  · exact allowLoop_keeps maxCASAttempts (by simp)

/-! ## Steps -/

inductive Moves (interval burst : ℤ) (w : World) :
    (c : Cmd) → Outcome (Res c) → Option Change → World → Prop where
  | quiet {c : Cmd} {o : Outcome (Res c)} : observe c o = none → Moves interval burst w c o none w
  | read {t : ℤ} : Readable interval burst t → Moves interval burst w .unixMicro (.returned t) none w
  | got {key : String} {x : Item} : w.entries key = some x →
      Moves interval burst w (.get key) (.returned x) none w
  | added {item : Item} : w.entries item.key = none → Moves interval burst w (.add item) (.returned ())
      (some ⟨w.entries item.key, { item with casID := w.nextCAS }⟩) (w.store item)
  | swapped {item x : Item} : w.entries item.key = some x → x.casID = item.casID →
      Moves interval burst w (.compareAndSwap item) (.returned ())
        (some ⟨w.entries item.key, { item with casID := w.nextCAS }⟩) (w.store item)

theorem exec_moves {ch : Choice} (h : exec interval burst log T c ch w = some (o, e, w')) :
    Moves interval burst w c o e w' := by
  cases ch with
  | time t =>
      simp only [exec] at h
      split at h
      · rename_i hread
        obtain ⟨rfl, hread⟩ := hread
        cases h
        exact .read hread
      · cases h
  | fail err =>
      simp only [exec] at h
      split at h
      · cases h
      · cases h
        exact .quiet (by cases c <;> rfl)
  | run =>
      simp only [exec] at h
      split at h
      · cases h
      · rename_i hclock
        cases c with
        | ctxErr => cases h; exact .quiet rfl
        | unixMicro => exact absurd rfl hclock
        | get key =>
            simp only [serve] at h
            split at h
            · cases h
              exact .got ‹_›
            · cases h
              exact .quiet rfl
        | add item =>
            simp only [serve] at h
            split at h
            · cases h
              exact .quiet rfl
            · cases h
              exact .added ‹_›
        | compareAndSwap item =>
            simp only [serve] at h
            split at h
            · cases h
              exact .quiet rfl
            · split at h
              · cases h
                exact .swapped ‹_› ‹_›
              · cases h
                exact .quiet rfl

/-! ## The history of one key -/

/-- The calls that stored under `key` and the readings of their clocks, the last one first. -/
def commits (key : String) : CacheLog → List (ℕ × ℤ)
  | [] => []
  | r :: log =>
    match r.effect with
    | none => commits key log
    | some change =>
      if change.after.key = key then
        (r.thread, (reading (Log.facts observe log r.thread)).getD 0) :: commits key log
      else commits key log

/-- What was stored last under `key`. -/
def latest (key : String) : CacheLog → Option Item
  | [] => none
  | r :: log =>
    match r.effect with
    | none => latest key log
    | some change => if change.after.key = key then some change.after else latest key log

/-- The change moves the arrival time by at least one interval. -/
def Change.Raises (change : Change) (interval : ℤ) : Prop :=
  ∃ tat, parseInt change.after.value = some tat ∧ ∀ x, change.before = some x →
    ∃ tat₀, parseInt x.value = some tat₀ ∧ tat₀ + intervalMicros interval ≤ tat

/-- The entry of a key that was absent at first, and what the calls know about it. -/
structure Inv (interval burst : ℤ) (hburst : 0 < burst) (key : String) (log : CacheLog) (w : World) :
    Prop where
  items : ∀ {k x}, w.entries k = some x → x.key = k ∧ x.casID < w.nextCAS
  /-- An entry that has the number of an item that was read is this item. -/
  got : ∀ {T k x}, .got k x ∈ log.facts observe T → x.key = k ∧ x.casID < w.nextCAS ∧
    ∀ y, w.entries k = some y → y.casID = x.casID → y = x
  read : ∀ {T t}, .read t ∈ log.facts observe T → Readable interval burst t
  latest : w.entries key = latest key log
  admitted : ∃ tat, (limit interval burst hburst).Admitted tat ((commits key log).map Prod.snd) ∧
    (w.entries key).map Item.value = tat.map formatInt ∧ ∀ t ∈ tat, InInt64 t
  committed : ∀ {T item}, .stored item ∈ log.facts observe T → item.key = key →
    ∃ t, reading (log.facts observe T) = some t ∧ (T, t) ∈ commits key log
  raised : ∀ {r older}, r :: older <:+ log → ∀ change, r.effect = some change →
    change.after.key = key → change.before = Memcached.latest key older ∧ change.Raises interval

/-- A start at which `key` is absent. -/
structure World.Initial (w : World) (key : String) : Prop where
  absent : w.entries key = none
  items : ∀ k x, w.entries k = some x → x.key = k ∧ x.casID < w.nextCAS

theorem Inv.init {hburst : 0 < burst} (hw : w.Initial key) : Inv interval burst hburst key [] w where
  items h := hw.items _ _ h
  got h := by cases h
  read h := by cases h
  latest := hw.absent
  admitted := ⟨none, .nil, by rw [hw.absent]; rfl, by simp⟩
  committed h := by cases h
  raised h := by simp at h

/-- A step that stores nothing. -/
theorem Inv.keep {hburst : 0 < burst} (hi : Inv interval burst hburst key log w)
    (hF : ∀ f ∈ log.facts observe T, f.isStored = false)
    (hread : ∀ t, observe c o = some (.read t) → Readable interval burst t)
    (hgot : ∀ k x, observe c o = some (.got k x) → w.entries k = some x)
    (hstored : ∀ item, observe c o ≠ some (.stored item)) :
    Inv interval burst hburst key (⟨T, c, o, none⟩ :: log) w where
  items := hi.items
  got {T' k x} h := by
    rcases Log.mem_facts_cons.mp h with ⟨-, h⟩ | h
    · have hx := hgot k x h
      refine ⟨(hi.items hx).1, (hi.items hx).2, fun y hy _ => ?_⟩
      exact Option.some.inj (hy.symm.trans hx)
    · exact hi.got h
  read {T' t} h := by
    rcases Log.mem_facts_cons.mp h with ⟨-, h⟩ | h
    · exact hread t h
    · exact hi.read h
  latest := hi.latest
  admitted := hi.admitted
  committed {T' item} h hkey := by
    rcases Log.mem_facts_cons.mp h with ⟨-, h⟩ | hold
    · exact absurd h (hstored item)
    · rcases eq_or_ne T' T with rfl | hne
      · cases hF _ hold
      · rw [Log.facts_cons_ne hne.symm]
        exact hi.committed hold hkey
  raised {r older} hsuf change hchange hkey := by
    rcases List.suffix_cons_iff.mp hsuf with heq | hsuf
    · cases heq
      cases hchange
    · exact hi.raised hsuf change hchange hkey

/-- What a step may store under `key`. -/
structure Due (interval burst : ℤ) (hburst : 0 < burst) (tat : Option ℤ) (now : ℤ) (value : String) :
    Prop where
  admits : (limit interval burst hburst).Admits tat now
  value : value = formatInt ((limit interval burst hburst).after tat now)
  range : InInt64 ((limit interval burst hburst).after tat now)

theorem due_add {hburst : 0 < burst} {now : ℤ} (hread : Readable interval burst now) :
    Due interval burst hburst none now (formatInt (wrapInt64 (now + intervalMicros interval))) := by
  have hadmits := (limit interval burst hburst).admits_none now
  exact ⟨hadmits, congrArg formatInt (hread.room hburst).add, (hread.room hburst).after hadmits⟩

theorem due_compareAndSwap {hburst : 0 < burst} {tat now : ℤ} (hread : Readable interval burst now)
    (htat : InInt64 tat)
    (hdue : ¬now < wrapInt64 (currentTat tat now - wrapInt64 ((burst - 1) * intervalMicros interval))) :
    Due interval burst hburst (some tat) now
      (formatInt (wrapInt64 (currentTat tat now + intervalMicros interval))) := by
  have hroom := hread.room hburst
  have hadmits : (limit interval burst hburst).Admits (some tat) now :=
    not_not.mp fun hnot => hdue ((hroom.guard htat).mpr hnot)
  exact ⟨hadmits, congrArg formatInt (hroom.swap hadmits), hroom.after hadmits⟩

/-- The record of a step that stored `item`. -/
def storeRecord (w : World) (T : ℕ) (c : Cmd) (o : Outcome (Res c)) (item : Item) :
    Record Cmd Res (Option Change) :=
  ⟨T, c, o, some ⟨w.entries item.key, { item with casID := w.nextCAS }⟩⟩

theorem commits_store {item : Item} (hkey : item.key = key) :
    commits key (storeRecord w T c o item :: log) =
      (T, (reading (log.facts observe T)).getD 0) :: commits key log :=
  if_pos hkey

theorem commits_store_ne {item : Item} (hkey : item.key ≠ key) :
    commits key (storeRecord w T c o item :: log) = commits key log :=
  if_neg hkey

theorem latest_store {item : Item} (hkey : item.key = key) :
    latest key (storeRecord w T c o item :: log) = some { item with casID := w.nextCAS } :=
  if_pos hkey

theorem latest_store_ne {item : Item} (hkey : item.key ≠ key) :
    latest key (storeRecord w T c o item :: log) = latest key log :=
  if_neg hkey

/-- A step that stores. -/
theorem Inv.store {hburst : 0 < burst} (hi : Inv interval burst hburst key log w)
    (hF : ∀ f ∈ log.facts observe T, f.isStored = false) {item : Item}
    (hobs : observe c o = some (.stored item))
    (hdue : item.key = key → ∃ tat now, (limit interval burst hburst).Admitted tat
      ((commits key log).map Prod.snd) ∧ (w.entries key).map Item.value = tat.map formatInt ∧
      (∀ t ∈ tat, InInt64 t) ∧ reading (log.facts observe T) = some now ∧
      Due interval burst hburst tat now item.value) :
    Inv interval burst hburst key (storeRecord w T c o item :: log) (w.store item) where
  items {k x} h := by
    rcases eq_or_ne k item.key with rfl | hne
    · rw [store_self] at h
      cases h
      exact ⟨rfl, Nat.lt_succ_self _⟩
    · rw [store_ne hne] at h
      exact ⟨(hi.items h).1, Nat.lt_succ_of_lt (hi.items h).2⟩
  got {T' k x} h := by
    have hold : .got k x ∈ log.facts observe T' := by
      rcases Log.mem_facts_cons.mp h with ⟨-, h⟩ | h
      · rw [hobs] at h
        cases h
      · exact h
    obtain ⟨hk, hlt, hsame⟩ := hi.got hold
    refine ⟨hk, Nat.lt_succ_of_lt hlt, fun y hy hcas => ?_⟩
    rcases eq_or_ne k item.key with rfl | hne
    · rw [store_self] at hy
      cases hy
      exact absurd hcas (Nat.ne_of_gt hlt)
    · rw [store_ne hne] at hy
      exact hsame y hy hcas
  read {T' t} h := by
    rcases Log.mem_facts_cons.mp h with ⟨-, h⟩ | h
    · rw [hobs] at h
      cases h
    · exact hi.read h
  latest := by
    rcases eq_or_ne item.key key with rfl | hne
    · rw [latest_store rfl, store_self]
    · rw [latest_store_ne hne, store_ne hne.symm, hi.latest]
  admitted := by
    rcases eq_or_ne item.key key with rfl | hne
    · obtain ⟨tat, now, hadmitted, -, -, hnow, hdue⟩ := hdue rfl
      refine ⟨some ((limit interval burst hburst).after tat now), ?_, ?_, fun t ht => ?_⟩
      · rw [commits_store rfl, List.map_cons, hnow]
        exact hadmitted.cons hdue.admits
      · rw [store_self, Option.map_some, Option.map_some, hdue.value]
      · cases ht
        exact hdue.range
    · rw [commits_store_ne hne, store_ne hne.symm]
      exact hi.admitted
  committed {T' item'} h hkey := by
    rcases Log.mem_facts_cons.mp h with ⟨rfl, hnew⟩ | hold
    · rw [hobs] at hnew
      cases hnew
      obtain ⟨tat, now, -, -, -, hnow, -⟩ := hdue hkey
      refine ⟨now, ?_, ?_⟩
      · unfold storeRecord
        rw [Log.facts_cons_self, hobs]
        exact hnow
      · rw [commits_store hkey, hnow]
        exact List.mem_cons_self
    · rcases eq_or_ne T' T with rfl | hne
      · cases hF _ hold
      · obtain ⟨t, ht, hmem⟩ := hi.committed hold hkey
        refine ⟨t, ?_, ?_⟩
        · unfold storeRecord
          rw [Log.facts_cons_ne hne.symm, ht]
        · by_cases hkey' : item.key = key
          · rw [commits_store hkey']
            exact List.mem_cons_of_mem _ hmem
          · rwa [commits_store_ne hkey']
  raised {r older} hsuf change hchange hkey := by
    rcases List.suffix_cons_iff.mp hsuf with heq | hsuf
    · cases heq
      cases hchange
      obtain ⟨tat, now, -, hbefore, hrange, -, hdue⟩ := hdue hkey
      have hkey' : item.key = key := hkey
      refine ⟨by rw [hkey']; exact hi.latest, (limit interval burst hburst).after tat now, ?_,
        fun x hx => ?_⟩
      · rw [hdue.value]
        exact parseInt_formatInt hdue.range
      · have hentry : w.entries key = some x := hkey' ▸ hx
        rw [hentry] at hbefore
        cases tat with
        | none => cases hbefore
        | some t =>
            refine ⟨t, ?_, ?_⟩
            · rw [Option.some.inj hbefore]
              exact parseInt_formatInt (hrange t rfl)
            · exact Int.add_le_add_right (le_max_left t now) _
    · exact hi.raised hsuf change hchange hkey

theorem Inv.step {hburst : 0 < burst} {call : Call} {ch : Choice}
    (hi : Inv interval burst hburst key log w) (ha : allowed interval burst call (log.facts observe T) c)
    (h : exec interval burst log T c ch w = some (o, e, w')) :
    Inv interval burst hburst key (⟨T, c, o, e⟩ :: log) w' := by
  obtain ⟨hF, ha⟩ := ha
  cases exec_moves h with
  | quiet hquiet =>
      apply hi.keep hF <;> simp [hquiet]
  | read hread =>
      apply hi.keep hF
      · rintro t ⟨⟩
        exact hread
      · rintro k x ⟨⟩
      · rintro item ⟨⟩
  | got hx =>
      apply hi.keep hF
      · rintro t ⟨⟩
      · rintro k x ⟨⟩
        exact hx
      · rintro item ⟨⟩
  | @added item habsent =>
      apply hi.store hF rfl
      rintro rfl
      obtain ⟨tat, hadmitted, hvalue, hrange⟩ := hi.admitted
      obtain ⟨-, now, hnow, hitem⟩ := ha
      rw [habsent] at hvalue
      cases tat with
      | some t => cases hvalue
      | none =>
          refine ⟨none, now, hadmitted, by rw [habsent]; rfl, hrange, hnow, ?_⟩
          rw [hitem]
          exact due_add (hi.read (mem_of_reading hnow))
  | @swapped item x hx hcas =>
      apply hi.store hF rfl
      rintro rfl
      obtain ⟨tat, hadmitted, hvalue, hrange⟩ := hi.admitted
      obtain ⟨now, got, t, hnow, hgot, hkey, hid, hparse, hdue, hitem⟩ := ha
      -- The entry is still the item that was read.
      obtain ⟨hcall, -, hsame⟩ := hi.got hgot
      obtain rfl : x = got := hsame x (by rw [← hcall, ← hkey]; exact hx) (hcas.trans hid)
      rw [hx] at hvalue
      cases tat with
      | none => cases hvalue
      | some tat =>
          have htat : x.value = formatInt tat := Option.some.inj hvalue
          rw [htat, parseInt_formatInt (hrange tat rfl)] at hparse
          cases hparse
          refine ⟨some t, now, hadmitted, by rw [hx]; exact hvalue, hrange, hnow, ?_⟩
          rw [hitem]
          exact due_compareAndSwap (hi.read (mem_of_reading hnow)) (hrange t rfl) hdue

/-! ## Every run -/

theorem sound (hburst : 0 < burst) : (system interval burst).Sound observe (allowed interval burst) post
    (Inv interval burst hburst key) where
  body := body_keeps
  step hi ha h := hi.step ha h
  env {_ _ e _} _ _ := e.elim
  crash hi := hi

/-- What holds of every state of every run. -/
abbrev Kept (interval burst : ℤ) (hburst : 0 < burst) (key : String) (s : (system interval burst).State) :
    Prop :=
  System.Good (system interval burst) observe (allowed interval burst) post
    (Inv interval burst hburst key) s

variable {s : (system interval burst).State}

/-- What a call stores is stored under its key. -/
theorem Kept.stored_key {hburst : 0 < burst} (hs : Kept interval burst hburst key s) {call : Call}
    {p : Option (MemcachedProg Bool)} (hT : s.pool[T]? = some ⟨call, p⟩) {item : Item}
    (h : .stored item ∈ s.log.facts observe T) : item.key = call.key := by
  obtain ⟨r, log, hsuf, hrT, hsee, -, hallowed⟩ := hs.allowed_of_fact hT h
  obtain ⟨T', c, o, e⟩ := r
  cases c with
  | add x =>
      cases o with
      | returned a =>
          cases hsee
          exact hallowed.1
      | failed err => cases hsee
      | panicked v => cases hsee
  | compareAndSwap x =>
      cases o with
      | returned a =>
          cases hsee
          obtain ⟨now, got, tat, -, hgot, hkey, -⟩ := hallowed
          have hmem := Log.facts_of_suffix ((List.suffix_cons _ _).trans hsuf) hgot
          rw [hkey]
          exact (hs.inv.got hmem).1
      | failed err => cases hsee
      | panicked v => cases hsee
  | ctxErr => cases o <;> cases hsee
  | unixMicro => cases o <;> cases hsee
  | get key => cases o <;> cases hsee

/-- How often a call stored. -/
def stores (log : CacheLog) (T : ℕ) : ℕ := log.countP fun r => r.thread = T && r.effect.isSome

/-- The calls for `key` that returned true and whose clocks last showed a time from `a` to `b`. -/
def admittedIn (s : (system interval burst).State) (key : String) (a b : ℤ) : List ℕ :=
  (List.range s.pool.length).filter fun T =>
    ((s.finished? T).any fun r => r.1.key = key && r.2 = .returned true) &&
      (reading (Log.facts observe s.log T)).any fun now => a ≤ now && now ≤ b

section Run

variable {hburst : 0 < burst} {as : List (Action Choice Call Empty)} (hw : w.Initial key)
  (h : (system interval burst).run ((system interval burst).init w) as = some s)

include hw h

theorem kept_run (hburst : 0 < burst) : Kept interval burst hburst key s :=
  (System.Good.init (.init hw)).run (sound hburst) h

/-- A step has an effect exactly when it stored. -/
theorem effect_isSome (hburst : 0 < burst) {r : Record Cmd Res (Option Change)} (hr : r ∈ s.log) :
    r.effect.isSome = ((observe r.cmd r.answer).map Fact.isStored).getD false := by
  obtain ⟨after, log, heq⟩ := List.append_of_mem hr
  obtain ⟨s₁, s₂, ch, call, -, -, -, hM, -⟩ :=
    System.Good.record (sound hburst) (Inv.init hw) h ⟨after, heq.symm⟩
  obtain ⟨T, c, o, e⟩ := r
  have hmoves := @exec_moves interval burst log _ _ T c o e ch hM
  generalize s₁.world = w₁, s₂.world = w₂ at hmoves
  cases hmoves with
  | quiet hquiet => rw [hquiet]; rfl
  | _ => rfl

theorem stores_eq (hburst : 0 < burst) (T : ℕ) :
    stores s.log T = (s.log.facts observe T).countP Fact.isStored := by
  unfold stores Log.facts
  rw [List.countP_filterMap]
  apply List.countP_congr
  intro r hr
  rw [effect_isSome hw h hburst hr]
  by_cases hT : r.thread = T
  · simp [hT]
  · simp [hT]

/-- A call has stored once if it returned true, and not at all otherwise. -/
theorem stores_of_finished (hburst : 0 < burst) {T : ℕ} {call : Call} {o : Outcome Bool}
    (hT : s.Finished T call o) : stores s.log T = if o = .returned true then 1 else 0 := by
  have hpost := (kept_run hw h hburst).finished hT
  rw [stores_eq hw h hburst]
  by_cases ho : o = .returned true
  · rw [post, if_pos ho] at hpost
    obtain ⟨item, F, hF, hnone⟩ := hpost
    rw [if_pos ho, hF, List.countP_cons,
      List.countP_eq_zero.mpr fun f hf => ne_true_of_eq_false (hnone f hf)]
    rfl
  · rw [post, if_neg ho] at hpost
    rw [if_neg ho]
    exact List.countP_eq_zero.mpr fun f hf => ne_true_of_eq_false (hpost f hf)

/-- Whoever stored has returned true. -/
theorem finished_of_store (hburst : 0 < burst) {r : Record Cmd Res (Option Change)} (hr : r ∈ s.log)
    (hstored : r.effect.isSome = true) : ∃ call, s.Finished r.thread call (.returned true) := by
  rw [effect_isSome hw h hburst hr] at hstored
  cases hobs : observe r.cmd r.answer with
  | none => rw [hobs] at hstored; cases hstored
  | some f =>
      rw [hobs] at hstored
      have hf : f ∈ s.log.facts observe r.thread := Log.mem_facts.mpr ⟨r, hr, rfl, hobs⟩
      obtain ⟨call, o, hT⟩ := System.Good.finished_of_fact (sound hburst) (Inv.init hw)
        (fun hmem hallowed => by simp [hallowed.1 f hmem] at hstored) h hf
      have hpost := (kept_run hw h hburst).finished hT
      rw [post] at hpost
      split at hpost
      · rename_i ho
        exact ⟨call, ho ▸ hT⟩
      · simp [hpost f hf] at hstored

/-- Each call that was admitted is among the commits of its key. -/
theorem admittedIn_subset (hburst : 0 < burst) (a b : ℤ) : admittedIn s key a b ⊆
    ((commits key s.log).filter fun c => a ≤ c.2 && c.2 ≤ b).map Prod.fst := by
  intro T hT
  obtain ⟨-, hT⟩ := List.mem_filter.mp hT
  rw [Bool.and_eq_true, Option.any_eq_true, Option.any_eq_true] at hT
  obtain ⟨⟨⟨call, o⟩, hfinished, hadmitted⟩, now, hnow, hwindow⟩ := hT
  rw [Bool.and_eq_true, decide_eq_true_eq, decide_eq_true_eq] at hadmitted
  obtain ⟨hkey, rfl⟩ := hadmitted
  have hs := kept_run hw h hburst
  have hpost := hs.finished (System.finished_iff.mp hfinished)
  rw [post, if_pos rfl] at hpost
  obtain ⟨item, F, hF, -⟩ := hpost
  have hmem : .stored item ∈ s.log.facts observe T := hF ▸ List.mem_cons_self
  have hitem : item.key = key := (hs.stored_key (System.finished_iff.mp hfinished) hmem).trans hkey
  obtain ⟨t, ht, hcommit⟩ := hs.inv.committed hmem hitem
  cases hnow.symm.trans ht
  exact List.mem_map.mpr ⟨(T, now), List.mem_filter.mpr ⟨hcommit, hwindow⟩, rfl⟩

theorem admittedIn_le (hburst : 0 < burst) (a : ℤ) {T : ℤ} (hT : 0 ≤ T) :
    ((admittedIn s key a (a + T)).length : ℤ) ≤ burst + T / intervalMicros interval := by
  obtain ⟨tat, hadmitted, -⟩ := (kept_run hw h hburst).inv.admitted
  have hnodup : (admittedIn s key a (a + T)).Nodup := List.nodup_range.filter _
  have hle := (hnodup.subperm (admittedIn_subset hw h hburst a (a + T))).length_le
  rw [List.length_map, ← List.countP_eq_length_filter] at hle
  have hwindow := hadmitted.window a hT
  rw [List.countP_map] at hwindow
  exact le_trans (by exact_mod_cast hle) hwindow

end Run

/-- No window of time admits more than its limit; a call stores once if it returns true and never
otherwise, whoever stored has returned true, and each change replaces what was stored last by an
arrival time at least one interval later. -/
theorem allowRateLimit_concurrent {ttl ttl' : ℤ} (hvalid : Tools.rateLimitTTL interval burst ttl = .ok ttl')
    (hw : w.Initial key) {as : List (Action Choice Call Empty)}
    (h : (system interval burst).run ((system interval burst).init w) as = some s) :
    (∀ a T : ℤ, 0 ≤ T →
      ((admittedIn s key a (a + T)).length : ℤ) ≤ burst + T / intervalMicros interval) ∧
    (∀ T call o, s.Finished T call o → stores s.log T = if o = .returned true then 1 else 0) ∧
    (∀ r ∈ s.log, r.effect.isSome = true → ∃ call, s.Finished r.thread call (.returned true)) ∧
    (∀ r older, r :: older <:+ s.log → ∀ change, r.effect = some change → change.after.key = key →
      change.before = latest key older ∧ change.Raises interval) ∧
    s.world.entries key = latest key s.log := by
  obtain ⟨-, hburst, -⟩ := Tools.rateLimitTTL_ok.mp hvalid
  have hs := kept_run hw h hburst
  exact ⟨fun a T hT => admittedIn_le hw h hburst a hT, fun T call o hT => stores_of_finished hw h hburst hT,
    fun r hr hstored => finished_of_store hw h hburst hr hstored,
    fun r older hsuf => hs.inv.raised hsuf, hs.inv.latest⟩

theorem emptyWorld_initial : emptyWorld.Initial key := ⟨rfl, nofun⟩

/-- The states that a run of clients with one token a second ends in. -/
def secondRun (as : List (Action Choice Call Empty)) : Option (system 1000000000 1).State :=
  (system 1000000000 1).run ((system 1000000000 1).init emptyWorld) as

/-- Both calls find no entry; the second one has to try again and is denied. -/
def collision : List (Action Choice Call Empty) :=
  [.spawn ⟨"client", 1⟩, .spawn ⟨"client", 1⟩, .step 0 .run, .step 1 .run, .step 0 (.time 5000000),
    .step 1 (.time 5000001), .step 0 .run, .step 1 .run, .step 0 .run, .step 1 .run, .step 1 .run,
    .step 1 (.time 5000002), .step 1 .run]

theorem collision_run : ∃ s, secondRun collision = some s ∧
    s.finished? 0 = some (⟨"client", 1⟩, .returned true) ∧
    s.finished? 1 = some (⟨"client", 1⟩, .returned false) :=
  System.exists_of_any (by decide +kernel)

theorem allowRateLimit_concurrent_collision : ∃ s, secondRun collision = some s ∧
    (admittedIn s "client" 5000000 5999999).length ≤ 1 ∧ stores s.log 0 = 1 ∧ stores s.log 1 = 0 := by
  obtain ⟨s, hs, h₀, h₁⟩ := collision_run
  obtain ⟨hwindow, hstores, -⟩ :=
    @allowRateLimit_concurrent 1000000000 1 "client" emptyWorld s 1 1000000000 rfl emptyWorld_initial collision hs
  have hlength : ((admittedIn s "client" 5000000 5999999).length : ℤ) ≤ 1 :=
    hwindow 5000000 999999 (by decide)
  refine ⟨s, hs, by exact_mod_cast hlength, ?_, ?_⟩
  · exact hstores 0 _ _ (System.finished_iff.mp h₀)
  · exact hstores 1 _ _ (System.finished_iff.mp h₁)

end Go42.Cache.Memcached
