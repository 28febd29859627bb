-- SUMMARY: `TokenLastUsedUpdater`: two buffers that change roles while one goroutine fills and another drains, any number of updaters over one table, and what is written for the events they receive.
import Go42.Auth.Token
import Go42.Lib.Steps
import Mathlib.Data.List.Forall2

/-!
# When a token was last used

An updater keeps the latest time of each token in its active buffer. A flush swaps the
buffers, writes every entry of the one that is now asleep, each in a transaction of its
own, and clears it. The flushes of an updater follow one another; events arrive at any
time.

Times are those the column can hold. The histories `received` and `writes` record each
event and each write with the number of the flush it belongs to.
-/

namespace Go42.Auth

/-! ## The write -/

/-- The row the update is meant for. -/
def Token.visible (t : Token) (tokenID : ℤ) : Bool := t.id = tokenID && t.deletedAt.isNone

/-- The row has not been used since `when`. -/
def Token.olderThan (t : Token) (time : ℤ) : Bool := t.lastUsedAt.all (· < time)

/-- A row after `UPDATE … SET last_used_at = when` at time `now`. -/
def Token.touch (t : Token) (tokenID time now : ℤ) : Token :=
  if t.visible tokenID && t.olderThan time then { t with lastUsedAt := some time, updatedAt := now }
  else t

/-- `Repository.UpdateTokenLastUsed`: an older or repeated time is no error for a token that
exists. -/
def updateTokenLastUsed (tokens : List Token) (tokenID time now : ℤ) :
    Except GoError (List Token) :=
  let rows := tokens.countP fun t => t.visible tokenID && t.olderThan time
  if 0 < rows then .ok (tokens.map (·.touch tokenID time now))
  else if tokens.countP (·.visible tokenID) = 0 then .error errEntityNotFound
  else .ok tokens

/-- A write that succeeds does the update, which changes no row when none is older. -/
theorem updateTokenLastUsed_ok {tokens tokens' : List Token} {tokenID time now : ℤ}
    (h : updateTokenLastUsed tokens tokenID time now = .ok tokens') :
    tokens' = tokens.map (·.touch tokenID time now) := by
  unfold updateTokenLastUsed at h
  dsimp only at h
  split at h
  case isTrue => cases h; rfl
  case isFalse hrows =>
    split at h <;> cases h
    have hnone := List.countP_eq_zero.mp (Nat.eq_zero_of_not_pos hrows)
    exact ((List.map_congr_left fun t ht => if_neg (hnone t ht)).trans (List.map_id _)).symm

/-! ## The updater -/

/-- `domain.TokenWasUsed`. -/
structure TokenWasUsed where
  id : ℤ
  time : ℤ
deriving DecidableEq, Repr

/-- One call of `UpdateTokenLastUsed` in a flush, whether it reported success, and whether
it was committed. -/
structure TokenWrite where
  flush : ℕ
  id : ℤ
  time : ℤ
  ok : Bool
  committed : Bool
deriving DecidableEq, Repr

/-- `buffer.data`. -/
abbrev Buffer := AList fun _ : ℤ => ℤ

structure Updater where
  activeBuffer : Buffer
  sleeperBuffer : Buffer
  /-- The entries of the sleeping buffer that the running flush has still to write. -/
  pending : Option (List ℤ)
  /-- The flush that will write what is received now. -/
  flush : ℕ
  received : List (ℕ × TokenWasUsed)
  writes : List TokenWrite

namespace Updater

/-- `NewTokenLastUsedUpdater`. -/
def new : Updater := ⟨∅, ∅, none, 0, [], []⟩

/-- The collector: keep the latest time. -/
def collect (u : Updater) (e : TokenWasUsed) : Updater :=
  let activeBuffer :=
    match u.activeBuffer.lookup e.id with
    | none => u.activeBuffer.insert e.id e.time
    | some previous =>
      if previous < e.time then u.activeBuffer.insert e.id e.time else u.activeBuffer
  { u with activeBuffer := activeBuffer, received := (u.flush, e) :: u.received }

/-- `run` swaps the buffers and starts to range over the sleeping one. -/
def swap (u : Updater) : Option Updater :=
  match u.pending with
  | none =>
    some { u with
      activeBuffer := u.sleeperBuffer
      sleeperBuffer := u.activeBuffer
      pending := some u.activeBuffer.keys
      flush := u.flush + 1 }
  | some _ => none

/-- The time the running flush has for an entry it has still to write. -/
def due (u : Updater) (id : ℤ) : Option ℤ :=
  match u.pending with
  | some ids => if id ∈ ids then u.sleeperBuffer.lookup id else none
  | none => none

/-- The range goes on to its next entry; the error of a write is only logged. -/
def wrote (u : Updater) (id time : ℤ) (ok committed : Bool) : Updater :=
  { u with
    pending := u.pending.map (·.erase id)
    writes := ⟨u.flush - 1, id, time, ok, committed⟩ :: u.writes }

/-- The deferred `clear(u.sleeperBuffer.data)` at the end of `run`. -/
def clear (u : Updater) : Option Updater :=
  match u.pending with
  | some [] => some { u with sleeperBuffer := ∅, pending := none }
  | _ => none

end Updater

/-! ## Updaters over one table -/

structure UpdaterState where
  updaters : List Updater
  tokens : List Token

/-- How a write of an entry ends: it succeeds, or it fails without effect, or with its
effect, when the answer to the commit was lost. -/
inductive WriteEnd where
  | goes
  | fails
  | commitLost
deriving DecidableEq, Repr

inductive UpdaterAction where
  | collect (k : ℕ) (e : TokenWasUsed)
  | swap (k : ℕ)
  | write (k : ℕ) (id now : ℤ) (w : WriteEnd)
  | clear (k : ℕ)
deriving DecidableEq, Repr

namespace UpdaterState

/-- Any number of updaters before their first event. -/
def init (k : ℕ) (tokens : List Token) : UpdaterState := ⟨List.replicate k Updater.new, tokens⟩

/-- The table after the transaction of a write, whether the write reports success, and
whether it was committed. -/
def writeEnd (tokens : List Token) (id time now : ℤ) (w : WriteEnd) : List Token × Bool × Bool :=
  match w, updateTokenLastUsed tokens id time now with
  | .goes, .ok tokens' => (tokens', true, true)
  | .commitLost, .ok tokens' => (tokens', false, true)
  | _, _ => (tokens, false, false)

def next (s : UpdaterState) : UpdaterAction → Option UpdaterState
  | .collect k e => (s.updaters[k]?).map fun u => { s with updaters := s.updaters.set k (u.collect e) }
  | .swap k =>
    ((s.updaters[k]?).bind Updater.swap).map fun u => { s with updaters := s.updaters.set k u }
  | .write k id now w =>
    (s.updaters[k]?).bind fun u => (u.due id).map fun time =>
      let r := writeEnd s.tokens id time now w
      { updaters := s.updaters.set k (u.wrote id time r.2.1 r.2.2), tokens := r.1 }
  | .clear k =>
    ((s.updaters[k]?).bind Updater.clear).map fun u => { s with updaters := s.updaters.set k u }

end UpdaterState

/-! ## What an updater writes -/

namespace Updater

variable {u u' : Updater} {g : ℕ} {id : ℤ}

/-- The times received for a token while flush `g` was the next. -/
def receivedAt (u : Updater) (g : ℕ) (id : ℤ) : List ℤ :=
  (u.received.filter fun r => r.1 = g ∧ r.2.id = id).map fun r => r.2.time

def latestAt (u : Updater) (g : ℕ) (id : ℤ) : Option ℤ := (u.receivedAt g id).max?

/-- The times flush `g` has written for a token. -/
def writesAt (u : Updater) (g : ℕ) (id : ℤ) : List ℤ :=
  (u.writes.filter fun w => w.flush = g ∧ w.id = id).map TokenWrite.time

/-- Flush `g` has come to its end. -/
def Flushed (u : Updater) (g : ℕ) : Prop := g < u.flush ∧ (u.pending = none ∨ g + 1 ≠ u.flush)

/-- Flush `g` has written the latest time of the token once, if there was any. -/
def Complete (u : Updater) (g : ℕ) (id : ℤ) : Prop := u.writesAt g id = (u.latestAt g id).toList

structure Inv (u : Updater) : Prop where
  received_le : ∀ r ∈ u.received, r.1 ≤ u.flush
  writes_lt : ∀ w ∈ u.writes, w.flush < u.flush
  active : ∀ id, u.activeBuffer.lookup id = u.latestAt u.flush id
  flushed : ∀ g, u.Flushed g → ∀ id, u.Complete g id
  idle : u.pending = none → u.sleeperBuffer = ∅
  running : ∀ ids, u.pending = some ids → 0 < u.flush ∧ ids.Nodup ∧ ∀ id,
    u.sleeperBuffer.lookup id = u.latestAt (u.flush - 1) id ∧
    (id ∈ ids → u.writesAt (u.flush - 1) id = []) ∧ (id ∉ ids → u.Complete (u.flush - 1) id)

theorem new_inv : new.Inv := by
  refine ⟨by simp [new], by simp [new], fun id => rfl, fun g hg => ?_, fun _ => rfl, fun ids h => ?_⟩
  · exact absurd hg.1 (Nat.not_lt_zero g)
  · cases h

theorem receivedAt_eq_nil (h : ∀ r ∈ u.received, r.1 ≠ g) : u.receivedAt g id = [] := by
  simp only [receivedAt, List.map_eq_nil_iff, List.filter_eq_nil_iff, decide_eq_true_eq, not_and]
  exact fun r hr hg => absurd hg (h r hr)

theorem writesAt_eq_nil (h : ∀ w ∈ u.writes, w.flush ≠ g) : u.writesAt g id = [] := by
  simp only [writesAt, List.map_eq_nil_iff, List.filter_eq_nil_iff, decide_eq_true_eq, not_and]
  exact fun w hw hg => absurd hg (h w hw)

/-- An event counts for the flush it was received before, and for its token. -/
theorem collect_latestAt (e : TokenWasUsed) :
    (u.collect e).latestAt g id = if u.flush = g ∧ e.id = id then
      some ((u.latestAt g id).elim e.time (max e.time)) else u.latestAt g id := by
  unfold latestAt receivedAt collect
  dsimp only
  split
  case isTrue h => simp [h]
  case isFalse h => rw [List.filter_cons_of_neg (by simpa using h)]

/-- The collector keeps the latest time of each token in the active buffer. -/
theorem collect_inv (hu : u.Inv) (e : TokenWasUsed) : (u.collect e).Inv := by
  have hother {g : ℕ} (hg : g < u.flush) (id : ℤ) :
      (u.collect e).latestAt g id = u.latestAt g id := by
    rw [collect_latestAt, if_neg]
    rintro ⟨rfl, -⟩
    exact Nat.lt_irrefl _ hg
  refine ⟨?_, hu.writes_lt, ?_, ?_, hu.idle, ?_⟩
  · intro r hr
    rcases List.mem_cons.mp hr with rfl | hr
    · exact Nat.le_refl _
    · exact hu.received_le r hr
  · intro id
    have hflush : (u.collect e).flush = u.flush := rfl
    rw [hflush, collect_latestAt, ← hu.active id]
    unfold collect
    dsimp only
    rcases eq_or_ne e.id id with rfl | hne
    · cases hprev : u.activeBuffer.lookup e.id with
      | none => simp
      | some previous =>
          by_cases hlt : previous < e.time
          · simp [hlt, max_eq_left hlt.le]
          · simp [hlt, hprev, max_eq_right (not_lt.mp hlt)]
    · rw [if_neg fun h => hne h.2]
      split
      · rw [AList.lookup_insert_ne hne.symm]
      · split
        · rw [AList.lookup_insert_ne hne.symm]
        · rfl
  · intro g hg id
    have hc := hu.flushed g hg id
    unfold Complete at hc ⊢
    rw [hother hg.1]
    exact hc
  · intro ids hids
    obtain ⟨hpos, hnodup, hall⟩ := hu.running ids hids
    have hlast : u.flush - 1 < u.flush := by omega
    refine ⟨hpos, hnodup, fun id => ?_⟩
    obtain ⟨hsleeper, hin, hout⟩ := hall id
    refine ⟨?_, hin, fun hid => ?_⟩
    · have := hother hlast id
      exact hsleeper.trans this.symm
    · have hc := hout hid
      unfold Complete at hc ⊢
      exact hc.trans (congrArg Option.toList (hother hlast id).symm)

/-- After a swap the sleeping buffer holds what the flush has to write. -/
theorem swap_inv (hu : u.Inv) (h : u.swap = some u') : u'.Inv := by
  unfold swap at h
  split at h
  case h_2 => cases h
  case h_1 hidle =>
    cases h
    refine ⟨?_, ?_, ?_, ?_, ?_, ?_⟩
    · exact fun r hr => Nat.le_succ_of_le (hu.received_le r hr)
    · exact fun w hw => Nat.lt_succ_of_lt (hu.writes_lt w hw)
    · intro id
      dsimp only
      rw [hu.idle hidle, latestAt, receivedAt_eq_nil]
      · rfl
      · intro r hr
        have := hu.received_le r hr
        omega
    · intro g hg id
      obtain ⟨hlt, hnone | hne⟩ := hg
      · cases hnone
      · exact hu.flushed g ⟨by dsimp only at hlt hne; omega, .inl hidle⟩ id
    · intro hnone
      cases hnone
    · intro ids hids
      cases hids
      have hnil (id : ℤ) : u.writesAt u.flush id = [] :=
        writesAt_eq_nil fun w hw => (hu.writes_lt w hw).ne
      refine ⟨Nat.succ_pos _, u.activeBuffer.keys_nodup, fun id => ⟨hu.active id, fun _ => hnil id, ?_⟩⟩
      intro hid
      have hnone : u.latestAt u.flush id = none := by
        rw [← hu.active id]
        exact AList.lookup_eq_none.mpr hid
      change u.writesAt u.flush id = (u.latestAt u.flush id).toList
      rw [hnil, hnone]
      rfl

/-- Writing an entry completes its token. -/
theorem wrote_inv {time : ℤ} {ok committed : Bool} (hu : u.Inv) (h : u.due id = some time) :
    (u.wrote id time ok committed).Inv := by
  unfold due at h
  split at h
  case h_2 => cases h
  case h_1 ids hids =>
    split at h
    case isFalse => cases h
    case isTrue hmem =>
      obtain ⟨hpos, hnodup, hall⟩ := hu.running ids hids
      have hwrites (g : ℕ) (id' : ℤ) : (u.wrote id time ok committed).writesAt g id' =
          if g = u.flush - 1 ∧ id' = id then time :: u.writesAt g id' else u.writesAt g id' := by
        unfold writesAt wrote
        dsimp only
        split
        case isTrue h => simp [h]
        case isFalse h =>
          rw [List.filter_cons_of_neg]
          intro hd
          obtain ⟨hg, hid⟩ := of_decide_eq_true hd
          exact h ⟨hg.symm, hid.symm⟩
      refine ⟨hu.received_le, ?_, hu.active, ?_, ?_, ?_⟩
      · intro w hw
        rcases List.mem_cons.mp hw with rfl | hw
        · change u.flush - 1 < u.flush
          omega
        · exact hu.writes_lt w hw
      · intro g hg id'
        obtain ⟨hlt, hnone | hne⟩ := hg
        · simp [wrote, hids] at hnone
        · have hc := hu.flushed g ⟨hlt, .inr hne⟩ id'
          unfold Complete at hc ⊢
          rw [hwrites, if_neg]
          · exact hc
          · rintro ⟨rfl, -⟩
            change u.flush - 1 + 1 ≠ u.flush at hne
            omega
      · intro hnone
        simp [wrote, hids] at hnone
      · intro ids' hids'
        have hids' : ids' = ids.erase id := by simpa [wrote, hids, eq_comm] using hids'
        subst hids'
        refine ⟨hpos, hnodup.erase id, fun id' => ?_⟩
        obtain ⟨hsleeper, hin, hout⟩ := hall id'
        have hflush : (u.wrote id time ok committed).flush = u.flush := rfl
        refine ⟨hsleeper, fun hid' => ?_, fun hid' => ?_⟩
        · obtain ⟨hne, hid'⟩ := hnodup.mem_erase_iff.mp hid'
          rw [hflush, hwrites, if_neg fun h => hne h.2]
          exact hin hid'
        · rcases eq_or_ne id' id with rfl | hne
          · change (u.wrote id' time ok committed).writesAt (u.flush - 1) id' =
              (u.latestAt (u.flush - 1) id').toList
            rw [hwrites, if_pos ⟨rfl, rfl⟩, hin hmem, ← hsleeper, h]
            rfl
          · have hc := hout fun hmem' => hid' (hnodup.mem_erase_iff.mpr ⟨hne, hmem'⟩)
            unfold Complete at hc ⊢
            rw [hflush, hwrites, if_neg fun h => hne h.2]
            exact hc

/-- The buffer is cleared when all its entries are written. -/
theorem clear_inv (hu : u.Inv) (h : u.clear = some u') : u'.Inv := by
  unfold clear at h
  split at h
  case h_2 => cases h
  case h_1 hids =>
    cases h
    obtain ⟨hpos, -, hall⟩ := hu.running [] hids
    refine ⟨hu.received_le, hu.writes_lt, hu.active, ?_, fun _ => rfl, fun ids h => nomatch h⟩
    intro g hg id
    by_cases hlast : g + 1 = u.flush
    · obtain rfl : g = u.flush - 1 := by omega
      exact (hall id).2.2 List.not_mem_nil
    · exact hu.flushed g ⟨hg.1, .inr hlast⟩ id

/-- With both buffers empty every event received so far has been flushed. -/
theorem Inv.complete (hu : u.Inv) (hactive : u.activeBuffer = ∅) (hsleeper : u.sleeperBuffer = ∅)
    (hg : g ≤ u.flush) : u.Complete g id := by
  have hnone {f : ℕ} (hf : u.latestAt f id = none) (hw : u.writesAt f id = []) : u.Complete f id := by
    rw [Complete, hf, hw]
    rfl
  rcases Nat.lt_or_eq_of_le hg with hlt | rfl
  · cases hids : u.pending with
    | none => exact hu.flushed g ⟨hlt, .inl hids⟩ id
    | some ids =>
        by_cases hlast : g + 1 = u.flush
        · obtain rfl : g = u.flush - 1 := by omega
          obtain ⟨-, -, hall⟩ := hu.running ids hids
          obtain ⟨hlookup, hin, hout⟩ := hall id
          by_cases hid : id ∈ ids
          · exact hnone (by rw [← hlookup, hsleeper]; rfl) (hin hid)
          · exact hout hid
        · exact hu.flushed g ⟨hlt, .inr hlast⟩ id
  · apply hnone
    · rw [← hu.active, hactive]
      rfl
    · exact writesAt_eq_nil fun w hw => (hu.writes_lt w hw).ne

end Updater

/-! ## What the table holds -/

/-- `latest` is the greatest of the times in `times`, and none if there are none. -/
def IsLatest (latest : Option ℤ) (times : ℤ → Prop) : Prop :=
  (∀ v, times v → ∃ w, latest = some w ∧ v ≤ w) ∧ ∀ w, latest = some w → times w

/-- A stored time was not moved back. -/
def NotBefore (before after : Option ℤ) : Prop := ∀ v, before = some v → ∃ w, after = some w ∧ v ≤ w

theorem NotBefore.trans {a b c : Option ℤ} (h : NotBefore a b) (h' : NotBefore b c) :
    NotBefore a c := by
  intro v hv
  obtain ⟨w, hw, hvw⟩ := h v hv
  obtain ⟨x, hx, hwx⟩ := h' w hw
  exact ⟨x, hx, hvw.trans hwx⟩

namespace Token

variable {t : Token} {tokenID time now : ℤ}

theorem touch_id : (t.touch tokenID time now).id = t.id := by
  unfold touch
  split <;> rfl

theorem touch_deletedAt : (t.touch tokenID time now).deletedAt = t.deletedAt := by
  unfold touch
  split <;> rfl

/-- The conditional update keeps the latest of all times. -/
theorem touch_isLatest {times : ℤ → Prop} (hvisible : t.visible tokenID = true) (time now : ℤ)
    (h : IsLatest t.lastUsedAt times) :
    IsLatest (t.touch tokenID time now).lastUsedAt fun v => times v ∨ v = time := by
  unfold touch
  rw [hvisible, Bool.true_and]
  split
  case isTrue hold =>
    refine ⟨fun v hv => ⟨time, rfl, ?_⟩, fun w hw => .inr (Option.some.inj hw).symm⟩
    rcases hv with hv | rfl
    · obtain ⟨w, hw, hvw⟩ := h.1 v hv
      simp only [olderThan, hw, Option.all_some, decide_eq_true_eq] at hold
      exact hvw.trans hold.le
    · exact le_refl v
  case isFalse hnew =>
    refine ⟨fun v hv => ?_, fun w hw => .inl (h.2 w hw)⟩
    rcases hv with hv | rfl
    · exact h.1 v hv
    · cases hlast : t.lastUsedAt with
      | none => simp [olderThan, hlast] at hnew
      | some w =>
          simp only [olderThan, hlast, Option.all_some, decide_eq_true_eq, not_lt] at hnew
          exact ⟨w, rfl, hnew⟩

theorem touch_of_not_visible (h : t.visible tokenID = false) : t.touch tokenID time now = t := by
  simp [touch, h]

end Token

namespace UpdaterState

variable {s s' : UpdaterState}

/-- A committed write of some updater. -/
def Committed (s : UpdaterState) (id v : ℤ) : Prop :=
  ∃ (k : ℕ) (u : Updater), s.updaters[k]? = some u ∧
    ∃ w ∈ u.writes, w.committed = true ∧ w.id = id ∧ w.time = v

/-- What a write ends with: the table is updated when it is committed, and only then does
the write succeed. -/
theorem writeEnd_spec (tokens : List Token) (id time now : ℤ) (w : WriteEnd) :
    ((writeEnd tokens id time now w).2.1 = true → (writeEnd tokens id time now w).2.2 = true) ∧
      (writeEnd tokens id time now w).1 =
        if (writeEnd tokens id time now w).2.2 then tokens.map (·.touch id time now) else tokens := by
  unfold writeEnd
  split
  case h_1 h => exact ⟨fun _ => rfl, updateTokenLastUsed_ok h⟩
  case h_2 h => exact ⟨fun _ => rfl, updateTokenLastUsed_ok h⟩
  case h_3 => exact ⟨fun h => h, rfl⟩

/-- One updater takes a step. It may add a write, which alone touches the table. -/
theorem next_cases {a : UpdaterAction} (h : s.next a = some s') :
    ∃ k u u', s.updaters[k]? = some u ∧ s'.updaters = s.updaters.set k u' ∧ (u.Inv → u'.Inv) ∧
      ((u'.writes = u.writes ∧ s'.tokens = s.tokens) ∨
        ∃ (w : TokenWrite) (now : ℤ), u'.writes = w :: u.writes ∧ (w.ok = true → w.committed = true) ∧
          s'.tokens = if w.committed then s.tokens.map (·.touch w.id w.time now) else s.tokens) := by
  cases a with
  | collect k e =>
      obtain ⟨u, hu, rfl⟩ := Option.map_eq_some_iff.mp h
      exact ⟨k, u, u.collect e, hu, rfl, fun hi => Updater.collect_inv hi e, .inl ⟨rfl, rfl⟩⟩
  | swap k =>
      obtain ⟨u', hu', rfl⟩ := Option.map_eq_some_iff.mp h
      obtain ⟨u, hu, hswap⟩ := Option.bind_eq_some_iff.mp hu'
      refine ⟨k, u, u', hu, rfl, fun hi => Updater.swap_inv hi hswap, .inl ⟨?_, rfl⟩⟩
      unfold Updater.swap at hswap
      split at hswap <;> cases hswap
      rfl
  | write k id now w =>
      obtain ⟨u, hu, hwrite⟩ := Option.bind_eq_some_iff.mp h
      obtain ⟨time, hdue, rfl⟩ := Option.map_eq_some_iff.mp hwrite
      obtain ⟨hok, htokens⟩ := writeEnd_spec s.tokens id time now w
      exact ⟨k, u, _, hu, rfl, fun hi => Updater.wrote_inv hi hdue, .inr ⟨_, now, rfl, hok, htokens⟩⟩
  | clear k =>
      obtain ⟨u', hu', rfl⟩ := Option.map_eq_some_iff.mp h
      obtain ⟨u, hu, hclear⟩ := Option.bind_eq_some_iff.mp hu'
      refine ⟨k, u, u', hu, rfl, fun hi => Updater.clear_inv hi hclear, .inl ⟨?_, rfl⟩⟩
      unfold Updater.clear at hclear
      split at hclear <;> cases hclear
      rfl

/-- A row compared with the row it was at first. -/
structure Row (s : UpdaterState) (t₀ t : Token) : Prop where
  id : t.id = t₀.id
  deletedAt : t.deletedAt = t₀.deletedAt
  latest : t₀.deletedAt = none →
    IsLatest t.lastUsedAt fun v => t₀.lastUsedAt = some v ∨ s.Committed t₀.id v

structure Inv (tokens₀ : List Token) (s : UpdaterState) : Prop where
  updaters : ∀ u ∈ s.updaters, u.Inv
  ok : ∀ u ∈ s.updaters, ∀ w ∈ u.writes, w.ok = true → w.committed = true
  rows : List.Forall₂ (s.Row) tokens₀ s.tokens

theorem init_inv {k : ℕ} {tokens₀ : List Token} : (init k tokens₀).Inv tokens₀ where
  updaters u hu := by rw [List.eq_of_mem_replicate hu]; exact Updater.new_inv
  ok u hu w hw := by rw [List.eq_of_mem_replicate hu] at hw; cases hw
  rows := by
    refine List.forall₂_same.mpr fun t _ => ⟨rfl, rfl, fun _ => ⟨fun v hv => ?_, fun w hw => .inl hw⟩⟩
    rcases hv with hv | ⟨k', u, hu, w, hw, -⟩
    · exact ⟨v, hv, le_refl v⟩
    · rw [List.eq_of_mem_replicate (List.mem_of_getElem? hu)] at hw
      cases hw

/-- The committed writes after a step of one updater. -/
theorem committed_set {k : ℕ} {u u' : Updater} (ws : List TokenWrite) (hu : s.updaters[k]? = some u)
    (hs' : s'.updaters = s.updaters.set k u') (hws : u'.writes = ws ++ u.writes) (id v : ℤ) :
    s'.Committed id v ↔
      s.Committed id v ∨ ∃ w ∈ ws, w.committed = true ∧ w.id = id ∧ w.time = v := by
  obtain ⟨hlt, -⟩ := List.getElem?_eq_some_iff.mp hu
  have hself : s'.updaters[k]? = some u' := by rw [hs', List.getElem?_set_self hlt]
  have hother {k' : ℕ} (hne : k' ≠ k) : s'.updaters[k']? = s.updaters[k']? := by
    rw [hs', List.getElem?_set_ne hne.symm]
  constructor
  · rintro ⟨k', x, hx, w, hw, hspec⟩
    rcases eq_or_ne k' k with rfl | hne
    · rw [hself] at hx
      cases hx
      rcases List.mem_append.mp (hws ▸ hw) with hw | hw
      · exact .inr ⟨w, hw, hspec⟩
      · exact .inl ⟨k', u, hu, w, hw, hspec⟩
    · exact .inl ⟨k', x, hother hne ▸ hx, w, hw, hspec⟩
  · rintro (⟨k', x, hx, w, hw, hspec⟩ | ⟨w, hw, hspec⟩)
    · rcases eq_or_ne k' k with rfl | hne
      · rw [hu] at hx
        cases hx
        exact ⟨k', u', hself, w, hws ▸ List.mem_append_right ws hw, hspec⟩
      · exact ⟨k', x, (hother hne).symm ▸ hx, w, hw, hspec⟩
    · exact ⟨k, u', hself, w, hws ▸ List.mem_append_left u.writes hw, hspec⟩

/-- A row after a write that was committed. -/
theorem Row.touch {t₀ t : Token} {w : TokenWrite} {now : ℤ} (hrow : s.Row t₀ t)
    (hcommitted : ∀ id v, s'.Committed id v ↔ s.Committed id v ∨ w.id = id ∧ w.time = v) :
    s'.Row t₀ (t.touch w.id w.time now) where
  id := Token.touch_id.trans hrow.id
  deletedAt := Token.touch_deletedAt.trans hrow.deletedAt
  latest hdeleted := by
    have hlatest := hrow.latest hdeleted
    rcases eq_or_ne w.id t₀.id with heq | hne
    · have hvisible : t.visible w.id = true := by
        simp [Token.visible, hrow.id, heq, hrow.deletedAt, hdeleted]
      have htouch := Token.touch_isLatest hvisible w.time now hlatest
      simpa [IsLatest, hcommitted, heq, or_assoc, eq_comm] using htouch
    · have hvisible : t.visible w.id = false := by simp [Token.visible, hrow.id, hne.symm]
      rw [Token.touch_of_not_visible hvisible]
      simpa [IsLatest, hcommitted, hne] using hlatest

theorem next_inv {tokens₀ : List Token} {a : UpdaterAction} (hs : s.Inv tokens₀)
    (h : s.next a = some s') : s'.Inv tokens₀ := by
  obtain ⟨k, u, u', hu, hs', hinv, hwrite⟩ := next_cases h
  have hmem := List.mem_of_getElem? hu
  have hupdaters : ∀ x ∈ s'.updaters, x.Inv := by
    intro x hx
    rcases List.mem_or_eq_of_mem_set (hs' ▸ hx) with hx | rfl
    · exact hs.updaters x hx
    · exact hinv (hs.updaters u hmem)
  rcases hwrite with ⟨hwrites, htokens⟩ | ⟨w, now, hwrites, hok, htokens⟩
  · refine ⟨hupdaters, fun x hx => ?_, ?_⟩
    · rcases List.mem_or_eq_of_mem_set (hs' ▸ hx) with hx | rfl
      · exact hs.ok x hx
      · rw [hwrites]
        exact hs.ok u hmem
    · rw [htokens]
      apply hs.rows.imp
      intro t₀ t hrow
      refine ⟨hrow.id, hrow.deletedAt, fun hdeleted => ?_⟩
      simpa [IsLatest, committed_set [] hu hs' hwrites] using hrow.latest hdeleted
  · refine ⟨hupdaters, fun x hx => ?_, ?_⟩
    · rcases List.mem_or_eq_of_mem_set (hs' ▸ hx) with hx | rfl
      · exact hs.ok x hx
      · rw [hwrites]
        intro w' hw'
        rcases List.mem_cons.mp hw' with rfl | hw'
        · exact hok
        · exact hs.ok u hmem w' hw'
    · have hcommitted := committed_set [w] hu hs' hwrites
      simp only [List.mem_singleton, exists_eq_left] at hcommitted
      rw [htokens]
      split
      case isTrue hc =>
        apply List.forall₂_map_right_iff.mpr
        apply hs.rows.imp
        intro t₀ t hrow
        exact hrow.touch fun id v => by simp [hcommitted, hc]
      case isFalse hc =>
        apply hs.rows.imp
        intro t₀ t hrow
        refine ⟨hrow.id, hrow.deletedAt, fun hdeleted => ?_⟩
        simpa [IsLatest, hcommitted, hc] using hrow.latest hdeleted

/-- A time some updater received for a token. -/
def Received (s : UpdaterState) (id v : ℤ) : Prop :=
  ∃ u ∈ s.updaters, ∃ r ∈ u.received, r.2.id = id ∧ r.2.time = v

/-- Both buffers of every updater are empty. -/
def Drained (s : UpdaterState) : Prop :=
  ∀ u ∈ s.updaters, u.activeBuffer = ∅ ∧ u.sleeperBuffer = ∅

variable {tokens₀ : List Token} {u : Updater}

theorem mem_receivedAt {g : ℕ} {id v : ℤ} :
    v ∈ u.receivedAt g id ↔ ∃ r ∈ u.received, r.1 = g ∧ r.2.id = id ∧ r.2.time = v := by
  simp [Updater.receivedAt, and_assoc]

theorem mem_writesAt {g : ℕ} {id v : ℤ} :
    v ∈ u.writesAt g id ↔ ∃ w ∈ u.writes, w.flush = g ∧ w.id = id ∧ w.time = v := by
  simp [Updater.writesAt, and_assoc]

/-- A flushed event was written, or one of the same token that is no earlier was. -/
theorem written_of_complete {r : ℕ × TokenWasUsed} (hr : r ∈ u.received)
    (h : u.Complete r.1 r.2.id) :
    ∃ w ∈ u.writes, w.flush = r.1 ∧ w.id = r.2.id ∧ r.2.time ≤ w.time := by
  have hmem : r.2.time ∈ u.receivedAt r.1 r.2.id := mem_receivedAt.mpr ⟨r, hr, rfl, rfl, rfl⟩
  cases hlatest : u.latestAt r.1 r.2.id with
  | none =>
      rw [List.max?_eq_none_iff.mp hlatest] at hmem
      cases hmem
  | some v =>
      have hle := (List.max?_eq_some_iff.mp hlatest).2 _ hmem
      have hv : v ∈ u.writesAt r.1 r.2.id := by rw [h, hlatest]; exact List.mem_singleton_self v
      obtain ⟨w, hw, hflush, hid, rfl⟩ := mem_writesAt.mp hv
      exact ⟨w, hw, hflush, hid, hle⟩

/-- Only times that were received are written. -/
theorem received_of_complete {w : TokenWrite} (hw : w ∈ u.writes) (h : u.Complete w.flush w.id) :
    ∃ r ∈ u.received, r.2.id = w.id ∧ r.2.time = w.time := by
  have hmem : w.time ∈ u.writesAt w.flush w.id := mem_writesAt.mpr ⟨w, hw, rfl, rfl, rfl⟩
  rw [h, Option.mem_toList] at hmem
  obtain ⟨r, hr, -, hid, htime⟩ := mem_receivedAt.mp (List.max?_mem hmem)
  exact ⟨r, hr, hid, htime⟩

/-- Once the buffers are drained, a row holds no less than every time that was written for
it without an error; and if there was no error, it holds the latest of its first time and
all times received. -/
theorem Inv.drained (hs : s.Inv tokens₀) (hdrained : s.Drained) {t₀ t : Token} (hrow : s.Row t₀ t)
    (hdeleted : t₀.deletedAt = none) :
    (∀ u ∈ s.updaters, ∀ r ∈ u.received, r.2.id = t₀.id →
        (∀ w ∈ u.writes, w.flush = r.1 → w.id = t₀.id → w.ok = true) →
        ∃ v, t.lastUsedAt = some v ∧ r.2.time ≤ v) ∧
      ((∀ u ∈ s.updaters, ∀ w ∈ u.writes, w.id = t₀.id → w.ok = true) →
        IsLatest t.lastUsedAt fun v => t₀.lastUsedAt = some v ∨ s.Received t₀.id v) := by
  obtain ⟨hupper, hmem⟩ := hrow.latest hdeleted
  have hcomplete {u : Updater} (hu : u ∈ s.updaters) {g : ℕ} (hg : g ≤ u.flush) (id : ℤ) :
      u.Complete g id :=
    (hs.updaters u hu).complete (hdrained u hu).1 (hdrained u hu).2 hg
  have hreceived : ∀ u ∈ s.updaters, ∀ r ∈ u.received, r.2.id = t₀.id →
      (∀ w ∈ u.writes, w.flush = r.1 → w.id = t₀.id → w.ok = true) →
      ∃ v, t.lastUsedAt = some v ∧ r.2.time ≤ v := by
    intro u hu r hr hid hok
    have hg := (hs.updaters u hu).received_le r hr
    obtain ⟨w, hw, hflush, hwid, hle⟩ := written_of_complete hr (hcomplete hu hg _)
    have hcommitted := hs.ok u hu w hw (hok w hw hflush (hwid.trans hid))
    obtain ⟨k, hk⟩ := List.getElem?_of_mem hu
    obtain ⟨v, hv, hwv⟩ := hupper w.time (.inr ⟨k, u, hk, w, hw, hcommitted, hwid.trans hid, rfl⟩)
    exact ⟨v, hv, hle.trans hwv⟩
  refine ⟨hreceived, fun hok => ⟨fun v hv => ?_, fun w hw => ?_⟩⟩
  · rcases hv with hv | ⟨u, hu, r, hr, hid, rfl⟩
    · exact hupper v (.inl hv)
    · exact hreceived u hu r hr hid fun w hw _ => hok u hu w hw
  · rcases hmem w hw with hfirst | ⟨k, u, hk, x, hx, -, hid, rfl⟩
    · exact .inl hfirst
    · have hu := List.mem_of_getElem? hk
      have hlt := (hs.updaters u hu).writes_lt x hx
      obtain ⟨r, hr, hrid, htime⟩ := received_of_complete hx (hcomplete hu hlt.le _)
      exact .inr ⟨u, hu, r, hr, hrid.trans hid, htime⟩

end UpdaterState
end Go42.Auth
