-- SUMMARY: The NATS backend comes to rest, and then every connection is closed but those of an engine that is in use.
import Go42.Events.Nats
import Go42.Lib.Progress

/-!
# The NATS backend at rest
-/

namespace Go42.Events.Nats
namespace NATS

variable {s s' : NATS} {a : NatsAction} {as : List NatsAction} {i r : ℕ}

/-! ## Attempts and their goroutines -/

/-- The result of a goroutine is still to come, or to be handed over. -/
def pending : Builder → Bool
  | .constructing | .offering _ => true
  | .closing _ | .finished => false

/-- While there is time, a goroutine works for the attempt under way. -/
def Attended (s : NATS) : Prop :=
  ∀ (i : ℕ) b, s.builders[i]? = some b → pending b = true → s.ctxDone = true ∨ s.new = .selecting i

theorem Attended.set {b' : Builder} (hi : s.Attended)
    (hpending : pending b' = true → s.ctxDone = true ∨ s.new = .selecting i) :
    ∀ (j : ℕ) c, (s.builders.set i b')[j]? = some c → pending c = true → s.ctxDone = true ∨ s.new = .selecting j := by
  intro j c hc hc'
  rcases Pool.getElem?_set_cases hc with ⟨rfl, rfl⟩ | ⟨-, hold⟩
  · exact hpending hc'
  · exact hi j c hold hc'

theorem next_attended (hi : s.Attended) (h : s.next a = some s') : s'.Attended := by
  -- no attempt is under way, so that nothing is pending in time
  have hidle (hnew : ∀ j, s.new ≠ .selecting j) (j : ℕ) (b : Builder) (hb : s.builders[j]? = some b)
      (hpending : pending b = true) : s.ctxDone = true :=
    (hi j b hb hpending).resolve_right (hnew j)
  cases a with
  | attempt =>
      simp only [next] at h
      split at h <;> cases h
      rename_i hnew
      intro j b hb hpending
      rcases Nat.lt_or_ge j s.builders.length with hlt | hge
      · rw [List.getElem?_append_left hlt] at hb
        exact .inl (hidle (by simp [hnew]) j b hb hpending)
      · obtain ⟨hlt, -⟩ := List.getElem?_eq_some_iff.mp hb
        rw [List.length_append, List.length_singleton] at hlt
        exact .inr (congrArg NewPlace.selecting (by omega))
  | abandon =>
      simp only [next] at h
      split at h <;> cases h
      rename_i hnew
      exact fun j b hb hpending => .inl hnew.2
  | expire =>
      cases h
      exact fun _ _ _ _ => .inl rfl
  | built i err =>
      simp only [next] at h
      split at h
      · rename_i hb
        cases err <;> cases h <;> exact hi.set fun _ => hi i _ hb rfl
      · cases h
  | hand i =>
      simp only [next] at h
      split at h
      · split at h <;> cases h
        rename_i result hb hnew
        intro j b hb' hpending
        -- the one that `connect` waited for is through; no other is waited for
        rcases Pool.getElem?_set_cases hb' with ⟨rfl, rfl⟩ | ⟨hne, hold⟩
        · cases hpending
        · refine .inl ((hi j b hold hpending).resolve_right fun hnew' => hne ?_)
          exact NewPlace.selecting.inj (hnew.symm.trans hnew')
      · cases h
  | giveUp i =>
      simp only [next] at h
      split at h
      · split at h <;> cases h
        exact hi.set fun hpending => by cases hpending
      · cases h
  | builtClosed i =>
      simp only [next] at h
      split at h <;> cases h
      exact hi.set fun hpending => by cases hpending
  | leave =>
      simp only [next] at h
      split at h
      · split at h <;> cases h
        exact fun _ _ _ _ => .inl (by assumption)
      · cases h
  | check =>
      simp only [next] at h
      split at h
      · rename_i hnew
        split at h <;> cases h
        · exact fun j b hb hpending => .inl (hidle (by simp [hnew]) j b hb hpending)
        · exact fun _ _ _ _ => .inl rfl
      · rename_i hnew
        cases h
        exact fun j b hb hpending => .inl (hidle (by simp [hnew]) j b hb hpending)
      · cases h
  | resultClosed =>
      simp only [next] at h
      split at h <;> cases h
      rename_i hnew
      exact fun j b hb hpending => .inl (hidle (by simp [hnew]) j b hb hpending)
  | _ =>
      simp only [next] at h
      repeat' split at h
      all_goals cases h
      all_goals exact hi

/-- An attempt has a goroutine that works for it, unless there is no time left. -/
def Served (s : NATS) : Prop :=
  ∀ i, s.new = .selecting i → s.ctxDone = true ∨ ∃ b, s.builders[i]? = some b ∧ pending b = true

theorem next_served (hi : s.Served) (h : s.next a = some s') : s'.Served := by
  cases a with
  | attempt =>
      simp only [next] at h
      split at h <;> cases h
      intro i hi'
      cases hi'
      exact .inr ⟨.constructing, by simp, rfl⟩
  | expire =>
      cases h
      exact fun _ _ => .inl rfl
  | built i err =>
      simp only [next] at h
      split at h
      · rename_i hb
        cases err <;> cases h <;> intro j hj <;> refine (hi j hj).imp id ?_
        all_goals
          rintro ⟨b, hb', hpending⟩
          rcases eq_or_ne i j with rfl | hne
          · exact ⟨_, Pool.getElem?_set hb, rfl⟩
          · exact ⟨b, (List.getElem?_set_ne hne).trans hb', hpending⟩
      · cases h
  | hand i =>
      simp only [next] at h
      split at h
      · split at h <;> cases h
        exact fun j hj => by cases hj
      · cases h
  | giveUp i =>
      simp only [next] at h
      split at h
      · split at h <;> cases h
        exact fun _ _ => .inl (by assumption)
      · cases h
  | builtClosed i =>
      simp only [next] at h
      split at h <;> cases h
      rename_i hb
      intro j hj
      refine (hi j hj).imp id ?_
      rintro ⟨b, hb', hpending⟩
      refine ⟨b, ?_, hpending⟩
      rcases eq_or_ne i j with rfl | hne
      · rw [hb] at hb'
        cases hb'
        cases hpending
      · exact (List.getElem?_set_ne hne).trans hb'
  | abandon | leave | check | resultClosed =>
      simp only [next] at h
      repeat' split at h
      all_goals cases h
      all_goals exact fun j hj => by cases hj
  | _ =>
      simp only [next] at h
      repeat' split at h
      all_goals cases h
      all_goals exact hi

/-! ## What was closed -/

/-- What a call of `Close` or `Shutdown` has closed. -/
def CloseInv (s : NATS) (c : CloseCall) : Prop :=
  (c.publisherErr.isSome = true → s.publisherClosed = true) ∧
    match c.place with
    | .publisher | .locking | .checking => True
    | .closing _ _ | .unlocking _ | .returned _ => s.closed = true

theorem next_closes (hi : ∀ c ∈ s.closes, s.CloseInv c) (h : s.next a = some s') :
    ∀ c ∈ s'.closes, s'.CloseInv c := by
  cases a with
  | shutdown | close =>
      simp only [next] at h
      split at h <;> cases h
      intro c hc
      rcases List.mem_append.mp hc with hold | hnew
      · exact hi c hold
      · rw [List.mem_singleton.mp hnew]
        exact ⟨fun hsome => by simp at hsome, trivial⟩
  | publisherClosed i err =>
      simp only [next] at h
      split at h <;> cases h
      exact Pool.forall_set (fun c hc => ⟨fun _ => rfl, (hi c hc).2⟩) ⟨fun _ => rfl, trivial⟩
  | lockClose i =>
      simp only [next] at h
      split at h
      · split at h <;> cases h
        rename_i hc _
        exact Pool.forall_set hi ⟨(hi _ (List.mem_of_getElem? hc)).1, trivial⟩
      · cases h
  | checkClose i =>
      simp only [next] at h
      split at h
      · rename_i publisherErr hc
        have hpublisher := (hi _ (List.mem_of_getElem? hc)).1
        split at h <;> cases h
        · exact Pool.forall_set hi ⟨hpublisher, by assumption⟩
        · refine Pool.forall_set (fun c hc => ⟨(hi c hc).1, ?_⟩) ⟨hpublisher, rfl⟩
          split <;> trivial
      · cases h
  | subscriberClosed | join | unlockClose =>
      simp only [next] at h
      split at h <;> cases h
      rename_i hc
      have hold := hi _ (List.mem_of_getElem? hc)
      exact Pool.forall_set hi hold
  | _ =>
      simp only [next] at h
      repeat' split at h
      all_goals cases h
      all_goals exact hi

/-! ## Coming to rest -/

/-- What is left to do, by the place of each goroutine. -/
def newRank : NewPlace → ℕ
  | .selecting _ => 3
  | .checking _ => 2
  | .waiting => 1
  | .closing _ | .returned | .failed => 0

def builderRank : Builder → ℕ
  | .offering _ => 1
  | _ => 0

def subscribeRank : SubscribePlace → ℕ
  | .locking => 4
  | .checking => 3
  | .appending _ => 2
  | .unlocking _ => 1
  | _ => 0

def closeRank (c : CloseCall) : ℕ :=
  match c.place with
  | .locking => 4
  | .checking => 3
  | .closing _ _ => 2
  | .unlocking _ => 1
  | .publisher | .returned _ => 0

def rank (s : NATS) : ℕ :=
  newRank s.new + (s.builders.map builderRank).sum + (s.subscribes.map subscribeRank).sum +
    (s.closes.map closeRank).sum

section Rank

variable {t : NATS} (d e : ℕ)

theorem rank_builders {b b' : Builder} (hb : s.builders[i]? = some b) (hbuilders : t.builders = s.builders.set i b')
    (hnew : t.new = s.new) (hsubscribes : t.subscribes = s.subscribes) (hcloses : t.closes = s.closes)
    (hrank : builderRank b' + d ≤ builderRank b + e) : t.rank + d ≤ s.rank + e := by
  have hset := Pool.sum_map_set (f := builderRank) (y := b') hb
  simp only [rank, hbuilders, hnew, hsubscribes, hcloses]
  omega

theorem rank_subscribes {p p' : SubscribePlace} (hp : s.subscribes[i]? = some p)
    (hsubscribes : t.subscribes = s.subscribes.set i p') (hnew : t.new = s.new) (hbuilders : t.builders = s.builders)
    (hcloses : t.closes = s.closes) (hrank : subscribeRank p' + d ≤ subscribeRank p + e) :
    t.rank + d ≤ s.rank + e := by
  have hset := Pool.sum_map_set (f := subscribeRank) (y := p') hp
  simp only [rank, hsubscribes, hnew, hbuilders, hcloses]
  omega

theorem rank_closes {c c' : CloseCall} (hc : s.closes[i]? = some c) (hcloses : t.closes = s.closes.set i c')
    (hnew : t.new = s.new) (hbuilders : t.builders = s.builders) (hsubscribes : t.subscribes = s.subscribes)
    (hrank : closeRank c' + d ≤ closeRank c + e) : t.rank + d ≤ s.rank + e := by
  have hset := Pool.sum_map_set (f := closeRank) (y := c') hc
  simp only [rank, hcloses, hnew, hbuilders, hsubscribes]
  omega

end Rank

theorem ranked : Ranked next NatsAction.own rank 4 where
  lowers {s s' a} h ha := by
    cases a with
    | abandon | leave | check =>
        simp only [next] at h
        repeat' split at h
        all_goals cases h
        all_goals simp [rank, newRank, *]
    | hand i =>
        simp only [next] at h
        split at h
        · split at h <;> cases h
          rename_i hb hnew
          have hset := Pool.sum_map_set (f := builderRank) (y := Builder.finished) hb
          simp only [rank, newRank, hnew, builderRank] at hset ⊢
          omega
        · cases h
    | giveUp i =>
        simp only [next] at h
        split at h
        · split at h <;> cases h
          rename_i result hb _
          exact rank_builders 1 0 hb rfl rfl rfl rfl (Nat.le_refl _)
        · cases h
    | lockSubscribe i =>
        simp only [next] at h
        split at h <;> cases h
        rename_i hp
        exact rank_subscribes 1 0 hp.1 rfl rfl rfl rfl (Nat.le_refl _)
    | checkSubscribe i =>
        simp only [next] at h
        split at h <;> cases h
        rename_i hp
        refine rank_subscribes 1 0 hp rfl rfl rfl rfl ?_
        split <;> simp [subscribeRank]
    | append i | unlockSubscribe i =>
        simp only [next] at h
        split at h <;> cases h
        rename_i hp
        exact rank_subscribes 1 0 hp rfl rfl rfl rfl (by simp [subscribeRank])
    | lockClose i =>
        simp only [next] at h
        split at h
        · split at h <;> cases h
          rename_i hc _
          exact rank_closes 1 0 hc rfl rfl rfl rfl (Nat.le_refl _)
        · cases h
    | checkClose i =>
        simp only [next] at h
        split at h
        · rename_i hc
          split at h <;> cases h <;> exact rank_closes 1 0 hc rfl rfl rfl rfl (by simp [closeRank])
        · cases h
    | join i | unlockClose i =>
        simp only [next] at h
        split at h <;> cases h
        rename_i hc
        exact rank_closes 1 0 hc rfl rfl rfl rfl (Nat.le_refl _)
    | _ => cases ha
  env {s s' a} h ha := by
    cases a with
    | attempt =>
        simp only [next] at h
        split at h <;> cases h
        rename_i hnew
        simp only [rank, hnew, newRank, List.map_append, List.map_cons, List.map_nil, List.sum_append, List.sum_cons,
          List.sum_nil, builderRank]
        omega
    | expire =>
        cases h
        exact Nat.le_add_right _ 4
    | built i err =>
        simp only [next] at h
        split at h
        · rename_i hb
          cases err <;> cases h <;> exact rank_builders 0 4 hb rfl rfl rfl rfl (by simp [builderRank])
        · cases h
    | builtClosed i =>
        simp only [next] at h
        split at h <;> cases h
        rename_i hb
        exact rank_builders 0 4 hb rfl rfl rfl rfl (by simp [builderRank])
    | resultClosed =>
        simp only [next] at h
        split at h <;> cases h
        rename_i hnew
        simp only [rank, hnew, newRank]
        omega
    | subscribe | shutdown | close =>
        simp only [next] at h
        split at h <;> cases h
        simp only [rank, List.map_append, List.map_cons, List.map_nil, List.sum_append, List.sum_cons, List.sum_nil,
          subscribeRank, closeRank]
        omega
    | look | connected =>
        simp only [next] at h
        split at h
        · rename_i err hp
          cases err <;> cases h <;> exact rank_subscribes 0 4 hp rfl rfl rfl rfl (by simp [subscribeRank])
        · cases h
    | configured | constructed | connClosed | delegated =>
        simp only [next] at h
        split at h <;> cases h
        all_goals rename_i hp
        all_goals exact rank_subscribes 0 4 hp rfl rfl rfl rfl (by simp [subscribeRank])
    | publisherClosed | subscriberClosed =>
        simp only [next] at h
        split at h <;> cases h
        rename_i hc
        exact rank_closes 0 4 hc rfl rfl rfl rfl (by simp [closeRank])
    | _ => cases ha

/-! ## At rest -/

/-- In a call of a library, or asking a context. -/
def subscribeCalls : SubscribePlace → Bool
  | .looking | .connecting | .configuring _ | .constructing _ | .closing _ _ | .delegating => true
  | _ => false

def closeCalls (c : CloseCall) : Bool :=
  match c.place with
  | .publisher | .closing (_ :: _) _ => true
  | _ => false

/-- No call of a library is under way. -/
structure Answered (s : NATS) : Prop where
  builders : ∀ b ∈ s.builders, b ≠ .constructing ∧ ∀ result, b ≠ .closing result
  new : ∀ result, s.new ≠ .closing result
  subscribes : ∀ p ∈ s.subscribes, subscribeCalls p = false
  closes : ∀ c ∈ s.closes, closeCalls c = false

section AtRest

variable (hrest : AtRest next NatsAction.own s) (hanswered : s.Answered)
include hrest hanswered

theorem builder_of_atRest (hattended : s.Attended) {b : Builder} (hb : b ∈ s.builders) : b = .finished := by
  obtain ⟨i, hget⟩ := List.mem_iff_getElem?.mp hb
  cases b with
  | finished => rfl
  | constructing => exact absurd rfl (hanswered.builders _ hb).1
  | closing result => exact absurd rfl ((hanswered.builders _ hb).2 result)
  | offering result =>
      -- the result is taken, or given up
      rcases hattended i _ hget rfl with hdone | hnew
      · have := hrest (.giveUp i) rfl
        simp [next, hget, hdone] at this
      · have := hrest (.hand i) rfl
        simp [next, hget, hnew] at this

theorem new_of_atRest (hattended : s.Attended) (hserved : s.Served) :
    s.new = .waiting ∧ s.ctxDone = false ∨ s.new = .returned ∨ s.new = .failed := by
  cases hnew : s.new with
  | waiting =>
      cases hdone : s.ctxDone with
      | false => exact .inl ⟨rfl, rfl⟩
      | true => have := hrest .abandon rfl; simp [next, hnew, hdone] at this
  | selecting i =>
      rcases hserved i hnew with hdone | ⟨b, hb, hpending⟩
      · have := hrest .leave rfl
        simp [next, hnew, hdone] at this
      · rw [builder_of_atRest hrest hanswered hattended (List.mem_of_getElem? hb)] at hpending
        cases hpending
  | checking result =>
      have := hrest .check rfl
      cases result with
      | publisher conn => cases hdone : s.ctxDone <;> simp [next, hnew, hdone] at this
      | err err => simp [next, hnew] at this
  | closing result => exact absurd hnew (hanswered.new result)
  | returned => exact .inr (.inl rfl)
  | failed => exact .inr (.inr rfl)

theorem subscribe_of_atRest {p : SubscribePlace} (hp : p ∈ s.subscribes) : p = .locking ∨ ∃ err, p = .returned err := by
  obtain ⟨i, hget⟩ := List.mem_iff_getElem?.mp hp
  cases p with
  | locking => exact .inl rfl
  | returned err => exact .inr ⟨err, rfl⟩
  | checking => have := hrest (.checkSubscribe i) rfl; simp [next, hget] at this
  | appending conn => have := hrest (.append i) rfl; simp [next, hget] at this
  | unlocking err => have := hrest (.unlockSubscribe i) rfl; simp [next, hget] at this
  | _ => cases hanswered.subscribes _ hp

theorem close_of_atRest {c : CloseCall} (hc : c ∈ s.closes) :
    c.place = .locking ∨ ∃ err, c.place = .returned err := by
  obtain ⟨i, hget⟩ := List.mem_iff_getElem?.mp hc
  obtain ⟨place, publisherErr⟩ := c
  cases place with
  | locking => exact .inl rfl
  | returned err => exact .inr ⟨err, rfl⟩
  | checking =>
      have := hrest (.checkClose i) rfl
      cases hclosed : s.closed <;> simp [next, hget, hclosed] at this
  | unlocking err => have := hrest (.unlockClose i) rfl; simp [next, hget] at this
  | publisher => cases hanswered.closes _ hc
  | closing rest errs =>
      cases rest with
      | nil => have := hrest (.join i) rfl; simp [next, hget] at this
      | cons conn rest => cases hanswered.closes _ hc

/-- The mutex is free. -/
theorem unlocked_of_atRest (hmutex : s.insiders = s.locked.toNat) : s.locked = false := by
  have hsubscribes : s.subscribes.countP (·.inside) = 0 := List.countP_eq_zero.mpr fun p hp => by
    rcases subscribe_of_atRest hrest hanswered hp with rfl | ⟨err, rfl⟩ <;> exact Bool.false_ne_true
  have hcloses : s.closes.countP (·.inside) = 0 := List.countP_eq_zero.mpr fun c hc => by
    rcases close_of_atRest hrest hanswered hc with hplace | ⟨err, hplace⟩ <;> simp [CloseCall.inside, hplace]
  rw [insiders, hsubscribes, hcloses] at hmutex
  cases hlocked : s.locked with
  | false => rfl
  | true => rw [hlocked] at hmutex; cases hmutex

/-- So nobody waits for it. -/
theorem calls_of_atRest (hmutex : s.insiders = s.locked.toNat) :
    (∀ p ∈ s.subscribes, ∃ err, p = .returned err) ∧ ∀ c ∈ s.closes, ∃ err, c.place = .returned err := by
  have hunlocked := unlocked_of_atRest hrest hanswered hmutex
  constructor
  · intro p hp
    obtain ⟨i, hget⟩ := List.mem_iff_getElem?.mp hp
    rcases subscribe_of_atRest hrest hanswered hp with rfl | hreturned
    · have := hrest (.lockSubscribe i) rfl
      simp [next, hget, hunlocked] at this
    · exact hreturned
  · intro c hc
    obtain ⟨i, hget⟩ := List.mem_iff_getElem?.mp hc
    rcases close_of_atRest hrest hanswered hc with hplace | hreturned
    · obtain ⟨place, publisherErr⟩ := c
      cases hplace
      have := hrest (.lockClose i) rfl
      simp [next, hget, hunlocked] at this
    · exact hreturned

/-- Only the engine itself holds connections. -/
theorem holders_of_atRest (hmutex : s.insiders = s.locked.toNat) (hattended : s.Attended) (hserved : s.Served)
    (r : ℕ) : s.holders r = s.live.count r := by
  obtain ⟨hsubscribes, hcloses⟩ := calls_of_atRest hrest hanswered hmutex
  have hbuilder : (s.builders.map (·.holds.count r)).sum = 0 := by
    refine List.sum_eq_zero_iff_forall_eq_nat.mpr fun n hn => ?_
    obtain ⟨b, hb, rfl⟩ := List.mem_map.mp hn
    rw [builder_of_atRest hrest hanswered hattended hb]
    rfl
  have hsubscribe : (s.subscribes.map (·.holds.count r)).sum = 0 := by
    refine List.sum_eq_zero_iff_forall_eq_nat.mpr fun n hn => ?_
    obtain ⟨p, hp, rfl⟩ := List.mem_map.mp hn
    obtain ⟨err, rfl⟩ := hsubscribes p hp
    rfl
  have hclose : (s.closes.map (·.holds.count r)).sum = 0 := by
    refine List.sum_eq_zero_iff_forall_eq_nat.mpr fun n hn => ?_
    obtain ⟨c, hc, rfl⟩ := List.mem_map.mp hn
    obtain ⟨err, hplace⟩ := hcloses c hc
    rw [CloseCall.holds, hplace]
    rfl
  have hnew : s.new.holds = [] := by
    rcases new_of_atRest hrest hanswered hattended hserved with ⟨hnew, -⟩ | hnew | hnew <;> rw [hnew] <;> rfl
  rw [holders, hbuilder, hsubscribe, hclose, hnew, List.count_nil]
  omega

end AtRest

/-- The code takes a bounded number of steps for the attempts that are made, what the libraries
answer and the calls that arrive, and always comes to rest. At rest with no call of a library
under way, every call has returned, `New` has returned or has an attempt to make, and each
connection that was made is closed or the engine's own. If `New` has failed there is none left, and
neither is once a `Shutdown` was called; once a `Close` was, no subscriber is left. -/
theorem connections_closed (h : runs next init as = some s) :
    as.countP NatsAction.own ≤ 1 + 4 * as.countP (fun a => !a.own) ∧
      (∃ bs s', (∀ b ∈ bs, NatsAction.own b = true) ∧ runs next s bs = some s' ∧ AtRest next NatsAction.own s') ∧
      (AtRest next NatsAction.own s → s.Answered →
        (s.new = .waiting ∧ s.ctxDone = false ∨ s.new = .returned ∨ s.new = .failed) ∧
        (∀ p ∈ s.subscribes, ∃ err, p = .returned err) ∧ (∀ c ∈ s.closes, ∃ err, c.place = .returned err) ∧
        (∀ r, r < s.connections.acquired → r ∈ s.connections.released ∨ r ∈ s.live) ∧
        (s.new ≠ .returned → ∀ r, r < s.connections.acquired → r ∈ s.connections.released) ∧
        (s.closes ≠ [] → ∀ r, r < s.connections.acquired → r ∈ s.connections.released ∨ s.publisher = some r) ∧
        ((∃ c ∈ s.closes, c.publisherErr.isSome = true) →
          ∀ r, r < s.connections.acquired → r ∈ s.connections.released)) := by
  have hi : s.Inv := runs_invariant next_inv init_inv h
  have hattended : s.Attended := runs_invariant next_attended (fun i b hb => by simp [init] at hb) h
  have hserved : s.Served := runs_invariant next_served (fun i hnew => by cases hnew) h
  have hcloseInv : ∀ c ∈ s.closes, s.CloseInv c :=
    runs_invariant next_closes (fun _ hc => absurd hc List.not_mem_nil) h
  have hbound := ranked.bound h
  rw [show rank init = 1 from rfl] at hbound
  refine ⟨by omega, ranked.exists_atRest s, fun hrest hanswered => ?_⟩
  obtain ⟨hsubscribes, hcloses⟩ := calls_of_atRest hrest hanswered hi.mutex
  have hlive (r : ℕ) (hr : r < s.connections.acquired) : r ∈ s.connections.released ∨ r ∈ s.live := by
    refine (hi.balanced.released_or_held hr).imp id fun hone => List.count_pos_iff.mp ?_
    rw [← holders_of_atRest hrest hanswered hi.mutex hattended hserved, hone]
    exact Nat.one_pos
  have hclosed {c : CloseCall} (hc : c ∈ s.closes) : s.closed = true := by
    obtain ⟨err, hplace⟩ := hcloses c hc
    have hinv := (hcloseInv c hc).2
    rw [hplace] at hinv
    exact hinv
  refine ⟨new_of_atRest hrest hanswered hattended hserved, hsubscribes, hcloses, hlive, fun hnew r hr => ?_,
    fun hne r hr => ?_, fun ⟨c, hc, hsome⟩ r hr => ?_⟩
  · refine (hlive r hr).resolve_right ?_
    rw [(hi.fresh hnew).live]
    exact List.not_mem_nil
  · obtain ⟨c, hc⟩ := List.exists_mem_of_ne_nil _ hne
    refine (hlive r hr).imp id fun hmem => ?_
    rw [live, hclosed hc, if_pos rfl, List.append_nil] at hmem
    split at hmem
    · cases hmem
    · simpa using hmem
  · refine (hlive r hr).resolve_right ?_
    rw [live, hclosed hc, (hcloseInv c hc).1 hsome]
    exact List.not_mem_nil

/-- A backend with one subscription that is shut down while another is about to begin. -/
def shutdownRun : List NatsAction :=
  [.attempt, .built 0 none, .hand 0, .check, .subscribe, .lockSubscribe 0, .checkSubscribe 0, .look 0 none,
    .connected 0 none, .configured 0 none, .constructed 0 none, .append 0, .delegated 0 none, .unlockSubscribe 0,
    .subscribe, .shutdown, .publisherClosed 0 none, .lockClose 0, .checkClose 0, .subscriberClosed 0 none, .join 0,
    .unlockClose 0, .lockSubscribe 1, .checkSubscribe 1, .unlockSubscribe 1]

theorem connections_closed_shutdown : ∃ s bs s', runs next init shutdownRun = some s ∧
    s.connections.released = [0, 1] ∧ (∀ b ∈ bs, NatsAction.own b = true) ∧ runs next s bs = some s' ∧
    AtRest next NatsAction.own s' := by
  obtain ⟨s, h, hreleased⟩ : ∃ s, runs next init shutdownRun = some s ∧ s.connections.released = [0, 1] :=
    ⟨_, rfl, rfl⟩
  obtain ⟨-, ⟨bs, s', hown, hrun, hrest⟩, -⟩ := connections_closed h
  exact ⟨s, bs, s', h, hreleased, hown, hrun, hrest⟩

end NATS
end Go42.Events.Nats
