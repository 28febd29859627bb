-- SUMMARY: Concurrent changes of one account: the committed ones form a chain, each proved and computed from the row the one before it left, and a call that loses the race leaves no trace.
import Go42.Auth.Runs

/-!
# Changes of credentials
-/

namespace Go42.Auth

variable {P : Platform} {S : Service} {w : World} {s : (system P S).State}

/-- The change from `prev` to `next` is what a thread with facts `F` computed from the row it
read, which was `prev` in everything that matters, after it proved the password in `prev`. -/
structure ComputedFrom (P : Platform) (data : UpdateUserData) (currentPassword : Option GoString)
    (F : List Fact) (prev next : User) : Prop where
  row : ∃ u updated now, (∀ v, .read v ∈ F ↔ v = u) ∧ SameRow u prev ∧ Computed P data F u updated ∧
    next = prev.updates updated now
  alive : prev.deletedAt = none
  proved : Proved F prev currentPassword
  version : next.credentialVersion = prev.credentialVersion + 1

theorem Computed.mono {data : UpdateUserData} {F F' : List Fact} {u updated : User}
    (h : Computed P data F u updated) (hF : F ⊆ F') : Computed P data F' u updated :=
  ⟨h.id, h.uuid, h.status, h.version, h.keepsEmail, h.newEmail, h.keepsPassword, fun pw hpw => by
    obtain ⟨hash, hhash, heq⟩ := h.newPassword pw hpw
    exact ⟨hash, hF hhash, heq⟩⟩

/-- An update statement was allowed on what its thread had read and proved. -/
theorem allowed_of_updated {call : Call} {F : List Fact} {c : Cmd} {o : Outcome (Res c)}
    {id version : ℤ} {updated : User} {n : ℕ} {now : ℤ} (ha : allowed P call F c)
    (hobs : observe c o = some (.updated id version updated n now)) :
    ∃ u data current, (∀ v, .read v ∈ F ↔ v = u) ∧ call.update? = some (data, current) ∧
      Computed P data F u updated ∧ Proved F u current := by
  cases o with
  | failed => cases hobs
  | panicked => cases hobs
  | returned a =>
      cases c with
      | sql conn q =>
          cases q with
          | updateUser id' version' u =>
              obtain ⟨-, -, v, data, current, hread, hcall, -, -, hcomp, hproved⟩ := ha
              cases hobs
              exact ⟨v, data, current, hread, hcall, hcomp, hproved⟩
          | _ => cases hobs
      | _ => cases hobs

theorem not_update_of_deleted {call : Call} {F : List Fact} {c : Cmd} {o : Outcome (Res c)}
    {id : ℤ} (ha : allowed P call F c) (hobs : observe c o = some (.deleted id)) :
    call.update? = none := by
  cases o with
  | failed => cases hobs
  | panicked => cases hobs
  | returned a =>
      cases c with
      | sql conn q =>
          cases q with
          | deleteUser id' => exact ha.2.2
          | _ => cases hobs
      | _ => cases hobs

theorem SameRow.passwordHash {u r : User} (h : SameRow u r) : r.passwordHash = u.passwordHash := by
  simp [User.passwordHash, h.password]

theorem SameRow.isActive {u r : User} (h : SameRow u r) : r.isActive = u.isActive := by
  simp [User.isActive, h.status]

/-- A committed change of an update call. -/
theorem computedFrom_of_justified {init : List User} (hg : Healthy P S init s) {T : ℕ}
    {call : Call} {p} {data : UpdateUserData} {current : Option GoString}
    (hT : s.pool[T]? = some ⟨call, p⟩) (hcall : call.update? = some (data, current))
    {prev next : User} (hj : Justified (s.log.facts observe T) prev next) :
    ComputedFrom P data current (s.log.facts observe T) prev next := by
  have hversion := hj.version
  cases hj with
  | delete now hdel _ _ =>
      obtain ⟨r, log, hsuf, rfl, hobs, ha⟩ := hg.allowed_of_fact hT hdel
      rw [not_update_of_deleted ha hobs] at hcall
      cases hcall
  | update u updated now hup hread hsame halive hpos huuid hstatus hv hnext =>
      obtain ⟨r, log, hsuf, rfl, hobs, ha⟩ := hg.allowed_of_fact hT hup
      obtain ⟨v, data', current', hread', hcall', hcomp, hproved⟩ := allowed_of_updated ha hobs
      have hmono : log.facts observe r.thread ⊆ s.log.facts observe r.thread := fun f hf =>
        Log.facts_of_suffix ((List.suffix_cons _ _).trans hsuf) hf
      rw [hcall] at hcall'
      cases hcall'
      obtain rfl : v = u := (hread v).mp (hmono ((hread' v).mpr rfl))
      refine ⟨⟨v, updated, now, hread, hsame, hcomp.mono hmono, hnext⟩, halive, fun pw hpw => ?_, ?_⟩
      · obtain ⟨hcompared, hactive⟩ := hproved pw hpw
        exact ⟨hsame.passwordHash ▸ hmono hcompared, hsame.isActive.trans hactive⟩
      · refine hversion.resolve_right fun h => ?_
        simp [hnext, User.updates, halive] at h

/-- Concurrent changes of one account are one after the other: each starts from the row
that the one before it left. An update is computed from that row after the password in it
was proved, and raises the version by one. A call that fails, in particular one that found
its row changed, commits nothing. -/
theorem credential_changes_serialize (hw : w.Initial) {as : List (Action Choice Call Env)}
    (h : (system P S).run ((system P S).init w) as = some s) :
    (∀ r ∈ s.world.db.committed.users, ∃ u₀,
      (u₀ ∈ w.db.committed.users ∨ ∃ rec ∈ s.log, .insertUser u₀ ∈ rec.effect) ∧
        Linked u₀ (changes r.id s.log) r) ∧
    (∀ rec ∈ s.log, ∀ prev next, .setUser prev next ∈ rec.effect → ∀ call p data current,
      s.pool[rec.thread]? = some ⟨call, p⟩ → call.update? = some (data, current) →
      ComputedFrom P data current (s.log.facts observe rec.thread) prev next) ∧
    ∀ T call o data current, s.Finished T call o → call.update? = some (data, current) →
      (o.isReturned = false → ∀ rec ∈ s.log, rec.thread = T → rec.effect = []) ∧
      ∀ id version updated now, .updated id version updated 0 now ∈ s.log.facts observe T →
        o.isReturned = false ∧ ∀ e, o = .failed e → e.is errInvalidCredentials = true := by
  have hg := healthy_run hw h
  refine ⟨hg.inv.user.chain, fun rec hrec prev next hset call p data current hT hcall =>
    computedFrom_of_justified hg hT hcall (hg.inv.user.changed hrec hset).1,
    fun T call o data current hfin hcall => ?_⟩
  have hend : Ended P data (s.log.facts observe T) o := by
    have := hg.finished hfin
    cases call <;> cases hcall <;> exact this
  refine ⟨fun hbad rec hrec hT => ?_, hend.lost⟩
  obtain ⟨newer, older, heq⟩ := List.append_of_mem hrec
  obtain ⟨s₁, s₂, ch, call', hg₁, rfl, ha, hM, -, -⟩ :=
    System.Good.record (sound _) (Inv.init hw) h ⟨newer, heq.symm⟩
  refine Ended.effect_nil (hT ▸ hend) (.inl hbad) hg₁.inv.user ha hM fun f hf => ?_
  exact Log.facts_of_suffix ⟨newer, heq.symm⟩ hf

/-- Two changes of one account race; the password of the first was checked before the second
commits. -/
def race : List (Action Choice Call Env) :=
  .spawn (.updateSelf ann.uuid ⟨⟨some (.utf8 "eve@go42.dev"), none⟩, .utf8 "correct horse"⟩) ::
    steps 0 4 ++ .spawn (.updateUser ann.uuid ⟨some (.utf8 "bob@go42.dev"), none⟩) :: steps 1 4 ++
    .step 1 (.uuid (smallUUID '8')) :: steps 1 2 ++ steps 0 2

theorem race_run : ∃ s, smallRun race = some s ∧
    s.finished? 0 = some (.updateSelf ann.uuid
      ⟨⟨some (.utf8 "eve@go42.dev"), none⟩, .utf8 "correct horse"⟩,
      .failed (.wrap "failed to update user: " errInvalidCredentials "")) ∧
    (s.finished? 1).map Prod.snd = some (.returned .nil) ∧
    (changes 1 s.log).map (·.2.email) = ["bob@go42.dev"] :=
  System.exists_of_any (by decide +kernel)

theorem credential_changes_serialize_race : ∃ s, smallRun race = some s ∧
    (∀ rec ∈ s.log, rec.thread = 0 → rec.effect = []) ∧
    ∀ r ∈ s.world.db.committed.users, ∃ u₀, Linked u₀ (changes r.id s.log) r := by
  obtain ⟨s, hs, hlost, -, -⟩ := race_run
  obtain ⟨hchain, -, hfin⟩ := credential_changes_serialize smallWorld_initial hs
  refine ⟨s, hs, (hfin 0 _ _ _ _ (System.finished_iff.mp hlost) rfl).1 rfl, fun r hr => ?_⟩
  obtain ⟨u₀, -, hlink⟩ := hchain r hr
  exact ⟨u₀, hlink⟩

end Go42.Auth
