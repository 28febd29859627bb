-- SUMMARY: The life of a row of auth_users over all runs: committed changes form a chain, each computed from the row it replaces, and every row ever read grows old.
import Go42.Auth.Conformance
import Go42.Auth.Step

/-!
# The rows of `auth_users`

A change of a user is computed from a row read earlier and written under a condition
on the version of that row. The invariant relates every row that was ever read, held
in a snapshot or left by a committed change to the row that is current now.
-/

namespace Go42.Auth

variable {P : Platform} {F : List Fact}

/-! ## Ageing rows -/

/-- `r` is `u`, or what committed changes made of it: a change raises the version or
deletes the row, and a deleted row does not change. -/
structure User.Later (u r : User) : Prop where
  id : r.id = u.id
  uuid : r.uuid = u.uuid
  status : r.status = u.status
  age : r = u ∨ u.deletedAt = none ∧ (u.credentialVersion < r.credentialVersion ∨
    r.credentialVersion = u.credentialVersion ∧ r.email = u.email ∧ r.password = u.password ∧
      r.deletedAt.isSome = true)

theorem User.Later.refl (u : User) : u.Later u := ⟨rfl, rfl, rfl, .inl rfl⟩

theorem User.Later.trans {u r s : User} (h₁ : u.Later r) (h₂ : r.Later s) : u.Later s := by
  refine ⟨h₂.id.trans h₁.id, h₂.uuid.trans h₁.uuid, h₂.status.trans h₁.status, ?_⟩
  rcases h₁.age with rfl | ⟨hu, h₁⟩
  · exact h₂.age
  · rcases h₂.age with rfl | ⟨hr, h₂⟩
    · exact .inr ⟨hu, h₁⟩
    · rcases h₁ with h₁ | ⟨-, -, -, hdel⟩
      · rcases h₂ with h₂ | ⟨h₂, -⟩
        · exact .inr ⟨hu, .inl (h₁.trans h₂)⟩
        · exact .inr ⟨hu, .inl (h₂ ▸ h₁)⟩
      · simp [hr] at hdel

theorem User.Later.version_le {u r : User} (h : u.Later r) :
    u.credentialVersion ≤ r.credentialVersion := by
  rcases h.age with rfl | ⟨-, h | ⟨h, -⟩⟩ <;> omega

/-- Two rows that agree on everything a change is computed from. -/
structure SameRow (u r : User) : Prop where
  id : r.id = u.id
  uuid : r.uuid = u.uuid
  status : r.status = u.status
  email : r.email = u.email
  password : r.password = u.password
  version : r.credentialVersion = u.credentialVersion

theorem User.Later.sameRow {u r : User} (h : u.Later r)
    (hv : r.credentialVersion = u.credentialVersion) : SameRow u r := by
  rcases h.age with rfl | ⟨-, h' | ⟨-, he, hp, -⟩⟩
  · exact ⟨rfl, rfl, rfl, rfl, rfl, rfl⟩
  · omega
  · exact ⟨h.id, h.uuid, h.status, he, hp, hv⟩

/-- A change from `prev` to `next` by a thread with facts `F`: an update computed from the
one row it read, which agrees with `prev`, or a deletion. -/
inductive Justified (F : List Fact) (prev next : User) : Prop where
  | update (u updated : User) (now : ℤ) :
      .updated u.id u.credentialVersion updated 1 now ∈ F → (∀ v, .read v ∈ F ↔ v = u) →
      SameRow u prev → prev.deletedAt = none → 1 ≤ u.credentialVersion →
      updated.uuid = u.uuid → updated.status = u.status →
      updated.credentialVersion = u.credentialVersion + 1 → next = prev.updates updated now →
      Justified F prev next
  | delete (now : ℤ) : .deleted prev.id ∈ F → prev.deletedAt = none →
      next = { prev with deletedAt := some now } → Justified F prev next

/-- A read is allowed only before the thread has changed a user or opened a session. -/
theorem allowed_of_read {call : Call} {c : Cmd} {o : Outcome (Res c)} {u : User}
    (ha : allowed P call F c) (hobs : observe c o = some (.read u)) :
    Without Fact.isOpened F ∧ Without Fact.changesUser F := by
  cases o with
  | failed => cases hobs
  | panicked => cases hobs
  | returned a =>
      cases c with
      | sql conn q =>
          cases q with
          | selectUser f => exact ha
          | _ => simp [observe, evidence] at hobs
      | _ => simp [observe, evidence] at hobs

namespace Justified

variable {prev next : User}

theorem id (h : Justified F prev next) : next.id = prev.id := by
  cases h with
  | update u updated now _ _ _ _ _ _ _ _ hnext => rw [hnext]; rfl
  | delete now _ _ hnext => rw [hnext]

/-- An update raises the version by one; a deletion keeps it. -/
theorem version (h : Justified F prev next) :
    next.credentialVersion = prev.credentialVersion + 1 ∨
      next.credentialVersion = prev.credentialVersion ∧ next.deletedAt.isSome = true := by
  cases h with
  | update u updated now _ _ hsame _ hpos _ _ hv hnext =>
      left
      rw [hnext]
      simp only [User.updates, hv]
      rw [if_neg (by omega), hsame.version]
  | delete now _ _ hnext => rw [hnext]; exact .inr ⟨rfl, rfl⟩

theorem later (h : Justified F prev next) : prev.Later next := by
  cases h with
  | update u updated now hup hread hsame halive hpos huuid hstatus hv hnext =>
      have hver := version (.update u updated now hup hread hsame halive hpos huuid hstatus hv hnext)
      refine ⟨by rw [hnext]; rfl, ?_, ?_, .inr ⟨halive, ?_⟩⟩
      · rw [hnext]
        simp only [User.updates, huuid, hsame.uuid, ite_self]
      · rw [hnext]
        simp only [User.updates, hstatus, hsame.status]
      · rcases hver with h | ⟨-, h⟩
        · exact .inl (by omega)
        · rw [hnext] at h
          simp [User.updates, halive] at h
  | delete now _ halive hnext =>
      rw [hnext]
      exact ⟨rfl, rfl, rfl, .inr ⟨halive, .inr ⟨rfl, rfl, rfl, rfl⟩⟩⟩

/-- The thread of a change reads no further row, so its later facts do not disturb it. -/
theorem step (h : Justified F prev next) {c : Cmd} {o : Outcome (Res c)} {call : Call}
    (ha : allowed P call F c) : Justified ((observe c o).toList ++ F) prev next := by
  cases h with
  | delete now hdel halive hnext => exact .delete now (by simp [hdel]) halive hnext
  | update u updated now hup hread hsame halive hpos huuid hstatus hv hnext =>
      refine .update u updated now (by simp [hup]) (fun v => ?_) hsame halive hpos huuid hstatus hv
        hnext
      rw [← hread v, List.mem_append, Option.mem_toList]
      refine ⟨fun hmem => hmem.resolve_left fun hobs => ?_, .inr⟩
      -- A read is not allowed once the thread has changed a user.
      simpa [Fact.changesUser] using (allowed_of_read ha hobs).2 _ hup

end Justified

/-! ## Rows under locks -/

/-- A write on `auth_users`. -/
def Write.isUser : Write → Bool
  | .insertUser _ | .setUser _ _ => true
  | _ => false

/-- A write on `auth_sessions`. -/
def Write.isSession : Write → Bool
  | .insertSession _ | .setSession _ | .deleteSession _ => true
  | _ => false

/-- Only the writes on `auth_users` matter to its rows. -/
theorem users_applyAll_filter (ws : List Write) :
    ∀ t : Tables, (applyAll t ws).users = (applyAll t (ws.filter Write.isUser)).users := by
  induction ws with
  | nil => intro t; rfl
  | cons w ws ih =>
      intro t
      have hcongr : ∀ (ws : List Write) (t t' : Tables), t.users = t'.users →
          (applyAll t ws).users = (applyAll t' ws).users := by
        intro ws
        induction ws with
        | nil => exact fun t t' h => h
        | cons w ws ih =>
            intro t t' h
            refine ih _ _ ?_
            cases w <;> simp only [apply, Tables.applyWrite, h]
      cases hw : w.isUser with
      | true => rw [List.filter_cons_of_pos hw, applyAll_cons, applyAll_cons, ih]
      | false =>
          rw [List.filter_cons_of_neg (by simp [hw]), applyAll_cons, ih]
          refine hcongr _ _ _ ?_
          cases w <;> first | rfl | cases hw

/-- The one write of an open transaction on `auth_users`, if any: it replaces a row that is
current and locked, or adds a row under a key that is unused and locked. -/
inductive Pending (F : List Fact) (us : List User) (tx : Tx Tables Write Lock) : Prop where
  | none : tx.writes.filter Write.isUser = [] → Pending F us tx
  | set (prev next : User) : tx.writes.filter Write.isUser = [.setUser prev next] →
      prev ∈ us → .user prev.id ∈ tx.locks → Justified F prev next → Pending F us tx
  | new (u : User) : tx.writes.filter Write.isUser = [.insertUser u] →
      (∀ v ∈ us, v.id ≠ u.id) → .user u.id ∈ tx.locks → 1 ≤ u.credentialVersion → Pending F us tx

/-- What holds of an open transaction of a thread with facts `F`. -/
structure TxInv (F : List Fact) (us : List User) (tx : Tx Tables Write Lock) : Prop where
  pending : Pending F us tx
  backed : Without Fact.changesUser F → tx.writes.filter Write.isUser = []
  recorded : Without Fact.changesUser F → .recorded .transaction ∉ F → tx.writes = []
  noSession : ∀ w ∈ tx.writes, w.isSession = false
  snapshot : ∀ u ∈ tx.snapshot.users, ∃ r ∈ us, u.Later r

/-- One step of the committed rows. -/
inductive UserStep (F : List Fact) (us us' : List User) (e : List Write) : Prop where
  | same : e.filter Write.isUser = [] → us' = us → UserStep F us us' e
  | set (prev next : User) : e.filter Write.isUser = [.setUser prev next] → prev ∈ us →
      Justified F prev next → us' = us.map (fun u => if u.id = prev.id then next else u) →
      UserStep F us us' e
  | new (u : User) : e.filter Write.isUser = [.insertUser u] → (∀ v ∈ us, v.id ≠ u.id) →
      1 ≤ u.credentialVersion → us' = us ++ [u] → UserStep F us us' e

/-- Rows are found by their key. -/
theorem eq_of_key {us : List User} (h : (us.map User.id).Nodup) {u v : User} (hu : u ∈ us)
    (hv : v ∈ us) (hid : u.id = v.id) : u = v :=
  List.inj_on_of_nodup_map h hu hv hid

namespace UserStep

variable {us us' : List User} {e : List Write}

theorem ages (hkeys : (us.map User.id).Nodup) (h : UserStep F us us' e) {u : User} (hu : u ∈ us) :
    ∃ r ∈ us', u.Later r := by
  cases h with
  | same _ heq => exact ⟨u, heq ▸ hu, .refl u⟩
  | set prev next _ hprev hj heq =>
      subst heq
      refine ⟨_, List.mem_map.mpr ⟨u, hu, rfl⟩, ?_⟩
      split
      · rename_i hid
        cases eq_of_key hkeys hu hprev hid
        exact hj.later
      · exact .refl u
  | new v _ _ _ heq => exact ⟨u, heq ▸ List.mem_append_left _ hu, .refl u⟩

theorem keys (hkeys : (us.map User.id).Nodup) (h : UserStep F us us' e) :
    (us'.map User.id).Nodup := by
  cases h with
  | same _ heq => exact heq ▸ hkeys
  | set prev next _ hprev hj heq =>
      have hmap : us'.map User.id = us.map User.id := by
        rw [heq, List.map_map]
        refine List.map_congr_left fun u _ => ?_
        simp only [Function.comp_apply]
        split
        · rename_i hid; rw [hj.id, hid]
        · rfl
      exact hmap ▸ hkeys
  | new v _ hnew _ heq =>
      subst heq
      rw [List.map_append]
      refine List.nodup_append.mpr ⟨hkeys, by simp, ?_⟩
      simp only [List.map_cons, List.map_nil, List.mem_singleton, List.mem_map]
      rintro _ ⟨u, hu, rfl⟩ _ rfl
      exact hnew u hu

theorem versions (hpos : ∀ u ∈ us, 1 ≤ u.credentialVersion) (h : UserStep F us us' e) :
    ∀ u ∈ us', 1 ≤ u.credentialVersion := by
  cases h with
  | same _ heq => exact heq ▸ hpos
  | set prev next _ hprev hj heq =>
      subst heq
      intro u hu
      obtain ⟨v, hv, rfl⟩ := List.mem_map.mp hu
      split
      · have := hpos prev hprev
        rcases hj.version with h | ⟨h, -⟩ <;> omega
      · exact hpos v hv
  | new v _ _ hv heq =>
      subst heq
      intro u hu
      rcases List.mem_append.mp hu with hu | hu
      · exact hpos u hu
      · cases List.mem_singleton.mp hu; exact hv

end UserStep

/-- Committing applies what was pending. -/
theorem TxInv.commit {t : Tables} {tx : Tx Tables Write Lock} (h : TxInv F t.users tx) :
    UserStep F t.users (applyAll t tx.writes).users tx.writes := by
  have hfilter := users_applyAll_filter tx.writes t
  cases h.pending with
  | none hnil => exact .same hnil (by rw [hfilter, hnil]; rfl)
  | set prev next hset hprev _ hj => exact .set prev next hset hprev hj (by rw [hfilter, hset]; rfl)
  | new u hnew hid _ hpos => exact .new u hnew hid hpos (by rw [hfilter, hnew]; rfl)

/-- What other transactions commit leaves a transaction its rows. -/
theorem TxInv.frame {us us' : List User} {tx : Tx Tables Write Lock} {F' : List Fact}
    {e : List Write} (h : TxInv F us tx) (hkeys : (us.map User.id).Nodup)
    (hs : UserStep F' us us' e)
    (hset : ∀ prev next, e.filter Write.isUser = [.setUser prev next] → .user prev.id ∉ tx.locks)
    (hnew : ∀ u, e.filter Write.isUser = [.insertUser u] → .user u.id ∉ tx.locks) :
    TxInv F us' tx := by
  refine ⟨?_, h.backed, h.recorded, h.noSession, fun u hu => ?_⟩
  · cases h.pending with
    | none hnil => exact .none hnil
    | set prev next heq hprev hlock hj =>
        refine .set prev next heq ?_ hlock hj
        cases hs with
        | same _ hus => exact hus ▸ hprev
        | set prev' next' he _ _ hus =>
            rw [hus, List.mem_map]
            refine ⟨prev, hprev, if_neg fun hid : prev.id = prev'.id => hset prev' next' he (hid ▸ hlock)⟩
        | new v _ _ _ hus => exact hus ▸ List.mem_append_left _ hprev
    | new u heq hid hlock hpos =>
        refine .new u heq (fun v hv => ?_) hlock hpos
        cases hs with
        | same _ hus => exact hid v (hus ▸ hv)
        | set prev' next' he hprev' hj hus =>
            rw [hus, List.mem_map] at hv
            obtain ⟨v', hv', rfl⟩ := hv
            split
            · rw [hj.id]; exact hid prev' hprev'
            · exact hid v' hv'
        | new u' he _ _ hus =>
            rw [hus] at hv
            rcases List.mem_append.mp hv with hv | hv
            · exact hid v hv
            · cases List.mem_singleton.mp hv
              exact fun hidv => hnew v he (hidv ▸ hlock)
  · obtain ⟨r, hr, hur⟩ := h.snapshot u hu
    obtain ⟨r', hr', hrr⟩ := hs.ages hkeys hr
    exact ⟨r', hr', hur.trans hrr⟩

/-- More facts of its own thread do not disturb a transaction. -/
theorem TxInv.facts {us : List User} {tx : Tx Tables Write Lock} {call : Call} {c : Cmd}
    {o : Outcome (Res c)} (h : TxInv F us tx) (ha : allowed P call F c) :
    TxInv ((observe c o).toList ++ F) us tx := by
  have hwithout : ∀ kind, Without kind ((observe c o).toList ++ F) → Without kind F :=
    fun kind hw f hf => hw f (List.mem_append_right _ hf)
  refine ⟨?_, fun hw => h.backed (hwithout _ hw), fun hw hr => h.recorded (hwithout _ hw)
    fun hmem => hr (List.mem_append_right _ hmem), h.noSession, h.snapshot⟩
  cases h.pending with
  | none hnil => exact .none hnil
  | set prev next heq hprev hlock hj => exact .set prev next heq hprev hlock (hj.step ha)
  | new u heq hid hlock hpos => exact .new u heq hid hlock hpos

/-- A read in a transaction that has not changed a user finds a row that is current or was
current when the transaction began. -/
theorem TxInv.read {t : Tables} {tx : Tx Tables Write Lock} {snapshot : Bool} {u : User}
    {emailEq : String → String → Bool} {f : UserFilter} (h : TxInv F t.users tx)
    (hF : Without Fact.changesUser F)
    (hu : (applyAll (if snapshot then tx.snapshot else t) tx.writes).findUser emailEq f = some u) :
    ∃ r ∈ t.users, u.Later r := by
  have hmem := List.mem_of_find?_eq_some hu
  rw [users_applyAll_filter, h.backed hF, applyAll_nil] at hmem
  cases snapshot with
  | true => exact h.snapshot u hmem
  | false => exact ⟨u, hmem, .refl u⟩

/-- A write that is not on `auth_users`. -/
theorem TxInv.addOther {us : List User} {tx : Tx Tables Write Lock} {v : Write} {ls : List Lock}
    (h : TxInv F us tx) (hF : .recorded .transaction ∈ F) (hv : v.isUser = false)
    (hv' : v.isSession = false) : TxInv F us ⟨tx.snapshot, tx.writes ++ [v], tx.locks ++ ls⟩ := by
  have hfilter : (tx.writes ++ [v]).filter Write.isUser = tx.writes.filter Write.isUser := by
    simp [hv]
  refine ⟨?_, fun hw => hfilter.trans (h.backed hw), fun _ hr => absurd hF hr, fun w hw => ?_,
    h.snapshot⟩
  · cases h.pending with
    | none hnil => exact .none (hfilter.trans hnil)
    | set prev next heq hprev hlock hj =>
        exact .set prev next (hfilter.trans heq) hprev (List.mem_append_left _ hlock) hj
    | new u heq hid hlock hpos =>
        exact .new u (hfilter.trans heq) hid (List.mem_append_left _ hlock) hpos
  · rcases List.mem_append.mp hw with hw | hw
    · exact h.noSession w hw
    · cases List.mem_singleton.mp hw; exact hv'

/-- The first write on `auth_users`. -/
theorem TxInv.addUser {us : List User} {tx : Tx Tables Write Lock} {v : Write} {ls : List Lock}
    (h : TxInv F us tx) (hF : ¬Without Fact.changesUser F) (hv : v.isSession = false)
    (hp : Pending F us ⟨tx.snapshot, tx.writes ++ [v], tx.locks ++ ls⟩) :
    TxInv F us ⟨tx.snapshot, tx.writes ++ [v], tx.locks ++ ls⟩ := by
  refine ⟨hp, fun hw => absurd hw hF, fun hw => absurd hw hF, fun w hw => ?_, h.snapshot⟩
  rcases List.mem_append.mp hw with hw | hw
  · exact h.noSession w hw
  · cases List.mem_singleton.mp hw; exact hv

/-- A statement of a transaction keeps what holds of it. Unless it only reads, it runs on
the current data `t` with the writes of the transaction. -/
theorem TxInv.statement {t s : Tables} {tx : Tx Tables Write Lock} {call : Call} {q : Stmt}
    {r : Done q.Res Write Lock} {now pick : ℤ} (h : TxInv F t.users tx)
    (hkeys : (t.users.map User.id).Nodup) (hpos : ∀ u ∈ t.users, 1 ≤ u.credentialVersion)
    (hreads : ∀ u, .read u ∈ F → ∃ r ∈ t.users, u.Later r)
    (ha : allowed P call F (.sql .transaction q)) (hrun : q.run P.emailEq now pick s = .ok r)
    (hs : q.isRead = false → s = applyAll t tx.writes)
    (hkey : keyUnused (applyAll t tx.writes) pick q = true) :
    TxInv ((observe (.sql .transaction q) (.returned r.answer)).toList ++ F) t.users
      ⟨tx.snapshot, tx.writes ++ r.writes, tx.locks ++ r.locks⟩ := by
  have hF' := h.facts (o := .returned r.answer) ha
  have hread : r.writes = [] → r.locks = [] → TxInv
      ((observe (.sql .transaction q) (.returned r.answer)).toList ++ F) t.users
      ⟨tx.snapshot, tx.writes ++ r.writes, tx.locks ++ r.locks⟩ := fun hw hl => by
    rw [hw, hl, List.append_nil, List.append_nil]
    exact hF'
  have hcur : Without Fact.changesUser F → (applyAll t tx.writes).users = t.users := fun hF => by
    rw [users_applyAll_filter, h.backed hF]; rfl
  cases q with
  | selectUser f => obtain ⟨_, -, rfl⟩ := first_eq_ok hrun; exact hread rfl rfl
  | selectRoles userID => cases hrun; exact hread rfl rfl
  | selectRolePermissions ids => cases hrun; exact hread rfl rfl
  | selectRole name => obtain ⟨_, -, rfl⟩ := first_eq_ok hrun; exact hread rfl rfl
  | selectActiveSession sid uid => obtain ⟨_, -, rfl⟩ := first_eq_ok hrun; exact hread rfl rfl
  | selectExpiredSessions cutoff limit => cases hrun; exact hread rfl rfl
  | insertSession s => simp [allowed] at ha
  | rotateSession => simp [allowed] at ha
  | revokeSession => simp [allowed] at ha
  | deleteSessions => simp [allowed] at ha
  | insertUserRole ur =>
      cases Stmt.run_insertUserRole hrun
      exact hF'.addOther (by simp [observe, evidence]) rfl rfl
  | insertOutbox m =>
      cases hrun
      exact hF'.addOther (by simp [observe, evidence]) rfl rfl
  | insertUser u =>
      obtain ⟨-, hF, hone⟩ := ha
      cases Stmt.run_insertUser hrun
      refine hF'.addUser (fun hw => ?_) rfl
        (.new { u with id := pick, updatedAt := now, roles := [] } ?_ (fun v hv => ?_) ?_ hone.ge)
      · simpa [Fact.changesUser] using hw _ List.mem_cons_self
      · simp [h.backed hF, Write.isUser]
      · simp only [keyUnused, hcur hF, Bool.not_eq_true', List.any_eq_false, decide_eq_true_eq]
          at hkey
        exact hkey v hv
      · simp
  | updateUser key version updated =>
      obtain ⟨-, hF, u, data, current, hread', -, hid, hver, hcomp, -⟩ := ha
      rcases Stmt.run_updateUser hrun with rfl | ⟨row, hrow, hrid, hrver, halive, rfl⟩
      · exact hread rfl rfl
      · rw [hs rfl, hcur hF] at hrow
        -- The row is the one that was read, or the version would differ.
        obtain ⟨r', hr', hlater⟩ := hreads u ((hread' u).mpr rfl)
        obtain rfl : r' = row := eq_of_key hkeys hr' hrow (by rw [hlater.id, hrid, hid])
        have hsame := hlater.sameRow (by rw [hrver, hver])
        refine hF'.addUser (fun hw => ?_) rfl (.set r' (r'.updates updated now) ?_ hrow ?_ ?_)
        · simpa [Fact.changesUser] using hw _ List.mem_cons_self
        · simp [h.backed hF, Write.isUser]
        · simp [hrid]
        · exact .update u updated now (by simp [observe, evidence, hid, hver])
            (fun v => by simpa [observe, evidence] using hread' v) hsame halive
            (hsame.version ▸ hpos r' hrow) hcomp.uuid hcomp.status hcomp.version rfl
  | deleteUser key =>
      obtain ⟨-, hF, -⟩ := ha
      rcases Stmt.run_deleteUser hrun with rfl | ⟨row, hrow, hrid, halive, rfl⟩
      · exact hread rfl rfl
      · rw [hs rfl, hcur hF] at hrow
        refine hF'.addUser (fun hw => ?_) rfl
          (.set row { row with deletedAt := some now } ?_ hrow ?_ ?_)
        · simpa [Fact.changesUser] using hw _ List.mem_cons_self
        · simp [h.backed hF, Write.isUser]
        · simp [hrid]
        · exact .delete now (by simp [observe, evidence, hrid]) halive rfl

/-! ## The chain of changes -/

def Write.change? (id : ℤ) : Write → Option (User × User)
  | .setUser prev next => if prev.id = id then some (prev, next) else none
  | _ => none

@[simp] theorem Write.change?_insertUser (id : ℤ) (u : User) :
    Write.change? id (.insertUser u) = none := rfl

/-- The committed changes of user `id`, newest first. -/
def changes (id : ℤ) (log : AuthLog) : List (User × User) :=
  log.flatMap fun r => (r.effect.filterMap (Write.change? id)).reverse

/-- Each change starts from the row the one before it left; the first starts from `u₀` and
the last leaves `r`. -/
def Linked (u₀ : User) : List (User × User) → User → Prop
  | [], r => r = u₀
  | (prev, next) :: cs, r => r = next ∧ Linked u₀ cs prev

theorem changes_filter (id : ℤ) (ws : List Write) :
    ws.filterMap (Write.change? id) = (ws.filter Write.isUser).filterMap (Write.change? id) := by
  rw [List.filterMap_filter]
  refine List.filterMap_congr fun w _ => ?_
  cases w <;> simp [Write.change?, Write.isUser]

/-- A row was read before a change of it was committed: the change raised the version above
the one that was read, or deleted the row. -/
def Ordered (newer older : Record Cmd Res (List Write)) : Prop :=
  ∀ u prev next, observe older.cmd older.answer = some (.read u) →
    .setUser prev next ∈ newer.effect → prev.id = u.id →
    u.credentialVersion < next.credentialVersion ∨ next.deletedAt.isSome = true

/-- The invariant of `auth_users` over a run that started with the rows `init`. -/
structure UserInv (init : List User) (log : AuthLog) (w : World) : Prop where
  keys : (w.db.committed.users.map User.id).Nodup
  versions : ∀ u ∈ w.db.committed.users, 1 ≤ u.credentialVersion
  apart : ∀ {T T' tx tx' i}, w.db.tx? T = some tx → w.db.tx? T' = some tx' →
    .user i ∈ tx.locks → .user i ∈ tx'.locks → T = T'
  tx : ∀ {T tx}, w.db.tx? T = some tx → TxInv (log.facts observe T) w.db.committed.users tx
  reads : ∀ {T u}, .read u ∈ log.facts observe T → ∃ r ∈ w.db.committed.users, u.Later r
  changed : ∀ {r}, r ∈ log → ∀ {prev next}, .setUser prev next ∈ r.effect →
    Justified (log.facts observe r.thread) prev next ∧
      ∃ s ∈ w.db.committed.users, next.Later s
  order : log.Pairwise Ordered
  chain : ∀ r ∈ w.db.committed.users, ∃ u₀,
    (u₀ ∈ init ∨ ∃ rec ∈ log, .insertUser u₀ ∈ rec.effect) ∧ Linked u₀ (changes r.id log) r

/-- At the start there is no log and no transaction. -/
theorem UserInv.init {w : World} (hkeys : (w.db.committed.users.map User.id).Nodup)
    (hpos : ∀ u ∈ w.db.committed.users, 1 ≤ u.credentialVersion) (htx : ∀ T, w.db.tx? T = none) :
    UserInv w.db.committed.users [] w where
  keys := hkeys
  versions := hpos
  apart h := by simp [htx] at h
  tx h := by simp [htx] at h
  reads h := by simp [Log.facts] at h
  changed h := by cases h
  order := .nil
  chain r hr := ⟨r, .inl hr, rfl⟩

namespace UserInv

variable {init : List User} {log : AuthLog} {w w' : World} {T : ℕ} {c : Cmd}
variable {o : Outcome (Res c)} {e : List Write} {call : Call}

/-- Every fact of a thread stays a fact. -/
theorem facts_cons {T' : ℕ} {f : Fact} (h : f ∈ log.facts observe T') :
    f ∈ Log.facts observe (⟨T, c, o, e⟩ :: log) T' :=
  Log.facts_of_suffix (List.suffix_cons _ _) h

/-- What has to be shown of a step: how the committed rows moved, that a row it read is
current or was, and that the transactions are in order. -/
theorem extend (hi : UserInv init log w) (ha : allowed P call (log.facts observe T) c)
    (hs : UserStep (log.facts observe T) w.db.committed.users w'.db.committed.users e)
    (hread : ∀ u, observe c o = some (.read u) → ∃ r ∈ w'.db.committed.users, u.Later r)
    (hapart : ∀ {T T' tx tx' i}, w'.db.tx? T = some tx → w'.db.tx? T' = some tx' →
      .user i ∈ tx.locks → .user i ∈ tx'.locks → T = T')
    (htx : ∀ {T' tx}, w'.db.tx? T' = some tx →
      TxInv (Log.facts observe (⟨T, c, o, e⟩ :: log) T') w'.db.committed.users tx) :
    UserInv init (⟨T, c, o, e⟩ :: log) w' := by
  have hjust : ∀ {T' prev next}, Justified (log.facts observe T') prev next →
      Justified (Log.facts observe (⟨T, c, o, e⟩ :: log) T') prev next := by
    intro T' prev next h
    rcases eq_or_ne T T' with rfl | hne
    · rw [Log.facts_cons_self]; exact h.step ha
    · rw [Log.facts_cons_ne hne]; exact h
  have hages : ∀ {u : User}, (∃ r ∈ w.db.committed.users, u.Later r) →
      ∃ r ∈ w'.db.committed.users, u.Later r := by
    rintro u ⟨r, hr, hur⟩
    obtain ⟨r', hr', hrr⟩ := hs.ages hi.keys hr
    exact ⟨r', hr', hur.trans hrr⟩
  -- A change in the effect is the one the committed rows made.
  have hset : ∀ {prev next}, .setUser prev next ∈ e → prev ∈ w.db.committed.users ∧
      Justified (log.facts observe T) prev next ∧ next ∈ w'.db.committed.users := by
    intro prev next hmem
    have hmem' : .setUser prev next ∈ e.filter Write.isUser := List.mem_filter.mpr ⟨hmem, rfl⟩
    cases hs with
    | same hnil _ => rw [hnil] at hmem'; cases hmem'
    | set prev' next' heq hprev hj hus =>
        rw [heq] at hmem'
        cases List.mem_singleton.mp hmem'
        exact ⟨hprev, hj, hus ▸ List.mem_map.mpr ⟨prev, hprev, if_pos rfl⟩⟩
    | new u heq _ _ _ => rw [heq] at hmem'; cases List.mem_singleton.mp hmem'
  refine ⟨hs.keys hi.keys, hs.versions hi.versions, hapart, htx, fun hu => ?_,
    fun {r} hr {prev next} hmem => ?_, List.pairwise_cons.mpr ⟨fun r hr u prev next hobs hmem hid => ?_,
    hi.order⟩, fun r hr => ?_⟩
  · rcases Log.mem_facts_cons.mp hu with ⟨-, hobs⟩ | hu
    · exact hread _ hobs
    · exact hages (hi.reads hu)
  · rcases List.mem_cons.mp hr with rfl | hr
    · obtain ⟨-, hj, hnext⟩ := hset hmem
      exact ⟨hjust hj, next, hnext, .refl next⟩
    · obtain ⟨hj, hs'⟩ := hi.changed hr hmem
      exact ⟨hjust hj, hages hs'⟩
  · obtain ⟨hprev, hj, -⟩ := hset hmem
    obtain ⟨s, hs', hlater⟩ := hi.reads (Log.mem_facts.mpr ⟨r, hr, rfl, hobs⟩)
    cases eq_of_key hi.keys hs' hprev (hlater.id.trans hid.symm)
    have := hlater.version_le
    rcases hj.version with h | ⟨-, h⟩
    · exact .inl (by omega)
    · exact .inr h
  · have hcons : ∀ id, changes id (⟨T, c, o, e⟩ :: log) =
        ((e.filter Write.isUser).filterMap (Write.change? id)).reverse ++ changes id log := fun id => by
      simp only [changes, List.flatMap_cons]
      rw [changes_filter]
    have hkeep : ∀ {u₀ : User}, (u₀ ∈ init ∨ ∃ rec ∈ log, .insertUser u₀ ∈ rec.effect) →
        u₀ ∈ init ∨ ∃ rec ∈ ⟨T, c, o, e⟩ :: log, .insertUser u₀ ∈ rec.effect := fun h =>
      h.imp_right fun ⟨rec, hrec, h⟩ => ⟨rec, List.mem_cons_of_mem _ hrec, h⟩
    rw [hcons]
    cases hs with
    | same hnil hus =>
        obtain ⟨u₀, h₀, hl⟩ := hi.chain r (hus ▸ hr)
        exact ⟨u₀, hkeep h₀, by simpa [hnil] using hl⟩
    | set prev next heq hprev hj hus =>
        rw [hus, List.mem_map] at hr
        obtain ⟨v, hv, rfl⟩ := hr
        obtain ⟨u₀, h₀, hl⟩ := hi.chain v hv
        refine ⟨u₀, hkeep h₀, ?_⟩
        split
        · rename_i hid
          cases eq_of_key hi.keys hv hprev hid
          simpa [heq, Write.change?, hj.id, Linked] using hl
        · rename_i hid
          simpa [heq, Write.change?, Ne.symm hid] using hl
    | new u heq hnew _ hus =>
        rw [hus] at hr
        rcases List.mem_append.mp hr with hr | hr
        · obtain ⟨u₀, h₀, hl⟩ := hi.chain r hr
          exact ⟨u₀, hkeep h₀, by simpa [heq, List.filterMap_cons] using hl⟩
        · cases List.mem_singleton.mp hr
          refine ⟨r, .inr ⟨_, List.mem_cons_self, ?_⟩, ?_⟩
          · exact (List.mem_filter.mp (heq ▸ List.mem_singleton_self _ :
              Write.insertUser r ∈ e.filter Write.isUser)).1
          · -- A key that is new has no changes behind it.
            have hnil : changes r.id log = [] := by
              simp only [changes, List.flatMap_eq_nil_iff, List.reverse_eq_nil_iff,
                List.filterMap_eq_nil_iff]
              intro rec hrec x hx
              cases x with
              | setUser prev next =>
                  obtain ⟨hj, s, hs', hlater⟩ := hi.changed hrec hx
                  refine if_neg fun hid => hnew s hs' ?_
                  rw [hlater.id, hj.id, hid]
              | _ => rfl
            simp [heq, List.filterMap_cons, hnil, Linked]

/-- Dropping a transaction disturbs nobody. -/
theorem drop (hi : UserInv init log w) (hdb : w'.db.committed = w.db.committed)
    (htx : ∀ {T tx}, w'.db.tx? T = some tx → w.db.tx? T = some tx) : UserInv init log w' where
  keys := hdb ▸ hi.keys
  versions := hdb ▸ hi.versions
  apart h h' := hi.apart (htx h) (htx h')
  tx h := hdb ▸ hi.tx (htx h)
  reads h := hdb ▸ hi.reads h
  changed h _ _ hmem := hdb ▸ hi.changed h hmem
  order := hi.order
  chain := hdb ▸ hi.chain

/-- The transactions of other threads see only the committed rows move. -/
theorem tx_other (hi : UserInv init log w) {T' : ℕ} {tx : Tx Tables Write Lock} (hne : T' ≠ T)
    (h : w.db.tx? T' = some tx) :
    TxInv (Log.facts observe (⟨T, c, o, e⟩ :: log) T') w.db.committed.users tx := by
  rw [Log.facts_cons_ne hne.symm]
  exact hi.tx h

theorem filter_map_isUser {α : Type} {xs : List α} {f : α → Write}
    (h : ∀ x, (f x).isUser = false) : (xs.map f).filter Write.isUser = [] := by
  refine List.filter_eq_nil_iff.mpr fun w hw => ?_
  obtain ⟨x, -, rfl⟩ := List.mem_map.mp hw
  simp [h]

/-- A statement outside a transaction does not touch `auth_users`. -/
theorem primary_users {F : List Fact} {q : Stmt} {r : Done q.Res Write Lock} {now pick : ℤ}
    {t : Tables} (ha : allowed P call F (.sql .primary q))
    (hrun : q.run P.emailEq now pick t = .ok r) : r.writes.filter Write.isUser = [] := by
  cases q with
  | selectUser f => obtain ⟨_, -, rfl⟩ := first_eq_ok hrun; rfl
  | selectRoles userID => cases hrun; rfl
  | selectRolePermissions ids => cases hrun; rfl
  | selectRole name => obtain ⟨_, -, rfl⟩ := first_eq_ok hrun; rfl
  | selectActiveSession sid uid => obtain ⟨_, -, rfl⟩ := first_eq_ok hrun; rfl
  | selectExpiredSessions cutoff limit => cases hrun; rfl
  | insertSession s => obtain ⟨-, rfl⟩ := Stmt.run_insertSession hrun; rfl
  | rotateSession => cases hrun; exact filter_map_isUser fun _ => rfl
  | revokeSession => cases hrun; exact filter_map_isUser fun _ => rfl
  | deleteSessions => cases hrun; exact filter_map_isUser fun _ => rfl
  | insertUserRole ur => cases Stmt.run_insertUserRole hrun; rfl
  | insertOutbox m => cases hrun; rfl
  | insertUser u => simp [allowed] at ha
  | updateUser => simp [allowed] at ha
  | deleteUser => simp [allowed] at ha

theorem step (hi : UserInv init log w) (ha : allowed P call (log.facts observe T) c)
    {ch : Choice} (h : exec P log T c ch w = some (o, e, w')) :
    UserInv init (⟨T, c, o, e⟩ :: log) w' := by
  have hself : ∀ {tx}, w.db.tx? T = some tx →
      TxInv (Log.facts observe (⟨T, c, o, e⟩ :: log) T) w.db.committed.users tx := fun htx => by
    rw [Log.facts_cons_self]; exact (hi.tx htx).facts ha
  cases exec_moves h with
  | quiet hlocal =>
      refine hi.extend ha (.same rfl rfl) (fun u hobs => by simpa [Fact.local] using hlocal _ hobs)
        hi.apart fun {T' tx} htx => ?_
      rcases eq_or_ne T' T with rfl | hne
      · exact hself htx
      · exact hi.tx_other hne htx
  | begin =>
      have hold : ∀ {T' tx}, T' ≠ T → (w.db.begin T).tx? T' = some tx → w.db.tx? T' = some tx :=
        fun hne h => by rwa [Store.begin_tx_ne hne] at h
      have hnew : ∀ {tx}, (w.db.begin T).tx? T = some tx → tx = ⟨w.db.committed, [], []⟩ :=
        fun h => by rw [Store.begin_tx_self] at h; exact (Option.some.inj h).symm
      refine hi.extend ha (.same rfl rfl) (fun u hobs => by cases hobs)
        (fun {T₁ T₂ tx₁ tx₂ i} h₁ h₂ hl₁ hl₂ => ?_) fun {T' tx} htx => ?_
      · rcases eq_or_ne T₁ T with rfl | hne₁
        · cases hnew h₁; cases hl₁
        · rcases eq_or_ne T₂ T with rfl | hne₂
          · cases hnew h₂; cases hl₂
          · exact hi.apart (hold hne₁ h₁) (hold hne₂ h₂) hl₁ hl₂
      · rcases eq_or_ne T' T with rfl | hne
        · cases hnew htx
          exact ⟨.none rfl, fun _ => rfl, fun _ _ => rfl, by simp, fun u hu => ⟨u, hu, .refl u⟩⟩
        · exact hi.tx_other hne (hold hne htx)
  | rollback =>
      have hold : ∀ {T' tx}, (w.db.rollback T).tx? T' = some tx → T' ≠ T ∧ w.db.tx? T' = some tx := by
        intro T' tx h
        rcases eq_or_ne T' T with rfl | hne
        · simp at h
        · exact ⟨hne, by rwa [Store.rollback_tx_ne hne] at h⟩
      exact hi.extend ha (.same rfl rfl) (fun u hobs => by cases hobs)
        (fun h₁ h₂ => hi.apart (hold h₁).2 (hold h₂).2)
        fun htx => hi.tx_other (hold htx).1 (hold htx).2
  | commit htx =>
      rename_i tx
      have hold : ∀ {T' tx'}, (w.db.commit T).2.tx? T' = some tx' →
          T' ≠ T ∧ w.db.tx? T' = some tx' := by
        intro T' tx' h
        rcases eq_or_ne T' T with rfl | hne
        · simp at h
        · exact ⟨hne, by rwa [Store.commit_tx_ne hne] at h⟩
      have hdb : (w.db.commit T).2.committed = applyAll w.db.committed tx.writes := by
        rw [Store.commit_committed, Store.commit_of_tx htx]
      have hs := (hi.tx htx).commit
      refine hi.extend ha (hdb ▸ hs) (fun u hobs => by cases hobs)
        (fun h₁ h₂ => hi.apart (hold h₁).2 (hold h₂).2) fun {T' tx'} h' => ?_
      rw [Log.facts_cons_ne (hold h').1.symm]
      -- The rows it changes are locked by it, so by nobody else.
      have hlock : ∀ i, .user i ∈ tx.locks → .user i ∉ tx'.locks := fun i hl hl' =>
        (hold h').1 (hi.apart (hold h').2 htx hl' hl)
      refine hdb ▸ (hi.tx (hold h').2).frame hi.keys hs (fun prev next heq => ?_) fun u heq => ?_
      · cases (hi.tx htx).pending with
        | none hnil => rw [hnil] at heq; cases heq
        | set p n heq' _ hl _ => rw [heq'] at heq; cases heq; exact hlock _ hl
        | new v heq' _ _ _ => rw [heq'] at heq; cases heq
      · cases (hi.tx htx).pending with
        | none hnil => rw [hnil] at heq; cases heq
        | set p n heq' _ _ _ => rw [heq'] at heq; cases heq
        | new v heq' _ hl _ => rw [heq'] at heq; cases heq; exact hlock _ hl
  | primary hrun hfree =>
      rename_i q pick r
      have hnil := primary_users ha hrun
      have hus : (applyAll w.db.committed r.writes).users = w.db.committed.users := by
        rw [users_applyAll_filter, hnil]; rfl
      refine hi.extend ha (.same hnil hus) (fun u hobs => ?_) hi.apart fun {T' tx} htx => ?_
      · cases q with
        | selectUser f =>
            obtain ⟨v, hv, rfl⟩ := first_eq_ok hrun
            cases hobs
            exact ⟨_, hus ▸ List.mem_of_find?_eq_some hv, .refl _⟩
        | updateUser => simp [allowed] at ha
        | _ => simp [observe, evidence] at hobs
      · change TxInv _ (applyAll w.db.committed r.writes).users tx
        rw [hus]
        rcases eq_or_ne T' T with rfl | hne
        · exact hself htx
        · exact hi.tx_other hne htx
  | inTx htx hrun hkey hfree =>
      rename_i q pick r tx snapshot
      have hdb : (w.db.write T r.writes r.locks .transaction).2.committed = w.db.committed := by
        rw [Store.write_committed]; simp [Store.write, htx]
      have hcase : ∀ {T' tx'}, (w.db.write T r.writes r.locks .transaction).2.tx? T' = some tx' →
          (T' = T ∧ tx' = ⟨tx.snapshot, tx.writes ++ r.writes, tx.locks ++ r.locks⟩) ∨
            T' ≠ T ∧ w.db.tx? T' = some tx' := by
        intro T' tx' h
        rcases eq_or_ne T' T with rfl | hne
        · rw [Store.write_tx_self htx] at h
          exact .inl ⟨rfl, (Option.some.inj h).symm⟩
        · exact .inr ⟨hne, by rwa [Store.write_tx_ne hne] at h⟩
      -- The locks it takes were free.
      have hlocks : ∀ {T' tx' i}, T' ≠ T → w.db.tx? T' = some tx' →
          .user i ∈ tx.locks ++ r.locks → .user i ∉ tx'.locks := by
        intro T' tx' i hne h' hl hl'
        rcases List.mem_append.mp hl with hl | hl
        · exact hne (hi.apart h' htx hl' hl)
        · simpa [Lock.conflicts] using
            Store.lockedByOther_eq_false.mp (hfree _ hl) T' tx' hne h' _ hl'
      refine hi.extend ha (.same rfl (by rw [hdb])) (fun u hobs => ?_)
        (fun {T₁ T₂ tx₁ tx₂ i} h₁ h₂ hl₁ hl₂ => ?_) fun {T' tx'} h' => ?_
      · cases q with
        | selectUser f =>
            obtain ⟨v, hv, rfl⟩ := first_eq_ok hrun
            cases hobs
            exact hdb ▸ (hi.tx htx).read ha.2 hv
        | _ => simp [observe, evidence] at hobs
      · rcases hcase h₁ with ⟨rfl, rfl⟩ | ⟨hne₁, h₁'⟩
        · rcases hcase h₂ with ⟨rfl, -⟩ | ⟨hne₂, h₂'⟩
          · rfl
          · exact absurd hl₂ (hlocks hne₂ h₂' hl₁)
        · rcases hcase h₂ with ⟨rfl, rfl⟩ | ⟨hne₂, h₂'⟩
          · exact absurd hl₁ (hlocks hne₁ h₁' hl₂)
          · exact hi.apart h₁' h₂' hl₁ hl₂
      · rw [hdb]
        rcases hcase h' with ⟨rfl, rfl⟩ | ⟨hne, h'⟩
        · rw [Log.facts_cons_self]
          refine (hi.tx htx).statement hi.keys hi.versions (fun u => hi.reads) ha hrun (fun hr => ?_)
            hkey
          simp [hr]
        · exact hi.tx_other hne h'

theorem env (hi : UserInv init log w) (ev : Env) : UserInv init log (w.env ev) := by
  cases ev with
  | tick d => exact hi.drop rfl id
  | abort T =>
      refine hi.drop rfl fun {T' tx} h => ?_
      rcases eq_or_ne T' T with rfl | hne
      · simp [World.env] at h
      · rwa [World.env, Store.rollback_tx_ne hne] at h

theorem crash (hi : UserInv init log w) (T : ℕ) : UserInv init log (w.crash T) :=
  hi.env (.abort T)

end UserInv
/-! ## Calls that change nothing -/

section Quiet

variable {init : List User} {log : AuthLog} {w w' : World} {T : ℕ} {c : Cmd} {ch : Choice}
variable {o : Outcome (Res c)} {e : List Write} {call : Call}

/-- A thread that acts inside its transaction alone commits nothing, unless it commits a
transaction in which it wrote. -/
theorem exec_effect_nil (hu : UserInv init log w) (ha : allowed P call (log.facts observe T) c)
    (h : exec P log T c ch w = some (o, e, w'))
    (hout : ∀ f, observe c o = some f → f.actsOutside = false)
    (hcommit : observe c o = some .committed → Without Fact.changesUser (log.facts observe T) ∧
      .recorded .transaction ∉ log.facts observe T) : e = [] := by
  cases exec_moves h with
  | quiet | begin | rollback | inTx => rfl
  | commit htx => exact (hu.tx htx).recorded (hcommit rfl).1 (hcommit rfl).2
  | primary hrun hfree =>
      rename_i q pick r
      cases q with
      | selectUser | selectRole | selectActiveSession =>
          obtain ⟨_, -, rfl⟩ := first_eq_ok hrun; rfl
      | selectRoles | selectRolePermissions | selectExpiredSessions => cases hrun; rfl
      | insertUser | updateUser | deleteUser => simp [allowed] at ha
      | insertUserRole | insertOutbox | insertSession | rotateSession | revokeSession
        | deleteSessions => cases hout _ rfl

/-- No step of a change of a user that fails, or that asks for nothing new, commits
anything. -/
theorem Ended.effect_nil {α : Type} {data : UpdateUserData} {r : Outcome α}
    (hend : Ended P data F r) (hnothing : r.isReturned = false ∨ AsksNothing P data F)
    (hu : UserInv init log w) (ha : allowed P call (log.facts observe T) c)
    (h : exec P log T c ch w = some (o, e, w'))
    (hF : Log.facts observe (⟨T, c, o, e⟩ :: log) T ⊆ F) : e = [] := by
  have hnew : ∀ {f}, observe c o = some f → f ∈ F := fun hobs =>
    hF (Log.mem_facts_cons.mpr (.inl ⟨rfl, hobs⟩))
  have hold : ∀ {f}, f ∈ log.facts observe T → f ∈ F := fun hf => hF (UserInv.facts_cons hf)
  refine exec_effect_nil hu ha h (fun f hobs => hend.outside f (hnew hobs)) fun hobs => ?_
  rcases hnothing with hbad | hnoop
  · exact absurd (hnew hobs) (hend.undone hbad)
  · obtain ⟨hwithout, hrec⟩ := hend.noop hnoop
    exact ⟨fun f hf => hwithout f (hold hf), fun hf => hrec (hold hf)⟩

end Quiet

end Go42.Auth
