-- SUMMARY: Changes of accounts are all or nothing, wherever they fail: the rows and the event together, or the tables as they were and an error.
import Go42.Auth.Runs

/-!
# Atomicity of changes of accounts

A call runs by itself here, from any state of the database; what can go wrong at each
command is the choice of the machine.
-/

namespace Go42.Auth

open Outbox (OutboxMessage)
open Prog (fail)

variable {P : Platform} {S : Service} {T : ℕ} {t : Tables} {α β : Type}

/-! ## Bodies of transactions -/

/-- Thread `T` has written `ws` in a transaction that began on the tables `t`. -/
def InTx (T : ℕ) (t : Tables) (ws : List Write) (w : World) : Prop :=
  w.db.committed = t ∧ ∃ ls, w.db.tx? T = some ⟨t, ws, ls⟩

/-- From the writes `ws` on, `p` commits nothing; when it returns, it has written more and
`Q` holds of all writes and the result. -/
def TxBody (P : Platform) (T : ℕ) (t : Tables) (Q : List Write → α → Prop) (ws : List Write)
    (p : AuthProg α) : Prop :=
  ∀ log w, InTx T t ws w → p.wp (exec P) T (fun o w' => w'.db.committed = t ∧
    ∀ a, o = .returned a → ∃ ws', InTx T t ws' w' ∧ Q ws' a) log w

namespace TxBody

variable {Q R : List Write → α → Prop} {ws : List Write}

theorem pure {a : α} (h : Q ws a) : TxBody P T t Q ws (pure a : AuthProg α) := by
  intro log w hw
  refine ⟨hw.1, ?_⟩
  rintro _ ⟨⟩
  exact ⟨ws, hw, h⟩

theorem fail {e : GoError} : TxBody P T t Q ws (fail e : AuthProg α) := by
  intro log w hw
  exact ⟨hw.1, by rintro _ ⟨⟩⟩

theorem bind {p : AuthProg β} {k : β → AuthProg α} {R : List Write → β → Prop}
    (hp : TxBody P T t R ws p) (hk : ∀ ws' b, R ws' b → TxBody P T t Q ws' (k b)) :
    TxBody P T t Q ws (p >>= k) := by
  intro log w hw
  apply Prog.wp.bind
  apply (hp log w hw).mono
  intro o w' ho log'
  cases o with
  | returned b =>
      obtain ⟨ws', hw', hR⟩ := ho.2 b rfl
      exact hk ws' b hR log' w' hw'
  | failed e => exact ⟨ho.1, by rintro _ ⟨⟩⟩
  | panicked v => exact ⟨ho.1, by rintro _ ⟨⟩⟩

theorem mapErr {p : AuthProg α} {f : GoError → GoError} (hp : TxBody P T t Q ws p) :
    TxBody P T t Q ws (p.mapErr f) := by
  intro log w hw
  apply Prog.wp.mapErr
  apply (hp log w hw).mono
  intro o w' ho
  refine ⟨ho.1, fun a ha => ho.2 a ?_⟩
  cases o <;> first | exact ha | cases ha

theorem mono {p : AuthProg α} (hp : TxBody P T t Q ws p) (h : ∀ ws' a, Q ws' a → R ws' a) :
    TxBody P T t R ws p := by
  intro log w hw
  apply (hp log w hw).mono
  intro o w' ho
  refine ⟨ho.1, fun a ha => ?_⟩
  obtain ⟨ws', hw', hQ⟩ := ho.2 a ha
  exact ⟨ws', hw', h ws' a hQ⟩

/-- A statement sees the tables with the writes before it, and adds its own. -/
theorem sql {q : Stmt} {Q : List Write → q.Res → Prop}
    (h : ∀ now pick r, q.run P.emailEq now pick (applyAll t ws) = .ok r →
      keyUnused (applyAll t ws) pick q = true → Q (ws ++ r.writes) r.answer) :
    TxBody P T t Q ws (sql .transaction q) := by
  intro log w hw ch o e w' hM
  obtain ⟨rfl, ls, htx⟩ := hw
  cases exec_moves hM with
  | quiet _ hbad =>
      refine ⟨rfl, ?_⟩
      rintro a rfl
      cases hbad rfl
  | @inTx q pick r tx snapshot htx' hrun hkey hfree =>
      rw [htx] at htx'
      cases htx'
      have hview : (if (snapshot && q.isRead) = true then w.db.committed else w.db.committed) =
          w.db.committed := ite_self _
      rw [hview] at hrun
      have hdb : (w.db.write T r.writes r.locks .transaction).2.committed = w.db.committed := by
        rw [Store.write_committed]
        simp [Store.write, htx]
      refine ⟨hdb, ?_⟩
      rintro a ⟨⟩
      exact ⟨ws ++ r.writes, ⟨hdb, ls ++ r.locks, Store.write_tx_self htx⟩, h _ _ _ hrun hkey⟩

/-- A command that the database does not answer. -/
theorem quiet {c : Cmd} {Q : List Write → Res c → Prop} (hc : c.onDatabase = false) (h : ∀ a, Q ws a) :
    TxBody P T t Q ws (call c) := by
  intro log w hw ch o e w' hM
  cases exec_moves hM with
  | quiet => exact ⟨hw.1, fun a _ => ⟨ws, hw, h a⟩⟩
  | begin | commit | rollback | primary | inTx => cases hc

end TxBody

/-! ## The wrapper -/

/-- Ends of a call that began on `t`: nothing happened, or it returned and its writes took
effect at once. -/
def Atomic (t : Tables) (Q : List Write → α → Prop) (o : Outcome α) (w : World) : Prop :=
  (o.isReturned = false → w.db.committed = t) ∧
    ∀ a, o = .returned a → ∃ ws, Q ws a ∧ w.db.committed = applyAll t ws

theorem Atomic.of_bad {Q : List Write → α → Prop} {o : Outcome α} {w : World}
    (hw : w.db.committed = t) (ho : o.isReturned = false) : Atomic t Q o w := by
  refine ⟨fun _ => hw, ?_⟩
  rintro a rfl
  cases ho

theorem rollback_wp {R : Outcome Unit → World → Prop} {log : AuthLog} {w : World}
    (h : ∀ o w', w'.db.committed = w.db.committed → R o w') :
    db.rollback.wp (exec P) T R log w := by
  apply Prog.wp.mapErr
  intro ch o e w' hM
  apply h
  cases exec_moves hM <;> rfl

theorem recovering_wp {Q : List Write → α → Prop} {o : Outcome α} {log : AuthLog} {w : World}
    (h : Atomic t Q o w) : (db.recovering o).wp (exec P) T (Atomic t Q) log w := by
  cases o with
  | returned a => exact h
  | failed e => exact h
  | panicked v =>
      apply Prog.wp.handle
      apply rollback_wp
      intro o w' hw' log'
      cases o <;> exact .of_bad (hw'.trans (h.1 rfl)) rfl

theorem withTransaction_wp {fn : AuthProg α} {Q : List Write → α → Prop}
    (hfn : TxBody P T t Q [] fn) {log : AuthLog} {w : World} (hw : w.db.committed = t) :
    (db.withTransaction fn).wp (exec P) T (Atomic t Q) log w := by
  apply Prog.wp.bind
  apply Prog.wp.mapErr
  apply Prog.wp.mapErr
  intro ch o e w₁ hM log₁
  cases exec_moves hM with
  | quiet _ hbad =>
      -- `Begin` failed.
      have ho := hbad rfl
      cases o <;> first | exact .of_bad hw rfl | cases ho
  | begin =>
      apply Prog.wp.handle
      apply Prog.wp.handle
      have hopen : InTx T t [] { w with db := w.db.begin T } := by
        subst hw
        exact ⟨rfl, [], Store.begin_tx_self⟩
      apply (hfn log₁ _ hopen).mono
      intro o w₂ ho log₂
      cases o with
      | returned a =>
          obtain ⟨ws, ⟨hw₂, ls, htx⟩, hQ⟩ := ho.2 a rfl
          apply Prog.wp.handle
          apply Prog.wp.mapErr
          intro ch o e w₃ hM log₃
          cases exec_moves hM with
          | commit htx' =>
              intro log₄
              refine ⟨by rintro ⟨⟩, ?_⟩
              rintro _ ⟨⟩
              refine ⟨ws, hQ, ?_⟩
              rw [Store.commit_committed, Store.commit_of_tx htx, hw₂]
          | quiet _ hbad =>
              -- A commit that fails is rolled back.
              cases o with
              | returned => cases hbad rfl
              | failed e =>
                  apply Prog.wp.handle
                  apply rollback_wp
                  intro o w₄ hw₄ log₄
                  cases o <;> exact fun _ => recovering_wp (.of_bad (hw₄.trans hw₂) rfl)
              | panicked v => exact fun _ => recovering_wp (.of_bad hw₂ rfl)
      | failed e =>
          apply Prog.wp.handle
          apply rollback_wp
          intro o w₃ hw₃ log₃
          cases o <;> exact fun _ => recovering_wp (.of_bad (hw₃.trans ho.1) rfl)
      | panicked v => exact fun _ => recovering_wp (.of_bad ho.1 rfl)

/-! ## What a call is meant to do -/

/-- The one event that a change of user `userID` enqueues. -/
structure EventFor (userID : ℤ) (eventType : String) (m : OutboxMessage) : Prop where
  topic : m.topic = topicNameAuthEvents
  aggregateID : m.aggregateID = userID
  aggregateType : m.aggregateType = .utf8 eventType
  status : m.status = .pending

/-- A user under a new key, the role of users for it, and the event. -/
inductive Created (P : Platform) (t : Tables) (eventType : String) (email : GoString) :
    List Write → Prop where
  | intro {user : User} {role : Role} {m : OutboxMessage} : (∀ v ∈ t.users, v.id ≠ user.id) →
      normalizeAndValidateEmail P email = .ok user.email → role ∈ t.roles →
      role.name = rbacRoleUser → EventFor user.id eventType m →
      Created P t eventType email
        [.insertUser user, .insertUserRole ⟨user.id, role.id, none⟩, .insertOutbox m]

/-- A new version of the row of `uuid`, and the event. -/
inductive Changed (P : Platform) (t : Tables) (uuid : String) (data : UpdateUserData) :
    List Write → Prop where
  | intro {prev next : User} {m : OutboxMessage} :
      t.findUser P.emailEq (.byUUID uuid) = some prev → next.id = prev.id → next.uuid = prev.uuid →
      next.deletedAt = none → (data.email = none → next.email = prev.email) →
      (∀ e email, data.email = some e → normalizeAndValidateEmail P e = .ok email → email ≠ "" →
        next.email = email) →
      (data.password = none → next.password = prev.password) →
      (∀ pw, data.password = some pw →
        ∃ hash, P.compare hash pw = true ∧ next.password = some hash) →
      EventFor prev.id eventTypeUserUpdate m → Changed P t uuid data [.setUser prev next, .insertOutbox m]

/-- The row of `uuid` marked as deleted, and the event. -/
inductive Deleted (P : Platform) (t : Tables) (uuid : String) : List Write → Prop where
  | intro {prev : User} {now : ℤ} {m : OutboxMessage} :
      t.findUser P.emailEq (.byUUID uuid) = some prev → EventFor prev.id eventTypeUserDelete m →
      Deleted P t uuid [.setUser prev { prev with deletedAt := some now }, .insertOutbox m]

/-- The whole effect of a call on the tables `t`. -/
def Effect (P : Platform) (t : Tables) : Call → List Write → Prop
  | .signUp email _ => Created P t eventTypeAuthSignUp email
  | .createUser data => Created P t eventTypeUserCreate data.email
  | .updateUser uuid data => Changed P t uuid data
  | .updateSelf uuid data => Changed P t uuid data.toUpdateUserData
  | .deleteUser uuid => Deleted P t uuid
  | _ => fun _ => False

/-- The update asks for what the row of `uuid` has already. -/
def SameAsRow (P : Platform) (t : Tables) (uuid : String) (data : UpdateUserData) : Prop :=
  data.password = none ∧ ∃ u, t.findUser P.emailEq (.byUUID uuid) = some u ∧
    ∀ e, data.email = some e → normalizeAndValidateEmail P e = .ok u.email

/-- The call is an update that has nothing to change. -/
def Nothing (P : Platform) (t : Tables) : Call → Prop
  | .updateUser uuid data => SameAsRow P t uuid data
  | .updateSelf uuid data => data.email = none ∧ data.password = none ∨
      SameAsRow P t uuid data.toUpdateUserData
  | _ => False

/-! ## What the bodies write -/

/-- The row that is inserted for a new user. -/
def User.asRow (user : User) (id now : ℤ) : User :=
  { user with id := id, updatedAt := now, roles := [] }

/-- No row has the keys of `row`. -/
def UnusedKeys (P : Platform) (t : Tables) (row : User) : Prop :=
  ∀ v ∈ t.users, v.id ≠ row.id ∧ v.uuid ≠ row.uuid ∧ P.emailEq v.email row.email = false

/-- What `Created` is about, with the row itself and the user that is returned. -/
inductive Inserted (P : Platform) (t : Tables) (eventType : String) (user : User) :
    List Write → User → Prop where
  | intro {id now : ℤ} {role : Role} {m : OutboxMessage} : UnusedKeys P t (user.asRow id now) →
      role ∈ t.roles → role.name = rbacRoleUser → EventFor id eventType m →
      Inserted P t eventType user [.insertUser (user.asRow id now),
        .insertUserRole ⟨id, role.id, none⟩, .insertOutbox m] { user with id := id }

theorem Inserted.created {eventType : String} {user u : User} {email : GoString} {ws : List Write}
    (h : Inserted P t eventType user ws u) (hemail : normalizeAndValidateEmail P email = .ok user.email) :
    Created P t eventType email ws := by
  cases h with
  | @intro id now role m hunused hrole hname hm =>
      have hkey : ∀ v ∈ t.users, v.id ≠ (user.asRow id now).id := fun v hv => (hunused v hv).1
      exact .intro hkey hemail hrole hname hm

/-- The user that `createAccount` builds before its transaction. -/
structure NewAccount (P : Platform) (S : Service) (email password : GoString) (user : User) : Prop where
  email : normalizeAndValidateEmail P email = .ok user.email
  strong : checkPasswordStrength P S password = none
  active : user.status = .active
  present : user.deletedAt = none
  hash : ∃ hash, P.compare hash password = true ∧ user.password = some hash

/-- New passwords are strong enough. -/
def StrongPassword (P : Platform) (S : Service) (data : UpdateUserData) : Prop :=
  ∀ password, data.password = some password → checkPasswordStrength P S password = none

/-- The row `next` that `updateUser` writes over `prev`. -/
structure NextVersion (P : Platform) (t : Tables) (uuid : String) (data : UpdateUserData)
    (prev next : User) : Prop where
  found : t.findUser P.emailEq (.byUUID uuid) = some prev
  id : next.id = prev.id
  uuid : next.uuid = prev.uuid
  status : next.status = prev.status
  present : prev.deletedAt = none ∧ next.deletedAt = none
  keepsEmail : data.email = none → next.email = prev.email
  newEmail : ∀ e, data.email = some e → ∃ email, normalizeAndValidateEmail P e = .ok email ∧
    (email ≠ "" → next.email = email)
  keepsPassword : data.password = none → next.password = prev.password
  newPassword : ∀ pw, data.password = some pw →
    ∃ hash, P.compare hash pw = true ∧ next.password = some hash
  unique : ∀ v ∈ t.users, v.id ≠ prev.id → P.emailEq v.email next.email = false

theorem NextVersion.changed {uuid : String} {data : UpdateUserData} {prev next : User}
    {m : OutboxMessage} (h : NextVersion P t uuid data prev next)
    (hm : EventFor prev.id eventTypeUserUpdate m) :
    Changed P t uuid data [.setUser prev next, .insertOutbox m] := by
  refine .intro h.found h.id h.uuid h.present.2 h.keepsEmail ?_ h.keepsPassword h.newPassword hm
  intro e email he hn hne
  obtain ⟨email', hn', hnew⟩ := h.newEmail e he
  rw [hn] at hn'
  cases hn'
  exact hnew hne

/-- The writes of `updateUser`. -/
inductive VersionWritten (P : Platform) (t : Tables) (uuid : String) (data : UpdateUserData) :
    List Write → Prop where
  | row {prev next : User} {m : OutboxMessage} : NextVersion P t uuid data prev next →
      EventFor prev.id eventTypeUserUpdate m → VersionWritten P t uuid data [.setUser prev next, .insertOutbox m]
  | nothing : SameAsRow P t uuid data → VersionWritten P t uuid data []

theorem VersionWritten.changed {uuid : String} {data : UpdateUserData} {ws : List Write}
    (h : VersionWritten P t uuid data ws) : Changed P t uuid data ws ∨ ws = [] ∧ SameAsRow P t uuid data := by
  cases h with
  | row hnext hm => exact .inl (hnext.changed hm)
  | nothing hsame => exact .inr ⟨rfl, hsame⟩

/-! ## Bodies of the calls -/

namespace TxBody

variable {ws : List Write}

theorem getUser {f : UserFilter} {Q : List Write → User → Prop}
    (h : ∀ u roles, (applyAll t ws).findUser P.emailEq f = some u → Q ws { u with roles := roles }) :
    TxBody P T t Q ws (Repository.getUser .transaction f) := by
  unfold Repository.getUser
  apply bind (R := fun ws' u => ws' = ws ∧ (applyAll t ws).findUser P.emailEq f = some u)
  · apply mapErr
    apply sql
    intro now pick r hrun _
    obtain ⟨u, hu, rfl⟩ := first_eq_ok hrun
    exact ⟨List.append_nil _, hu⟩
  · rintro ws' u ⟨rfl, hu⟩
    apply bind (R := fun ws'' _ => ws'' = ws')
    · apply mapErr
      apply sql
      intro now pick r hrun _
      cases hrun
      exact List.append_nil _
    · rintro ws'' roles rfl
      split
      · exact pure (h u _ hu)
      · apply bind (R := fun ws' _ => ws' = ws'')
        · apply mapErr
          apply sql
          intro now pick r hrun _
          cases hrun
          exact List.append_nil _
        · rintro ws' permissions rfl
          exact pure (h u _ hu)

theorem sendEvent {userID : ℤ} {eventType : String} {Q : List Write → Unit → Prop}
    (h : ∀ m, EventFor userID eventType m → Q (ws ++ [.insertOutbox m]) ()) :
    TxBody P T t Q ws
      (sendEvent .transaction topicNameAuthEvents (userEvent userID eventType)) := by
  unfold Go42.Auth.sendEvent newOutboxMessage
  apply mapErr
  split
  · exact fail
  · apply bind (R := fun ws' _ => ws' = ws) (quiet rfl fun _ => rfl)
    rintro ws' id rfl
    apply mapErr
    apply sql
    intro now pick r hrun _
    cases hrun
    exact h _ ⟨rfl, rfl, rfl, rfl⟩

theorem limitAuthentication {scope key : String} {requests window : ℤ}
    {Q : List Write → Unit → Prop} (h : Q ws ()) :
    TxBody P T t Q ws (limitAuthentication P S scope key requests window) := by
  unfold Go42.Auth.limitAuthentication
  split
  · exact pure h
  · split
    · exact fail
    · dsimp only
      split
      · exact fail
      · exact fail
      · apply bind (R := fun ws' _ => ws' = ws) (mapErr (quiet rfl fun _ => rfl))
        rintro ws' ok rfl
        cases ok
        · exact fail
        · exact pure h

theorem setPassword {user : User} {password : GoString} {Q : List Write → User → Prop}
    (h : ∀ hash, P.compare hash password = true → Q ws { user with password := some hash }) :
    TxBody P T t Q ws (setPassword user password) := by
  apply bind (R := fun ws' hash => ws' = ws ∧ P.compare hash password = true)
  · intro log w hw ch o e w' hM
    cases exec_moves hM with
    | quiet =>
        refine ⟨hw.1, ?_⟩
        rintro hash rfl
        exact ⟨ws, hw, rfl, exec_hash hM⟩
  · rintro ws' hash ⟨rfl, hhash⟩
    exact pure (h hash hhash)

theorem insertNewUser {user : User} {eventType : String} :
    TxBody P T t (Inserted P t eventType user) []
      (do
        let user ← (Repository.createUser .transaction user).mapErr fun err =>
          .wrap "failed to create user: " err ""
        (Repository.assignRoleToUser .transaction user.id rbacRoleUser).mapErr fun err =>
          .wrap "failed to assign user role: " err ""
        (Go42.Auth.sendEvent .transaction topicNameAuthEvents (userEvent user.id eventType)).mapErr
          fun err => .wrap "failed to send event: " err ""
        return user) := by
  apply bind (R := fun ws u => ∃ id now, ws = [.insertUser (user.asRow id now)] ∧
    u = { user with id := id } ∧ UnusedKeys P t (user.asRow id now))
  · apply mapErr
    apply bind (R := fun ws id => ∃ now, ws = [.insertUser (user.asRow id now)] ∧
      UnusedKeys P t (user.asRow id now))
    · apply mapErr
      apply sql
      intro now pick r hrun hkey
      have hunique := Stmt.run_insertUser_unique hrun
      cases Stmt.run_insertUser hrun
      refine ⟨now, rfl, fun v hv => ⟨?_, hunique v hv⟩⟩
      simp only [keyUnused, applyAll_nil, Bool.not_eq_true', List.any_eq_false,
        decide_eq_true_eq] at hkey
      exact hkey v hv
    · rintro ws id ⟨now, hws, hunused⟩
      exact pure ⟨id, now, hws, rfl, hunused⟩
  · rintro _ _ ⟨id, now, rfl, rfl, hunused⟩
    apply bind (R := fun ws _ => ∃ role ∈ t.roles, role.name = rbacRoleUser ∧
      ws = [.insertUser (user.asRow id now), .insertUserRole ⟨id, role.id, none⟩])
    · apply mapErr
      apply bind (R := fun ws role => ws = [.insertUser (user.asRow id now)] ∧ role ∈ t.roles ∧
        role.name = rbacRoleUser)
      · apply mapErr
        apply sql
        intro now pick r hrun _
        obtain ⟨role, hfind, rfl⟩ := first_eq_ok hrun
        have hname := List.find?_some hfind
        simp only [Bool.and_eq_true, decide_eq_true_eq] at hname
        exact ⟨rfl, List.mem_of_find?_eq_some hfind, hname.2⟩
      · rintro _ role ⟨rfl, hrole, hname⟩
        apply mapErr
        apply sql
        intro now pick r hrun _
        cases Stmt.run_insertUserRole hrun
        exact ⟨role, hrole, hname, rfl⟩
    · rintro _ _ ⟨role, hrole, hname, rfl⟩
      apply bind (R := fun ws _ => Inserted P t eventType user ws { user with id := id })
      · apply mapErr
        apply sendEvent
        intro m hm
        exact .intro hunused hrole hname hm
      · exact fun ws _ h => pure h

theorem checkCurrentPassword {user : User} {current : Option GoString}
    {Q : List Write → Unit → Prop} (h : Q ws ()) :
    TxBody P T t Q ws (checkCurrentPassword P S user current) := by
  cases current with
  | none => exact pure h
  | some password =>
      apply bind (R := fun ws' _ => ws' = ws) (limitAuthentication rfl)
      rintro ws' _ rfl
      split
      · exact fail
      · apply bind (R := fun ws'' _ => ws'' = ws') (quiet rfl fun _ => rfl)
        rintro ws'' ok rfl
        cases ok
        · exact fail
        · exact pure h

theorem setNewPassword {user : User} {password : Option GoString} {Q : List Write → User → Prop}
    (hkeep : password = none → Q ws user)
    (hset : ∀ pw hash, password = some pw → P.compare hash pw = true →
      Q ws { user with password := some hash }) :
    TxBody P T t Q ws (setNewPassword user password) := by
  cases password with
  | none => exact pure (hkeep rfl)
  | some pw => exact mapErr (setPassword fun hash hhash => hset pw hash rfl hhash)

/-- The update statement finds the row that was read, or nothing. -/
theorem saveUser {user prev : User} {Q : List Write → Unit → Prop}
    (hkeys : (t.users.map User.id).Nodup) (hprev : prev ∈ t.users) (hid : user.id = prev.id)
    (h : ∀ next now m, next = prev.updates
        { user with credentialVersion := user.credentialVersion + 1 } now → prev.deletedAt = none →
      (∀ v ∈ t.users, v.id ≠ prev.id → P.emailEq v.email next.email = false) →
      EventFor prev.id eventTypeUserUpdate m → Q [.setUser prev next, .insertOutbox m] ()) :
    TxBody P T t Q [] (saveUser user) := by
  unfold Go42.Auth.saveUser
  apply bind (R := fun ws u => u.id = prev.id ∧ prev.deletedAt = none ∧
    ∃ next now, next = prev.updates { user with credentialVersion := user.credentialVersion + 1 } now ∧
      (∀ v ∈ t.users, v.id ≠ prev.id → P.emailEq v.email next.email = false) ∧
      ws = [.setUser prev next])
  · apply mapErr
    unfold Repository.updateUser
    apply bind (R := fun ws r => r.1 ≠ 0 → prev.deletedAt = none ∧
      ∃ next now, next = prev.updates { user with credentialVersion := user.credentialVersion + 1 } now ∧
        (∀ v ∈ t.users, v.id ≠ prev.id → P.emailEq v.email next.email = false) ∧
        ws = [.setUser prev next])
    · apply mapErr
      apply sql
      intro now pick r hrun _
      rcases Stmt.run_updateUser hrun with rfl | ⟨row, hrow, hrid, -, halive, rfl⟩
      · exact fun hn => absurd rfl hn
      · obtain rfl : row = prev :=
          List.inj_on_of_nodup_map hkeys hrow hprev (hrid.trans hid)
        refine fun _ => ⟨halive, _, now, rfl, fun v hv hne => ?_, rfl⟩
        exact Stmt.run_updateUser_unique hrun rfl v hv (hid ▸ hne)
    · rintro ws ⟨rows, now⟩ hrow
      dsimp only
      split
      · exact fail
      · rename_i hn
        exact pure ⟨hid, hrow hn⟩
  · rintro _ u ⟨huid, halive, next, now, hnext, hunique, rfl⟩
    apply mapErr
    apply sendEvent
    intro m hm
    exact h next now m hnext halive hunique (huid ▸ hm)

/-- The body of `updateUser`: one row and its event, or nothing for nothing new. -/
theorem applyUpdate {uuid : String} {data : UpdateUserData} {email : Option String}
    {current : Option GoString} (hkeys : (t.users.map User.id).Nodup)
    (hemail : data.email.mapM (normalizeAndValidateEmail P) = .ok email) :
    TxBody P T t (fun ws _ => VersionWritten P t uuid data ws) []
      (applyUpdate P S uuid email data.password current) := by
  unfold Go42.Auth.applyUpdate
  apply bind (R := fun ws user => ws = [] ∧ ∃ u roles, user = { u with roles := roles } ∧
    t.findUser P.emailEq (.byUUID uuid) = some u)
  · apply mapErr
    apply getUser
    exact fun u roles hu => ⟨rfl, u, roles, rfl, hu⟩
  · rintro _ _ ⟨rfl, u, roles, rfl, hu⟩
    have humem : u ∈ t.users := List.mem_of_find?_eq_some hu
    apply bind (R := fun ws _ => ws = []) (checkCurrentPassword rfl)
    rintro _ _ rfl
    apply bind (R := fun ws user => ws = [] ∧ ∃ password,
      user = { u with roles := roles, email := email.getD u.email, password := password } ∧
      (data.password = none → password = u.password) ∧
      ∀ pw, data.password = some pw → ∃ hash, P.compare hash pw = true ∧ password = some hash)
    · apply setNewPassword
      · exact fun hnone => ⟨rfl, u.password, rfl, fun _ => rfl, by simp [hnone]⟩
      · refine fun pw hash hpw hhash => ⟨rfl, some hash, rfl, by simp [hpw], fun pw' hpw' => ?_⟩
        rw [hpw] at hpw'
        cases hpw'
        exact ⟨hash, hhash, rfl⟩
    · rintro _ _ ⟨rfl, password, rfl, hkeep, hset⟩
      split
      · apply saveUser hkeys humem
        · rfl
        intro next now m hnext halive hunique hm
        refine .row ?_ hm
        subst hnext
        refine ⟨hu, rfl, ite_self _, rfl, ⟨halive, halive⟩, fun hnone => ?_, fun e he => ?_,
          fun hnone => ?_, fun pw hpw => ?_, hunique⟩
        all_goals simp only [User.updates]
        · rcases normalized_email hemail with ⟨-, rfl⟩ | ⟨e, e', he, -⟩
          · exact ite_self _
          · rw [hnone] at he; cases he
        · rcases normalized_email hemail with ⟨hnone, -⟩ | ⟨e₁, e₂, he', rfl, hn⟩
          · rw [hnone] at he; cases he
          · rw [he] at he'
            cases he'
            exact ⟨e₂, hn, fun hne => if_neg hne⟩
        · rw [hkeep hnone]
          cases u.password <;> rfl
        · obtain ⟨hash, hhash, rfl⟩ := hset pw hpw
          exact ⟨hash, hhash, rfl⟩
      · rename_i hsame
        refine pure (.nothing ⟨?_, u, hu, fun e he => ?_⟩)
        · simp at hsame
          exact hsame.2
        · rcases normalized_email hemail with ⟨hnone, -⟩ | ⟨e₁, e₂, he', rfl, hn'⟩
          · rw [hnone] at he; cases he
          · rw [he] at he'
            cases he'
            simp at hsame
            rw [hn', hsame.1]

theorem deleteUser {uuid : String} (hkeys : (t.users.map User.id).Nodup) :
    TxBody P T t (fun ws _ => Deleted P t uuid ws) [] (do
      let user ← (Repository.getUserByUUID .transaction uuid).mapErr fun err =>
        .wrap "failed to get user by id: " err ""
      (Repository.deleteUser .transaction user).mapErr fun err =>
        .wrap "failed to delete user: " err ""
      (Go42.Auth.sendEvent .transaction topicNameAuthEvents
        (userEvent user.id eventTypeUserDelete)).mapErr
        fun err => .wrap "failed to send event: " err "") := by
  apply bind (R := fun ws user => ws = [] ∧ ∃ u, user.id = u.id ∧
    t.findUser P.emailEq (.byUUID uuid) = some u)
  · apply mapErr
    apply getUser
    exact fun u roles hu => ⟨rfl, u, rfl, hu⟩
  · rintro _ user ⟨rfl, u, hid, hu⟩
    apply bind (R := fun ws _ => ∃ now, ws = [.setUser u { u with deletedAt := some now }])
    · apply mapErr
      apply bind (R := fun ws n => n ≠ 0 → ∃ now, ws = [.setUser u { u with deletedAt := some now }])
      · apply mapErr
        apply sql
        intro now pick r hrun _
        rcases Stmt.run_deleteUser hrun with rfl | ⟨row, hrow, hrid, -, rfl⟩
        · exact fun hn => absurd rfl hn
        · obtain rfl : row = u :=
            List.inj_on_of_nodup_map hkeys hrow (List.mem_of_find?_eq_some hu) (hrid.trans hid)
          exact fun _ => ⟨now, rfl⟩
      · intro ws n hrow
        split
        · exact fail
        · rename_i hn
          exact pure (hrow hn)
    · rintro _ _ ⟨now, rfl⟩
      apply mapErr
      apply sendEvent
      intro m hm
      exact .intro hu (hid ▸ hm)

end TxBody

/-! ## Calls -/

/-- A command before the transaction. -/
theorem Atomic.quiet {c : Cmd} {k : Res c → AuthProg α} {Q : List Write → α → Prop} {log : AuthLog}
    {w : World} (hc : c.onDatabase = false) (hw : w.db.committed = t)
    (hk : ∀ a log w, w.db.committed = t → (k a).wp (exec P) T (Atomic t Q) log w) :
    (call c >>= k).wp (exec P) T (Atomic t Q) log w := by
  apply Prog.wp.bind
  intro ch o e w' hM log'
  cases exec_moves hM with
  | begin | commit | rollback | primary | inTx => cases hc
  | quiet =>
      cases o with
      | returned a => exact hk a log' w hw
      | failed e => exact .of_bad hw rfl
      | panicked v => exact .of_bad hw rfl

theorem createAccount_wp {eventType : String} {email password : GoString} {log : AuthLog}
    {w : World} (hw : w.db.committed = t) :
    (createAccount P S eventType email password).wp (exec P) T (Atomic t fun ws u =>
      ∃ user, NewAccount P S email password user ∧ Inserted P t eventType user ws u) log w := by
  unfold createAccount
  split
  · exact .of_bad hw rfl
  · rename_i normal hemail
    split
    · exact .of_bad hw rfl
    · rename_i hstrong
      apply Atomic.quiet rfl hw
      intro uuid log w hw
      apply Prog.wp.bind
      apply Prog.wp.mapErr
      apply Prog.wp.bind
      intro ch o e w' hM log'
      have hw' : w'.db.committed = t := by
        cases exec_moves hM
        exact hw
      cases o with
      | failed e => exact fun _ => .of_bad hw' rfl
      | panicked v => exact fun _ => .of_bad hw' rfl
      | returned hash =>
          intro log''
          have haccount : NewAccount P S email password
              { newUser uuid normal with password := some hash } :=
            ⟨hemail, by simpa using hstrong, rfl, rfl, hash, exec_hash hM, rfl⟩
          apply withTransaction_wp
          · exact TxBody.insertNewUser.mono fun ws u h => ⟨_, haccount, h⟩
          · exact hw'

theorem changeUser_wp {uuid : String} {data : UpdateUserData} {current : Option GoString}
    {log : AuthLog} {w : World} (hkeys : (t.users.map User.id).Nodup) (hw : w.db.committed = t) :
    (changeUser P S uuid data current).wp (exec P) T (Atomic t fun ws _ =>
      StrongPassword P S data ∧ VersionWritten P t uuid data ws) log w := by
  unfold changeUser
  split
  · exact .of_bad hw rfl
  · rename_i email hemail
    split
    · exact .of_bad hw rfl
    · rename_i hstrong
      apply withTransaction_wp
      · apply (TxBody.applyUpdate hkeys hemail).mono
        intro ws _ hupdated
        refine ⟨fun pw hpw => ?_, hupdated⟩
        simpa [hpw] using hstrong
      · exact hw

/-- The calls that change accounts. -/
def Call.changesAccount : Call → Bool
  | .signUp _ _ | .createUser _ | .updateUser _ _ | .updateSelf _ _ | .deleteUser _ => true
  | _ => false

/-- What a call wrote that returned an answer. -/
def Wrote (P : Platform) (S : Service) (t : Tables) : Call → List Write → Answer → Prop
  | .signUp email password, ws, a => ∃ u, a = .user u ∧ ∃ user, NewAccount P S email password user ∧
      Inserted P t eventTypeAuthSignUp user ws u
  | .createUser data, ws, a => ∃ u, a = .user u ∧ ∃ user,
      NewAccount P S data.email data.password user ∧ Inserted P t eventTypeUserCreate user ws u
  | .updateUser uuid data, ws, _ => StrongPassword P S data ∧ VersionWritten P t uuid data ws
  | .updateSelf uuid data, ws, _ => (data.email = none ∧ data.password = none) ∧ ws = [] ∨
      StrongPassword P S data.toUpdateUserData ∧ VersionWritten P t uuid data.toUpdateUserData ws
  | .deleteUser uuid, ws, _ => Deleted P t uuid ws
  | _, _, _ => False

theorem Wrote.effect {req : Call} {ws : List Write} {a : Answer} (h : Wrote P S t req ws a) :
    Effect P t req ws ∨ ws = [] ∧ Nothing P t req := by
  cases req with
  | signUp email password =>
      obtain ⟨u, -, user, haccount, hinserted⟩ := h
      exact .inl (hinserted.created haccount.email)
  | createUser data =>
      obtain ⟨u, -, user, haccount, hinserted⟩ := h
      exact .inl (hinserted.created haccount.email)
  | updateUser uuid data => exact h.2.changed
  | updateSelf uuid data =>
      rcases h with ⟨hnone, hws⟩ | ⟨-, hupdated⟩
      · exact .inr ⟨hws, .inl hnone⟩
      · exact hupdated.changed.imp_right (And.imp_right .inr)
  | deleteUser uuid => exact .inl h
  | login email password => exact h.elim
  | refresh token => exact h.elim
  | logout token => exact h.elim
  | validateJWTToken token purpose => exact h.elim
  | deleteExpiredSessions => exact h.elim

theorem Atomic.mono {Q R : List Write → α → Prop} {o : Outcome α} {w : World} (h : Atomic t Q o w)
    (hQR : ∀ ws a, Q ws a → R ws a) : Atomic t R o w := by
  refine ⟨h.1, fun a ha => ?_⟩
  obtain ⟨ws, hQ, hw⟩ := h.2 a ha
  exact ⟨ws, hQR ws a hQ, hw⟩

/-- The answer of a call, made from the result of its method. -/
theorem Atomic.map_wp {p : AuthProg β} {f : β → α} {Q : List Write → β → Prop}
    {R : List Write → α → Prop} {log : AuthLog} {w : World} (hp : p.wp (exec P) T (Atomic t Q) log w)
    (hQR : ∀ ws b, Q ws b → R ws (f b)) : (f <$> p).wp (exec P) T (Atomic t R) log w := by
  apply Prog.wp.bind
  apply hp.mono
  intro o w' ho log'
  cases o with
  | returned b =>
      refine ⟨by rintro ⟨⟩, ?_⟩
      rintro _ ⟨⟩
      obtain ⟨ws, hQ, hw⟩ := ho.2 b rfl
      exact ⟨ws, hQR ws b hQ, hw⟩
  | failed e => exact .of_bad (ho.1 rfl) rfl
  | panicked v => exact .of_bad (ho.1 rfl) rfl

theorem body_wrote {req : Call} (hreq : req.changesAccount = true) {log : AuthLog} {w : World}
    (hkeys : (t.users.map User.id).Nodup) (hw : w.db.committed = t) :
    (body P S req).wp (exec P) T (Atomic t (Wrote P S t req)) log w := by
  cases req with
  | signUp email password =>
      exact Atomic.map_wp (createAccount_wp hw) fun ws u hu => ⟨u, rfl, hu⟩
  | createUser data => exact Atomic.map_wp (createAccount_wp hw) fun ws u hu => ⟨u, rfl, hu⟩
  | updateUser uuid data => exact Atomic.map_wp (changeUser_wp hkeys hw) fun ws _ h => h
  | updateSelf uuid data =>
      apply Atomic.map_wp (Q := fun ws _ => (data.email = none ∧ data.password = none) ∧ ws = [] ∨
        StrongPassword P S data.toUpdateUserData ∧ VersionWritten P t uuid data.toUpdateUserData ws)
      · unfold updateSelf
        split
        · rename_i hnone
          exact ⟨by rintro ⟨⟩, fun _ _ => ⟨[], .inl ⟨hnone, rfl⟩, hw⟩⟩
        · exact (changeUser_wp hkeys hw).mono fun _ _ ho => ho.mono fun _ _ => .inr
      · exact fun ws _ h => h
  | deleteUser uuid =>
      exact Atomic.map_wp (withTransaction_wp (.deleteUser hkeys) hw) fun ws _ h => h
  | _ => cases hreq

end Go42.Auth
