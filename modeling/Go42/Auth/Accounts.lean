-- SUMMARY: The map from users to credentials that a history of account changes leaves, that the tables represent it, and that a login succeeds exactly on its entries.
import Go42.Auth.Atomicity
import Mathlib.Logic.Function.Basic

/-!
# The credential map

Calls follow one another here, nothing fails but what the database refuses, and the limiter
is off.
-/

namespace Go42.Auth

open Prog (fail)

variable {P : Platform} {S : Service} {T : ℕ} {t : Tables} {α β : Type}

/-! ## The map -/

structure Account where
  email : String
  password : GoString
  deleted : Bool
deriving DecidableEq

/-- Deleted users keep their account. -/
abbrev Accounts := UUID → Option Account

/-- The account of a new user. -/
def Account.create (P : Platform) (email password : GoString) : Option Account :=
  (normalizeAndValidateEmail P email).toOption.map fun email => ⟨email, password, false⟩

/-- An address or a password that is not given stays. -/
def Account.change (P : Platform) (data : UpdateUserData) (a : Account) : Account :=
  { a with
    email := (data.email.bind fun e => (normalizeAndValidateEmail P e).toOption).getD a.email
    password := data.password.getD a.password }

def Account.delete (a : Account) : Account := { a with deleted := true }

/-- What a call does to the map, by its answer; a call that fails does nothing. -/
def Accounts.after (P : Platform) (m : Accounts) : Call × Outcome Answer → Accounts
  | (.signUp email password, .returned (.user u)) =>
    Function.update m u.uuid (Account.create P email password)
  | (.createUser data, .returned (.user u)) =>
    Function.update m u.uuid (Account.create P data.email data.password)
  | (.updateUser uuid data, .returned _) =>
    Function.update m uuid ((m uuid).map (Account.change P data))
  | (.updateSelf uuid data, .returned _) =>
    Function.update m uuid ((m uuid).map (Account.change P data.toUpdateUserData))
  | (.deleteUser uuid, .returned _) => Function.update m uuid ((m uuid).map Account.delete)
  | _ => m

/-- The map after a history that began without users. -/
def accounts (P : Platform) (history : List (Call × Outcome Answer)) : Accounts :=
  history.foldl (Accounts.after P) fun _ => none

/-! ## Calm runs -/

/-- Nothing breaks. -/
def Choice.calm : Choice → Bool
  | .fail _ | .panic _ => false
  | _ => true

/-- The machine on which a command fails only when the database or the parser refuses it. -/
def calm (P : Platform) : Machine Cmd Res Choice (List Write) World := fun log T c ch w =>
  if ch.calm then exec P log T c ch w else none

theorem exec_of_calm {log : AuthLog} {c : Cmd} {ch : Choice} {w : World}
    {r : Outcome (Res c) × List Write × World} (h : calm P log T c ch w = some r) :
    exec P log T c ch w = some r ∧ ch.calm = true := by
  unfold calm at h
  split at h
  · rename_i hcalm
    exact ⟨h, hcalm⟩
  · cases h

/-- The calls of a history, one after another, by any threads and at any times. -/
inductive History (P : Platform) (S : Service) (w₀ : World) :
    List (Call × Outcome Answer) → AuthLog → World → Prop where
  | start : History P S w₀ [] [] w₀
  | tick {history : List (Call × Outcome Answer)} {log : AuthLog} {w : World} (d : ℕ) :
      History P S w₀ history log w → History P S w₀ history log (w.env (.tick d))
  | call {history : List (Call × Outcome Answer)} {log log' : AuthLog} {w w' : World} {T : ℕ}
      {req : Call} {o : Outcome Answer} : History P S w₀ history log w →
      req.changesAccount = true → (body P S req).Runs (calm P) T log w o log' w' →
      History P S w₀ (history ++ [(req, o)]) log' w'

/-- The credentials of an account that is not deleted. -/
def Accounts.Accepts (P : Platform) (m : Accounts) (email password : GoString) : Prop :=
  ∃ uuid a, m uuid = some a ∧ a.deleted = false ∧
    normalizeAndValidateEmail P email = .ok a.email ∧ password = a.password

/-- bcrypt compares exactly what it can hash. -/
def Platform.ExactPasswords (P : Platform) : Prop :=
  ∀ hash p q, p.len ≤ maxPasswordBytes → q.len ≤ maxPasswordBytes → P.compare hash p = true →
    P.compare hash q = true → q = p

/-! ## Rows and accounts -/

/-- Row `u` holds account `a`. -/
structure Account.InRow (P : Platform) (a : Account) (u : User) : Prop where
  email : u.email = a.email
  deleted : u.deletedAt.isSome = a.deleted
  active : u.status = .active
  length : validPasswordLength a.password = true
  hash : ∃ hash, P.compare hash a.password = true ∧ u.password = some hash

/-- The tables hold the map, and nobody has logged in. -/
structure Represents (P : Platform) (m : Accounts) (t : Tables) : Prop where
  ids : (t.users.map User.id).Nodup
  uuids : (t.users.map User.uuid).Nodup
  emails : (t.users.map User.email).Nodup
  sessions : t.sessions = []
  row : ∀ u ∈ t.users, ∃ a, m u.uuid = some a ∧ a.InRow P u
  account : ∀ uuid a, m uuid = some a → ∃ u ∈ t.users, u.uuid = uuid

theorem Represents.empty (husers : t.users = []) (hsessions : t.sessions = []) :
    Represents P (fun _ => none) t where
  ids := by simp [husers]
  uuids := by simp [husers]
  emails := by simp [husers]
  sessions := hsessions
  row := by simp [husers]
  account := by simp

/-- A row with a new key keeps a key unique. -/
theorem nodup_map_concat {f : α → β} {l : List α} {a : α} (h : (l.map f).Nodup)
    (ha : ∀ x ∈ l, f x ≠ f a) : ((l ++ [a]).map f).Nodup := by
  rw [List.map_append, List.map_singleton, ← List.concat_eq_append]
  apply List.Nodup.concat _ h
  intro hmem
  obtain ⟨x, hx, heq⟩ := List.mem_map.mp hmem
  exact ha x hx heq

namespace Represents

variable {m : Accounts} {t' : Tables}

/-- The row of an account. -/
theorem exists_row (h : Represents P m t) {uuid : UUID} {a : Account} (ha : m uuid = some a) :
    ∃ u ∈ t.users, u.uuid = uuid ∧ a.InRow P u := by
  obtain ⟨u, hu, huuid⟩ := h.account uuid a ha
  obtain ⟨a', ha', hrow⟩ := h.row u hu
  rw [huuid, ha] at ha'
  cases ha'
  exact ⟨u, hu, huuid, hrow⟩

/-- A row under new keys adds an account. -/
theorem insert (h : Represents P m t) (row : User) {a : Account} (hrow : a.InRow P row)
    (hemailEq : ∀ a b, P.emailEq a b = true ↔ a = b) (hunused : UnusedKeys P t row)
    (husers : t'.users = t.users ++ [row]) (hsessions : t'.sessions = t.sessions) :
    Represents P (Function.update m row.uuid (some a)) t' where
  ids := husers ▸ nodup_map_concat h.ids fun v hv => (hunused v hv).1
  uuids := husers ▸ nodup_map_concat h.uuids fun v hv => (hunused v hv).2.1
  emails := husers ▸ nodup_map_concat h.emails fun v hv heq => by
    have hne := (hunused v hv).2.2
    rw [(hemailEq _ _).mpr heq] at hne
    cases hne
  sessions := hsessions.trans h.sessions
  row := by
    intro u hu
    rw [husers, List.mem_append, List.mem_singleton] at hu
    rcases hu with hu | rfl
    · rw [Function.update_of_ne (hunused u hu).2.1]
      exact h.row u hu
    · exact ⟨a, Function.update_self .., hrow⟩
  account := by
    intro uuid a' ha'
    rw [husers]
    by_cases heq : uuid = row.uuid
    · exact ⟨row, List.mem_append_right _ (List.mem_singleton_self _), heq.symm⟩
    · rw [Function.update_of_ne heq] at ha'
      obtain ⟨u, hu, huuid⟩ := h.account uuid a' ha'
      exact ⟨u, List.mem_append_left _ hu, huuid⟩

/-- A new version of a row changes its account. -/
theorem replace (h : Represents P m t) (next : User) {prev : User} {a : Account} (hprev : prev ∈ t.users)
    (hid : next.id = prev.id) (huuid : next.uuid = prev.uuid) (hrow : a.InRow P next)
    (hunique : ∀ v ∈ t.users, v.id ≠ prev.id → v.email ≠ next.email)
    (husers : t'.users = t.users.map fun u => if u.id = prev.id then next else u)
    (hsessions : t'.sessions = t.sessions) :
    Represents P (Function.update m prev.uuid (some a)) t' := by
  have hsame : ∀ u ∈ t.users, u.id = prev.id → u = prev := fun u hu heq =>
    List.inj_on_of_nodup_map h.ids hu hprev heq
  have hother : ∀ u ∈ t.users, u.id ≠ prev.id → u.uuid ≠ prev.uuid := by
    intro u hu hne heq
    exact hne (congrArg User.id (List.inj_on_of_nodup_map h.uuids hu hprev heq))
  have hkeep {γ : Type} (f : User → γ) (hf : f next = f prev) :
      t'.users.map f = t.users.map f := by
    rw [husers, List.map_map]
    apply List.map_congr_left
    intro u hu
    by_cases hu' : u.id = prev.id
    · rw [hsame u hu hu', Function.comp_apply, if_pos rfl, hf]
    · rw [Function.comp_apply, if_neg hu']
  refine ⟨?_, ?_, ?_, hsessions.trans h.sessions, ?_, ?_⟩
  · exact hkeep User.id hid ▸ h.ids
  · exact hkeep User.uuid huuid ▸ h.uuids
  · rw [husers, List.map_map]
    apply List.Nodup.map_on _ (List.Nodup.of_map _ h.ids)
    intro u hu v hv heq
    by_cases hu' : u.id = prev.id
    · by_cases hv' : v.id = prev.id
      · rw [hsame u hu hu', hsame v hv hv']
      · simp only [Function.comp_apply, if_pos hu', if_neg hv'] at heq
        exact absurd heq.symm (hunique v hv hv')
    · by_cases hv' : v.id = prev.id
      · simp only [Function.comp_apply, if_neg hu', if_pos hv'] at heq
        exact absurd heq (hunique u hu hu')
      · simp only [Function.comp_apply, if_neg hu', if_neg hv'] at heq
        exact List.inj_on_of_nodup_map h.emails hu hv heq
  · intro u hu
    rw [husers] at hu
    obtain ⟨v, hv, rfl⟩ := List.mem_map.mp hu
    by_cases hv' : v.id = prev.id
    · rw [if_pos hv', huuid]
      exact ⟨a, Function.update_self .., hrow⟩
    · rw [if_neg hv', Function.update_of_ne (hother v hv hv')]
      exact h.row v hv
  · intro uuid a' ha'
    have hmem : ∀ u ∈ t.users, ∃ v ∈ t'.users, v.uuid = u.uuid := by
      intro u hu
      rw [husers]
      refine ⟨_, List.mem_map_of_mem hu, ?_⟩
      by_cases hu' : u.id = prev.id
      · rw [if_pos hu', huuid, hsame u hu hu']
      · rw [if_neg hu']
    by_cases heq : uuid = prev.uuid
    · exact heq ▸ hmem prev hprev
    · rw [Function.update_of_ne heq] at ha'
      obtain ⟨u, hu, rfl⟩ := h.account uuid a' ha'
      exact hmem u hu

/-- A change that leaves the account as it is. -/
theorem same (h : Represents P m t) {uuid : UUID} {f : Account → Account}
    (hf : ∀ a, m uuid = some a → f a = a) :
    Represents P (Function.update m uuid ((m uuid).map f)) t := by
  have heq : (m uuid).map f = m uuid := by
    cases hm : m uuid with
    | none => rfl
    | some a => rw [Option.map_some, hf a hm]
  rw [heq, Function.update_eq_self]
  exact h

/-- The row that a UUID finds is the one of an account that is not deleted. -/
theorem findUser (h : Represents P m t) {f : UserFilter} {u : User}
    (hfind : t.findUser P.emailEq f = some u) :
    u ∈ t.users ∧ f.matches P.emailEq u = true ∧
      ∃ a, m u.uuid = some a ∧ a.deleted = false ∧ a.InRow P u := by
  have hu : u ∈ t.users := List.mem_of_find?_eq_some hfind
  have hcond := List.find?_some hfind
  rw [Bool.and_eq_true, Option.isNone_iff_eq_none] at hcond
  obtain ⟨a, ha, hrow⟩ := h.row u hu
  refine ⟨hu, hcond.2, a, ha, ?_, hrow⟩
  rw [← hrow.deleted, hcond.1]
  rfl

end Represents

/-! ## Calls and the map -/

section Calls

variable {m : Accounts}

theorem length_of_strong {password : GoString} (h : checkPasswordStrength P S password = none) :
    validPasswordLength password = true := by
  unfold checkPasswordStrength at h
  split at h
  · cases h
  · rename_i hvalid
    simpa using hvalid

/-- No address is empty. -/
theorem normal_ne_empty (hrequired : P.validateEmail "" ≠ none) {email : GoString} {e : String}
    (h : normalizeAndValidateEmail P email = .ok e) : e ≠ "" := by
  unfold normalizeAndValidateEmail at h
  split at h
  · cases h
  · split at h
    · cases h
    · rename_i hvalid
      rintro rfl
      rw [Except.ok.inj h] at hvalid
      exact hrequired hvalid

theorem Represents.create (h : Represents P m t) (hemailEq : ∀ a b, P.emailEq a b = true ↔ a = b)
    {eventType : String} {email password : GoString} {ws : List Write} {user u : User}
    (haccount : NewAccount P S email password user) (hws : Inserted P t eventType user ws u) :
    Represents P (Function.update m u.uuid (Account.create P email password)) (applyAll t ws) := by
  have hcreate : Account.create P email password = some ⟨user.email, password, false⟩ := by
    rw [Account.create, haccount.email]
    rfl
  obtain ⟨hash, hhash, hpassword⟩ := haccount.hash
  cases hws with
  | @intro id now role msg hunused _ _ _ =>
      have hrow : Account.InRow P ⟨user.email, password, false⟩ (user.asRow id now) :=
        ⟨rfl, by rw [User.asRow, haccount.present]; rfl, haccount.active,
          length_of_strong haccount.strong, hash, hhash, hpassword⟩
      rw [hcreate]
      exact h.insert (user.asRow id now) hrow hemailEq hunused rfl rfl

theorem Represents.change (h : Represents P m t) (hemailEq : ∀ a b, P.emailEq a b = true ↔ a = b)
    (hrequired : P.validateEmail "" ≠ none) {uuid : String} {data : UpdateUserData}
    {ws : List Write} (hstrong : StrongPassword P S data) (hws : VersionWritten P t uuid data ws) :
    Represents P (Function.update m uuid ((m uuid).map (Account.change P data)))
      (applyAll t ws) := by
  cases hws with
  | nothing hsame =>
      obtain ⟨hpassword, u, hfind, hemail⟩ := hsame
      obtain ⟨hu, hmatch, a, ha, -, hrow⟩ := h.findUser hfind
      obtain rfl : u.uuid = uuid := of_decide_eq_true hmatch
      apply h.same
      intro a' ha'
      rw [ha] at ha'
      cases ha'
      cases he : data.email with
      | none => simp [Account.change, he, hpassword]
      | some e => simp [Account.change, he, hpassword, hemail e he, Except.toOption, hrow.email]
  | @row prev next msg hnext _ =>
      obtain ⟨hprev, hmatch, a, ha, -, hrow⟩ := h.findUser hnext.found
      obtain rfl : prev.uuid = uuid := of_decide_eq_true hmatch
      have hrow' : (a.change P data).InRow P next := by
        refine ⟨?_, ?_, hnext.status.trans hrow.active, ?_, ?_⟩
        · cases he : data.email with
          | none => rw [hnext.keepsEmail he, hrow.email, Account.change, he]; rfl
          | some e =>
              obtain ⟨email, hn, hnew⟩ := hnext.newEmail e he
              rw [hnew (normal_ne_empty hrequired hn), Account.change, he]
              simp [hn, Except.toOption]
        · rw [hnext.present.2, Account.change, ← hrow.deleted, hnext.present.1]
        · cases hp : data.password with
          | none => simpa [Account.change, hp] using hrow.length
          | some pw => simpa [Account.change, hp] using length_of_strong (hstrong pw hp)
        · cases hp : data.password with
          | none => simpa [Account.change, hp, hnext.keepsPassword hp] using hrow.hash
          | some pw => simpa [Account.change, hp] using hnext.newPassword pw hp
      have hunique : ∀ v ∈ t.users, v.id ≠ prev.id → v.email ≠ next.email := by
        intro v hv hne heq
        have hunique := hnext.unique v hv hne
        rw [(hemailEq _ _).mpr heq] at hunique
        cases hunique
      rw [ha, Option.map_some]
      exact h.replace next hprev hnext.id hnext.uuid hrow' hunique rfl rfl

theorem Represents.delete (h : Represents P m t) {uuid : String} {ws : List Write} (hws : Deleted P t uuid ws) :
    Represents P (Function.update m uuid ((m uuid).map Account.delete)) (applyAll t ws) := by
  cases hws with
  | @intro prev now msg hfind _ =>
      obtain ⟨hprev, hmatch, a, ha, -, hrow⟩ := h.findUser hfind
      obtain rfl : prev.uuid = uuid := of_decide_eq_true hmatch
      have hrow' : a.delete.InRow P { prev with deletedAt := some now } :=
        ⟨hrow.email, rfl, hrow.active, hrow.length, hrow.hash⟩
      have hunique : ∀ v ∈ t.users, v.id ≠ prev.id → v.email ≠ prev.email := fun v hv hne heq =>
        hne (congrArg User.id (List.inj_on_of_nodup_map h.emails hv hprev heq))
      rw [ha, Option.map_some]
      exact h.replace { prev with deletedAt := some now } hprev rfl rfl hrow' hunique rfl rfl

/-- A call that returned takes the tables along with the map. -/
theorem Represents.after (h : Represents P m t) (hemailEq : ∀ a b, P.emailEq a b = true ↔ a = b)
    (hrequired : P.validateEmail "" ≠ none) {req : Call} {ws : List Write} {a : Answer}
    (hws : Wrote P S t req ws a) : Represents P (m.after P (req, .returned a)) (applyAll t ws) := by
  cases req with
  | signUp email password =>
      obtain ⟨u, rfl, user, haccount, hinserted⟩ := hws
      exact h.create hemailEq haccount hinserted
  | createUser data =>
      obtain ⟨u, rfl, user, haccount, hinserted⟩ := hws
      exact h.create hemailEq haccount hinserted
  | updateUser uuid data => exact h.change hemailEq hrequired hws.1 hws.2
  | updateSelf uuid data =>
      rcases hws with ⟨hnone, rfl⟩ | ⟨hstrong, hwritten⟩
      · apply h.same
        intro a _
        simp [Account.change, hnone]
      · exact h.change hemailEq hrequired hstrong hwritten
  | deleteUser uuid => exact h.delete hws
  | login email password => exact hws.elim
  | refresh token => exact hws.elim
  | logout token => exact hws.elim
  | validateJWTToken token purpose => exact hws.elim
  | deleteExpiredSessions => exact hws.elim

end Calls

/-- The tables hold the map of the history. -/
theorem History.represents (hemailEq : ∀ a b, P.emailEq a b = true ↔ a = b)
    (hrequired : P.validateEmail "" ≠ none) {w₀ w : World} (husers : w₀.db.committed.users = [])
    (hsessions : w₀.db.committed.sessions = []) {history : List (Call × Outcome Answer)}
    {log : AuthLog} (h : History P S w₀ history log w) :
    Represents P (accounts P history) w.db.committed := by
  induction h with
  | start => exact .empty husers hsessions
  | tick d _ ih => exact ih
  | @call history log log' w w' T req o _ hreq hrun ih =>
      have hexec := hrun.mono fun _ _ _ _ _ hstep => (exec_of_calm hstep).1
      obtain ⟨hbad, hret⟩ := hexec.post (body_wrote hreq ih.ids rfl)
      have hafter : accounts P (history ++ [(req, o)]) = (accounts P history).after P (req, o) := by
        rw [accounts, List.foldl_append]
        rfl
      rw [hafter]
      cases o with
      | returned a =>
          obtain ⟨ws, hws, hw'⟩ := hret a rfl
          rw [hw']
          exact ih.after hemailEq hrequired hws
      | failed e =>
          rw [hbad rfl]
          cases req <;> exact ih
      | panicked v =>
          rw [hbad rfl]
          cases req <;> exact ih

/-! ## Login -/

section Accepts

variable {m : Accounts} {email password : GoString} {e : String}

/-- The account that accepts credentials has its row. -/
theorem Represents.row_of_accepts (h : Represents P m t)
    (hn : normalizeAndValidateEmail P email = .ok e) (haccepts : m.Accepts P email password) :
    ∃ u ∈ t.users, ∃ a : Account, u.email = e ∧ u.deletedAt = none ∧ password = a.password ∧
      a.InRow P u := by
  obtain ⟨uuid, a, ha, hdeleted, hemail, hpassword⟩ := haccepts
  obtain ⟨u, hu, -, hrow⟩ := h.exists_row ha
  rw [hn] at hemail
  refine ⟨u, hu, a, hrow.email.trans (Except.ok.inj hemail).symm, ?_, hpassword, hrow⟩
  rw [← Option.not_isSome_iff_eq_none, hrow.deleted, hdeleted]
  exact Bool.false_ne_true

theorem Represents.length_of_accepts (h : Represents P m t)
    (hn : normalizeAndValidateEmail P email = .ok e) (haccepts : m.Accepts P email password) :
    validPasswordLength password = true := by
  obtain ⟨u, -, a, -, -, hpassword, hrow⟩ := h.row_of_accepts hn haccepts
  exact hpassword ▸ hrow.length

theorem Represents.not_accepts (h : Represents P m t)
    (hemailEq : ∀ a b, P.emailEq a b = true ↔ a = b)
    (hn : normalizeAndValidateEmail P email = .ok e)
    (hnone : t.findUser P.emailEq (.byEmail e) = none) : ¬m.Accepts P email password := by
  intro haccepts
  obtain ⟨u, hu, a, hemail, hpresent, -, -⟩ := h.row_of_accepts hn haccepts
  have hcond := List.find?_eq_none.mp hnone u hu
  apply hcond
  rw [hpresent, Bool.and_eq_true]
  exact ⟨rfl, (hemailEq _ _).mpr hemail⟩

/-- Credentials are accepted when the hash in the row of the address fits the password. -/
theorem Represents.accepts_iff (h : Represents P m t)
    (hemailEq : ∀ a b, P.emailEq a b = true ↔ a = b) (hbcrypt : P.ExactPasswords)
    (hn : normalizeAndValidateEmail P email = .ok e) (hlength : validPasswordLength password = true)
    {u : User} (hfind : t.findUser P.emailEq (.byEmail e) = some u) :
    m.Accepts P email password ↔ P.compare u.passwordHash password = true := by
  obtain ⟨hu, hmatch, a, ha, hdeleted, hrow⟩ := h.findUser hfind
  obtain ⟨hash, hhash, hpassword⟩ := hrow.hash
  have hemail : u.email = e := (hemailEq _ _).mp hmatch
  have hstored : u.passwordHash = hash := by rw [User.passwordHash, hpassword]; rfl
  have hbytes {pw : GoString} (hpw : validPasswordLength pw = true) : pw.len ≤ maxPasswordBytes := by
    simp only [validPasswordLength, Bool.and_eq_true, decide_eq_true_eq] at hpw
    exact hpw.1.1
  rw [hstored]
  constructor
  · intro haccepts
    obtain ⟨u', hu', a', hemail', -, rfl, hrow'⟩ := h.row_of_accepts hn haccepts
    obtain rfl : u' = u := List.inj_on_of_nodup_map h.emails hu' hu (hemail'.trans hemail.symm)
    obtain ⟨hash', hhash', hpassword'⟩ := hrow'.hash
    rw [hpassword] at hpassword'
    cases hpassword'
    exact hhash'
  · intro hok
    refine ⟨u.uuid, a, ha, hdeleted, by rw [hn, ← hrow.email, hemail], ?_⟩
    exact hbcrypt hash _ _ (hbytes hrow.length) (hbytes hlength) hhash hok

end Accepts

/-- On the tables `t`, calm runs of `p` end with a result and tables of which `Q` holds. -/
def Ends (P : Platform) (t : Tables) (Q : Except GoError α → Tables → Prop) (p : AuthProg α) :
    Prop :=
  ∀ T log w, w.db.committed = t → p.wp (calm P) T
    (fun o w' => ∃ r, o = .ofExcept r ∧ Q r w'.db.committed) log w

/-- A result, and nothing written. -/
def Returns (t : Tables) (r : Except GoError α) (t' : Tables) : Prop := (∃ a, r = .ok a) ∧ t' = t

/-- A command that cannot be refused. -/
def Cmd.infallible : Cmd → Bool
  | .now | .newUUID | .compareHashAndPassword _ _ | .signedString _ _ => true
  | _ => false

theorem calm_infallible {log : AuthLog} {c : Cmd} {ch : Choice} {w w' : World} {o : Outcome (Res c)}
    {e : List Write} (hc : c.infallible = true) (h : calm P log T c ch w = some (o, e, w')) :
    (∃ a, o = .returned a) ∧ w' = w := by
  obtain ⟨hexec, hcalm⟩ := exec_of_calm h
  cases ch with
  | fail err => cases hcalm
  | panic v => cases hcalm
  | run snapshot pick =>
      cases c with
      | now => cases hexec; exact ⟨⟨_, rfl⟩, rfl⟩
      | compareHashAndPassword hash password => cases hexec; exact ⟨⟨_, rfl⟩, rfl⟩
      | signedString secret claims => cases hexec; exact ⟨⟨_, rfl⟩, rfl⟩
      | newUUID => cases hexec
      | _ => cases hc
  | uuid u =>
      cases c with
      | newUUID =>
          simp only [exec] at hexec
          split at hexec
          · cases hexec; exact ⟨⟨_, rfl⟩, rfl⟩
          · cases hexec
      | now => cases hexec
      | compareHashAndPassword hash password => cases hexec
      | signedString secret claims => cases hexec
      | _ => cases hc
  | hash hash =>
      cases c with
      | generateFromPassword password => cases hc
      | _ => cases hexec
  | allow b =>
      cases c with
      | allowRateLimit req => cases hc
      | _ => cases hexec

theorem calm_compare {log : AuthLog} {hash : String} {password : GoString} {ch : Choice}
    {w w' : World} {ok : Bool} {e : List Write}
    (h : calm P log T (.compareHashAndPassword hash password) ch w = some (.returned ok, e, w')) :
    ok = P.compare hash password := by
  obtain ⟨hexec, -⟩ := exec_of_calm h
  cases ch <;> cases hexec
  rfl

theorem calm_sql {log : AuthLog} {q : Stmt} {ch : Choice} {w w' : World} {o : Outcome q.Res}
    {e : List Write} (h : calm P log T (.sql .primary q) ch w = some (o, e, w')) :
    ∃ pick, (∃ err, q.run P.emailEq w.clock pick w.db.committed = .error err ∧
        o = .failed err ∧ w'.db.committed = w.db.committed) ∨
      ∃ r, q.run P.emailEq w.clock pick w.db.committed = .ok r ∧ o = .returned r.answer ∧
        w'.db.committed = applyAll w.db.committed r.writes := by
  obtain ⟨hexec, hcalm⟩ := exec_of_calm h
  cases ch with
  | run snapshot pick =>
      refine ⟨pick, ?_⟩
      simp only [exec, execRun, execSQL] at hexec
      split at hexec
      · obtain ⟨⟨o', e', d⟩, hst, heq⟩ := Option.map_eq_some_iff.mp hexec
        cases heq
        unfold Store.statement at hst
        simp only [Store.view] at hst
        split at hst
        · rename_i err hrun
          cases hst
          exact .inl ⟨err, hrun, rfl, rfl⟩
        · rename_i r hrun
          split at hst
          · cases hst
          · cases hst
            exact .inr ⟨r, hrun, rfl, rfl⟩
      · cases hexec
  | fail err => cases hcalm
  | panic v => cases hcalm
  | uuid u => cases hexec
  | hash hash => cases hexec
  | allow b => cases hexec

namespace Ends

variable {Q : Except GoError α → Tables → Prop}

theorem pure {a : α} (h : Q (.ok a) t) : Ends P t Q (pure a : AuthProg α) := by
  rintro T log w rfl
  exact ⟨.ok a, rfl, h⟩

theorem fail {e : GoError} (h : Q (.error e) t) : Ends P t Q (fail e : AuthProg α) := by
  rintro T log w rfl
  exact ⟨.error e, rfl, h⟩

theorem bind {p : AuthProg β} {k : β → AuthProg α} {R : Except GoError β → Tables → Prop}
    (hp : Ends P t R p) (hok : ∀ b t', R (.ok b) t' → Ends P t' Q (k b))
    (herror : ∀ e t', R (.error e) t' → Q (.error e) t') : Ends P t Q (p >>= k) := by
  intro T log w hw
  apply Prog.wp.bind
  apply (hp T log w hw).mono
  rintro o w' ⟨r, rfl, hR⟩ log'
  cases r with
  | ok b => exact hok b _ hR T log' w' rfl
  | error e => exact ⟨.error e, rfl, herror e _ hR⟩

/-- A first part that cannot fail. -/
theorem step {p : AuthProg β} {k : β → AuthProg α} (hp : Ends P t (Returns t) p)
    (hk : ∀ b, Ends P t Q (k b)) : Ends P t Q (p >>= k) := by
  apply bind hp
  · rintro b t' ⟨-, rfl⟩
    exact hk b
  · rintro e t' ⟨⟨b, ⟨⟩⟩, -⟩

theorem mapErr {p : AuthProg α} {f : GoError → GoError}
    (hp : Ends P t (fun r t' => Q (r.mapError f) t') p) : Ends P t Q (p.mapErr f) := by
  intro T log w hw
  apply Prog.wp.mapErr
  apply (hp T log w hw).mono
  rintro o w' ⟨r, rfl, hQ⟩
  cases r with
  | ok a => exact ⟨.ok a, rfl, hQ⟩
  | error e => exact ⟨.error (f e), rfl, hQ⟩

theorem attempt {p : AuthProg β} {Q : Except GoError (Except GoError β) → Tables → Prop}
    (hp : Ends P t (fun r t' => Q (.ok r) t') p) : Ends P t Q p.attempt := by
  intro T log w hw
  apply Prog.wp.handle
  apply (hp T log w hw).mono
  rintro o w' ⟨r, rfl, hQ⟩ log'
  cases r with
  | ok a => exact ⟨.ok (.ok a), rfl, hQ⟩
  | error e => exact ⟨.ok (.error e), rfl, hQ⟩

theorem mono {R : Except GoError α → Tables → Prop} {p : AuthProg α} (hp : Ends P t Q p)
    (h : ∀ r t', Q r t' → R r t') : Ends P t R p := by
  intro T log w hw
  apply (hp T log w hw).mono
  rintro o w' ⟨r, rfl, hQ⟩
  exact ⟨r, rfl, h r _ hQ⟩

theorem infallible {c : Cmd} (hc : c.infallible = true) : Ends P t (Returns t) (call c) := by
  rintro T log w rfl ch o e w' hM
  obtain ⟨⟨a, rfl⟩, rfl⟩ := calm_infallible hc hM
  exact ⟨.ok a, rfl, ⟨a, rfl⟩, rfl⟩

theorem compare {hash : String} {password : GoString} {Q : Except GoError Bool → Tables → Prop}
    (h : Q (.ok (P.compare hash password)) t) :
    Ends P t Q (call (.compareHashAndPassword hash password)) := by
  rintro T log w rfl ch o e w' hM
  obtain ⟨⟨ok, rfl⟩, rfl⟩ := calm_infallible rfl hM
  cases calm_compare hM
  exact ⟨.ok _, rfl, h⟩

theorem sql (q : Stmt) {Q : Except GoError q.Res → Tables → Prop}
    (herror : ∀ now pick err, q.run P.emailEq now pick t = .error err → Q (.error err) t)
    (hok : ∀ now pick r, q.run P.emailEq now pick t = .ok r →
      Q (.ok r.answer) (applyAll t r.writes)) : Ends P t Q (sql .primary q) := by
  rintro T log w rfl ch o e w' hM
  obtain ⟨pick, ⟨err, hrun, rfl, hw'⟩ | ⟨r, hrun, rfl, hw'⟩⟩ := calm_sql hM
  · exact ⟨.error err, rfl, hw' ▸ herror _ _ _ hrun⟩
  · exact ⟨.ok r.answer, rfl, hw' ▸ hok _ _ _ hrun⟩

/-- The user that is found, or the error for none. -/
theorem getUser {f : UserFilter} {Q : Except GoError User → Tables → Prop}
    (hnone : t.findUser P.emailEq f = none → Q (.error errEntityNotFound) t)
    (hsome : ∀ u roles, t.findUser P.emailEq f = some u → Q (.ok { u with roles := roles }) t) :
    Ends P t Q (Repository.getUser .primary f) := by
  unfold Repository.getUser
  apply bind (R := fun r t' => t' = t ∧ ((r = .error errEntityNotFound ∧
    t.findUser P.emailEq f = none) ∨ ∃ u, r = .ok u ∧ t.findUser P.emailEq f = some u))
  · apply mapErr
    apply sql (.selectUser f)
    · intro now pick err hrun
      cases hfind : t.findUser P.emailEq f with
      | none =>
          simp only [Stmt.run, hfind, first, Except.error.injEq] at hrun
          subst hrun
          exact ⟨rfl, .inl ⟨rfl, rfl⟩⟩
      | some u =>
          simp only [Stmt.run, hfind, first] at hrun
          cases hrun
    · intro now pick r hrun
      obtain ⟨u, hu, rfl⟩ := first_eq_ok hrun
      exact ⟨rfl, .inr ⟨u, rfl, hu⟩⟩
  · rintro u t' ⟨rfl, ⟨⟨⟩, -⟩ | ⟨u', ⟨⟩, hu⟩⟩
    apply step
    · apply mapErr
      apply sql (.selectRoles u.id)
      · intro now pick err hrun
        cases hrun
      · intro now pick r hrun
        cases hrun
        exact ⟨⟨_, rfl⟩, rfl⟩
    · intro roles
      split
      · exact pure (hsome u _ hu)
      · apply step
        · apply mapErr
          apply sql (.selectRolePermissions (roles.map Role.id))
          · intro now pick err hrun
            cases hrun
          · intro now pick r hrun
            cases hrun
            exact ⟨⟨_, rfl⟩, rfl⟩
        · intro permissions
          exact pure (hsome u _ hu)
  · rintro e t' ⟨rfl, ⟨⟨⟩, hnone'⟩ | ⟨u, ⟨⟩, -⟩⟩
    exact hnone hnone'

theorem sendEvent {topic : String} {msg : Outbox.Message} :
    Ends P t (fun _ _ => True) (sendEvent .primary topic msg) := by
  unfold Go42.Auth.sendEvent newOutboxMessage
  apply mapErr
  split
  · exact fail trivial
  · apply step (infallible rfl)
    intro id
    apply mapErr
    apply sql (.insertOutbox (Outbox.newRow id topic msg))
    · exact fun _ _ _ _ => trivial
    · exact fun _ _ _ _ => trivial

theorem signJWT {secret : JWTSecret} (hsecret : S.jwtSecrets.getLast? = some secret)
    {userUUID sessionID tokenID : String} {purpose : JWTTokenPurpose} {now expiresAt : ℤ} :
    Ends P t (Returns t) (signJWT S userUUID sessionID tokenID purpose now expiresAt) := by
  unfold Go42.Auth.signJWT
  rw [hsecret]
  exact infallible rfl

theorem generateTokens (hconf : checkJWTConfiguration S = .ok ())
    {userUUID sessionID refreshTokenID : String} {refreshExpiresAt : ℤ} :
    Ends P t (Returns t)
      (generateTokens S userUUID sessionID refreshTokenID refreshExpiresAt) := by
  obtain ⟨secret, hsecret⟩ : ∃ secret, S.jwtSecrets.getLast? = some secret := by
    cases hlast : S.jwtSecrets.getLast? with
    | some secret => exact ⟨secret, rfl⟩
    | none =>
        rw [List.getLast?_eq_none_iff] at hlast
        simp [checkJWTConfiguration, hlast] at hconf
  unfold Go42.Auth.generateTokens
  rw [hconf]
  apply step (infallible rfl)
  intro now
  apply step (infallible rfl)
  intro accessTokenID
  apply step (signJWT hsecret)
  intro accessToken
  apply step (signJWT hsecret)
  intro refreshToken
  exact pure ⟨⟨_, rfl⟩, rfl⟩

theorem compareDummyPassword {password : GoString} :
    Ends P t (Returns t) (compareDummyPassword password) := by
  apply step (infallible rfl)
  intro _
  exact pure ⟨⟨(), rfl⟩, rfl⟩

/-- The session of a user that exists is opened: nothing is in the way of its keys. -/
theorem createSession (hconf : checkJWTConfiguration S = .ok ()) (hsessions : t.sessions = [])
    {user : User} (huser : ∃ u ∈ t.users, u.id = user.id) :
    Ends P t (fun r _ => ∃ tokens, r = .ok tokens) (createSession S user) := by
  unfold Go42.Auth.createSession
  apply step (infallible rfl)
  intro id
  apply step (infallible rfl)
  intro refreshTokenID
  apply step (infallible rfl)
  intro now
  apply step (generateTokens hconf)
  intro tokens
  apply bind (R := fun r _ => r = .ok ())
  · apply mapErr
    apply sql (.insertSession _)
    · intro now pick err hrun
      have hany : t.users.any (fun u => decide (u.id = user.id)) = true := by
        simpa using huser
      simp [Stmt.run, hany, hsessions] at hrun
    · intro now pick r hrun
      rfl
  · rintro _ t' -
    exact pure ⟨tokens, rfl⟩
  · rintro e t' ⟨⟩

/-- A login and the map. -/
theorem login {m : Accounts} (h : Represents P m t)
    (hemailEq : ∀ a b, P.emailEq a b = true ↔ a = b) (hbcrypt : P.ExactPasswords)
    (hlimiter : S.rateLimiterEnabled = false) (hconf : checkJWTConfiguration S = .ok ())
    {email password : GoString} :
    Ends P t (fun r _ => (∃ tokens, r = .ok tokens) ↔ m.Accepts P email password)
      (login P S email password) := by
  have hrejected {err : GoError} (hnot : ¬m.Accepts P email password) :
      (∃ tokens, (.error err : Except GoError Tokens) = .ok tokens) ↔ m.Accepts P email password :=
    ⟨fun ⟨_, hok⟩ => (nomatch hok), fun haccepts => absurd haccepts hnot⟩
  unfold Go42.Auth.login
  split
  · rename_i err hemail
    apply fail
    apply hrejected
    rintro ⟨uuid, a, -, -, hok, -⟩
    rw [hemail] at hok
    cases hok
  · rename_i e hn
    split
    · rename_i hlength
      apply fail
      apply hrejected
      intro haccepts
      rw [h.length_of_accepts hn haccepts] at hlength
      cases hlength
    · rename_i hlength
      replace hlength : validPasswordLength password = true := by simpa using hlength
      have hfree : Ends P t (Returns t)
          (limitAuthentication P S "account" e S.loginAccountRequests S.loginWindow) := by
        unfold Go42.Auth.limitAuthentication
        rw [hlimiter]
        exact pure ⟨⟨(), rfl⟩, rfl⟩
      apply step hfree
      intro _
      apply bind (R := fun r t' => t' = t ∧ ∃ r', r = .ok r' ∧
        ((r' = .error errEntityNotFound ∧ t.findUser P.emailEq (.byEmail e) = none) ∨
          ∃ u roles, r' = .ok { u with roles := roles } ∧
            t.findUser P.emailEq (.byEmail e) = some u))
      · apply attempt
        apply getUser
        · exact fun hnone => ⟨rfl, _, rfl, .inl ⟨rfl, hnone⟩⟩
        · exact fun u roles hu => ⟨rfl, _, rfl, .inr ⟨u, roles, rfl, hu⟩⟩
      · rintro _ t' ⟨rfl, _, ⟨⟩, ⟨rfl, hnone⟩ | ⟨u, roles, rfl, hfind⟩⟩
        · apply step compareDummyPassword
          intro _
          exact fail (hrejected (h.not_accepts hemailEq hn hnone))
        · obtain ⟨hu, -, a, -, -, hrow⟩ := h.findUser hfind
          have haccepts := h.accepts_iff hemailEq hbcrypt hn hlength hfind
          dsimp only
          rw [if_neg (by simp [User.isActive, hrow.active])]
          apply bind (R := fun r t'' => r = .ok (P.compare u.passwordHash password) ∧ t'' = t')
            (compare ⟨rfl, rfl⟩)
          · rintro _ t' ⟨⟨⟩, rfl⟩
            split
            · rename_i hbad
              apply fail
              apply hrejected
              rw [haccepts]
              simpa using hbad
            · rename_i hok
              replace hok : P.compare u.passwordHash password = true := by simpa using hok
              apply bind (R := fun r _ => ∃ tokens, r = .ok tokens)
              · apply mapErr
                apply (createSession hconf h.sessions ⟨u, hu, rfl⟩).mono
                rintro _ t' ⟨tokens, rfl⟩
                exact ⟨tokens, rfl⟩
              · rintro tokens t' -
                apply bind (R := fun r _ => ∃ sent, r = .ok sent)
                · apply attempt
                  exact sendEvent.mono fun sent t'' _ => ⟨sent, rfl⟩
                · rintro _ t'' -
                  exact pure ⟨fun _ => haccepts.mpr hok, fun _ => ⟨tokens, rfl⟩⟩
                · rintro err t'' ⟨sent, ⟨⟩⟩
              · rintro err t' ⟨tokens, ⟨⟩⟩
          · rintro err t' ⟨⟨⟩, -⟩
      · rintro err t' ⟨rfl, r', ⟨⟩, -⟩

end Ends

/-! ## Main results -/

/-- After any history of account changes that began without users, a login returns tokens exactly
for the address and the password that the history gave to a user it did not delete. No two users
have the same address, deleted ones included. -/
theorem login_iff_accounts (hbcrypt : P.ExactPasswords)
    (hemailEq : ∀ a b, P.emailEq a b = true ↔ a = b) (hrequired : P.validateEmail "" ≠ none)
    (hlimiter : S.rateLimiterEnabled = false) (hconf : checkJWTConfiguration S = .ok ())
    {w₀ w : World} (husers : w₀.db.committed.users = [])
    (hsessions : w₀.db.committed.sessions = []) {history : List (Call × Outcome Answer)}
    {log : AuthLog} (h : History P S w₀ history log w) :
    (∀ T email password o log' w', (login P S email password).Runs (calm P) T log w o log' w' →
      ((∃ tokens, o = .returned tokens) ↔ ∃ uuid a, accounts P history uuid = some a ∧
        a.deleted = false ∧ normalizeAndValidateEmail P email = .ok a.email ∧
        password = a.password)) ∧
    (∀ uuid uuid' a a', accounts P history uuid = some a → accounts P history uuid' = some a' →
      a.email = a'.email → uuid = uuid') ∧
    (w.db.committed.users.map User.email).Nodup := by
  have hmap := h.represents hemailEq hrequired husers hsessions
  refine ⟨?_, ?_, hmap.emails⟩
  · intro T email password o log' w' hrun
    obtain ⟨r, rfl, hlogin⟩ :=
      hrun.post (Ends.login hmap hemailEq hbcrypt hlimiter hconf T log w rfl)
    refine Iff.trans ?_ hlogin
    cases r with
    | ok tokens => exact ⟨fun _ => ⟨tokens, rfl⟩, fun _ => ⟨tokens, rfl⟩⟩
    | error e => exact ⟨fun ⟨_, h⟩ => (nomatch h), fun ⟨_, h⟩ => (nomatch h)⟩
  · intro uuid uuid' a a' ha ha' heq
    obtain ⟨u, hu, rfl, hrow⟩ := hmap.exists_row ha
    obtain ⟨u', hu', rfl, hrow'⟩ := hmap.exists_row ha'
    have hsame : u = u' := List.inj_on_of_nodup_map hmap.emails hu hu'
      (hrow.email.trans (heq.trans hrow'.email.symm))
    rw [hsame]

/-- The small installation before its first user. -/
def emptyWorld : World := { smallWorld with db := ⟨{ smallWorld.db.committed with users := [] }, ∅⟩ }

/-- The user who signs up in it. -/
def bob : User := { newUser (smallUUID '2') "bob@go42.dev" with id := 7, password := some "battery staple" }

def bobSignUp : Call := .signUp (.utf8 "bob@go42.dev") (.utf8 "battery staple")

/-- The world's part in the sign-up. -/
def bobSignUpChoices : List Choice :=
  [.uuid (smallUUID '2'), .hash "battery staple"] ++ List.replicate 4 (.run false 7) ++
    [.uuid (smallUUID '3')] ++ List.replicate 2 (.run false 7)

/-- The world's part in a login after it. -/
def bobLoginChoices : List Choice :=
  List.replicate 4 (.run false 7) ++ [.uuid (smallUUID '4'), .uuid (smallUUID '5')] ++
    List.replicate 2 (.run false 7) ++ [.uuid (smallUUID '6')] ++ List.replicate 3 (.run false 7) ++
    [.uuid (smallUUID '7'), .run false 7]

theorem bob_run : ∃ r, (body smallPlatform smallService bobSignUp).follow (calm smallPlatform) 0
      bobSignUpChoices [] emptyWorld = some r ∧
    r.1 = .returned (.user bob) ∧
    ((login smallPlatform smallService (.utf8 " Bob@go42.dev") (.utf8 "battery staple")).follow
      (calm smallPlatform) 1 bobLoginChoices r.2.1 r.2.2).isSome = true :=
  System.exists_of_any (by decide +kernel)

/-- Bob can log in with his password, and with no other. -/
theorem login_iff_accounts_bob : ∃ log w,
    History smallPlatform smallService emptyWorld [(bobSignUp, .returned (.user bob))] log w ∧
    (∃ tokens log' w', (login smallPlatform smallService (.utf8 " Bob@go42.dev")
      (.utf8 "battery staple")).Runs (calm smallPlatform) 1 log w (.returned tokens) log' w') ∧
    ∀ o log' w', (login smallPlatform smallService (.utf8 "bob@go42.dev")
      (.utf8 "battery staple ")).Runs (calm smallPlatform) 1 log w o log' w' →
      ¬∃ tokens, o = .returned tokens := by
  obtain ⟨⟨o, log, w⟩, hsignUp, rfl, hlogin⟩ := bob_run
  obtain ⟨⟨o', log', w'⟩, hlogin⟩ := Option.isSome_iff_exists.mp hlogin
  have hhistory : History smallPlatform smallService emptyWorld
      [(bobSignUp, .returned (.user bob))] log w :=
    .call .start rfl (Prog.runs_of_follow hsignUp)
  have haccounts : accounts smallPlatform [(bobSignUp, .returned (.user bob))] =
      Function.update (fun _ => none) (smallUUID '2')
        (some ⟨"bob@go42.dev", .utf8 "battery staple", false⟩) := by
    have hcreate : Account.create smallPlatform (.utf8 "bob@go42.dev") (.utf8 "battery staple") =
        some ⟨"bob@go42.dev", .utf8 "battery staple", false⟩ := by decide +kernel
    simp only [accounts, List.foldl_cons, List.foldl_nil, bobSignUp, Accounts.after, hcreate, bob, newUser]
  have hiff := (login_iff_accounts (S := smallService)
    (fun hash p q _ _ hp hq => (of_decide_eq_true hq).trans (of_decide_eq_true hp).symm)
    (fun a b => decide_eq_true_iff) (by decide +kernel) rfl (by decide) rfl rfl hhistory).1
  refine ⟨log, w, hhistory, ?_, ?_⟩
  · have hruns := Prog.runs_of_follow hlogin
    obtain ⟨tokens, rfl⟩ := (hiff _ _ _ _ _ _ hruns).mpr ⟨smallUUID '2', _,
      by rw [haccounts, Function.update_self], rfl, by decide +kernel, rfl⟩
    exact ⟨tokens, log', w', hruns⟩
  · intro o log' w' hruns haccept
    obtain ⟨uuid, a, ha, -, -, hpassword⟩ := (hiff _ _ _ _ _ _ hruns).mp haccept
    rw [haccounts] at ha
    by_cases heq : uuid = smallUUID '2'
    · rw [heq, Function.update_self] at ha
      cases ha
      exact absurd hpassword (by decide)
    · rw [Function.update_of_ne heq] at ha
      cases ha

end Go42.Auth
