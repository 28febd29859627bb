-- SUMMARY: The outbox table row by row: what a list of writes makes of the row of one id.
import Go42.Outbox.Machine

/-!
# The rows of the outbox

A write is about one id. What a list of writes makes of the row of that id depends on nothing
but that row, so writes about different ids do not get in each other's way.
-/

namespace Go42.Outbox

/-- The row with the given id. -/
def Tables.row? (t : Tables) (id : UUID) : Option OutboxMessage := t.rows.find? fun m => m.id = id

def Write.id : Write → UUID
  | .insert m => m.id
  | .set m => m.id
  | .delete id => id

/-- What a write makes of the row with its id. -/
def Write.act : Write → Option OutboxMessage → Option OutboxMessage
  | .insert m, none => some m
  | .insert _, some x => some x
  | .set m, x => x.map fun _ => m
  | .delete _, _ => none

/-- What writes make of the row `x` of the given id. -/
def actAll (ws : List Write) (id : UUID) (x : Option OutboxMessage) : Option OutboxMessage :=
  ws.foldl (fun x w => if w.id = id then w.act x else x) x

variable {t : Tables} {id : UUID} {m : OutboxMessage}

/-! ## The row of an id -/

theorem row?_eq_some : t.row? id = some m ↔ m ∈ t.rows ∧ m.id = id := by
  constructor
  · intro h
    exact ⟨List.mem_of_find?_eq_some h, by simpa using List.find?_some h⟩
  · rintro ⟨hm, rfl⟩
    cases h : t.row? m.id with
    | none => exact absurd (List.find?_eq_none.mp h m hm) (by simp)
    | some m' =>
        have hm' := List.mem_of_find?_eq_some h
        have hid : m'.id = m.id := by simpa using List.find?_some h
        rw [List.inj_on_of_nodup_map t.ids_nodup hm' hm hid]

theorem row?_eq_none : t.row? id = none ↔ id ∉ t.rows.map OutboxMessage.id := by
  simp [Tables.row?]

theorem row?_of_mem (h : m ∈ t.rows) : t.row? m.id = some m := row?_eq_some.mpr ⟨h, rfl⟩

theorem mem_of_row? (h : t.row? id = some m) : m ∈ t.rows := (row?_eq_some.mp h).1

theorem id_of_row? (h : t.row? id = some m) : m.id = id := (row?_eq_some.mp h).2

/-! ## One write -/

theorem row?_insert : (t.applyWrite (.insert m)).row? id =
    if m.id = id then (Write.insert m).act (t.row? id) else t.row? id := by
  unfold Tables.applyWrite
  dsimp only
  split
  case isTrue h =>
    -- The key is taken.
    split
    case isTrue hid =>
      subst hid
      cases hrow : t.row? m.id with
      | none => exact absurd h (row?_eq_none.mp hrow)
      | some x => rfl
    case isFalse => rfl
  case isFalse h =>
    by_cases hid : m.id = id
    · subst hid
      have hfound := @List.find?_cons_of_pos _ (fun x => decide (x.id = m.id)) m t.rows (by simp)
      rw [if_pos rfl, row?_eq_none.mpr h]
      exact hfound
    · rw [if_neg hid]
      exact List.find?_cons_of_neg (by simpa using hid)

theorem row?_set : (t.applyWrite (.set m)).row? id =
    if m.id = id then (Write.set m).act (t.row? id) else t.row? id := by
  have hfind : (t.applyWrite (.set m)).row? id = (t.row? id).map m.replace := by
    show (t.rows.map m.replace).find? _ = _
    rw [List.find?_map]
    simp only [Function.comp_def, OutboxMessage.replace_id]
    rfl
  rw [hfind]
  cases hrow : t.row? id with
  | none => split <;> rfl
  | some x =>
      rw [← id_of_row? hrow]
      show some (m.replace x) = if m.id = x.id then some m else some x
      unfold OutboxMessage.replace
      by_cases hid : m.id = x.id
      · rw [if_pos hid.symm, if_pos hid]
      · rw [if_neg (Ne.symm hid), if_neg hid]

theorem row?_delete {id' : UUID} : (t.applyWrite (.delete id')).row? id =
    if id' = id then none else t.row? id := by
  apply Option.ext
  intro x
  rw [row?_eq_some]
  show (x ∈ t.rows.filter (fun m => m.id ≠ id') ∧ x.id = id) ↔ _
  rw [List.mem_filter]
  by_cases hid : id' = id
  · simp [hid]
  · rw [if_neg hid, row?_eq_some]
    constructor
    · exact fun h => ⟨h.1.1, h.2⟩
    · rintro ⟨hx, rfl⟩
      exact ⟨⟨hx, by simpa using Ne.symm hid⟩, rfl⟩

theorem row?_apply (t : Tables) (w : Write) (id : UUID) :
    (apply t w).row? id = if w.id = id then w.act (t.row? id) else t.row? id := by
  cases w with
  | insert m => exact row?_insert
  | set m => exact row?_set
  | delete id' => exact row?_delete

/-! ## Many writes -/

theorem actAll_cons (w : Write) (ws : List Write) (x : Option OutboxMessage) :
    actAll (w :: ws) id x = actAll ws id (if w.id = id then w.act x else x) := rfl

theorem actAll_append (ws ws' : List Write) (x : Option OutboxMessage) :
    actAll (ws ++ ws') id x = actAll ws' id (actAll ws id x) := List.foldl_append

theorem row?_applyAll (ws : List Write) : ∀ t : Tables,
    (applyAll t ws).row? id = actAll ws id (t.row? id) := by
  induction ws with
  | nil => exact fun _ => rfl
  | cons w ws ih =>
      intro t
      rw [applyAll_cons, ih, row?_apply, actAll_cons]

theorem actAll_insert_self : actAll [.insert m] m.id none = some m :=
  if_pos (show (Write.insert m).id = m.id from rfl)

/-- Writes about other ids. -/
theorem actAll_of_ne {ws : List Write} (h : ∀ w ∈ ws, w.id ≠ id) (x : Option OutboxMessage) :
    actAll ws id x = x := by
  induction ws with
  | nil => rfl
  | cons w ws ih =>
      obtain ⟨hw, hws⟩ := List.forall_mem_cons.mp h
      rw [actAll_cons, if_neg hw, ih hws]

theorem actAll_insert_ne (h : m.id ≠ id) (x : Option OutboxMessage) :
    actAll [.insert m] id x = x :=
  actAll_of_ne (fun _ hw => List.mem_singleton.mp hw ▸ h) x

/-- Rows that are set to what becomes of them. -/
theorem actAll_set {f : OutboxMessage → OutboxMessage} (hf : ∀ m, (f m).id = m.id)
    (ms : List OutboxMessage) : ∀ x : Option OutboxMessage,
      actAll (ms.map fun m => .set (f m)) id x = x ∨
        ∃ m ∈ ms, m.id = id ∧ actAll (ms.map fun m => .set (f m)) id x = x.map fun _ => f m := by
  induction ms with
  | nil => exact fun _ => .inl rfl
  | cons m ms ih =>
      intro x
      rw [List.map_cons, actAll_cons]
      by_cases hid : m.id = id
      · have hset : (Write.set (f m)).id = id := (hf m).trans hid
        rw [if_pos hset]
        cases ih (x.map fun _ => f m) with
        | inl hsame => exact .inr ⟨m, List.mem_cons_self, hid, hsame⟩
        | inr hlater =>
            obtain ⟨m', hm', hid', hlater⟩ := hlater
            refine .inr ⟨m', List.mem_cons_of_mem _ hm', hid', ?_⟩
            rw [Write.act, hlater, Option.map_map]
            rfl
      · have hset : (Write.set (f m)).id ≠ id := fun h => hid ((hf m).symm.trans h)
        rw [if_neg hset]
        apply (ih x).imp_right
        exact fun ⟨m', hm', h⟩ => ⟨m', List.mem_cons_of_mem _ hm', h⟩

/-- Rows that are deleted. -/
theorem actAll_delete (ms : List OutboxMessage) : ∀ x : Option OutboxMessage,
    actAll (ms.map fun m => .delete m.id) id x = if id ∈ ms.map OutboxMessage.id then none else x := by
  induction ms with
  | nil => exact fun _ => rfl
  | cons m ms ih =>
      intro x
      rw [List.map_cons, actAll_cons, ih]
      by_cases hid : m.id = id
      · simp [hid, Write.id, Write.act]
      · simp [hid, Ne.symm hid, Write.id]

end Go42.Outbox
