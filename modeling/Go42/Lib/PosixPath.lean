-- SUMMARY: POSIX paths: resolving and relating paths, and that a relative path leads back to the path it was made for.
import Mathlib.Algebra.Ring.Nat
import Mathlib.Data.List.Basic
import Mathlib.Data.List.Induction

/-!
# POSIX paths

An absolute path is the list of its names. A path in a text is followed name by name from
a directory: empty names and `.` stay, and `..` goes up.
-/

namespace Go42.Posix

/-- The name of a file or directory in a path. -/
abbrev Name := List Char

def dot : Name := ['.']
def dotdot : Name := ['.', '.']

/-- A name that a directory can list. -/
structure Proper (name : Name) : Prop where
  ne_nil : name ≠ []
  ne_dot : name ≠ dot
  ne_dotdot : name ≠ dotdot
  no_slash : '/' ∉ name

def split (path : List Char) : List Name := path.splitOn '/'

def join (names : List Name) : List Char := ['/'].intercalate names

def push (dir : List Name) (name : Name) : List Name :=
  if name = [] ∨ name = dot then dir
  else if name = dotdot then dir.dropLast
  else dir ++ [name]

/-- Where a path leads from a directory. -/
def follow (dir : List Name) (path : List Char) : List Name := (split path).foldl push dir

/-- `path.resolve(dir, path)` for an absolute `dir`. -/
def resolve (dir : List Name) (path : List Char) : List Name :=
  follow (if path.head? = some '/' then [] else dir) path

/-- `path.dirname` of a path that names a file. -/
def dirname (path : List Char) : List Char :=
  match (split path).dropLast with
  | [] => dot
  | names => join names

/-- The names of `target` after those it shares with `start`. -/
def beyond : List Name → List Name → List Name
  | a :: as, b :: bs => if a = b then beyond as bs else b :: bs
  | _, bs => bs

/-- The names of `start` after those it shares with `target`. -/
def above : List Name → List Name → List Name
  | a :: as, b :: bs => if a = b then above as bs else a :: as
  | as, _ => as

/-- `path.relative(start, target)`. -/
def relative (start target : List Name) : List Char :=
  join (List.replicate (above start target).length dotdot ++ beyond start target)

/-! ## Following names -/

theorem push_proper {name : Name} (h : Proper name) (dir : List Name) : push dir name = dir ++ [name] := by
  rw [push, if_neg (by simp [h.ne_nil, h.ne_dot]), if_neg h.ne_dotdot]

theorem foldl_push_proper {names : List Name} (h : ∀ name ∈ names, Proper name) (dir : List Name) :
    names.foldl push dir = dir ++ names := by
  induction names generalizing dir with
  | nil => simp
  | cons name names ih =>
      obtain ⟨hname, hnames⟩ := List.forall_mem_cons.mp h
      rw [List.foldl_cons, push_proper hname, ih hnames, List.append_assoc, List.singleton_append]

theorem foldl_push_dotdot (dir up : List Name) :
    (List.replicate up.length dotdot).foldl push (dir ++ up) = dir := by
  induction up using List.reverseRecOn with
  | nil => simp
  | append_singleton up name ih =>
      rw [List.length_append, List.length_singleton, List.replicate_succ, List.foldl_cons]
      have hpush : push (dir ++ (up ++ [name])) dotdot = dir ++ up := by
        rw [push, if_neg (by decide), if_pos rfl, ← List.append_assoc, List.dropLast_concat]
      rw [hpush, ih]

theorem shared (start target : List Name) :
    ∃ common, start = common ++ above start target ∧ target = common ++ beyond start target := by
  induction start generalizing target with
  | nil => exact ⟨[], by simp [above], by simp [beyond]⟩
  | cons a as ih =>
      cases target with
      | nil => exact ⟨[], by simp [above], by simp [beyond]⟩
      | cons b bs =>
          by_cases hab : a = b
          · obtain ⟨common, hstart, htarget⟩ := ih bs
            refine ⟨a :: common, ?_, ?_⟩
            · rw [above, if_pos hab, List.cons_append, ← hstart]
            · rw [beyond, if_pos hab, List.cons_append, ← htarget, hab]
          · exact ⟨[], by simp [above, hab], by simp [beyond, hab]⟩

theorem above_append (dir start target : List Name) : above (dir ++ start) (dir ++ target) = above start target := by
  induction dir with
  | nil => rfl
  | cons name dir ih => rw [List.cons_append, List.cons_append, above, if_pos rfl, ih]

theorem beyond_append (dir start target : List Name) :
    beyond (dir ++ start) (dir ++ target) = beyond start target := by
  induction dir with
  | nil => rfl
  | cons name dir ih => rw [List.cons_append, List.cons_append, beyond, if_pos rfl, ih]

/-! ## Texts -/

theorem join_cons_of_ne_nil (name : Name) {names : List Name} (h : names ≠ []) :
    join (name :: names) = name ++ '/' :: join names := by
  cases names with
  | nil => exact absurd rfl h
  | cons name' names => simp [join, List.intercalate, List.intersperse]

theorem mem_join {names : List Name} {name : Name} (h : name ∈ names) {c : Char} (hc : c ∈ name) :
    c ∈ join names := by
  induction names with
  | nil => exact nomatch h
  | cons a names ih =>
      by_cases hnil : names = []
      · subst hnil
        rw [List.mem_singleton.mp h] at hc
        simpa [join] using hc
      · rw [join_cons_of_ne_nil a hnil]
        rcases List.mem_cons.mp h with rfl | h
        · exact List.mem_append_left _ hc
        · exact List.mem_append_right _ (List.mem_cons_of_mem _ (ih h))

theorem of_mem_join {names : List Name} {c : Char} (hc : c ∈ join names) : c = '/' ∨ ∃ name ∈ names, c ∈ name := by
  induction names with
  | nil => exact nomatch hc
  | cons a names ih =>
      by_cases hnil : names = []
      · subst hnil
        exact .inr ⟨a, List.mem_singleton_self a, by simpa [join] using hc⟩
      · rw [join_cons_of_ne_nil a hnil] at hc
        rcases List.mem_append.mp hc with hc | hc
        · exact .inr ⟨a, List.mem_cons_self, hc⟩
        · rcases List.mem_cons.mp hc with hc | hc
          · exact .inl hc
          · exact (ih hc).imp_right fun ⟨name, hname, hc⟩ => ⟨name, List.mem_cons_of_mem _ hname, hc⟩

/-- The text of names that more names follow. -/
def lead (names : List Name) : List Char := names.flatMap fun name => name ++ ['/']

theorem join_append {names rest : List Name} (h : rest ≠ []) : join (names ++ rest) = lead names ++ join rest := by
  induction names with
  | nil => rfl
  | cons name names ih =>
      rw [List.cons_append, join_cons_of_ne_nil name (List.append_ne_nil_of_right_ne_nil names h), ih]
      simp [lead]

/-- A name and a slash at the front of a path are followed first. -/
theorem follow_cons {name : Name} (h : '/' ∉ name) (dir : List Name) (path : List Char) :
    follow dir (name ++ '/' :: path) = follow (push dir name) path := by
  rw [follow, split, List.splitOn_append_cons_self_of_not_mem h]
  rfl

theorem follow_lead {names : List Name} (h : ∀ name ∈ names, '/' ∉ name) (dir : List Name) (path : List Char) :
    follow dir (lead names ++ path) = follow (names.foldl push dir) path := by
  induction names generalizing dir with
  | nil => rfl
  | cons name names ih =>
      obtain ⟨hname, hnames⟩ := List.forall_mem_cons.mp h
      have htext : lead (name :: names) ++ path = name ++ '/' :: (lead names ++ path) := by simp [lead]
      rw [htext, follow_cons hname, ih hnames, List.foldl_cons]

theorem follow_join {names : List Name} (h : ∀ name ∈ names, '/' ∉ name) (hne : names ≠ []) (dir : List Name) :
    follow dir (join names) = names.foldl push dir := by
  rw [follow, split, join, List.splitOn_intercalate '/' h hne]

/-- The characters of a path, one for each name in addition. -/
def size (names : List Name) : ℕ := (names.map fun name => name.length + 1).sum

theorem size_append (a b : List Name) : size (a ++ b) = size a + size b := by
  simp [size]

theorem size_push_le (dir : List Name) (name : Name) : size (push dir name) ≤ size dir + (name.length + 1) := by
  unfold push
  split
  case isTrue => exact Nat.le_add_right _ _
  case isFalse =>
    split
    case isTrue =>
      refine Nat.le_trans ?_ (Nat.le_add_right _ _)
      rcases List.eq_nil_or_concat dir with rfl | ⟨front, last, rfl⟩
      · exact Nat.le_refl _
      · rw [List.concat_eq_append, List.dropLast_concat, size_append]
        exact Nat.le_add_right _ _
    case isFalse => exact Nat.le_of_eq (size_append dir [name])

theorem size_foldl_push_le (names dir : List Name) : size (names.foldl push dir) ≤ size dir + size names := by
  induction names generalizing dir with
  | nil => exact Nat.le_refl _
  | cons name names ih =>
      have hpush := size_push_le dir name
      have hrest := ih (push dir name)
      have hcons : size (name :: names) = name.length + 1 + size names := by simp [size]
      rw [List.foldl_cons]
      omega

theorem size_join {names : List Name} (h : names ≠ []) : size names = (join names).length + 1 := by
  induction names with
  | nil => exact absurd rfl h
  | cons name names ih =>
      have hcons : size (name :: names) = name.length + 1 + size names := by simp [size]
      by_cases hnil : names = []
      · subst hnil
        simp [size, join]
      · rw [hcons, join_cons_of_ne_nil name hnil, ih hnil, List.length_append, List.length_cons]
        omega

/-- Following a path adds at most the characters of the path and a slash. -/
theorem size_follow_le (dir : List Name) (path : List Char) :
    size (follow dir path) ≤ size dir + (path.length + 1) := by
  have hjoin : join (split path) = path := List.intercalate_splitOn '/'
  have hne : split path ≠ [] := List.splitOn_ne_nil _ _
  have hsize : size (split path) = path.length + 1 := by rw [size_join hne, hjoin]
  rw [← hsize]
  exact size_foldl_push_le _ _

/-! ## Paths of proper names -/

theorem split_join {names : List Name} (h : ∀ name ∈ names, Proper name) (hne : names ≠ []) :
    split (join names) = names :=
  List.splitOn_intercalate '/' (fun name hname => (h name hname).no_slash) hne

theorem resolve_join {names : List Name} (h : ∀ name ∈ names, Proper name) (hne : names ≠ []) (dir : List Name) :
    resolve dir (join names) = dir ++ names := by
  have hhead : (join names).head? ≠ some '/' := by
    cases names with
    | nil => exact absurd rfl hne
    | cons name names =>
        obtain ⟨hname, -⟩ := List.forall_mem_cons.mp h
        cases name with
        | nil => exact absurd rfl hname.ne_nil
        | cons c name =>
            have hc : c ≠ '/' := fun hc => hname.no_slash (hc ▸ List.mem_cons_self)
            by_cases hnil : names = []
            · subst hnil
              simpa [join] using hc
            · rw [join_cons_of_ne_nil _ hnil]
              simpa using hc
  rw [resolve, if_neg hhead, follow_join (fun name hname => (h name hname).no_slash) hne, foldl_push_proper h]

theorem resolve_dirname {names : List Name} (h : ∀ name ∈ names, Proper name) (hne : names ≠ [])
    (dir : List Name) : resolve dir (dirname (join names)) = dir ++ names.dropLast := by
  have hdir : ∀ name ∈ names.dropLast, Proper name := fun name hname => h name (List.dropLast_subset _ hname)
  rw [dirname, split_join h hne]
  cases hlast : names.dropLast with
  | nil => simp [resolve, follow, split, push, dot, List.splitOn_eq_singleton]
  | cons name rest =>
      rw [hlast] at hdir
      exact resolve_join hdir (List.cons_ne_nil _ _) dir

end Go42.Posix
