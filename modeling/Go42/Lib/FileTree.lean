-- SUMMARY: File trees, the calls that remove, create and write in them with their faults, and what a directory holds once it was written anew.
import Go42.Lib.System
import Mathlib.Data.List.Infix

/-!
# File trees

A disk maps paths to what is there. The calls are those a build script makes: remove a tree,
create a directory with all above it, and write a file. A call may fault, and then it may
have done a part of its work.
-/

namespace Go42.FileTree

variable {Name Text : Type}

inductive Entry (Text : Type) where
  | file (text : Text)
  | directory
deriving DecidableEq, Repr

/-- What is under each path, from the root on. -/
abbrev Disk (Name Text : Type) := List Name → Option (Entry Text)

def isFile : Option (Entry Text) → Bool
  | some (.file _) => true
  | _ => false

def isDirectory : Option (Entry Text) → Bool
  | some .directory => true
  | _ => false

theorem isFile_iff {entry : Option (Entry Text)} :
    isFile entry = true ↔ ∃ text, entry = some (.file text) := by
  cases entry with
  | none => simp [isFile]
  | some entry => cases entry <;> simp [isFile]

theorem isDirectory_iff {entry : Option (Entry Text)} :
    isDirectory entry = true ↔ entry = some .directory := by
  cases entry with
  | none => simp [isDirectory]
  | some entry => cases entry <;> simp [isDirectory]

namespace Disk

variable [DecidableEq Name]

/-- `rmSync` with `recursive` and `force`. -/
def remove (disk : Disk Name Text) (p : List Name) : Disk Name Text := fun q =>
  if p.isPrefixOf q then none else disk q

/-- `mkdirSync` with `recursive`: every directory down to `p`. -/
def makeDirectory (disk : Disk Name Text) (p : List Name) : Disk Name Text := fun q =>
  if q.isPrefixOf p then some .directory else disk q

def writeFile (disk : Disk Name Text) (p : List Name) (text : Text) : Disk Name Text := fun q =>
  if q = p then some (.file text) else disk q

/-- A file is in the way of a directory. -/
def blocked (disk : Disk Name Text) (p : List Name) : Bool := p.inits.any fun q => isFile (disk q)

/-- A file can be written where its directory is and no directory is. -/
def writable (disk : Disk Name Text) (p : List Name) : Bool :=
  isDirectory (disk p.dropLast) && !isDirectory (disk p)

/-- What a fault leaves: anything below the path, and some of the directories above it. -/
def damage (disk : Disk Name Text) (p : List Name) (below : Disk Name Text) (made : ℕ) :
    Disk Name Text := fun q =>
  if p.isPrefixOf q then below q
  else if q.isPrefixOf (p.take made) && (disk q).isNone then some .directory
  else disk q

end Disk

/-! ## Calls -/

inductive Cmd (Name Text : Type) where
  | remove (p : List Name)
  | makeDirectory (p : List Name)
  | writeFile (p : List Name) (text : Text)

def Cmd.path : Cmd Name Text → List Name
  | .remove p | .makeDirectory p | .writeFile p _ => p

abbrev Cmd.Res (_ : Cmd Name Text) : Type := Unit

inductive Choice (Name Text : Type) where
  | run
  | fault (err : GoError) (below : Disk Name Text) (made : ℕ)

def errExists : GoError := .leaf "EEXIST: file already exists"
def errNoDirectory : GoError := .leaf "ENOENT: no such file or directory"

def exec [DecidableEq Name] : Machine (Cmd Name Text) Cmd.Res (Choice Name Text) Unit (Disk Name Text) :=
  fun _ _ c ch disk =>
    match ch with
    | .fault err below made => some (.failed err, (), disk.damage c.path below made)
    | .run =>
      match c with
      | .remove p => some (.returned (), (), disk.remove p)
      | .makeDirectory p =>
        if disk.blocked p then some (.failed errExists, (), disk)
        else some (.returned (), (), disk.makeDirectory p)
      | .writeFile p text =>
        if disk.writable p then some (.returned (), (), disk.writeFile p text)
        else some (.failed errNoDirectory, (), disk)

/-! ## Outside a directory -/

/-- Nothing changed but what is at or below `base`, and the directories it is in. -/
def Outside (base : List Name) (disk disk' : Disk Name Text) : Prop :=
  ∀ p, ¬ base <+: p → ¬ p <+: base → disk' p = disk p

section Outside

variable {base : List Name} {disk disk' disk'' : Disk Name Text}

theorem Outside.refl (base : List Name) (disk : Disk Name Text) : Outside base disk disk :=
  fun _ _ _ => rfl

theorem Outside.trans (h : Outside base disk disk') (h' : Outside base disk' disk'') :
    Outside base disk disk'' :=
  fun p hbelow habove => (h' p hbelow habove).trans (h p hbelow habove)

/-- A path above one that is below `base` is on the way to `base`, or below it. -/
theorem prefix_cases {p q : List Name} (hp : base <+: p) (hq : q <+: p) : base <+: q ∨ q <+: base :=
  List.prefix_or_prefix_of_prefix hp hq

/-- A call below `base`, whatever becomes of it. -/
theorem exec_outside [DecidableEq Name] {log : Log (Cmd Name Text) Cmd.Res Unit} {T : ℕ} {c : Cmd Name Text}
    {ch : Choice Name Text} {o : Outcome Unit} {e : Unit} (hc : base <+: c.path)
    (h : exec log T c ch disk = some (o, e, disk')) : Outside base disk disk' := by
  intro p hbelow habove
  have hnot : ¬ c.path <+: p := fun hle => hbelow (hc.trans hle)
  have hnotAbove : ¬ p <+: c.path := fun hle => (prefix_cases hc hle).elim hbelow habove
  cases ch with
  | fault err below made =>
      cases h
      have hnotMade : ¬ p <+: c.path.take made := fun hle => hnotAbove (hle.trans (List.take_prefix _ _))
      simp [Disk.damage, hnot, hnotMade]
  | run =>
      cases c with
      | remove q =>
          cases h
          have hnot' : ¬ q <+: p := hnot
          simp [Disk.remove, hnot']
      | makeDirectory q =>
          have hnot' : ¬ p <+: q := hnotAbove
          simp only [exec] at h
          split at h <;> cases h
          · rfl
          · simp [Disk.makeDirectory, hnot']
      | writeFile q text =>
          simp only [exec] at h
          split at h <;> cases h
          · have hne : p ≠ q := fun heq => hnot (heq ▸ List.prefix_rfl)
            simp [Disk.writeFile, hne]
          · rfl

end Outside

/-! ## Below a directory -/

/-- Below `base` there are these files, these directories and those above them, and nothing
else. -/
structure Holds (base : List Name) (files : List (List Name × Text)) (dirs : List (List Name))
    (disk : Disk Name Text) : Prop where
  file : ∀ q text, disk (base ++ q) = some (.file text) ↔ (q, text) ∈ files
  directory : ∀ q, disk (base ++ q) = some .directory ↔ ∃ d ∈ dirs, q <+: d

section Holds

variable {base : List Name} {files : List (List Name × Text)} {dirs : List (List Name)}
variable {disk : Disk Name Text} {p : List Name} {text : Text}

theorem holds_remove [DecidableEq Name] (base : List Name) (disk : Disk Name Text) :
    Holds base ([] : List (List Name × Text)) [] (disk.remove base) where
  file q text := by simp [Disk.remove]
  directory q := by simp [Disk.remove]

theorem blocked_eq_false (h : disk.blocked p = false) {q : List Name} (hq : q <+: p) (text : Text) :
    disk q ≠ some (.file text) := by
  intro hfile
  have hnot : isFile (disk q) = false := by
    simp only [Disk.blocked, List.any_eq_false] at h
    simpa using h q ((List.mem_inits q p).mpr hq)
  rw [isFile_iff.mpr ⟨text, hfile⟩] at hnot
  cases hnot

theorem Holds.makeDirectory [DecidableEq Name] (h : Holds base files dirs disk) (hfree : disk.blocked (base ++ p) = false) :
    Holds base files (p :: dirs) (disk.makeDirectory (base ++ p)) where
  file q text := by
    rw [← h.file]
    unfold Disk.makeDirectory
    split
    · rename_i hle
      have hle' : base ++ q <+: base ++ p := List.isPrefixOf_iff_prefix.mp hle
      simpa using blocked_eq_false hfree hle' text
    · rfl
  directory q := by
    rw [List.exists_mem_cons_iff, ← h.directory]
    unfold Disk.makeDirectory
    split
    · rename_i hle
      have hle' : q <+: p := (List.prefix_append_right_inj base).mp (List.isPrefixOf_iff_prefix.mp hle)
      simp [hle']
    · rename_i hle
      have hle' : ¬ q <+: p := fun hq =>
        hle (List.isPrefixOf_iff_prefix.mpr ((List.prefix_append_right_inj base).mpr hq))
      simp [hle']

/-- A new file is under a path of its own. -/
theorem Holds.writeFile [DecidableEq Name] (h : Holds base files dirs disk) (hnew : p ∉ files.map Prod.fst)
    (hwritable : disk.writable (base ++ p) = true) :
    Holds base ((p, text) :: files) dirs (disk.writeFile (base ++ p) text) where
  file q text' := by
    by_cases hq : q = p
    · subst hq
      have hother : (q, text') ∉ files := fun hmem => hnew (List.mem_map_of_mem hmem)
      simp [Disk.writeFile, hother, eq_comm]
    · simp [Disk.writeFile, hq, h.file]
  directory q := by
    by_cases hq : q = p
    · subst hq
      have hnone : disk (base ++ q) ≠ some .directory := by
        intro hdir
        simp [Disk.writable, isDirectory_iff.mpr hdir] at hwritable
      simpa [Disk.writeFile] using fun d hd hle => hnone ((h.directory q).mpr ⟨d, hd, hle⟩)
    · simp [Disk.writeFile, hq, h.directory]

/-- Below `base` there are exactly these files, and the directories they are in. -/
structure Exactly (base : List Name) (files : List (List Name × Text)) (disk : Disk Name Text) :
    Prop where
  file : ∀ q text, disk (base ++ q) = some (.file text) ↔ (q, text) ∈ files
  directory : ∀ q, disk (base ++ q) = some .directory ↔ ∃ f ∈ files, q <+: f.1 ∧ q ≠ f.1

theorem prefix_dropLast_iff {q : List Name} (hp : p ≠ []) : q <+: p.dropLast ↔ q <+: p ∧ q ≠ p := by
  obtain ⟨init, last, rfl⟩ := (List.eq_nil_or_concat' p).resolve_left hp
  rw [List.dropLast_concat, List.prefix_concat_iff]
  constructor
  · intro h
    refine ⟨.inr h, fun heq => ?_⟩
    have hlen := h.length_le
    rw [heq, List.length_append] at hlen
    exact absurd hlen (by simp)
  · rintro ⟨heq | h, hne⟩
    · exact absurd heq hne
    · exact h

/-- Every directory that was made is on the way to a file. -/
theorem Holds.exactly (h : Holds base files dirs disk)
    (hfiles : ∀ f ∈ files, f.1 ≠ [] ∧ f.1.dropLast ∈ dirs)
    (hdirs : ∀ d ∈ dirs, ∃ f ∈ files, d <+: f.1.dropLast) : Exactly base files disk where
  file := h.file
  directory q := by
    rw [h.directory]
    constructor
    · rintro ⟨d, hd, hle⟩
      obtain ⟨f, hf, hdle⟩ := hdirs d hd
      exact ⟨f, hf, (prefix_dropLast_iff (hfiles f hf).1).mp (hle.trans hdle)⟩
    · rintro ⟨f, hf, hle⟩
      exact ⟨_, (hfiles f hf).2, (prefix_dropLast_iff (hfiles f hf).1).mpr hle⟩

theorem Holds.perm {files' : List (List Name × Text)} {dirs' : List (List Name)}
    (h : Holds base files dirs disk) (hfiles : files.Perm files') (hdirs : dirs.Perm dirs') :
    Holds base files' dirs' disk where
  file q text := (h.file q text).trans hfiles.mem_iff
  directory q := by simp only [h.directory, hdirs.mem_iff]

end Holds

/-! ## Programs that write a directory anew -/

/-- What a program leaves: nothing changed outside, and when it returned, the directory holds
what was written. -/
def Leaves (base : List Name) (disk : Disk Name Text) (files : List (List Name × Text))
    (dirs : List (List Name)) {α : Type} (o : Outcome α) (disk' : Disk Name Text) : Prop :=
  Outside base disk disk' ∧ (o.isReturned = true → Holds base files dirs disk')

section Programs

variable [DecidableEq Name]
variable {base : List Name} {files files' : List (List Name × Text)} {dirs dirs' : List (List Name)}
variable {disk₀ disk : Disk Name Text} {T : ℕ} {α β : Type}
variable {log : Log (Cmd Name Text) Cmd.Res Unit}

/-- The directory is being written: what is known between two calls. -/
def Writing (base : List Name) (disk₀ : Disk Name Text) (files : List (List Name × Text))
    (dirs : List (List Name)) (disk : Disk Name Text) : Prop :=
  Outside base disk₀ disk ∧ Holds base files dirs disk

/-- A program takes one state of the directory to another. -/
def Takes (base : List Name) (disk₀ : Disk Name Text) (files : List (List Name × Text))
    (dirs : List (List Name)) (p : Prog (Cmd Name Text) Cmd.Res α)
    (files' : List (List Name × Text)) (dirs' : List (List Name)) : Prop :=
  ∀ T log disk, Writing base disk₀ files dirs disk →
    p.wp exec T (Leaves base disk₀ files' dirs') log disk

theorem takes_pure (a : α) : Takes base disk₀ files dirs (pure a) files dirs :=
  fun _ _ _ h => ⟨h.1, fun _ => h.2⟩

theorem wp_seq {p : Prog (Cmd Name Text) Cmd.Res β} {f : β → Prog (Cmd Name Text) Cmd.Res α}
    (hp : p.wp exec T (Leaves base disk₀ files dirs) log disk)
    (hf : ∀ b, Takes base disk₀ files dirs (f b) files' dirs') :
    (p >>= f).wp exec T (Leaves base disk₀ files' dirs') log disk := by
  apply Prog.wp.bind
  refine hp.mono fun o disk' ⟨houtside, hholds⟩ log' => ?_
  cases o with
  | returned b => exact hf b _ _ _ ⟨houtside, hholds rfl⟩
  | failed err => exact ⟨houtside, fun h => nomatch h⟩
  | panicked v => exact ⟨houtside, fun h => nomatch h⟩

theorem Takes.seq {p : Prog (Cmd Name Text) Cmd.Res β} {f : β → Prog (Cmd Name Text) Cmd.Res α}
    {files₁ : List (List Name × Text)} {dirs₁ : List (List Name)}
    (hp : Takes base disk₀ files dirs p files₁ dirs₁)
    (hf : ∀ b, Takes base disk₀ files₁ dirs₁ (f b) files' dirs') :
    Takes base disk₀ files dirs (p >>= f) files' dirs' :=
  fun T log disk h => wp_seq (hp T log disk h) hf

/-- The first call clears the directory, whatever was there. -/
theorem wp_remove : (Prog.call (.remove base) : Prog (Cmd Name Text) Cmd.Res Unit).wp exec T
    (Leaves base disk ([] : List (List Name × Text)) []) log disk := by
  intro ch o e disk' hexec
  refine ⟨exec_outside List.prefix_rfl hexec, fun hreturned => ?_⟩
  cases ch with
  | fault err below made => cases hexec; cases hreturned
  | run => cases hexec; exact holds_remove base disk

theorem takes_makeDirectory (p : List Name) :
    Takes base disk₀ files dirs (Prog.call (.makeDirectory (base ++ p))) files (p :: dirs) := by
  intro T log disk ⟨houtside, hholds⟩ ch o e disk' hexec
  have hbelow : Outside base disk disk' := by
    apply exec_outside _ hexec
    exact List.prefix_append base p
  refine ⟨houtside.trans hbelow, fun hreturned => ?_⟩
  cases ch with
  | fault err below made => cases hexec; cases hreturned
  | run =>
      simp only [exec] at hexec
      split at hexec
      · cases hexec; cases hreturned
      · rename_i hfree
        cases hexec
        exact hholds.makeDirectory (by simpa using hfree)

theorem takes_writeFile {p : List Name} (text : Text) (hnew : p ∉ files.map Prod.fst) :
    Takes base disk₀ files dirs (Prog.call (.writeFile (base ++ p) text)) ((p, text) :: files) dirs := by
  intro T log disk ⟨houtside, hholds⟩ ch o e disk' hexec
  have hbelow : Outside base disk disk' := by
    apply exec_outside _ hexec
    exact List.prefix_append base p
  refine ⟨houtside.trans hbelow, fun hreturned => ?_⟩
  cases ch with
  | fault err below made => cases hexec; cases hreturned
  | run =>
      simp only [exec] at hexec
      split at hexec
      · rename_i hwritable
        cases hexec
        exact hholds.writeFile hnew hwritable
      · cases hexec; cases hreturned

/-- A loop that writes the files of `more` one after the other, from the last invariant on. -/
theorem takes_forM (disk₀ : Disk Name Text) {l : List β} (dirs : List (List Name)) (f : β → Prog (Cmd Name Text) Cmd.Res Unit)
    (more : β → List (List Name × Text)) (made : β → List (List Name))
    (hdistinct : (l.flatMap more ++ files).map Prod.fst |>.Nodup)
    (hf : ∀ b ∈ l, ∀ files dirs, (more b ++ files).map Prod.fst |>.Nodup →
      Takes base disk₀ files dirs (f b) (more b ++ files) (made b ++ dirs)) :
    ∃ files' dirs', Takes base disk₀ files dirs (l.forM f) files' dirs' ∧
      files'.Perm (l.flatMap more ++ files) ∧ dirs'.Perm (l.flatMap made ++ dirs) := by
  induction l generalizing files dirs with
  | nil => exact ⟨files, dirs, takes_pure (), List.Perm.refl _, List.Perm.refl _⟩
  | cons b l ih =>
      have hperm : (l.flatMap more ++ (more b ++ files)).Perm ((b :: l).flatMap more ++ files) := by
        rw [List.flatMap_cons, ← List.append_assoc]
        exact List.perm_append_comm.append_right files
      have hrest := (hperm.map Prod.fst).nodup_iff.mpr hdistinct
      have hb : ((more b ++ files).map Prod.fst).Nodup := by
        rw [List.map_append] at hrest
        exact (List.nodup_append.mp hrest).2.1
      obtain ⟨files', dirs', htakes, hfiles, hdirs⟩ :=
        ih (made b ++ dirs) hrest fun b' hb' => hf b' (List.mem_cons_of_mem _ hb')
      refine ⟨files', dirs', ?_, hfiles.trans hperm, hdirs.trans ?_⟩
      · exact Takes.seq (hf b List.mem_cons_self files dirs hb) fun _ => htakes
      · rw [List.flatMap_cons, ← List.append_assoc]
        exact List.perm_append_comm.append_right dirs

end Programs

end Go42.FileTree
