-- SUMMARY: Codes that are read off the front of a text in one way, and how they compose: terminated words, length prefixes, escaping and separated lists.
import Go42.Lib.Base64
import Mathlib.Data.List.Basic

/-!
# Self-delimiting codes

A code of `α` assigns a text to each value. It is self-delimiting when no text can
begin with the codes of two values, and what follows a code is determined too. Then
codes that are written one after the other can be told apart.
-/

namespace Go42.Codes

variable {α β γ : Type} {p : α → Prop} {q : β → Prop}

/-- Among the values that satisfy `p`, a code at the front of a text is read in one way. -/
def SelfDelimiting (p : α → Prop) (code : α → List γ) : Prop :=
  ∀ ⦃a b⦄, p a → p b → ∀ ⦃r s⦄, code a ++ r = code b ++ s → a = b ∧ r = s

theorem SelfDelimiting.eq {code : α → List γ} (h : SelfDelimiting p code) {a b : α} (ha : p a) (hb : p b)
    (heq : code a = code b) : a = b := by
  have happend : code a ++ [] = code b ++ [] := by rw [heq]
  exact (h ha hb happend).1

theorem SelfDelimiting.prod {f : α → List γ} {g : β → List γ} (hf : SelfDelimiting p f)
    (hg : SelfDelimiting q g) : SelfDelimiting (fun x => p x.1 ∧ q x.2) fun x : α × β => f x.1 ++ g x.2 := by
  intro x y hx hy r s h
  simp only [List.append_assoc] at h
  obtain ⟨hfst, hrest⟩ := hf hx.1 hy.1 h
  obtain ⟨hsnd, htail⟩ := hg hx.2 hy.2 hrest
  exact ⟨Prod.ext hfst hsnd, htail⟩

/-- A word that is written after a fixed text. -/
theorem SelfDelimiting.prefixed {f : α → List γ} (h : SelfDelimiting p f) (mark : List γ) :
    SelfDelimiting p fun a => mark ++ f a := by
  intro a b ha hb r s heq
  simp only [List.append_assoc, List.append_cancel_left_eq] at heq
  exact h ha hb heq

/-- A text that a mark ends which does not occur in it. -/
theorem SelfDelimiting.terminated {f : α → List γ} {stop : γ} (hf : ∀ a b, f a = f b → a = b)
    (hstop : ∀ a, p a → stop ∉ f a) : SelfDelimiting p fun a => f a ++ [stop] := by
  intro a b ha hb r s h
  have hmark (r : List γ) (c : List γ) : c ++ [stop] ++ r = c ++ stop :: r := by simp
  rw [hmark, hmark] at h
  rcases List.append_eq_append_iff.mp h with ⟨c, hb', hc⟩ | ⟨c, ha', hc⟩
  case inl =>
    cases c with
    | nil =>
        rw [List.append_nil] at hb'
        exact ⟨hf _ _ hb'.symm, (List.cons.inj hc).2⟩
    | cons x c =>
        cases (List.cons.inj hc).1
        exact absurd (hb' ▸ List.mem_append_right _ List.mem_cons_self) (hstop b hb)
  case inr =>
    cases c with
    | nil =>
        rw [List.append_nil] at ha'
        exact ⟨hf _ _ ha', (List.cons.inj hc).2.symm⟩
    | cons x c =>
        cases (List.cons.inj hc).1
        exact absurd (ha' ▸ List.mem_append_right _ List.mem_cons_self) (hstop a ha)

/-! ## Length prefixes -/

/-- Any text after the code of its length. -/
theorem SelfDelimiting.lengthPrefixed {len : ℕ → List γ} (h : SelfDelimiting (fun _ => True) len) :
    SelfDelimiting (fun _ => True) fun text : List γ => len text.length ++ text := by
  intro a b _ _ r s heq
  simp only [List.append_assoc] at heq
  obtain ⟨hlength, hrest⟩ := h trivial trivial heq
  exact List.append_inj hrest hlength

/-! ## Escaping -/

/-- A letter that has a code stands behind `esc`, any other letter for itself. -/
def escapeLetter (esc : γ) (code : γ → Option γ) (c : γ) : List γ :=
  match code c with
  | some d => [esc, d]
  | none => [c]

theorem escapeLetter_some {esc : γ} {code : γ → Option γ} {c d : γ} (h : code c = some d) :
    escapeLetter esc code c = [esc, d] := by
  rw [escapeLetter, h]

theorem escapeLetter_none {esc : γ} {code : γ → Option γ} {c : γ} (h : code c = none) :
    escapeLetter esc code c = [c] := by
  rw [escapeLetter, h]

/-- Letters can be told apart when `esc` itself has a code. -/
theorem SelfDelimiting.escapeLetter {esc : γ} {code : γ → Option γ} (hesc : (code esc).isSome = true)
    (hinj : ∀ a b d, code a = some d → code b = some d → a = b) :
    SelfDelimiting (fun _ => True) (escapeLetter esc code) := by
  intro a b _ _ r s h
  -- A letter that stands for itself is not `esc`.
  have hplain {c : γ} (hc : code c = none) : c ≠ esc := by
    rintro rfl
    rw [hc] at hesc
    cases hesc
  cases ha : code a with
  | some d =>
      rw [escapeLetter_some ha] at h
      cases hb : code b with
      | some d' =>
          rw [escapeLetter_some hb] at h
          have hcode := List.cons.inj (List.cons.inj h).2
          exact ⟨hinj a b d ha (hcode.1 ▸ hb), hcode.2⟩
      | none =>
          rw [escapeLetter_none hb] at h
          exact absurd (List.cons.inj h).1.symm (hplain hb)
  | none =>
      rw [escapeLetter_none ha] at h
      cases hb : code b with
      | some d' =>
          rw [escapeLetter_some hb] at h
          exact absurd (List.cons.inj h).1 (hplain ha)
      | none =>
          rw [escapeLetter_none hb] at h
          exact List.cons.inj h

/-- No code begins with a letter that is escaped. -/
theorem escapeLetter_head {esc stop : γ} {code : γ → Option γ} (hstop : (code stop).isSome = true)
    (hne : esc ≠ stop) (c : γ) : ∃ d ds, Codes.escapeLetter esc code c = d :: ds ∧ d ≠ stop := by
  cases hc : code c with
  | some d => exact ⟨esc, [d], escapeLetter_some hc, hne⟩
  | none =>
      refine ⟨c, [], escapeLetter_none hc, ?_⟩
      rintro rfl
      rw [hc] at hstop
      cases hstop

/-- A text of any letters, each under a code of its own, up to a mark with which none of these
codes begins. -/
theorem SelfDelimiting.escaped {letter : γ → List γ} {stop : γ}
    (h : SelfDelimiting (fun _ => True) letter) (hstop : ∀ c, ∃ d ds, letter c = d :: ds ∧ d ≠ stop) :
    SelfDelimiting (fun _ => True) fun text : List γ => text.flatMap letter ++ [stop] := by
  intro a
  induction a with
  | nil =>
      intro b _ _ r s heq
      cases b with
      | nil => exact ⟨rfl, by simpa using heq⟩
      | cons c b =>
          obtain ⟨d, ds, hc, hd⟩ := hstop c
          simp [hc] at heq
          exact absurd heq.1.symm hd
  | cons c a ih =>
      intro b _ _ r s heq
      cases b with
      | nil =>
          obtain ⟨d, ds, hc, hd⟩ := hstop c
          simp [hc] at heq
          exact absurd heq.1 hd
      | cons c' b =>
          simp only [List.flatMap_cons, List.append_assoc] at heq
          obtain ⟨rfl, hrest⟩ := h trivial trivial heq
          have hrest' : a.flatMap letter ++ [stop] ++ r = b.flatMap letter ++ [stop] ++ s := by
            simpa only [List.append_assoc] using hrest
          obtain ⟨rfl, rfl⟩ := ih trivial trivial hrest'
          exact ⟨rfl, rfl⟩

/-! ## Lists -/

theorem intercalate_cons_cons (sep : List γ) (x y : List γ) (xs : List (List γ)) :
    sep.intercalate (x :: y :: xs) = x ++ (sep ++ sep.intercalate (y :: xs)) := by
  simp [List.intercalate, List.intersperse]

/-- A list that is not empty, its items apart by `sep`, up to another mark. -/
theorem SelfDelimiting.separated {item : α → List γ} (h : SelfDelimiting p item) {sep stop : γ}
    (hne : sep ≠ stop) : SelfDelimiting (fun as => as ≠ [] ∧ ∀ a ∈ as, p a)
      fun as => [sep].intercalate (as.map item) ++ [stop] := by
  intro as
  induction as with
  | nil => exact fun _ has => absurd rfl has.1
  | cons a as ih =>
      intro bs has hbs r s heq
      cases bs with
      | nil => exact absurd rfl hbs.1
      | cons b bs =>
          have ha : p a := has.2 a List.mem_cons_self
          have hb : p b := hbs.2 b List.mem_cons_self
          cases as with
          | nil =>
              cases bs with
              | nil =>
                  simp only [List.map_cons, List.map_nil, List.intercalate_singleton, List.append_assoc] at heq
                  obtain ⟨rfl, hrest⟩ := h ha hb heq
                  exact ⟨rfl, List.append_cancel_left hrest⟩
              | cons b' bs =>
                  simp only [List.map_cons, List.map_nil, List.intercalate_singleton, intercalate_cons_cons,
                    List.append_assoc] at heq
                  obtain ⟨-, hrest⟩ := h ha hb heq
                  exact absurd (List.cons.inj hrest).1.symm hne
          | cons a' as =>
              cases bs with
              | nil =>
                  simp only [List.map_cons, List.map_nil, List.intercalate_singleton, intercalate_cons_cons,
                    List.append_assoc] at heq
                  obtain ⟨-, hrest⟩ := h ha hb heq
                  exact absurd (List.cons.inj hrest).1 hne
              | cons b' bs =>
                  simp only [List.map_cons, intercalate_cons_cons, List.append_assoc] at heq
                  obtain ⟨rfl, hrest⟩ := h ha hb heq
                  have hrest' : [sep].intercalate ((a' :: as).map item) ++ [stop] ++ r =
                      [sep].intercalate ((b' :: bs).map item) ++ [stop] ++ s := by
                    simpa only [List.map_cons, List.append_assoc] using List.append_cancel_left hrest
                  have htail := ih ⟨List.cons_ne_nil _ _, fun x hx => has.2 x (List.mem_cons_of_mem _ hx)⟩
                    ⟨List.cons_ne_nil _ _, fun x hx => hbs.2 x (List.mem_cons_of_mem _ hx)⟩ hrest'
                  exact ⟨congrArg _ htail.1, htail.2⟩

/-! ## Decimal numbers -/

/-- `%d` of a number that is not negative. -/
def decimal (n : ℕ) : Bytes := (Nat.toDigits 10 n).map Char.toUInt8

theorem toNat_toUInt8 {c : Char} (h : c.toNat < 256) : c.toUInt8.toNat = c.toNat := by
  change c.val.toUInt8.toNat = c.val.toNat
  rw [UInt32.toNat_toUInt8]
  exact Nat.mod_eq_of_lt h

theorem lt_of_isDigit {c : Char} (h : c.isDigit = true) : c.toNat < 58 := by
  simp only [Char.isDigit, ge_iff_le, Bool.and_eq_true, decide_eq_true_eq, UInt32.le_iff_toNat_le] at h
  exact Nat.lt_succ_of_le h.2

theorem lt_of_mem_toDigits {n : ℕ} {c : Char} (h : c ∈ Nat.toDigits 10 n) : c.toNat < 58 :=
  lt_of_isDigit (Nat.isDigit_of_mem_toDigits (by decide) (by decide) h)

theorem toDigits_of_decimal (n : ℕ) :
    (decimal n).map (fun b => Char.ofNat b.toNat) = Nat.toDigits 10 n := by
  rw [decimal, List.map_map]
  refine (List.map_congr_left fun c hc => ?_).trans (List.map_id _)
  have hlt : c.toNat < 256 := Nat.lt_trans (lt_of_mem_toDigits hc) (by decide)
  rw [Function.comp_apply, toNat_toUInt8 hlt, Char.ofNat_toNat, id]

theorem decimal_inj {m n : ℕ} (h : decimal m = decimal n) : m = n := by
  have hdigits : Nat.toDigits 10 m = Nat.toDigits 10 n := by
    rw [← toDigits_of_decimal, h, toDigits_of_decimal]
  rw [← Nat.ofDigitChars_ten_toDigits (n := m), hdigits, Nat.ofDigitChars_ten_toDigits]

/-- A decimal number has no byte from `:` on. -/
theorem lt_of_mem_decimal {n : ℕ} {b : UInt8} (h : b ∈ decimal n) : b.toNat < 58 := by
  obtain ⟨c, hc, rfl⟩ := List.mem_map.mp h
  have hlt := lt_of_mem_toDigits hc
  rw [toNat_toUInt8 (Nat.lt_trans hlt (by decide))]
  exact hlt

end Go42.Codes
