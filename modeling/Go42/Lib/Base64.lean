-- SUMMARY: Go's unpadded base64url codec with strict decoding.
import Mathlib.Data.Nat.Notation
import Mathlib.Tactic.Basic

/-!
# base64.RawURLEncoding.Strict()

Strict decoding rejects characters outside the alphabet, impossible lengths and
trailing bits that are not zero. Carriage returns and line feeds are skipped
before anything is looked at.
-/

namespace Go42

abbrev Bytes := List UInt8

namespace Base64

def encodeDigit (n : ℕ) : UInt8 :=
  if n < 26 then .ofNat (65 + n)
  else if n < 52 then .ofNat (97 + (n - 26))
  else if n < 62 then .ofNat (48 + (n - 52))
  else if n = 62 then 45
  else 95

def decodeDigit (c : UInt8) : Option ℕ :=
  let n := c.toNat
  if 65 ≤ n ∧ n ≤ 90 then some (n - 65)
  else if 97 ≤ n ∧ n ≤ 122 then some (n - 97 + 26)
  else if 48 ≤ n ∧ n ≤ 57 then some (n - 48 + 52)
  else if n = 45 then some 62
  else if n = 95 then some 63
  else none

/-- Three bytes make four digits of six bits. -/
def encodeToDigits : Bytes → List ℕ
  | a :: b :: c :: rest =>
    [a.toNat / 4, a.toNat % 4 * 16 + b.toNat / 16, b.toNat % 16 * 4 + c.toNat / 64,
      c.toNat % 64] ++ encodeToDigits rest
  | [a, b] => [a.toNat / 4, a.toNat % 4 * 16 + b.toNat / 16, b.toNat % 16 * 4]
  | [a] => [a.toNat / 4, a.toNat % 4 * 16]
  | [] => []

def encodeToString (bs : Bytes) : Bytes := (encodeToDigits bs).map encodeDigit

def decodeDigits : List ℕ → Option Bytes
  | d₀ :: d₁ :: d₂ :: d₃ :: rest => do
    let bs ← decodeDigits rest
    return .ofNat (d₀ * 4 + d₁ / 16) :: .ofNat (d₁ % 16 * 16 + d₂ / 4) ::
      .ofNat (d₂ % 4 * 64 + d₃) :: bs
  | [d₀, d₁, d₂] =>
    if d₂ % 4 = 0 then some [.ofNat (d₀ * 4 + d₁ / 16), .ofNat (d₁ % 16 * 16 + d₂ / 4)] else none
  | [d₀, d₁] => if d₁ % 16 = 0 then some [.ofNat (d₀ * 4 + d₁ / 16)] else none
  | [_] => none
  | [] => some []

/-- `\r` is 13 and `\n` is 10. -/
def decodeString (s : Bytes) : Option Bytes := do
  let digits ← (s.filter fun c => c != 13 && c != 10).mapM decodeDigit
  decodeDigits digits

/-! ## Decoding what was encoded -/

theorem encodeToDigits_lt (bs : Bytes) : ∀ d ∈ encodeToDigits bs, d < 64 := by
  have hbyte (b : UInt8) : b.toNat < 256 := b.toNat_lt
  induction bs using encodeToDigits.induct with
  | case1 a b c rest ih =>
      have ha := hbyte a
      have hb := hbyte b
      have hc := hbyte c
      rw [encodeToDigits, List.forall_mem_append]
      refine ⟨?_, ih⟩
      simp only [List.forall_mem_cons, List.not_mem_nil, false_implies, implies_true, and_true]
      omega
  | case2 a b =>
      have ha := hbyte a
      have hb := hbyte b
      simp only [encodeToDigits, List.forall_mem_cons, List.not_mem_nil, false_implies,
        implies_true, and_true]
      omega
  | case3 a =>
      have ha := hbyte a
      simp only [encodeToDigits, List.forall_mem_cons, List.not_mem_nil, false_implies,
        implies_true, and_true]
      omega
  | case4 => simp [encodeToDigits]

theorem ofNat_eq {n : ℕ} {b : UInt8} (h : n = b.toNat) : UInt8.ofNat n = b := by
  rw [h, UInt8.ofNat_toNat]

theorem decodeDigits_encodeToDigits (bs : Bytes) : decodeDigits (encodeToDigits bs) = some bs := by
  have hbyte (b : UInt8) : b.toNat < 256 := b.toNat_lt
  induction bs using encodeToDigits.induct with
  | case1 a b c rest ih =>
      have hb := hbyte b
      have hc := hbyte c
      simp only [encodeToDigits, List.cons_append, List.nil_append, decodeDigits, ih]
      simp only [Option.bind_eq_bind, Option.bind_some, Option.pure_def, Option.some.injEq,
        List.cons.injEq, and_true]
      exact ⟨ofNat_eq (by omega), ofNat_eq (by omega), ofNat_eq (by omega)⟩
  | case2 a b =>
      have hb := hbyte b
      rw [encodeToDigits, decodeDigits, if_pos (by omega)]
      simp only [Option.some.injEq, List.cons.injEq, and_true]
      exact ⟨ofNat_eq (by omega), ofNat_eq (by omega)⟩
  | case3 a =>
      rw [encodeToDigits, decodeDigits, if_pos (by omega)]
      simp only [Option.some.injEq, List.cons.injEq, and_true]
      exact ofNat_eq (by omega)
  | case4 => rfl

theorem decodeDigit_encodeDigit {n : ℕ} (h : n < 64) : decodeDigit (encodeDigit n) = some n := by
  have hall : ∀ d : Fin 64, decodeDigit (encodeDigit d) = some d.val := by decide
  exact hall ⟨n, h⟩

/-- No digit is a full stop, a line feed or a carriage return. -/
theorem encodeDigit_ne {n : ℕ} (h : n < 64) :
    encodeDigit n ≠ 46 ∧ encodeDigit n ≠ 10 ∧ encodeDigit n ≠ 13 := by
  have hall : ∀ d : Fin 64, encodeDigit d ≠ 46 ∧ encodeDigit d ≠ 10 ∧ encodeDigit d ≠ 13 := by
    decide
  exact hall ⟨n, h⟩

theorem mem_encodeToString {bs : Bytes} {c : UInt8} (h : c ∈ encodeToString bs) :
    ∃ d < 64, c = encodeDigit d := by
  obtain ⟨d, hd, rfl⟩ := List.mem_map.mp h
  exact ⟨d, encodeToDigits_lt bs d hd, rfl⟩

theorem not_mem_encodeToString (bs : Bytes) :
    46 ∉ encodeToString bs ∧ 10 ∉ encodeToString bs ∧ 13 ∉ encodeToString bs := by
  refine ⟨fun h => ?_, fun h => ?_, fun h => ?_⟩
  all_goals
    obtain ⟨d, hd, heq⟩ := mem_encodeToString h
    obtain ⟨hdot, hlf, hcr⟩ := encodeDigit_ne hd
  · exact hdot heq.symm
  · exact hlf heq.symm
  · exact hcr heq.symm

theorem mapM_decodeDigit : ∀ {ds : List ℕ}, (∀ d ∈ ds, d < 64) →
    (ds.map encodeDigit).mapM decodeDigit = some ds
  | [], _ => rfl
  | d :: ds, h => by
      obtain ⟨hd, hds⟩ := List.forall_mem_cons.mp h
      rw [List.map_cons, List.mapM_cons, decodeDigit_encodeDigit hd, mapM_decodeDigit hds]
      rfl

theorem decodeString_encodeToString (bs : Bytes) : decodeString (encodeToString bs) = some bs := by
  have hfilter : ((encodeToString bs).filter fun c => c != 13 && c != 10) = encodeToString bs := by
    rw [List.filter_eq_self]
    intro c hc
    obtain ⟨d, hd, rfl⟩ := mem_encodeToString hc
    obtain ⟨-, hlf, hcr⟩ := encodeDigit_ne hd
    simp [hlf, hcr]
  rw [decodeString, hfilter, encodeToString, mapM_decodeDigit (encodeToDigits_lt bs)]
  exact decodeDigits_encodeToDigits bs

theorem encodeToString_ne_nil {bs : Bytes} (h : bs ≠ []) : encodeToString bs ≠ [] := by
  intro hnil
  have hdecoded := decodeString_encodeToString bs
  rw [hnil] at hdecoded
  exact h (Option.some.inj hdecoded).symm

/-! ## Encoding what was decoded -/

theorem encodeToDigits_length (bs : Bytes) :
    (encodeToDigits bs).length = bs.length / 3 * 4 + (bs.length % 3 * 8 + 5) / 6 := by
  induction bs using encodeToDigits.induct with
  | case1 a b c rest ih =>
      rw [encodeToDigits, List.length_append, ih]
      simp only [List.length_cons, List.length_nil]
      omega
  | case2 a b => simp [encodeToDigits]
  | case3 a => simp [encodeToDigits]
  | case4 => simp [encodeToDigits]

/-- `EncodedLen`. -/
theorem encodeToString_length (bs : Bytes) :
    (encodeToString bs).length = bs.length / 3 * 4 + (bs.length % 3 * 8 + 5) / 6 := by
  rw [encodeToString, List.length_map, encodeToDigits_length]

theorem encodeToDigits_decodeDigits {ds : List ℕ} {bs : Bytes} (hds : ∀ d ∈ ds, d < 64)
    (h : decodeDigits ds = some bs) : encodeToDigits bs = ds := by
  induction ds using decodeDigits.induct generalizing bs with
  | case1 d₀ d₁ d₂ d₃ rest ih =>
      simp only [List.forall_mem_cons] at hds
      obtain ⟨h₀, h₁, h₂, h₃, hrest⟩ := hds
      simp only [decodeDigits, Option.bind_eq_bind, Option.bind_eq_some_iff, Option.pure_def,
        Option.some.injEq] at h
      obtain ⟨bs', hbs', rfl⟩ := h
      rw [encodeToDigits, ih hrest hbs']
      simp only [UInt8.toNat_ofNat', List.cons_append, List.nil_append, List.cons.injEq, and_true]
      omega
  | case2 d₀ d₁ d₂ hzero =>
      simp only [List.forall_mem_cons] at hds
      obtain ⟨h₀, h₁, h₂, -⟩ := hds
      rw [decodeDigits, if_pos hzero] at h
      cases h
      simp only [encodeToDigits, UInt8.toNat_ofNat', List.cons.injEq, and_true]
      omega
  | case3 d₀ d₁ d₂ hbits => rw [decodeDigits, if_neg hbits] at h; cases h
  | case4 d₀ d₁ hzero =>
      simp only [List.forall_mem_cons] at hds
      obtain ⟨h₀, h₁, -⟩ := hds
      rw [decodeDigits, if_pos hzero] at h
      cases h
      simp only [encodeToDigits, UInt8.toNat_ofNat', List.cons.injEq, and_true]
      omega
  | case5 d₀ d₁ hbits => rw [decodeDigits, if_neg hbits] at h; cases h
  | case6 => cases h
  | case7 => cases h; rw [encodeToDigits]

/-- The alphabet has one character for each digit. -/
theorem encodeDigit_decodeDigit {c : UInt8} {d : ℕ} (h : decodeDigit c = some d) :
    d < 64 ∧ encodeDigit d = c := by
  simp only [decodeDigit] at h
  split at h
  case isTrue hupper =>
    cases h
    refine ⟨by omega, ?_⟩
    rw [encodeDigit, if_pos (by omega)]
    exact ofNat_eq (by omega)
  split at h
  case isTrue hlower =>
    cases h
    refine ⟨by omega, ?_⟩
    rw [encodeDigit, if_neg (by omega), if_pos (by omega)]
    exact ofNat_eq (by omega)
  split at h
  case isTrue hdigit =>
    cases h
    refine ⟨by omega, ?_⟩
    rw [encodeDigit, if_neg (by omega), if_neg (by omega), if_pos (by omega)]
    exact ofNat_eq (by omega)
  split at h
  case isTrue hminus => cases h; exact ⟨by decide, ofNat_eq hminus.symm⟩
  split at h
  case isTrue hunder => cases h; exact ⟨by decide, ofNat_eq hunder.symm⟩
  case isFalse => cases h

theorem encodeDigits_mapM {cs : Bytes} {ds : List ℕ} (h : cs.mapM decodeDigit = some ds) :
    (∀ d ∈ ds, d < 64) ∧ ds.map encodeDigit = cs := by
  induction cs generalizing ds with
  | nil => cases h; simp
  | cons c cs ih =>
      simp only [List.mapM_cons, Option.bind_eq_bind, Option.bind_eq_some_iff, Option.pure_def,
        Option.some.injEq] at h
      obtain ⟨d, hd, ds', hds', rfl⟩ := h
      obtain ⟨hlt, hmap⟩ := ih hds'
      obtain ⟨hdlt, hdc⟩ := encodeDigit_decodeDigit hd
      exact ⟨List.forall_mem_cons.mpr ⟨hdlt, hlt⟩, by rw [List.map_cons, hdc, hmap]⟩

/-- What decodes is the encoding of its bytes, once the line breaks are dropped. -/
theorem encodeToString_decodeString {s bs : Bytes} (h : decodeString s = some bs) :
    encodeToString bs = s.filter fun c => c != 13 && c != 10 := by
  simp only [decodeString, Option.bind_eq_bind, Option.bind_eq_some_iff] at h
  obtain ⟨ds, hds, hbs⟩ := h
  obtain ⟨hlt, hmap⟩ := encodeDigits_mapM hds
  rw [encodeToString, encodeToDigits_decodeDigits hlt hbs, hmap]

end Base64
end Go42
