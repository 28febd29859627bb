-- SUMMARY: Go strings as byte strings, and the parts of `strings`, `unicode` and `utf8` the service uses.
import Mathlib.Data.List.DropRight
import Mathlib.Data.List.TakeWhile
import Mathlib.Data.Nat.Notation
import Mathlib.Tactic.IntervalCases

/-!
# Go strings

A Go string is any sequence of bytes. The ones that `utf8.ValidString` accepts are
exactly Lean's strings, so a Go string is either a Lean string or bytes that are
not UTF-8.
-/

namespace Go42

-- The equality of byte arrays is that of the core library, whatever else is imported.
local instance decidableEqBytes : DecidableEq ByteArray := ByteArray.instDecidableEq

inductive GoString where
  | utf8 (s : String)
  | invalid (b : ByteArray) (h : ¬ b.IsValidUTF8)
deriving DecidableEq

namespace GoString

/-- `len(s)`. -/
def len : GoString → ℕ
  | utf8 s => s.utf8ByteSize
  | invalid b _ => b.size

/-- `utf8.ValidString`. -/
def validString : GoString → Bool
  | utf8 _ => true
  | invalid _ _ => false

/-- One rune per character, and one per byte that starts no character. -/
private def countRunes (b : ByteArray) (i : ℕ) : ℕ → ℕ
  | 0 => 0
  | fuel + 1 =>
    if i < b.size then
      let width := match b.utf8DecodeChar? i with
        | some c => c.utf8Size
        | none => 1
      1 + countRunes b (i + width) fuel
    else 0

/-- `utf8.RuneCountInString`. -/
def runeCount : GoString → ℕ
  | utf8 s => s.length
  | invalid b _ => countRunes b 0 b.size

end GoString

/-! ## Unicode tables -/

/-- Code points `lo`, `lo + step`, …, `hi` map to themselves shifted, `lo` to
`image`. -/
structure CaseRange where
  lo : ℕ
  hi : ℕ
  step : ℕ
  image : ℕ

namespace CaseRange

def contains (r : CaseRange) (n : ℕ) : Bool :=
  r.lo.ble n && n.ble r.hi && ((n - r.lo) % r.step).beq 0

def shift (r : CaseRange) (n : ℕ) : ℕ := r.image + (n - r.lo)

def imageHi (r : CaseRange) : ℕ := r.image + (r.hi - r.lo)

/-- The image of `r` misses the range `r'`: it lies on one side of it, or both
take every second code point and their parities differ. -/
def misses (r r' : CaseRange) : Bool :=
  r.imageHi.blt r'.lo || r'.hi.blt r.image ||
    (r.step.beq 2 && r'.step.beq 2 && ((r.image + r'.lo) % 2).beq 1)

theorem contains_iff {r : CaseRange} {n : ℕ} :
    r.contains n = true ↔ r.lo ≤ n ∧ n ≤ r.hi ∧ (n - r.lo) % r.step = 0 := by
  simp [contains, and_assoc]

theorem misses_sound {r r' : CaseRange} {n : ℕ} (h : r.misses r' = true)
    (hn : r.contains n = true) : r'.contains (r.shift n) = false := by
  obtain ⟨hlo, hhi, hmod⟩ := contains_iff.mp hn
  rw [Bool.eq_false_iff]
  intro hc
  obtain ⟨hlo', hhi', hmod'⟩ := contains_iff.mp hc
  simp only [shift] at hlo' hhi' hmod'
  simp only [misses, imageHi, Bool.or_eq_true, Bool.and_eq_true, Nat.beq_eq,
    Nat.blt_eq] at h
  rcases h with (h | h) | ⟨⟨hs, hs'⟩, h⟩
  · omega
  · omega
  · rw [hs] at hmod
    rw [hs'] at hmod'
    omega

end CaseRange

/-- The simple lower-case mappings of `unicode.CaseRanges`, which has the tables of Unicode 17. -/
def lowerRanges : List CaseRange :=
  [⟨0x0041, 0x005a, 1, 0x0061⟩, ⟨0x00c0, 0x00d6, 1, 0x00e0⟩, ⟨0x00d8, 0x00de, 1, 0x00f8⟩,
   ⟨0x0100, 0x012e, 2, 0x0101⟩, ⟨0x0130, 0x0130, 2, 0x0069⟩, ⟨0x0132, 0x0136, 2, 0x0133⟩,
   ⟨0x0139, 0x0147, 2, 0x013a⟩, ⟨0x014a, 0x0176, 2, 0x014b⟩, ⟨0x0178, 0x0178, 2, 0x00ff⟩,
   ⟨0x0179, 0x017d, 2, 0x017a⟩, ⟨0x0181, 0x0181, 2, 0x0253⟩, ⟨0x0182, 0x0184, 2, 0x0183⟩,
   ⟨0x0186, 0x0186, 2, 0x0254⟩, ⟨0x0187, 0x0187, 2, 0x0188⟩, ⟨0x0189, 0x018a, 1, 0x0256⟩,
   ⟨0x018b, 0x018b, 2, 0x018c⟩, ⟨0x018e, 0x018e, 2, 0x01dd⟩, ⟨0x018f, 0x018f, 2, 0x0259⟩,
   ⟨0x0190, 0x0190, 2, 0x025b⟩, ⟨0x0191, 0x0191, 2, 0x0192⟩, ⟨0x0193, 0x0193, 2, 0x0260⟩,
   ⟨0x0194, 0x0194, 2, 0x0263⟩, ⟨0x0196, 0x0196, 2, 0x0269⟩, ⟨0x0197, 0x0197, 2, 0x0268⟩,
   ⟨0x0198, 0x0198, 2, 0x0199⟩, ⟨0x019c, 0x019c, 2, 0x026f⟩, ⟨0x019d, 0x019d, 2, 0x0272⟩,
   ⟨0x019f, 0x019f, 2, 0x0275⟩, ⟨0x01a0, 0x01a4, 2, 0x01a1⟩, ⟨0x01a6, 0x01a6, 2, 0x0280⟩,
   ⟨0x01a7, 0x01a7, 2, 0x01a8⟩, ⟨0x01a9, 0x01a9, 2, 0x0283⟩, ⟨0x01ac, 0x01ac, 2, 0x01ad⟩,
   ⟨0x01ae, 0x01ae, 2, 0x0288⟩, ⟨0x01af, 0x01af, 2, 0x01b0⟩, ⟨0x01b1, 0x01b2, 1, 0x028a⟩,
   ⟨0x01b3, 0x01b5, 2, 0x01b4⟩, ⟨0x01b7, 0x01b7, 2, 0x0292⟩, ⟨0x01b8, 0x01b8, 2, 0x01b9⟩,
   ⟨0x01bc, 0x01bc, 2, 0x01bd⟩, ⟨0x01c4, 0x01c4, 2, 0x01c6⟩, ⟨0x01c5, 0x01c5, 2, 0x01c6⟩,
   ⟨0x01c7, 0x01c7, 2, 0x01c9⟩, ⟨0x01c8, 0x01c8, 2, 0x01c9⟩, ⟨0x01ca, 0x01ca, 2, 0x01cc⟩,
   ⟨0x01cb, 0x01db, 2, 0x01cc⟩, ⟨0x01de, 0x01ee, 2, 0x01df⟩, ⟨0x01f1, 0x01f1, 2, 0x01f3⟩,
   ⟨0x01f2, 0x01f4, 2, 0x01f3⟩, ⟨0x01f6, 0x01f6, 2, 0x0195⟩, ⟨0x01f7, 0x01f7, 2, 0x01bf⟩,
   ⟨0x01f8, 0x021e, 2, 0x01f9⟩, ⟨0x0220, 0x0220, 2, 0x019e⟩, ⟨0x0222, 0x0232, 2, 0x0223⟩,
   ⟨0x023a, 0x023a, 2, 0x2c65⟩, ⟨0x023b, 0x023b, 2, 0x023c⟩, ⟨0x023d, 0x023d, 2, 0x019a⟩,
   ⟨0x023e, 0x023e, 2, 0x2c66⟩, ⟨0x0241, 0x0241, 2, 0x0242⟩, ⟨0x0243, 0x0243, 2, 0x0180⟩,
   ⟨0x0244, 0x0244, 2, 0x0289⟩, ⟨0x0245, 0x0245, 2, 0x028c⟩, ⟨0x0246, 0x024e, 2, 0x0247⟩,
   ⟨0x0370, 0x0372, 2, 0x0371⟩, ⟨0x0376, 0x0376, 2, 0x0377⟩, ⟨0x037f, 0x037f, 2, 0x03f3⟩,
   ⟨0x0386, 0x0386, 2, 0x03ac⟩, ⟨0x0388, 0x038a, 1, 0x03ad⟩, ⟨0x038c, 0x038c, 2, 0x03cc⟩,
   ⟨0x038e, 0x038f, 1, 0x03cd⟩, ⟨0x0391, 0x03a1, 1, 0x03b1⟩, ⟨0x03a3, 0x03ab, 1, 0x03c3⟩,
   ⟨0x03cf, 0x03cf, 2, 0x03d7⟩, ⟨0x03d8, 0x03ee, 2, 0x03d9⟩, ⟨0x03f4, 0x03f4, 2, 0x03b8⟩,
   ⟨0x03f7, 0x03f7, 2, 0x03f8⟩, ⟨0x03f9, 0x03f9, 2, 0x03f2⟩, ⟨0x03fa, 0x03fa, 2, 0x03fb⟩,
   ⟨0x03fd, 0x03ff, 1, 0x037b⟩, ⟨0x0400, 0x040f, 1, 0x0450⟩, ⟨0x0410, 0x042f, 1, 0x0430⟩,
   ⟨0x0460, 0x0480, 2, 0x0461⟩, ⟨0x048a, 0x04be, 2, 0x048b⟩, ⟨0x04c0, 0x04c0, 2, 0x04cf⟩,
   ⟨0x04c1, 0x04cd, 2, 0x04c2⟩, ⟨0x04d0, 0x052e, 2, 0x04d1⟩, ⟨0x0531, 0x0556, 1, 0x0561⟩,
   ⟨0x10a0, 0x10c5, 1, 0x2d00⟩, ⟨0x10c7, 0x10c7, 2, 0x2d27⟩, ⟨0x10cd, 0x10cd, 2, 0x2d2d⟩,
   ⟨0x13a0, 0x13ef, 1, 0xab70⟩, ⟨0x13f0, 0x13f5, 1, 0x13f8⟩, ⟨0x1c89, 0x1c89, 2, 0x1c8a⟩,
   ⟨0x1c90, 0x1cba, 1, 0x10d0⟩,
   ⟨0x1cbd, 0x1cbf, 1, 0x10fd⟩, ⟨0x1e00, 0x1e94, 2, 0x1e01⟩, ⟨0x1e9e, 0x1e9e, 2, 0x00df⟩,
   ⟨0x1ea0, 0x1efe, 2, 0x1ea1⟩, ⟨0x1f08, 0x1f0f, 1, 0x1f00⟩, ⟨0x1f18, 0x1f1d, 1, 0x1f10⟩,
   ⟨0x1f28, 0x1f2f, 1, 0x1f20⟩, ⟨0x1f38, 0x1f3f, 1, 0x1f30⟩, ⟨0x1f48, 0x1f4d, 1, 0x1f40⟩,
   ⟨0x1f59, 0x1f5f, 2, 0x1f51⟩, ⟨0x1f68, 0x1f6f, 1, 0x1f60⟩, ⟨0x1f88, 0x1f8f, 1, 0x1f80⟩,
   ⟨0x1f98, 0x1f9f, 1, 0x1f90⟩, ⟨0x1fa8, 0x1faf, 1, 0x1fa0⟩, ⟨0x1fb8, 0x1fb9, 1, 0x1fb0⟩,
   ⟨0x1fba, 0x1fbb, 1, 0x1f70⟩, ⟨0x1fbc, 0x1fbc, 2, 0x1fb3⟩, ⟨0x1fc8, 0x1fcb, 1, 0x1f72⟩,
   ⟨0x1fcc, 0x1fcc, 2, 0x1fc3⟩, ⟨0x1fd8, 0x1fd9, 1, 0x1fd0⟩, ⟨0x1fda, 0x1fdb, 1, 0x1f76⟩,
   ⟨0x1fe8, 0x1fe9, 1, 0x1fe0⟩, ⟨0x1fea, 0x1feb, 1, 0x1f7a⟩, ⟨0x1fec, 0x1fec, 2, 0x1fe5⟩,
   ⟨0x1ff8, 0x1ff9, 1, 0x1f78⟩, ⟨0x1ffa, 0x1ffb, 1, 0x1f7c⟩, ⟨0x1ffc, 0x1ffc, 2, 0x1ff3⟩,
   ⟨0x2126, 0x2126, 2, 0x03c9⟩, ⟨0x212a, 0x212a, 2, 0x006b⟩, ⟨0x212b, 0x212b, 2, 0x00e5⟩,
   ⟨0x2132, 0x2132, 2, 0x214e⟩, ⟨0x2160, 0x216f, 1, 0x2170⟩, ⟨0x2183, 0x2183, 2, 0x2184⟩,
   ⟨0x24b6, 0x24cf, 1, 0x24d0⟩, ⟨0x2c00, 0x2c2f, 1, 0x2c30⟩, ⟨0x2c60, 0x2c60, 2, 0x2c61⟩,
   ⟨0x2c62, 0x2c62, 2, 0x026b⟩, ⟨0x2c63, 0x2c63, 2, 0x1d7d⟩, ⟨0x2c64, 0x2c64, 2, 0x027d⟩,
   ⟨0x2c67, 0x2c6b, 2, 0x2c68⟩, ⟨0x2c6d, 0x2c6d, 2, 0x0251⟩, ⟨0x2c6e, 0x2c6e, 2, 0x0271⟩,
   ⟨0x2c6f, 0x2c6f, 2, 0x0250⟩, ⟨0x2c70, 0x2c70, 2, 0x0252⟩, ⟨0x2c72, 0x2c72, 2, 0x2c73⟩,
   ⟨0x2c75, 0x2c75, 2, 0x2c76⟩, ⟨0x2c7e, 0x2c7f, 1, 0x023f⟩, ⟨0x2c80, 0x2ce2, 2, 0x2c81⟩,
   ⟨0x2ceb, 0x2ced, 2, 0x2cec⟩, ⟨0x2cf2, 0x2cf2, 2, 0x2cf3⟩, ⟨0xa640, 0xa66c, 2, 0xa641⟩,
   ⟨0xa680, 0xa69a, 2, 0xa681⟩, ⟨0xa722, 0xa72e, 2, 0xa723⟩, ⟨0xa732, 0xa76e, 2, 0xa733⟩,
   ⟨0xa779, 0xa77b, 2, 0xa77a⟩, ⟨0xa77d, 0xa77d, 2, 0x1d79⟩, ⟨0xa77e, 0xa786, 2, 0xa77f⟩,
   ⟨0xa78b, 0xa78b, 2, 0xa78c⟩, ⟨0xa78d, 0xa78d, 2, 0x0265⟩, ⟨0xa790, 0xa792, 2, 0xa791⟩,
   ⟨0xa796, 0xa7a8, 2, 0xa797⟩, ⟨0xa7aa, 0xa7aa, 2, 0x0266⟩, ⟨0xa7ab, 0xa7ab, 2, 0x025c⟩,
   ⟨0xa7ac, 0xa7ac, 2, 0x0261⟩, ⟨0xa7ad, 0xa7ad, 2, 0x026c⟩, ⟨0xa7ae, 0xa7ae, 2, 0x026a⟩,
   ⟨0xa7b0, 0xa7b0, 2, 0x029e⟩, ⟨0xa7b1, 0xa7b1, 2, 0x0287⟩, ⟨0xa7b2, 0xa7b2, 2, 0x029d⟩,
   ⟨0xa7b3, 0xa7b3, 2, 0xab53⟩, ⟨0xa7b4, 0xa7c2, 2, 0xa7b5⟩, ⟨0xa7c4, 0xa7c4, 2, 0xa794⟩,
   ⟨0xa7c5, 0xa7c5, 2, 0x0282⟩, ⟨0xa7c6, 0xa7c6, 2, 0x1d8e⟩, ⟨0xa7c7, 0xa7c9, 2, 0xa7c8⟩,
   ⟨0xa7cb, 0xa7cb, 2, 0x0264⟩, ⟨0xa7cc, 0xa7ce, 2, 0xa7cd⟩, ⟨0xa7d0, 0xa7d4, 2, 0xa7d1⟩,
   ⟨0xa7d6, 0xa7da, 2, 0xa7d7⟩, ⟨0xa7dc, 0xa7dc, 2, 0x019b⟩, ⟨0xa7f5, 0xa7f5, 2, 0xa7f6⟩,
   ⟨0xff21, 0xff3a, 1, 0xff41⟩, ⟨0x10400, 0x10427, 1, 0x10428⟩, ⟨0x104b0, 0x104d3, 1, 0x104d8⟩,
   ⟨0x10570, 0x1057a, 1, 0x10597⟩, ⟨0x1057c, 0x1058a, 1, 0x105a3⟩, ⟨0x1058c, 0x10592, 1, 0x105b3⟩,
   ⟨0x10594, 0x10595, 1, 0x105bb⟩, ⟨0x10c80, 0x10cb2, 1, 0x10cc0⟩, ⟨0x10d50, 0x10d65, 1, 0x10d70⟩,
   ⟨0x118a0, 0x118bf, 1, 0x118c0⟩, ⟨0x16e40, 0x16e5f, 1, 0x16e60⟩, ⟨0x16ea0, 0x16eb8, 1, 0x16ebb⟩,
   ⟨0x1e900, 0x1e921, 1, 0x1e922⟩]

/-- The ranges of `unicode.White_Space`. -/
def spaceRanges : List (ℕ × ℕ) :=
  [(0x09, 0x0d), (0x20, 0x20), (0x85, 0x85), (0xa0, 0xa0), (0x1680, 0x1680), (0x2000, 0x200a),
    (0x2028, 0x2029), (0x202f, 0x202f), (0x205f, 0x205f), (0x3000, 0x3000)]

def lowerNat (n : ℕ) : ℕ :=
  match lowerRanges.find? (·.contains n) with
  | some r => r.shift n
  | none => n

def isSpaceNat (n : ℕ) : Bool := spaceRanges.any fun r => r.1.ble n && n.ble r.2

/-- `unicode.ToLower`. -/
def toLower (c : Char) : Char := Char.ofNat (lowerNat c.toNat)

/-- `unicode.IsSpace`. -/
def isSpace (c : Char) : Bool := isSpaceNat c.toNat

/-- No range meets a space. -/
theorem lowerRanges_apart :
    (lowerRanges.all fun r => spaceRanges.all fun sp => r.hi.blt sp.1 || sp.2.blt r.lo) = true := by
  decide +kernel

/-- The image of a range consists of characters that are not mapped again and are
no spaces. -/
def CaseRange.settled (r : CaseRange) : Bool :=
  lowerRanges.all r.misses &&
    (r.imageHi.blt 0xd800 || (Nat.blt 0xdfff r.image && r.imageHi.blt 0x110000)) &&
    spaceRanges.all fun sp => r.imageHi.blt sp.1 || sp.2.blt r.image

theorem lowerRanges_settled : lowerRanges.all CaseRange.settled = true := by
  decide +kernel

private theorem lowerNat_cases (n : ℕ) :
    lowerNat n = n ∨
      ∃ r ∈ lowerRanges, r.contains n = true ∧ r.settled = true ∧ lowerNat n = r.shift n := by
  unfold lowerNat
  split
  case h_2 => exact .inl rfl
  case h_1 r hr =>
    have hmem := List.mem_of_find?_eq_some hr
    exact .inr ⟨r, hmem, by simpa using List.find?_some hr, List.all_eq_true.mp lowerRanges_settled r hmem, rfl⟩

private theorem lowerNat_lowerNat (n : ℕ) : lowerNat (lowerNat n) = lowerNat n := by
  obtain h | ⟨r, -, hc, hs, h⟩ := lowerNat_cases n
  · rw [h, h]
  · simp only [CaseRange.settled, Bool.and_eq_true, List.all_eq_true] at hs
    have hnone : lowerRanges.find? (·.contains (r.shift n)) = none := by
      rw [List.find?_eq_none]
      intro r' hr'
      simp [CaseRange.misses_sound (hs.1.1 r' hr') hc]
    rw [h]
    unfold lowerNat
    rw [hnone]

private theorem lowerNat_isValidChar {n : ℕ} (hn : n.isValidChar) : (lowerNat n).isValidChar := by
  obtain h | ⟨r, -, hc, hs, h⟩ := lowerNat_cases n
  · rwa [h]
  · simp only [CaseRange.settled, Bool.and_eq_true, Bool.or_eq_true, Nat.blt_eq,
      CaseRange.imageHi] at hs
    obtain ⟨hlo, hhi, -⟩ := CaseRange.contains_iff.mp hc
    rw [h, CaseRange.shift]
    rcases hs.1.2 with h | h
    · exact .inl (by omega)
    · exact .inr (by omega)

/-- No space is mapped and no character is mapped to a space. -/
private theorem isSpaceNat_lowerNat (n : ℕ) : isSpaceNat (lowerNat n) = isSpaceNat n := by
  obtain h | ⟨r, hr, hc, hs, h⟩ := lowerNat_cases n
  · rw [h]
  · have himage : isSpaceNat (r.shift n) = false := by
      simp only [CaseRange.settled, Bool.and_eq_true, List.all_eq_true, Bool.or_eq_true,
        Nat.blt_eq, CaseRange.imageHi] at hs
      obtain ⟨hlo, hhi, -⟩ := CaseRange.contains_iff.mp hc
      rw [isSpaceNat, List.any_eq_false]
      intro sp hsp
      have hsp' := hs.2 sp hsp
      simp only [CaseRange.shift, Bool.and_eq_true, Nat.ble_eq, not_and]
      omega
    have hn : isSpaceNat n = false := by
      have := lowerRanges_apart
      simp only [List.all_eq_true, Bool.or_eq_true, Nat.blt_eq] at this
      obtain ⟨hlo, hhi, -⟩ := CaseRange.contains_iff.mp hc
      rw [isSpaceNat, List.any_eq_false]
      intro sp hsp
      have hsp' := this r hr sp hsp
      simp only [Bool.and_eq_true, Nat.ble_eq, not_and]
      omega
    rw [h, himage, hn]

private theorem toNat_toLower (c : Char) : (toLower c).toNat = lowerNat c.toNat := by
  have hv : (lowerNat c.toNat).isValidChar := lowerNat_isValidChar c.valid
  rw [toLower, Char.ofNat, dif_pos hv]
  rfl

@[simp] theorem toLower_toLower (c : Char) : toLower (toLower c) = toLower c := by
  conv_lhs => rw [toLower, toNat_toLower, lowerNat_lowerNat]
  rfl

@[simp] theorem isSpace_toLower (c : Char) : isSpace (toLower c) = isSpace c := by
  rw [isSpace, toNat_toLower, isSpaceNat_lowerNat, isSpace]

/-! ## Package strings -/

private def trim (cs : List Char) : List Char := (cs.dropWhile isSpace).rdropWhile isSpace

private theorem trim_trim (cs : List Char) : trim (trim cs) = trim cs := by
  have hhead : (trim cs).dropWhile isSpace = trim cs := by
    rw [List.dropWhile_eq_self_iff]
    intro hl
    have hpre : trim cs <+: cs.dropWhile isSpace := List.rdropWhile_prefix isSpace _
    have hl' : 0 < (cs.dropWhile isSpace).length := Nat.lt_of_lt_of_le hl hpre.length_le
    rw [hpre.getElem hl]
    exact List.dropWhile_get_zero_not isSpace cs hl'
  rw [trim, hhead, trim, List.rdropWhile_idempotent]

private theorem trim_map_toLower (cs : List Char) :
    trim (cs.map toLower) = (trim cs).map toLower := by
  have hp : isSpace ∘ toLower = isSpace := funext isSpace_toLower
  simp only [trim, List.rdropWhile, List.dropWhile_map, ← List.map_reverse, hp]

/-- `strings.TrimSpace`. -/
def trimSpace (s : String) : String := String.ofList (trim s.toList)

/-- `strings.ToLower`. -/
def toLowerString (s : String) : String := String.ofList (s.toList.map toLower)

theorem toLowerString_trimSpace_idem (s : String) :
    toLowerString (trimSpace (toLowerString (trimSpace s))) = toLowerString (trimSpace s) := by
  simp only [toLowerString, trimSpace, String.toList_ofList, trim_map_toLower, trim_trim,
    List.map_map]
  congr 2
  exact funext toLower_toLower

end Go42
