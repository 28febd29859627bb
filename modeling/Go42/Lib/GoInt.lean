-- SUMMARY: Go's `int64`: wrapping arithmetic and decimal text.
import Mathlib.Algebra.Ring.Int.Defs
import Mathlib.Algebra.Ring.Nat
import Mathlib.Data.Int.Notation
import Mathlib.Data.List.Basic

/-!
# Integers of 64 bits
-/

namespace Go42

/-- The value an `int64` holds. -/
def wrapInt64 (x : ℤ) : ℤ := x.bmod (2 ^ 64)

/-- The values that an `int64` can hold. -/
def InInt64 (x : ℤ) : Prop := -2 ^ 63 ≤ x ∧ x < 2 ^ 63

instance (x : ℤ) : Decidable (InInt64 x) := inferInstanceAs (Decidable (_ ∧ _))

theorem wrapInt64_eq {x : ℤ} (h : InInt64 x) : wrapInt64 x = x := by
  obtain ⟨hle, hlt⟩ := h
  apply Int.bmod_eq_of_le <;> omega

/-! ## Decimal text -/

/-- `strconv.FormatInt(n, 10)`. -/
def formatInt (n : ℤ) : String :=
  if n < 0 then "-" ++ n.natAbs.repr else n.natAbs.repr

def parseDigits (cs : List Char) : Option ℕ :=
  if cs ≠ [] ∧ cs.all Char.isDigit then some (Nat.ofDigitChars 10 cs 0) else none

/-- An integer in decimal, with an optional sign. -/
def parseDecimal (s : String) : Option ℤ :=
  match s.toList with
  | '-' :: cs => (parseDigits cs).map fun n => -(n : ℤ)
  | '+' :: cs => (parseDigits cs).map Int.ofNat
  | cs => (parseDigits cs).map Int.ofNat

/-- `strconv.ParseInt(s, 10, 64)`, `none` where it reports an error. -/
def parseInt (s : String) : Option ℤ := (parseDecimal s).filter fun n => InInt64 n

theorem parseDigits_repr (n : ℕ) : parseDigits n.repr.toList = some n := by
  have hdigits : (Nat.toDigits 10 n).all Char.isDigit = true := by
    rw [List.all_eq_true]
    exact fun c hc => Nat.isDigit_of_mem_toDigits (by decide) (by decide) hc
  rw [parseDigits, Nat.toList_repr, if_pos ⟨Nat.toDigits_ne_nil, hdigits⟩,
    Nat.ofDigitChars_ten_toDigits]

/-- Digits are no sign. -/
theorem parseDecimal_repr (n : ℕ) : parseDecimal n.repr = some (n : ℤ) := by
  have hsign {c : Char} {cs : List Char} (h : n.repr.toList = c :: cs) : c.isDigit = true := by
    apply Nat.isDigit_of_mem_toDigits (b := 10) (n := n) (by decide) (by decide)
    rw [← Nat.toList_repr, h]
    exact List.mem_cons_self
  unfold parseDecimal
  split
  case h_1 heq => cases hsign heq
  case h_2 heq => cases hsign heq
  case h_3 =>
    rw [parseDigits_repr]
    rfl

theorem parseDecimal_formatInt (n : ℤ) : parseDecimal (formatInt n) = some n := by
  unfold formatInt
  split
  · have htext : ("-" ++ n.natAbs.repr).toList = '-' :: n.natAbs.repr.toList := by
      rw [String.toList_append]
      rfl
    have habs : -(n.natAbs : ℤ) = n := by omega
    simp only [parseDecimal, htext, parseDigits_repr]
    exact congrArg some habs
  · have habs : (n.natAbs : ℤ) = n := by omega
    rw [parseDecimal_repr, habs]

theorem parseInt_formatInt {n : ℤ} (h : InInt64 n) : parseInt (formatInt n) = some n := by
  rw [parseInt, parseDecimal_formatInt, Option.filter_some, if_pos (decide_eq_true h)]

end Go42
