-- SUMMARY: Integers as doubles: rounding to 53 binary digits with ties to even, which is exact up to 2^53.
import Mathlib.Algebra.Order.Ring.Int

/-!
# Integers as doubles

Sums, differences and products of doubles that are integers are integers, so a number of a
script is an integer that was rounded. The exponent is not bounded.
-/

namespace Go42

/-! ## Multiples of a unit -/

/-- The multiple of `u` next to `n`; of two that are as near, the even one. -/
def roundHalfEven (u n : ℕ) : ℕ :=
  if 2 * (n % u) < u ∨ 2 * (n % u) = u ∧ n / u % 2 = 0 then n / u * u else (n / u + 1) * u

section Unit

variable {u n m k : ℕ}

theorem roundHalfEven_eq_or (u n : ℕ) :
    roundHalfEven u n = n / u * u ∨ roundHalfEven u n = (n / u + 1) * u := by
  unfold roundHalfEven
  split
  · exact .inl rfl
  · exact .inr rfl

theorem dvd_roundHalfEven (u n : ℕ) : u ∣ roundHalfEven u n := by
  rcases roundHalfEven_eq_or u n with h | h <;> exact h ▸ Nat.dvd_mul_left u _

theorem roundHalfEven_of_dvd (hu : 0 < u) (h : u ∣ n) : roundHalfEven u n = n := by
  have hmod : n % u = 0 := Nat.mod_eq_zero_of_dvd h
  rw [roundHalfEven, if_pos (by omega), Nat.div_mul_cancel h]

theorem roundHalfEven_mono (h : n ≤ m) : roundHalfEven u n ≤ roundHalfEven u m := by
  have hdiv : n / u ≤ m / u := Nat.div_le_div_right h
  have hlow : m / u * u ≤ roundHalfEven u m := by
    rcases roundHalfEven_eq_or u m with h' | h' <;> rw [h']
    exact Nat.mul_le_mul_right u (Nat.le_succ _)
  rcases hdiv.lt_or_eq with hlt | heq
  · have hhigh : roundHalfEven u n ≤ (n / u + 1) * u := by
      rcases roundHalfEven_eq_or u n with h' | h' <;> rw [h']
      exact Nat.mul_le_mul_right u (Nat.le_succ _)
    exact (hhigh.trans (Nat.mul_le_mul_right u hlt)).trans hlow
  · -- Between the same two multiples, the one with the larger remainder is rounded up first.
    have hmod : n % u ≤ m % u := by
      have hn := Nat.div_add_mod n u
      have hm := Nat.div_add_mod m u
      rw [heq] at hn
      omega
    unfold roundHalfEven
    rw [heq]
    split
    · split
      · exact le_rfl
      · exact Nat.mul_le_mul_right u (Nat.le_succ _)
    · rw [if_neg (by omega)]

theorem roundHalfEven_le (hu : 0 < u) (h : n ≤ k * u) : roundHalfEven u n ≤ k * u := by
  have hk := roundHalfEven_of_dvd hu (Nat.dvd_mul_left u k)
  exact hk ▸ roundHalfEven_mono h

theorem le_roundHalfEven (hu : 0 < u) (h : k * u ≤ n) : k * u ≤ roundHalfEven u n := by
  have hk := roundHalfEven_of_dvd hu (Nat.dvd_mul_left u k)
  exact hk ▸ roundHalfEven_mono h

end Unit

/-! ## Doubles -/

/-- What the last of 53 binary digits of `n` counts. -/
def lastPlace (n : ℕ) : ℕ := 2 ^ (n.log2 - 52)

theorem lastPlace_pos (n : ℕ) : 0 < lastPlace n := Nat.two_pow_pos _

/-- The last place counts parts of every larger power of two. -/
theorem lastPlace_dvd {n e : ℕ} (h : n.log2 ≤ e) : lastPlace n ∣ 2 ^ e :=
  Nat.pow_dvd_pow 2 (by omega)

def toDoubleNat (n : ℕ) : ℕ := roundHalfEven (lastPlace n) n

theorem toDoubleNat_of_dvd {n : ℕ} (h : lastPlace n ∣ n) : toDoubleNat n = n :=
  roundHalfEven_of_dvd (lastPlace_pos n) h

theorem toDoubleNat_eq {n : ℕ} (h : n ≤ 2 ^ 53) : toDoubleNat n = n := by
  apply toDoubleNat_of_dvd
  rcases h.lt_or_eq with hlt | rfl
  · have hlog : n.log2 - 52 = 0 := by
      by_cases hzero : n = 0
      · simp [hzero]
      · have := (Nat.log2_lt hzero).mpr hlt
        omega
    rw [lastPlace, hlog]
    exact Nat.one_dvd n
  · decide

/-- Rounding stays between the powers of two around a number. -/
theorem two_pow_log2_le_toDoubleNat {n : ℕ} (hn : n ≠ 0) : 2 ^ n.log2 ≤ toDoubleNat n := by
  obtain ⟨k, hk⟩ := lastPlace_dvd (le_refl n.log2)
  rw [hk, Nat.mul_comm]
  apply le_roundHalfEven (lastPlace_pos n)
  rw [Nat.mul_comm, ← hk]
  exact Nat.log2_self_le hn

theorem toDoubleNat_le_two_pow (n : ℕ) : toDoubleNat n ≤ 2 ^ (n.log2 + 1) := by
  obtain ⟨k, hk⟩ := lastPlace_dvd (Nat.le_succ n.log2)
  rw [Nat.succ_eq_add_one] at hk
  rw [hk, Nat.mul_comm]
  apply roundHalfEven_le (lastPlace_pos n)
  rw [Nat.mul_comm, ← hk]
  exact Nat.lt_log2_self.le

theorem toDoubleNat_mono {n m : ℕ} (h : n ≤ m) : toDoubleNat n ≤ toDoubleNat m := by
  by_cases hn : n = 0
  · rw [hn, toDoubleNat_eq (Nat.zero_le _)]
    exact Nat.zero_le _
  have hm : m ≠ 0 := by omega
  have hlog : n.log2 ≤ m.log2 :=
    (Nat.le_log2 hm).mpr ((Nat.log2_self_le hn).trans h)
  rcases hlog.lt_or_eq with hlt | heq
  · calc toDoubleNat n ≤ 2 ^ (n.log2 + 1) := toDoubleNat_le_two_pow n
      _ ≤ 2 ^ m.log2 := Nat.pow_le_pow_right Nat.two_pos hlt
      _ ≤ toDoubleNat m := two_pow_log2_le_toDoubleNat hm
  · rw [toDoubleNat, toDoubleNat, lastPlace, heq]
    exact roundHalfEven_mono h

theorem toDoubleNat_toDoubleNat (n : ℕ) : toDoubleNat (toDoubleNat n) = toDoubleNat n := by
  by_cases hn : n = 0
  · rw [hn, toDoubleNat_eq (Nat.zero_le _), toDoubleNat_eq (Nat.zero_le _)]
  have hlow := two_pow_log2_le_toDoubleNat hn
  have hne : toDoubleNat n ≠ 0 := by
    have := Nat.two_pow_pos n.log2
    omega
  apply toDoubleNat_of_dvd
  rcases (toDoubleNat_le_two_pow n).lt_or_eq with hlt | heq
  · have hlog : (toDoubleNat n).log2 = n.log2 := by
      have hle := (Nat.le_log2 hne).mpr hlow
      have := (Nat.log2_lt hne).mpr hlt
      omega
    rw [lastPlace, hlog]
    exact dvd_roundHalfEven _ n
  · rw [heq]
    exact lastPlace_dvd (by rw [Nat.log2_two_pow])

/-- The double next to an integer. -/
def toDouble (x : ℤ) : ℤ := if 0 ≤ x then toDoubleNat x.natAbs else -toDoubleNat x.natAbs

/-- The integers up to 2^53, which are all doubles. -/
def InDouble (x : ℤ) : Prop := -2 ^ 53 ≤ x ∧ x ≤ 2 ^ 53

instance (x : ℤ) : Decidable (InDouble x) := inferInstanceAs (Decidable (_ ∧ _))

theorem toDouble_eq {x : ℤ} (h : InDouble x) : toDouble x = x := by
  obtain ⟨hlow, hhigh⟩ := h
  rw [toDouble, toDoubleNat_eq (by omega)]
  split <;> omega

theorem toDouble_mono {x y : ℤ} (h : x ≤ y) : toDouble x ≤ toDouble y := by
  unfold toDouble
  split
  · have := toDoubleNat_mono (n := x.natAbs) (m := y.natAbs) (by omega)
    rw [if_pos (by omega)]
    omega
  · split
    · omega
    · have := toDoubleNat_mono (n := y.natAbs) (m := x.natAbs) (by omega)
      omega

theorem toDouble_toDouble (x : ℤ) : toDouble (toDouble x) = toDouble x := by
  have habs : (toDouble x).natAbs = toDoubleNat x.natAbs := by
    unfold toDouble
    split <;> omega
  by_cases hx : 0 ≤ toDouble x
  · rw [toDouble, if_pos hx, habs, toDoubleNat_toDoubleNat]
    omega
  · rw [toDouble, if_neg hx, habs, toDoubleNat_toDoubleNat]
    omega

example : toDouble 10700000000500003 = 10700000000500004 := by decide

end Go42
