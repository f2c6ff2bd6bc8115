import Mathlib.Data.Nat.Log
import Mathlib.Tactic.Ring

/-! # Naturals as binary64 reads them

What a number of JSON is once it has been read into 53 bits of significand: itself up to `2 ^ 53`,
and rounded half to even above. -/
namespace Binary64

/-- `n / 2 ^ k`, rounded half to even. -/
def roundEven (k n : Nat) : Nat :=
  if 2 * (n % 2 ^ k) < 2 ^ k ∨ 2 * (n % 2 ^ k) = 2 ^ k ∧ n / 2 ^ k % 2 = 0 then n / 2 ^ k
  else n / 2 ^ k + 1

/-- The bits of `n` below the significand. -/
def excess (n : Nat) : Nat := Nat.log 2 n - 52

def ofNat (n : Nat) : Nat := if n < 2 ^ 53 then n else roundEven (excess n) n * 2 ^ excess n

/-- **What fits is exact.** -/
theorem ofNat_of_le {n : Nat} (h : n ≤ 2 ^ 53) : ofNat n = n := by
  rcases Nat.lt_or_eq_of_le h with hlt | rfl
  · exact if_pos hlt
  · decide +kernel

theorem roundEven_mono (k : Nat) {n m : Nat} (h : n ≤ m) : roundEven k n ≤ roundEven k m := by
  have hquot : n / 2 ^ k ≤ m / 2 ^ k := Nat.div_le_div_right h
  have hn := Nat.div_add_mod n (2 ^ k)
  have hm := Nat.div_add_mod m (2 ^ k)
  unfold roundEven
  rcases Nat.lt_or_eq_of_le hquot with hlt | heq
  · split <;> split <;> omega
  · rw [heq] at hn ⊢
    split <;> split <;> omega

theorem le_roundEven (k n : Nat) : n / 2 ^ k ≤ roundEven k n := by
  unfold roundEven
  split
  · exact le_rfl
  · exact Nat.le_succ _

theorem roundEven_le (k n : Nat) : roundEven k n ≤ n / 2 ^ k + 1 := by
  unfold roundEven
  split
  · exact Nat.le_succ _
  · exact le_rfl

section
variable {n : Nat} (h : 2 ^ 53 ≤ n)
include h

theorem log_eq : Nat.log 2 n = 52 + excess n := by
  have hlog : 53 ≤ Nat.log 2 n := Nat.le_log_of_pow_le (by decide) h
  unfold excess
  omega

theorem pow_log_le_ofNat : 2 ^ Nat.log 2 n ≤ ofNat n := by
  have hpow : 2 ^ Nat.log 2 n ≤ n := Nat.pow_log_le_self 2 (by omega)
  have hquot : 2 ^ 52 ≤ n / 2 ^ excess n := by
    rw [Nat.le_div_iff_mul_le (Nat.two_pow_pos _), ← pow_add, ← log_eq h]
    exact hpow
  rw [ofNat, if_neg (Nat.not_lt.mpr h), log_eq h, pow_add]
  exact Nat.mul_le_mul_right _ (hquot.trans (le_roundEven _ _))

theorem ofNat_le_pow_log : ofNat n ≤ 2 ^ (Nat.log 2 n + 1) := by
  have hpow : n < 2 ^ (Nat.log 2 n + 1) := Nat.lt_pow_succ_log_self (by decide) n
  have hquot : n / 2 ^ excess n < 2 ^ 53 := by
    rw [Nat.div_lt_iff_lt_mul (Nat.two_pow_pos _), ← pow_add]
    rw [log_eq h] at hpow
    exact hpow.trans_eq (by ring)
  rw [ofNat, if_neg (Nat.not_lt.mpr h), log_eq h]
  calc roundEven (excess n) n * 2 ^ excess n ≤ 2 ^ 53 * 2 ^ excess n :=
        Nat.mul_le_mul_right _ ((roundEven_le _ _).trans hquot)
    _ = 2 ^ (52 + excess n + 1) := by ring

end

/-- **Reading keeps the order**, though not strictly. -/
theorem ofNat_mono {n m : Nat} (h : n ≤ m) : ofNat n ≤ ofNat m := by
  by_cases hm : m < 2 ^ 53
  · rw [ofNat_of_le (h.trans hm.le), ofNat_of_le hm.le]
    exact h
  · have hm : 2 ^ 53 ≤ m := Nat.not_lt.mp hm
    by_cases hn : n < 2 ^ 53
    · have hlog : 53 ≤ Nat.log 2 m := Nat.le_log_of_pow_le (by decide) hm
      rw [ofNat_of_le hn.le]
      exact hn.le.trans ((Nat.pow_le_pow_right (by decide) hlog).trans (pow_log_le_ofNat hm))
    · have hn : 2 ^ 53 ≤ n := Nat.not_lt.mp hn
      rcases Nat.lt_or_eq_of_le (Nat.log_mono_right (b := 2) h) with hlt | heq
      · exact (ofNat_le_pow_log hn).trans
          ((Nat.pow_le_pow_right (by decide) hlt).trans (pow_log_le_ofNat hm))
      · have hexcess : excess n = excess m := congrArg (· - 52) heq
        rw [ofNat, ofNat, if_neg (Nat.not_lt.mpr hn), if_neg (Nat.not_lt.mpr hm), hexcess]
        exact Nat.mul_le_mul_right _ (roundEven_mono _ h)

end Binary64
