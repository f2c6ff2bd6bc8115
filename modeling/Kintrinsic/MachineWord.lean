import Mathlib.Data.Int.Basic
import Mathlib.Data.Nat.Basic
import Mathlib.Tactic.Ring

/-! # Fixed-width arithmetic on naturals

Unsigned 64-bit words are naturals and signed ones integers; what a fixed-width operation
does past the ends of the range is written out: `wrapU64` and `wrapI64` for the plain
operators of an optimised build, `addU64` for the saturating addition. -/
namespace MachineWord

/-- The largest unsigned 64-bit value. -/
def u64Max : Nat := 2 ^ 64 - 1

/-- A 64-bit result that wraps. -/
def wrapU64 (n : Nat) : Nat := n % 2 ^ 64

/-- `u64::saturating_add`. -/
def addU64 (a b : Nat) : Nat := min (a + b) u64Max

/-- The largest unsigned 32-bit value. -/
def u32Max : Nat := 2 ^ 32 - 1

/-- `u32::saturating_add`. -/
def addU32 (a b : Nat) : Nat := min (a + b) u32Max

/-- A signed 64-bit result that wraps. -/
@[irreducible] def wrapI64 (n : Int) : Int := n.bmod (2 ^ 64)

/-- `u64 as i64`. -/
def asI64 (n : Nat) : Int := wrapI64 n

/-- A counter that `n` was added to, or that was left alone when there was nothing to add. -/
def Added (n before after : Nat) : Prop := n = 0 ∧ after = before ∨ after = addU64 before n

/-- Additions to one counter add up. -/
theorem Added.add {n m a b c : Nat} (h : Added n a b) (h' : Added m b c) : Added (n + m) a c := by
  unfold Added addU64 at *
  omega

theorem wrapU64_of_lt {n : Nat} (h : n < 2 ^ 64) : wrapU64 n = n := Nat.mod_eq_of_lt h

theorem wrapU64_le (n : Nat) : wrapU64 n ≤ u64Max :=
  Nat.le_sub_one_of_lt (Nat.mod_lt n (by decide))

/-- A signed result within the range is exact. -/
theorem wrapI64_of_mem {n : Int} (hlo : -2 ^ 63 ≤ n) (hhi : n < 2 ^ 63) : wrapI64 n = n := by
  rw [wrapI64]
  exact Int.bmod_eq_of_le_mul_two (by omega) (by omega)

theorem asI64_of_lt {n : Nat} (h : n < 2 ^ 63) : asI64 n = n :=
  wrapI64_of_mem (by omega) (by omega)

theorem addU64_le_max (a b : Nat) : addU64 a b ≤ u64Max := Nat.min_le_right _ _

theorem addU64_le_add (a b : Nat) : addU64 a b ≤ a + b := Nat.min_le_left _ _

theorem addU64_of_le {a b : Nat} (h : a + b ≤ u64Max) : addU64 a b = a + b :=
  Nat.min_eq_left h

theorem le_addU64 {a : Nat} (h : a ≤ u64Max) (b : Nat) : a ≤ addU64 a b :=
  Nat.le_min.mpr ⟨Nat.le_add_right a b, h⟩

theorem addU64_mono {a a' b b' : Nat} (ha : a ≤ a') (hb : b ≤ b') :
    addU64 a b ≤ addU64 a' b' := by
  unfold addU64
  omega

/-- Saturating sums may be taken in any grouping. -/
theorem addU64_min_left (a b : Nat) : addU64 (min a u64Max) b = min (a + b) u64Max := by
  unfold addU64
  omega

theorem Added.min_le {n before after : Nat} (h : Added n before after) :
    min (before + n) u64Max ≤ after := by
  rcases h with ⟨rfl, rfl⟩ | rfl
  · exact Nat.min_le_left _ _
  · exact Nat.le_refl _

theorem Added.eq_addU64 {n before after : Nat} (h : Added n before after)
    (hle : before ≤ u64Max) : after = addU64 before n := by
  rcases h with ⟨rfl, rfl⟩ | h
  · exact (Nat.min_eq_left hle).symm
  · exact h

end MachineWord
