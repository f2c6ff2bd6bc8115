import Mathlib

/-! # Countdowns that may be unbounded

A countdown is a number of seconds or unbounded.  Programs write it as a signed integer, a
negative one standing for unbounded, or as an optional remainder that reads zero when it is
overdrawn. -/
namespace Countdown

/-- The countdown a signed number of seconds stands for. -/
def ofSecs (n : Int) : WithTop Nat := if n < 0 then ⊤ else .some n.toNat

/-- The countdown of an optional remainder, an overdrawn one being spent. -/
def ofLeft : Option Int → WithTop Nat
  | none => ⊤
  | some n => .some n.toNat

theorem ofSecs_of_neg {n : Int} (h : n < 0) : ofSecs n = ⊤ := if_pos h

theorem ofSecs_of_nonneg {n : Int} (h : 0 ≤ n) : ofSecs n = .some n.toNat :=
  if_neg (not_lt.mpr h)

/-- A larger number of seconds, or an unbounded one, is a longer countdown. -/
theorem ofSecs_le_ofSecs {a b : Int} : ofSecs a ≤ ofSecs b ↔ b < 0 ∨ 0 ≤ a ∧ a ≤ b := by
  by_cases hb : b < 0
  · simp only [ofSecs_of_neg hb, le_top, hb, true_or]
  by_cases ha : a < 0
  · rw [ofSecs_of_neg ha, ofSecs_of_nonneg (not_lt.mp hb), top_le_iff]
    constructor
    · intro h
      exact absurd h (WithTop.coe_ne_top)
    · intro h
      omega
  · rw [ofSecs_of_nonneg (not_lt.mp ha), ofSecs_of_nonneg (not_lt.mp hb), WithTop.coe_le_coe]
    omega

theorem ofSecs_eq_zero {n : Int} : ofSecs n = .some 0 ↔ n = 0 := by
  by_cases h : n < 0
  · rw [ofSecs_of_neg h]
    constructor
    · intro htop
      exact absurd htop.symm WithTop.coe_ne_top
    · intro hn
      omega
  · rw [ofSecs_of_nonneg (not_lt.mp h), WithTop.coe_inj]
    omega

theorem ofSecs_pos {n : Int} (h : n ≠ 0) : .some 0 < ofSecs n :=
  bot_lt_iff_ne_bot.mpr fun hzero => h (ofSecs_eq_zero.mp hzero)

/-- A remainder that is not spent, or none at all. -/
theorem ofLeft_pos {left : Option Int} (h : ∀ n ∈ left, 0 < n) : .some 0 < ofLeft left := by
  cases left with
  | none => exact WithTop.coe_lt_top 0
  | some n =>
    have hn := h n rfl
    refine WithTop.coe_lt_coe.mpr ?_
    omega

theorem ofSecs_min {a b : Int} (ha : 0 ≤ a) (hb : 0 ≤ b) :
    ofSecs (min a b) = min (ofSecs a) (ofSecs b) := by
  rcases le_total a b with h | h
  · rw [min_eq_left h, min_eq_left (ofSecs_le_ofSecs.mpr (Or.inr ⟨ha, h⟩))]
  · rw [min_eq_right h, min_eq_right (ofSecs_le_ofSecs.mpr (Or.inr ⟨hb, h⟩))]

/-- Clamped at zero, a remainder is its countdown. -/
theorem ofSecs_max_zero (n : Int) : ofSecs (max n 0) = ofLeft (some n) := by
  rw [ofSecs_of_nonneg (le_max_right n 0), ofLeft]
  congr 1
  omega

/-- Of two remainders the smaller is the shorter countdown. -/
theorem ofLeft_min (a b : Int) :
    ofLeft (some (min a b)) = min (ofLeft (some a)) (ofLeft (some b)) := by
  simp only [ofLeft]
  rw [← WithTop.coe_min]
  congr 1
  omega

theorem ofLeft_mono {a b : Int} (h : a ≤ b) : ofLeft (some a) ≤ ofLeft (some b) :=
  WithTop.coe_le_coe.mpr (Int.toNat_le_toNat h)

/-! ## A second less -/

/-- A remainder that loses a second at most. -/
theorem ofLeft_second {a b : Int} (h : a ≤ b + 1) : ofLeft (some a) ≤ ofLeft (some b) + 1 := by
  have hle : a.toNat ≤ b.toNat + 1 := by omega
  show (a.toNat : WithTop Nat) ≤ (b.toNat : WithTop Nat) + 1
  exact_mod_cast hle

theorem ofLeft_map_second {α : Type} {xs : Option α} {f g : α → Int} (h : ∀ x, f x ≤ g x + 1) :
    ofLeft (xs.map f) ≤ ofLeft (xs.map g) + 1 := by
  cases xs with
  | none => exact le_rfl
  | some x => exact ofLeft_second (h x)

/-- The least of two countdowns loses no more than they do. -/
theorem min_second {a a' b b' : WithTop Nat} (ha : a ≤ a' + 1) (hb : b ≤ b' + 1) :
    min a b ≤ min a' b' + 1 := by
  rcases le_total a' b' with h | h
  · rw [min_eq_left h]
    exact (min_le_left _ _).trans ha
  · rw [min_eq_right h]
    exact (min_le_right _ _).trans hb

/-- A countdown that covers a second and some more covers the rest a second later. -/
theorem le_of_second {p : Nat} {a a' : WithTop Nat} (h : ((p + 1 : Nat) : WithTop Nat) ≤ a)
    (hsecond : a ≤ a' + 1) : (p : WithTop Nat) ≤ a' := by
  have hle := h.trans hsecond
  cases a' with
  | top => exact le_top
  | coe n =>
    have hsum : ((p + 1 : Nat) : WithTop Nat) ≤ ((n + 1 : Nat) : WithTop Nat) := hle
    have hnat : p + 1 ≤ n + 1 := WithTop.coe_le_coe.mp hsum
    exact WithTop.coe_le_coe.mpr (Nat.le_of_succ_le_succ hnat)

end Countdown
