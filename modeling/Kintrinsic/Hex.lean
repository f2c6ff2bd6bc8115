import Mathlib.Data.List.Basic
import Mathlib.Tactic.Ring

/-! # Fixed-width lowercase hex

A number below `16 ^ n` as `n` digits, most significant first, and back.  Decoding is strict: it
takes the exact length and the digits `0-9a-f` only. -/
namespace Hex

def digit (n : Nat) : Char := "0123456789abcdef".toList.getD n '0'

/-- The value of a digit. -/
def value? (c : Char) : Option Nat :=
  if '0' ≤ c ∧ c ≤ '9' then some (c.toNat - '0'.toNat)
  else if 'a' ≤ c ∧ c ≤ 'f' then some (c.toNat - 'a'.toNat + 10)
  else none

/-- The last `n` digits of a number. -/
def digits : Nat → Nat → List Char
  | 0, _ => []
  | n + 1, x => digits n (x / 16) ++ [digit (x % 16)]

/-- Read digits on from a number. -/
def readFrom : Nat → List Char → Option Nat
  | acc, [] => some acc
  | acc, c :: cs => (value? c).bind fun v => readFrom (16 * acc + v) cs

/-- Strict decoding of exactly `n` digits. -/
def read (n : Nat) (cs : List Char) : Option Nat :=
  if cs.length = n then readFrom 0 cs else none

theorem value?_digit {n : Nat} (h : n < 16) : value? (digit n) = some n := by
  have hall : ∀ n < 16, value? (digit n) = some n := by decide
  exact hall n h

@[simp] theorem length_digits (n x : Nat) : (digits n x).length = n := by
  induction n generalizing x with
  | zero => rfl
  | succ n ih => rw [digits, List.length_append, ih, List.length_singleton]

theorem readFrom_append (acc : Nat) (cs ds : List Char) :
    readFrom acc (cs ++ ds) = (readFrom acc cs).bind fun a => readFrom a ds := by
  induction cs generalizing acc with
  | nil => rfl
  | cons c cs ih =>
    rw [List.cons_append, readFrom, readFrom]
    cases value? c with
    | none => rfl
    | some v => exact ih _

theorem readFrom_digits (n acc x : Nat) :
    readFrom acc (digits n x) = some (16 ^ n * acc + x % 16 ^ n) := by
  induction n generalizing acc x with
  | zero => simp [digits, readFrom, Nat.mod_one]
  | succ n ih =>
    have hmod : x % 16 ^ (n + 1) = 16 * (x / 16 % 16 ^ n) + x % 16 := by
      rw [pow_succ, mul_comm, Nat.mod_mul]
      omega
    rw [digits, readFrom_append, ih, Option.bind_some, readFrom, value?_digit (Nat.mod_lt _ (by omega)),
      Option.bind_some, readFrom, hmod, pow_succ]
    congr 1
    ring

/-- **Round trip.** -/
theorem read_digits {n x : Nat} (h : x < 16 ^ n) : read n (digits n x) = some x := by
  rw [read, if_pos (length_digits n x), readFrom_digits, Nat.mod_eq_of_lt h, mul_zero, zero_add]

theorem digits_inj {n x y : Nat} (hx : x < 16 ^ n) (hy : y < 16 ^ n)
    (h : digits n x = digits n y) : x = y := by
  have hread := read_digits hx
  rw [h, read_digits hy] at hread
  exact (Option.some.inj hread).symm

/-- What is no digit stands nowhere among the digits. -/
theorem notMem_digits {c : Char} (hdigit : ∀ k < 16, digit k ≠ c) (n x : Nat) :
    c ∉ digits n x := by
  induction n generalizing x with
  | zero => exact List.not_mem_nil
  | succ n ih =>
    rw [digits, List.mem_append, List.mem_singleton]
    rintro (h | h)
    · exact ih _ h
    · exact hdigit _ (Nat.mod_lt x (by omega)) h.symm

/-- A digit is never a line break. -/
theorem newline_notMem_digits (n x : Nat) : '\n' ∉ digits n x := notMem_digits (by decide) n x

end Hex
