import Kintrinsic.LocalTime
import Mathlib.Data.Finset.Card
import Mathlib.Data.Fintype.Card

/-! # Active minutes of a local day

`MinuteSet` is the 1440-slot bitmap of `minutes.rs`, as the set of its set bits.  Marking
only ever adds, and a set has at most 1440 members. -/
namespace Kintrinsic

/-- A day's active minutes. -/
structure MinuteSet where
  bits : Finset (Fin 1440)
deriving DecidableEq

namespace MinuteSet

def minutes : Nat := 1440

/-- The longest local day, twenty-five hours. -/
def maxLocalDayMinutes : Nat := 1500

def empty : MinuteSet := ⟨∅⟩

/-- Out of range is a no-op. -/
def set (s : MinuteSet) (minute : Nat) : MinuteSet :=
  if h : minute < 1440 then ⟨insert ⟨minute, h⟩ s.bits⟩ else s

/-- A minute past the bitmap but inside a 25-hour day lands in the last slot. -/
def setLocalMinute (s : MinuteSet) (minute : Nat) : MinuteSet :=
  if minutes ≤ minute ∧ minute < maxLocalDayMinutes then s.set (minutes - 1) else s.set minute

def count (s : MinuteSet) : Nat := s.bits.card

def isEmpty (s : MinuteSet) : Bool := s.bits = ∅

def union (s t : MinuteSet) : MinuteSet := ⟨s.bits ∪ t.bits⟩

/-- Mark each minute of today touched by the span of `elapsed` seconds that ends at `now`. -/
def markSpan (s : MinuteSet) (tz : Tz) (now : Int) (elapsed : Nat) : MinuteSet :=
  if elapsed = 0 then s
  else
    let ssm := tz.secondOfDay now
    if ssm = 0 then s
    else
      let first := (ssm - elapsed) / 60
      let last := (ssm - 1) / 60
      (List.range' first (last + 1 - first)).foldl setLocalMinute s

/-- The value of a base64url character. -/
def sextet (c : Char) : Option Nat :=
  if c.isUpper then some (c.toNat - 'A'.toNat)
  else if c.isLower then some (c.toNat - 'a'.toNat + 26)
  else if c.isDigit then some (c.toNat - '0'.toNat + 52)
  else if c = '-' then some 62
  else if c = '_' then some 63
  else none

/-- Byte `j` of the bitmap, from its quad of sextets. -/
def byteAt (vals : List Nat) (j : Nat) : Nat :=
  let quad := 4 * (j / 3)
  let n := vals.getD quad 0 * 2 ^ 18 + vals.getD (quad + 1) 0 * 2 ^ 12 +
    vals.getD (quad + 2) 0 * 2 ^ 6 + vals.getD (quad + 3) 0
  n / 2 ^ (16 - 8 * (j % 3)) % 256

/-- `from_b64url`: exactly 240 characters of the alphabet. -/
def fromB64url (s : String) : Option MinuteSet :=
  if s.utf8ByteSize ≠ 240 ∨ s.toList.any (fun c => 128 ≤ c.toNat) then none
  else
    (s.toList.mapM sextet).map fun vals =>
      ⟨Finset.univ.filter fun i : Fin 1440 => (byteAt vals (i.val / 8)).testBit (i.val % 8)⟩

variable (s t : MinuteSet)

theorem subset_set (minute : Nat) : s.bits ⊆ (s.set minute).bits := by
  unfold set
  split
  · exact Finset.subset_insert _ _
  · exact Finset.Subset.refl _

theorem subset_setLocalMinute (minute : Nat) : s.bits ⊆ (s.setLocalMinute minute).bits := by
  unfold setLocalMinute
  split <;> exact subset_set _ _

theorem subset_foldl (l : List Nat) : s.bits ⊆ (l.foldl setLocalMinute s).bits := by
  induction l generalizing s with
  | nil => exact Finset.Subset.refl _
  | cons m l ih => exact (subset_setLocalMinute s m).trans (ih _)

/-- Marking never unmarks. -/
theorem subset_markSpan (tz : Tz) (now : Int) (elapsed : Nat) :
    s.bits ⊆ (s.markSpan tz now elapsed).bits := by
  unfold markSpan
  split
  · exact Finset.Subset.refl _
  · dsimp only
    split
    · exact Finset.Subset.refl _
    · exact subset_foldl _ _

theorem count_le (s : MinuteSet) : s.count ≤ 1440 := by
  have h := Finset.card_le_univ s.bits
  rwa [Fintype.card_fin] at h

theorem count_mono {s t : MinuteSet} (h : s.bits ⊆ t.bits) : s.count ≤ t.count :=
  Finset.card_le_card h

theorem count_union_mono {s t u : MinuteSet} (h : s.bits ⊆ t.bits) :
    (s.union u).count ≤ (t.union u).count :=
  count_mono (Finset.union_subset_union_left h)

theorem union_comm : s.union t = t.union s := by
  rw [union, union, Finset.union_comm]

end MinuteSet
end Kintrinsic
