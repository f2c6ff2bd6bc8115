import Kintrinsic.LocalTime

/-! # Dates as the guardian reads them

`Intl` writes a year with the digits it has and no sign; the device pads it to four.  The two spell a
date alike while years have four digits. -/
namespace Kintrinsic

open CivilDate

/-- The year as `Intl` writes it, without its era. -/
def jsYearDigits (y : Int) : List Char := Nat.toDigits 10 (if 0 < y then y else 1 - y).toNat

/-- `dayKey` of `tzDayParts`, of a day. -/
def jsDayKey (n : Int) : String :=
  String.ofList (jsYearDigits (civil n).year ++ monthDayDigits (civil n))

/-- `tzDayParts`: the calendar day and the seconds into it. -/
def tzDayParts (tz : Tz) (atSecs : Int) : String × Nat :=
  (jsDayKey (tz.localDay atSecs), tz.secondOfDay atSecs)

/-- The year of `Date.UTC`: those of two digits are of the last century but one. -/
def dateUtcYear (y : Int) : Int := if 0 ≤ y ∧ y ≤ 99 then 1900 + y else y

/-- `weekdayOf`: days from Sunday. -/
def weekdayOf (dayKey : String) : Option Nat :=
  match dayKey.toList.splitOn '-' with
  | [y, m, d] =>
    some (daysFromSunday
      (Date.mk (dateUtcYear (digitsValue y)) (digitsValue m) (digitsValue d)).toDay).toNat
  | _ => none

/-- The days whose year is written alike by both sides. -/
def PlainYear (n : Int) : Prop := 1000 ≤ (civil n).year ∧ (civil n).year ≤ 9999

instance (n : Int) : Decidable (PlainYear n) := inferInstanceAs (Decidable (_ ∧ _))

theorem toDigits_four {n : Nat} (hlo : 1000 ≤ n) (hhi : n ≤ 9999) :
    Nat.toDigits 10 n = padDigits 4 n := by
  rw [Nat.toDigits_of_base_le (by decide) (by omega), Nat.toDigits_of_base_le (by decide) (by omega),
    Nat.toDigits_of_base_le (by decide) (by omega), Nat.toDigits_of_lt_base (by omega)]
  have h1 : n / 10 / 10 / 10 = n / 10 ^ 3 % 10 := by omega
  have h2 : n / 10 / 10 % 10 = n / 10 ^ 2 % 10 := by omega
  have h3 : n / 10 % 10 = n / 10 ^ 1 % 10 := by omega
  have h4 : n % 10 = n / 10 ^ 0 % 10 := by omega
  rw [h1, h2, h3, h4]
  rfl

theorem jsDayKey_eq {n : Int} (h : PlainYear n) : jsDayKey n = dateKey n := by
  obtain ⟨hlo, hhi⟩ := h
  unfold jsDayKey dateKey jsYearDigits yearDigits
  rw [if_pos (by omega), if_pos (by omega), toDigits_four (by omega) (by omega)]

theorem dash_notMem_padDigits (w n : Nat) : '-' ∉ padDigits w n := by
  induction w with
  | zero => exact List.not_mem_nil
  | succ w ih =>
    rw [padDigits, List.mem_cons, not_or]
    refine ⟨?_, ih⟩
    intro h
    have htoNat := congrArg Char.toNat h
    rw [Nat.toNat_digitChar_of_lt_ten (Nat.mod_lt _ (by decide))] at htoNat
    change 45 = _ at htoNat
    omega

/-- **The weekday read off a date key** is that of the day. -/
theorem weekdayOf_jsDayKey {n : Int} (h : PlainYear n) :
    weekdayOf (jsDayKey n) = some (daysFromSunday n).toNat := by
  have hbounds := civil_bounds n
  obtain ⟨hlo, hhi⟩ := h
  have hsplit : (jsDayKey n).toList.splitOn '-' =
      [padDigits 4 (civil n).year.toNat, padDigits 2 (civil n).month, padDigits 2 (civil n).day] := by
    unfold jsDayKey jsYearDigits monthDayDigits
    rw [String.toList_ofList, if_pos (by omega),
      toDigits_four (by omega) (by omega), List.cons_append,
      List.splitOn_append_cons_self_of_not_mem (dash_notMem_padDigits _ _),
      List.splitOn_append_cons_self_of_not_mem (dash_notMem_padDigits _ _),
      List.splitOn_eq_singleton (dash_notMem_padDigits _ _)]
  have hyear : dateUtcYear ((civil n).year.toNat : Int) = (civil n).year := by
    unfold dateUtcYear
    rw [if_neg (by omega)]
    omega
  unfold weekdayOf
  rw [hsplit]
  dsimp only
  rw [digitsValue_padDigits (by omega), digitsValue_padDigits hbounds.1,
    digitsValue_padDigits hbounds.2, hyear]
  exact congrArg (fun m => some (daysFromSunday m).toNat) (toDay_civil n)

end Kintrinsic
