import Kintrinsic.CivilDate

/-! # Weeks and the keys of their first days

The weeks that begin on one weekday partition the days.  The keys of their first days sort as
the weeks do for all days of four-digit years, the first of which begins its week in the year
before 0000. -/
namespace CivilDate

variable {first n m : Int}

/-- First days of weeks are whole weeks apart. -/
theorem weekStartDay_aligned (first n : Int) : (weekStartDay first n + 4 - first) % 7 = 0 := by
  unfold weekStartDay daysFromSunday
  omega

theorem weekStartDay_bounds (first n : Int) :
    weekStartDay first n ≤ n ∧ n < weekStartDay first n + 7 := by
  unfold weekStartDay daysFromSunday
  omega

/-- Weeks follow the days. -/
theorem weekStartDay_mono (h : n ≤ m) : weekStartDay first n ≤ weekStartDay first m := by
  have hn := weekStartDay_aligned first n
  have hm := weekStartDay_aligned first m
  have hbn := weekStartDay_bounds first n
  have hbm := weekStartDay_bounds first m
  omega

/-- A week that begins after another and at most seven days later is the next. -/
theorem weekStartDay_next (h : weekStartDay first n ≤ weekStartDay first m)
    (hle : weekStartDay first m - weekStartDay first n ≤ 7) :
    weekStartDay first m = weekStartDay first n ∨
      weekStartDay first m = weekStartDay first n + 7 := by
  have hn := weekStartDay_aligned first n
  have hm := weekStartDay_aligned first m
  omega

/-- 0000-01-01. -/
def yearZero : Int := -719528

theorem civil_yearZero : civil yearZero = ⟨0, 1, 1⟩ := by decide

theorem civil_pos (n : Int) : 0 < (civil n).month ∧ 0 < (civil n).day := by
  have hdoy := dayOfYear_bounds n
  simp only [civil, MarchDate.toDate]
  omega

/-- Years do not go back. -/
theorem civil_year_mono (h : n ≤ m) : (civil n).year ≤ (civil m).year := by
  rcases h.lt_or_eq with hlt | rfl
  · rcases civil_before hlt with hyear | ⟨hyear, -⟩
    · exact hyear.le
    · exact hyear.le
  · exact le_refl _

theorem year_nonneg_iff : 0 ≤ (civil n).year ↔ yearZero ≤ n := by
  constructor
  · intro hyear
    by_contra hlt
    have hpos := civil_pos n
    have hbefore := civil_before (not_le.mp hlt)
    rw [civil_yearZero] at hbefore
    unfold Date.Before at hbefore
    dsimp only at hbefore
    omega
  · intro hle
    have hyear := civil_year_mono hle
    rwa [civil_yearZero] at hyear

/-- The key of a day before the year 0000 begins with a sign, which sorts before a digit. -/
theorem dateKey_lt_of_neg (hn : n < yearZero) (hm : FourDigitYear m) :
    dateKey n < dateKey m := by
  have hneg : (civil n).year < 0 := by
    rw [← not_le, year_nonneg_iff, not_le]
    exact hn
  have hyn : yearDigits (civil n).year = signedDigits (civil n).year :=
    if_neg (fun h => absurd h.1 (not_le.mpr hneg))
  have hym : yearDigits (civil m).year = padDigits 4 (civil m).year.toNat := if_pos hm
  rw [dateKey, dateKey, String.lt_iff_toList_lt, String.toList_ofList, String.toList_ofList,
    hyn, hym, signedDigits, if_pos hneg, padDigits]
  refine List.cons_lt_cons_iff.mpr (Or.inl ?_)
  have hdigit := Nat.toNat_digitChar_of_lt_ten
    (Nat.mod_lt ((civil m).year.toNat / 10 ^ 3) (by decide : 0 < 10))
  change '-'.toNat < (Nat.digitChar _).toNat
  have hsign : '-'.toNat = 45 := rfl
  rw [hdigit, hsign]
  omega

/-- The week of a day of a four-digit year begins in one, or before them all. -/
theorem weekStartDay_year (first : Int) (hn : FourDigitYear n) :
    FourDigitYear (weekStartDay first n) ∨ weekStartDay first n < yearZero := by
  by_cases h : yearZero ≤ weekStartDay first n
  · have hyear := civil_year_mono (weekStartDay_bounds first n).1
    exact Or.inl ⟨year_nonneg_iff.mpr h, hyear.trans hn.2⟩
  · exact Or.inr (not_le.mp h)

theorem weekKey_lt (hn : FourDigitYear n) (hm : FourDigitYear m)
    (h : weekStartDay first n < weekStartDay first m) :
    dateKey (weekStartDay first n) < dateKey (weekStartDay first m) := by
  rcases weekStartDay_year first hm with hmyear | hmneg
  · rcases weekStartDay_year first hn with hnyear | hnneg
    · exact dateKey_lt hnyear hmyear h
    · exact dateKey_lt_of_neg hnneg hmyear
  · -- only one week reaches back before the year 0000
    have hzero := year_nonneg_iff.mp hn.1
    have hbound := weekStartDay_bounds first n
    have hna := weekStartDay_aligned first n
    have hma := weekStartDay_aligned first m
    omega

/-- **Keys of weeks sort as the weeks do**, for days of four-digit years. -/
theorem weekKey_lt_iff (hn : FourDigitYear n) (hm : FourDigitYear m) :
    dateKey (weekStartDay first n) < dateKey (weekStartDay first m) ↔
      weekStartDay first n < weekStartDay first m := by
  refine ⟨fun hkey => ?_, weekKey_lt hn hm⟩
  rcases lt_trichotomy (weekStartDay first n) (weekStartDay first m) with hlt | heq | hgt
  · exact hlt
  · rw [heq] at hkey
    exact absurd hkey (lt_irrefl _)
  · exact absurd (hkey.trans (weekKey_lt hm hn hgt)) (lt_irrefl _)

end CivilDate
