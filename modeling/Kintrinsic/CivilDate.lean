import Mathlib.Data.String.Basic
import Mathlib.Data.List.Basic
import Mathlib.Tactic.Ring
import Mathlib.Tactic.SplitIfs

/-! # Civil dates and their sortable keys

Days are counted from 1970-01-01.  A date key is the `YYYY-MM-DD` text of a day in the
proleptic Gregorian calendar; a year outside 0000 to 9999 is written with its sign.  Keys
are distinct for distinct days, and they sort as the days do while years have four digits. -/
namespace CivilDate

/-! ## Digits of a fixed width -/

/-- The last `w` decimal digits of `n`, most significant first. -/
def padDigits : Nat → Nat → List Char
  | 0, _ => []
  | w + 1, n => Nat.digitChar (n / 10 ^ w % 10) :: padDigits w n

@[simp] theorem length_padDigits (w n : Nat) : (padDigits w n).length = w := by
  induction w with
  | zero => rfl
  | succ w ih => simp [padDigits, ih]

theorem digitChar_lt {a b : Nat} (hab : a < b) (hb : b < 10) :
    Nat.digitChar a < Nat.digitChar b := by
  have ha : (Nat.digitChar a).toNat = 48 + a := Nat.toNat_digitChar_of_lt_ten (by omega)
  have hb' : (Nat.digitChar b).toNat = 48 + b := Nat.toNat_digitChar_of_lt_ten hb
  change (Nat.digitChar a).toNat < (Nat.digitChar b).toNat
  omega

theorem mod_pow_succ (n w : Nat) :
    n % 10 ^ (w + 1) = 10 ^ w * (n / 10 ^ w % 10) + n % 10 ^ w := by
  rw [Nat.pow_succ, Nat.mod_mul]
  omega

/-- Digits of one width sort as the numbers do. -/
theorem padDigits_lt {w n m : Nat} (h : n % 10 ^ w < m % 10 ^ w) :
    padDigits w n < padDigits w m := by
  induction w with
  | zero => simp [Nat.mod_one] at h
  | succ w ih =>
    rw [mod_pow_succ, mod_pow_succ] at h
    have hpos : 0 < 10 ^ w := Nat.pow_pos (by decide)
    have hn := Nat.mod_lt n hpos
    have hm := Nat.mod_lt m hpos
    refine List.cons_lt_cons_iff.mpr ?_
    rcases Nat.lt_trichotomy (n / 10 ^ w % 10) (m / 10 ^ w % 10) with hlt | heq | hgt
    · exact Or.inl (digitChar_lt hlt (Nat.mod_lt _ (by decide)))
    · rw [heq] at h ⊢
      exact Or.inr ⟨rfl, ih (by omega)⟩
    · have hmul : 10 ^ w * (m / 10 ^ w % 10 + 1) ≤ 10 ^ w * (n / 10 ^ w % 10) :=
        Nat.mul_le_mul_left _ hgt
      rw [Nat.mul_succ] at hmul
      omega

theorem padDigits_inj {w n m : Nat} (hn : n < 10 ^ w) (hm : m < 10 ^ w)
    (h : padDigits w n = padDigits w m) : n = m := by
  rcases Nat.lt_trichotomy n m with hlt | heq | hgt
  · have hk : padDigits w n < padDigits w m :=
      padDigits_lt (by rwa [Nat.mod_eq_of_lt hn, Nat.mod_eq_of_lt hm])
    rw [h] at hk
    exact absurd hk (lt_irrefl _)
  · exact heq
  · have hk : padDigits w m < padDigits w n :=
      padDigits_lt (by rwa [Nat.mod_eq_of_lt hn, Nat.mod_eq_of_lt hm])
    rw [h] at hk
    exact absurd hk (lt_irrefl _)

/-- A first part of equal length decides the order of two texts. -/
theorem append_lt_append {α : Type} [LT α] {a b : List α} (hlen : a.length = b.length)
    (h : a < b) (s t : List α) : a ++ s < b ++ t := by
  induction a generalizing b with
  | nil =>
    cases b with
    | nil => exact absurd h (List.not_lt_nil _)
    | cons y b => simp at hlen
  | cons x a ih =>
    cases b with
    | nil => simp at hlen
    | cons y b =>
      rw [List.cons_append, List.cons_append, List.cons_lt_cons_iff]
      rcases List.cons_lt_cons_iff.mp h with hxy | ⟨rfl, hab⟩
      · exact Or.inl hxy
      · exact Or.inr ⟨rfl, ih (by simpa using hlen) hab⟩

/-! ## Days and dates -/

@[ext]
structure Date where
  year : Int
  month : Nat
  day : Nat
deriving DecidableEq

/-- A year that begins in March, so that a leap day ends it, and the day within it. -/
@[ext]
structure MarchDate where
  year : Int
  dayOfYear : Int

/-- Days since the first of March of the year 0. -/
def marchDay (n : Int) : Int := n + 719468

/-- How many whole units a remainder holds; the last unit takes the cycle's extra day. -/
def unitOf (size last r : Int) : Int := min last (r / size)

/-- Eras of 400 years, centuries, cycles of four years, years. -/
def marchDate (n : Int) : MarchDate :=
  let era := marchDay n / 146097
  let ofEra := marchDay n % 146097
  let century := unitOf 36524 3 ofEra
  let ofCentury := ofEra - 36524 * century
  let cycle := unitOf 1461 24 ofCentury
  let ofCycle := ofCentury - 1461 * cycle
  let year := unitOf 365 3 ofCycle
  ⟨400 * era + 100 * century + 4 * cycle + year, ofCycle - 365 * year⟩

/-- The months from March have 31 and 30 days in turn, restarting after five. -/
def MarchDate.toDate (d : MarchDate) : Date :=
  let mp := (5 * d.dayOfYear + 2) / 153
  let months := 12 * d.year + mp + 2
  ⟨months / 12, (months % 12 + 1).toNat, (d.dayOfYear - (153 * mp + 2) / 5 + 1).toNat⟩

/-- The proleptic Gregorian date of a day. -/
def civil (n : Int) : Date := (marchDate n).toDate

example : civil 0 = ⟨1970, 1, 1⟩ ∧ civil 11016 = ⟨2000, 2, 29⟩ ∧ civil 2932897 = ⟨10000, 1, 1⟩ := by
  decide

/-- A later remainder holds more units, or as many and a larger rest. -/
theorem unitOf_lex (size last : Int) {r r' : Int} (hsize : 0 < size) (h : r < r') :
    unitOf size last r < unitOf size last r' ∨
      unitOf size last r = unitOf size last r' ∧
        r - size * unitOf size last r < r' - size * unitOf size last r' := by
  have hdiv : r / size ≤ r' / size := Int.ediv_le_ediv hsize h.le
  by_cases heq : unitOf size last r = unitOf size last r'
  · exact Or.inr ⟨heq, by rw [heq]; omega⟩
  · left
    unfold unitOf at heq ⊢
    omega

theorem unitOf_bounds (size last : Int) {r : Int} (hsize : 0 < size) (hlast : 0 ≤ last) (hr : 0 ≤ r) :
    0 ≤ unitOf size last r ∧ unitOf size last r ≤ last ∧ 0 ≤ r - size * unitOf size last r := by
  have hdiv : 0 ≤ r / size := Int.ediv_nonneg hr hsize.le
  have hle : unitOf size last r ≤ r / size := Int.min_le_right _ _
  have hmul : size * unitOf size last r ≤ size * (r / size) :=
    Int.mul_le_mul_of_nonneg_left hle hsize.le
  have hself : size * (r / size) ≤ r := Int.mul_ediv_self_le hsize.ne'
  unfold unitOf at hmul ⊢
  omega

theorem dayOfYear_bounds (n : Int) :
    0 ≤ (marchDate n).dayOfYear ∧ (marchDate n).dayOfYear ≤ 365 := by
  simp only [marchDate, unitOf]
  omega

/-- Years, and days within a year, follow the days. -/
theorem marchDate_lex {n m : Int} (h : n < m) :
    (marchDate n).year < (marchDate m).year ∨
      (marchDate n).year = (marchDate m).year ∧
        (marchDate n).dayOfYear < (marchDate m).dayOfYear := by
  have hera : marchDay n / 146097 < marchDay m / 146097 ∨
      marchDay n / 146097 = marchDay m / 146097 ∧ marchDay n % 146097 < marchDay m % 146097 := by
    unfold marchDay
    omega
  have hn := Int.emod_nonneg (marchDay n) (b := 146097) (by decide)
  have hm := Int.emod_nonneg (marchDay m) (b := 146097) (by decide)
  simp only [marchDate]
  generalize marchDay n / 146097 = era at *
  generalize marchDay m / 146097 = era' at *
  generalize marchDay n % 146097 = r at *
  generalize marchDay m % 146097 = r' at *
  -- one unit after the other: the first that differs decides
  obtain ⟨hc, hc3, hr⟩ := unitOf_bounds 36524 3 (by decide) (by decide) hn
  obtain ⟨hc', hc3', hr'⟩ := unitOf_bounds 36524 3 (by decide) (by decide) hm
  have hcentury := fun h : r < r' => unitOf_lex 36524 3 (by decide) h
  generalize unitOf 36524 3 r = c at *
  generalize unitOf 36524 3 r' = c' at *
  generalize r - 36524 * c = s at *
  generalize r' - 36524 * c' = s' at *
  obtain ⟨hq, hq24, hs⟩ := unitOf_bounds 1461 24 (by decide) (by decide) hr
  obtain ⟨hq', hq24', hs'⟩ := unitOf_bounds 1461 24 (by decide) (by decide) hr'
  have hcycle := fun h : s < s' => unitOf_lex 1461 24 (by decide) h
  generalize unitOf 1461 24 s = q at *
  generalize unitOf 1461 24 s' = q' at *
  generalize s - 1461 * q = t at *
  generalize s' - 1461 * q' = t' at *
  obtain ⟨ha, ha3, -⟩ := unitOf_bounds 365 3 (by decide) (by decide) hs
  obtain ⟨ha', ha3', -⟩ := unitOf_bounds 365 3 (by decide) (by decide) hs'
  have hyear := fun h : t < t' => unitOf_lex 365 3 (by decide) h
  rcases hera with hlt | ⟨rfl, hlt⟩
  · omega
  rcases hcentury hlt with hlt | ⟨rfl, hlt⟩
  · omega
  rcases hcycle hlt with hlt | ⟨rfl, hlt⟩
  · omega
  rcases hyear hlt with hlt | ⟨hsame, hlt⟩
  · omega
  · exact Or.inr ⟨by omega, hlt⟩

/-- The order of dates. -/
def Date.Before (d d' : Date) : Prop :=
  d.year < d'.year ∨ d.year = d'.year ∧
    (d.month < d'.month ∨ d.month = d'.month ∧ d.day < d'.day)

theorem civil_bounds (n : Int) :
    (civil n).month < 10 ^ 2 ∧ (civil n).day < 10 ^ 2 := by
  have hdoy := dayOfYear_bounds n
  simp only [civil, MarchDate.toDate]
  omega

/-- **Dates follow the days.** -/
theorem civil_before {n m : Int} (h : n < m) : (civil n).Before (civil m) := by
  have hn := dayOfYear_bounds n
  have hm := dayOfYear_bounds m
  have hlex := marchDate_lex h
  simp only [Date.Before, civil, MarchDate.toDate]
  omega

/-! ## From a date back to its day -/

def Date.toMarchDate (d : Date) : MarchDate :=
  let months := 12 * d.year + d.month - 3
  ⟨months / 12, (153 * (months % 12) + 2) / 5 + d.day - 1⟩

def MarchDate.toDay (d : MarchDate) : Int :=
  365 * d.year + d.year / 4 - d.year / 100 + d.year / 400 + d.dayOfYear - 719468

/-- The day of a date. -/
def Date.toDay (d : Date) : Int := d.toMarchDate.toDay

theorem toMarchDate_toDate {d : MarchDate} (hlo : 0 ≤ d.dayOfYear) (hhi : d.dayOfYear ≤ 365) :
    d.toDate.toMarchDate = d := by
  have hmonths : 12 * d.toDate.year + d.toDate.month - 3 =
      12 * d.year + (5 * d.dayOfYear + 2) / 153 := by
    simp only [MarchDate.toDate]
    omega
  have hmp : 0 ≤ (5 * d.dayOfYear + 2) / 153 ∧ (5 * d.dayOfYear + 2) / 153 ≤ 11 := by omega
  have hday : (d.toDate.day : Int) =
      d.dayOfYear - (153 * ((5 * d.dayOfYear + 2) / 153) + 2) / 5 + 1 := by
    simp only [MarchDate.toDate]
    omega
  have hyear : (12 * d.year + (5 * d.dayOfYear + 2) / 153) / 12 = d.year := by omega
  have hmonth : (12 * d.year + (5 * d.dayOfYear + 2) / 153) % 12 =
      (5 * d.dayOfYear + 2) / 153 := by
    omega
  rw [MarchDate.ext_iff]
  refine ⟨?_, ?_⟩
  · simp only [Date.toMarchDate, hmonths, hyear]
  · simp only [Date.toMarchDate, hmonths, hmonth, hday]
    omega

theorem toDay_marchDate (n : Int) : (marchDate n).toDay = n := by
  have hn := Int.emod_nonneg (marchDay n) (b := 146097) (by decide)
  have hday : marchDay n = n + 719468 := rfl
  have hdiv := Int.mul_ediv_add_emod (marchDay n) 146097
  simp only [marchDate, MarchDate.toDay]
  generalize marchDay n / 146097 = era at *
  generalize marchDay n % 146097 = r at *
  obtain ⟨hc, hc3, hr⟩ := unitOf_bounds 36524 3 (by decide) (by decide) hn
  generalize unitOf 36524 3 r = c at *
  obtain ⟨hq, hq24, hs⟩ := unitOf_bounds 1461 24 (by decide) (by decide) hr
  generalize hcycle : unitOf 1461 24 (r - 36524 * c) = q at *
  obtain ⟨ha, ha3, -⟩ := unitOf_bounds 365 3 (by decide) (by decide) hs
  generalize hyear : unitOf 365 3 (r - 36524 * c - 1461 * q) = a at *
  omega

theorem toDay_civil (n : Int) : (civil n).toDay = n := by
  obtain ⟨hlo, hhi⟩ := dayOfYear_bounds n
  rw [Date.toDay, civil, toMarchDate_toDate hlo hhi, toDay_marchDate]

theorem civil_inj {n m : Int} (h : civil n = civil m) : n = m := by
  rw [← toDay_civil n, h, toDay_civil]

/-! ## Keys -/

/-- A sign and at least four digits. -/
def signedDigits (y : Int) : List Char :=
  (if y < 0 then '-' else '+') :: padDigits (max 4 (Nat.toDigits 10 y.natAbs).length) y.natAbs

/-- `%Y`: four digits, or a signed year outside 0000 to 9999. -/
def yearDigits (y : Int) : List Char :=
  if 0 ≤ y ∧ y ≤ 9999 then padDigits 4 y.toNat else signedDigits y

/-- `-%m-%d`. -/
def monthDayDigits (d : Date) : List Char := '-' :: padDigits 2 d.month ++ '-' :: padDigits 2 d.day

/-- `%Y-%m-%d` of a day. -/
def dateKey (n : Int) : String :=
  String.ofList (yearDigits (civil n).year ++ monthDayDigits (civil n))

/-- The days whose year is written with four digits and no sign. -/
def FourDigitYear (n : Int) : Prop := 0 ≤ (civil n).year ∧ (civil n).year ≤ 9999

instance (n : Int) : Decidable (FourDigitYear n) := inferInstanceAs (Decidable (_ ∧ _))

example : dateKey 20633 = "2026-06-29" ∧ dateKey 2932897 = "+10000-01-01" := by decide +kernel

theorem monthDayDigits_length (d : Date) : (monthDayDigits d).length = 6 := by
  simp [monthDayDigits]

/-- Enough digits for a year of any size, and at least four. -/
theorem lt_pow_width (k : Nat) : k < 10 ^ max 4 (Nat.toDigits 10 k).length := by
  have hk : k < 10 ^ (Nat.toDigits 10 k).length :=
    (Nat.length_toDigits_le_iff (by decide) Nat.length_toDigits_pos).mp le_rfl
  exact lt_of_lt_of_le hk (Nat.pow_le_pow_right (by decide) (le_max_right _ _))

theorem padDigits_ne_cons {w n : Nat} {c : Char} {cs : List Char} (hc : c.toNat < 48) :
    padDigits w n ≠ c :: cs := by
  intro h
  cases w with
  | zero => cases h
  | succ w =>
    have hlt : n / 10 ^ w % 10 < 10 := Nat.mod_lt _ (by decide)
    have hdigit := Nat.toNat_digitChar_of_lt_ten hlt
    rw [(List.cons.inj h).1] at hdigit
    omega

theorem padDigits_ne_signed (w n : Nat) (y : Int) : padDigits w n ≠ signedDigits y := by
  refine padDigits_ne_cons ?_
  split <;> decide

theorem signedDigits_inj {y y' : Int} (h : signedDigits y = signedDigits y') : y = y' := by
  obtain ⟨hsign, hdigits⟩ := List.cons.inj h
  have hwidth := congrArg List.length hdigits
  rw [length_padDigits, length_padDigits] at hwidth
  have hbound := lt_pow_width y.natAbs
  rw [hwidth] at hdigits hbound
  have habs := padDigits_inj hbound (lt_pow_width y'.natAbs) hdigits
  by_cases hy : y < 0 <;> by_cases hy' : y' < 0
  · omega
  · simp [hy, hy'] at hsign
  · simp [hy, hy'] at hsign
  · omega

theorem yearDigits_inj {y y' : Int} (h : yearDigits y = yearDigits y') : y = y' := by
  unfold yearDigits at h
  split_ifs at h with hy hy'
  · have hnat := padDigits_inj (by omega) (by omega) h
    omega
  · exact absurd h (padDigits_ne_signed _ _ _)
  · exact absurd h.symm (padDigits_ne_signed _ _ _)
  · exact signedDigits_inj h

/-- Distinct days have distinct keys. -/
theorem dateKey_inj {n m : Int} (h : dateKey n = dateKey m) : n = m := by
  obtain ⟨hyear, hrest⟩ := List.append_inj' (String.ofList_inj.mp h)
    (by rw [monthDayDigits_length, monthDayDigits_length])
  obtain ⟨hmonth, hday⟩ := List.append_inj (List.cons.inj hrest).2
    (by rw [length_padDigits, length_padDigits])
  have hbn := civil_bounds n
  have hbm := civil_bounds m
  apply civil_inj
  rw [Date.ext_iff]
  exact ⟨yearDigits_inj hyear, padDigits_inj hbn.1 hbm.1 hmonth,
    padDigits_inj hbn.2 hbm.2 (List.cons.inj hday).2⟩

/-! ## Reading a key back -/

/-- The number a run of digits stands for. -/
def digitsValue (cs : List Char) : Nat := cs.foldl (fun acc c => 10 * acc + (c.toNat - 48)) 0

theorem foldl_padDigits (w n acc : Nat) :
    (padDigits w n).foldl (fun acc c => 10 * acc + (c.toNat - 48)) acc =
      10 ^ w * acc + n % 10 ^ w := by
  induction w generalizing acc with
  | zero => simp [padDigits, Nat.mod_one]
  | succ w ih =>
    have hdigit := Nat.toNat_digitChar_of_lt_ten (Nat.mod_lt (n / 10 ^ w) (y := 10) (by decide))
    rw [padDigits, List.foldl_cons, ih, hdigit, mod_pow_succ, Nat.add_sub_cancel_left]
    ring

theorem digitsValue_padDigits {w n : Nat} (h : n < 10 ^ w) : digitsValue (padDigits w n) = n := by
  rw [digitsValue, foldl_padDigits, Nat.mod_eq_of_lt h]
  omega

/-- The year of `%Y`. -/
def yearValue : List Char → Int
  | '-' :: cs => -digitsValue cs
  | '+' :: cs => digitsValue cs
  | cs => digitsValue cs

/-- The day whose key a text is. -/
def parseKey (k : String) : Option Int :=
  let cs := k.toList
  let year := cs.take (cs.length - 6)
  let rest := cs.drop (cs.length - 6)
  let n := (Date.mk (yearValue year) (digitsValue ((rest.drop 1).take 2))
    (digitsValue ((rest.drop 4).take 2))).toDay
  if dateKey n = k then some n else none

theorem yearValue_padDigits (w n : Nat) :
    yearValue (padDigits w n) = digitsValue (padDigits w n) := by
  unfold yearValue
  split
  · rename_i cs h
    exact absurd h (padDigits_ne_cons (by decide))
  · rename_i cs h
    exact absurd h (padDigits_ne_cons (by decide))
  · rfl

theorem yearValue_yearDigits (y : Int) : yearValue (yearDigits y) = y := by
  unfold yearDigits
  split
  · rw [yearValue_padDigits, digitsValue_padDigits (by omega)]
    omega
  · have habs := digitsValue_padDigits (lt_pow_width y.natAbs)
    unfold signedDigits
    split <;> simp only [yearValue, habs] <;> omega

/-- **A key reads back as its day.** -/
theorem parseKey_dateKey (n : Int) : parseKey (dateKey n) = some n := by
  have hb := civil_bounds n
  have hyear : ((dateKey n).toList).take ((dateKey n).toList.length - 6) =
      yearDigits (civil n).year := by
    simp [dateKey, monthDayDigits_length]
  have hrest : ((dateKey n).toList).drop ((dateKey n).toList.length - 6) =
      monthDayDigits (civil n) := by
    simp [dateKey, monthDayDigits_length]
  have hmonth : ((monthDayDigits (civil n)).drop 1).take 2 = padDigits 2 (civil n).month := by
    rfl
  have hday : ((monthDayDigits (civil n)).drop 4).take 2 = padDigits 2 (civil n).day := by
    rfl
  have hdate : (Date.mk (civil n).year (civil n).month (civil n).day).toDay = n := toDay_civil n
  unfold parseKey
  simp only [hyear, hrest, hmonth, hday, yearValue_yearDigits, digitsValue_padDigits hb.1,
    digitsValue_padDigits hb.2, hdate, if_true]

/-- **Keys sort as the days do**, while years have four digits. -/
theorem dateKey_lt {n m : Int} (hn : FourDigitYear n) (hm : FourDigitYear m) (h : n < m) :
    dateKey n < dateKey m := by
  have hbn := civil_bounds n
  have hbm := civil_bounds m
  have hyn : yearDigits (civil n).year = padDigits 4 (civil n).year.toNat := if_pos hn
  have hym : yearDigits (civil m).year = padDigits 4 (civil m).year.toNat := if_pos hm
  rw [dateKey, dateKey, String.lt_iff_toList_lt, String.toList_ofList, String.toList_ofList,
    hyn, hym]
  rcases civil_before h with hyear | ⟨hyear, hrest⟩
  · refine append_lt_append (by simp) (padDigits_lt ?_) _ _
    have hy := hn.1
    have hy' := hm.2
    rw [Nat.mod_eq_of_lt (by omega), Nat.mod_eq_of_lt (by omega)]
    omega
  · rw [hyear]
    refine List.append_left_lt (List.cons_lt_cons_iff.mpr (Or.inr ⟨rfl, ?_⟩))
    rcases hrest with hmonth | ⟨hmonth, hday⟩
    · refine append_lt_append (by simp) (padDigits_lt ?_) _ _
      rwa [Nat.mod_eq_of_lt hbn.1, Nat.mod_eq_of_lt hbm.1]
    · rw [hmonth]
      refine List.append_left_lt (List.cons_lt_cons_iff.mpr (Or.inr ⟨rfl, padDigits_lt ?_⟩))
      rwa [Nat.mod_eq_of_lt hbn.2, Nat.mod_eq_of_lt hbm.2]

theorem dateKey_lt_iff {n m : Int} (hn : FourDigitYear n) (hm : FourDigitYear m) :
    dateKey n < dateKey m ↔ n < m := by
  refine ⟨fun hkey => ?_, dateKey_lt hn hm⟩
  rcases lt_trichotomy n m with hlt | rfl | hgt
  · exact hlt
  · exact absurd hkey (lt_irrefl _)
  · exact absurd (hkey.trans (dateKey_lt hm hn hgt)) (lt_irrefl _)

/-! ## Weeks -/

/-- Days since the last Sunday; day 0 was a Thursday. -/
def daysFromSunday (n : Int) : Int := (n + 4) % 7

/-- The first day of the week of `n`, for weeks that begin `first` days after Sunday. -/
def weekStartDay (first n : Int) : Int := n - (daysFromSunday n + 7 - first) % 7

end CivilDate
