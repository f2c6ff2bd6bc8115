import Kintrinsic.ChildPolicy
import Kintrinsic.TimesAgree

/-! # Device-only limits

The times of a parent's limits are checked by one parser and read by another.  What both agree
on, a time of four digits, has one meaning; a day's window that the check lets through then
opens before it closes, and the device is open exactly while it lasts. -/
namespace Kintrinsic

open CivilDate

/-! ## The check -/

/-- `str::parse::<u8>`. -/
def parseU8 (cs : List Char) : Option Nat := (parseU32 cs).filter fun n => decide (n < 256)

/-- `str::len`. -/
def byteLen (cs : List Char) : Nat := (cs.map Char.utf8Size).sum

/-- `valid_hhmm`. -/
def validHhmm (s : String) : Bool :=
  match splitOnce ':' s.toList with
  | none => false
  | some (h, m) =>
    if byteLen h ≠ 2 ∨ byteLen m ≠ 2 then false
    else
      match parseU8 h, parseU8 m with
      | some h, some m => decide (h < 24) && decide (m < 60)
      | _, _ => false

namespace DayWindow
variable (w : DayWindow)

def valid : Bool := validHhmm w.wake && validHhmm w.bedtime

/-- `wake >= bedtime`, of the texts. -/
def backwards : Bool := !decide (w.wake < w.bedtime)

/-- Neither time has a plus sign. -/
def SignFree : Prop := '+' ∉ w.wake.toList ∧ '+' ∉ w.bedtime.toList

/-- The evaluator reads both times, the first before the second. -/
def Opens : Prop :=
  ∃ s e, parseHhmm w.wake = some s ∧ parseHhmm w.bedtime = some e ∧ s < e

end DayWindow

namespace DeviceLimits
variable (d : DeviceLimits)

def everyDay : DayWindow := ⟨d.wake, d.bedtime⟩

/-- Every window of the limits. -/
def windows : List DayWindow := d.everyDay :: d.weekend.toList

/-- `validate`. -/
def validate : Except String Unit :=
  if !d.everyDay.valid then .error "wake/bedtime must be HH:MM"
  else if d.weekend.any fun w => !w.valid then .error "weekend wake/bedtime must be HH:MM"
  else if d.everyDay.backwards then
    .error ("wake (" ++ d.wake ++ ") must be earlier than bedtime (" ++ d.bedtime ++ ")")
  else
    match d.weekend.filter DayWindow.backwards with
    | some w =>
      .error ("weekend wake (" ++ w.wake ++ ") must be earlier than weekend bedtime (" ++
        w.bedtime ++ ")")
    | none =>
      if d.dailyMinutes = 0 ∨ 24 * 60 < d.dailyMinutes then
        .error "dailyMinutes must be between 1 and 1440"
      else if isBlank d.tz then .error "tz is required"
      else .ok ()

/-- The widest window a clause can express. -/
def allDay : DayWindow := ⟨"00:00", "23:59"⟩

/-- A window of good times in the wrong order. -/
def inverted (w : DayWindow) : Bool := w.valid && w.backwards

def mended (w : DayWindow) : DayWindow := if inverted w then allDay else w

/-- `drop_inverted_windows`, and whether it dropped any. -/
def dropInvertedWindows : DeviceLimits × Bool :=
  ({ d with
      wake := (mended d.everyDay).wake
      bedtime := (mended d.everyDay).bedtime
      weekend := d.weekend.map mended },
    inverted d.everyDay || d.weekend.any inverted)

end DeviceLimits

/-! ## The two parsers -/

theorem byteLen_of_digits {cs : List Char} (h : ∀ c ∈ cs, c.isDigit = true) :
    byteLen cs = cs.length := by
  induction cs with
  | nil => rfl
  | cons c cs ih =>
    have hc := isDigit_bounds (h c List.mem_cons_self)
    have hone : c.utf8Size = 1 := Char.utf8Size_eq_one_iff.mpr (by
      change c.toNat ≤ 127
      omega)
    have hrest := ih fun c hc => h c (List.mem_cons_of_mem _ hc)
    unfold byteLen at hrest ⊢
    rw [List.map_cons, List.sum_cons, hone, hrest, List.length_cons, Nat.add_comm]

/-- A number without a sign is all digits. -/
theorem digits_of_parseU8 {cs : List Char} {n : Nat} (h : parseU8 cs = some n)
    (hplus : '+' ∉ cs) : ∀ c ∈ cs, c.isDigit = true := by
  obtain ⟨hparse, -⟩ := Option.filter_eq_some_iff.mp h
  cases cs with
  | nil => nofun
  | cons a cs =>
    have ha : a ≠ '+' := fun heq => hplus (heq ▸ List.mem_cons_self)
    rw [parseU32_of_ne_plus ha] at hparse
    split at hparse
    · cases hparse
    · rename_i hany
      intro c hc
      by_contra hdigit
      exact hany (List.any_eq_true.mpr ⟨c, hc, by simpa using hdigit⟩)

/-- Two bytes that a number is read from, without a sign. -/
theorem two_digits {cs : List Char} {n : Nat} (h : parseU8 cs = some n) (hlen : byteLen cs = 2)
    (hplus : '+' ∉ cs) :
    ∃ a b, cs = [a, b] ∧ a.isDigit = true ∧ b.isDigit = true ∧ digitsValue [a, b] = n := by
  have hdigits := digits_of_parseU8 h hplus
  rw [byteLen_of_digits hdigits] at hlen
  obtain ⟨a, b, rfl⟩ := List.length_eq_two.mp hlen
  have ha := hdigits a List.mem_cons_self
  have hb := hdigits b (List.mem_cons_of_mem _ List.mem_cons_self)
  refine ⟨a, b, rfl, ha, hb, ?_⟩
  obtain ⟨hparse, -⟩ := Option.filter_eq_some_iff.mp h
  rw [parseU32_two ha hb] at hparse
  exact Option.some.inj hparse

theorem eq_of_splitOnce {sep : Char} {cs h m : List Char}
    (hsplit : splitOnce sep cs = some (h, m)) :
    cs = h ++ sep :: m := by
  induction cs generalizing h with
  | nil => cases hsplit
  | cons c cs ih =>
    rw [splitOnce] at hsplit
    split at hsplit
    · cases hsplit
      subst_vars
      rfl
    · obtain ⟨⟨h', m'⟩, hrest, heq⟩ := Option.map_eq_some_iff.mp hsplit
      cases heq
      rw [ih hrest]
      rfl

/-- **The check without a sign** is the guardian's pattern. -/
theorem isHhmm_of_validHhmm {s : String} (h : validHhmm s = true) (hplus : '+' ∉ s.toList) :
    isHhmm s = true := by
  unfold validHhmm at h
  split at h
  · cases h
  rename_i hour minute hsplit
  split at h
  · cases h
  rename_i hlens
  split at h
  case h_2 => cases h
  rename_i nh nm hnh hnm
  rw [not_or, not_not, not_not] at hlens
  rw [Bool.and_eq_true, decide_eq_true_iff, decide_eq_true_iff] at h
  have hchars := eq_of_splitOnce hsplit
  rw [hchars, List.mem_append, not_or, List.mem_cons, not_or] at hplus
  obtain ⟨a, b, rfl, ha, hb, rfl⟩ := two_digits hnh hlens.1 hplus.1
  obtain ⟨c, e, rfl, hc, he, rfl⟩ := two_digits hnm hlens.2 hplus.2.2
  have hab := isDigit_bounds ha
  have hbb := isDigit_bounds hb
  have hcb := isDigit_bounds hc
  rw [digitsValue_two, digitsValue_two] at h
  have hfive : c ≤ '5' := by
    change c.toNat ≤ 53
    have hcm := h.2
    omega
  have hzero : '0' ≤ c := hcb.1
  have hchars' : s.toList = [a, b, ':', c, e] := hchars
  unfold isHhmm
  rw [hchars']
  have hhour : (((a == '0' || a == '1') && b.isDigit) ||
      (a == '2' && decide ('0' ≤ b ∧ b ≤ '3'))) = true := by
    rcases Nat.lt_trichotomy a.toNat 50 with hlt | heq | hgt
    · have hone : a = '0' ∨ a = '1' := by
        rcases Nat.lt_or_ge a.toNat 49 with h48 | h49
        · exact .inl (Char.toNat_inj.mp (show a.toNat = 48 by omega))
        · exact .inr (Char.toNat_inj.mp (show a.toNat = 49 by omega))
      rcases hone with rfl | rfl <;> simp [hb]
    · have htwo : a = '2' := Char.toNat_inj.mp (show a.toNat = 50 from heq)
      have hthree : b ≤ '3' := by
        change b.toNat ≤ 51
        have hhm := h.1
        omega
      have hlo : '0' ≤ b := hbb.1
      simp [htwo, hthree, hlo]
    · have hhm := h.1
      omega
  simp only [hhour, Bool.true_and]
  simp [hzero, hfive, he]

/-- A window that passes the check, in order and without a sign, opens. -/
theorem DayWindow.opens_of_valid {w : DayWindow} (hvalid : w.valid = true)
    (horder : w.backwards = false) (hplain : w.SignFree) : w.Opens := by
  rw [valid, Bool.and_eq_true] at hvalid
  rw [backwards, Bool.not_eq_false', decide_eq_true_iff] at horder
  have hwake := isHhmm_of_validHhmm hvalid.1 hplain.1
  have hbed := isHhmm_of_validHhmm hvalid.2 hplain.2
  exact ⟨_, _, parseHhmm_of_isHhmm hwake, parseHhmm_of_isHhmm hbed, minutesOf_lt hwake hbed horder⟩

/-! ## The clause -/

namespace DeviceLimits
variable {d : DeviceLimits}

/-- The window of a weekday, Sunday first. -/
def windowFor (d : DeviceLimits) (weekday : Nat) : DayWindow :=
  if weekday = 0 ∨ weekday = 6 then d.weekend.getD d.everyDay else d.everyDay

theorem windowFor_mem (weekday : Nat) : d.windowFor weekday ∈ d.windows := by
  unfold windowFor windows
  split
  · cases d.weekend with
    | none => exact List.mem_cons_self
    | some w => exact List.mem_cons_of_mem _ List.mem_cons_self
  · exact List.mem_cons_self

theorem forDay_toSchedule (issuedAt : Nat) {weekday : Nat} (h : weekday < 7) :
    (d.toSchedule issuedAt).weekly.forDay weekday =
      some [⟨(d.windowFor weekday).wake, (d.windowFor weekday).bedtime, none⟩] := by
  have hweekend : d.weekendWindow =
      [⟨(d.weekend.getD d.everyDay).wake, (d.weekend.getD d.everyDay).bedtime, none⟩] := by
    unfold weekendWindow
    cases d.weekend <;> rfl
  interval_cases weekday <;>
    simp [toSchedule, WeeklySchedule.forDay, windowFor, hweekend, weekdayWindow, everyDay]

theorem daysFromSunday_lt (day : Int) : (daysFromSunday day).toNat < 7 := by
  unfold daysFromSunday
  omega

/-- A window that the evaluator reads is the only one of its days. -/
theorem windowsOn_toSchedule (issuedAt : Nat) (day : Int) {s e : Nat}
    (hs : parseHhmm (d.windowFor (daysFromSunday day).toNat).wake = some s)
    (he : parseHhmm (d.windowFor (daysFromSunday day).toNat).bedtime = some e) (hlt : s < e) :
    (d.toSchedule issuedAt).windowsOn day = some [(s, e)] := by
  have hnone : (d.toSchedule issuedAt).overrides = none := rfl
  unfold GrantSchedule.windowsOn GrantSchedule.windowsFor
  rw [hnone, Option.bind_none]
  dsimp only
  rw [forDay_toSchedule issuedAt (daysFromSunday_lt day), Option.map_some]
  simp [parseWindows, parseWindow, hs, he, hlt]

/-- **The device is open exactly while the window lasts.** -/
theorem opened_iff {zones : Zones} {tz : Tz} (htz : zones d.tz = some tz) (issuedAt : Nat)
    (now : Int) {s e : Nat}
    (hwindows : (d.toSchedule issuedAt).windowsOn (tz.localDay now) = some [(s, e)]) :
    (∃ secs, (d.toSchedule issuedAt).evaluate zones now = .opened secs) ↔
      s ≤ tz.minuteOfDay now ∧ tz.minuteOfDay now < e := by
  constructor
  · rintro ⟨secs, h⟩
    obtain ⟨tz', windows, w, htz', hw, hmem, hlo, hhi, -⟩ := GrantSchedule.evaluate_opened h
    obtain rfl := Option.some.inj (htz.symm.trans htz')
    obtain rfl := Option.some.inj (hwindows.symm.trans hw)
    rw [List.mem_singleton.mp hmem] at hlo hhi
    exact ⟨hlo, hhi⟩
  · rintro ⟨hlo, hhi⟩
    have hzone : zones (d.toSchedule issuedAt).tz = some tz := htz
    have hdays : (d.toSchedule issuedAt).weekly.isEmpty = false := by
      simp [toSchedule, WeeklySchedule.isEmpty, weekdayWindow]
    have hat : (((d.toSchedule issuedAt).windowsOn (tz.localDay now)).bind
        (GrantSchedule.windowAt (tz.minuteOfDay now))) = some (s, e) := by
      rw [hwindows, Option.bind_some, GrantSchedule.windowAt]
      simp [hlo, hhi]
    have hversion : (d.toSchedule issuedAt).isSupportedVersion = true := rfl
    unfold GrantSchedule.evaluate
    rw [if_neg (by simp [hversion]), if_neg (by simp [toSchedule]), hzone]
    dsimp only
    rw [hdays, Bool.false_and, if_neg Bool.false_ne_true, hat]
    exact ⟨_, rfl⟩

/-- The instant at which the wall clock shows a minute of a day. -/
theorem shows_minute {tz : Tz} {day offset : Int} {s : Nat} (hs : s < 1440)
    (hoffset : tz.offsetAt (day * 86400 + s * 60 - offset) = offset) :
    tz.localDay (day * 86400 + s * 60 - offset) = day ∧
      tz.minuteOfDay (day * 86400 + s * 60 - offset) = s := by
  have hwall : tz.wall (day * 86400 + s * 60 - offset) = day * 86400 + s * 60 := by
    rw [Tz.wall, hoffset]
    omega
  unfold Tz.localDay Tz.minuteOfDay Tz.secondOfDay
  rw [hwall]
  omega

/-! ## What the check is worth -/

theorem windows_of_validate (h : d.validate = .ok ()) :
    ∀ w ∈ d.windows, w.valid = true ∧ w.backwards = false := by
  unfold validate at h
  split at h
  · cases h
  rename_i hvalid
  split at h
  · cases h
  rename_i hweekend
  split at h
  · cases h
  rename_i horder
  split at h
  · cases h
  rename_i hfilter
  rw [Bool.not_eq_true', Bool.not_eq_false] at hvalid
  rw [Bool.not_eq_true] at horder
  intro w hw
  rcases List.mem_cons.mp hw with rfl | hw
  · exact ⟨hvalid, horder⟩
  · have hsome : d.weekend = some w := Option.mem_toList.mp hw
    rw [hsome] at hweekend hfilter
    simp only [Option.any_some, Bool.not_eq_true', Bool.not_eq_false] at hweekend
    exact ⟨hweekend, by simpa using hfilter⟩

theorem mended_valid {w : DayWindow} (h : (mended w).valid = true) :
    (mended w).backwards = false := by
  unfold mended at h ⊢
  split
  · decide
  · rename_i hinverted
    rw [if_neg hinverted] at h
    rw [inverted, h, Bool.true_and, Bool.not_eq_true] at hinverted
    exact hinverted

theorem windows_dropInvertedWindows : d.dropInvertedWindows.1.windows = d.windows.map mended := by
  unfold windows dropInvertedWindows everyDay
  cases d.weekend <;> rfl

/-- **Device limits open every day.**  Limits that pass the check, their times without a sign,
give each day one window, which the evaluator reads and which opens before it closes; in a zone
that is known the device is open on a day exactly while its window lasts, at the instant that
shows the opening time for one.  Dropping inverted windows leaves none that passes the check,
without a sign, and does not open; the zone, the cap and the windows in order stay. -/
theorem deviceLimits_open (zones : Zones) (d : DeviceLimits) :
    (d.validate = .ok () → (∀ w ∈ d.windows, w.SignFree) → ∀ (issuedAt : Nat) (day : Int),
      ∃ w ∈ d.windows, ∃ s e,
        (d.toSchedule issuedAt).weekly.forDay (daysFromSunday day).toNat =
          some [⟨w.wake, w.bedtime, none⟩] ∧
        parseHhmm w.wake = some s ∧ parseHhmm w.bedtime = some e ∧ s < e ∧
        ∀ tz, zones d.tz = some tz →
          (∀ now, tz.localDay now = day →
            ((∃ secs, (d.toSchedule issuedAt).evaluate zones now = .opened secs) ↔
              s ≤ tz.minuteOfDay now ∧ tz.minuteOfDay now < e)) ∧
          ∀ offset, tz.offsetAt (day * 86400 + s * 60 - offset) = offset →
            tz.localDay (day * 86400 + s * 60 - offset) = day ∧
            ∃ secs, (d.toSchedule issuedAt).evaluate zones (day * 86400 + s * 60 - offset) =
              .opened secs) ∧
    (∀ w ∈ d.dropInvertedWindows.1.windows, w.valid = true → w.SignFree → w.Opens) ∧
    d.dropInvertedWindows.1.tz = d.tz ∧
    d.dropInvertedWindows.1.dailyMinutes = d.dailyMinutes ∧
    ∀ w ∈ d.windows, inverted w = false → w ∈ d.dropInvertedWindows.1.windows := by
  refine ⟨?_, ?_, rfl, rfl, ?_⟩
  · intro hvalid hplain issuedAt day
    have hmem := d.windowFor_mem (daysFromSunday day).toNat
    obtain ⟨hw, horder⟩ := windows_of_validate hvalid _ hmem
    obtain ⟨s, e, hs, he, hlt⟩ := DayWindow.opens_of_valid hw horder (hplain _ hmem)
    have hwindows := windowsOn_toSchedule issuedAt day hs he hlt
    refine ⟨_, hmem, s, e, forDay_toSchedule issuedAt (daysFromSunday_lt day), hs, he, hlt, ?_⟩
    intro tz htz
    have hopen : ∀ now, tz.localDay now = day →
        ((∃ secs, (d.toSchedule issuedAt).evaluate zones now = .opened secs) ↔
          s ≤ tz.minuteOfDay now ∧ tz.minuteOfDay now < e) := by
      rintro now rfl
      exact opened_iff htz issuedAt now hwindows
    refine ⟨hopen, ?_⟩
    intro offset hoffset
    obtain ⟨hday, hminute⟩ := shows_minute (parseHhmm_lt hs) hoffset
    refine ⟨hday, (hopen _ hday).mpr ?_⟩
    rw [hminute]
    exact ⟨Nat.le_refl s, hlt⟩
  · intro w hw hvalid hplain
    rw [windows_dropInvertedWindows] at hw
    obtain ⟨w, -, rfl⟩ := List.mem_map.mp hw
    exact DayWindow.opens_of_valid hvalid (mended_valid hvalid) hplain
  · intro w hw hinverted
    rw [windows_dropInvertedWindows]
    refine List.mem_map.mpr ⟨w, hw, ?_⟩
    rw [mended, hinverted]
    rfl

/-- Seven to eight in the evening, every day. -/
def sevenToEight : DeviceLimits := ⟨"UTC", "07:00", "20:00", 120, none⟩

theorem deviceLimits_open_sevenToEight :
    ∃ secs, (sevenToEight.toSchedule 1).evaluate (fun _ => some Tz.utc) (20633 * 86400 + 25200) =
      .opened secs := by
  obtain ⟨w, hw, s, e, -, hs, -, -, hopen⟩ :=
    (deviceLimits_open (fun _ => some Tz.utc) sevenToEight).1 (by decide +kernel)
      (by simp [windows, everyDay, sevenToEight, DayWindow.SignFree]) 1 20633
  obtain rfl : w = ⟨"07:00", "20:00"⟩ := by simpa [windows, everyDay, sevenToEight] using hw
  obtain rfl : s = 420 := Option.some.inj (hs.symm.trans (by decide +kernel))
  exact ((hopen Tz.utc rfl).2 0 rfl).2

/-- Limits that the check lets through with a sign in front of the hour. -/
def signedWake : DeviceLimits := ⟨"UTC", "+9:00", "08:00", 60, none⟩

/-- Limits of a zone that no database has. -/
def nowhere : DeviceLimits := ⟨"Nowhere", "07:00", "20:00", 60, none⟩

/-- **What the check still lets through.**  A sign sorts before the digits: such limits pass, are
not repaired, and never open.  Nor do those of a zone that is not known, and a window of times
that are none is left as it is. -/
theorem deviceLimits_open_exceptions :
    (signedWake.validate = .ok () ∧ signedWake.dropInvertedWindows = (signedWake, false) ∧
      parseHhmm signedWake.wake = some 540 ∧ parseHhmm signedWake.bedtime = some 480 ∧
      ∀ (zones : Zones) (now : Int) (secs : Nat),
        (signedWake.toSchedule 1).evaluate zones now ≠ .opened secs) ∧
    (nowhere.validate = .ok () ∧ ∀ (zones : Zones) (now : Int), zones "Nowhere" = none →
      (nowhere.toSchedule 1).evaluate zones now = .unparseable) ∧
    (DeviceLimits.mk "UTC" "7am" "20:00" 60 none).dropInvertedWindows.1.wake = "7am" ∧
    parseHhmm "7am" = none := by
  refine ⟨⟨by decide +kernel, by decide +kernel, by decide +kernel, by decide +kernel, ?_⟩,
    ⟨by decide +kernel, ?_⟩, by decide +kernel, by decide +kernel⟩
  · intro zones now secs h
    obtain ⟨tz, windows, w, -, hwindows, hw, -, -, -⟩ := GrantSchedule.evaluate_opened h
    have hnone : parseWindows [⟨"+9:00", "08:00", none⟩] = [] := by decide +kernel
    unfold GrantSchedule.windowsOn GrantSchedule.windowsFor at hwindows
    rw [show (signedWake.toSchedule 1).overrides = none from rfl, Option.bind_none] at hwindows
    dsimp only at hwindows
    rw [forDay_toSchedule 1 (daysFromSunday_lt _), Option.map_some] at hwindows
    have hday : signedWake.windowFor (daysFromSunday (tz.localDay now)).toNat =
        ⟨"+9:00", "08:00"⟩ := ite_self _
    rw [hday, hnone] at hwindows
    cases hwindows
    cases hw
  · intro zones now hzone
    have htz : zones (nowhere.toSchedule 1).tz = none := hzone
    have hversion : (nowhere.toSchedule 1).isSupportedVersion = true := rfl
    unfold GrantSchedule.evaluate
    rw [if_neg (by simp [hversion]), if_neg (by simp [toSchedule]), htz]

end DeviceLimits
end Kintrinsic
