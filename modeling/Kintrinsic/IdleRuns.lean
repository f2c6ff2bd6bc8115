import Kintrinsic.DomainNames
import Kintrinsic.Streaks
import Kintrinsic.UsageLedger
import Mathlib.Data.List.DropRight

/-! # Runs of an idle screen

Screen time stops only for a display that is really off: one level of being powered down, three
ticks in a row, and no input for six seconds.  The level is read as the helper wrote it, in any case
and with any white space around it. -/

namespace Text

theorem trimEndBy_trimEndBy (p : Char → Bool) (s : List Char) :
    trimEndBy p (trimEndBy p s) = trimEndBy p s := by
  unfold trimEndBy
  rw [List.reverse_reverse, List.dropWhile_idempotent]

theorem trim_trim (s : List Char) : trim (trim s) = trim s := by
  unfold trim
  cases hstart : s.dropWhile isWhiteSpace with
  | nil => rfl
  | cons c cs =>
    have hc : isWhiteSpace c = false := by
      have hne : s.dropWhile isWhiteSpace ≠ [] := by simp [hstart]
      have hhead := List.head_dropWhile_not isWhiteSpace hne
      simpa [hstart] using hhead
    rw [trimEndBy_cons hc, List.dropWhile_cons_of_neg (by simp [hc]), ← trimEndBy_cons hc,
      trimEndBy_trimEndBy]

theorem asciiLower_asciiLower (c : Char) : asciiLower (asciiLower c) = asciiLower c := by
  unfold asciiLower
  split
  · rename_i hupper
    rw [Char.le_def, Char.le_def, UInt32.le_iff_toNat_le, UInt32.le_iff_toNat_le] at hupper
    have hrange : 65 ≤ c.toNat ∧ c.toNat ≤ 90 := hupper
    have hlower : (Char.ofNat (c.toNat + 32)).toNat = c.toNat + 32 := by
      have hvalid : (c.toNat + 32).isValidChar := .inl (by omega)
      unfold Char.ofNat
      rw [dif_pos hvalid]
      rfl
    refine if_neg ?_
    rw [Char.le_def, Char.le_def, UInt32.le_iff_toNat_le, UInt32.le_iff_toNat_le]
    show ¬(65 ≤ (Char.ofNat (c.toNat + 32)).toNat ∧ (Char.ofNat (c.toNat + 32)).toNat ≤ 90)
    omega
  · rfl

end Text

namespace Kintrinsic

open MachineWord Streaks Text

/-! ## One sample -/

/-- `s.trim().to_ascii_lowercase()`. -/
def normaliseLevel (s : String) : String := String.ofList ((trim s.toList).map asciiLower)

/-- The levels of a display that is powered down. -/
def poweredDownLevels : List String := ["standby", "suspend", "off"]

/-- `activity_from_dpms`. -/
def activityFromDpms (level : Option String) : Activity :=
  match level.map normaliseLevel with
  | some s => if s ∈ poweredDownLevels then .idle else .active
  | none => .active

def idleConsecutiveTicks : Nat := 3

def idleMinMs : Nat := 6000

/-! ## The history -/

/-- `ActivityHistory`. -/
structure ActivityHistory where
  lastLevel : Option String
  poweredDownTicks : Nat
deriving DecidableEq

/-- One tick's display evidence. -/
structure DisplayTick where
  dpms : Option String
  idleMs : Option Nat

namespace ActivityHistory

/-- `ActivityHistory::default`. -/
def default : ActivityHistory := ⟨none, 0⟩

/-- `observe`. -/
def observe (h : ActivityHistory) (t : DisplayTick) : Activity × ActivityHistory :=
  let level := t.dpms.map normaliseLevel
  let poweredDown := decide (activityFromDpms level = .idle)
  let changed := decide (level ≠ h.lastLevel)
  if !poweredDown then (.active, ⟨level, 0⟩)
  else
    let ticks := if changed then 1 else addU32 h.poweredDownTicks 1
    (if idleConsecutiveTicks ≤ ticks ∧ t.idleMs.any (fun ms => decide (idleMinMs ≤ ms)) = true
      then .idle else .active, ⟨level, ticks⟩)

/-- The history after some ticks. -/
def run (ticks : List DisplayTick) : ActivityHistory :=
  ticks.foldl (fun h t => (h.observe t).2) default

end ActivityHistory

/-! ## The law -/

theorem normaliseLevel_idem (s : String) : normaliseLevel (normaliseLevel s) = normaliseLevel s := by
  have hcomp : asciiLower ∘ asciiLower = asciiLower := funext asciiLower_asciiLower
  unfold normaliseLevel
  rw [String.toList_ofList, ← map_asciiLower_trim, trim_trim, List.map_map, hcomp]

/-- Whether a level that was read is one of a display that is powered down. -/
def countsLevel (level : Option String) : Bool := level.any (decide <| · ∈ poweredDownLevels)

/-- The level that a tick reports. -/
def DisplayTick.level (t : DisplayTick) : Option String := t.dpms.map normaliseLevel

theorem activityFromDpms_level (t : DisplayTick) :
    activityFromDpms t.level = .idle ↔ countsLevel t.level = true := by
  unfold DisplayTick.level countsLevel activityFromDpms
  cases t.dpms with
  | none => simp
  | some s =>
    simp only [Option.map_some, normaliseLevel_idem, Option.any_some, decide_eq_true_iff]
    split <;> simp_all

section
variable (h : ActivityHistory) (t : DisplayTick)

/-- How often a powered-down level has come in a row with one more tick. -/
def ActivityHistory.ticksWith : Nat :=
  if t.level = h.lastLevel then addU32 h.poweredDownTicks 1 else 1

/-- A tick of a powered-down display asks for the third in a row, and for no input. -/
theorem observe_of_down (hdown : countsLevel t.level = true) : h.observe t =
    (if 3 ≤ h.ticksWith t ∧ t.idleMs.any (fun ms => decide (6000 ≤ ms)) = true
      then .idle else .active, ⟨t.level, h.ticksWith t⟩) := by
  have hidle : activityFromDpms (t.dpms.map normaliseLevel) = .idle :=
    (activityFromDpms_level t).mpr hdown
  have hticks : (if decide (t.dpms.map normaliseLevel ≠ h.lastLevel) = true then 1
      else addU32 h.poweredDownTicks 1) = h.ticksWith t := by
    unfold ActivityHistory.ticksWith DisplayTick.level
    by_cases hsame : t.dpms.map normaliseLevel = h.lastLevel <;> simp [hsame]
  unfold ActivityHistory.observe
  dsimp only
  rw [hidle, hticks]
  rfl

/-- Any other tick starts again, and is charged. -/
theorem observe_of_not (hdown : ¬countsLevel t.level = true) :
    h.observe t = (.active, ⟨t.level, 0⟩) := by
  have hactive : decide (activityFromDpms (t.dpms.map normaliseLevel) = .idle) = false :=
    decide_eq_false fun hidle => hdown ((activityFromDpms_level t).mp hidle)
  unfold ActivityHistory.observe
  dsimp only
  rw [hactive]
  rfl

/-- One tick notes its level, and is idle only where the level is held and nothing was typed. -/
theorem observe_eq :
    (h.observe t).2.lastLevel = t.level ∧
    (h.observe t).2.poweredDownTicks =
      (note countsLevel u32Max ⟨h.lastLevel, h.poweredDownTicks⟩ t.level).held ∧
    ((h.observe t).1 = .idle ↔ 3 ≤ (h.observe t).2.poweredDownTicks ∧
      ∃ ms, t.idleMs = some ms ∧ 6000 ≤ ms) ∧
    ((h.observe t).1 = .idle ∨ (h.observe t).1 = .active) := by
  by_cases hdown : countsLevel t.level = true
  · have hasked : t.idleMs.any (fun ms => decide (6000 ≤ ms)) = true ↔
        ∃ ms, t.idleMs = some ms ∧ 6000 ≤ ms := by simp [Option.any_eq_true]
    rw [observe_of_down h t hdown, ← hasked]
    refine ⟨rfl, (if_pos hdown).symm, ?_, ?_⟩
    · dsimp only
      split
      · rename_i hheld
        exact ⟨fun _ => hheld, fun _ => rfl⟩
      · rename_i hheld
        constructor
        · rintro ⟨⟩
        · exact fun h => absurd h hheld
    · dsimp only
      split
      · exact .inl rfl
      · exact .inr rfl
  · rw [observe_of_not h t hdown]
    refine ⟨rfl, (if_neg hdown).symm, ?_, .inr rfl⟩
    constructor
    · rintro ⟨⟩
    · rintro ⟨hticks, -⟩
      exact absurd hticks (Nat.not_succ_le_zero 2)

end

/-- **A history is the streak of the levels read so far.** -/
theorem run_eq (ticks : List DisplayTick) :
    (⟨(ActivityHistory.run ticks).lastLevel, (ActivityHistory.run ticks).poweredDownTicks⟩ :
      Counter (Option String)) = after countsLevel u32Max none (ticks.map DisplayTick.level) := by
  induction ticks using List.reverseRecOn with
  | nil => rfl
  | append_singleton ticks t ih =>
    rw [List.map_append, List.map_singleton, after_snoc, ← ih]
    have hrun : ActivityHistory.run (ticks ++ [t]) = ((ActivityHistory.run ticks).observe t).2 := by
      unfold ActivityHistory.run
      rw [List.foldl_append]
      rfl
    obtain ⟨hlast, hheld, -, -⟩ := observe_eq (ActivityHistory.run ticks) t
    rw [hrun, hlast, hheld]
    rfl

/-- **The idle run law.**  A tick is idle exactly when the levels so far end in three times one
powered-down level, and the tick knows of six seconds without input.  So along ticks that hold no
powered-down level for three in a row, every one is charged. -/
theorem idle_run_law (before : List DisplayTick) (t : DisplayTick) :
    (((ActivityHistory.run before).observe t).1 = .idle ↔
      (∃ level ∈ poweredDownLevels,
        List.replicate 3 (some level) <:+ (before ++ [t]).map DisplayTick.level) ∧
      ∃ ms, t.idleMs = some ms ∧ 6000 ≤ ms) ∧
    ((∀ level ∈ poweredDownLevels,
        ¬List.replicate 3 (some level) <:+: (before ++ [t]).map DisplayTick.level) →
      ∀ earlier u later, before ++ [t] = earlier ++ u :: later →
        ((ActivityHistory.run earlier).observe u).1 = .active) := by
  have hidle : ∀ (earlier : List DisplayTick) (u : DisplayTick),
      ((ActivityHistory.run earlier).observe u).1 = .idle ↔
        (∃ level ∈ poweredDownLevels,
          List.replicate 3 (some level) <:+ (earlier ++ [u]).map DisplayTick.level) ∧
        ∃ ms, u.idleMs = some ms ∧ 6000 ≤ ms := by
    intro earlier u
    obtain ⟨-, hheld, hanswer, -⟩ := observe_eq (ActivityHistory.run earlier) u
    have hstreak : 3 ≤ (after countsLevel u32Max none ((earlier ++ [u]).map DisplayTick.level)).held ↔
        _ := le_held_iff (by decide)
    rw [hanswer, hheld, run_eq, ← after_snoc, ← List.map_singleton, ← List.map_append, hstreak]
    refine and_congr_left fun _ => ?_
    constructor
    · rintro ⟨level, hcounts, hsuffix⟩
      cases level with
      | none => cases hcounts
      | some level => exact ⟨level, by simpa [countsLevel] using hcounts, hsuffix⟩
    · rintro ⟨level, hlevel, hsuffix⟩
      exact ⟨some level, by simpa [countsLevel] using hlevel, hsuffix⟩
  refine ⟨hidle before t, fun hnone earlier u later hticks => ?_⟩
  obtain ⟨-, -, -, hanswers⟩ := observe_eq (ActivityHistory.run earlier) u
  refine hanswers.resolve_left fun h => ?_
  obtain ⟨⟨level, hlevel, hsuffix⟩, -⟩ := (hidle earlier u).mp h
  refine hnone level hlevel ?_
  rw [hticks, List.append_cons, List.map_append]
  exact hsuffix.isInfix.trans (List.prefix_append _ _).isInfix

end Kintrinsic
