import Kintrinsic.Folds
import Kintrinsic.JsMinutes
import Mathlib.Algebra.Order.Floor.Ring
import Mathlib.Data.Finset.Lattice.Basic
import Mathlib.Data.Rat.Floor
import Mathlib.Order.WithBot

/-! # The guardian's usage history

A device reports the seconds used so far today, and the minutes.  `recordUsage` keeps the most
seconds, rounded, and the union of the minutes: what it has kept is the join of what the reports say,
so their order and their repetition do not count. -/
namespace Kintrinsic

open MinuteSet JsMinutes JoinFold

/-! ## The history -/

/-- A number of the app. -/
inductive JsNumber
  | finite (q : ℚ)
  | nan
  | infinite (negative : Bool)

/-- `Math.round`: a half is rounded up. -/
def mathRound (q : ℚ) : Int := ⌊q + 1 / 2⌋

/-- `UsageHistory`; a machine or a day without a record has none of its own. -/
structure UsageHistory where
  byMachine : String → String → Option Int
  minutesByMachine : String → String → Option String

def emptyUsageHistory : UsageHistory := ⟨fun _ _ => none, fun _ _ => none⟩

/-- What a device reports of a day. -/
structure UsageReport where
  machine : String
  dayKey : String
  usedSecs : JsNumber
  minutesB64 : Option String

/-- `DAY_KEY`. -/
def isDayKey (s : String) : Bool :=
  match s.toList with
  | [y₁, y₂, y₃, y₄, '-', m₁, m₂, '-', d₁, d₂] =>
    [y₁, y₂, y₃, y₄, m₁, m₂, d₁, d₂].all Char.isDigit
  | _ => false

/-- A record with one entry put in. -/
def put {α : Type} (record : String → String → Option α) (machine dayKey : String) (v : α) :
    String → String → Option α :=
  fun m d => if m = machine ∧ d = dayKey then some v else record m d

/-- A text that is there and not empty, decoded. -/
def decodeText (text : Option String) : Option (List Nat) :=
  (text.filter (· ≠ "")).bind decodeMinutes

/-- The minutes to keep, where they change: those of a first report as they were written. -/
def mergeMinutes (prevMinutes minutesB64 : Option String) : Option String :=
  match minutesB64.filter (· ≠ "") with
  | none => none
  | some text =>
    match decodeMinutes text with
    | none => none
    | some incoming =>
      let merged := match decodeText prevMinutes with
        | some prev => encodeMinutes (unionMinutes prev incoming)
        | none => text
      if some merged ≠ prevMinutes then some merged else none

/-- `recordUsage`. -/
def recordUsage (h : UsageHistory) (r : UsageReport) : UsageHistory :=
  match r.usedSecs with
  | .finite used =>
    if r.machine = "" ∨ isDayKey r.dayKey = false ∨ used < 0 then h
    else
      let secsChanged := decide ((((h.byMachine r.machine r.dayKey).getD 0 : Int) : ℚ) < used)
      ⟨if secsChanged then put h.byMachine r.machine r.dayKey (mathRound used) else h.byMachine,
        match mergeMinutes (h.minutesByMachine r.machine r.dayKey) r.minutesB64 with
        | some merged => put h.minutesByMachine r.machine r.dayKey merged
        | none => h.minutesByMachine⟩
  | .nan | .infinite _ => h

/-- The history after some reports. -/
def recordAll (reports : List UsageReport) : UsageHistory :=
  reports.foldl recordUsage emptyUsageHistory

/-! ## What a report says -/

/-- A report of some seconds of a machine and a day, which is not turned away. -/
structure UsageReport.Says (r : UsageReport) (m d : String) (q : ℚ) : Prop where
  machine : r.machine = m
  dayKey : r.dayKey = d
  secs : r.usedSecs = .finite q
  named : m ≠ ""
  dated : isDayKey d = true
  nonneg : 0 ≤ q

/-- Seconds and minutes of a machine and a day, either of them possibly not told of. -/
abbrev Seen := WithBot ℚ≥0 × WithBot (Finset (Fin 1440))

/-- The bits of a text that is there and is read. -/
def textBits (text : Option String) : WithBot (Finset (Fin 1440)) :=
  match (text.filter (· ≠ "")).bind fromB64url with
  | some s => (s.bits : WithBot (Finset (Fin 1440)))
  | none => ⊥

/-- What a report adds: seconds that are more than none, and minutes that can be read. -/
noncomputable def UsageReport.contribution (r : UsageReport) : String → String → Seen :=
  fun m d =>
    match r.usedSecs with
    | .finite used =>
      if r.machine = "" ∨ isDayKey r.dayKey = false ∨ used < 0 ∨ ¬(m = r.machine ∧ d = r.dayKey) then
        ⊥
      else (if 0 < used then (used.toNNRat : WithBot ℚ≥0) else ⊥, textBits r.minutesB64)
    | .nan | .infinite _ => ⊥

noncomputable def showSecs : WithBot ℚ≥0 → Option Int :=
  WithBot.recBotCoe none fun q => some (mathRound q)

noncomputable def showMinutes : WithBot (Finset (Fin 1440)) → Option String :=
  WithBot.recBotCoe none fun bits => some (MinuteSet.mk bits).toB64url

/-- The history that shows what was seen. -/
noncomputable def showSeen (seen : String → String → Seen) : UsageHistory where
  byMachine m d := showSecs (seen m d).1
  minutesByMachine m d := showMinutes (seen m d).2

@[simp] theorem showSecs_bot : showSecs ⊥ = none := rfl

@[simp] theorem showSecs_coe (q : ℚ≥0) : showSecs q = some (mathRound q) := rfl

@[simp] theorem showMinutes_bot : showMinutes ⊥ = none := rfl

@[simp] theorem showMinutes_coe (bits : Finset (Fin 1440)) :
    showMinutes bits = some (MinuteSet.mk bits).toB64url := rfl

/-! ## One report -/

/-- A rounded number is passed only by what rounds to no less. -/
theorem mathRound_sup (a q : ℚ) :
    (if (mathRound a : ℚ) < q then mathRound q else mathRound a) = mathRound (a ⊔ q) := by
  unfold mathRound
  have hlo := Int.floor_le (a + 1 / 2)
  have hhi := Int.lt_floor_add_one (a + 1 / 2)
  rcases le_total q a with hle | hle
  · rw [sup_eq_left.mpr hle]
    split
    · rename_i hlt
      refine Int.floor_eq_iff.mpr ⟨by linarith, by linarith⟩
    · rfl
  · rw [sup_eq_right.mpr hle]
    split
    · rfl
    · rename_i hnot
      refine (Int.floor_eq_iff.mpr ⟨by linarith, by linarith⟩).symm

/-- The seconds kept. -/
theorem showSecs_sup (a : WithBot ℚ≥0) {used : ℚ} (hused : 0 ≤ used) :
    (if (((showSecs a).getD 0 : Int) : ℚ) < used then some (mathRound used) else showSecs a) =
      showSecs (a ⊔ if 0 < used then (used.toNNRat : WithBot ℚ≥0) else ⊥) := by
  have hcoe : ((used.toNNRat : ℚ≥0) : ℚ) = used := Rat.coe_toNNRat used hused
  induction a with
  | bot =>
    by_cases hpos : 0 < used
    · simp [hpos, hcoe]
    · simp [hpos]
  | coe a =>
    have hround := mathRound_sup (a : ℚ) used
    rw [showSecs_coe, Option.getD_some]
    by_cases hpos : 0 < used
    · rw [if_pos hpos, ← WithBot.coe_sup, showSecs_coe, ← apply_ite some, hround]
      have hsup : ((a ⊔ used.toNNRat : ℚ≥0) : ℚ) = (a : ℚ) ⊔ used := by
        rw [NNRat.coe_max, hcoe]
      rw [hsup]
    · -- no seconds: what is kept is no less
      have hnot : ¬((mathRound a : Int) : ℚ) < used := by
        have hzero : (0 : Int) ≤ mathRound a := by
          unfold mathRound
          refine Int.floor_nonneg.mpr ?_
          have ha : (0 : ℚ) ≤ a := a.2
          linarith
        have hcast : (0 : ℚ) ≤ (mathRound a : Int) := by exact_mod_cast hzero
        linarith
      rw [if_neg hnot, if_neg hpos, sup_bot_eq, showSecs_coe]

/-- A text of a set is not empty. -/
theorem toB64url_ne_empty (s : MinuteSet) : s.toB64url ≠ "" := by
  intro h
  have hread := fromB64url_toB64url s
  have hempty : fromB64url "" = none := by decide +kernel
  rw [h, hempty] at hread
  cases hread

theorem decodeText_toB64url (s : MinuteSet) : decodeText (some s.toB64url) = some (bytesOf s) := by
  unfold decodeText
  rw [Option.filter_some, if_pos (by simpa using toB64url_ne_empty s), Option.bind_some,
    decodeMinutes_eq, fromB64url_toB64url, Option.map_some]

/-- What is kept of a text that is replaced unless it is the same. -/
theorem keptText (merged prev : String) :
    (if some merged ≠ some prev then some merged else none).or (some prev) = some merged := by
  by_cases hsame : merged = prev
  · rw [if_neg (by simpa using hsame), Option.none_or, hsame]
  · rw [if_pos (by simpa using hsame), Option.some_or]

/-- The minutes kept. -/
theorem showMinutes_sup (bits : WithBot (Finset (Fin 1440))) (text : Option String) :
    (mergeMinutes (showMinutes bits) text).or (showMinutes bits) =
      showMinutes (bits ⊔ textBits text) := by
  unfold mergeMinutes textBits
  cases htext : text.filter (· ≠ "") with
  | none => simp
  | some t =>
    dsimp only
    rw [decodeMinutes_eq, Option.bind_some]
    cases hread : fromB64url t with
    | none => simp
    | some s =>
      rw [Option.map_some]
      dsimp only
      induction bits with
      | bot =>
        have htext : s.toB64url = t := toB64url_fromB64url hread
        simp [decodeText, htext]
      | coe bits =>
        rw [showMinutes_coe, decodeText_toB64url]
        dsimp only
        have hjoin : (bits : WithBot (Finset (Fin 1440))) ⊔ (s.bits : WithBot (Finset (Fin 1440))) =
            (((MinuteSet.mk bits).union s).bits : Finset (Fin 1440)) := rfl
        have hmerged : encodeMinutes (unionMinutes (bytesOf ⟨bits⟩) (bytesOf s)) =
            ((MinuteSet.mk bits).union s).toB64url := by
          rw [unionMinutes_bytesOf, encodeMinutes_bytesOf]
        rw [hjoin, showMinutes_coe, ← hmerged]
        exact keptText _ _

/-- **A report is joined in.** -/
theorem recordUsage_showSeen (seen : String → String → Seen) (r : UsageReport) :
    recordUsage (showSeen seen) r = showSeen (seen ⊔ r.contribution) := by
  have hsame : r.contribution = ⊥ → showSeen seen = showSeen (seen ⊔ r.contribution) := by
    intro hnone
    rw [hnone, sup_bot_eq]
  unfold recordUsage
  cases hsecs : r.usedSecs with
  | nan =>
    refine hsame (funext fun m => funext fun d => ?_)
    simp [UsageReport.contribution, hsecs]
  | infinite negative =>
    refine hsame (funext fun m => funext fun d => ?_)
    simp [UsageReport.contribution, hsecs]
  | finite used =>
    dsimp only
    by_cases haway : r.machine = "" ∨ isDayKey r.dayKey = false ∨ used < 0
    · rw [if_pos haway]
      refine hsame (funext fun m => funext fun d => ?_)
      unfold UsageReport.contribution
      rw [hsecs]
      dsimp only
      rw [if_pos (by tauto)]
      rfl
    · rw [if_neg haway]
      have hused : 0 ≤ used := by
        by_contra hneg
        exact haway (.inr (.inr (not_le.mp hneg)))
      have hthere : r.contribution r.machine r.dayKey =
          (if 0 < used then (used.toNNRat : WithBot ℚ≥0) else ⊥, textBits r.minutesB64) := by
        unfold UsageReport.contribution
        rw [hsecs]
        dsimp only
        rw [if_neg (by simpa using haway)]
      have helse : ∀ m d, ¬(m = r.machine ∧ d = r.dayKey) → r.contribution m d = ⊥ := by
        intro m d hne
        unfold UsageReport.contribution
        rw [hsecs]
        dsimp only
        rw [if_pos (by tauto)]
      have hsecs' := showSecs_sup (seen r.machine r.dayKey).1 hused
      have hminutes := showMinutes_sup (seen r.machine r.dayKey).2 r.minutesB64
      unfold showSeen
      dsimp only
      refine congrArg₂ UsageHistory.mk (funext fun m => funext fun d => ?_)
        (funext fun m => funext fun d => ?_)
      · by_cases hmd : m = r.machine ∧ d = r.dayKey
        · obtain ⟨rfl, rfl⟩ := hmd
          rw [Pi.sup_apply, Pi.sup_apply, hthere, Prod.fst_sup, ← hsecs']
          split
          · rename_i hchanged
            rw [decide_eq_true_eq] at hchanged
            rw [if_pos hchanged]
            exact if_pos ⟨rfl, rfl⟩
          · rename_i hkept
            rw [decide_eq_true_eq] at hkept
            rw [if_neg hkept]
        · rw [Pi.sup_apply, Pi.sup_apply, helse m d hmd, sup_bot_eq]
          split
          · exact if_neg hmd
          · rfl
      · by_cases hmd : m = r.machine ∧ d = r.dayKey
        · obtain ⟨rfl, rfl⟩ := hmd
          rw [Pi.sup_apply, Pi.sup_apply, hthere, Prod.snd_sup, ← hminutes]
          cases mergeMinutes (showMinutes (seen r.machine r.dayKey).2) r.minutesB64 with
          | some merged => exact if_pos ⟨rfl, rfl⟩
          | none => rfl
        · rw [Pi.sup_apply, Pi.sup_apply, helse m d hmd, sup_bot_eq]
          cases mergeMinutes (showMinutes (seen r.machine r.dayKey).2) r.minutesB64 with
          | some merged => exact if_neg hmd
          | none => rfl

/-! ## All reports -/

variable {reports reports' : List UsageReport} {m d : String} {r : UsageReport} {q : ℚ}

/-- The history shows the join of what the reports say. -/
theorem recordAll_eq (reports : List UsageReport) :
    recordAll reports = showSeen (joinAll UsageReport.contribution reports ⊥) := by
  show reports.foldl recordUsage (showSeen ⊥) = _
  exact foldl_shows UsageReport.contribution showSeen recordUsage recordUsage_showSeen

/-- **Order and repetition of the reports do not count.** -/
theorem recordAll_congr (h : ∀ r, r ∈ reports ↔ r ∈ reports') :
    recordAll reports = recordAll reports' := by
  rw [recordAll_eq, recordAll_eq, joinAll_congr _ h]

/-- A report of a machine and a day tells of the minutes that its text is read as. -/
def UsageReport.Tells (r : UsageReport) (m d : String) (s : MinuteSet) : Prop :=
  (∃ q, r.Says m d q) ∧ ∃ text, r.minutesB64 = some text ∧ fromB64url text = some s

theorem textBits_eq_coe {text : Option String} {bits : Finset (Fin 1440)}
    (h : textBits text = bits) : ∃ t, text = some t ∧ fromB64url t = some ⟨bits⟩ := by
  unfold textBits at h
  cases hread : (text.filter (· ≠ "")).bind fromB64url with
  | none =>
    rw [hread] at h
    cases h
  | some s =>
    rw [hread] at h
    obtain ⟨t, ht, hs⟩ := Option.bind_eq_some_iff.mp hread
    have hbits : s.bits = bits := WithBot.coe_injective h
    exact ⟨t, (Option.filter_eq_some_iff.mp ht).1, by rw [hs, ← hbits]⟩

theorem textBits_of_read {text : String} {s : MinuteSet} (h : fromB64url text = some s) :
    textBits (some text) = (s.bits : WithBot (Finset (Fin 1440))) := by
  have hne : text ≠ "" := by
    rintro rfl
    have hempty : fromB64url "" = none := by decide +kernel
    rw [hempty] at h
    cases h
  unfold textBits
  rw [Option.filter_some, if_pos (by simpa using hne), Option.bind_some, h]

theorem contribution_of_told (h : r.Says m d q) : r.contribution m d =
    (if 0 < q then (q.toNNRat : WithBot ℚ≥0) else ⊥, textBits r.minutesB64) := by
  obtain ⟨rfl, rfl, hsecs, hnamed, hdated, hnonneg⟩ := h
  unfold UsageReport.contribution
  rw [hsecs]
  dsimp only
  rw [if_neg]
  simp [hnamed, hdated, hnonneg]

theorem contribution_of_not (h : ∀ q, ¬r.Says m d q) : r.contribution m d = ⊥ := by
  unfold UsageReport.contribution
  cases hsecs : r.usedSecs with
  | nan => rfl
  | infinite negative => rfl
  | finite used =>
    dsimp only
    rw [if_pos]
    by_contra haway
    simp only [not_or, not_not, not_lt, Bool.not_eq_false] at haway
    obtain ⟨hnamed, hdated, hnonneg, hm, hd⟩ := haway
    exact h used ⟨hm.symm, hd.symm, hsecs, hm ▸ hnamed, hd ▸ hdated, hnonneg⟩

/-- The seconds seen are the least above those that the reports say. -/
theorem seenSecs_le_iff {b : WithBot ℚ≥0} :
    (joinAll UsageReport.contribution reports ⊥ m d).1 ≤ b ↔
      ∀ r ∈ reports, (r.contribution m d).1 ≤ b := by
  have hfold := map_joinAll UsageReport.contribution (l := reports) (a := ⊥)
    (fun seen : String → String → Seen => (seen m d).1) fun _ _ => rfl
  rw [hfold, joinAll_le_iff]
  exact and_iff_right bot_le

/-- And so are the minutes. -/
theorem seenMinutes_le_iff {b : WithBot (Finset (Fin 1440))} :
    (joinAll UsageReport.contribution reports ⊥ m d).2 ≤ b ↔
      ∀ r ∈ reports, (r.contribution m d).2 ≤ b := by
  have hfold := map_joinAll UsageReport.contribution (l := reports) (a := ⊥)
    (fun seen : String → String → Seen => (seen m d).2) fun _ _ => rfl
  rw [hfold, joinAll_le_iff]
  exact and_iff_right bot_le

/-- **The seconds kept of a day are the most that a report says of it**, rounded; none are kept where
no report says more than none. -/
theorem byMachine_recordAll (reports : List UsageReport) (m d : String) :
    ((∀ r ∈ reports, ∀ q, r.Says m d q → q = 0) → (recordAll reports).byMachine m d = none) ∧
    ∀ r ∈ reports, ∀ q, r.Says m d q → 0 < q →
      (∀ r' ∈ reports, ∀ q', r'.Says m d q' → q' ≤ q) →
        (recordAll reports).byMachine m d = some (mathRound q) := by
  rw [recordAll_eq]
  constructor
  · intro hnone
    have hbot : (joinAll UsageReport.contribution reports ⊥ m d).1 = ⊥ := by
      refine le_bot_iff.mp (seenSecs_le_iff.mpr fun r hr => ?_)
      by_cases hsome : ∃ q, r.Says m d q
      · obtain ⟨q, hq⟩ := hsome
        rw [contribution_of_told hq, hnone r hr q hq, if_neg (lt_irrefl _)]
      · rw [contribution_of_not (not_exists.mp hsome)]
        exact le_rfl
    show showSecs _ = none
    rw [hbot, showSecs_bot]
  · intro r hr q hq hpos hmost
    have hgreatest : (joinAll UsageReport.contribution reports ⊥ m d).1 = (q.toNNRat : WithBot ℚ≥0) := by
      refine le_antisymm (seenSecs_le_iff.mpr fun r' hr' => ?_) ?_
      · by_cases hsome : ∃ q', r'.Says m d q'
        · obtain ⟨q', hq'⟩ := hsome
          rw [contribution_of_told hq']
          split
          · exact WithBot.coe_le_coe.mpr (NNRat.toNNRat_mono (hmost r' hr' q' hq'))
          · exact bot_le
        · rw [contribution_of_not (not_exists.mp hsome)]
          exact bot_le
      · have hle := seenSecs_le_iff.mp (le_refl (joinAll UsageReport.contribution reports ⊥ m d).1)
          r hr
        rwa [contribution_of_told hq, if_pos hpos] at hle
    show showSecs _ = _
    rw [hgreatest, showSecs_coe, Rat.coe_toNNRat q hpos.le]

/-- **The minutes kept of a day are the union of those that the reports tell of it.** -/
theorem minutesByMachine_recordAll (reports : List UsageReport) (m d : String) :
    ((recordAll reports).minutesByMachine m d = none ↔ ∀ r ∈ reports, ∀ s, ¬r.Tells m d s) ∧
    ∀ text, (recordAll reports).minutesByMachine m d = some text →
      ∃ s, fromB64url text = some s ∧
        ∀ i, i ∈ s.bits ↔ ∃ r ∈ reports, ∃ t : MinuteSet, r.Tells m d t ∧ i ∈ t.bits := by
  rw [recordAll_eq]
  have htells : ∀ r ∈ reports, ∀ s : MinuteSet, r.Tells m d s →
      (r.contribution m d).2 = (s.bits : WithBot (Finset (Fin 1440))) := by
    rintro r - s ⟨⟨q, hq⟩, text, htext, hread⟩
    rw [contribution_of_told hq, htext, textBits_of_read hread]
  have htold : ∀ r ∈ reports, ∀ bits : Finset (Fin 1440), (r.contribution m d).2 = bits →
      r.Tells m d ⟨bits⟩ := by
    intro r hr bits hbits
    by_cases hsome : ∃ q, r.Says m d q
    · obtain ⟨q, hq⟩ := hsome
      rw [contribution_of_told hq] at hbits
      exact ⟨⟨q, hq⟩, textBits_eq_coe hbits⟩
    · rw [contribution_of_not (not_exists.mp hsome)] at hbits
      cases hbits
  show (showMinutes (joinAll UsageReport.contribution reports ⊥ m d).2 = none ↔ _) ∧
    ∀ text, showMinutes (joinAll UsageReport.contribution reports ⊥ m d).2 = some text → _
  cases hseen : (joinAll UsageReport.contribution reports ⊥ m d).2 with
  | bot =>
    have hle := seenMinutes_le_iff.mp hseen.le
    refine ⟨iff_of_true rfl fun r hr s hs => ?_, fun text htext => by cases htext⟩
    have hbot := hle r hr
    rw [htells r hr s hs, le_bot_iff] at hbot
    cases hbot
  | coe bits =>
    have hle := seenMinutes_le_iff.mp hseen.le
    refine ⟨iff_of_false (by simp) fun hnone => ?_, fun text htext => ?_⟩
    · have hbot : (joinAll UsageReport.contribution reports ⊥ m d).2 ≤ ⊥ := by
        refine seenMinutes_le_iff.mpr fun r hr => ?_
        cases hcontribution : (r.contribution m d).2 with
        | bot => exact le_rfl
        | coe b => exact absurd (htold r hr b hcontribution) (hnone r hr _)
      rw [hseen, le_bot_iff] at hbot
      cases hbot
    · obtain rfl := Option.some.inj htext
      refine ⟨⟨bits⟩, fromB64url_toB64url _, fun i => ⟨fun hi => ?_, ?_⟩⟩
      · -- the minutes that are told of are already above all reports
        by_contra hnot
        have hsub : (joinAll UsageReport.contribution reports ⊥ m d).2 ≤
            ((bits.erase i : Finset (Fin 1440)) : WithBot (Finset (Fin 1440))) := by
          refine seenMinutes_le_iff.mpr fun r hr => ?_
          cases hcontribution : (r.contribution m d).2 with
          | bot => exact bot_le
          | coe b =>
            have hb := hle r hr
            rw [hcontribution, WithBot.coe_le_coe] at hb
            refine WithBot.coe_le_coe.mpr fun j hj => Finset.mem_erase.mpr ⟨?_, hb hj⟩
            rintro rfl
            exact hnot ⟨r, hr, ⟨b⟩, htold r hr b hcontribution, hj⟩
        rw [hseen, WithBot.coe_le_coe] at hsub
        exact absurd (hsub hi) (Finset.notMem_erase i bits)
      · rintro ⟨r, hr, t, ht, hi⟩
        have hb := hle r hr
        rw [htells r hr t ht, WithBot.coe_le_coe] at hb
        exact hb hi

end Kintrinsic
