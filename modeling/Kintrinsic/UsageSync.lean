import Kintrinsic.PooledUse
import Kintrinsic.UsageHistory
import Kintrinsic.VerifyClause

/-! # Usage pooled through the guardian

Each device is told of the others: their seconds, and the union of their minutes where each of them
keeps minutes.  The receiver pools what it is told with its own ledger. -/
namespace Kintrinsic

open MinuteSet JsMinutes JoinFold

namespace JsNumber

/-- `n > 0`. -/
def isPositive : JsNumber → Bool
  | finite q => decide (0 < q)
  | nan => false
  | infinite negative => !negative

/-- The rounded seconds that count: those of a finite number above none. -/
def countedSecs : JsNumber → Nat
  | finite q => if 0 < q then (mathRound q).toNat else 0
  | nan | infinite _ => 0

end JsNumber

/-- One device's contribution to a child's day. -/
structure DeviceDayUsage where
  machine : String
  secs : JsNumber
  minutesB64 : Option String

/-- The union of journals, if each of the devices has one. -/
def unionOfJournals (contributing : List DeviceDayUsage) : Option String :=
  let journals := contributing.map fun d => decodeText d.minutesB64
  if contributing = [] then none
  else if journals.all Option.isSome then
    some (encodeMinutes ((journals.filterMap id).foldl unionMinutes emptyMinutes))
  else none

/-- `buildUsageSyncForDevice`. -/
def buildUsageSyncForDevice (subject : PubKey) (receiverMachine dayKey : String) (ts : Nat)
    (devices : List DeviceDayUsage) : UsageSyncPayload :=
  let others := devices.filter fun d => d.machine ≠ receiverMachine
  { v := 1
    subject
    ts
    dayKey
    spentElsewhereTodaySecs := (others.map fun d => d.secs.countedSecs).sum
    weekKey := none
    spentElsewhereWeekSecs := none
    elsewhereMinutesToday := unionOfJournals (others.filter fun d => d.secs.isPositive) }

/-- What the history holds of a child's devices on a day. -/
def devicesOn (h : UsageHistory) (machines : List String) (dayKey : String) : List DeviceDayUsage :=
  machines.map fun m =>
    ⟨m, .finite ((h.byMachine m dayKey).getD 0 : Int), h.minutesByMachine m dayKey⟩

/-- `load_consolidated`, of a payload that was stored. -/
def UsageSyncPayload.consolidated (p : UsageSyncPayload) : ConsolidatedUsage :=
  ⟨p.dayKey, p.spentElsewhereTodaySecs, p.weekKey, p.spentElsewhereWeekSecs,
    p.elsewhereMinutesToday.bind fromB64url⟩

/-! ## What is told -/

/-- The journals as sets of minutes. -/
theorem decodeText_eq (text : Option String) :
    decodeText text = ((text.filter (· ≠ "")).bind fromB64url).map bytesOf := by
  unfold decodeText
  cases text.filter (· ≠ "") with
  | none => rfl
  | some t => exact decodeMinutes_eq t

/-- A device with a journal of these minutes. -/
def DeviceDayUsage.Journals (d : DeviceDayUsage) (s : MinuteSet) : Prop :=
  decodeText d.minutesB64 = some (bytesOf s)

/-- The union of journals is the join of their minutes. -/
theorem foldl_unionMinutes (sets : List MinuteSet) (s : MinuteSet) :
    (sets.map bytesOf).foldl unionMinutes (bytesOf s) =
      bytesOf ⟨joinAll MinuteSet.bits sets s.bits⟩ := by
  rw [List.foldl_map]
  exact foldl_shows MinuteSet.bits (fun bits => bytesOf ⟨bits⟩) (fun acc t => unionMinutes acc (bytesOf t))
    (fun bits t => unionMinutes_bytesOf ⟨bits⟩ t)

/-- A minute of a join of sets is one of those joined. -/
theorem mem_joinAll_bits {sets : List MinuteSet} {bits : Finset (Fin 1440)} {i : Fin 1440} :
    i ∈ joinAll MinuteSet.bits sets bits ↔ i ∈ bits ∨ ∃ t ∈ sets, i ∈ t.bits := by
  induction sets generalizing bits with
  | nil => simp [joinAll]
  | cons t ts ih =>
    show i ∈ joinAll MinuteSet.bits ts (bits ∪ t.bits) ↔ _
    rw [ih, Finset.mem_union, List.exists_mem_cons_iff, or_assoc]

/-- Devices that all have a journal, by the sets of their journals. -/
theorem exists_sets {contributing : List DeviceDayUsage}
    (hall : (contributing.map fun d => decodeText d.minutesB64).all Option.isSome = true) :
    ∃ sets : List MinuteSet,
      (contributing.map fun d => decodeText d.minutesB64) = sets.map (fun s => some (bytesOf s)) ∧
        ∀ t, t ∈ sets ↔ ∃ d ∈ contributing, d.Journals t := by
  induction contributing with
  | nil => exact ⟨[], rfl, by simp⟩
  | cons d ds ih =>
    rw [List.map_cons, List.all_cons, Bool.and_eq_true] at hall
    obtain ⟨sets, hsets, hmem⟩ := ih hall.2
    obtain ⟨bytes, hbytes⟩ := Option.isSome_iff_exists.mp hall.1
    have hdecoded := hbytes
    rw [decodeText_eq] at hdecoded
    obtain ⟨s, -, rfl⟩ := Option.map_eq_some_iff.mp hdecoded
    refine ⟨s :: sets, by rw [List.map_cons, List.map_cons, hsets, hbytes], fun t => ?_⟩
    rw [List.mem_cons, hmem, List.exists_mem_cons_iff]
    refine or_congr_left ⟨fun ht => ht ▸ hbytes, fun ht => ?_⟩
    exact (bytesOf_inj (Option.some.inj (hbytes.symm.trans ht))).symm

/-- **What the text of the union says**: it is that of the minutes of the journals of all devices, each
of which has one. -/
theorem unionOfJournals_spec {contributing : List DeviceDayUsage} {text : String}
    (h : unionOfJournals contributing = some text) :
    ∃ s : MinuteSet, text = s.toB64url ∧
      ∀ i, i ∈ s.bits ↔ ∃ d ∈ contributing, ∃ t : MinuteSet, d.Journals t ∧ i ∈ t.bits := by
  unfold unionOfJournals at h
  dsimp only at h
  split at h
  · cases h
  split at h
  · rename_i hall
    obtain ⟨sets, hsets, hmem⟩ := exists_sets hall
    have hjournals : (sets.map fun s => some (bytesOf s)).filterMap id = sets.map bytesOf := by
      rw [List.filterMap_map]
      show sets.filterMap (some ∘ bytesOf) = _
      rw [List.filterMap_eq_map]
    rw [hsets, hjournals, ← bytesOf_empty, foldl_unionMinutes, encodeMinutes_bytesOf,
      Option.some_inj] at h
    refine ⟨_, h.symm, fun i => ?_⟩
    rw [mem_joinAll_bits]
    constructor
    · rintro (hi | ⟨t, ht, hi⟩)
      · exact absurd hi (Finset.notMem_empty i)
      · obtain ⟨d, hd, hjournal⟩ := (hmem t).mp ht
        exact ⟨d, hd, t, hjournal, hi⟩
    · rintro ⟨d, hd, t, hjournal, hi⟩
      exact .inr ⟨t, (hmem t).mpr ⟨d, hd, hjournal⟩, hi⟩
  · cases h

/-- There is a union when some device contributes, and each has a journal. -/
theorem unionOfJournals_eq_none_iff {contributing : List DeviceDayUsage} :
    unionOfJournals contributing = none ↔
      contributing = [] ∨ ∃ d ∈ contributing, decodeText d.minutesB64 = none := by
  unfold unionOfJournals
  dsimp only
  by_cases hnone : contributing = []
  · simp [hnone]
  · rw [if_neg hnone]
    by_cases hall : (contributing.map fun d => decodeText d.minutesB64).all Option.isSome = true
    · rw [if_pos hall]
      refine iff_of_false (by simp) ?_
      rintro (hnil | ⟨d, hd, hbad⟩)
      · exact hnone hnil
      · have hsome := List.all_eq_true.mp hall _ (List.mem_map_of_mem hd)
        rw [hbad] at hsome
        cases hsome
    · rw [if_neg hall]
      refine iff_of_true rfl (.inr ?_)
      by_contra hno
      push Not at hno
      refine hall (List.all_eq_true.mpr fun j hj => ?_)
      obtain ⟨d, hd, rfl⟩ := List.mem_map.mp hj
      exact Option.isSome_iff_ne_none.mpr (hno d hd)

/-- The order of the devices does not count. -/
theorem unionOfJournals_perm {l l' : List DeviceDayUsage} (h : l.Perm l') :
    unionOfJournals l = unionOfJournals l' := by
  have hmem : ∀ d, d ∈ l ↔ d ∈ l' := fun d => h.mem_iff
  cases hl : unionOfJournals l with
  | none =>
    refine (unionOfJournals_eq_none_iff.mpr ?_).symm
    rcases unionOfJournals_eq_none_iff.mp hl with rfl | ⟨d, hd, hbad⟩
    · exact .inl h.nil_eq.symm
    · exact .inr ⟨d, (hmem d).mp hd, hbad⟩
  | some text =>
    cases hl' : unionOfJournals l' with
    | none =>
      have hnone : unionOfJournals l = none := by
        refine unionOfJournals_eq_none_iff.mpr ?_
        rcases unionOfJournals_eq_none_iff.mp hl' with rfl | ⟨d, hd, hbad⟩
        · exact .inl h.eq_nil
        · exact .inr ⟨d, (hmem d).mpr hd, hbad⟩
      rw [hl] at hnone
      cases hnone
    | some text' =>
      obtain ⟨s, rfl, hs⟩ := unionOfJournals_spec hl
      obtain ⟨s', rfl, hs'⟩ := unionOfJournals_spec hl'
      have hsame : s = s' := by
        obtain ⟨bits⟩ := s
        obtain ⟨bits'⟩ := s'
        refine congrArg MinuteSet.mk (Finset.ext fun i => ?_)
        rw [hs, hs']
        simp only [hmem]
      rw [hsame]

/-- **What a device is told depends on the others alone**, in whatever order. -/
theorem buildUsageSync_congr (subject : PubKey) (receiver dayKey : String) (ts : Nat)
    {devices devices' : List DeviceDayUsage}
    (h : (devices.filter fun d => d.machine ≠ receiver).Perm
      (devices'.filter fun d => d.machine ≠ receiver)) :
    buildUsageSyncForDevice subject receiver dayKey ts devices =
      buildUsageSyncForDevice subject receiver dayKey ts devices' := by
  unfold buildUsageSyncForDevice
  dsimp only
  rw [(h.map fun d => d.secs.countedSecs).sum_eq, unionOfJournals_perm (h.filter _)]

/-! ## What is pooled -/

/-- **The pool counts a minute of any device once**, and no less than the device's own seconds. -/
theorem pooledToday_sync (cal : Calendar) (usage : UsageLedger) (now : Int) (subject : PubKey)
    (receiver : String) (ts : Nat) (devices : List DeviceDayUsage)
    (htold : (buildUsageSyncForDevice subject receiver (usage.currentDayKey cal now) ts
      devices).elsewhereMinutesToday.isSome = true)
    (hown : usage.journalled cal now = true) :
    ∃ s : MinuteSet,
      usage.pooledToday cal (some (buildUsageSyncForDevice subject receiver
        (usage.currentDayKey cal now) ts devices).consolidated) now =
          max (s.count * 60) (usage.usedToday cal now) ∧
      ∀ i, i ∈ s.bits ↔ i ∈ (usage.minutesToday cal now).bits ∨
        ∃ d ∈ devices, d.machine ≠ receiver ∧ d.secs.isPositive = true ∧
          ∃ t : MinuteSet, d.Journals t ∧ i ∈ t.bits := by
  obtain ⟨text, htext⟩ := Option.isSome_iff_exists.mp htold
  obtain ⟨s, rfl, hs⟩ := unionOfJournals_spec htext
  refine ⟨(usage.minutesToday cal now).union s, ?_, fun i => ?_⟩
  · have hread : (buildUsageSyncForDevice subject receiver (usage.currentDayKey cal now) ts
        devices).consolidated.elsewhereMinutesToday = some s := by
      unfold UsageSyncPayload.consolidated
      dsimp only
      rw [htext, Option.bind_some, fromB64url_toB64url]
    refine UsageLedger.pooledToday_of_byMinutes hread ?_
    unfold UsageLedger.pooledByMinutes
    rw [Option.any_some, hread, hown, Option.isSome_some, Bool.and_true, Bool.and_true]
    exact decide_eq_true rfl
  · unfold MinuteSet.union
    rw [Finset.mem_union, hs]
    simp only [List.mem_filter, decide_eq_true_eq, and_assoc]

/-- The journals that the history holds of a machine are those that its reports tell of. -/
theorem journals_devicesOn {reports : List UsageReport} {machines : List String} {dayKey : String}
    {d : DeviceDayUsage} (hd : d ∈ devicesOn (recordAll reports) machines dayKey) (i : Fin 1440) :
    (∃ t : MinuteSet, d.Journals t ∧ i ∈ t.bits) ↔
      ∃ r ∈ reports, ∃ t : MinuteSet, r.Tells d.machine dayKey t ∧ i ∈ t.bits := by
  obtain ⟨m, -, rfl⟩ := List.mem_map.mp hd
  obtain ⟨hnone, hsome⟩ := minutesByMachine_recordAll reports m dayKey
  unfold DeviceDayUsage.Journals
  dsimp only
  cases htext : (recordAll reports).minutesByMachine m dayKey with
  | none =>
    have hno := hnone.mp htext
    refine iff_of_false ?_ ?_
    · rintro ⟨t, ht, -⟩
      cases ht
    · rintro ⟨r, hr, t, ht, -⟩
      exact hno r hr t ht
  | some text =>
    obtain ⟨s, hread, hs⟩ := hsome text htext
    have htext' : text = s.toB64url := (toB64url_fromB64url hread).symm
    rw [← hs, htext', decodeText_toB64url]
    constructor
    · rintro ⟨t, ht, hi⟩
      rwa [bytesOf_inj (Option.some.inj ht)]
    · exact fun hi => ⟨s, rfl, hi⟩

section
open UsageLedger

/-- The minute before noon, twice: two minutes of use, of which the journal has one. -/
def noonTwice : UsageLedger := noonMinute.credit utcCalendar 1782734400 .active 60

def noonSet : MinuteSet := MinuteSet.empty.set 719

/-- Another device of the child, used in that minute. -/
def noonReport : UsageReport := ⟨"tablet", "2026-06-29", .finite 60, some noonSet.toB64url⟩

end

end Kintrinsic
