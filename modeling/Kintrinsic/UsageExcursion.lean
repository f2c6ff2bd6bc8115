import Kintrinsic.GuardedRun
import Kintrinsic.UsageUntrusted

/-! # A forward clock excursion is worth nothing

A ledger that a trusted tick has left on the real day rolls on an unconfirmed clock any
number of times.  Each roll sets the outgoing counters aside behind the real day's own,
and the trusted return folds everything back, so that no counter ends below what it held
and was credited, up to the top of its range. -/
namespace Kintrinsic

open CivilDate MachineWord PreRoll

/-! ## One track on an excursion -/

section Track
variable {T : Type} [PreRoll T] {parse : String → Option Int} {b : Int}
  {origin computed : String} {t : Track T}

/-- **The invariant of an excursion** from the key `origin`: the counters in force are on it
still, or the chain begins with the entry that was and the stored key is ahead. -/
structure Excursion (origin : String) (t : Track T) : Prop where
  parses : ∃ n, t.key = dateKey n
  length : t.chain.length ≤ preRollCap
  keys : ∀ e ∈ t.chain, origin ≤ key e
  reach : t.chain = [] ∧ t.key = origin ∨
    (∃ e, t.chain.head? = some e ∧ key e = origin) ∧ origin < t.key

theorem Excursion.congr {t' : Track T} (h : Excursion origin t) (hkey : t'.key = t.key)
    (hchain : t'.chain = t.chain) : Excursion origin t' :=
  ⟨hkey ▸ h.parses, hchain ▸ h.length, hchain ▸ h.keys, hkey ▸ hchain ▸ h.reach⟩

theorem Excursion.origin_le (h : Excursion origin t) : origin ≤ t.key := by
  rcases h.reach with ⟨-, hkey⟩ | ⟨-, hlt⟩
  · exact hkey.ge
  · exact hlt.le

/-- An untrusted roll keeps the invariant. -/
theorem Excursion.roll (hparse : ∀ n, parse (dateKey n) = some n) (h : Excursion origin t)
    (n : Int) : Excursion origin (t.roll parse false b (dateKey n)).1 := by
  obtain ⟨k, hk⟩ := h.parses
  have hahead : (daysAhead parse t.key (dateKey n)).isSome := by
    rw [hk, daysAhead, hparse, hparse]
    rfl
  rw [roll_untrusted hahead]
  by_cases hlt : t.key < dateKey n
  · rw [if_pos hlt]
    have hkey : (⟨fresh (dateKey n), pushPreRoll t.chain t.current⟩ : Track T).key = dateKey n :=
      key_fresh _
    refine ⟨⟨n, hkey⟩, length_pushPreRoll_le _ _, le_key_pushPreRoll h.keys h.origin_le, ?_⟩
    right
    refine ⟨?_, ?_⟩
    · rcases h.reach with ⟨hnil, hkey⟩ | ⟨⟨e, he, hkey⟩, -⟩
      · exact ⟨t.current, by rw [hnil, pushPreRoll_nil]; rfl, hkey⟩
      · refine ⟨e, ?_, hkey⟩
        rw [head_pushPreRoll (by rintro hnil; simp [hnil] at he), he]
    · rw [hkey]
      exact lt_of_le_of_lt h.origin_le hlt
  · rw [if_neg hlt]
    exact h

/-- An untrusted roll loses nothing but what saturates. -/
theorem Meter.total_roll (m : Meter T) (hparse : ∀ n, parse (dateKey n) = some n)
    (h : Excursion origin t) (n : Int) :
    min (m.total t) u64Max ≤ m.total (t.roll parse false b (dateKey n)).1 := by
  obtain ⟨k, hk⟩ := h.parses
  have hahead : (daysAhead parse t.key (dateKey n)).isSome := by
    rw [hk, daysAhead, hparse, hparse]
    rfl
  rw [roll_untrusted hahead]
  split
  · have hpush := m.sum_pushPreRoll t.chain t.current
    unfold Meter.total
    rw [m.read_fresh]
    omega
  · exact Nat.min_le_left _ _

/-- The first entry of a chain that has one is not touched by an untrusted roll. -/
theorem head_roll (hparse : ∀ n, parse (dateKey n) = some n) (h : Excursion origin t) (n : Int)
    (hchain : t.chain ≠ []) :
    (t.roll parse false b (dateKey n)).1.chain.head? = t.chain.head? := by
  obtain ⟨k, hk⟩ := h.parses
  have hahead : (daysAhead parse t.key (dateKey n)).isSome := by
    rw [hk, daysAhead, hparse, hparse]
    rfl
  rw [roll_untrusted hahead]
  split
  · exact head_pushPreRoll hchain _
  · rfl

/-- Everything keyed `origin` or later is taken back. -/
theorem takeRestorable_all {chain : List T} {e : T} (hkeys : ∀ e ∈ chain, origin ≤ key e)
    (hhead : chain.head? = some e) :
    ∃ rest, chain = e :: rest ∧
      takeRestorable chain origin = some (rest.foldl merge (setKey e origin)) := by
  obtain ⟨rest, rfl⟩ := List.head?_eq_some_iff.mp hhead
  have hall : (e :: rest).filter (fun x => decide (origin ≤ key x)) = e :: rest := by
    rw [List.filter_eq_self]
    intro x hx
    exact decide_eq_true (hkeys x hx)
  refine ⟨rest, rfl, ?_⟩
  rw [takeRestorable, hall]

/-- What a trusted roll on the origin does: nothing if no roll went before it, and else it
folds the whole chain back. -/
theorem Excursion.roll_return (hparse : ∀ n, parse (dateKey n) = some n) (hbound : 0 ≤ b)
    (h : Excursion origin t) :
    t.chain = [] ∧ t.key = origin ∧ t.roll parse true b origin = (⟨t.current, []⟩, none) ∨
      ∃ e rest, t.chain = e :: rest ∧ t.roll parse true b origin =
        (⟨merge (setKey t.current origin) (rest.foldl merge (setKey e origin)), []⟩,
          some (rest.foldl merge (setKey e origin))) := by
  rcases h.reach with ⟨hnil, hkey⟩ | ⟨⟨e, he, hekey⟩, hlt⟩
  · -- no roll happened: the key is current and nothing was set aside
    obtain ⟨k, hk⟩ := h.parses
    have hdrop : dropBack true (daysAhead parse t.key origin) b = false := by
      rw [← hkey, hk, daysAhead, hparse]
      simpa [dropBack] using hbound
    have hrestores : chainRestores true t.chain t.key origin = false := by
      simp [chainRestores, hnil]
    have hroll : t.roll parse true b origin = (t.close true origin, none) := by
      rw [Track.roll, if_neg (by rw [hkey]; exact lt_irrefl _), hrestores, hdrop]
      rfl
    refine Or.inl ⟨hnil, hkey, ?_⟩
    rw [hroll, Track.close, if_pos ⟨rfl, hkey⟩]
  · obtain ⟨rest, hchain, htake⟩ := takeRestorable_all h.keys he
    have hrestores : chainRestores true t.chain t.key origin = true := by
      simp [chainRestores, he, hlt, hekey]
    refine Or.inr ⟨e, rest, hchain, ?_⟩
    rw [Track.roll, if_neg (not_lt.mpr hlt.le), if_pos hrestores, Track.restore, htake]
    dsimp only
    rw [Track.close, if_pos ⟨rfl, by rw [Track.key, key_merge, key_setKey]⟩]

/-- **The trusted return.**  Back on the origin the chain is closed, and the counters in
force hold all that the excursion spent. -/
theorem Excursion.return (hparse : ∀ n, parse (dateKey n) = some n) (hbound : 0 ≤ b)
    (h : Excursion origin t) :
    (t.roll parse true b origin).1.key = origin ∧
      (t.roll parse true b origin).1.chain = [] ∧
      ∀ m : Meter T, min (m.total t) u64Max ≤ m.read (t.roll parse true b origin).1.current := by
  rcases h.roll_return hparse hbound with ⟨hnil, hkey, hroll⟩ | ⟨e, rest, hchain, hroll⟩
  · rw [hroll]
    refine ⟨hkey, rfl, ?_⟩
    intro m
    rw [Meter.total, hnil, Meter.sum_nil, Nat.zero_add]
    exact Nat.min_le_left _ _
  · rw [hroll]
    refine ⟨by rw [Track.key, key_merge, key_setKey], rfl, ?_⟩
    intro m
    have hrest := m.read_foldl_merge rest (setKey e origin)
    rw [m.read_setKey] at hrest
    rw [m.read_merge, m.read_setKey, Meter.total, hchain, Meter.sum_cons]
    unfold addU64
    omega

end Track

namespace UsageLedger
variable {cal : Calendar} {l : UsageLedger}

/-- What can happen to a ledger between two confirmations of the clock. -/
inductive Outing
  | credit (c : Credit)
  | markOutOfHours (secs : Nat)
  | restart

def Outing.apply (cal : Calendar) (l : UsageLedger) : Outing → UsageLedger
  | credit c => c.apply cal l
  | markOutOfHours secs => l.markOutOfHours secs
  | restart => l.restored

/-- The seconds a step credits, by what a call would. -/
def Outing.secs (amount : Credit → Nat) : Outing → Nat
  | credit c => amount c
  | _ => 0

/-- The ledger after a run. -/
def outing (cal : Calendar) (l : UsageLedger) (as : List Outing) : UsageLedger :=
  as.foldl (Outing.apply cal) l

/-- A ledger as a trusted tick leaves it: both keys current, both chains closed. -/
structure Settled (cal : Calendar) (l : UsageLedger) (now : Int) : Prop where
  dayKey : l.day.key = l.dayKeyAt cal now
  dayChain : l.day.chain = []
  weekKey : l.week.key = l.weekKeyAt cal now
  weekChain : l.week.chain = []

/-- A counter of the day that credits move: the meter, and what each call adds to it. -/
structure DayCounter where
  meter : Meter DayCounters
  amount : Credit → Nat
  added : ∀ {c : Credit} {rolled l : UsageLedger}, c.Adds rolled l →
    Added (amount c) (meter.read rolled.day.current) (meter.read l.day.current)
  marked : ∀ (l : UsageLedger) (secs : Nat),
    meter.read (l.markOutOfHours secs).day.current = meter.read l.day.current

/-- A counter of the week that credits move. -/
structure WeekCounter where
  meter : Meter WeekCounters
  amount : Credit → Nat
  rolled : ∀ {cal : Calendar} {l l' : UsageLedger} {now : Int}, l.Rolled cal now l' →
    meter.read l'.week.current =
      meter.read (l.week.roll cal.parse l.clockTrusted 7 (l.weekKeyAt cal now)).1.current
  added : ∀ {c : Credit} {rolled l : UsageLedger}, c.Adds rolled l →
    Added (amount c) (meter.read rolled.week.current) (meter.read l.week.current)
  marked : ∀ (l : UsageLedger) (secs : Nat),
    meter.read (l.markOutOfHours secs).week.current = meter.read l.week.current

theorem markOutOfHours_cases {P : UsageLedger → Prop} {secs : Nat} (hzero : P l)
    (hadd : ∀ outOfHours outOfHoursWeek nights, P { l with
      day.current.outOfHoursTodaySecs := outOfHours
      week.current.outOfHoursWeekSecs := outOfHoursWeek
      week.current.outOfHoursNightsWeek := nights }) : P (l.markOutOfHours secs) := by
  unfold markOutOfHours
  split
  · exact hzero
  · exact hadd _ _ _

theorem markOutOfHours_chains (secs : Nat) :
    (l.markOutOfHours secs).day.chain = l.day.chain ∧
      (l.markOutOfHours secs).week.chain = l.week.chain :=
  markOutOfHours_cases (P := fun l' => l'.day.chain = l.day.chain ∧
    l'.week.chain = l.week.chain) ⟨rfl, rfl⟩ fun _ _ _ => ⟨rfl, rfl⟩

def usedTodayCounter : DayCounter :=
  ⟨usedTodayMeter, Credit.screenSecs, fun h => h.used,
    fun l _ => markOutOfHours_cases (P := fun l' => usedTodayMeter.read l'.day.current =
      usedTodayMeter.read l.day.current) rfl fun _ _ _ => rfl⟩

def learningCounter : DayCounter :=
  ⟨learningMeter, Credit.learningSecs, fun h => h.learning,
    fun l _ => markOutOfHours_cases (P := fun l' => learningMeter.read l'.day.current =
      learningMeter.read l.day.current) rfl fun _ _ _ => rfl⟩

def unrecognisedCounter : DayCounter :=
  ⟨unrecognisedMeter, Credit.unrecognisedSecs, fun h => h.unrecognised,
    fun l _ => markOutOfHours_cases (P := fun l' => unrecognisedMeter.read l'.day.current =
      unrecognisedMeter.read l.day.current) rfl fun _ _ _ => rfl⟩

def bucketCounter (id : String) : DayCounter :=
  ⟨bucketMeter id, Credit.bucketSecs id, fun h => h.buckets id,
    fun l _ => markOutOfHours_cases (P := fun l' => (bucketMeter id).read l'.day.current =
      (bucketMeter id).read l.day.current) rfl fun _ _ _ => rfl⟩

def usedWeekCounter : WeekCounter :=
  ⟨usedWeekMeter, Credit.screenSecs, fun h => h.usedWeek, fun h => h.usedWeek,
    fun l _ => markOutOfHours_cases (P := fun l' => usedWeekMeter.read l'.week.current =
      usedWeekMeter.read l.week.current) rfl fun _ _ _ => rfl⟩

def bucketWeekCounter (id : String) : WeekCounter :=
  ⟨bucketWeekMeter id, Credit.bucketSecs id, fun h => congrFun h.bucketsWeek id,
    fun h => h.bucketsWeek id,
    fun l _ => markOutOfHours_cases (P := fun l' => (bucketWeekMeter id).read l'.week.current =
      (bucketWeekMeter id).read l.week.current) rfl fun _ _ _ => rfl⟩

/-! ## Away -/

/-- **The invariant of a run away** from the keys `day` and `week`. -/
structure Away (day week : String) (l : UsageLedger) : Prop where
  untrusted : l.clockTrusted = false
  dayTrack : Excursion day l.day
  weekTrack : Excursion week l.week

variable {day week : String}

theorem Away.credit (hcal : cal.ReadsBack) (hl : Away day week l) (c : Credit) :
    Away day week (c.apply cal l) := by
  have hadds := Credit.adds_apply cal l c
  have hrolled := l.rolled_roll cal c.now
  have hday := hl.dayTrack.roll (b := 1) hcal ((l.zone cal).localDay c.now)
  have hweek := hl.weekTrack.roll (b := 7) hcal
    (weekStartDay l.weekStart.fromSunday ((l.zone cal).localDay c.now))
  have hrday := hrolled.day
  have hrkey := hrolled.weekKey
  have hrchain := hrolled.weekChain
  rw [hl.untrusted] at hrday hrkey hrchain
  refine ⟨(Credit.apply_clockTrusted c).trans hl.untrusted, ?_, ?_⟩
  · refine hday.congr ?_ ?_
    · rw [hadds.dayKey, hrday]
      rfl
    · rw [hadds.dayChain, hrday]
      rfl
  · refine hweek.congr ?_ ?_
    · rw [hadds.weekKey, hrkey]
      rfl
    · rw [hadds.weekChain, hrchain]
      rfl

theorem Away.apply (hcal : cal.ReadsBack) (hl : Away day week l) (a : Outing) :
    Away day week (a.apply cal l) := by
  cases a with
  | credit c => exact hl.credit hcal c
  | markOutOfHours secs =>
    exact markOutOfHours_cases hl fun _ _ _ =>
      ⟨hl.untrusted, hl.dayTrack.congr rfl rfl, hl.weekTrack.congr rfl rfl⟩
  | restart => exact ⟨rfl, hl.dayTrack, hl.weekTrack⟩

/-- One step away adds its seconds to what a counter of the day holds in all. -/
theorem DayCounter.total_apply (k : DayCounter) (hcal : cal.ReadsBack) (hl : Away day week l)
    (a : Outing) :
    min (k.meter.total l.day + a.secs k.amount) u64Max ≤ k.meter.total (a.apply cal l).day := by
  cases a with
  | credit c =>
    have hadds := Credit.adds_apply cal l c
    have hrday := (l.rolled_roll cal c.now).day
    have hroll := k.meter.total_roll (b := 1) hcal hl.dayTrack ((l.zone cal).localDay c.now)
    have hadded := (k.added hadds).min_le
    rw [hl.untrusted] at hrday
    change (l.roll cal c.now).day = (l.day.roll cal.parse false 1
      (dateKey ((l.zone cal).localDay c.now))).1 at hrday
    rw [← hrday] at hroll
    change min (k.meter.total l.day + k.amount c) u64Max ≤ k.meter.total (c.apply cal l).day
    unfold Meter.total at hroll ⊢
    rw [hadds.dayChain]
    omega
  | markOutOfHours secs =>
    change min (k.meter.total l.day + 0) u64Max ≤ k.meter.total (l.markOutOfHours secs).day
    unfold Meter.total
    rw [(markOutOfHours_chains secs).1, k.marked]
    exact Nat.min_le_left _ _
  | restart => exact Nat.min_le_left _ _

/-- The same for a counter of the week. -/
theorem WeekCounter.total_apply (k : WeekCounter) (hcal : cal.ReadsBack) (hl : Away day week l)
    (a : Outing) :
    min (k.meter.total l.week + a.secs k.amount) u64Max ≤ k.meter.total (a.apply cal l).week := by
  cases a with
  | credit c =>
    have hadds := Credit.adds_apply cal l c
    have hrolled := l.rolled_roll cal c.now
    have hroll := k.meter.total_roll (b := 7) hcal hl.weekTrack
      (weekStartDay l.weekStart.fromSunday ((l.zone cal).localDay c.now))
    have hread := k.rolled hrolled
    have hchain := hrolled.weekChain
    have hadded := (k.added hadds).min_le
    rw [hl.untrusted] at hread hchain
    change min (k.meter.total l.week + k.amount c) u64Max ≤ k.meter.total (c.apply cal l).week
    unfold Meter.total at hroll ⊢
    rw [hadds.weekChain, hchain]
    rw [hread] at hadded
    change _ ≤ k.meter.sum (l.week.roll cal.parse false 7 (dateKey
      (weekStartDay l.weekStart.fromSunday ((l.zone cal).localDay c.now)))).1.chain + _
    change min (k.meter.read (l.week.roll cal.parse false 7 (dateKey (weekStartDay
      l.weekStart.fromSunday ((l.zone cal).localDay c.now)))).1.current + _) u64Max ≤ _ at hadded
    omega
  | markOutOfHours secs =>
    change min (k.meter.total l.week + 0) u64Max ≤ k.meter.total (l.markOutOfHours secs).week
    unfold Meter.total
    rw [(markOutOfHours_chains secs).2, k.marked]
    exact Nat.min_le_left _ _
  | restart => exact Nat.min_le_left _ _

/-- The seconds a run credits. -/
def secsOf (amount : Credit → Nat) (as : List Outing) : Nat := (as.map (Outing.secs amount)).sum

theorem Away.run (hcal : cal.ReadsBack) (hl : Away day week l) (as : List Outing) :
    Away day week (outing cal l as) :=
  GuardedRun.foldl_invariant (I := Away day week) (fun _ a h => h.apply hcal a) as hl

theorem DayCounter.total_run (k : DayCounter) (hcal : cal.ReadsBack) (hl : Away day week l)
    (as : List Outing) :
    min (k.meter.total l.day + secsOf k.amount as) u64Max ≤ k.meter.total (outing cal l as).day := by
  induction as generalizing l with
  | nil => exact Nat.min_le_left _ _
  | cons a as ih =>
    have hstep := k.total_apply hcal hl a
    have hrest := ih (hl.apply hcal a)
    change min (k.meter.total l.day + (a.secs k.amount + secsOf k.amount as)) u64Max ≤
      k.meter.total (outing cal (a.apply cal l) as).day
    omega

theorem WeekCounter.total_run (k : WeekCounter) (hcal : cal.ReadsBack) (hl : Away day week l)
    (as : List Outing) :
    min (k.meter.total l.week + secsOf k.amount as) u64Max ≤
      k.meter.total (outing cal l as).week := by
  induction as generalizing l with
  | nil => exact Nat.min_le_left _ _
  | cons a as ih =>
    have hstep := k.total_apply hcal hl a
    have hrest := ih (hl.apply hcal a)
    change min (k.meter.total l.week + (a.secs k.amount + secsOf k.amount as)) u64Max ≤
      k.meter.total (outing cal (a.apply cal l) as).week
    omega

@[simp] theorem Outing.apply_tz (a : Outing) : (a.apply cal l).tz = l.tz := by
  cases a with
  | credit c => exact Credit.apply_tz c
  | markOutOfHours secs =>
    exact markOutOfHours_cases (P := fun l' => l'.tz = l.tz) rfl fun _ _ _ => rfl
  | restart => rfl

@[simp] theorem Outing.apply_weekStart (a : Outing) : (a.apply cal l).weekStart = l.weekStart := by
  cases a with
  | credit c => exact Credit.apply_weekStart c
  | markOutOfHours secs =>
    exact markOutOfHours_cases (P := fun l' => l'.weekStart = l.weekStart) rfl fun _ _ _ => rfl
  | restart => rfl

theorem outing_frame (as : List Outing) :
    (outing cal l as).tz = l.tz ∧ (outing cal l as).weekStart = l.weekStart := by
  refine GuardedRun.foldl_invariant
    (I := fun l' : UsageLedger => l'.tz = l.tz ∧ l'.weekStart = l.weekStart) ?_ as ⟨rfl, rfl⟩
  intro l' a ⟨htz, hweek⟩
  exact ⟨(Outing.apply_tz a).trans htz, (Outing.apply_weekStart a).trans hweek⟩

/-- The first entries of the chains, once there, are not touched again. -/
theorem Away.heads (hcal : cal.ReadsBack) (hl : Away day week l) (a : Outing) :
    (l.day.chain ≠ [] → (a.apply cal l).day.chain.head? = l.day.chain.head?) ∧
      (l.week.chain ≠ [] → (a.apply cal l).week.chain.head? = l.week.chain.head?) := by
  cases a with
  | credit c =>
    have hadds := Credit.adds_apply cal l c
    have hrolled := l.rolled_roll cal c.now
    have hday := hrolled.day
    have hweek := hrolled.weekChain
    rw [hl.untrusted] at hday hweek
    refine ⟨fun hne => ?_, fun hne => ?_⟩
    · change (c.apply cal l).day.chain.head? = _
      rw [hadds.dayChain, hday]
      exact head_roll hcal hl.dayTrack _ hne
    · change (c.apply cal l).week.chain.head? = _
      rw [hadds.weekChain, hweek]
      exact head_roll hcal hl.weekTrack _ hne
  | markOutOfHours secs =>
    obtain ⟨hday, hweek⟩ := markOutOfHours_chains (l := l) secs
    exact ⟨fun _ => congrArg List.head? hday, fun _ => congrArg List.head? hweek⟩
  | restart => exact ⟨fun _ => rfl, fun _ => rfl⟩

theorem Away.heads_run (hcal : cal.ReadsBack) (hl : Away day week l) (as : List Outing) :
    (l.day.chain ≠ [] → (outing cal l as).day.chain.head? = l.day.chain.head?) ∧
      (l.week.chain ≠ [] → (outing cal l as).week.chain.head? = l.week.chain.head?) := by
  induction as generalizing l with
  | nil => exact ⟨fun _ => rfl, fun _ => rfl⟩
  | cons a as ih =>
    obtain ⟨hday, hweek⟩ := hl.heads hcal a
    obtain ⟨hday', hweek'⟩ := ih (hl.apply hcal a)
    refine ⟨fun hne => ?_, fun hne => ?_⟩
    · refine (hday' ?_).trans (hday hne)
      rwa [ne_eq, ← List.head?_eq_none_iff, hday hne, List.head?_eq_none_iff]
    · refine (hweek' ?_).trans (hweek hne)
      rwa [ne_eq, ← List.head?_eq_none_iff, hweek hne, List.head?_eq_none_iff]

/-! ## And back -/

/-- A settled ledger is at the start of a run away from its own keys. -/
theorem Settled.away {now : Int} (hl : l.Settled cal now) :
    Away l.day.key l.week.key (l.setClockTrusted false) := by
  refine ⟨rfl, ⟨⟨_, hl.dayKey⟩, ?_, ?_, Or.inl ⟨hl.dayChain, rfl⟩⟩,
    ⟨⟨_, hl.weekKey⟩, ?_, ?_, Or.inl ⟨hl.weekChain, rfl⟩⟩⟩
  · simp [setClockTrusted, hl.dayChain]
  · simp [setClockTrusted, hl.dayChain]
  · simp [setClockTrusted, hl.weekChain]
  · simp [setClockTrusted, hl.weekChain]

/-- A run on an unconfirmed clock, and a credit on a confirmed one. -/
def excursion (cal : Calendar) (l : UsageLedger) (as : List Outing) (c : Credit) : UsageLedger :=
  c.apply cal ((outing cal (l.setClockTrusted false) as).setClockTrusted true)

/-- What the credit that ends an excursion finds: the keys it began on, and in each counter
at least what the tracks hold in all and what it adds itself. -/
structure Returned (away l : UsageLedger) (c : Credit) (day week : String) : Prop where
  dayKey : l.day.key = day
  weekKey : l.week.key = week
  dayCounter : ∀ k : DayCounter,
    min (k.meter.total away.day + k.amount c) u64Max ≤ k.meter.read l.day.current
  weekCounter : ∀ k : WeekCounter,
    min (k.meter.total away.week + k.amount c) u64Max ≤ k.meter.read l.week.current

theorem Away.return (hcal : cal.ReadsBack) (hl : Away day week l) {c : Credit}
    (hday : l.dayKeyAt cal c.now = day) (hweek : l.weekKeyAt cal c.now = week) :
    Returned l (c.apply cal (l.setClockTrusted true)) c day week := by
  have hadds := Credit.adds_apply cal (l.setClockTrusted true) c
  have hrolled := (l.setClockTrusted true).rolled_roll cal c.now
  obtain ⟨hdkey, -, hdread⟩ := hl.dayTrack.return (b := 1) hcal (by decide)
  obtain ⟨hwkey, -, hwread⟩ := hl.weekTrack.return (b := 7) hcal (by decide)
  rw [← hday] at hdkey hdread
  rw [← hweek] at hwkey hwread
  refine ⟨?_, ?_, ?_, ?_⟩
  · rw [hadds.dayKey, hrolled.day, ← hday]
    exact hdkey
  · rw [hadds.weekKey, hrolled.weekKey, ← hweek]
    exact hwkey
  · intro k
    have hadded := (k.added hadds).min_le
    have hback := hdread k.meter
    rw [hrolled.day] at hadded
    change min (k.meter.read (l.day.roll cal.parse true 1 (l.dayKeyAt cal c.now)).1.current + _)
      u64Max ≤ _ at hadded
    omega
  · intro k
    have hadded := (k.added hadds).min_le
    have hback := hwread k.meter
    rw [k.rolled hrolled] at hadded
    change min (k.meter.read (l.week.roll cal.parse true 7 (l.weekKeyAt cal c.now)).1.current + _)
      u64Max ≤ _ at hadded
    omega

/-- The return of a settled ledger's excursion. -/
theorem Settled.return (hcal : cal.ReadsBack) {now : Int} (hl : l.Settled cal now)
    (as : List Outing) {c : Credit} (hc : (l.zone cal).localDay c.now = (l.zone cal).localDay now) :
    Returned (outing cal (l.setClockTrusted false) as) (excursion cal l as c) c l.day.key
      l.week.key := by
  obtain ⟨htz, hws⟩ := outing_frame (l := l.setClockTrusted false) as
  refine (hl.away.run hcal as).return hcal ?_ ?_
  · rw [hl.dayKey, dayKeyAt, dayKeyAt, zone, htz]
    exact congrArg dateKey hc
  · rw [hl.weekKey, weekKeyAt, weekKeyAt, zone, htz, hws]
    exact congrArg (fun d => dateKey (weekStartDay l.weekStart.fromSunday d)) hc

theorem DayCounter.regained (k : DayCounter) (hcal : cal.ReadsBack) {now : Int}
    (hl : l.Settled cal now) (as : List Outing) {c : Credit}
    (hc : (l.zone cal).localDay c.now = (l.zone cal).localDay now) :
    min (k.meter.read l.day.current + (secsOf k.amount as + k.amount c)) u64Max ≤
      k.meter.read (excursion cal l as c).day.current := by
  have hrun := k.total_run hcal hl.away as
  have hback := (hl.return hcal as hc).dayCounter k
  have hstart : k.meter.total (l.setClockTrusted false).day = k.meter.read l.day.current := by
    simp [Meter.total, setClockTrusted, hl.dayChain]
  rw [hstart] at hrun
  omega

theorem WeekCounter.regained (k : WeekCounter) (hcal : cal.ReadsBack) {now : Int}
    (hl : l.Settled cal now) (as : List Outing) {c : Credit}
    (hc : (l.zone cal).localDay c.now = (l.zone cal).localDay now) :
    min (k.meter.read l.week.current + (secsOf k.amount as + k.amount c)) u64Max ≤
      k.meter.read (excursion cal l as c).week.current := by
  have hrun := k.total_run hcal hl.away as
  have hback := (hl.return hcal as hc).weekCounter k
  have hstart : k.meter.total (l.setClockTrusted false).week = k.meter.read l.week.current := by
    simp [Meter.total, setClockTrusted, hl.weekChain]
  rw [hstart] at hrun
  omega

/-- After an excursion and the credit that ends it, every counter reads at least what it read
before and all that was credited, as far as a 64-bit counter holds it. -/
structure NothingGained (cal : Calendar) (l : UsageLedger) (now : Int) (as : List Outing)
    (c : Credit) : Prop where
  used : min (l.usedToday cal now + (secsOf Credit.screenSecs as + c.screenSecs)) u64Max ≤
    (excursion cal l as c).usedToday cal c.now
  learning :
    min (l.learningToday cal now + (secsOf Credit.learningSecs as + c.learningSecs)) u64Max ≤
      (excursion cal l as c).learningToday cal c.now
  unrecognised :
    min (l.unrecognisedToday cal now + (secsOf Credit.unrecognisedSecs as + c.unrecognisedSecs))
      u64Max ≤ (excursion cal l as c).unrecognisedToday cal c.now
  buckets : ∀ id, min (l.appBucketToday cal now id +
      (secsOf (Credit.bucketSecs id) as + c.bucketSecs id)) u64Max ≤
    (excursion cal l as c).appBucketToday cal c.now id
  usedWeek : min (l.usedWeek cal now + (secsOf Credit.screenSecs as + c.screenSecs)) u64Max ≤
    (excursion cal l as c).usedWeek cal c.now
  bucketsWeek : ∀ id, min (l.appBucketWeek cal now id +
      (secsOf (Credit.bucketSecs id) as + c.bucketSecs id)) u64Max ≤
    (excursion cal l as c).appBucketWeek cal c.now id

/-- Both chains are within their cap and begin with an entry of the given keys. -/
structure ChainsBounded (day week : String) (l : UsageLedger) : Prop where
  dayLength : l.day.chain.length ≤ preRollCap
  weekLength : l.week.chain.length ≤ preRollCap
  dayFirst : ∀ e, l.day.chain.head? = some e → e.key = day
  weekFirst : ∀ e, l.week.chain.head? = some e → e.key = week

/-- The first entries of both chains, where there are any, are the same later on. -/
structure FirstsKept (l l' : UsageLedger) : Prop where
  day : l.day.chain ≠ [] → l'.day.chain.head? = l.day.chain.head?
  week : l.week.chain ≠ [] → l'.week.chain.head? = l.week.chain.head?

theorem Away.chainsBounded (hl : Away day week l) : ChainsBounded day week l := by
  refine ⟨hl.dayTrack.length, hl.weekTrack.length, ?_, ?_⟩
  · intro e he
    rcases hl.dayTrack.reach with ⟨hnil, -⟩ | ⟨⟨e', he', hkey⟩, -⟩
    · simp [hnil] at he
    · exact (Option.some.inj (he.symm.trans he')) ▸ hkey
  · intro e he
    rcases hl.weekTrack.reach with ⟨hnil, -⟩ | ⟨⟨e', he', hkey⟩, -⟩
    · simp [hnil] at he
    · exact (Option.some.inj (he.symm.trans he')) ▸ hkey

theorem dayHasRolled_current {now : Int} (h : l.day.key = l.dayKeyAt cal now) :
    l.dayHasRolled cal now = false := by
  simp [dayHasRolled, h]

theorem weekHasRolled_current {now : Int} (h : l.week.key = l.weekKeyAt cal now) :
    l.weekHasRolled cal now = false := by
  simp [weekHasRolled, h]

/-- **A forward excursion is worth nothing.**  From a ledger whose keys are both current and
whose chains are closed, after any run on an unconfirmed clock, restarts included, and a
credit on a confirmed one on the same local day, nothing has been gained; on the way the
chains stay within their cap, begin with the real day's and the real week's entry, and never
lose it. -/
theorem excursion_worth_nothing (hcal : cal.ReadsBack) {now : Int} (hl : l.Settled cal now)
    (as : List Outing) (c : Credit)
    (hc : (l.zone cal).localDay c.now = (l.zone cal).localDay now) :
    NothingGained cal l now as c ∧
      ChainsBounded l.day.key l.week.key (outing cal (l.setClockTrusted false) as) ∧
      ∀ more, FirstsKept (outing cal (l.setClockTrusted false) as)
        (outing cal (l.setClockTrusted false) (as ++ more)) := by
  have haway := hl.away.run hcal as
  refine ⟨?_, haway.chainsBounded, ?_⟩
  · have hret := hl.return hcal as hc
    have htz : (excursion cal l as c).zone cal = l.zone cal := by
      rw [zone, zone, excursion, Credit.apply_tz]
      exact congrArg (Tz.ofName cal.zones) (outing_frame as).1
    have hws : (excursion cal l as c).weekStart = l.weekStart := by
      rw [excursion, Credit.apply_weekStart]
      exact (outing_frame as).2
    have hday : (excursion cal l as c).dayHasRolled cal c.now = false := by
      refine dayHasRolled_current ?_
      rw [hret.dayKey, hl.dayKey, dayKeyAt, dayKeyAt, htz]
      exact congrArg dateKey hc.symm
    have hweek : (excursion cal l as c).weekHasRolled cal c.now = false := by
      refine weekHasRolled_current ?_
      rw [hret.weekKey, hl.weekKey, weekKeyAt, weekKeyAt, htz, hws]
      exact congrArg (fun d => dateKey (weekStartDay l.weekStart.fromSunday d)) hc.symm
    have hday₀ := dayHasRolled_current hl.dayKey
    have hweek₀ := weekHasRolled_current hl.weekKey
    constructor
    · rw [usedToday, usedToday, hday, hday₀]
      exact usedTodayCounter.regained hcal hl as hc
    · rw [learningToday, learningToday, hday, hday₀]
      exact learningCounter.regained hcal hl as hc
    · rw [unrecognisedToday, unrecognisedToday, hday, hday₀]
      exact unrecognisedCounter.regained hcal hl as hc
    · intro id
      rw [appBucketToday, appBucketToday, hday, hday₀]
      exact (bucketCounter id).regained hcal hl as hc
    · rw [usedWeek, usedWeek, hweek, hweek₀]
      exact usedWeekCounter.regained hcal hl as hc
    · intro id
      rw [appBucketWeek, appBucketWeek, hweek, hweek₀]
      exact (bucketWeekCounter id).regained hcal hl as hc
  · intro more
    have hmore : outing cal (l.setClockTrusted false) (as ++ more) =
        outing cal (outing cal (l.setClockTrusted false) as) more := List.foldl_append
    obtain ⟨hd, hw⟩ := haway.heads_run hcal more
    rw [hmore]
    exact ⟨hd, hw⟩

/-- Twenty fake midnights with a minute each, and a restart halfway. -/
def twentyMidnights : List Outing :=
  ((List.range 10).map fun n => .credit (.bucket (1782820800 + 86400 * n) .active .screen 60)) ++
    .restart :: (List.range 10).map fun n =>
      .credit (.bucket (1783684800 + 86400 * n) .active .screen 60)

theorem excursion_worth_nothing_twentyMidnights :
    NothingGained utcCalendar noonLedger 1782734400 twentyMidnights
      (.bucket 1782738000 .active .screen 5) ∧
    (excursion utcCalendar noonLedger twentyMidnights
      (.bucket 1782738000 .active .screen 5)).usedToday utcCalendar 1782738000 = 1205 := by
  have hl : noonLedger.Settled utcCalendar 1782734400 := ⟨rfl, rfl, rfl, rfl⟩
  exact ⟨(excursion_worth_nothing utcCalendar_readsBack hl twentyMidnights
    (.bucket 1782738000 .active .screen 5) (by decide +kernel)).1, by decide +kernel⟩

/-- A ledger a trusted clock left on 2026-06-29 after an hour that it had put a week later. -/
def weekAheadLedger : UsageLedger :=
  (((UsageLedger.new utcCalendar "UTC" .mon 1783339200).setClockTrusted true).credit utcCalendar
    1783339200 .active 100).credit utcCalendar 1782734400 .active 0

/-- **Where the return falls short.**  A counter at the top of its range gains nothing more;
and a week key one week ahead is not dropped back, so that a run from there opens its chain
past the real week and the return forgets what the chain holds. -/
theorem excursion_exceptions :
    ((excursion utcCalendar noonLedger [.credit (.bucket 1782734400 .active .screen (2 ^ 64 - 1))]
        (.bucket 1782734400 .active .screen 1)).usedToday utcCalendar 1782734400 = 2 ^ 64 - 1) ∧
      (weekAheadLedger.clockTrusted = true ∧
        weekAheadLedger.day.key = weekAheadLedger.dayKeyAt utcCalendar 1782734400 ∧
        weekAheadLedger.week.current.usedWeekSecs = 100 ∧
        (excursion utcCalendar weekAheadLedger
          [.credit (.bucket 1784030400 .active .screen 60)]
          (.bucket 1782734400 .active .screen 0)).usedWeek utcCalendar 1782734400 = 60) := by
  decide +kernel

end UsageLedger
end Kintrinsic
