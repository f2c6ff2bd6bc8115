import Kintrinsic.UsageExcursion
import Kintrinsic.UsageRecovery

/-! # Nights of an excursion

Out-of-hours use makes a night of each day it is first marked on, and the trusted return takes
one night off again when both the days set aside and the last one had some.  So an excursion
on whose fake days it is marked is one night more only as long as it marks no more than one
day, or two of which the last is the one it returns from. -/
namespace Kintrinsic

open CivilDate MachineWord PreRoll

/-- One number read off the counters that absorbs up to a cap. -/
structure Gauge (T : Type) [PreRoll T] where
  cap : Nat
  read : T → Nat
  read_fresh : ∀ k, read (fresh k) = 0
  read_setKey : ∀ t k, read (setKey t k) = read t
  read_merge : ∀ t u, read (merge t u) = min (read t + read u) cap

namespace Gauge
variable {T : Type} [PreRoll T] (g : Gauge T)

def sum (l : List T) : Nat := (l.map g.read).sum

/-- What a track holds in all. -/
def total (t : Track T) : Nat := g.sum t.chain + g.read t.current

@[simp] theorem sum_nil : g.sum [] = 0 := rfl

@[simp] theorem sum_cons (t : T) (l : List T) : g.sum (t :: l) = g.read t + g.sum l := rfl

theorem sum_reverse (l : List T) : g.sum l.reverse = g.sum l := by
  rw [sum, List.map_reverse, List.sum_reverse, sum]

/-- Below the cap merging is adding. -/
theorem sum_shorten (n : Nat) (l : List T) (h : g.sum l ≤ g.cap) :
    g.sum (shorten n l) = g.sum l := by
  induction n generalizing l with
  | zero => simp [shorten]
  | succ n ih =>
    rcases l with _ | ⟨newest, _ | ⟨prev, rest⟩⟩
    · simp [shorten]
    · simp [shorten]
    · simp only [sum_cons] at h
      have hmerge : g.read (mergeNewest newest prev) = g.read newest + g.read prev := by
        rw [mergeNewest, g.read_setKey, g.read_merge]
        omega
      have hrest := ih (mergeNewest newest prev :: rest) (by rw [sum_cons, hmerge]; omega)
      rw [sum_cons, hmerge] at hrest
      simp only [sum_cons, shorten]
      omega

theorem sum_pushPreRoll (chain : List T) (entry : T) (h : g.sum chain + g.read entry ≤ g.cap) :
    g.sum (pushPreRoll chain entry) = g.sum chain + g.read entry := by
  have hsum : g.sum (entry :: chain.reverse) = g.sum chain + g.read entry := by
    rw [sum_cons, sum_reverse]
    omega
  rw [pushPreRoll, sum_reverse, g.sum_shorten _ _ (by omega), hsum]

theorem read_foldl_merge (l : List T) (t : T) (h : g.read t + g.sum l ≤ g.cap) :
    g.read (l.foldl merge t) = g.read t + g.sum l := by
  induction l generalizing t with
  | nil => simp
  | cons e l ih =>
    rw [sum_cons] at h ⊢
    have hmerge : g.read (merge t e) = g.read t + g.read e := by
      rw [g.read_merge]
      omega
    rw [List.foldl_cons, ih _ (by omega), hmerge]
    omega

/-- A roll that sets aside keeps the total. -/
theorem total_setAside (t : Track T) (k : String) (h : g.total t ≤ g.cap) :
    g.total ⟨fresh k, pushPreRoll t.chain t.current⟩ = g.total t := by
  unfold total at h ⊢
  rw [g.sum_pushPreRoll _ _ h, g.read_fresh]
  omega

/-- And the trusted return brings all of it into force. -/
theorem read_return {e : T} {rest : List T} (t : Track T) (hchain : t.chain = e :: rest)
    (k k' : String) (h : g.total t ≤ g.cap) :
    g.read (rest.foldl merge (setKey e k')) = g.sum t.chain ∧
      g.read (merge (setKey t.current k) (rest.foldl merge (setKey e k'))) = g.total t := by
  unfold total at h ⊢
  rw [hchain, sum_cons] at h ⊢
  have hfold := g.read_foldl_merge rest (setKey e k') (by rw [g.read_setKey]; omega)
  rw [g.read_setKey] at hfold
  refine ⟨hfold, ?_⟩
  rw [g.read_merge, g.read_setKey, hfold]
  omega

end Gauge

namespace UsageLedger
variable {cal : Calendar} {l : UsageLedger} {day week : String}

theorem outOfHours_merge (t u : DayCounters) :
    (merge t u).outOfHoursTodaySecs =
      min (t.outOfHoursTodaySecs + u.outOfHoursTodaySecs) u64Max := rfl

def outOfHoursGauge : Gauge DayCounters :=
  ⟨u64Max, DayCounters.outOfHoursTodaySecs, outOfHoursMeter.read_fresh,
    outOfHoursMeter.read_setKey, outOfHours_merge⟩

def nightsGauge : Gauge WeekCounters :=
  ⟨u32Max, WeekCounters.outOfHoursNightsWeek, fun _ => rfl, fun _ _ => rfl, fun _ _ => rfl⟩

/-! ## The nights of a run, by its own days -/

/-- The latest day a run has reached, whether it is marked, and the days the run marked. -/
structure NightLog where
  day : String
  marked : Bool
  nights : List String

/-- A call moves to a later day, and marks make a night of a day once. -/
def NightLog.step (zone : Tz) (n : NightLog) : Outing → NightLog
  | .credit c =>
    if n.day < zone.dayKey c.now then ⟨zone.dayKey c.now, false, n.nights⟩ else n
  | .markOutOfHours secs =>
    if secs = 0 ∨ n.marked then n else { n with marked := true, nights := n.nights ++ [n.day] }
  | .restart => n

/-- The log of a run that starts from a ledger. -/
def nightLog (zone : Tz) (l : UsageLedger) (as : List Outing) : NightLog :=
  as.foldl (NightLog.step zone) ⟨l.day.key, decide (0 < l.day.current.outOfHoursTodaySecs), []⟩

/-- A run that marks one day at most, or two of which it ends on the second. -/
def NightLog.OneNight (n : NightLog) : Prop :=
  n.nights.length ≤ 1 ∨ n.nights.length = 2 ∧ n.day ∈ n.nights

instance (n : NightLog) : Decidable n.OneNight := inferInstanceAs (Decidable (_ ∨ _))

/-- The seconds that a step marks. -/
def Outing.marks : Outing → Nat
  | .markOutOfHours secs => secs
  | _ => 0

variable {nights₀ : Nat} {n : NightLog}

/-- **A ledger as its log has it**: on the latest day, which is marked if it has out-of-hours
seconds, with a night counted for each day the run marked; every such day but the latest has
its seconds set aside. -/
structure Logged (nights₀ : Nat) (l : UsageLedger) (n : NightLog) : Prop where
  day : l.day.key = n.day
  marked : n.marked = true ↔ 0 < l.day.current.outOfHoursTodaySecs
  counted : nightsGauge.total l.week = nights₀ + n.nights.length
  latest : n.day ∈ n.nights → n.marked = true
  ours : n.marked = true → l.day.chain ≠ [] → n.day ∈ n.nights
  nodup : n.nights.Nodup
  past : ∀ k ∈ n.nights, k ≤ n.day
  aside : ∀ k ∈ n.nights, k ≠ n.day → 0 < outOfHoursGauge.sum l.day.chain

/-- Only the day, the out-of-hours seconds and the nights matter to a log. -/
theorem Logged.congr {l' : UsageLedger} (h : Logged nights₀ l n) (hkey : l'.day.key = l.day.key)
    (hchain : l'.day.chain = l.day.chain)
    (hooh : l'.day.current.outOfHoursTodaySecs = l.day.current.outOfHoursTodaySecs)
    (hweek : l'.week.chain = l.week.chain)
    (hnights : l'.week.current.outOfHoursNightsWeek = l.week.current.outOfHoursNightsWeek) :
    Logged nights₀ l' n := by
  have htotal : nightsGauge.total l'.week = nightsGauge.total l.week := by
    unfold Gauge.total
    rw [hweek]
    exact congrArg (_ + ·) hnights
  exact ⟨hkey.trans h.day, hooh ▸ h.marked, htotal.trans h.counted, h.latest, hchain ▸ h.ours,
    h.nodup, h.past, hchain ▸ h.aside⟩

/-- A ledger away can be read at any instant. -/
theorem Away.parses (hcal : cal.ReadsBack) (hl : Away day week l) (now : Int) :
    (daysAhead cal.parse l.day.key (l.dayKeyAt cal now)).isSome ∧
      (daysAhead cal.parse l.week.key (l.weekKeyAt cal now)).isSome := by
  obtain ⟨d, hd⟩ := hl.dayTrack.parses
  obtain ⟨w, hw⟩ := hl.weekTrack.parses
  rw [hd, hw, dayKeyAt, weekKeyAt, Tz.dayKey, Tz.weekKey, daysAhead, daysAhead]
  simp only [hcal _]
  exact ⟨rfl, rfl⟩

theorem Logged.roll (hcal : cal.ReadsBack) (haway : Away day week l) (h : Logged nights₀ l n)
    (c : Credit) (hooh : outOfHoursGauge.total l.day ≤ u64Max)
    (hnights : nights₀ + n.nights.length ≤ u32Max) :
    Logged nights₀ (l.roll cal c.now) (n.step (l.zone cal) (.credit c)) ∧
      outOfHoursGauge.total (l.roll cal c.now).day = outOfHoursGauge.total l.day := by
  obtain ⟨hdparse, hwparse⟩ := haway.parses hcal c.now
  have hroll := roll_setsAside haway.untrusted hdparse hwparse
  have hweek : nightsGauge.total (l.roll cal c.now).week = nights₀ + n.nights.length := by
    rw [hroll, ← h.counted]
    dsimp only
    split
    · exact nightsGauge.total_setAside l.week _ (h.counted.trans_le hnights)
    · rfl
  by_cases hlt : n.day < (l.zone cal).dayKey c.now
  · have hday : (l.roll cal c.now).day =
        ⟨fresh (l.dayKeyAt cal c.now), pushPreRoll l.day.chain l.day.current⟩ := by
      rw [hroll]
      exact if_pos (decide_eq_true (h.day ▸ hlt))
    have haside := outOfHoursGauge.sum_pushPreRoll l.day.chain l.day.current hooh
    refine ⟨?_, ?_⟩
    · rw [NightLog.step, if_pos hlt]
      refine ⟨?_, ?_, hweek, ?_, ?_, h.nodup, fun k hk => (h.past k hk).trans hlt.le, ?_⟩
      · rw [hday]
        rfl
      · rw [hday]
        exact ⟨fun hfalse => absurd hfalse Bool.false_ne_true,
          fun hpos => absurd hpos (lt_irrefl 0)⟩
      · intro hmem
        exact absurd (lt_of_le_of_lt (h.past _ hmem) hlt) (lt_irrefl _)
      · intro hfalse
        exact absurd hfalse Bool.false_ne_true
      · intro k hk _
        rw [hday]
        change 0 < outOfHoursGauge.sum (pushPreRoll l.day.chain l.day.current)
        rw [haside]
        by_cases hlast : k = n.day
        · have hpos := h.marked.mp (h.latest (hlast ▸ hk))
          exact Nat.add_pos_right _ hpos
        · exact Nat.add_pos_left (h.aside k hk hlast) _
    · rw [hday]
      exact outOfHoursGauge.total_setAside l.day _ hooh
  · have hday : (l.roll cal c.now).day = l.day := by
      rw [hroll]
      refine if_neg ?_
      simpa [dayHasRolled, dayKeyAt, h.day] using hlt
    rw [NightLog.step, if_neg hlt]
    refine ⟨?_, congrArg _ hday⟩
    exact ⟨hday ▸ h.day, hday ▸ h.marked, hweek, h.latest, hday ▸ h.ours, h.nodup, h.past,
      hday ▸ h.aside⟩

/-- A mark of some seconds. -/
theorem Logged.mark (zone : Tz) (h : Logged nights₀ l n) {secs : Nat} (hpos : secs ≠ 0)
    (hooh : outOfHoursGauge.total l.day + secs ≤ u64Max)
    (hnights : nights₀ + (n.step zone (.markOutOfHours secs)).nights.length ≤ u32Max) :
    Logged nights₀ (l.markOutOfHours secs) (n.step zone (.markOutOfHours secs)) ∧
      outOfHoursGauge.total (l.markOutOfHours secs).day = outOfHoursGauge.total l.day + secs := by
  have hbound : l.day.current.outOfHoursTodaySecs + secs ≤ u64Max := by
    refine le_trans (Nat.add_le_add_right ?_ secs) hooh
    exact Nat.le_add_left _ _
  have hsecs : addU64 l.day.current.outOfHoursTodaySecs secs =
      l.day.current.outOfHoursTodaySecs + secs := addU64_of_le hbound
  rw [markOutOfHours, if_neg hpos, hsecs]
  refine ⟨?_, ?_⟩
  · unfold NightLog.step at hnights ⊢
    dsimp only at hnights ⊢
    by_cases hmarked : n.marked = true
    · -- the day has its night already
      have hooh' := h.marked.mp hmarked
      rw [if_pos (Or.inr hmarked), if_neg hooh'.ne']
      refine ⟨h.day, ⟨fun _ => ?_, fun _ => hmarked⟩, h.counted, h.latest, h.ours, h.nodup, h.past,
        h.aside⟩
      exact Nat.add_pos_left hooh' _
    · have hzero : l.day.current.outOfHoursTodaySecs = 0 := by
        by_contra hne
        exact hmarked (h.marked.mpr (Nat.pos_of_ne_zero hne))
      have hnight : ¬(secs = 0 ∨ n.marked = true) := not_or.mpr ⟨hpos, hmarked⟩
      rw [if_neg hnight] at hnights ⊢
      rw [List.length_append, List.length_singleton] at hnights
      have hcounted := h.counted
      unfold Gauge.total at hcounted
      have hadd : addU32 l.week.current.outOfHoursNightsWeek 1 =
          l.week.current.outOfHoursNightsWeek + 1 := by
        refine Nat.min_eq_left ?_
        change nightsGauge.sum l.week.chain + l.week.current.outOfHoursNightsWeek = _ at hcounted
        omega
      rw [if_pos hzero, hadd]
      have hfresh : n.day ∉ n.nights := fun hmem => hmarked (h.latest hmem)
      refine ⟨h.day, ⟨fun _ => ?_, fun _ => rfl⟩, ?_, fun _ => rfl, fun _ _ => ?_, ?_, ?_, ?_⟩
      · exact Nat.add_pos_right _ (Nat.pos_of_ne_zero hpos)
      · change nightsGauge.sum l.week.chain + (l.week.current.outOfHoursNightsWeek + 1) = _
        change nightsGauge.sum l.week.chain + l.week.current.outOfHoursNightsWeek = _ at hcounted
        rw [List.length_append, List.length_singleton]
        omega
      · exact List.mem_append_right _ List.mem_cons_self
      · refine List.nodup_append.mpr ⟨h.nodup, List.nodup_singleton _, ?_⟩
        intro k hk k' hk' heq
        exact hfresh (List.mem_singleton.mp hk' ▸ heq ▸ hk)
      · intro k hk
        rcases List.mem_append.mp hk with hk | hk
        · exact h.past k hk
        · exact (List.mem_singleton.mp hk).le
      · intro k hk hne
        rcases List.mem_append.mp hk with hk | hk
        · exact h.aside k hk hne
        · exact absurd (List.mem_singleton.mp hk) hne
  · unfold Gauge.total
    exact (Nat.add_assoc _ _ _).symm

/-- One step of a run away. -/
theorem Logged.apply (hcal : cal.ReadsBack) (haway : Away day week l) (h : Logged nights₀ l n)
    (a : Outing) (hooh : outOfHoursGauge.total l.day + a.marks ≤ u64Max)
    (hnights : nights₀ + (n.step (l.zone cal) a).nights.length ≤ u32Max) :
    Logged nights₀ (a.apply cal l) (n.step (l.zone cal) a) ∧
      outOfHoursGauge.total (a.apply cal l).day = outOfHoursGauge.total l.day + a.marks := by
  cases a with
  | credit c =>
    have hsame : (n.step (l.zone cal) (.credit c)).nights = n.nights := by
      unfold NightLog.step
      dsimp only
      split <;> rfl
    rw [hsame] at hnights
    obtain ⟨hlogged, htotal⟩ := h.roll hcal haway c hooh hnights
    have hadds := Credit.adds_apply cal l c
    obtain ⟨hsecs, -, hcount⟩ := apply_outOfHours cal l c
    refine ⟨hlogged.congr hadds.dayKey hadds.dayChain hsecs hadds.weekChain hcount, ?_⟩
    refine Eq.trans ?_ htotal
    unfold Gauge.total
    rw [Outing.apply, hadds.dayChain]
    exact congrArg (_ + ·) hsecs
  | markOutOfHours secs =>
    by_cases hpos : secs = 0
    · rw [Outing.apply, markOutOfHours, if_pos hpos, NightLog.step, if_pos (Or.inl hpos)]
      exact ⟨h, by rw [Outing.marks, hpos, Nat.add_zero]⟩
    · exact h.mark _ hpos hooh hnights
  | restart => exact ⟨h.congr rfl rfl rfl rfl rfl, rfl⟩

/-- A step drops no night from the log. -/
theorem NightLog.nights_step (zone : Tz) (n : NightLog) (a : Outing) :
    n.nights.length ≤ (n.step zone a).nights.length := by
  cases a with
  | credit c =>
    unfold NightLog.step
    dsimp only
    split <;> exact Nat.le_refl _
  | markOutOfHours secs =>
    unfold NightLog.step
    dsimp only
    split
    · exact Nat.le_refl _
    · rw [List.length_append]
      exact Nat.le_add_right _ _
  | restart => exact Nat.le_refl _

theorem NightLog.nights_foldl (zone : Tz) (n : NightLog) (as : List Outing) :
    n.nights.length ≤ (as.foldl (NightLog.step zone) n).nights.length := by
  induction as generalizing n with
  | nil => exact Nat.le_refl _
  | cons a as ih => exact (n.nights_step zone a).trans (ih _)

/-- A run away is logged as it goes. -/
theorem Logged.run (hcal : cal.ReadsBack) (as : List Outing) (haway : Away day week l)
    (h : Logged nights₀ l n)
    (hooh : outOfHoursGauge.total l.day + (as.map Outing.marks).sum ≤ u64Max)
    (hnights : nights₀ + (as.foldl (NightLog.step (l.zone cal)) n).nights.length ≤ u32Max) :
    Logged nights₀ (outing cal l as) (as.foldl (NightLog.step (l.zone cal)) n) ∧
      outOfHoursGauge.total (outing cal l as).day ≤ u64Max := by
  induction as generalizing l n with
  | nil => exact ⟨h, hooh⟩
  | cons a as ih =>
    rw [List.map_cons, List.sum_cons] at hooh
    rw [List.foldl_cons] at hnights
    have hzone : (a.apply cal l).zone cal = l.zone cal := by rw [zone, zone, Outing.apply_tz]
    have hmono := (n.step (l.zone cal) a).nights_foldl (l.zone cal) as
    obtain ⟨hstep, htotal⟩ := h.apply hcal haway a (by omega) (by omega)
    have hrest := ih (haway.apply hcal a) hstep (by rw [htotal]; omega) (by rwa [hzone])
    rwa [hzone] at hrest

/-! ## The nights after the return -/

/-- Of two nights one is not the latest day's. -/
theorem Logged.exists_aside (h : Logged nights₀ l n) (htwo : 2 ≤ n.nights.length) :
    0 < outOfHoursGauge.sum l.day.chain := by
  match hn : n.nights, htwo with
  | k :: k' :: rest, _ =>
    have hne : k ≠ k' := by
      have hnodup := h.nodup
      rw [hn] at hnodup
      exact fun heq => (List.nodup_cons.mp hnodup).1 (heq ▸ List.mem_cons_self)
    by_cases hk : k = n.day
    · exact h.aside k' (hn ▸ List.mem_cons_of_mem _ List.mem_cons_self) (hk ▸ hne.symm)
    · exact h.aside k (hn ▸ List.mem_cons_self) hk

/-- What the trusted return makes of the nights: one off, where it finds out-of-hours seconds
both set aside and on the last day. -/
theorem Logged.settled (hcal : cal.ReadsBack) (haway : Away day week l) (h : Logged nights₀ l n)
    {now : Int} (hday : l.dayKeyAt cal now = day) (hweek : l.weekKeyAt cal now = week)
    (hooh : outOfHoursGauge.total l.day ≤ u64Max)
    (hnights : nights₀ + n.nights.length ≤ u32Max) :
    ((l.setClockTrusted true).roll cal now).week.current.outOfHoursNightsWeek =
      nights₀ + n.nights.length -
        if n.day ∈ n.nights ∧ 0 < outOfHoursGauge.sum l.day.chain then 1 else 0 := by
  have hweekRead : nightsGauge.read (l.week.roll cal.parse true 7 week).1.current =
      nights₀ + n.nights.length := by
    rw [← h.counted]
    rcases haway.weekTrack.roll_return (b := 7) hcal (by decide) with
      ⟨hnil, -, hroll⟩ | ⟨e, rest, hchain, hroll⟩
    · rw [hroll, Gauge.total, hnil, Gauge.sum_nil, Nat.zero_add]
    · rw [hroll]
      exact (nightsGauge.read_return l.week hchain _ _ (h.counted.trans_le hnights)).2
  change (settleNights { l with
    day := (l.day.roll cal.parse true 1 (l.dayKeyAt cal now)).1
    week := (l.week.roll cal.parse true 7 (l.weekKeyAt cal now)).1
    clockTrusted := true }
    (l.day.roll cal.parse true 1 (l.dayKeyAt cal now)).2).week.current.outOfHoursNightsWeek = _
  rw [hday, hweek]
  rcases haway.dayTrack.roll_return (b := 1) hcal (by decide) with
    ⟨hnil, -, hroll⟩ | ⟨e, rest, hchain, hroll⟩
  · rw [hroll, hnil, Gauge.sum_nil, if_neg (fun hboth => absurd hboth.2 (lt_irrefl 0))]
    exact hweekRead
  · obtain ⟨haside, htotal⟩ := outOfHoursGauge.read_return l.day hchain day day hooh
    have hmarked : n.day ∈ n.nights ↔ 0 < l.day.current.outOfHoursTodaySecs := by
      rw [← h.marked]
      exact ⟨h.latest, fun hm => h.ours hm (by simp [hchain])⟩
    have hcond : 0 < outOfHoursGauge.read (rest.foldl merge (setKey e day)) ∧
        outOfHoursGauge.read (rest.foldl merge (setKey e day)) <
          outOfHoursGauge.read (merge (setKey l.day.current day)
            (rest.foldl merge (setKey e day))) ↔
        n.day ∈ n.nights ∧ 0 < outOfHoursGauge.sum l.day.chain := by
      rw [haside, htotal, hmarked, Gauge.total]
      change _ ∧ _ < _ + l.day.current.outOfHoursTodaySecs ↔ _
      omega
    rw [hroll, settleNights]
    dsimp only
    by_cases hboth : n.day ∈ n.nights ∧ 0 < outOfHoursGauge.sum l.day.chain
    · rw [if_pos hboth]
      refine (congrArg (fun l' : UsageLedger => l'.week.current.outOfHoursNightsWeek)
        (if_pos (hcond.mpr hboth))).trans ?_
      exact congrArg (· - 1) hweekRead
    · rw [if_neg hboth]
      refine (congrArg (fun l' : UsageLedger => l'.week.current.outOfHoursNightsWeek)
        (if_neg (hcond.not.mpr hboth))).trans ?_
      exact hweekRead

/-- One night off leaves one more than before exactly for one night. -/
theorem Logged.le_succ_iff (h : Logged nights₀ l n) :
    (nights₀ + n.nights.length -
        if n.day ∈ n.nights ∧ 0 < outOfHoursGauge.sum l.day.chain then 1 else 0) ≤ nights₀ + 1 ↔
      n.OneNight := by
  unfold NightLog.OneNight
  by_cases hmem : n.day ∈ n.nights
  · by_cases htwo : 2 ≤ n.nights.length
    · rw [if_pos ⟨hmem, h.exists_aside htwo⟩]
      simp only [hmem, and_true]
      omega
    · refine iff_of_true ?_ (Or.inl (by omega))
      omega
  · rw [if_neg (fun hboth => hmem hboth.1)]
    simp only [hmem, and_false, or_false]
    omega

/-- A settled ledger is at the start of its log. -/
theorem Settled.logged {now : Int} (hl : l.Settled cal now) :
    Logged l.week.current.outOfHoursNightsWeek (l.setClockTrusted false)
      ⟨l.day.key, decide (0 < l.day.current.outOfHoursTodaySecs), []⟩ := by
  refine ⟨rfl, decide_eq_true_iff, ?_, ?_, ?_, List.nodup_nil, ?_, ?_⟩
  · change nightsGauge.sum l.week.chain + l.week.current.outOfHoursNightsWeek = _
    rw [hl.weekChain]
    exact Nat.zero_add _
  · exact fun hmem => absurd hmem List.not_mem_nil
  · exact fun _ hne => absurd hl.dayChain hne
  · exact fun k hmem => absurd hmem List.not_mem_nil
  · exact fun k hmem => absurd hmem List.not_mem_nil

/-- **When an excursion is one night.**  From a ledger a trusted tick left on the real day,
after any run on an unconfirmed clock and the credit on a confirmed one that returns to that
day, the week counts at most one night more than it did exactly when the run marked at most one
day, or two of which it ended on the second. -/
theorem nights_le_succ_iff (hcal : cal.ReadsBack) {now : Int} (hl : l.Settled cal now)
    (as : List Outing) {c : Credit} (hc : (l.zone cal).localDay c.now = (l.zone cal).localDay now)
    (hooh : l.day.current.outOfHoursTodaySecs + (as.map Outing.marks).sum ≤ u64Max)
    (hnights : l.week.current.outOfHoursNightsWeek +
      (nightLog (l.zone cal) l as).nights.length ≤ u32Max) :
    (excursion cal l as c).week.current.outOfHoursNightsWeek ≤
        l.week.current.outOfHoursNightsWeek + 1 ↔ (nightLog (l.zone cal) l as).OneNight := by
  have htotal : outOfHoursGauge.total (l.setClockTrusted false).day =
      l.day.current.outOfHoursTodaySecs := by
    change outOfHoursGauge.sum l.day.chain + l.day.current.outOfHoursTodaySecs = _
    rw [hl.dayChain]
    exact Nat.zero_add _
  obtain ⟨hlogged, hbound⟩ := hl.logged.run hcal as hl.away (by rwa [htotal]) hnights
  obtain ⟨htz, hws⟩ := @outing_frame cal (l.setClockTrusted false) as
  have hday : (outing cal (l.setClockTrusted false) as).dayKeyAt cal c.now = l.day.key := by
    rw [hl.dayKey, dayKeyAt, dayKeyAt, zone, htz]
    exact congrArg dateKey hc
  have hweek : (outing cal (l.setClockTrusted false) as).weekKeyAt cal c.now = l.week.key := by
    rw [hl.weekKey, weekKeyAt, weekKeyAt, zone, htz, hws]
    exact congrArg (fun d => dateKey (weekStartDay l.weekStart.fromSunday d)) hc
  have hsettled := hlogged.settled hcal (hl.away.run hcal as) hday hweek hbound hnights
  rw [excursion, (apply_outOfHours cal _ c).2.2, hsettled]
  exact hlogged.le_succ_iff

/-- A ledger of noon, and marks on that day and on some days after it. -/
def markedDays (days : List Int) : List Outing :=
  days.flatMap fun d => [.credit (.bucket (1782734400 + 86400 * d) .active .screen 60),
    .markOutOfHours 60]

/-- The real day and the fake one it returns from are one night. -/
theorem nights_le_succ_iff_twoDays :
    (excursion utcCalendar noonLedger (markedDays [0, 1])
      (.bucket 1782738000 .active .screen 5)).week.current.outOfHoursNightsWeek ≤ 1 := by
  have hl : noonLedger.Settled utcCalendar 1782734400 := ⟨rfl, rfl, rfl, rfl⟩
  exact (nights_le_succ_iff utcCalendar_readsBack hl (markedDays [0, 1])
    (c := .bucket 1782738000 .active .screen 5) (by decide +kernel) (by decide +kernel)
    (by decide +kernel)).mpr (by decide +kernel)

/-- **Three fake days marked out of hours count two nights**, or three if the real day was
marked as well: the return takes off one. -/
theorem nights_threeDays :
    noonLedger.Settled utcCalendar 1782734400 ∧
      noonLedger.week.current.outOfHoursNightsWeek = 0 ∧
      (excursion utcCalendar noonLedger (markedDays [1, 2, 3])
        (.bucket 1782738000 .active .screen 5)).week.current.outOfHoursNightsWeek = 2 ∧
      (excursion utcCalendar noonLedger (markedDays [0, 1, 2, 3])
        (.bucket 1782738000 .active .screen 5)).week.current.outOfHoursNightsWeek = 3 :=
  ⟨⟨rfl, rfl, rfl, rfl⟩, rfl, by decide +kernel, by decide +kernel⟩

end UsageLedger
end Kintrinsic
