import Kintrinsic.AppBuckets
import Kintrinsic.ChildCharge
import Kintrinsic.UsageReaders

/-! # What the ward is shown of a bucket

The ward's view adds today's extension to the caps, the sweep takes it off the meters.  The two are
one inequality as long as a cap and the extension fit into a word together, and what is shown to be
left is then what can still be metered before the sweep. -/
namespace Kintrinsic

open MachineWord

/-! ## The view -/

/-- `BucketView`. -/
structure BucketView where
  id : String
  label : String
  usedSeconds : Nat
  limitSeconds : Nat
  remainingSeconds : Nat
  weekLimitSeconds : Int
  weekRemainingSeconds : Int
  spent : Bool
  capped : Bool
deriving DecidableEq

/-- The least of what is left on either axis; nothing where there is no axis. -/
def leastLeft (day week : Option Nat) : Nat := (day.toList ++ week.toList).min?.getD 0

/-- `bucket_view`; the sums of a cap and the extension are plain `u64` additions. -/
def bucketView (b : AppBucket) (paused : Bool) (dayUsed : Nat) (spent : BucketSpent) (extra : Nat) :
    BucketView :=
  let dayLimit := b.dailyMinutes.map fun m => wrapU64 (capSecs m + extra)
  let weekLimit := b.weeklyMinutes.map fun m => wrapU64 (capSecs m + extra)
  let weekRemaining := weekLimit.map (· - spent.weekSecs)
  let binding := leastLeft (dayLimit.map (· - spent.daySecs)) weekRemaining
  { id := b.id
    label := b.label
    usedSeconds := dayUsed
    limitSeconds := if paused then 0 else (dayLimit.or weekLimit).getD 0
    remainingSeconds := if paused then 0 else binding
    weekLimitSeconds := if paused then -1 else (weekLimit.map asI64).getD (-1)
    weekRemainingSeconds := if paused then -1 else (weekRemaining.map asI64).getD (-1)
    spent := !paused && decide (binding = 0)
    capped := !paused }

/-! ## The sweep -/

namespace BucketSpent

/-- The meters less an extension, as the sweep passes them. -/
def less (s : BucketSpent) (extra : Nat) : BucketSpent := ⟨s.daySecs - extra, s.weekSecs - extra⟩

/-- The meters after some more seconds. -/
def plus (s : BucketSpent) (k : Nat) : BucketSpent := ⟨addU64 s.daySecs k, addU64 s.weekSecs k⟩

end BucketSpent

/-- A clause stops the apps of a bucket because of that bucket. -/
def GrantBuckets.Closes (body : GrantBuckets) (b : AppBucket) (s : BucketSpent) : Prop :=
  body.isValid = true ∧ body.isPaused = false ∧ b.gone s = true

/-- What must stop is what some bucket closes. -/
theorem mem_spentBucketApps_iff {body : GrantBuckets} {spent : String → BucketSpent} {app : String} :
    app ∈ spentBucketApps body spent ↔
      ∃ b ∈ body.buckets, app ∈ b.apps ∧ body.Closes b (spent b.id) := by
  rw [mem_spentBucketApps]
  constructor
  · rintro ⟨hvalid, hpaused, b, hb, happ, hgone⟩
    exact ⟨b, hb, happ, hvalid, hpaused, hgone⟩
  · rintro ⟨b, hb, happ, hvalid, hpaused, hgone⟩
    exact ⟨hvalid, hpaused, b, hb, happ, hgone⟩

/-- The view of a bucket and the sweep agree at these meters: on whether it is spent, and, while
something is shown to be left, on after how many more seconds it is. -/
def ViewAgrees (body : GrantBuckets) (b : AppBucket) (extra : Nat) (s : BucketSpent) : Prop :=
  let view := bucketView b body.isPaused s.daySecs s extra
  (view.spent = true ↔ body.Closes b (s.less extra)) ∧
    (0 < view.remainingSeconds →
      ∀ k, body.Closes b ((s.plus k).less extra) ↔ view.remainingSeconds ≤ k)

/-- Every cap of the bucket fits into a word together with the extension. -/
def AppBucket.RoomFor (b : AppBucket) (extra : Nat) : Prop :=
  (∀ m ∈ b.dailyMinutes, capSecs m + extra ≤ u64Max) ∧
    ∀ m ∈ b.weeklyMinutes, capSecs m + extra ≤ u64Max

/-! ## One inequality -/

theorem leastLeft_le_iff {day week : Option Nat} (h : day.isSome = true ∨ week.isSome = true)
    (k : Nat) : leastLeft day week ≤ k ↔ (∃ d ∈ day, d ≤ k) ∨ ∃ w ∈ week, w ≤ k := by
  unfold leastLeft
  cases day with
  | none =>
    cases week with
    | none => simp at h
    | some w => simp
  | some d =>
    cases week with
    | none => simp
    | some w =>
      have hmin : [d, w].min? = some (min d w) := rfl
      simp [hmin]

section
variable {body : GrantBuckets} {b : AppBucket} {extra : Nat} {s : BucketSpent}

/-- **What is left is what can be metered**: within a word, the bucket is used up after `k` more
seconds exactly when no more than `k` are shown to be left. -/
theorem gone_plus_iff (hvalid : b.isValid = true) (hroom : b.RoomFor extra) (k : Nat) :
    b.gone ((s.plus k).less extra) = true ↔
      leastLeft ((b.dailyMinutes.map fun m => wrapU64 (capSecs m + extra)).map (· - s.daySecs))
        ((b.weeklyMinutes.map fun m => wrapU64 (capSecs m + extra)).map (· - s.weekSecs)) ≤ k := by
  obtain ⟨hsome, hday, hweek⟩ := AppBucket.caps_of_valid hvalid
  -- one axis, its cap not zero
  have haxis : ∀ m : UInt16, 0 < capSecs m → capSecs m + extra ≤ u64Max → ∀ secs,
      (capSecs m ≤ addU64 secs k - extra ↔ wrapU64 (capSecs m + extra) - secs ≤ k) := by
    intro m hpos hfits secs
    rw [wrapU64_of_lt (by unfold u64Max at hfits; omega)]
    unfold addU64
    omega
  rw [leastLeft_le_iff (by simpa using hsome), AppBucket.gone, Bool.or_eq_true, Option.any_eq_true,
    Option.any_eq_true]
  simp only [Option.map_map, Option.mem_map, Function.comp_apply, exists_exists_and_eq_and,
    decide_eq_true_iff]
  refine or_congr (exists_congr fun m => and_congr_right fun hm => ?_)
    (exists_congr fun m => and_congr_right fun hm => ?_)
  · exact haxis m (hday m hm).1 (hroom.1 m hm) s.daySecs
  · exact haxis m (hweek m hm).1 (hroom.2 m hm) s.weekSecs

/-- Within a word the view and the sweep agree. -/
theorem viewAgrees_of_room (hvalid : body.isValid = true) (hb : b ∈ body.buckets)
    (hroom : body.isPaused = true ∨ b.RoomFor extra) (hday : s.daySecs ≤ u64Max)
    (hweek : s.weekSecs ≤ u64Max) : ViewAgrees body b extra s := by
  unfold ViewAgrees GrantBuckets.Closes bucketView
  cases hpaused : body.isPaused with
  | true => simp
  | false =>
    have hgone := gone_plus_iff (s := s) (body.valid_of_mem hvalid hb)
      (hroom.resolve_left (by simp [hpaused]))
    have hplus : s.plus 0 = s := by
      unfold BucketSpent.plus
      rw [addU64_of_le (by omega), addU64_of_le (by omega)]
      rfl
    refine ⟨?_, fun _ k => ?_⟩
    · have hspent := hgone 0
      rw [hplus, Nat.le_zero] at hspent
      simp [hvalid, hspent]
    · simp [hvalid, hgone k]

/-- Meters at which a sum that leaves the word shows the bucket as spent: all of the word on an axis
that wraps, and nothing on one that does not. -/
def wrappedMeter (cap : Option UInt16) (extra : Nat) : Nat :=
  if cap.any (fun m => decide (u64Max < capSecs m + extra)) = true then u64Max else 0

theorem not_gone_wrapped {cap : Option UInt16} (hpos : ∀ m ∈ cap, 0 < capSecs m) :
    cap.any (fun m => decide (capSecs m ≤ wrappedMeter cap extra - extra)) = false := by
  cases cap with
  | none => rfl
  | some m =>
    have hm := hpos m rfl
    have hmeter : wrappedMeter (some m) extra ≤ u64Max ∧
        (wrappedMeter (some m) extra = 0 ∨ u64Max < capSecs m + extra) := by
      unfold wrappedMeter
      split
      · rename_i hover
        rw [Option.any_some, decide_eq_true_iff] at hover
        exact ⟨le_rfl, .inr hover⟩
      · exact ⟨Nat.zero_le _, .inl rfl⟩
    rw [Option.any_some, decide_eq_false_iff_not]
    omega

/-- Past the word they do not. -/
theorem not_viewAgrees (hvalid : body.isValid = true) (hb : b ∈ body.buckets)
    (hpaused : body.isPaused = false) (hroom : ¬b.RoomFor extra) :
    ¬ViewAgrees body b extra
      ⟨wrappedMeter b.dailyMinutes extra, wrappedMeter b.weeklyMinutes extra⟩ := by
  obtain ⟨hsome, hday, hweek⟩ := AppBucket.caps_of_valid (body.valid_of_mem hvalid hb)
  have hleft : leastLeft
      ((b.dailyMinutes.map fun m => wrapU64 (capSecs m + extra)).map
        (· - wrappedMeter b.dailyMinutes extra))
      ((b.weeklyMinutes.map fun m => wrapU64 (capSecs m + extra)).map
        (· - wrappedMeter b.weeklyMinutes extra)) ≤ 0 := by
    have haxis : ∀ (cap : Option UInt16) (m : UInt16), m ∈ cap → u64Max < capSecs m + extra →
        wrapU64 (capSecs m + extra) - wrappedMeter cap extra ≤ 0 := by
      intro cap m hm hover
      have hwrapped := wrapU64_le (capSecs m + extra)
      have hall : wrappedMeter cap extra = u64Max :=
        if_pos (by rw [Option.mem_def.mp hm, Option.any_some]; exact decide_eq_true hover)
      omega
    rw [leastLeft_le_iff (by simpa using hsome)]
    simp only [Option.map_map, Option.mem_map, Function.comp_apply, exists_exists_and_eq_and]
    by_cases hfits : ∀ m ∈ b.dailyMinutes, capSecs m + extra ≤ u64Max
    · obtain ⟨m, hm, hover⟩ : ∃ m ∈ b.weeklyMinutes, u64Max < capSecs m + extra := by
        by_contra hnone
        exact hroom ⟨hfits, fun m hm => Nat.le_of_not_lt fun hlt => hnone ⟨m, hm, hlt⟩⟩
      exact .inr ⟨m, hm, haxis _ m hm hover⟩
    · obtain ⟨m, hm, hover⟩ : ∃ m ∈ b.dailyMinutes, u64Max < capSecs m + extra := by
        by_contra hnone
        exact hfits fun m hm => Nat.le_of_not_lt fun hlt => hnone ⟨m, hm, hlt⟩
      exact .inl ⟨m, hm, haxis _ m hm hover⟩
  intro hagrees
  have hspent := hagrees.1.mp (by
    show (!body.isPaused && decide (_ = 0)) = true
    rw [hpaused, Nat.le_zero.mp hleft]
    rfl)
  obtain ⟨-, -, hgone⟩ := hspent
  unfold AppBucket.gone BucketSpent.less at hgone
  rw [not_gone_wrapped fun m hm => (hday m hm).1, not_gone_wrapped fun m hm => (hweek m hm).1] at hgone
  cases hgone

end

/-! ## Seconds metered later that day -/

/-- **Credits of one day add up**, whatever their instants. -/
theorem CreditMeter.read_sameDay (m : CreditMeter) {cal : Calendar} {l : UsageLedger} {now : Int}
    {cs : List Credit}
    (hday : ∀ c ∈ cs, l.dayKeyAt cal c.now = l.dayKeyAt cal now ∧
      l.weekKeyAt cal c.now = l.weekKeyAt cal now)
    (hl : l.AtRest cal now) :
    Added ((cs.map m.secs).sum) (m.read l) (m.read (cs.foldl (Credit.apply cal) l)) ∧
      (cs.foldl (Credit.apply cal) l).AtRest cal now := by
  induction cs generalizing l with
  | nil => exact ⟨.inl ⟨rfl, rfl⟩, hl⟩
  | cons c cs ih =>
    obtain ⟨hd, hw⟩ := hday c List.mem_cons_self
    have hrest : l.AtRest cal c.now := ⟨hd ▸ hl.day, hw ▸ hl.week⟩
    have hfirst := m.adds cal l c
    rw [m.settled cal c.now l hrest] at hfirst
    have hafter := UsageLedger.settled_of_adds (Credit.adds_apply cal l c)
    have hafter' : (c.apply cal l).AtRest cal now := by
      refine ⟨?_, ?_⟩
      · have hkeys : (c.apply cal l).dayKeyAt cal c.now = (c.apply cal l).dayKeyAt cal now := by
          rw [UsageLedger.credit_dayKeyAt, UsageLedger.credit_dayKeyAt, hd]
        exact hkeys ▸ hafter.day
      · have hkeys : (c.apply cal l).weekKeyAt cal c.now = (c.apply cal l).weekKeyAt cal now := by
          rw [UsageLedger.credit_weekKeyAt, UsageLedger.credit_weekKeyAt, hw]
        exact hkeys ▸ hafter.week
    obtain ⟨hadded, hend⟩ := ih (fun d hmem => by
      rw [UsageLedger.credit_dayKeyAt, UsageLedger.credit_weekKeyAt, UsageLedger.credit_dayKeyAt,
        UsageLedger.credit_weekKeyAt]
      exact hday d (List.mem_cons_of_mem _ hmem)) hafter'
    rw [List.map_cons, List.sum_cons, List.foldl_cons]
    exact ⟨hfirst.add hadded, hend⟩

/-- A ledger at rest reads the counters that it keeps. -/
theorem UsageLedger.AtRest.not_rolled {cal : Calendar} {l : UsageLedger} {now : Int}
    (h : l.AtRest cal now) : l.dayHasRolled cal now = false ∧ l.weekHasRolled cal now = false := by
  have hkeeps : ∀ {T : Type} [PreRoll T] {t : Track T} {b : Int} {computed : String},
      t.Settled cal.parse l.clockTrusted b computed → decide (t.key < computed) = false := by
    rintro T _ t b computed (⟨hkey, -⟩ | ⟨-, hlt, -, -⟩)
    · exact decide_eq_false (by rw [hkey]; exact lt_irrefl _)
    · exact decide_eq_false hlt
  exact ⟨hkeeps h.day, hkeeps h.week⟩

/-- **What the sweep reads later that day**: the meters of before and the seconds since, less the
extension. -/
theorem spentAfterExtension_later {cal : Calendar} {l : UsageLedger} {extension : ExtensionLedger}
    {now later : Int} {cs : List Credit} (id : String)
    (hday : ∀ t ∈ later :: cs.map Credit.now, l.dayKeyAt cal t = l.dayKeyAt cal now ∧
      l.weekKeyAt cal t = l.weekKeyAt cal now)
    (hl : l.AtRest cal now) (hused : l.appBucketToday cal now id ≤ u64Max)
    (husedWeek : l.appBucketWeek cal now id ≤ u64Max)
    (hextra : extension.bucketExtraSecs cal.zones later id = extension.bucketExtraSecs cal.zones now id) :
    spentAfterExtension cal (cs.foldl (Credit.apply cal) l) extension later id =
      ((BucketSpent.mk (l.appBucketToday cal now id) (l.appBucketWeek cal now id)).plus
        ((cs.map (Credit.bucketSecs id)).sum)).less (extension.bucketExtraSecs cal.zones now id) := by
  have hcredits : ∀ c ∈ cs, l.dayKeyAt cal c.now = l.dayKeyAt cal now ∧
      l.weekKeyAt cal c.now = l.weekKeyAt cal now :=
    fun c hc => hday c.now (List.mem_cons_of_mem _ (List.mem_map_of_mem hc))
  obtain ⟨hlater, hlaterWeek⟩ := hday later List.mem_cons_self
  obtain ⟨haddedDay, -⟩ := (CreditMeter.bucket id).read_sameDay hcredits hl
  obtain ⟨haddedWeek, hrest⟩ := (CreditMeter.bucketWeek id).read_sameDay hcredits hl
  have hrestLater : (cs.foldl (Credit.apply cal) l).AtRest cal later := by
    have hkeys : ∀ t, (cs.foldl (Credit.apply cal) l).dayKeyAt cal t = l.dayKeyAt cal t ∧
        (cs.foldl (Credit.apply cal) l).weekKeyAt cal t = l.weekKeyAt cal t := by
      intro t
      refine GuardedRun.foldl_invariant (I := fun l' : UsageLedger =>
        l'.dayKeyAt cal t = l.dayKeyAt cal t ∧ l'.weekKeyAt cal t = l.weekKeyAt cal t)
        (fun l' c h => ?_) cs ⟨rfl, rfl⟩
      rw [UsageLedger.credit_dayKeyAt, UsageLedger.credit_weekKeyAt]
      exact h
    refine ⟨?_, ?_⟩
    · rw [(hkeys later).1, hlater, ← (hkeys now).1]
      exact hrest.day
    · rw [(hkeys later).2, hlaterWeek, ← (hkeys now).2]
      exact hrest.week
  obtain ⟨hrolled, hrolledWeek⟩ := hl.not_rolled
  obtain ⟨hrolled', hrolledWeek'⟩ := hrestLater.not_rolled
  unfold UsageLedger.appBucketToday at hused
  unfold UsageLedger.appBucketWeek at husedWeek
  rw [hrolled, if_neg Bool.false_ne_true] at hused
  rw [hrolledWeek, if_neg Bool.false_ne_true] at husedWeek
  unfold spentAfterExtension UsageLedger.appBucketToday UsageLedger.appBucketWeek
  rw [hextra, hrolled, hrolledWeek, hrolled', hrolledWeek']
  show BucketSpent.mk (_ - _) (_ - _) = BucketSpent.mk (_ - _) (_ - _)
  congr 2
  · exact haddedDay.eq_addU64 hused
  · exact haddedWeek.eq_addU64 husedWeek

/-! ## The law -/

/-- **The readout and the sweep agree exactly where the caps have room for the extension.**  What
must stop is what some bucket closes; the view of a bucket says that it is spent, and how long it
lasts, as the sweep does, at all meters alike, exactly when the set is paused or no cap leaves the
word together with the extension; and what the sweep reads later in a day is what was read before and
the seconds since. -/
theorem bucket_view_law (body : GrantBuckets) (b : AppBucket) (extra : Nat)
    (hvalid : body.isValid = true) (hb : b ∈ body.buckets) :
    ((∀ s : BucketSpent, s.daySecs ≤ u64Max → s.weekSecs ≤ u64Max → ViewAgrees body b extra s) ↔
      body.isPaused = true ∨ b.RoomFor extra) ∧
    (∀ (spent : String → BucketSpent) (app : String), app ∈ spentBucketApps body spent ↔
      ∃ b ∈ body.buckets, app ∈ b.apps ∧ body.Closes b (spent b.id)) ∧
    ∀ (cal : Calendar) (l : UsageLedger) (extension : ExtensionLedger) (now later : Int)
      (cs : List Credit),
      (∀ t ∈ later :: cs.map Credit.now, l.dayKeyAt cal t = l.dayKeyAt cal now ∧
        l.weekKeyAt cal t = l.weekKeyAt cal now) →
      l.AtRest cal now → l.appBucketToday cal now b.id ≤ u64Max →
      l.appBucketWeek cal now b.id ≤ u64Max →
      extension.bucketExtraSecs cal.zones later b.id =
        extension.bucketExtraSecs cal.zones now b.id →
      spentAfterExtension cal (cs.foldl (Credit.apply cal) l) extension later b.id =
        ((BucketSpent.mk (l.appBucketToday cal now b.id) (l.appBucketWeek cal now b.id)).plus
          ((cs.map (Credit.bucketSecs b.id)).sum)).less
            (extension.bucketExtraSecs cal.zones now b.id) := by
  refine ⟨⟨fun hall => ?_, fun hroom s => viewAgrees_of_room hvalid hb hroom⟩,
    fun spent app => mem_spentBucketApps_iff, ?_⟩
  · by_contra hnot
    rw [not_or, Bool.not_eq_true] at hnot
    have hmeter : ∀ cap : Option UInt16, wrappedMeter cap extra ≤ u64Max := by
      intro cap
      unfold wrappedMeter
      split
      · exact le_rfl
      · exact Nat.zero_le _
    exact not_viewAgrees hvalid hb hnot.1 hnot.2 (hall _ (hmeter _) (hmeter _))
  · intro cal l extension now later cs hday hl hused husedWeek hextra
    exact spentAfterExtension_later b.id hday hl hused husedWeek hextra

/-- An hour a day of play. -/
def playBucket : AppBucket := ⟨"play", "Play", ["org.example.Game"], some 60, none⟩

theorem bucket_view_law_play :
    ViewAgrees ⟨1, [playBucket], none⟩ playBucket 1800 ⟨3000, 3000⟩ := by
  have hroom : playBucket.RoomFor 1800 := by
    refine ⟨?_, ?_⟩
    · rintro m ⟨⟩
      show 60 * 60 + 1800 ≤ u64Max
      decide
    · rintro m ⟨⟩
  exact (bucket_view_law ⟨1, [playBucket], none⟩ playBucket 1800 (by decide +kernel)
    List.mem_cons_self).1.mpr (.inr hroom) ⟨3000, 3000⟩ (by decide) (by decide)

/-- **A pool of nearly a word** wraps the shown limit to nothing: the ward is told that the hour is
spent before a second of it is, and the sweep stops nothing. -/
theorem not_bucket_view_wrapped :
    (bucketView playBucket false 0 ⟨0, 0⟩ (2 ^ 64 - 3600)).spent = true ∧
      spentBucketApps ⟨1, [playBucket], none⟩
        (fun _ => (BucketSpent.mk 0 0).less (2 ^ 64 - 3600)) = [] := by
  decide +kernel

end Kintrinsic
