import Kintrinsic.ExtensionRuns
import Kintrinsic.LocalLimits

/-! # App buckets

A bucket caps the time of its apps on the day, in the week or on both, and an extension of today
lifts both walls.  Which apps must stop is read off the meters less the extension; what a bucket
has left is the least of its axes.  A clause that is paused or malformed stops nothing. -/
namespace Kintrinsic

open MachineWord

/-! ## The clause -/

/-- Named apps with one allowance. -/
structure AppBucket where
  id : String
  label : String
  apps : List String
  dailyMinutes : Option UInt16
  weeklyMinutes : Option UInt16
deriving DecidableEq

/-- The `buckets` clause, as far as it is read here. -/
structure GrantBuckets where
  v : UInt32
  buckets : List AppBucket
  paused : Option Bool
deriving DecidableEq

def bucketsVersion : Nat := 1

def bucketsVersionWeekly : Nat := 2

def maxBuckets : Nat := 12

def maxBucketApps : Nat := 64

def maxBucketMinutes : Nat := 1440

def maxBucketWeekMinutes : Nat := 10080

/-- `valid_bucket_id`. -/
def validBucketId (s : String) : Bool :=
  !s.toList.isEmpty && decide (byteLen s.toList ≤ 40) &&
    s.toList.all fun c => c.isLower || c.isDigit || c == '-'

namespace AppBucket
variable (b : AppBucket)

/-- What `is_valid` asks of one bucket, its id's novelty aside. -/
def isValid : Bool :=
  validBucketId b.id &&
  (!isBlank b.label && decide (b.label.length ≤ 32)) &&
  (!b.apps.isEmpty && decide (b.apps.length ≤ maxBucketApps)) &&
  !b.apps.any isBlank &&
  (b.dailyMinutes.isSome || b.weeklyMinutes.isSome) &&
  b.dailyMinutes.all (fun m => decide (m ≠ 0 ∧ m.toNat ≤ maxBucketMinutes)) &&
  b.weeklyMinutes.all (fun m => decide (m ≠ 0 ∧ m.toNat ≤ maxBucketWeekMinutes))

end AppBucket

/-- The loop of `is_valid`, with the ids it has seen. -/
def validBuckets (seen : List String) : List AppBucket → Bool
  | [] => true
  | b :: bs => !decide (b.id ∈ seen) && b.isValid && validBuckets (b.id :: seen) bs

namespace GrantBuckets
variable (body : GrantBuckets)

def isPaused : Bool := body.paused.getD false

/-- `is_valid`. -/
def isValid : Bool :=
  if body.v.toNat ≠ bucketsVersion ∧ body.v.toNat ≠ bucketsVersionWeekly ∨
      maxBuckets < body.buckets.length then false
  else validBuckets [] body.buckets

end GrantBuckets

/-! ## What is spent, and what is left -/

/-- A bucket's meters. -/
structure BucketSpent where
  daySecs : Nat
  weekSecs : Nat
deriving DecidableEq

/-- The seconds of a cap. -/
def capSecs (m : UInt16) : Nat := m.toNat * 60

namespace AppBucket
variable (b : AppBucket) (s : BucketSpent)

/-- Whether either axis is used up. -/
def gone : Bool :=
  b.dailyMinutes.any (fun m => decide (capSecs m ≤ s.daySecs)) ||
    b.weeklyMinutes.any (fun m => decide (capSecs m ≤ s.weekSecs))

/-- `bucket_day_remaining_secs`. -/
def dayRemainingSecs (daySecs : Nat) : Option Nat := b.dailyMinutes.map (capSecs · - daySecs)

/-- `bucket_week_remaining_secs`. -/
def weekRemainingSecs (weekSecs : Nat) : Option Nat := b.weeklyMinutes.map (capSecs · - weekSecs)

/-- `bucket_remaining_secs`. -/
def remainingSecs : Nat :=
  ((b.dayRemainingSecs s.daySecs).toList ++ (b.weekRemainingSecs s.weekSecs).toList).min?.getD 0

end AppBucket

/-- `spent_bucket_apps`. -/
def spentBucketApps (body : GrantBuckets) (spent : String → BucketSpent) : List String :=
  if body.isPaused || !body.isValid then []
  else
    ((body.buckets.filter fun b => b.gone (spent b.id)).flatMap AppBucket.apps).insertionSort
      (· ≤ ·) |>.dedup

/-- The meters as a sweep passes them: the day's and the week's, each less today's extension. -/
def spentAfterExtension (cal : Calendar) (usage : UsageLedger) (extension : ExtensionLedger)
    (now : Int) (id : String) : BucketSpent :=
  let extra := extension.bucketExtraSecs cal.zones now id
  ⟨usage.appBucketToday cal now id - extra, usage.appBucketWeek cal now id - extra⟩

/-! ## A valid clause -/

theorem valid_of_mem {seen : List String} {bs : List AppBucket} (h : validBuckets seen bs = true)
    {b : AppBucket} (hb : b ∈ bs) : b.isValid = true := by
  induction bs generalizing seen with
  | nil => cases hb
  | cons a bs ih =>
    rw [validBuckets, Bool.and_eq_true, Bool.and_eq_true] at h
    rcases List.mem_cons.mp hb with rfl | hb
    · exact h.1.2
    · exact ih h.2 hb

theorem GrantBuckets.valid_of_mem {body : GrantBuckets} (h : body.isValid = true)
    {b : AppBucket} (hb : b ∈ body.buckets) : b.isValid = true := by
  unfold isValid at h
  split at h
  · cases h
  · exact Kintrinsic.valid_of_mem h hb

namespace AppBucket
variable {b : AppBucket}

/-- A valid bucket has a cap, and no cap of nothing or of more than its period. -/
theorem caps_of_valid (h : b.isValid = true) :
    (b.dailyMinutes.isSome = true ∨ b.weeklyMinutes.isSome = true) ∧
    (∀ m ∈ b.dailyMinutes, 0 < capSecs m ∧ capSecs m ≤ 86400) ∧
    ∀ m ∈ b.weeklyMinutes, 0 < capSecs m ∧ capSecs m ≤ 604800 := by
  simp only [isValid, Bool.and_eq_true, Bool.or_eq_true] at h
  obtain ⟨⟨⟨-, hsome⟩, hday⟩, hweek⟩ := h
  have hpos : ∀ m : UInt16, m ≠ 0 → 0 < m.toNat := fun m hm =>
    Nat.pos_of_ne_zero fun hzero => hm (UInt16.toNat_inj.mp hzero)
  refine ⟨hsome, ?_, ?_⟩
  · intro m hm
    rw [Option.mem_def.mp hm, Option.all_some, decide_eq_true_iff] at hday
    have hm' := hpos m hday.1
    have hle := hday.2
    unfold maxBucketMinutes at hle
    unfold capSecs
    omega
  · intro m hm
    rw [Option.mem_def.mp hm, Option.all_some, decide_eq_true_iff] at hweek
    have hm' := hpos m hweek.1
    have hle := hweek.2
    unfold maxBucketWeekMinutes at hle
    unfold capSecs
    omega

/-- A bucket with a cap has nothing left exactly when one of its axes is used up. -/
theorem remainingSecs_eq_zero_iff
    (h : b.dailyMinutes.isSome = true ∨ b.weeklyMinutes.isSome = true) (s : BucketSpent) :
    b.remainingSecs s = 0 ↔ b.gone s = true := by
  unfold remainingSecs gone dayRemainingSecs weekRemainingSecs
  cases hd : b.dailyMinutes with
  | none =>
    cases hw : b.weeklyMinutes with
    | none =>
      rw [hd, hw] at h
      simp at h
    | some w =>
      simp only [Option.map_none, Option.map_some, Option.toList_none, Option.toList_some,
        List.nil_append, List.min?_singleton, Option.getD_some, Option.any_none, Option.any_some,
        Bool.false_or, decide_eq_true_iff]
      omega
  | some d =>
    cases hw : b.weeklyMinutes with
    | none =>
      simp only [Option.map_none, Option.map_some, Option.toList_none, Option.toList_some,
        List.append_nil, List.min?_singleton, Option.getD_some, Option.any_none, Option.any_some,
        Bool.or_false, decide_eq_true_iff]
      omega
    | some w =>
      have hmin : [capSecs d - s.daySecs, capSecs w - s.weekSecs].min? =
          some (min (capSecs d - s.daySecs) (capSecs w - s.weekSecs)) := rfl
      simp only [Option.map_some, Option.toList_some, List.singleton_append, hmin,
        Option.getD_some, Option.any_some, Bool.or_eq_true, decide_eq_true_iff]
      omega

end AppBucket

theorem mem_spentBucketApps {body : GrantBuckets} {spent : String → BucketSpent} {app : String} :
    app ∈ spentBucketApps body spent ↔
      body.isValid = true ∧ body.isPaused = false ∧
        ∃ b ∈ body.buckets, app ∈ b.apps ∧ b.gone (spent b.id) = true := by
  unfold spentBucketApps
  cases hp : body.isPaused with
  | true => simp
  | false =>
    cases hv : body.isValid with
    | false => simp
    | true =>
      simp only [Bool.not_true, Bool.or_false, Bool.false_eq_true, if_false, true_and,
        List.mem_dedup, List.mem_insertionSort, List.mem_flatMap, List.mem_filter]
      exact exists_congr fun b => ⟨fun h => ⟨h.1.1, h.2, h.1.2⟩, fun h => ⟨⟨h.1, h.2.2⟩, h.2.1⟩⟩

/-- **Bucket exhaustion.**  An app must stop exactly when the clause is valid and not paused and
some bucket that names it has no second left after its extension; which is when the day's or the
week's use has reached the cap and the extension together.  No cap's seconds leave their type, and
those of a valid clause are at most a day's and a week's. -/
theorem bucket_exhaustion (cal : Calendar) (usage : UsageLedger) (extension : ExtensionLedger)
    (body : GrantBuckets) (now : Int) :
    (∀ app, app ∈ spentBucketApps body (spentAfterExtension cal usage extension now) ↔
      body.isValid = true ∧ body.isPaused = false ∧ ∃ b ∈ body.buckets, app ∈ b.apps ∧
        b.remainingSecs (spentAfterExtension cal usage extension now b.id) = 0) ∧
    (body.isValid = true → ∀ b ∈ body.buckets,
      (b.remainingSecs (spentAfterExtension cal usage extension now b.id) = 0 ↔
        (∃ m ∈ b.dailyMinutes, capSecs m + extension.bucketExtraSecs cal.zones now b.id ≤
          usage.appBucketToday cal now b.id) ∨
        ∃ m ∈ b.weeklyMinutes, capSecs m + extension.bucketExtraSecs cal.zones now b.id ≤
          usage.appBucketWeek cal now b.id)) ∧
    (∀ b ∈ body.buckets, ∀ m, m ∈ b.dailyMinutes ∨ m ∈ b.weeklyMinutes → capSecs m ≤ u64Max) ∧
    (body.isValid = true → ∀ b ∈ body.buckets,
      (∀ m ∈ b.dailyMinutes, capSecs m ≤ 86400) ∧ ∀ m ∈ b.weeklyMinutes, capSecs m ≤ 604800) := by
  refine ⟨?_, ?_, ?_, ?_⟩
  · intro app
    rw [mem_spentBucketApps]
    refine and_congr_right fun hvalid => and_congr_right fun _ => exists_congr fun b => ?_
    refine and_congr_right fun hb => and_congr_right fun _ => ?_
    have hcaps := AppBucket.caps_of_valid (body.valid_of_mem hvalid hb)
    exact (AppBucket.remainingSecs_eq_zero_iff hcaps.1 _).symm
  · intro hvalid b hb
    obtain ⟨hsome, hday, hweek⟩ := AppBucket.caps_of_valid (body.valid_of_mem hvalid hb)
    rw [AppBucket.remainingSecs_eq_zero_iff hsome, AppBucket.gone, Bool.or_eq_true,
      Option.any_eq_true, Option.any_eq_true]
    -- A cap is not zero, so a meter below its extension is no meter at its cap.
    refine or_congr (exists_congr fun m => and_congr_right fun hm => ?_)
      (exists_congr fun m => and_congr_right fun hm => ?_)
    · have hpos := (hday m hm).1
      rw [decide_eq_true_iff, spentAfterExtension]
      dsimp only
      omega
    · have hpos := (hweek m hm).1
      rw [decide_eq_true_iff, spentAfterExtension]
      dsimp only
      omega
  · intro b _ m _
    have hm : m.toNat < 2 ^ 16 := m.toNat_lt
    unfold capSecs u64Max
    omega
  · intro hvalid b hb
    obtain ⟨-, hday, hweek⟩ := AppBucket.caps_of_valid (body.valid_of_mem hvalid hb)
    exact ⟨fun m hm => (hday m hm).2, fun m hm => (hweek m hm).2⟩

end Kintrinsic
