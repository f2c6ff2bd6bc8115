import Kintrinsic.CivilDate

/-! # Time zones and local days

A zone is a table of transitions, as the zone database ships them: the offset before the
first one, then each instant with the offset in force from it on.  The local day of an
instant is a day number; which instants show a given wall time is read off the table. -/
namespace Kintrinsic

open CivilDate

/-- A time zone.  No offset reaches a whole day. -/
structure Tz where
  initial : Int
  transitions : List (Int × Int)
  bounded : ∀ o ∈ initial :: transitions.map Prod.snd, -86400 < o ∧ o < 86400
deriving DecidableEq

/-- The zone database: what a zone name parses to. -/
abbrev Zones := String → Option Tz

namespace Tz

def utc : Tz := ⟨0, [], by decide⟩

/-- A zone by name, `UTC` when the name does not parse. -/
def ofName (zones : Zones) (name : String) : Tz := (zones name).getD utc

/-- The offset in force at an instant. -/
def offsetAt (tz : Tz) (now : Int) : Int :=
  ((tz.transitions.filter (fun t => t.1 ≤ now)).getLast?.map Prod.snd).getD tz.initial

/-- The wall clock at an instant, in seconds. -/
def wall (tz : Tz) (now : Int) : Int := now + tz.offsetAt now

def localDay (tz : Tz) (now : Int) : Int := tz.wall now / 86400

def secondOfDay (tz : Tz) (now : Int) : Nat := (tz.wall now % 86400).toNat

def minuteOfDay (tz : Tz) (now : Int) : Nat := tz.secondOfDay now / 60

/-- A stretch of constant offset; an absent bound is open. -/
structure Span where
  start : Option Int
  stop : Option Int
  offset : Int

/-- The stretches that begin with the one in force from `start`. -/
def spansFrom (start : Option Int) (offset : Int) : List (Int × Int) → List Span
  | [] => [⟨start, none, offset⟩]
  | (t, next) :: rest => ⟨start, some t, offset⟩ :: spansFrom (some t) next rest

def spans (tz : Tz) : List Span := spansFrom none tz.initial tz.transitions

/-- The instant of a stretch that shows the wall time, if it has one. -/
def Span.instantOf (s : Span) (local_ : Int) : Option Int :=
  let t := local_ - s.offset
  if (s.start.all (· ≤ t)) && s.stop.all (t < ·) then some t else none

/-- The instants at which a wall clock shows one time. -/
inductive LocalResult
  | none
  | single (t : Int)
  | ambiguous (earlier later : Int)
deriving DecidableEq

/-- `from_local_datetime`, in the order the stretches come. -/
def fromLocal (tz : Tz) (local_ : Int) : LocalResult :=
  match tz.spans.filterMap (·.instantOf local_) with
  | [] => .none
  | [t] => .single t
  | t :: t' :: _ => .ambiguous t t'

/-- The earlier instant of a wall time, if there is any. -/
def LocalResult.earliest : LocalResult → Option Int
  | none => Option.none
  | single t => some t
  | ambiguous t _ => some t

/-- `local_wall_ts`: a wall time skipped by a gap takes the first valid minute after it. -/
def localWallTs (tz : Tz) (day : Int) (minuteOfDay : Nat) : Int :=
  let naive := day * 86400 + minuteOfDay * 60
  match (tz.fromLocal naive).earliest with
  | some t => t
  | none =>
    ((List.range' 1 180).findSome? fun (m : Nat) =>
      (tz.fromLocal (naive + m * 60)).earliest).getD naive

/-- `secs_to_eod`: to the next local midnight. -/
def secsToEod (tz : Tz) (now : Int) : Nat :=
  (max (tz.localWallTs (tz.localDay now + 1) 0 - now) 0).toNat

/-- `day_key`: the calendar date of an instant. -/
def dayKey (tz : Tz) (now : Int) : String := dateKey (tz.localDay now)

@[simp] theorem offsetAt_utc (now : Int) : utc.offsetAt now = 0 := rfl

@[simp] theorem localDay_utc (now : Int) : utc.localDay now = now / 86400 := by
  simp [localDay, wall]

/-! ## How far a wall clock is from the instant it shows -/

theorem offsetAt_mem (tz : Tz) (now : Int) :
    tz.offsetAt now ∈ tz.initial :: tz.transitions.map Prod.snd := by
  unfold offsetAt
  cases h : (tz.transitions.filter (fun t => t.1 ≤ now)).getLast? with
  | none => exact List.mem_cons_self
  | some t =>
    have ht := List.mem_of_mem_filter (List.mem_of_getLast? h)
    exact List.mem_cons_of_mem _ (List.mem_map.mpr ⟨t, ht, rfl⟩)

theorem wall_bounds (tz : Tz) (now : Int) : now - 86400 < tz.wall now ∧ tz.wall now < now + 86400 := by
  have h := tz.bounded _ (tz.offsetAt_mem now)
  unfold wall
  omega

theorem offset_mem_spansFrom {start : Option Int} {offset : Int} {ts : List (Int × Int)}
    {s : Span} (h : s ∈ spansFrom start offset ts) : s.offset ∈ offset :: ts.map Prod.snd := by
  induction ts generalizing start offset with
  | nil =>
    rw [spansFrom, List.mem_singleton] at h
    exact h ▸ List.mem_cons_self
  | cons t ts ih =>
    rcases List.mem_cons.mp h with rfl | h
    · exact List.mem_cons_self
    · exact List.mem_cons_of_mem _ (ih h)

/-- An instant that shows a wall time is within a day of it. -/
theorem earliest_bounds {tz : Tz} {local_ t : Int} (h : (tz.fromLocal local_).earliest = some t) :
    local_ - 86400 < t ∧ t < local_ + 86400 := by
  have hmem : t ∈ tz.spans.filterMap (·.instantOf local_) := by
    unfold fromLocal at h
    split at h
    · cases h
    · rename_i u heq
      cases h
      rw [heq]
      exact List.mem_cons_self
    · rename_i u v rest heq
      cases h
      rw [heq]
      exact List.mem_cons_self
  obtain ⟨s, hs, ht⟩ := List.mem_filterMap.mp hmem
  have hoffset := tz.bounded _ (offset_mem_spansFrom hs)
  unfold Span.instantOf at ht
  dsimp only at ht
  split at ht
  · cases ht
    omega
  · cases ht

/-- Past a gap, too, the instant of a wall time is near it. -/
theorem localWallTs_bounds (tz : Tz) (day : Int) (minuteOfDay : Nat) :
    day * 86400 + minuteOfDay * 60 - 86400 ≤ tz.localWallTs day minuteOfDay ∧
      tz.localWallTs day minuteOfDay ≤ day * 86400 + minuteOfDay * 60 + 97200 := by
  unfold localWallTs
  dsimp only
  split
  · rename_i t ht
    have hbounds := earliest_bounds ht
    omega
  · cases h : (List.range' 1 180).findSome? fun (m : Nat) =>
        (tz.fromLocal (day * 86400 + minuteOfDay * 60 + m * 60)).earliest with
    | none =>
      rw [Option.getD_none]
      omega
    | some t =>
      obtain ⟨m, hm, ht⟩ := List.exists_of_findSome?_eq_some h
      have hrange := List.mem_range'_1.mp hm
      have hbounds := earliest_bounds ht
      rw [Option.getD_some]
      omega

/-- The next wall time of a local day is less than three days and its own minutes away. -/
theorem localWallTs_sub_lt (tz : Tz) (now : Int) (minuteOfDay : Nat) :
    tz.localWallTs (tz.localDay now) minuteOfDay - now < 259200 + minuteOfDay * 60 := by
  have hwall := tz.wall_bounds now
  have hts := tz.localWallTs_bounds (tz.localDay now) minuteOfDay
  have hday : tz.localDay now * 86400 ≤ tz.wall now := Int.ediv_mul_le _ (by decide)
  omega

/-- Two instants have one key exactly when they fall on one local day. -/
theorem dayKey_eq_iff (tz : Tz) (a b : Int) :
    tz.dayKey a = tz.dayKey b ↔ tz.localDay a = tz.localDay b :=
  ⟨dateKey_inj, congrArg dateKey⟩

/-- In UTC every wall time is one instant. -/
theorem localWallTs_utc (day : Int) (minuteOfDay : Nat) :
    utc.localWallTs day minuteOfDay = day * 86400 + minuteOfDay * 60 := by
  simp [localWallTs, fromLocal, spans, utc, spansFrom, Span.instantOf, LocalResult.earliest]

theorem exists_le_all (ts : List Int) : ∃ first, ∀ t ∈ ts, first ≤ t := by
  induction ts with
  | nil => exact ⟨0, by simp⟩
  | cons t ts ih =>
    obtain ⟨first, hfirst⟩ := ih
    refine ⟨min t first, ?_⟩
    intro u hu
    rcases List.mem_cons.mp hu with rfl | hu
    · exact min_le_left _ _
    · exact (min_le_right _ _).trans (hfirst u hu)

/-- Before the first transition the initial offset is in force. -/
theorem offsetAt_early {tz : Tz} {now : Int} (h : ∀ t ∈ tz.transitions, now < t.1) :
    tz.offsetAt now = tz.initial := by
  have hnone : tz.transitions.filter (fun t => t.1 ≤ now) = [] := by
    rw [List.filter_eq_nil_iff]
    intro t ht
    rw [decide_eq_true_eq]
    exact not_le.mpr (h t ht)
  rw [offsetAt, hnone]
  rfl

/-- The first stretch has no start, so it shows every midnight before its end. -/
theorem localWallTs_early {tz : Tz} {day : Int}
    (h : ∀ t ∈ tz.transitions, day * 86400 - tz.initial < t.1) :
    tz.localWallTs day 0 = day * 86400 - tz.initial := by
  have hmidnight : day * 86400 + (0 : Nat) * 60 = day * 86400 := by omega
  have hspans : ∃ stop rest, tz.spans = ⟨none, stop, tz.initial⟩ :: rest ∧
      stop.all (day * 86400 - tz.initial < ·) = true := by
    unfold spans
    cases hts : tz.transitions with
    | nil => exact ⟨none, [], rfl, rfl⟩
    | cons t ts =>
      refine ⟨some t.1, spansFrom (some t.1) t.2 ts, rfl, ?_⟩
      rw [Option.all_some, decide_eq_true_eq]
      exact h t (hts ▸ List.mem_cons_self)
  obtain ⟨stop, rest, hspans, hstop⟩ := hspans
  have hinstant : (⟨none, stop, tz.initial⟩ : Span).instantOf (day * 86400) =
      some (day * 86400 - tz.initial) := by
    rw [Span.instantOf, Option.all_none, Bool.true_and, if_pos hstop]
  have hearliest : (tz.fromLocal (day * 86400)).earliest =
      some (day * 86400 - tz.initial) := by
    have hhead : tz.spans.filterMap (·.instantOf (day * 86400)) =
        (day * 86400 - tz.initial) :: rest.filterMap (·.instantOf (day * 86400)) := by
      rw [hspans]
      exact List.filterMap_cons_some hinstant
    rw [fromLocal, hhead]
    cases rest.filterMap (·.instantOf (day * 86400)) <;> rfl
  rw [localWallTs, hmidnight, hearliest]

/-- **In every zone some day is not over yet**: one before the first transition. -/
theorem exists_secsToEod_pos (tz : Tz) : ∃ now, 0 < tz.secsToEod now := by
  obtain ⟨first, hfirst⟩ := exists_le_all (tz.transitions.map Prod.fst)
  have hearly : ∀ t ∈ tz.transitions, first ≤ t.1 :=
    fun t ht => hfirst t.1 (List.mem_map_of_mem ht)
  have hbound := tz.bounded _ List.mem_cons_self
  refine ⟨first - 300000, ?_⟩
  have hday : tz.localDay (first - 300000) = (first - 300000 + tz.initial) / 86400 := by
    rw [localDay, wall, offsetAt_early]
    intro t ht
    have hle := hearly t ht
    omega
  have hts : tz.localWallTs (tz.localDay (first - 300000) + 1) 0 =
      (tz.localDay (first - 300000) + 1) * 86400 - tz.initial := by
    refine localWallTs_early ?_
    intro t ht
    have hle := hearly t ht
    omega
  rw [secsToEod, hts]
  omega

theorem secsToEod_utc (now : Int) : (utc.secsToEod now : Int) = 86400 - now % 86400 := by
  rw [secsToEod, localWallTs_utc, localDay_utc]
  omega

end Tz
end Kintrinsic
