import Kintrinsic.NextWindow

/-! # Usable windows and what runs

A window is usable when it carries no tag, or one that is known.  On a day whose tagged windows do
not overlap, what runs at a minute runs in a usable window; but a usable window may lie under one
whose tag is not known, and then it does not run.  Where the usable windows that start ahead are the
runnable spans that start ahead, the raw windows tell what comes next. -/
namespace Kintrinsic

open Tz

namespace Times
variable {sched : GrantSchedule} {wins : List Win} {known : String → Bool} {tz : Tz} {now day : Int}
  {minute : Nat} {v w : Win}

theorem Win.covers_iff : w.covers minute = true ↔ w.start ≤ minute ∧ minute < w.stop := by
  rw [Win.covers, Bool.and_eq_true, decide_eq_true_eq, decide_eq_true_eq]

/-- A window that can be used: untagged, or of a time that is known. -/
def Win.Usable (known : String → Bool) (w : Win) : Prop := ∀ id, w.tag = some id → known id = true

/-- No two tagged windows share a minute. -/
def TagsApart (wins : List Win) : Prop :=
  ∀ a ∈ wins, ∀ b ∈ wins, ∀ minute, a.tag.isSome = true → b.tag.isSome = true →
    a.covers minute = true → b.covers minute = true → a = b

/-! ## What a minute is labelled -/

/-- The tagged window over a minute labels it. -/
theorem TagsApart.labelAt_eq (h : TagsApart wins) {id : String} (hw : w ∈ wins)
    (htag : w.tag = some id) (hcovers : w.covers minute = true) :
    labelAt wins known minute = if known id then .time id else .unknown id := by
  have hsome : w.tag.isSome = true := by rw [htag]; rfl
  unfold labelAt
  rcases minByKey_spec Win.start (wins.filter fun w => w.tag.isSome && w.covers minute) with
    ⟨-, hnil⟩ | ⟨v, hv, hmin, -⟩
  · have hmem := List.filter_eq_nil_iff.mp hnil w hw
    rw [hsome, hcovers] at hmem
    exact absurd rfl hmem
  · obtain ⟨hmem, hv⟩ := List.mem_filter.mp hv
    rw [Bool.and_eq_true] at hv
    obtain rfl := h v hmem w hw minute hv.1 hsome hv.2 hcovers
    rw [hmin]
    dsimp only
    rw [htag, Option.getD_some]

/-- Under no tagged window, an untagged one makes it Free time. -/
theorem labelAt_free_iff : labelAt wins known minute = .free ↔
    (∀ w ∈ wins, w.tag.isSome = true → w.covers minute = false) ∧
      ∃ w ∈ wins, w.tag = none ∧ w.covers minute = true := by
  unfold labelAt
  rcases minByKey_spec Win.start (wins.filter fun w => w.tag.isSome && w.covers minute) with
    ⟨hmin, hnil⟩ | ⟨v, hv, hmin, -⟩
  · have hnone := List.filter_eq_nil_iff.mp hnil
    rw [hmin]
    dsimp only
    rw [and_iff_right]
    · by_cases hfree : (wins.any fun w => w.tag.isNone && w.covers minute) = true
      · rw [if_pos hfree]
        obtain ⟨w, hw, hboth⟩ := List.any_eq_true.mp hfree
        rw [Bool.and_eq_true, Option.isNone_iff_eq_none] at hboth
        exact iff_of_true rfl ⟨w, hw, hboth.1, hboth.2⟩
      · rw [if_neg hfree]
        refine iff_of_false (by simp) ?_
        rintro ⟨w, hw, htag, hcovers⟩
        exact hfree (List.any_eq_true.mpr ⟨w, hw, by rw [htag, hcovers]; rfl⟩)
    · intro w hw htag
      have hnot := hnone w hw
      rw [htag, Bool.true_and, Bool.not_eq_true] at hnot
      exact hnot
  · obtain ⟨hmem, hboth⟩ := List.mem_filter.mp hv
    rw [Bool.and_eq_true] at hboth
    rw [hmin]
    dsimp only
    refine iff_of_false (by split <;> simp) fun hnot => ?_
    rw [hnot.1 v hmem hboth.1] at hboth
    exact Bool.false_ne_true hboth.2

/-- **What runs, runs in a usable window**, of its own tag. -/
theorem TagsApart.usable_of_runnable (h : TagsApart wins)
    (hrun : (labelAt wins known minute).runnable = true) :
    ∃ v ∈ wins, v.Usable known ∧ v.covers minute = true ∧
      v.tag = (labelAt wins known minute).named := by
  by_cases htagged : ∃ v ∈ wins, v.tag.isSome = true ∧ v.covers minute = true
  · obtain ⟨v, hv, htag, hcovers⟩ := htagged
    obtain ⟨id, hid⟩ := Option.isSome_iff_exists.mp htag
    have hlabel : labelAt wins known minute = if known id then .time id else .unknown id :=
      h.labelAt_eq hv hid hcovers
    cases hk : known id with
    | false =>
      rw [hlabel, hk] at hrun
      cases hrun
    | true =>
      rw [hk] at hlabel
      refine ⟨v, hv, ?_, hcovers, ?_⟩
      · intro id' hid'
        rw [hid, Option.some_inj] at hid'
        rwa [← hid']
      · rw [hlabel, hid]
        rfl
  · have hclear : ∀ w ∈ wins, w.tag.isSome = true → w.covers minute = false := by
      intro w hw htag
      by_contra hcovers
      exact htagged ⟨w, hw, htag, Bool.not_eq_false _ ▸ hcovers⟩
    have hopen : ∃ w ∈ wins, w.covers minute = true := by
      by_contra hnone
      push Not at hnone
      have hclosed : labelAt wins known minute = .closed :=
        labelAt_closed_iff.mpr fun w hw => Bool.eq_false_iff.mpr (hnone w hw)
      rw [hclosed] at hrun
      cases hrun
    obtain ⟨v, hv, hcovers⟩ := hopen
    have htag : v.tag = none := by
      by_contra hsome
      have hnot := hclear v hv (Option.isSome_iff_ne_none.mpr hsome)
      rw [hcovers] at hnot
      cases hnot
    have hfree : labelAt wins known minute = .free :=
      labelAt_free_iff.mpr ⟨hclear, v, hv, htag, hcovers⟩
    refine ⟨v, hv, ?_, hcovers, ?_⟩
    · intro id hid
      rw [htag] at hid
      cases hid
    · rw [hfree, htag]
      rfl

/-- Where something runs, no window of an unknown tag lies. -/
theorem TagsApart.clear_of_runnable (h : TagsApart wins)
    (hrun : (labelAt wins known minute).runnable = true) :
    ∀ u ∈ wins, ¬u.Usable known → u.covers minute = false := by
  intro u hu hnot
  rw [Bool.eq_false_iff]
  intro hcovers
  refine hnot fun id hid => ?_
  rw [h.labelAt_eq hu hid hcovers] at hrun
  cases hk : known id with
  | true => rfl
  | false =>
    rw [hk] at hrun
    cases hrun

/-- Clear of unknown tags, a usable window runs. -/
theorem TagsApart.runnable_of_clear (h : TagsApart wins) (hw : w ∈ wins)
    (hcovers : w.covers minute = true) (hclear : ∀ u ∈ wins, ¬u.Usable known → u.covers minute = false) :
    (labelAt wins known minute).runnable = true := by
  by_cases htagged : ∃ v ∈ wins, v.tag.isSome = true ∧ v.covers minute = true
  · obtain ⟨v, hv, htag, hv'⟩ := htagged
    obtain ⟨id, hid⟩ := Option.isSome_iff_exists.mp htag
    have husable : v.Usable known := by
      by_contra hnot
      have hfalse := hclear v hv hnot
      rw [hv'] at hfalse
      cases hfalse
    rw [h.labelAt_eq hv hid hv', husable id hid]
    rfl
  · have hfree : labelAt wins known minute = .free := by
      refine labelAt_free_iff.mpr ⟨fun u hu hsome => ?_, w, hw, ?_, hcovers⟩
      · by_contra hnot
        exact htagged ⟨u, hu, hsome, Bool.not_eq_false _ ▸ hnot⟩
      · by_contra hsome
        exact htagged ⟨w, hw, Option.isSome_iff_ne_none.mpr hsome, hcovers⟩
    rw [hfree]
    rfl

/-- Of the usable windows over a minute at which something runs, a tagged one names it. -/
theorem TagsApart.named_of_tagged (h : TagsApart wins) (hw : w ∈ wins)
    (hcovers : w.covers minute = true) (htag : w.tag.isSome = true)
    (hrun : (labelAt wins known minute).runnable = true) :
    (labelAt wins known minute).named = w.tag := by
  obtain ⟨id, hid⟩ := Option.isSome_iff_exists.mp htag
  have hlabel : labelAt wins known minute = if known id then .time id else .unknown id :=
    h.labelAt_eq hw hid hcovers
  cases hk : known id with
  | true =>
    rw [hlabel, hk, hid]
    rfl
  | false =>
    rw [hlabel, hk] at hrun
    cases hrun

/-! ## Usable windows that start ahead -/

/-- A usable window starts at a minute of today past the current one, or tomorrow. -/
structure UsableAhead (sched : GrantSchedule) (known : String → Bool) (tz : Tz) (now day : Int)
    (w : Win) : Prop where
  mem : w ∈ windowsOf sched day
  usable : w.Usable known
  later : day = tz.localDay now ∧ tz.minuteOfDay now < w.start ∨ day = tz.localDay now + 1

/-- And none starts before it. -/
structure FirstUsable (sched : GrantSchedule) (known : String → Bool) (tz : Tz) (now day : Int)
    (w : Win) : Prop extends UsableAhead sched known tz now day w where
  first : ∀ day' w', UsableAhead sched known tz now day' w' →
    wallOf day w.start ≤ wallOf day' w'.start

/-- Of the usable windows ahead one is the first. -/
theorem exists_firstUsable (h : UsableAhead sched known tz now day w) :
    ∃ day w, FirstUsable sched known tz now day w := by
  obtain ⟨x, ⟨day', w', hahead, rfl⟩, hleast⟩ := Int.exists_least_of_bdd
    (P := fun x => ∃ day w, UsableAhead sched known tz now day w ∧ x = wallOf day w.start)
    ⟨tz.localDay now * 86400, by
      rintro x ⟨day, w, hahead, rfl⟩
      have hlater := hahead.later
      unfold wallOf
      omega⟩ ⟨_, day, w, h, rfl⟩
  exact ⟨day', w', hahead, fun day w hother => hleast _ ⟨day, w, hother, rfl⟩⟩

/-- **No window of an unknown tag hides what comes next**: none lies over the start of the first
usable window ahead, and no untagged window that is under one now comes out from under it before
another usable window starts. -/
structure NextUnhidden (sched : GrantSchedule) (known : String → Bool) (tz : Tz) (now : Int) :
    Prop where
  start : ∀ day w, FirstUsable sched known tz now day w →
    ∀ u ∈ windowsOf sched day, ¬u.Usable known → u.covers w.start = false
  rest : ∀ w ∈ windowsOf sched (tz.localDay now), w.tag = none →
    w.covers (tz.minuteOfDay now) = true → ∀ m, tz.minuteOfDay now < m → m < w.stop →
      (∃ u ∈ windowsOf sched (tz.localDay now), u.tag.isSome = true ∧ u.covers m = true) ∨
        ∃ k ∈ windowsOf sched (tz.localDay now), k.Usable known ∧ tz.minuteOfDay now < k.start ∧
          k.start ≤ m

section Next
variable (hapart : ∀ day, TagsApart (windowsOf sched day))
  (hlocked : (labelOn sched known (tz.wall now)).runnable = false)
include hapart hlocked

/-- What runs ahead runs in a usable window that starts ahead, or in an untagged one that is open
now. -/
theorem usable_of_runs_ahead {m : Nat}
    (hrun : (labelAt (windowsOf sched day) known m).runnable = true)
    (hlater : day = tz.localDay now ∧ tz.minuteOfDay now < m ∨ day = tz.localDay now + 1) :
    (∃ w, UsableAhead sched known tz now day w ∧ w.covers m = true ∧
        w.tag = (labelAt (windowsOf sched day) known m).named) ∨
      day = tz.localDay now ∧ labelAt (windowsOf sched day) known m = .free ∧
        ∃ w ∈ windowsOf sched day, w.tag = none ∧ w.covers (tz.minuteOfDay now) = true ∧
          m < w.stop := by
  obtain ⟨w, hw, husable, hcovers, htag⟩ := (hapart day).usable_of_runnable hrun
  obtain ⟨hstart, hstop⟩ := Win.covers_iff.mp hcovers
  by_cases hahead : day = tz.localDay now ∧ tz.minuteOfDay now < w.start ∨
      day = tz.localDay now + 1
  · exact .inl ⟨w, ⟨hw, husable, hahead⟩, hcovers, htag⟩
  · right
    have htoday : day = tz.localDay now ∧ tz.minuteOfDay now < m := hlater.resolve_right
      fun h => hahead (.inr h)
    have hnow : w.covers (tz.minuteOfDay now) = true := by
      rw [Win.covers_iff]
      omega
    have huntagged : w.tag = none := by
      by_contra hsome
      obtain ⟨id, hid⟩ := Option.ne_none_iff_exists'.mp hsome
      have hlabel : labelAt (windowsOf sched day) known (tz.minuteOfDay now) =
          if known id then .time id else .unknown id := (hapart day).labelAt_eq hw hid hnow
      rw [husable id hid, if_pos rfl, htoday.1] at hlabel
      have hruns : (labelOn sched known (tz.wall now)).runnable = true := by
        show (labelAt (windowsOf sched (tz.localDay now)) known (tz.minuteOfDay now)).runnable = true
        rw [hlabel]
        rfl
      rw [hlocked] at hruns
      cases hruns
    have hfree : labelAt (windowsOf sched day) known m = .free := by
      cases hlabel : labelAt (windowsOf sched day) known m with
      | free => rfl
      | time id =>
        rw [hlabel, huntagged] at htag
        cases htag
      | closed =>
        rw [hlabel] at hrun
        cases hrun
      | unknown id =>
        rw [hlabel] at hrun
        cases hrun
    exact ⟨htoday.1, hfree, w, hw, huntagged, hnow, hstop⟩

/-- Unhidden, what runs ahead has a usable window that starts ahead, and no later. -/
theorem NextUnhidden.usable_of_runs {m : Nat} (h : NextUnhidden sched known tz now)
    (hrun : (labelAt (windowsOf sched day) known m).runnable = true)
    (hlater : day = tz.localDay now ∧ tz.minuteOfDay now < m ∨ day = tz.localDay now + 1) :
    ∃ w, UsableAhead sched known tz now day w ∧ w.start ≤ m := by
  rcases usable_of_runs_ahead hapart hlocked hrun hlater with
    ⟨w, hw, hcovers, -⟩ | ⟨rfl, hfree, w, hw, htag, hnow, hstop⟩
  · exact ⟨w, hw, (Win.covers_iff.mp hcovers).1⟩
  · have hm : tz.minuteOfDay now < m := by
      rcases hlater with hlater | hlater
      · exact hlater.2
      · omega
    rcases h.rest w hw htag hnow m hm hstop with ⟨u, hu, hsome, hcovers⟩ | ⟨k, hk, husable, hlt, hle⟩
    · rw [(labelAt_free_iff.mp hfree).1 u hu hsome] at hcovers
      cases hcovers
    · exact ⟨k, ⟨hk, husable, .inl ⟨rfl, hlt⟩⟩, hle⟩

/-- Unhidden, the first usable window ahead starts a span. -/
theorem NextUnhidden.firstAhead (h : NextUnhidden sched known tz now)
    (hw : FirstUsable sched known tz now day w) :
    FirstAhead sched known tz now day w.start := by
  have hwell := windowsOf_wellFormed hw.mem
  have hcovers : w.covers w.start = true := Win.covers_iff.mpr ⟨le_rfl, hwell.1⟩
  have hrun := (hapart day).runnable_of_clear hw.mem hcovers (h.start day w hw)
  obtain ⟨s, e, hspan, hs, -, hconst⟩ := exists_runnableSpan hrun
  -- whatever ran just before would be a usable window that starts earlier
  have hstart : s = w.start := by
    by_contra hne
    have hlt : s < w.start := lt_of_le_of_ne hs hne
    have hsame := hconst (w.start - 1) (by omega) (by omega)
    have hbefore : (labelAt (windowsOf sched day) known (w.start - 1)).runnable = true :=
      hsame ▸ hrun
    have hlater : day = tz.localDay now ∧ tz.minuteOfDay now < w.start - 1 ∨
        day = tz.localDay now + 1 := by
      rcases hw.later with ⟨rfl, hnow⟩ | htomorrow
      · refine .inl ⟨rfl, ?_⟩
        by_contra hle
        have hnow' : w.start - 1 = tz.minuteOfDay now := by omega
        rw [hnow'] at hbefore
        have hruns : (labelOn sched known (tz.wall now)).runnable = true := hbefore
        rw [hlocked] at hruns
        cases hruns
      · exact .inr htomorrow
    obtain ⟨k, hk, hle⟩ := h.usable_of_runs hapart hlocked hbefore hlater
    have hfirst := hw.first day k hk
    unfold wallOf at hfirst
    omega
  refine ⟨⟨⟨e, hstart ▸ hspan⟩, hw.later⟩, fun day' b' hahead => ?_⟩
  obtain ⟨e', hspan'⟩ := hahead.starts
  obtain ⟨k, hk, hle⟩ := h.usable_of_runs hapart hlocked hspan'.runnable hahead.later
  refine (hw.first day' k hk).trans ?_
  unfold wallOf
  omega

/-- **When the raw windows tell what comes next**: the first usable window ahead is where the first
span ahead starts, on every schedule whose next opening is not hidden, and on no other. -/
theorem nextUnhidden_iff : NextUnhidden sched known tz now ↔
    ∀ day b, FirstAhead sched known tz now day b ↔
      ∃ w, FirstUsable sched known tz now day w ∧ w.start = b := by
  constructor
  · intro h day b
    constructor
    · intro hahead
      obtain ⟨e, hspan⟩ := hahead.starts
      obtain ⟨k, hk, -⟩ := h.usable_of_runs hapart hlocked hspan.runnable hahead.later
      obtain ⟨day', w, hw⟩ := exists_firstUsable hk
      obtain ⟨rfl, rfl⟩ := (h.firstAhead hapart hlocked hw).unique hahead
      exact ⟨w, hw, rfl⟩
    · rintro ⟨w, hw, rfl⟩
      exact h.firstAhead hapart hlocked hw
  · intro hsame
    refine ⟨fun day w hw => ?_, fun w hw htag hnow m hlt hstop => ?_⟩
    · obtain ⟨e, hspan⟩ := ((hsame day w.start).mpr ⟨w, hw, rfl⟩).starts
      exact (hapart day).clear_of_runnable hspan.runnable
    · by_contra hnot
      rw [not_or] at hnot
      have hfree : labelAt (windowsOf sched (tz.localDay now)) known m = .free := by
        refine labelAt_free_iff.mpr ⟨fun u hu hsome => ?_, w, hw, htag, ?_⟩
        · by_contra hcovers
          exact hnot.1 ⟨u, hu, hsome, Bool.not_eq_false _ ▸ hcovers⟩
        · have hcovers := Win.covers_iff.mp hnow
          exact Win.covers_iff.mpr ⟨by omega, hstop⟩
      -- so a span starts by then, and no usable window does
      have hrun : (labelAt (windowsOf sched (tz.localDay now)) known m).runnable = true := by
        rw [hfree]
        rfl
      obtain ⟨s, e, hspan, hs, -, hconst⟩ := exists_runnableSpan hrun
      have hafter : tz.minuteOfDay now < s := by
        by_contra hle
        have hruns : (labelOn sched known (tz.wall now)).runnable = true := by
          show (labelAt (windowsOf sched (tz.localDay now)) known
            (tz.minuteOfDay now)).runnable = true
          rw [hconst _ (not_lt.mp hle) hlt.le]
          exact hrun
        rw [hlocked] at hruns
        cases hruns
      have hahead : StartAhead sched known tz now (tz.localDay now) s :=
        ⟨⟨e, hspan⟩, .inl ⟨rfl, hafter⟩⟩
      obtain ⟨day', b, hfirst⟩ := exists_firstAhead hahead
      obtain ⟨k, hk, rfl⟩ := (hsame day' b).mp hfirst
      have hle := hfirst.first _ _ hahead
      have hbound := hahead.lt
      rcases hk.later with ⟨rfl, hkafter⟩ | rfl
      · refine hnot.2 ⟨k, hk.mem, hk.usable, hkafter, ?_⟩
        unfold wallOf at hle
        omega
      · unfold wallOf at hle
        omega

end Next

/-! ## What was usable last, or is next -/

/-- The tag of the usable window of a day that ended last, or else of the one that starts next; of
two that end or start together a tagged one. -/
structure UsableAsks (wins : List Win) (known : String → Bool) (minute : Nat)
    (answer : Option String) : Prop where
  ended : (∃ w ∈ wins, w.Usable known ∧ w.stop ≤ minute) →
    ∃ w ∈ wins, w.Usable known ∧ w.stop ≤ minute ∧ answer = w.tag ∧
      ∀ k ∈ wins, k.Usable known → k.stop ≤ minute →
        k.stop ≤ w.stop ∧ (k.stop = w.stop → w.tag = none → k.tag = none)
  next : (∀ w ∈ wins, w.Usable known → ¬w.stop ≤ minute) →
    (∃ w ∈ wins, w.Usable known ∧ minute < w.start) →
    ∃ w ∈ wins, w.Usable known ∧ minute < w.start ∧ answer = w.tag ∧
      ∀ k ∈ wins, k.Usable known → minute < k.start →
        w.start ≤ k.start ∧ (k.start = w.start → w.tag = none → k.tag = none)
  neither : (∀ w ∈ wins, w.Usable known → ¬w.stop ≤ minute ∧ ¬minute < w.start) → answer = none

/-- No window of an unknown tag hides what was usable last, or is next: none lies over the last
minute of the usable window that ended last, or else over the start of the next one, or now over an
untagged window. -/
structure AskUnhidden (wins : List Win) (known : String → Bool) (minute : Nat) : Prop where
  now : ∀ w ∈ wins, w.tag = none → w.covers minute = false
  last : ∀ w ∈ wins, w.Usable known → w.stop ≤ minute →
    (∀ k ∈ wins, k.Usable known → k.stop ≤ minute → k.stop ≤ w.stop) →
      ∀ u ∈ wins, ¬u.Usable known → u.covers (w.stop - 1) = false
  next : (∀ w ∈ wins, w.Usable known → ¬w.stop ≤ minute) →
    ∀ w ∈ wins, w.Usable known → minute < w.start →
      (∀ k ∈ wins, k.Usable known → minute < k.start → w.start ≤ k.start) →
        ∀ u ∈ wins, ¬u.Usable known → u.covers w.start = false

section Ask
variable (hapart : TagsApart wins) (hwell : ∀ w ∈ wins, w.start < w.stop)
  (hlocked : (labelAt wins known minute).runnable = false) (h : AskUnhidden wins known minute)
include hapart hlocked h

/-- While nothing runs now, what runs at a minute runs in a usable window that has ended by now or
is still to start. -/
theorem AskUnhidden.apart_from_now {m : Nat} (hrun : (labelAt wins known m).runnable = true) :
    ∃ w ∈ wins, w.Usable known ∧ w.covers m = true ∧ w.tag = (labelAt wins known m).named ∧
      (w.stop ≤ minute ∨ minute < w.start) := by
  obtain ⟨w, hw, husable, hcovers, htag⟩ := hapart.usable_of_runnable hrun
  refine ⟨w, hw, husable, hcovers, htag, ?_⟩
  by_contra hnow
  have hnow : w.covers minute = true := Win.covers_iff.mpr (by omega)
  cases hid : w.tag with
  | none =>
    rw [h.now w hw hid] at hnow
    cases hnow
  | some id =>
    rw [hapart.labelAt_eq hw hid hnow, husable id hid] at hlocked
    cases hlocked

include hwell

/-- **The raw windows tell what to ask for** where nothing is hidden. -/
theorem AskUnhidden.answer_eq {answer answer' : Option String}
    (hdevice : Asks wins known minute answer) (hraw : UsableAsks wins known minute answer') :
    answer' = answer := by
  by_cases hended : ∃ w ∈ wins, w.Usable known ∧ w.stop ≤ minute
  · obtain ⟨w, hw, husable, hle, rfl, hlast⟩ := hraw.ended hended
    have hlt := hwell w hw
    have hcovers : w.covers (w.stop - 1) = true := Win.covers_iff.mpr (by omega)
    have hrun := hapart.runnable_of_clear hw hcovers
      (h.last w hw husable hle fun k hk hku hkle => (hlast k hk hku hkle).1)
    obtain ⟨s, e, hspan, hs, he, hconst⟩ := exists_runnableSpan hrun
    have hpast : e ≤ minute := by
      by_contra hafter
      have hsame := hspan.const minute (by omega) (by omega)
      have hrun' := hspan.runnable
      rw [← hsame, hlocked] at hrun'
      cases hrun'
    rw [hdevice.ended s e hspan hpast fun s' e' hspan' hpast' => ?_]
    · rw [hconst s le_rfl hs]
      obtain ⟨v, hv, hvu, hvc, hvtag, hapart'⟩ := h.apart_from_now hapart hlocked hrun
      obtain ⟨hv1, hv2⟩ := Win.covers_iff.mp hvc
      have hvle : v.stop ≤ minute := by omega
      obtain ⟨hvstop, htie⟩ := hlast v hv hvu hvle
      cases htag : w.tag with
      | some id =>
        have hsome : w.tag.isSome = true := by rw [htag]; rfl
        rw [hapart.named_of_tagged hw hcovers hsome hrun, htag]
      | none => rw [← hvtag, htie (by omega) htag]
    · -- a later end would be that of a usable window that ended later
      have hlt' := hspan'.lt
      have hrun' : (labelAt wins known (e' - 1)).runnable = true := by
        rw [hspan'.const (e' - 1) (by omega) (by omega)]
        exact hspan'.runnable
      obtain ⟨v, hv, hvu, hvc, -, hapart'⟩ := h.apart_from_now hapart hlocked hrun'
      obtain ⟨hv1, hv2⟩ := Win.covers_iff.mp hvc
      have hvstop := (hlast v hv hvu (by omega)).1
      omega
  · have hnone : ∀ w ∈ wins, w.Usable known → ¬w.stop ≤ minute :=
      fun w hw hu hle => hended ⟨w, hw, hu, hle⟩
    have hnospan : ∀ s e, RunnableSpan wins known s e → ¬e ≤ minute := by
      intro s e hspan hle
      obtain ⟨v, hv, hvu, hvc, -, hapart'⟩ := h.apart_from_now hapart hlocked hspan.runnable
      obtain ⟨hv1, hv2⟩ := Win.covers_iff.mp hvc
      have hlt := hspan.lt
      have hnot := hnone v hv hvu
      omega
    by_cases hahead : ∃ w ∈ wins, w.Usable known ∧ minute < w.start
    · obtain ⟨w, hw, husable, hlt, rfl, hfirst⟩ := hraw.next hnone hahead
      have hcovers : w.covers w.start = true := Win.covers_iff.mpr ⟨le_rfl, hwell w hw⟩
      have hrun := hapart.runnable_of_clear hw hcovers
        (h.next hnone w hw husable hlt fun k hk hku hklt => (hfirst k hk hku hklt).1)
      obtain ⟨s, e, hspan, hs, he, hconst⟩ := exists_runnableSpan hrun
      have hbegins : ∀ {m : Nat}, (labelAt wins known m).runnable = true → minute < m →
          w.start ≤ m := by
        intro m hm hafter
        obtain ⟨v, hv, hvu, hvc, -, hapart'⟩ := h.apart_from_now hapart hlocked hm
        obtain ⟨hv1, hv2⟩ := Win.covers_iff.mp hvc
        have hnot := hnone v hv hvu
        exact (hfirst v hv hvu (by omega)).1.trans hv1
      have hafter : minute < s := by
        by_contra hbefore
        have hsame := hspan.const minute (by omega) (by omega)
        have hrun' := hspan.runnable
        rw [← hsame, hlocked] at hrun'
        cases hrun'
      obtain rfl : s = w.start := le_antisymm hs (hbegins hspan.runnable hafter)
      rw [hdevice.next hnospan _ e hspan hlt fun s' e' hspan' hlt' => hbegins hspan'.runnable hlt']
      obtain ⟨v, hv, hvu, hvc, hvtag, hapart'⟩ := h.apart_from_now hapart hlocked hrun
      obtain ⟨hv1, hv2⟩ := Win.covers_iff.mp hvc
      have hnot := hnone v hv hvu
      obtain ⟨hvstart, htie⟩ := hfirst v hv hvu (by omega)
      cases htag : w.tag with
      | some id =>
        have hsome : w.tag.isSome = true := by rw [htag]; rfl
        rw [hapart.named_of_tagged hw hcovers hsome hrun, htag]
      | none => rw [← hvtag, htie (by omega) htag]
    · have hnoahead : ∀ w ∈ wins, w.Usable known → ¬w.stop ≤ minute ∧ ¬minute < w.start :=
        fun w hw hu => ⟨hnone w hw hu, fun hlt => hahead ⟨w, hw, hu, hlt⟩⟩
      rw [hraw.neither hnoahead, hdevice.neither]
      intro s e hspan
      refine ⟨hnospan s e hspan, fun hlt => ?_⟩
      obtain ⟨v, hv, hvu, -, -, hapart'⟩ := h.apart_from_now hapart hlocked hspan.runnable
      have hnot := hnoahead v hv hvu
      omega

end Ask

end Times
end Kintrinsic
