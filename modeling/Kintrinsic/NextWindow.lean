import Kintrinsic.TimesSpan

/-! # What comes next, and what to ask for

`next_window` looks ahead, today and tomorrow, for the first boundary at which a runnable span
starts; `default_ask_time` names, of the spans of the day, the one that ended last or else the one
that starts next.  Both derive the spans from the windows again. -/
namespace Kintrinsic

open Tz

/-- The last of the greatest so far and one more. -/
def greater {α : Type} (key : α → Nat) (best : Option α) (x : α) : Option α :=
  match best with
  | none => some x
  | some b => if key b ≤ key x then some x else some b

/-- `max_by_key`: the last of the greatest. -/
def maxByKey {α : Type} (key : α → Nat) (xs : List α) : Option α := xs.foldl (greater key) none

/-- The next span that can run, as the lock card shows it. -/
structure NextWindow where
  time : Option String
  start : Int
  startHhmm : String
  dayOffset : Nat
deriving DecidableEq

/-- `hhmm`: a minute of the day as the guardian writes it. -/
def hhmm (minute : Nat) : String :=
  String.ofList
    (CivilDate.padDigits 2 (minute / 60) ++ ':' :: CivilDate.padDigits 2 (minute % 60))

namespace Times

/-- A maximal run of one runnable label, in minutes of the day. -/
structure DaySpan where
  start : Nat
  stop : Nat
  time : Option String
deriving DecidableEq

/-- The label changes at the minute. -/
def startsAt (wins : List Win) (known : String → Bool) (b : Nat) : Bool :=
  b = 0 || labelAt wins known (b - 1) ≠ labelAt wins known b

/-- `next_window`. -/
def nextWindow (zones : Zones) (sched : GrantSchedule) (known : String → Bool) (now : Int) :
    Option NextWindow :=
  if !sched.isSupportedVersion || sched.paused = some true || isUnbounded sched then none
  else
    match zones sched.tz with
    | none => none
    | some tz =>
      (List.range 2).findSome? fun (dayOffset : Nat) =>
        let probe := tz.localDay now + dayOffset
        let wins := windowsOf sched probe
        (boundaries wins).findSome? fun b =>
          if dayOffset = 0 ∧ b ≤ tz.minuteOfDay now then none
          else
            let label := labelAt wins known b
            if label.runnable && startsAt wins known b then
              let start := tz.localWallTs probe b
              if now < start then some ⟨label.named, start, hhmm b, dayOffset⟩ else none
            else none

/-- A boundary after the spans recorded so far records the span that it starts. -/
def recordSpan (wins : List Win) (known : String → Bool) (spans : List DaySpan) (b : Nat) :
    List DaySpan :=
  if spans.getLast?.any fun s => b < s.stop then spans
  else
    let label := labelAt wins known b
    if !label.runnable then spans
    else spans ++ [⟨b, spanEndMinute wins known b label, label.named⟩]

/-- The runnable spans of a day. -/
def daySpans (wins : List Win) (known : String → Bool) : List DaySpan :=
  (boundaries wins).foldl (recordSpan wins known) []

/-- The time of the span that ended last, or else of the next one. -/
def askTime (spans : List DaySpan) (minute : Nat) : Option String :=
  match maxByKey DaySpan.stop (spans.filter fun s => s.stop ≤ minute) with
  | some s => s.time
  | none => (minByKey DaySpan.start (spans.filter fun s => minute < s.start)).bind DaySpan.time

/-- `default_ask_time`. -/
def defaultAskTime (zones : Zones) (sched : GrantSchedule) (known : String → Bool) (now : Int) :
    Option String :=
  if !sched.isSupportedVersion || sched.paused = some true || isUnbounded sched then none
  else
    match zones sched.tz with
    | none => none
    | some tz =>
      askTime (daySpans (windowsOf sched (tz.localDay now)) known) (tz.minuteOfDay now)

/-! ## The spans of a day -/

/-- A runnable span: a maximal stretch of a day in one thing that can run. -/
structure RunnableSpan (wins : List Win) (known : String → Bool) (s e : Nat) : Prop
    extends StepRuns.Run (labelAt wins known) s e where
  runnable : (labelAt wins known s).runnable = true

variable {sched : GrantSchedule} {wins : List Win} {known : String → Bool} {zones : Zones} {tz : Tz}
  {now : Int} {s e b minute : Nat}

/-- What can run from midnight on has a window that starts there. -/
theorem zero_mem_boundaries (h : (labelAt wins known 0).runnable = true) : 0 ∈ boundaries wins := by
  have hopen : ¬∀ w ∈ wins, w.covers 0 = false :=
    fun hnone => ne_closed_of_runnable h (labelAt_closed_iff.mpr hnone)
  push Not at hopen
  obtain ⟨w, hw, hcovers⟩ := hopen
  rw [Bool.ne_false_iff, Win.covers, Bool.and_eq_true, decide_eq_true_eq] at hcovers
  exact mem_boundaries.mpr ⟨w, hw, Or.inl (by omega)⟩

theorem RunnableSpan.start_mem (h : RunnableSpan wins known s e) : s ∈ boundaries wins := by
  rcases h.starts with rfl | hstarts
  · exact zero_mem_boundaries h.runnable
  · exact (changesAt_boundaries wins known).start_mem hstarts

theorem RunnableSpan.stop_eq (h : RunnableSpan wins known s e) :
    spanEndMinute wins known s (labelAt wins known s) = e := by
  obtain ⟨-, hlt, hends, hconst⟩ := spanEndMinute_spec (ne_closed_of_runnable h.runnable)
  refine (StepRuns.Run.unique (x := s) ⟨hlt, hconst, h.starts, hends⟩ h.toRun le_rfl h.lt le_rfl
    hlt).2

/-- **Where a runnable span starts**: at a boundary at which the label changes. -/
theorem exists_runnableSpan_iff : (∃ e, RunnableSpan wins known b e) ↔
    b ∈ boundaries wins ∧ (labelAt wins known b).runnable = true ∧
      startsAt wins known b = true := by
  rw [startsAt, Bool.or_eq_true, decide_eq_true_eq, decide_eq_true_eq]
  constructor
  · rintro ⟨e, h⟩
    exact ⟨h.start_mem, h.runnable, h.starts⟩
  · rintro ⟨-, hrun, hstarts⟩
    obtain ⟨-, hlt, hends, hconst⟩ := spanEndMinute_spec (ne_closed_of_runnable hrun)
    exact ⟨_, ⟨hlt, hconst, hstarts, hends⟩, hrun⟩

/-- What can run at a minute is in a runnable span. -/
theorem exists_runnableSpan (h : (labelAt wins known minute).runnable = true) :
    ∃ s e, RunnableSpan wins known s e ∧ s ≤ minute ∧ minute < e ∧
      ∀ x, s ≤ x → x ≤ minute → labelAt wins known x = labelAt wins known minute := by
  obtain ⟨s, hs, hstarts, hconst⟩ := StepRuns.exists_start (labelAt wins known) minute
  have hsame := hconst s le_rfl hs
  have hrun : (labelAt wins known s).runnable = true := hsame ▸ h
  obtain ⟨-, hlt, hends, hconst'⟩ := spanEndMinute_spec (ne_closed_of_runnable hrun)
  refine ⟨s, _, ⟨⟨hlt, hconst', hstarts, hends⟩, hrun⟩, hs, ?_, hconst⟩
  by_contra hle
  exact hends ((hconst _ hlt.le (not_lt.mp hle)).trans hsame.symm)

/-- The spans recorded so far, from some boundaries: they are runnable spans, with every boundary at
which something runs, and the last of them ends last. -/
structure Recorded (wins : List Win) (known : String → Bool) (before : List Nat)
    (spans : List DaySpan) : Prop where
  sound : ∀ r ∈ spans, r.start ∈ before ∧ RunnableSpan wins known r.start r.stop ∧
    r.time = (labelAt wins known r.start).named
  covers : ∀ b ∈ before, (labelAt wins known b).runnable = true →
    ∃ r ∈ spans, r.start ≤ b ∧ b < r.stop
  last : ∀ r ∈ spans, ∀ l ∈ spans.getLast?, r.stop ≤ l.stop

/-- A boundary not inside the last span, at which something runs, starts a span. -/
theorem Recorded.runnableSpan {before rest : List Nat} {spans : List DaySpan}
    (h : Recorded wins known before spans) (hlist : boundaries wins = before ++ b :: rest)
    (hpast : ∀ r ∈ spans, r.stop ≤ b) (hrun : (labelAt wins known b).runnable = true) :
    RunnableSpan wins known b (spanEndMinute wins known b (labelAt wins known b)) := by
  obtain ⟨s, e, hspan, hsb, hbe, hconst⟩ := exists_runnableSpan hrun
  rcases hsb.lt_or_eq with hlt | rfl
  · -- the span began at an earlier boundary, and was recorded there
    have hmem := hspan.start_mem
    have hsorted := boundaries_sorted wins
    rw [hlist] at hmem hsorted
    have hbefore : s ∈ before := by
      rcases List.mem_append.mp hmem with hmem | hmem
      · exact hmem
      · have hafter := (List.pairwise_cons.mp (List.pairwise_append.mp hsorted).2.1).1
        rcases List.mem_cons.mp hmem with rfl | hmem
        · exact absurd hlt (lt_irrefl _)
        · have hgt := hafter s hmem
          omega
    obtain ⟨r, hr, hrs, hsr⟩ := h.covers s hbefore hspan.runnable
    have hwhole := (h.sound r hr).2.1
    obtain ⟨-, hstop⟩ := StepRuns.Run.unique hwhole.toRun hspan.toRun le_rfl hspan.lt hrs hsr
    have hle := hpast r hr
    omega
  · rw [hspan.stop_eq]
    exact hspan

/-- **One boundary keeps the record.** -/
theorem Recorded.step {before rest : List Nat} {spans : List DaySpan}
    (h : Recorded wins known before spans) (hlist : boundaries wins = before ++ b :: rest) :
    Recorded wins known (before ++ [b]) (recordSpan wins known spans b) := by
  have hafter : ∀ m ∈ before, m < b := by
    have hsorted := boundaries_sorted wins
    rw [hlist] at hsorted
    exact fun m hm => (List.pairwise_append.mp hsorted).2.2 m hm b List.mem_cons_self
  have hkeep : ∀ spans' : List DaySpan, (∀ r ∈ spans, r ∈ spans') →
      ((labelAt wins known b).runnable = true → ∃ r ∈ spans', r.start ≤ b ∧ b < r.stop) →
      ∀ m ∈ before ++ [b], (labelAt wins known m).runnable = true →
        ∃ r ∈ spans', r.start ≤ m ∧ m < r.stop := by
    intro spans' hsub hb m hm hrun
    rcases List.mem_append.mp hm with hm | hm
    · obtain ⟨r, hr, hwithin⟩ := h.covers m hm hrun
      exact ⟨r, hsub r hr, hwithin⟩
    · rw [List.mem_singleton.mp hm] at hrun ⊢
      exact hb hrun
  have hsound : ∀ r ∈ spans, r.start ∈ before ++ [b] ∧ RunnableSpan wins known r.start r.stop ∧
      r.time = (labelAt wins known r.start).named :=
    fun r hr => ⟨List.mem_append_left _ (h.sound r hr).1, (h.sound r hr).2⟩
  unfold recordSpan
  dsimp only
  split
  · -- inside the last span
    rename_i hinside
    obtain ⟨l, hl, hlt⟩ := (Option.any_eq_true _ _).mp hinside
    have hlmem := List.mem_of_getLast? hl
    refine ⟨hsound, hkeep spans (fun r hr => hr) (fun _ => ⟨l, hlmem, ?_, ?_⟩), h.last⟩
    · exact (hafter _ (h.sound l hlmem).1).le
    · exact of_decide_eq_true hlt
  · rename_i houtside
    have hpast : ∀ r ∈ spans, r.stop ≤ b := by
      intro r hr
      cases hl : spans.getLast? with
      | none =>
        rw [List.getLast?_eq_none_iff.mp hl] at hr
        cases hr
      | some l =>
        have hle := h.last r hr l hl
        rw [hl, Option.any_some, decide_eq_true_eq] at houtside
        omega
    split
    · rename_i hstopped
      refine ⟨hsound, hkeep spans (fun r hr => hr) (fun hrun => ?_), h.last⟩
      rw [hrun] at hstopped
      cases hstopped
    · rename_i hruns
      have hrun : (labelAt wins known b).runnable = true := by simpa using hruns
      have hspan := h.runnableSpan hlist hpast hrun
      refine ⟨?_, hkeep _ (fun r hr => List.mem_append_left _ hr) (fun _ => ?_), ?_⟩
      · intro r hr
        rcases List.mem_append.mp hr with hr | hr
        · exact hsound r hr
        · rw [List.mem_singleton.mp hr]
          exact ⟨List.mem_append_right _ List.mem_cons_self, hspan, rfl⟩
      · exact ⟨_, List.mem_append_right _ List.mem_cons_self, le_rfl, hspan.lt⟩
      · intro r hr l hl
        rw [List.getLast?_append_of_ne_nil _ (List.cons_ne_nil _ _), List.getLast?_singleton,
          Option.mem_some_iff] at hl
        rw [← hl]
        rcases List.mem_append.mp hr with hr | hr
        · exact (hpast r hr).trans hspan.lt.le
        · rw [List.mem_singleton.mp hr]

theorem Recorded.run {rest : List Nat} : ∀ {before : List Nat} {spans : List DaySpan},
    Recorded wins known before spans → boundaries wins = before ++ rest →
      Recorded wins known (boundaries wins) (rest.foldl (recordSpan wins known) spans) := by
  induction rest with
  | nil =>
    intro before spans h hlist
    rw [hlist, List.append_nil]
    exact h
  | cons b rest ih =>
    intro before spans h hlist
    rw [List.foldl_cons]
    exact ih (h.step hlist) (by rw [hlist, List.append_assoc, List.singleton_append])

theorem recorded_daySpans (wins : List Win) (known : String → Bool) :
    Recorded wins known (boundaries wins) (daySpans wins known) := by
  have hnone : Recorded wins known [] [] := ⟨by simp, by simp, by simp⟩
  exact hnone.run rfl

/-- **The spans recorded are the runnable spans of the day**, each with its time. -/
theorem mem_daySpans {r : DaySpan} : r ∈ daySpans wins known ↔
    RunnableSpan wins known r.start r.stop ∧ r.time = (labelAt wins known r.start).named := by
  have h := recorded_daySpans wins known
  constructor
  · exact fun hr => (h.sound r hr).2
  · rintro ⟨hspan, htime⟩
    obtain ⟨r', hr', hlo, hhi⟩ := h.covers r.start hspan.start_mem hspan.runnable
    obtain ⟨-, hspan', htime'⟩ := h.sound r' hr'
    obtain ⟨hstart, hstop⟩ := StepRuns.Run.unique hspan'.toRun hspan.toRun le_rfl hspan.lt hlo hhi
    obtain ⟨start, stop, time⟩ := r
    obtain ⟨start', stop', time'⟩ := r'
    obtain rfl : start' = start := hstart
    obtain rfl : stop' = stop := hstop
    obtain rfl : time' = time := htime'.trans htime.symm
    exact hr'

/-! ## The time to ask for -/

/-- A fold that keeps the better of two keeps the best. -/
theorem foldl_best {α : Type} (le : α → α → Prop) (pick : Option α → α → Option α)
    (hrefl : ∀ a, le a a) (htrans : ∀ a b c, le a b → le b c → le a c)
    (hpick : ∀ b x, ∃ c, pick (some b) x = some c ∧ (c = b ∨ c = x) ∧ le b c ∧ le x c)
    (xs : List α) (b : α) :
    ∃ c, xs.foldl pick (some b) = some c ∧ (c = b ∨ c ∈ xs) ∧ le b c ∧ ∀ y ∈ xs, le y c := by
  induction xs generalizing b with
  | nil => exact ⟨b, rfl, Or.inl rfl, hrefl b, by simp⟩
  | cons x xs ih =>
    obtain ⟨c, hc, hfrom, hb, hx⟩ := hpick b x
    obtain ⟨d, hd, hfrom', hcd, hall⟩ := ih c
    refine ⟨d, by rw [List.foldl_cons, hc, hd], ?_, htrans _ _ _ hb hcd, ?_⟩
    · rcases hfrom' with rfl | hmem
      · rcases hfrom with rfl | rfl
        · exact Or.inl rfl
        · exact Or.inr List.mem_cons_self
      · exact Or.inr (List.mem_cons_of_mem _ hmem)
    · intro y hy
      rcases List.mem_cons.mp hy with rfl | hy
      · exact htrans _ _ _ hx hcd
      · exact hall y hy

/-- The greatest of some, if there are any. -/
theorem maxByKey_spec {α : Type} (key : α → Nat) (xs : List α) :
    maxByKey key xs = none ∧ xs = [] ∨
      ∃ x ∈ xs, maxByKey key xs = some x ∧ ∀ y ∈ xs, key y ≤ key x := by
  cases xs with
  | nil => exact Or.inl ⟨rfl, rfl⟩
  | cons x xs =>
    have hpick : ∀ b x, ∃ c, greater key (some b) x = some c ∧ (c = b ∨ c = x) ∧
        key b ≤ key c ∧ key x ≤ key c := by
      intro b x
      by_cases hle : key b ≤ key x
      · exact ⟨x, if_pos hle, Or.inr rfl, hle, le_rfl⟩
      · exact ⟨b, if_neg hle, Or.inl rfl, le_rfl, (not_le.mp hle).le⟩
    obtain ⟨c, hc, hfrom, hx, hall⟩ := foldl_best (fun a b => key a ≤ key b) (greater key)
      (fun _ => le_rfl) (fun _ _ _ => le_trans) hpick xs x
    refine Or.inr ⟨c, ?_, hc, ?_⟩
    · rcases hfrom with rfl | hmem
      · exact List.mem_cons_self
      · exact List.mem_cons_of_mem _ hmem
    · intro y hy
      rcases List.mem_cons.mp hy with rfl | hy
      · exact hx
      · exact hall y hy

/-- The least of some, if there are any. -/
theorem minByKey_spec {α : Type} (key : α → Nat) (xs : List α) :
    minByKey key xs = none ∧ xs = [] ∨
      ∃ x ∈ xs, minByKey key xs = some x ∧ ∀ y ∈ xs, key x ≤ key y := by
  cases xs with
  | nil => exact Or.inl ⟨rfl, rfl⟩
  | cons x xs =>
    have hpick : ∀ b x, ∃ c, lesser key (some b) x = some c ∧ (c = b ∨ c = x) ∧
        key c ≤ key b ∧ key c ≤ key x := by
      intro b x
      by_cases hlt : key x < key b
      · exact ⟨x, if_pos hlt, Or.inr rfl, hlt.le, le_rfl⟩
      · exact ⟨b, if_neg hlt, Or.inl rfl, le_rfl, not_lt.mp hlt⟩
    obtain ⟨c, hc, hfrom, hx, hall⟩ := foldl_best (fun a b => key b ≤ key a) (lesser key)
      (fun _ => le_rfl) (fun _ _ _ hab hbc => hbc.trans hab) hpick xs x
    refine Or.inr ⟨c, ?_, hc, ?_⟩
    · rcases hfrom with rfl | hmem
      · exact List.mem_cons_self
      · exact List.mem_cons_of_mem _ hmem
    · intro y hy
      rcases List.mem_cons.mp hy with rfl | hy
      · exact hx
      · exact hall y hy

/-- The time of the runnable span that ended last, or else of the one that starts next, or else
none. -/
structure Asks (wins : List Win) (known : String → Bool) (minute : Nat) (answer : Option String) :
    Prop where
  ended : ∀ s e, RunnableSpan wins known s e → e ≤ minute →
    (∀ s' e', RunnableSpan wins known s' e' → e' ≤ minute → e' ≤ e) →
      answer = (labelAt wins known s).named
  next : (∀ s e, RunnableSpan wins known s e → ¬e ≤ minute) →
    ∀ s e, RunnableSpan wins known s e → minute < s →
      (∀ s' e', RunnableSpan wins known s' e' → minute < s' → s ≤ s') →
        answer = (labelAt wins known s).named
  neither : (∀ s e, RunnableSpan wins known s e → ¬e ≤ minute ∧ ¬minute < s) → answer = none

/-- **What to ask for.** -/
theorem asks_askTime (wins : List Win) (known : String → Bool) (minute : Nat) :
    Asks wins known minute (askTime (daySpans wins known) minute) := by
  have hover : ∀ {s e : Nat}, RunnableSpan wins known s e → e ≤ minute →
      (⟨s, e, (labelAt wins known s).named⟩ : DaySpan) ∈
        (daySpans wins known).filter fun s => s.stop ≤ minute :=
    fun hspan hle => List.mem_filter.mpr ⟨mem_daySpans.mpr ⟨hspan, rfl⟩, decide_eq_true hle⟩
  have hlater : ∀ {s e : Nat}, RunnableSpan wins known s e → minute < s →
      (⟨s, e, (labelAt wins known s).named⟩ : DaySpan) ∈
        (daySpans wins known).filter fun s => minute < s.start :=
    fun hspan hlt => List.mem_filter.mpr ⟨mem_daySpans.mpr ⟨hspan, rfl⟩, decide_eq_true hlt⟩
  unfold askTime
  rcases maxByKey_spec DaySpan.stop ((daySpans wins known).filter fun s => s.stop ≤ minute) with
    ⟨hnone, hnil⟩ | ⟨r, hr, hmax, hgreatest⟩
  · have hended : ∀ s e, RunnableSpan wins known s e → ¬e ≤ minute := by
      intro s e hspan hle
      have hmem := hover hspan hle
      rw [hnil] at hmem
      cases hmem
    rw [hnone]
    dsimp only
    rcases minByKey_spec DaySpan.start ((daySpans wins known).filter fun s => minute < s.start)
      with ⟨hnone', hnil'⟩ | ⟨r, hr, hmin, hleast⟩
    · rw [hnone']
      refine ⟨fun s e hspan hle _ => absurd hle (hended s e hspan), ?_, fun _ => rfl⟩
      intro _ s e hspan hlt _
      have hmem := hlater hspan hlt
      rw [hnil'] at hmem
      cases hmem
    · obtain ⟨hmem, hahead⟩ := List.mem_filter.mp hr
      obtain ⟨hspan', htime⟩ := mem_daySpans.mp hmem
      have hahead := of_decide_eq_true hahead
      rw [hmin, Option.bind_some, htime]
      refine ⟨fun s e hspan hle _ => absurd hle (hended s e hspan), ?_, ?_⟩
      · intro _ s e hspan hlt hfirst
        have hle := hleast _ (hlater hspan hlt)
        have hle' := hfirst _ _ hspan' hahead
        rw [le_antisymm hle hle']
      · intro hno
        exact absurd hahead (hno _ _ hspan').2
  · obtain ⟨hmem, hle⟩ := List.mem_filter.mp hr
    obtain ⟨hspan', htime⟩ := mem_daySpans.mp hmem
    have hle := of_decide_eq_true hle
    rw [hmax]
    dsimp only
    rw [htime]
    refine ⟨?_, fun hno => absurd hle (hno _ _ hspan'), fun hno => absurd hle (hno _ _ hspan').1⟩
    intro s e hspan hend hlast
    have hge := hgreatest _ (hover hspan hend)
    have hstop : r.stop = e := le_antisymm (hlast _ _ hspan' hle) hge
    -- two runs that end together are one
    have hlt := hspan.lt
    have hlt' := hspan'.lt
    rw [(StepRuns.Run.unique (x := e - 1) hspan'.toRun hspan.toRun (by omega) (by omega) (by omega)
      (by omega)).1]

/-! ## The look ahead -/

/-- A runnable span starts at a minute of today past the current one, or of tomorrow. -/
structure StartAhead (sched : GrantSchedule) (known : String → Bool) (tz : Tz) (now day : Int)
    (b : Nat) : Prop where
  starts : ∃ e, RunnableSpan (windowsOf sched day) known b e
  later : day = tz.localDay now ∧ tz.minuteOfDay now < b ∨ day = tz.localDay now + 1

/-- And none starts before it. -/
structure FirstAhead (sched : GrantSchedule) (known : String → Bool) (tz : Tz) (now day : Int)
    (b : Nat) : Prop extends StartAhead sched known tz now day b where
  first : ∀ day' b', StartAhead sched known tz now day' b' → wallOf day b ≤ wallOf day' b'

/-- The boundaries of a day that are ahead and at which a runnable span starts. -/
def aheadMarks (sched : GrantSchedule) (known : String → Bool) (tz : Tz) (now day : Int) :
    List Nat :=
  (boundaries (windowsOf sched day)).filter fun b =>
    !(decide (day = tz.localDay now) && decide (b ≤ tz.minuteOfDay now)) &&
      ((labelAt (windowsOf sched day) known b).runnable &&
        startsAt (windowsOf sched day) known b)

/-- The window shown for a start. -/
def windowStarting (sched : GrantSchedule) (known : String → Bool) (tz : Tz) (now day : Int)
    (b : Nat) : NextWindow where
  time := (labelAt (windowsOf sched day) known b).named
  start := tz.localWallTs day b
  startHhmm := hhmm b
  dayOffset := (day - tz.localDay now).toNat

variable {day : Int}

theorem StartAhead.lt (h : StartAhead sched known tz now day b) : b < 1440 := by
  obtain ⟨e, hspan⟩ := h.starts
  exact boundaries_lt hspan.start_mem

theorem aheadMarks_sorted (day : Int) :
    (aheadMarks sched known tz now day).Pairwise (· ≤ ·) :=
  ((boundaries_sorted _).filter _).imp le_of_lt

theorem aheadMarks_lt (h : b ∈ aheadMarks sched known tz now day) : b < 1440 :=
  boundaries_lt (List.mem_of_mem_filter h)

/-- The walk of two days comes to the starts ahead whose instant is still to come. -/
theorem coming_aheadMarks_iff : tz.Coming now 2 (aheadMarks sched known tz now) day b ↔
    StartAhead sched known tz now day b ∧ now < tz.localWallTs day b := by
  constructor
  · intro h
    obtain ⟨hmem, hahead⟩ := List.mem_filter.mp h.mark
    rw [Bool.and_eq_true, Bool.and_eq_true, Bool.not_eq_true', Bool.and_eq_false_iff,
      decide_eq_false_iff_not, decide_eq_false_iff_not] at hahead
    obtain ⟨hlater, hrun, hstarts⟩ := hahead
    have hlo := h.fromToday
    have hhi := h.within
    exact ⟨⟨exists_runnableSpan_iff.mpr ⟨hmem, hrun, hstarts⟩, by omega⟩, h.coming⟩
  · rintro ⟨⟨hstarts, hlater⟩, hcoming⟩
    obtain ⟨hmem, hrun, hchanges⟩ := exists_runnableSpan_iff.mp hstarts
    refine ⟨List.mem_filter.mpr ⟨hmem, ?_⟩, by omega, by omega, hcoming⟩
    rw [hrun, hchanges, Bool.and_true, Bool.and_true, Bool.not_eq_true', Bool.and_eq_false_iff,
      decide_eq_false_iff_not, decide_eq_false_iff_not]
    omega

/-- `next_window` is the walk. -/
theorem nextWindow_of_decides (h : sched.Decides zones tz) :
    nextWindow zones sched known now = (tz.scan now 2 (aheadMarks sched known tz now)).map
      fun p => windowStarting sched known tz now p.1 p.2 := by
  have hbounded : isUnbounded sched = false := h.bounded
  have hread : (!sched.isSupportedVersion || decide (sched.paused = some true) ||
      isUnbounded sched) = false := by
    rw [h.supported, hbounded, decide_eq_false h.running]
    rfl
  unfold nextWindow scan
  rw [hread, if_neg Bool.false_ne_true, h.zone, List.map_findSome?]
  dsimp only
  congr 1
  funext offset
  dsimp only [Function.comp_apply]
  rw [Option.map_map, comingOn, aheadMarks, List.find?_filter, ← findSome?_if]
  congr 1
  funext b
  have hday : (tz.localDay now + (offset : Int) = tz.localDay now) ↔ offset = 0 := by omega
  have hoffset : (tz.localDay now + (offset : Int) - tz.localDay now).toNat = offset := by omega
  simp only [Function.comp_apply, windowStarting, hoffset, hday]
  by_cases hpast : offset = 0 ∧ b ≤ tz.minuteOfDay now
  · simp [hpast.1, hpast.2]
  · rw [if_neg hpast, ← Bool.decide_and, decide_eq_false hpast]
    cases (labelAt (windowsOf sched (tz.localDay now + offset)) known b).runnable &&
      startsAt (windowsOf sched (tz.localDay now + offset)) known b <;> simp

/-- A schedule that is not read by its windows shows none. -/
theorem nextWindow_of_not_decides (h : ∀ tz, ¬sched.Decides zones tz) :
    nextWindow zones sched known now = none := by
  unfold nextWindow
  split
  · rfl
  · rename_i hread
    rw [Bool.or_eq_true, Bool.or_eq_true, not_or, not_or, Bool.not_eq_true', Bool.not_eq_false,
      decide_eq_true_eq, Bool.not_eq_true] at hread
    cases hzone : zones sched.tz with
    | none => rfl
    | some tz => exact absurd ⟨hread.1.1, hread.1.2, hzone, hread.2⟩ (h tz)

/-- Of the starts ahead one is the first. -/
theorem exists_firstAhead (h : StartAhead sched known tz now day b) :
    ∃ day b, FirstAhead sched known tz now day b := by
  obtain ⟨x, ⟨day', b', hstart, rfl⟩, hleast⟩ := Int.exists_least_of_bdd
    (P := fun x => ∃ day b, StartAhead sched known tz now day b ∧ x = wallOf day b)
    ⟨tz.localDay now * 86400, by
      rintro x ⟨day, b, hstart, rfl⟩
      have hlater := hstart.later
      unfold wallOf
      omega⟩ ⟨_, day, b, h, rfl⟩
  exact ⟨day', b', hstart, fun day b hother => hleast _ ⟨day, b, hother, rfl⟩⟩

theorem FirstAhead.unique {day' : Int} {b' : Nat} (h : FirstAhead sched known tz now day b)
    (h' : FirstAhead sched known tz now day' b') : day = day' ∧ b = b' :=
  wallOf_inj h.lt h'.lt
    (le_antisymm (h.first _ _ h'.toStartAhead) (h'.first _ _ h.toStartAhead))

/-- What is shown is a start ahead whose instant is still to come. -/
theorem nextWindow_eq_some (hd : sched.Decides zones tz) {w : NextWindow}
    (h : nextWindow zones sched known now = some w) :
    ∃ day b, StartAhead sched known tz now day b ∧ now < tz.localWallTs day b ∧
      w = windowStarting sched known tz now day b := by
  rw [nextWindow_of_decides hd] at h
  obtain ⟨found, hscan, rfl⟩ := Option.map_eq_some_iff.mp h
  have hfirst := firstComing_of_scan aheadMarks_sorted (fun _ _ => aheadMarks_lt) hscan
  obtain ⟨hstart, hcoming⟩ := coming_aheadMarks_iff.mp hfirst.toComing
  exact ⟨_, _, hstart, hcoming, rfl⟩

/-- The first start ahead is shown, if its instant is still to come. -/
theorem FirstAhead.shown (h : FirstAhead sched known tz now day b) (hd : sched.Decides zones tz)
    (hcoming : now < tz.localWallTs day b) :
    nextWindow zones sched known now = some (windowStarting sched known tz now day b) := by
  have hfirst : tz.FirstComing now 2 (aheadMarks sched known tz now) day b :=
    ⟨coming_aheadMarks_iff.mpr ⟨h.toStartAhead, hcoming⟩,
      fun _ _ hother => h.first _ _ (coming_aheadMarks_iff.mp hother).1⟩
  rw [nextWindow_of_decides hd,
    scan_of_firstComing aheadMarks_sorted (fun _ _ => aheadMarks_lt) hfirst]
  rfl

/-- **While it is locked** the first minute still to come at which something runs is the first start
ahead, unless it is one that the wall has passed. -/
theorem FirstAhead.first_runnable (h : FirstAhead sched known tz now day b)
    (hcoming : now < tz.localWallTs day b)
    (hlocked : (labelOn sched known (tz.wall now)).runnable = false) {day' : Int} {m : Nat}
    (hfirst : tz.FirstComing now 8 (runnableMarks sched known) day' m) :
    day' = day ∧ m = b ∨ day' = tz.localDay now ∧ m ≤ tz.minuteOfDay now := by
  obtain ⟨e, hspan⟩ := h.starts
  have hlater := h.later
  have hcoming' : tz.Coming now 8 (runnableMarks sched known) day b :=
    ⟨List.mem_filter.mpr ⟨hspan.start_mem, hspan.runnable⟩, by omega, by omega, hcoming⟩
  have hle := hfirst.first _ _ hcoming'
  have hm := runnableMarks_lt hfirst.mark
  have hb := h.lt
  have hfrom := hfirst.fromToday
  have hday : day' ≤ day := by
    unfold wallOf at hle
    omega
  -- what runs at that minute has started at or before it
  have hrun := (List.mem_filter.mp hfirst.mark).2
  obtain ⟨s, e', hspan', hs, -, hconst⟩ := exists_runnableSpan hrun
  by_cases hpast : day' = tz.localDay now ∧ m ≤ tz.minuteOfDay now
  · exact Or.inr hpast
  · left
    have hstart : StartAhead sched known tz now day' s := by
      refine ⟨⟨e', hspan'⟩, ?_⟩
      rcases hfrom.lt_or_eq with hlt | heq
      · omega
      · refine Or.inl ⟨heq.symm, ?_⟩
        by_contra hbefore
        have hsame := hconst (tz.minuteOfDay now) (not_lt.mp hbefore) (by omega)
        have hnow : labelAt (windowsOf sched day') known (tz.minuteOfDay now) =
            labelOn sched known (tz.wall now) := by
          rw [← heq]
          rfl
        rw [← hsame, hnow, hlocked] at hrun
        cases hrun
    have hle' := h.first _ _ hstart
    refine wallOf_inj hm hb (le_antisymm hle (hle'.trans ?_))
    unfold wallOf
    omega

/-- What the look ahead relies on: the first start ahead has its instant still to come, and while it
is locked no minute that the wall has passed comes before it. -/
structure ShownAhead (sched : GrantSchedule) (known : String → Bool) (tz : Tz) (now : Int) :
    Prop where
  ahead : ∀ day b, FirstAhead sched known tz now day b → now < tz.localWallTs day b
  past : (labelOn sched known (tz.wall now)).runnable = false →
    ∀ day b m, FirstAhead sched known tz now day b →
      tz.FirstComing now 8 (runnableMarks sched known) (tz.localDay now) m →
        m ≤ tz.minuteOfDay now →
          tz.localWallTs (tz.localDay now) m = tz.localWallTs day b

/-- **The look ahead and what to ask for**, at an instant. -/
structure LooksAhead (zones : Zones) (sched : GrantSchedule) (known : String → Bool) (now : Int) :
    Prop where
  returns : (nextWindow zones sched known now).isSome = true ↔
    ∃ tz day b, sched.Decides zones tz ∧ StartAhead sched known tz now day b
  earliest : ∀ w, nextWindow zones sched known now = some w →
    ∃ tz day b, sched.Decides zones tz ∧ FirstAhead sched known tz now day b ∧
      w = windowStarting sched known tz now day b
  distance : ∀ w cause secs, nextWindow zones sched known now = some w →
    evaluateTimes zones sched known now = .locked cause secs →
      secs = some (w.start - now).toNat
  asks : ∀ tz, sched.Decides zones tz →
    Asks (windowsOf sched (tz.localDay now)) known (tz.minuteOfDay now)
      (defaultAskTime zones sched known now)

/-- The seconds of the evaluator run to the first start ahead. -/
theorem ShownAhead.nextOpenSecs_eq (hshown : ShownAhead sched known tz now)
    (h : FirstAhead sched known tz now day b)
    (hlocked : (labelOn sched known (tz.wall now)).runnable = false) :
    nextOpenSecs sched known tz now = some (tz.localWallTs day b - now).toNat := by
  have hcoming := hshown.ahead day b h
  obtain ⟨e, hspan⟩ := h.starts
  have hlater := h.later
  have hcoming' : tz.Coming now 8 (runnableMarks sched known) day b :=
    ⟨List.mem_filter.mpr ⟨hspan.start_mem, hspan.runnable⟩, by omega, by omega, hcoming⟩
  rw [Times.nextOpenSecs_eq]
  cases hscan : tz.scan now 8 (runnableMarks sched known) with
  | none => exact absurd hcoming' (scan_eq_none_iff.mp hscan day b)
  | some found =>
    obtain ⟨day', m⟩ := found
    have hfirst := firstComing_of_scan runnableMarks_sorted (fun _ _ => runnableMarks_lt) hscan
    rw [Option.map_some]
    dsimp only
    rcases h.first_runnable hcoming hlocked hfirst with ⟨rfl, rfl⟩ | ⟨rfl, hpast⟩
    · rfl
    · rw [hshown.past hlocked _ _ _ h hfirst hpast]

/-- What to ask for, of a schedule that is read by its windows. -/
theorem asks_defaultAskTime (hd : sched.Decides zones tz) :
    Asks (windowsOf sched (tz.localDay now)) known (tz.minuteOfDay now)
      (defaultAskTime zones sched known now) := by
  have hbounded : isUnbounded sched = false := hd.bounded
  have hread : (!sched.isSupportedVersion || decide (sched.paused = some true) ||
      isUnbounded sched) = false := by
    rw [hd.supported, hbounded, decide_eq_false hd.running]
    rfl
  unfold defaultAskTime
  rw [hread, if_neg Bool.false_ne_true, hd.zone]
  exact asks_askTime _ _ _

theorem looksAhead_of_shownAhead (hd : sched.Decides zones tz)
    (hshown : ShownAhead sched known tz now) : LooksAhead zones sched known now := by
  have hfound : ∀ w, nextWindow zones sched known now = some w →
      ∃ day b, FirstAhead sched known tz now day b ∧
        w = windowStarting sched known tz now day b := by
    intro w hw
    obtain ⟨day, b, hstart, -, -⟩ := nextWindow_eq_some hd hw
    obtain ⟨day', b', hfirst⟩ := exists_firstAhead hstart
    rw [hfirst.shown hd (hshown.ahead _ _ hfirst), Option.some_inj] at hw
    exact ⟨day', b', hfirst, hw.symm⟩
  have hzone : ∀ tz', sched.Decides zones tz' → tz' = tz :=
    fun tz' h => Option.some_inj.mp (h.zone.symm.trans hd.zone)
  refine ⟨⟨?_, ?_⟩, ?_, ?_, ?_⟩
  · intro hsome
    obtain ⟨w, hw⟩ := Option.isSome_iff_exists.mp hsome
    obtain ⟨day, b, hfirst, -⟩ := hfound w hw
    exact ⟨tz, day, b, hd, hfirst.toStartAhead⟩
  · rintro ⟨tz', day, b, hd', hstart⟩
    rw [hzone tz' hd'] at hstart
    obtain ⟨day', b', hfirst⟩ := exists_firstAhead hstart
    rw [hfirst.shown hd (hshown.ahead _ _ hfirst)]
    rfl
  · intro w hw
    obtain ⟨day, b, hfirst, hwindow⟩ := hfound w hw
    exact ⟨tz, day, b, hd, hfirst, hwindow⟩
  · intro w cause secs hw heval
    obtain ⟨day, b, hfirst, rfl⟩ := hfound w hw
    cases hrun : (labelOn sched known (tz.wall now)).runnable with
    | true =>
      rw [evaluateTimes_of_runnable hd hrun] at heval
      cases heval
    | false =>
      obtain ⟨cause', hlocked⟩ := evaluateTimes_of_not_runnable hd hrun
      rw [hlocked, hshown.nextOpenSecs_eq hfirst hrun] at heval
      cases heval
      rfl
  · intro tz' hd'
    exact asks_defaultAskTime hd'

theorem shownAhead_of_looksAhead (hd : sched.Decides zones tz)
    (h : LooksAhead zones sched known now) : ShownAhead sched known tz now := by
  have hshown : ∀ day b, FirstAhead sched known tz now day b →
      now < tz.localWallTs day b ∧
        nextWindow zones sched known now = some (windowStarting sched known tz now day b) := by
    intro day b hfirst
    obtain ⟨w, hw⟩ := Option.isSome_iff_exists.mp
      (h.returns.mpr ⟨tz, day, b, hd, hfirst.toStartAhead⟩)
    obtain ⟨tz', day', b', hd', hfirst', hwindow⟩ := h.earliest w hw
    obtain rfl := Option.some_inj.mp (hd.zone.symm.trans hd'.zone)
    obtain ⟨rfl, rfl⟩ := hfirst.unique hfirst'
    obtain ⟨day'', b'', -, hcoming, hwindow'⟩ := nextWindow_eq_some hd hw
    have hstart := congrArg NextWindow.start (hwindow.symm.trans hwindow')
    dsimp only [windowStarting] at hstart
    exact ⟨hstart ▸ hcoming, hwindow ▸ hw⟩
  refine ⟨fun day b hfirst => (hshown day b hfirst).1, ?_⟩
  intro hlocked day b m hfirst hcoming _
  obtain ⟨hahead, hwindow⟩ := hshown day b hfirst
  obtain ⟨cause, heval⟩ := evaluateTimes_of_not_runnable hd hlocked
  have hsecs := h.distance _ _ _ hwindow heval
  rw [Times.nextOpenSecs_eq,
    scan_of_firstComing runnableMarks_sorted (fun _ _ => runnableMarks_lt) hcoming,
    Option.map_some, Option.some_inj] at hsecs
  have hafter := hcoming.coming
  dsimp only [windowStarting] at hsecs
  omega

/-- **Where the look ahead is right**: exactly where the first start ahead on the wall, if there is
one, has its instant still to come, and while it is locked nothing that the wall has passed has. -/
theorem looksAhead_iff (zones : Zones) (sched : GrantSchedule) (known : String → Bool) (now : Int) :
    LooksAhead zones sched known now ↔
      ∀ tz, sched.Decides zones tz → ShownAhead sched known tz now := by
  constructor
  · exact fun h tz hd => shownAhead_of_looksAhead hd h
  · intro h
    by_cases hd : ∃ tz, sched.Decides zones tz
    · obtain ⟨tz, hd⟩ := hd
      exact looksAhead_of_shownAhead hd (h tz hd)
    · have hnone : nextWindow zones sched known now = none :=
        nextWindow_of_not_decides (not_exists.mp hd)
      refine ⟨?_, ?_, ?_, fun tz hd' => absurd ⟨tz, hd'⟩ hd⟩
      · rw [hnone]
        refine iff_of_false (by simp) ?_
        rintro ⟨tz, -, -, hd', -⟩
        exact hd ⟨tz, hd'⟩
      · simp [hnone]
      · simp [hnone]

/-- **Not in every night.**  The second time the wall shows ten past one the start at half past is
ahead, and nothing is shown. -/
theorem not_looksAhead_backAnHour : ¬LooksAhead (fun _ => some GrantSchedule.backAnHour)
    GrantSchedule.sundayNight (fun _ => false) 1792890600 := by
  intro h
  have hd : GrantSchedule.sundayNight.Decides (fun _ => some GrantSchedule.backAnHour)
      GrantSchedule.backAnHour := ⟨by decide, by decide, rfl, by decide⟩
  have hstart : StartAhead GrantSchedule.sundayNight (fun _ => false) GrantSchedule.backAnHour
      1792890600 20751 90 :=
    ⟨exists_runnableSpan_iff.mpr (by decide +kernel), by decide +kernel⟩
  have hsome := h.returns.mpr ⟨_, _, _, hd, hstart⟩
  have hnone : nextWindow (fun _ => some GrantSchedule.backAnHour) GrantSchedule.sundayNight
      (fun _ => false) 1792890600 = none := by decide +kernel
  rw [hnone] at hsome
  cases hsome

end Times
end Kintrinsic
