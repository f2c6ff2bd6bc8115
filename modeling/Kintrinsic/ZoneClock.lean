import Kintrinsic.LocalTime
import Kintrinsic.RunningClock

/-! # The wall clock of a zone

A zone's clock runs, and is set at the zone's transitions.  In a zone whose transitions are in
order `from_local_datetime` finds every instant that shows a wall time, the earliest first. -/
namespace Kintrinsic
namespace Tz

open RunningClock

/-- The clock is set at an instant. -/
def SetAt (tz : Tz) (t : Int) : Prop := t ∈ tz.transitions.map Prod.fst

/-- The zone database gives the offset in force: its transitions are in order. -/
def Ordered (tz : Tz) : Prop := tz.transitions.Pairwise fun a b => a.1 < b.1

instance (tz : Tz) (t : Int) : Decidable (tz.SetAt t) := inferInstanceAs (Decidable (_ ∈ _))

instance (tz : Tz) : Decidable tz.Ordered := inferInstanceAs (Decidable (List.Pairwise _ _))

variable {tz : Tz}

/-- **A zone's clock runs.** -/
theorem runs (tz : Tz) : Runs tz.wall tz.SetAt := by
  intro t hset
  have hfilter : tz.transitions.filter (fun x => x.1 ≤ t) =
      tz.transitions.filter (fun x => x.1 ≤ t - 1) := by
    refine List.filter_congr ?_
    intro x hx
    have hne : x.1 ≠ t := fun heq => hset (heq ▸ List.mem_map_of_mem hx)
    exact decide_eq_decide.mpr (by omega)
  rw [wall, wall, offsetAt, offsetAt, hfilter]
  omega

/-- The offset that a part of the table gives. -/
def offsetFrom (offset : Int) (ts : List (Int × Int)) (t : Int) : Int :=
  ((ts.filter (fun x => x.1 ≤ t)).getLast?.map Prod.snd).getD offset

theorem offsetFrom_cons (offset : Int) (x : Int × Int) {ts : List (Int × Int)} (t : Int)
    (hx : ∀ y ∈ ts, x.1 < y.1) :
    offsetFrom offset (x :: ts) t = if x.1 ≤ t then offsetFrom x.2 ts t else offset := by
  unfold offsetFrom
  by_cases hle : x.1 ≤ t
  · rw [if_pos hle, List.filter_cons_of_pos (by simpa using hle), List.getLast?_cons]
    cases (ts.filter fun x => decide (x.1 ≤ t)).getLast? <;> rfl
  · have hnil : ts.filter (fun x => x.1 ≤ t) = [] := by
      rw [List.filter_eq_nil_iff]
      intro y hy
      have hlt := hx y hy
      rw [decide_eq_true_eq]
      omega
    rw [if_neg hle, List.filter_cons_of_neg (by simpa using hle), hnil]
    rfl

theorem instantOf_eq_some {s : Span} {local_ t : Int} :
    s.instantOf local_ = some t ↔
      s.start.all (· ≤ t) = true ∧ s.stop.all (t < ·) = true ∧ t + s.offset = local_ := by
  unfold Span.instantOf
  dsimp only
  constructor
  · intro h
    split at h
    · rename_i hbounds
      rw [Bool.and_eq_true] at hbounds
      cases h
      exact ⟨hbounds.1, hbounds.2, by omega⟩
    · cases h
  · rintro ⟨hstart, hstop, rfl⟩
    rw [add_sub_cancel_right, hstart, hstop]
    rfl

/-- The stretches of a table find the instants that the table puts at a wall time, in order. -/
theorem instants_spansFrom {start : Option Int} {offset : Int} {ts : List (Int × Int)}
    (hts : ts.Pairwise fun a b => a.1 < b.1) (hstart : ∀ x ∈ ts, start.all (· ≤ x.1) = true)
    (local_ : Int) :
    (∀ t, t ∈ (spansFrom start offset ts).filterMap (·.instantOf local_) ↔
      start.all (· ≤ t) = true ∧ t + offsetFrom offset ts t = local_) ∧
    ((spansFrom start offset ts).filterMap (·.instantOf local_)).Pairwise (· < ·) := by
  induction ts generalizing start offset with
  | nil =>
    refine ⟨fun t => ?_, ?_⟩
    · simp only [spansFrom, List.mem_filterMap, List.mem_singleton, exists_eq_left,
        instantOf_eq_some, offsetFrom, List.filter_nil, List.getLast?_nil, Option.map_none,
        Option.getD_none, Option.all_none, true_and]
    · cases h : (⟨start, none, offset⟩ : Span).instantOf local_ <;>
        simp [spansFrom, h]
  | cons x ts ih =>
    obtain ⟨hx, hts⟩ := List.pairwise_cons.mp hts
    have hlater : ∀ y ∈ ts, (some x.1).all (· ≤ y.1) = true :=
      fun y hy => decide_eq_true (hx y hy).le
    obtain ⟨hmem, hsorted⟩ := @ih _ x.2 hts hlater
    have hmem' : ∀ t, t ∈ (spansFrom (some x.1) x.2 ts).filterMap (·.instantOf local_) →
        x.1 ≤ t := by
      intro t ht
      simpa using ((hmem t).mp ht).1
    have hspans : spansFrom start offset (x :: ts) =
        ⟨start, some x.1, offset⟩ :: spansFrom (some x.1) x.2 ts := rfl
    have hstartx := hstart x List.mem_cons_self
    rw [hspans]
    refine ⟨fun t => ?_, ?_⟩
    · rw [offsetFrom_cons _ _ _ hx, List.filterMap_cons]
      by_cases hle : x.1 ≤ t
      · -- past the transition only the later stretches can show it
        have hall : start.all (· ≤ t) = true := by
          cases start with
          | none => rfl
          | some s =>
            rw [Option.all_some, decide_eq_true_eq] at hstartx ⊢
            exact hstartx.trans hle
        have hnot : (⟨start, some x.1, offset⟩ : Span).instantOf local_ ≠ some t := by
          intro h
          have hstop := (instantOf_eq_some.mp h).2.1
          rw [Option.all_some, decide_eq_true_eq] at hstop
          omega
        rw [if_pos hle]
        have htail := hmem t
        rw [Option.all_some, decide_eq_true_eq] at htail
        split
        · rw [htail]
          exact ⟨fun h => ⟨hall, h.2⟩, fun h => ⟨hle, h.2⟩⟩
        · rename_i u hu
          rw [List.mem_cons, htail]
          constructor
          · rintro (rfl | h)
            · exact absurd hu hnot
            · exact ⟨hall, h.2⟩
          · exact fun h => Or.inr ⟨hle, h.2⟩
      · have htail : t ∉ (spansFrom (some x.1) x.2 ts).filterMap (·.instantOf local_) :=
          fun ht => hle (hmem' t ht)
        have hhead : (⟨start, some x.1, offset⟩ : Span).instantOf local_ = some t ↔
            start.all (· ≤ t) = true ∧ t + offset = local_ := by
          rw [instantOf_eq_some]
          dsimp only
          rw [Option.all_some, decide_eq_true_eq]
          exact ⟨fun h => ⟨h.1, h.2.2⟩, fun h => ⟨h.1, by omega, h.2⟩⟩
        rw [if_neg hle, ← hhead]
        split
        · rename_i hnone
          rw [hnone]
          exact iff_of_false htail (by simp)
        · rename_i u hu
          rw [List.mem_cons, hu, Option.some_inj]
          exact ⟨fun h => (h.resolve_right htail).symm, fun h => Or.inl h.symm⟩
    · rw [List.filterMap_cons]
      split
      · exact hsorted
      · rename_i u hu
        have hstop := (instantOf_eq_some.mp hu).2.1
        rw [Option.all_some, decide_eq_true_eq] at hstop
        exact List.pairwise_cons.mpr ⟨fun t ht => lt_of_lt_of_le hstop (hmem' t ht), hsorted⟩

/-- The earliest answer is the first of the instants. -/
theorem earliest_eq_head (tz : Tz) (local_ : Int) :
    (tz.fromLocal local_).earliest = (tz.spans.filterMap (·.instantOf local_)).head? := by
  unfold fromLocal
  split
  · rename_i h
    rw [h]
    rfl
  · rename_i t h
    rw [h]
    rfl
  · rename_i t t' rest h
    rw [h]
    rfl

/-- **Which instants a wall time has.** -/
theorem mem_instants (h : tz.Ordered) (local_ t : Int) :
    t ∈ tz.spans.filterMap (·.instantOf local_) ↔ tz.wall t = local_ := by
  rw [spans, (instants_spansFrom h (fun _ _ => rfl) local_).1 t, wall, offsetAt, offsetFrom]
  exact and_iff_right rfl

/-- The earliest instant of a wall time, of those it has. -/
theorem earliest_eq_some_iff (h : tz.Ordered) {local_ t : Int} :
    (tz.fromLocal local_).earliest = some t ↔
      tz.wall t = local_ ∧ ∀ u, tz.wall u = local_ → t ≤ u := by
  have hmem := mem_instants h local_
  have hsorted := (@instants_spansFrom none tz.initial _ h (fun _ _ => rfl) local_).2
  rw [earliest_eq_head]
  unfold spans at hmem ⊢
  constructor
  · intro hhead
    obtain ⟨rest, hrest⟩ := List.head?_eq_some_iff.mp hhead
    rw [hrest] at hmem hsorted
    refine ⟨(hmem t).mp List.mem_cons_self, ?_⟩
    intro u hu
    rcases List.mem_cons.mp ((hmem u).mpr hu) with rfl | hu'
    · exact le_rfl
    · exact ((List.pairwise_cons.mp hsorted).1 u hu').le
  · rintro ⟨hwall, hleast⟩
    have ht := (hmem t).mpr hwall
    cases hlist : (spansFrom none tz.initial tz.transitions).filterMap (·.instantOf local_) with
    | nil => rw [hlist] at ht; cases ht
    | cons u rest =>
      rw [hlist] at ht hmem hsorted
      rw [List.head?_cons]
      have hu := hleast u ((hmem u).mp List.mem_cons_self)
      rcases List.mem_cons.mp ht with rfl | ht'
      · rfl
      · have hlt := (List.pairwise_cons.mp hsorted).1 t ht'
        omega

/-- Seconds of a wall time from a day and a minute of it. -/
def wallOf (day : Int) (minute : Nat) : Int := day * 86400 + minute * 60

/-- **A wall time that is shown has its first instant**: `local_wall_ts` answers it. -/
theorem localWallTs_of_shown (h : tz.Ordered) {day : Int} {minute : Nat} {t : Int}
    (hshown : tz.wall t = wallOf day minute) :
    tz.wall (tz.localWallTs day minute) = wallOf day minute ∧
      ∀ u, tz.wall u = wallOf day minute → tz.localWallTs day minute ≤ u := by
  have hne : (tz.fromLocal (wallOf day minute)).earliest ≠ none := by
    intro hnone
    rw [earliest_eq_head, List.head?_eq_none_iff] at hnone
    have hmem := (mem_instants h _ t).mpr hshown
    rw [hnone] at hmem
    cases hmem
  obtain ⟨first, hfirst⟩ := Option.ne_none_iff_exists'.mp hne
  have hts : tz.localWallTs day minute = first := by
    unfold localWallTs
    unfold wallOf at hfirst
    dsimp only
    rw [hfirst]
  rw [hts]
  exact (earliest_eq_some_iff h).mp hfirst

end Tz
end Kintrinsic
