import Kintrinsic.MinuteCodec

/-! # What marking marks

A span marks by the wall clock: the minutes of the seconds, counted back from now's second of
the day, that are not before midnight.  These are the active seconds of the local day as long as
the offset of the zone stays what it is at the end of the span. -/
namespace Kintrinsic
namespace MinuteSet

/-- Time at the glass: `elapsed` seconds that end at `now`. -/
structure ActiveSpan where
  now : Int
  elapsed : Nat
deriving DecidableEq

/-- The seconds of a span. -/
def ActiveSpan.Active (sp : ActiveSpan) (u : Int) : Prop := sp.now - sp.elapsed ≤ u ∧ u < sp.now

/-- `mark_span` for each of some spans. -/
def markSpans (tz : Tz) (s : MinuteSet) (spans : List ActiveSpan) : MinuteSet :=
  spans.foldl (fun s sp => s.markSpan tz sp.now sp.elapsed) s

/-- The active seconds of now's local day are those since the wall clock's midnight, all under
the offset of now: no change of the offset falls among them. -/
def SteadyClock (tz : Tz) (sp : ActiveSpan) : Prop :=
  ∀ u, sp.Active u →
    (sp.now - tz.secondOfDay sp.now ≤ u ↔ tz.localDay u = tz.localDay sp.now) ∧
      (tz.localDay u = tz.localDay sp.now → tz.offsetAt u = tz.offsetAt sp.now)

variable {tz : Tz} {s t : MinuteSet}

theorem mem_setLocalMinute {minute : Nat} (h : minute < 1440) (i : Fin 1440) :
    i ∈ (s.setLocalMinute minute).bits ↔ i ∈ s.bits ∨ i.val = minute := by
  unfold setLocalMinute set minutes
  rw [if_neg (by omega), dif_pos h, Finset.mem_insert, or_comm, Fin.ext_iff]

theorem mem_foldl_setLocalMinute {l : List Nat} (h : ∀ m ∈ l, m < 1440) (i : Fin 1440) :
    i ∈ (l.foldl setLocalMinute s).bits ↔ i ∈ s.bits ∨ i.val ∈ l := by
  induction l generalizing s with
  | nil => simp
  | cons m l ih =>
    rw [List.foldl_cons, ih fun m hm => h m (List.mem_cons_of_mem _ hm),
      mem_setLocalMinute (h m List.mem_cons_self), List.mem_cons, or_assoc]

theorem secondOfDay_lt (tz : Tz) (now : Int) : tz.secondOfDay now < 86400 := by
  unfold Tz.secondOfDay
  omega

/-- **What a span marks**, by the wall clock alone. -/
theorem mem_markSpan (now : Int) (elapsed : Nat) (i : Fin 1440) :
    i ∈ (s.markSpan tz now elapsed).bits ↔
      i ∈ s.bits ∨ ∃ k, tz.secondOfDay now - elapsed ≤ k ∧ k < tz.secondOfDay now ∧
        k / 60 = i := by
  have hlt := secondOfDay_lt tz now
  unfold markSpan
  dsimp only
  split
  · rename_i hzero
    refine ⟨.inl, fun h => h.resolve_right ?_⟩
    rintro ⟨k, hlo, hhi, -⟩
    omega
  · rename_i hpos
    split
    · refine ⟨.inl, fun h => h.resolve_right ?_⟩
      rintro ⟨k, -, hhi, -⟩
      omega
    · rename_i hssm
      rw [mem_foldl_setLocalMinute]
      · refine or_congr_right ?_
        rw [List.mem_range'_1]
        constructor
        · rintro ⟨hlo, hhi⟩
          -- The first second of the minute, or the first of the span.
          refine ⟨max (tz.secondOfDay now - elapsed) (i * 60), le_max_left _ _, ?_, ?_⟩
          · exact max_lt (by omega) (by omega)
          · rcases max_cases (tz.secondOfDay now - elapsed) (i.val * 60) with h | h <;> omega
        · rintro ⟨k, hlo, hhi, hk⟩
          omega
      · intro m hm
        have hrange := List.mem_range'_1.mp hm
        omega

/-- The seconds of the local day, back from now, show the wall clock of now. -/
theorem shown_of_offset {now u : Int} (h : tz.offsetAt u = tz.offsetAt now)
    (hlo : now - tz.secondOfDay now ≤ u) (hhi : u < now) :
    tz.localDay u = tz.localDay now ∧
      (tz.secondOfDay u : Int) = tz.secondOfDay now - (now - u) := by
  unfold Tz.localDay Tz.secondOfDay Tz.wall at *
  rw [h]
  omega

/-- Under a steady clock a span marks the minutes of its active seconds of the day. -/
theorem mem_markSpan_of_steady {sp : ActiveSpan} (h : SteadyClock tz sp) (i : Fin 1440) :
    i ∈ (s.markSpan tz sp.now sp.elapsed).bits ↔
      i ∈ s.bits ∨ ∃ u, sp.Active u ∧ tz.localDay u = tz.localDay sp.now ∧
        tz.minuteOfDay u = i := by
  rw [mem_markSpan]
  refine or_congr_right ⟨?_, ?_⟩
  · rintro ⟨k, hlo, hhi, hk⟩
    have hactive : sp.Active (sp.now - tz.secondOfDay sp.now + k) := by
      unfold ActiveSpan.Active
      omega
    obtain ⟨hday, hoffset⟩ := h _ hactive
    have hsame := hday.mp (by omega)
    obtain ⟨-, hsecond⟩ := shown_of_offset (hoffset hsame) (by omega) hactive.2
    refine ⟨_, hactive, hsame, ?_⟩
    rw [Tz.minuteOfDay, ← hk]
    omega
  · rintro ⟨u, hactive, hday, hminute⟩
    obtain ⟨hiff, hoffset⟩ := h u hactive
    have hlo := hiff.mpr hday
    obtain ⟨-, hsecond⟩ := shown_of_offset (hoffset hday) hlo hactive.2
    unfold ActiveSpan.Active at hactive
    refine ⟨tz.secondOfDay u, ?_, ?_, hminute⟩ <;> omega

/-- The spans of one local day, one after the other. -/
theorem mem_markSpans {day : Int} {spans : List ActiveSpan}
    (h : ∀ sp ∈ spans, tz.localDay sp.now = day ∧ SteadyClock tz sp) (i : Fin 1440) :
    i ∈ (markSpans tz s spans).bits ↔
      i ∈ s.bits ∨ ∃ sp ∈ spans, ∃ u, sp.Active u ∧ tz.localDay u = day ∧
        tz.minuteOfDay u = i := by
  induction spans generalizing s with
  | nil => simp [markSpans]
  | cons sp spans ih =>
    obtain ⟨hday, hsteady⟩ := h sp List.mem_cons_self
    have hrest := ih (s := s.markSpan tz sp.now sp.elapsed)
      fun sp hsp => h sp (List.mem_cons_of_mem _ hsp)
    rw [mem_markSpan_of_steady hsteady, hday] at hrest
    simp only [List.mem_cons, exists_eq_or_imp]
    rw [← or_assoc]
    exact hrest

theorem le_count_union (s t : MinuteSet) : max s.count t.count ≤ (s.union t).count :=
  max_le (Finset.card_le_card Finset.subset_union_left)
    (Finset.card_le_card Finset.subset_union_right)

/-- **A day's minutes.**  A set is read back from its text, and a text that is read is the text of
its set; a union has between the larger number of minutes and the sum of the two; and the spans
of a local day, each under a steady clock, mark exactly the minutes with an active second of the
day. -/
theorem minuteSet_law (tz : Tz) (day : Int) (spans : List ActiveSpan)
    (hsteady : ∀ sp ∈ spans, tz.localDay sp.now = day ∧ SteadyClock tz sp) :
    (∀ s : MinuteSet, fromB64url s.toB64url = some s) ∧
    (∀ text s, fromB64url text = some s → s.toB64url = text) ∧
    (∀ s t : MinuteSet, max s.count t.count ≤ (s.union t).count ∧
      (s.union t).count ≤ s.count + t.count) ∧
    ∀ i, i ∈ (markSpans tz empty spans).bits ↔
      ∃ sp ∈ spans, ∃ u, sp.Active u ∧ tz.localDay u = day ∧ tz.minuteOfDay u = i := by
  refine ⟨fromB64url_toB64url, fun text s => toB64url_fromB64url,
    fun s t => ⟨le_count_union s t, Finset.card_union_le _ _⟩, ?_⟩
  intro i
  rw [mem_markSpans hsteady, empty]
  simp

/-- A zone without a change of offset is a steady clock. -/
theorem steadyClock_utc (sp : ActiveSpan) : SteadyClock Tz.utc sp := by
  rintro u ⟨-, hhi⟩
  refine ⟨?_, fun _ => rfl⟩
  simp only [Tz.secondOfDay, Tz.localDay, Tz.wall, Tz.offsetAt_utc]
  omega

/-- Two hundred seconds up to a minute and a half past midnight. -/
def acrossMidnight : ActiveSpan := ⟨1782691290, 200⟩

theorem minuteSet_law_acrossMidnight :
    1 ∈ (markSpans Tz.utc empty [acrossMidnight]).bits ∧
      1439 ∉ (markSpans Tz.utc empty [acrossMidnight]).bits := by
  have hlaw := (minuteSet_law Tz.utc 20633 [acrossMidnight] (by
    intro sp hsp
    obtain rfl := List.mem_singleton.mp hsp
    exact ⟨by decide +kernel, steadyClock_utc _⟩)).2.2.2
  constructor
  · refine (hlaw 1).mpr ⟨_, List.mem_singleton_self _, 1782691289, ?_, ?_, ?_⟩
    · exact ⟨by decide, by decide⟩
    · decide +kernel
    · decide +kernel
  · intro hmem
    obtain ⟨sp, hsp, u, ⟨-, hhi⟩, hday, hminute⟩ := (hlaw 1439).mp hmem
    obtain rfl := List.mem_singleton.mp hsp
    have hend : (1439 : Fin 1440).val = 1439 := rfl
    rw [hend] at hminute
    simp only [Tz.minuteOfDay, Tz.secondOfDay, Tz.localDay, Tz.wall, Tz.offsetAt_utc,
      acrossMidnight] at hminute hday hhi
    omega

theorem london_bounded :
    ∀ o ∈ (0 : Int) :: [((1774746000 : Int), (3600 : Int))].map Prod.snd,
      -86400 < o ∧ o < 86400 := by
  decide

/-- London, as it goes forward an hour in the spring of 2026. -/
def london : Tz := ⟨0, [(1774746000, 3600)], london_bounded⟩

/-- A minute of use, half of it before the change and half after. -/
def acrossTheChange : ActiveSpan := ⟨1774746030, 60⟩

/-- **What marking by the wall clock misses.**  The half minute before the change is marked as the
minute before two o'clock, which no second of the day shows, and not as the one it was. -/
theorem minuteSet_law_exception :
    london.localDay acrossTheChange.now = 20541 ∧
    (119 ∈ (markSpans london empty [acrossTheChange]).bits ∧
      ∀ u, acrossTheChange.Active u → london.minuteOfDay u ≠ 119) ∧
    59 ∉ (markSpans london empty [acrossTheChange]).bits ∧
      acrossTheChange.Active 1774745970 ∧ london.localDay 1774745970 = 20541 ∧
        london.minuteOfDay 1774745970 = 59 := by
  refine ⟨by decide +kernel, ⟨by decide +kernel, ?_⟩, by decide +kernel, ⟨by decide, by decide⟩,
    by decide +kernel, by decide +kernel⟩
  rintro u ⟨hlo, hhi⟩
  have hall : ∀ k < 60, london.minuteOfDay (1774745970 + (k : Nat)) ≠ 119 := by decide +kernel
  have hlo' : 1774745970 ≤ u := hlo
  have hhi' : u < 1774746030 := hhi
  have hu : u = 1774745970 + ((u - 1774745970).toNat : Int) := by omega
  rw [hu]
  exact hall _ (by omega)

end MinuteSet
end Kintrinsic
