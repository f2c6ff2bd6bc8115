import Mathlib.Data.List.Basic
import Mathlib.Data.Nat.Find
import Mathlib.Tactic.IntervalCases

/-! # The guardian's relay reads

The app asks its relays for the wraps since a cursor that follows the reads that finished, and now
and then sweeps the whole day.  Reads may overlap: each keeps the window it began with, and moves
the cursor and the sweep stamp when it ends.  The cursor and the stamp always come from reads that
began earlier (`Marks`), so the first read that succeeds after a wrap arrived cannot step over it. -/
namespace Kintrinsic
namespace RelayPoll

/-! ## The window -/

def windowFloorSecs : Int := 24 * 60 * 60

def cursorOverlapSecs : Int := 120

def sweepIntervalSecs : Int := 15 * 60

def sweepDue (lastSweepAt : Option Int) (nowSecs : Int) (forced : Bool) : Bool :=
  forced || lastSweepAt.all fun last => decide (nowSecs - last ≥ sweepIntervalSecs)

def windowSince (cursor : Option Int) (nowSecs : Int) : Int :=
  max (cursor.getD 0) (nowSecs - windowFloorSecs)

structure Window where
  since : Int
  sweep : Bool
deriving DecidableEq

def readWindow (cursor lastSweepAt : Option Int) (nowSecs : Int) (forced : Bool) : Window :=
  let sweep := sweepDue lastSweepAt nowSecs forced
  ⟨if sweep then nowSecs - windowFloorSecs else windowSince cursor nowSecs, sweep⟩

def nextCursor (cursor : Option Int) (startedAt : Int) (unfinished : Bool) : Option Int :=
  if unfinished then cursor else some (startedAt - cursorOverlapSecs)

/-- A window reaches a wrap of the last day that its cursor has not passed. -/
theorem readWindow_since_le {cursor last : Option Int} {now : Int} {forced : Bool} {created : Nat}
    (hcursor : ∀ k ∈ cursor, k ≤ created) (hday : now - created ≤ windowFloorSecs) :
    (readWindow cursor last now forced).since ≤ created := by
  unfold readWindow
  dsimp only
  split
  · omega
  · unfold windowSince
    cases cursor with
    | none =>
      show max 0 (now - windowFloorSecs) ≤ created
      omega
    | some k =>
      have hk := hcursor k rfl
      show max k (now - windowFloorSecs) ≤ created
      omega

/-- A sweep reaches every wrap of the last day. -/
theorem readWindow_sweep {cursor last : Option Int} {now : Int} {forced : Bool}
    (hsweep : (readWindow cursor last now forced).sweep = true) :
    (readWindow cursor last now forced).since = now - windowFloorSecs := by
  have hdue : sweepDue last now forced = true := hsweep
  unfold readWindow
  dsimp only
  rw [if_pos hdue]

/-! ## Reads and how they end -/

inductive ReadResult
  | failed
  | unfinished
  | finished
deriving DecidableEq

/-- A read: when it began, the window it asked for, and how it ended if it has. -/
structure Read where
  startedAt : Int
  window : Window
  result : Option ReadResult
deriving DecidableEq

/-- It did not throw. -/
def Read.Succeeded (r : Read) : Prop :=
  r.result = some .unfinished ∨ r.result = some .finished

instance (r : Read) : Decidable r.Succeeded := inferInstanceAs (Decidable (_ ∨ _))

/-- `pollCursor`, `lastSweepAt`, and every read of the session in the order they began. -/
structure Poll where
  cursor : Option Int
  lastSweepAt : Option Int
  reads : List Read
deriving DecidableEq

def opened : Poll := ⟨none, none, []⟩

/-- A read begins, or the one at an index ends. -/
inductive Event
  | start (now : Int) (forced : Bool)
  | stop (index : Nat) (result : ReadResult)
deriving DecidableEq

namespace Poll

def window (p : Poll) (now : Int) (forced : Bool) : Window :=
  readWindow p.cursor p.lastSweepAt now forced

/-- `pollRelayOnce` up to the answer. -/
def start (p : Poll) (now : Int) (forced : Bool) : Poll :=
  { p with reads := p.reads ++ [⟨now, p.window now forced, none⟩] }

/-- The rest of it: a read that threw moves nothing. -/
def stop (p : Poll) (index : Nat) (r : Read) (result : ReadResult) : Poll :=
  let ended := p.reads.set index { r with result := some result }
  if result = .failed then { p with reads := ended }
  else
    { cursor := nextCursor p.cursor r.startedAt (result = .unfinished)
      lastSweepAt := if r.window.sweep then some r.startedAt else p.lastSweepAt
      reads := ended }

/-- The read at an index while it is in flight. -/
def inFlight (p : Poll) (index : Nat) : Option Read :=
  p.reads[index]?.filter (·.result = none)

def step (p : Poll) : Event → Poll
  | .start now forced => p.start now forced
  | .stop index result =>
    (p.inFlight index).elim p fun r => p.stop index r result

def run (p : Poll) (es : List Event) : Poll := es.foldl step p

/-! ## Where the marks come from -/

/-- The cursor was left by a read that finished, the stamp by a sweep that succeeded. -/
structure Marks (reads : List Read) (cursor lastSweepAt : Option Int) : Prop where
  cursor : ∀ k ∈ cursor, ∃ r ∈ reads, r.result = some .finished ∧
    k = r.startedAt - cursorOverlapSecs
  sweep : ∀ k ∈ lastSweepAt, ∃ r ∈ reads, r.Succeeded ∧ r.window.sweep = true ∧ k = r.startedAt

/-- Every read's window was made from marks of the reads before it, and so will the next one's. -/
structure Traced (p : Poll) : Prop where
  windows : ∀ i r, p.reads[i]? = some r → ∃ cursor last forced,
    r.window = readWindow cursor last r.startedAt forced ∧ Marks (p.reads.take i) cursor last
  marks : Marks p.reads p.cursor p.lastSweepAt

/-- Marks outlive a change to the reads that keeps those that succeeded. -/
theorem Marks.mono {reads reads' : List Read} {cursor last : Option Int}
    (h : Marks reads cursor last)
    (hkeep : ∀ r ∈ reads, r.result ≠ none → r ∈ reads') : Marks reads' cursor last := by
  constructor
  · intro k hk
    obtain ⟨r, hmem, hresult, hat⟩ := h.cursor k hk
    refine ⟨r, hkeep r hmem ?_, hresult, hat⟩
    rw [hresult]
    exact Option.some_ne_none _
  · intro k hk
    obtain ⟨r, hmem, hdone, hsweep, hat⟩ := h.sweep k hk
    refine ⟨r, hkeep r hmem ?_, hdone, hsweep, hat⟩
    rcases hdone with hdone | hdone
    · rw [hdone]
      exact Option.some_ne_none _
    · rw [hdone]
      exact Option.some_ne_none _

theorem traced_opened : Traced opened := by
  constructor
  · intro i r hr
    cases hr
  · constructor
    · rintro k ⟨⟩
    · rintro k ⟨⟩

theorem Traced.start {p : Poll} (h : p.Traced) (now : Int) (forced : Bool) :
    (p.start now forced).Traced := by
  have hreads : (p.start now forced).reads = p.reads ++ [⟨now, p.window now forced, none⟩] := rfl
  constructor
  · intro i r hr
    rw [hreads] at hr ⊢
    by_cases hi : i < p.reads.length
    · rw [List.getElem?_append_left hi] at hr
      rw [List.take_append_of_le_length (Nat.le_of_lt hi)]
      exact h.windows i r hr
    · -- the new read: its window was made from the marks of all the others
      have hi' : p.reads.length ≤ i := Nat.le_of_not_lt hi
      rw [List.getElem?_append_right hi'] at hr
      have hlast : i - p.reads.length = 0 := by
        by_contra hne
        rw [List.getElem?_eq_none (by simp; omega)] at hr
        cases hr
      rw [hlast] at hr
      obtain rfl : (⟨now, p.window now forced, none⟩ : Read) = r := Option.some.inj hr
      have hlen : i = p.reads.length := by omega
      rw [hlen, List.take_left]
      exact ⟨p.cursor, p.lastSweepAt, forced, rfl, h.marks⟩
  · refine h.marks.mono fun r hmem _ => ?_
    rw [hreads]
    exact List.mem_append_left _ hmem

/-- A read that ends takes the place of one in flight: all that had ended are kept. -/
theorem mem_ended {reads : List Read} {i : Nat} {r : Read} (hr : reads[i]? = some r)
    (hflight : r.result = none) (ended : Read) {q : Read} (hmem : q ∈ reads)
    (hq : q.result ≠ none) : q ∈ reads.set i ended := by
  obtain ⟨j, hj⟩ := List.mem_iff_getElem?.mp hmem
  have hne : i ≠ j := by
    rintro rfl
    rw [hr] at hj
    rw [← Option.some.inj hj] at hq
    exact hq hflight
  refine List.mem_iff_getElem?.mpr ⟨j, ?_⟩
  rw [List.getElem?_set_ne hne]
  exact hj

theorem Traced.stop {p : Poll} (h : p.Traced) {index : Nat} {r : Read}
    (hr : p.reads[index]? = some r) (hflight : r.result = none) (result : ReadResult) :
    (p.stop index r result).Traced := by
  have hreads : (p.stop index r result).reads =
      p.reads.set index { r with result := some result } := by
    unfold Poll.stop
    dsimp only
    split <;> rfl
  have hlt : index < p.reads.length := (List.getElem?_eq_some_iff.mp hr).1
  have hself : { r with result := some result } ∈ (p.stop index r result).reads := by
    rw [hreads]
    exact List.mem_iff_getElem?.mpr ⟨index, List.getElem?_set_self hlt⟩
  have hmarks : Marks (p.stop index r result).reads p.cursor p.lastSweepAt := by
    refine h.marks.mono fun q hmem hq => ?_
    rw [hreads]
    exact mem_ended hr hflight _ hmem hq
  constructor
  · intro i q hq
    rw [hreads] at hq ⊢
    -- the window is the one it began with
    have hold : ∃ q', p.reads[i]? = some q' ∧ q'.window = q.window ∧
        q'.startedAt = q.startedAt := by
      by_cases hi : index = i
      · subst hi
        rw [List.getElem?_set_self hlt] at hq
        rw [← Option.some.inj hq]
        exact ⟨r, hr, rfl, rfl⟩
      · rw [List.getElem?_set_ne hi] at hq
        exact ⟨q, hq, rfl, rfl⟩
    obtain ⟨q', hq', hwindow, hat⟩ := hold
    obtain ⟨cursor, last, forced, hmade, hfrom⟩ := h.windows i q' hq'
    refine ⟨cursor, last, forced, by rw [← hwindow, ← hat, hmade], ?_⟩
    refine hfrom.mono fun x hmem hx => ?_
    rw [List.take_set]
    by_cases hi : index < i
    · refine mem_ended ?_ hflight _ hmem hx
      rw [List.getElem?_take_of_lt hi]
      exact hr
    · rw [List.set_eq_of_length_le]
      · exact hmem
      · rw [List.length_take]
        omega
  · unfold Poll.stop at hself hmarks ⊢
    dsimp only at hself hmarks ⊢
    split
    · rename_i hfailed
      rw [if_pos hfailed] at hmarks
      exact hmarks
    · rename_i hok
      rw [if_neg hok] at hmarks hself
      constructor
      · intro k hk
        by_cases hunf : result = .unfinished
        · rw [nextCursor, decide_eq_true hunf, if_pos rfl] at hk
          exact hmarks.cursor k hk
        · rw [nextCursor, decide_eq_false hunf, if_neg Bool.false_ne_true] at hk
          refine ⟨_, hself, ?_, (Option.some.inj hk).symm⟩
          cases result with
          | failed => exact absurd rfl hok
          | unfinished => exact absurd rfl hunf
          | finished => rfl
      · intro k hk
        by_cases hsweep : r.window.sweep = true
        · rw [if_pos hsweep] at hk
          refine ⟨_, hself, ?_, hsweep, (Option.some.inj hk).symm⟩
          cases result with
          | failed => exact absurd rfl hok
          | unfinished => exact Or.inl rfl
          | finished => exact Or.inr rfl
        · rw [if_neg hsweep] at hk
          exact hmarks.sweep k hk

theorem Traced.step {p : Poll} (h : p.Traced) (e : Event) : (p.step e).Traced := by
  cases e with
  | start now forced => exact h.start now forced
  | stop index result =>
    unfold Poll.step
    dsimp only
    cases hflight : p.inFlight index with
    | none => exact h
    | some r =>
      obtain ⟨hr, hnone⟩ := Option.filter_eq_some_iff.mp hflight
      exact h.stop hr (of_decide_eq_true hnone) result

/-- **In every run** each window was made from the marks of reads that began before it. -/
theorem Traced.run {p : Poll} (h : p.Traced) (es : List Event) : (p.run es).Traced := by
  induction es generalizing p with
  | nil => exact h
  | cons e es ih => exact ih (h.step e)

/-! ## What the reads cover -/

end Poll

/-- A wrap: its own date, and the moment it can be read at the relay. -/
structure SentWrap where
  createdAt : Nat
  availableAt : Int
deriving DecidableEq

def SentWrap.DayOld (w : SentWrap) (now : Int) : Prop := windowFloorSecs < now - w.createdAt

instance (w : SentWrap) (now : Int) : Decidable (w.DayOld now) :=
  inferInstanceAs (Decidable (_ < _))

def Window.Covers (v : Window) (w : SentWrap) : Prop := v.since ≤ w.createdAt

instance (v : Window) (w : SentWrap) : Decidable (v.Covers w) := inferInstanceAs (Decidable (_ ≤ _))

/-- A sweep that succeeded. -/
def Read.Swept (r : Read) : Prop := r.Succeeded ∧ r.window.sweep = true

instance (r : Read) : Decidable r.Swept := inferInstanceAs (Decidable (_ ∧ _))

/-- The first read that succeeds of those that began after a moment. -/
structure FirstAfter (reads : List Read) (i : Nat) (r : Read) (moment : Int) : Prop where
  here : reads[i]? = some r
  succeeded : r.Succeeded
  after : moment < r.startedAt
  first : ∀ j < i, ∀ q, reads[j]? = some q → q.Succeeded → q.startedAt ≤ moment

/-- The first sweep that succeeds of those that began at a moment or since. -/
structure FirstSweep (reads : List Read) (j : Nat) (q : Read) (moment : Int) : Prop where
  here : reads[j]? = some q
  swept : q.Swept
  since : moment ≤ q.startedAt
  first : ∀ k < j, ∀ q', reads[k]? = some q' → q'.Swept → q'.startedAt < moment

def Event.finishes : Event → Bool
  | .stop _ result => result = .finished
  | .start _ _ => false

namespace Poll

theorem mem_of_mem_take {reads : List Read} {i : Nat} {q : Read} (h : q ∈ reads.take i) :
    ∃ j < i, reads[j]? = some q := by
  obtain ⟨j, hj⟩ := List.mem_iff_getElem?.mp h
  have hlt : j < i := by
    have hlen := (List.getElem?_eq_some_iff.mp hj).1
    rw [List.length_take] at hlen
    omega
  rw [List.getElem?_take_of_lt hlt] at hj
  exact ⟨j, hlt, hj⟩

/-- A wrap that is about as old as its arrival is in the first window after that. -/
theorem covers_first {p : Poll} (h : p.Traced) {w : SentWrap} {i : Nat} {r : Read}
    (hfirst : FirstAfter p.reads i r w.availableAt)
    (hprompt : w.availableAt - w.createdAt ≤ cursorOverlapSecs)
    (hday : ¬w.DayOld r.startedAt) : r.window.Covers w := by
  obtain ⟨cursor, last, forced, hwindow, hmarks⟩ := h.windows i r hfirst.here
  unfold SentWrap.DayOld at hday
  show r.window.since ≤ w.createdAt
  rw [hwindow]
  refine readWindow_since_le (fun k hk => ?_) (by omega)
  -- the cursor is that of a read that began no later than the wrap came
  obtain ⟨q, hmem, hresult, rfl⟩ := hmarks.cursor k hk
  obtain ⟨j, hj, hat⟩ := mem_of_mem_take hmem
  have hearlier := hfirst.first j hj q hat (Or.inr hresult)
  omega

/-- Only a read that finishes moves the cursor. -/
theorem step_cursor {p : Poll} {e : Event} (h : e.finishes = false) :
    (p.step e).cursor = p.cursor := by
  cases e with
  | start now forced => rfl
  | stop index result =>
    unfold Poll.step
    dsimp only
    cases p.inFlight index with
    | none => rfl
    | some r =>
      show (p.stop index r result).cursor = p.cursor
      unfold Poll.stop
      dsimp only
      split
      · rfl
      · rename_i hok
        cases result with
        | failed => exact absurd rfl hok
        | unfinished => rfl
        | finished => cases h

theorem run_cursor {es : List Event} (h : ∀ e ∈ es, e.finishes = false) (p : Poll) :
    (p.run es).cursor = p.cursor := by
  induction es generalizing p with
  | nil => rfl
  | cons e es ih =>
    have hrest := ih (fun e' hmem => h e' (List.mem_cons_of_mem _ hmem)) (p.step e)
    exact hrest.trans (step_cursor (h e List.mem_cons_self))

/-- A wrap that the cursor has not passed stays in every window until a read finishes. -/
theorem covers_until_finish {p : Poll} {w : SentWrap} (hcursor : ∀ k ∈ p.cursor, k ≤ w.createdAt)
    {es : List Event} (hes : ∀ e ∈ es, e.finishes = false) {now : Int}
    (hday : ¬w.DayOld now) (forced : Bool) : ((p.run es).window now forced).Covers w := by
  unfold SentWrap.DayOld at hday
  refine readWindow_since_le (fun k hk => ?_) (by omega)
  rw [run_cursor hes] at hk
  exact hcursor k hk

/-- A read that begins long enough after every sweep of the time before a moment is a sweep, or
follows one that began since. -/
theorem swept_since {p : Poll} (h : p.Traced) {moment : Int} {i : Nat} {r : Read}
    (hat : p.reads[i]? = some r) (hr : r.Succeeded)
    (hlong : ∀ q ∈ p.reads, q.Swept → q.startedAt < moment →
      q.startedAt + sweepIntervalSecs ≤ r.startedAt) :
    ∃ j ≤ i, ∃ q, FirstSweep p.reads j q moment := by
  suffices hsome : ∃ j, j ≤ i ∧ ∃ q, p.reads[j]? = some q ∧ q.Swept ∧ moment ≤ q.startedAt by
    classical
    obtain ⟨hle, q, hq, hswept, hsince⟩ := Nat.find_spec hsome
    refine ⟨Nat.find hsome, hle, q, hq, hswept, hsince, fun k hk q' hq' hswept' => ?_⟩
    by_contra hlate
    exact Nat.find_min hsome hk ⟨by omega, q', hq', hswept', by omega⟩
  by_contra hnone
  obtain ⟨cursor, last, forced, hwindow, hmarks⟩ := h.windows i r hat
  -- every sweep up to here began before the moment, so this read is due for one
  have hbefore : ∀ j ≤ i, ∀ q, p.reads[j]? = some q → q.Swept → q.startedAt < moment := by
    intro j hj q hq hswept
    by_contra hlate
    exact hnone ⟨j, hj, q, hq, hswept, by omega⟩
  have hdue : sweepDue last r.startedAt forced = true := by
    cases hlast : last with
    | none => exact Bool.or_true _
    | some k =>
      obtain ⟨q, hmem, hq, hsweep, rfl⟩ := hmarks.sweep k hlast
      obtain ⟨j, hj, hqat⟩ := mem_of_mem_take hmem
      have hswept : q.Swept := ⟨hq, hsweep⟩
      have hgap := hlong q (List.mem_iff_getElem?.mpr ⟨j, hqat⟩) hswept
        (hbefore j (Nat.le_of_lt hj) q hqat hswept)
      unfold sweepDue
      rw [Option.all_some, decide_eq_true (by omega), Bool.or_true]
  have hself : r.Swept := ⟨hr, by rw [hwindow]; exact hdue⟩
  -- but then it is a sweep before the moment itself, fifteen minutes after itself
  have hgap := hlong r (List.mem_iff_getElem?.mpr ⟨i, hat⟩) hself (hbefore i le_rfl r hat hself)
  unfold sweepIntervalSecs at hgap
  omega

/-- The first sweep that succeeds after a wrap came covers it, whatever its date. -/
theorem covers_swept {p : Poll} (h : p.Traced) {w : SentWrap} {j : Nat} {q : Read}
    (hat : p.reads[j]? = some q) (hswept : q.Swept) (hday : ¬w.DayOld q.startedAt) :
    q.window.Covers w := by
  obtain ⟨cursor, last, forced, hwindow, -⟩ := h.windows j q hat
  have hsweep := hswept.2
  unfold SentWrap.DayOld at hday
  show q.window.since ≤ w.createdAt
  rw [hwindow] at hsweep ⊢
  rw [readWindow_sweep hsweep]
  omega

/-- **The reads of a session step over nothing that came promptly, nothing that the cursor has not
passed, and nothing at all past the next sweep.** -/
theorem relay_reads_cover :
    (∀ (es : List Event) (w : SentWrap) (i : Nat) (r : Read),
      FirstAfter (opened.run es).reads i r w.availableAt →
      w.availableAt - w.createdAt ≤ cursorOverlapSecs →
      ¬w.DayOld r.startedAt → r.window.Covers w) ∧
    (∀ (before between : List Event) (now later : Int) (forced again : Bool) (w : SentWrap),
      (∀ k ∈ (opened.run before).cursor, k ≤ w.createdAt) →
      (∀ e ∈ between, e.finishes = false) → ¬w.DayOld later →
      ((((opened.run before).start now forced).run between).window later again).Covers w) ∧
    ∀ (es : List Event) (w : SentWrap) (i : Nat) (r : Read),
      (opened.run es).reads[i]? = some r → r.Succeeded →
      (∀ q ∈ (opened.run es).reads, q.Swept → q.startedAt < w.availableAt →
        q.startedAt + sweepIntervalSecs ≤ r.startedAt) →
      ∃ j ≤ i, ∃ q, FirstSweep (opened.run es).reads j q w.availableAt ∧
        (¬w.DayOld q.startedAt → q.window.Covers w) := by
  refine ⟨?_, ?_, ?_⟩
  · intro es w i r hfirst hprompt hday
    exact covers_first (traced_opened.run es) hfirst hprompt hday
  · intro before between now later forced again w hcursor hbetween hday
    exact covers_until_finish (p := (opened.run before).start now forced) hcursor hbetween hday
      again
  · intro es w i r hat hr hlong
    have htraced := traced_opened.run es
    obtain ⟨j, hj, q, hfirst⟩ := swept_since htraced hat hr hlong
    exact ⟨j, hj, q, hfirst, covers_swept htraced hfirst.here hfirst.swept⟩

/-- A day's sweep, a read left unfinished, and one that finishes. -/
def threeReads : List Event :=
  [.start 100000 false, .stop 0 .finished, .start 100030 false, .stop 1 .unfinished,
    .start 100060 false, .stop 2 .finished]

/-- A wrap that came between the first two reads is in the last two; the sweep has an older one. -/
theorem relay_reads_cover_three :
    (⟨99880, false⟩ : Window).Covers ⟨100020, 100020⟩ ∧
      ((((opened.run (threeReads.take 2)).start 100030 false).run
        [.stop 1 .unfinished]).window 100060 false).Covers ⟨100020, 100020⟩ ∧
      ∃ j ≤ 0, ∃ q, FirstSweep (opened.run threeReads).reads j q 99990 ∧
        (¬(⟨90000, 99990⟩ : SentWrap).DayOld q.startedAt →
          q.window.Covers ⟨90000, 99990⟩) := by
  refine ⟨?_, ?_, ?_⟩
  · refine relay_reads_cover.1 threeReads ⟨100020, 100020⟩ 1
      ⟨100030, ⟨99880, false⟩, some .unfinished⟩ ⟨by decide, by decide, by decide, ?_⟩
      (by decide) (by decide)
    intro j hj q hq _
    obtain rfl : j = 0 := by omega
    rw [← Option.some.inj hq]
    decide
  · exact relay_reads_cover.2.1 (threeReads.take 2) [.stop 1 .unfinished] 100030 100060 false false
      ⟨100020, 100020⟩ (by decide) (by decide) (by decide)
  · exact relay_reads_cover.2.2 threeReads ⟨90000, 99990⟩ 0
      ⟨100000, ⟨13600, true⟩, some .finished⟩ (by decide) (by decide) (by decide)

/-- A wrap behind the cursor that a sweep could not finish is not in the next window; and one that a
forced sweep has read is not in the window of the read a quarter of an hour after the last sweep
before it came. -/
theorem not_relay_reads_cover :
    (¬∀ (before between : List Event) (now later : Int) (forced again : Bool) (w : SentWrap),
      (opened.run before).reads.Pairwise (fun q r => q.startedAt ≤ r.startedAt) →
      (∀ q ∈ (opened.run before).reads, q.startedAt ≤ now) → now ≤ later →
      ((opened.run before).window now forced).Covers w →
      between = [.stop (opened.run before).reads.length .unfinished] → ¬w.DayOld later →
      ((((opened.run before).start now forced).run between).window later again).Covers w) ∧
    ¬∀ (es : List Event) (w : SentWrap) (l i : Nat) (last r : Read),
      (opened.run es).reads.Pairwise (fun q r => q.startedAt ≤ r.startedAt) →
      cursorOverlapSecs < w.availableAt - w.createdAt →
      (opened.run es).reads[l]? = some last → last.Swept → last.startedAt < w.availableAt →
      (∀ j > l, ∀ q, (opened.run es).reads[j]? = some q → q.Swept →
        w.availableAt ≤ q.startedAt) →
      FirstAfter (opened.run es).reads i r (last.startedAt + sweepIntervalSecs - 1) →
      ¬w.DayOld r.startedAt → r.window.Covers w := by
  constructor
  · intro h
    have hcovers := h [.start 100000 false, .stop 0 .finished] [.stop 1 .unfinished] 100010 100040
      true false ⟨95000, 100005⟩ (by decide) (by decide) (by decide) (by decide) (by decide)
      (by decide)
    exact absurd hcovers (by decide)
  · intro h
    have hcovers := h [.start 100000 false, .stop 0 .finished, .start 100200 true,
      .stop 1 .finished, .start 100900 false, .stop 2 .finished] ⟨99000, 100100⟩ 0 2
      ⟨100000, ⟨13600, true⟩, some .finished⟩ ⟨100900, ⟨100080, false⟩, some .finished⟩
      (by decide) (by decide) (by decide) (by decide) (by decide) ?_ ⟨by decide, by decide,
      by decide, ?_⟩ (by decide)
    · exact absurd hcovers (by decide)
    · intro j hj q hq hswept
      have hlt := (List.getElem?_eq_some_iff.mp hq).1
      have hthree : j < 3 := hlt
      interval_cases j
      · rw [← Option.some.inj hq]
        decide
      · rw [← Option.some.inj hq] at hswept
        exact absurd hswept (by decide)
    · intro j hj q hq _
      interval_cases j
      · rw [← Option.some.inj hq]
        decide
      · rw [← Option.some.inj hq]
        decide

end Poll
end RelayPoll
end Kintrinsic
