import Mathlib.Data.List.Basic
import Mathlib.Data.List.Perm.Basic
import Mathlib.Order.Lattice

/-! # Folds of a join

A state that joins in one value after another is the least one above the values and where it
started, so it depends neither on their order nor on how often each came. -/
namespace JoinFold

variable {α β : Type} [SemilatticeSup β] (f : α → β) {l l' : List α} {a b : β}

/-- Join in what each of some inputs contributes. -/
def joinAll (l : List α) (a : β) : β := l.foldl (fun acc x => acc ⊔ f x) a

theorem joinAll_le_iff : joinAll f l a ≤ b ↔ a ≤ b ∧ ∀ x ∈ l, f x ≤ b := by
  induction l generalizing a with
  | nil => simp [joinAll]
  | cons x xs ih =>
    show joinAll f xs (a ⊔ f x) ≤ b ↔ _
    rw [ih, sup_le_iff, List.forall_mem_cons, and_assoc]

theorem le_joinAll : a ≤ joinAll f l a := ((joinAll_le_iff f).mp le_rfl).1

theorem contribution_le_joinAll {x : α} (hx : x ∈ l) : f x ≤ joinAll f l a :=
  ((joinAll_le_iff f).mp le_rfl).2 x hx

/-- **Order and repetition do not count.** -/
theorem joinAll_congr (h : ∀ x, x ∈ l ↔ x ∈ l') : joinAll f l a = joinAll f l' a := by
  refine le_antisymm ?_ ?_
  · exact (joinAll_le_iff f).mpr ⟨le_joinAll f, fun x hx => contribution_le_joinAll f ((h x).mp hx)⟩
  · exact (joinAll_le_iff f).mpr ⟨le_joinAll f, fun x hx => contribution_le_joinAll f ((h x).mpr hx)⟩

/-- What keeps joins takes a fold of them to the fold of what it takes them to. -/
theorem map_joinAll {γ : Type} [SemilatticeSup γ] (g : β → γ) (hg : ∀ x y, g (x ⊔ y) = g x ⊔ g y) :
    g (joinAll f l a) = joinAll (fun x => g (f x)) l (g a) := by
  induction l generalizing a with
  | nil => rfl
  | cons x xs ih =>
    show g (joinAll f xs (a ⊔ f x)) = joinAll _ xs (g a ⊔ g (f x))
    rw [ih, hg]

/-- **A simulation of joins**: where each step shows the join of what its input contributes, a run
shows the join of all. -/
theorem foldl_shows {σ : Type} (shows_ : β → σ) (step : σ → α → σ)
    (hstep : ∀ b x, step (shows_ b) x = shows_ (b ⊔ f x)) :
    l.foldl step (shows_ a) = shows_ (joinAll f l a) := by
  induction l generalizing a with
  | nil => rfl
  | cons x xs ih =>
    rw [List.foldl_cons, hstep, ih]
    rfl

end JoinFold

/-! # What is kept of the current day

An accumulator that is cleared when the day turns.  As long as days only rise, it is the fold over
the events of its day, of all that ever happened. -/
namespace DayFold

variable {E A D : Type} [LinearOrder D] (day : E → D) (add : A → E → A) (empty : A)

/-- The fold over one day's events. -/
def ofDay (d : D) (events : List E) : A :=
  (events.filter fun e => decide (day e = d)).foldl add empty

/-- **What is kept**: the fold over the day's events, none of them of a later day. -/
structure Keeps (d : D) (acc : A) (events : List E) : Prop where
  acc : acc = ofDay day add empty d events
  past : ∀ e ∈ events, day e ≤ d

variable {day add empty} {d : D} {acc : A} {events : List E}

theorem Keeps.nil (d : D) : Keeps day add empty d empty [] := ⟨rfl, nofun⟩

/-- An event of the day is added. -/
theorem Keeps.snoc (h : Keeps day add empty d acc events) {e : E} (he : day e = d) :
    Keeps day add empty d (add acc e) (events ++ [e]) := by
  refine ⟨?_, ?_⟩
  · rw [h.acc, ofDay, ofDay, List.filter_append, List.foldl_append]
    simp [he]
  · intro x hx
    rcases List.mem_append.mp hx with hx | hx
    · exact h.past x hx
    · rw [List.mem_singleton.mp hx, he]

/-- A later day has had none. -/
theorem ofDay_of_past {d' : D} (h : ∀ e ∈ events, day e ≤ d) (hd : d < d') :
    ofDay day add empty d' events = empty := by
  have hnone : events.filter (fun e => decide (day e = d')) = [] := by
    refine List.filter_eq_nil_iff.mpr fun e he heq => ?_
    exact absurd (of_decide_eq_true heq) ((h e he).trans_lt hd).ne
  rw [ofDay, hnone]
  rfl

/-- The day turns, and what was kept is cleared. -/
theorem Keeps.turn (h : Keeps day add empty d acc events) {d' : D} (hd : d < d') :
    Keeps day add empty d' empty events :=
  ⟨(ofDay_of_past h.past hd).symm, fun e he => (h.past e he).trans hd.le⟩

end DayFold
