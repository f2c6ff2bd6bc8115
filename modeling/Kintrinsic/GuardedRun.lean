import Mathlib.Data.List.Basic

/-! # Runs of a deterministic step function

A run is a list of actions folded through a step function.  `Obeys` says that
every action of a run is taken in a state that admits it; an invariant that every
admitted step keeps is then an invariant of every obedient run, and of every
prefix of one. -/
namespace GuardedRun

variable {σ α : Type} (step : σ → α → σ)

/-- Every action of the run is taken in a state that `G` admits it in. -/
def Obeys (G : σ → α → Prop) : σ → List α → Prop
  | _, [] => True
  | s, a :: as => G s a ∧ Obeys G (step s a) as

/-- The guard is decidable along a run when it is decidable at each step. -/
instance decidableObeys (G : σ → α → Prop) [∀ s a, Decidable (G s a)] :
    ∀ (s : σ) (as : List α), Decidable (Obeys step G s as)
  | _, [] => inferInstanceAs (Decidable True)
  | s, a :: as =>
    haveI := decidableObeys G (step s a) as
    inferInstanceAs (Decidable (G s a ∧ Obeys step G (step s a) as))

variable {step} {G H : σ → α → Prop} {s : σ}

@[simp] theorem obeys_nil : Obeys step G s [] := trivial

@[simp] theorem obeys_cons {a : α} {as : List α} :
    Obeys step G s (a :: as) ↔ G s a ∧ Obeys step G (step s a) as := Iff.rfl

theorem obeys_append {as bs : List α} :
    Obeys step G s (as ++ bs) ↔
      Obeys step G s as ∧ Obeys step G (as.foldl step s) bs := by
  induction as generalizing s with
  | nil => simp
  | cons a as ih => simp [ih, and_assoc]

theorem obeys_true (as : List α) : Obeys step (fun _ _ => True) s as := by
  induction as generalizing s with
  | nil => trivial
  | cons a as ih => exact ⟨trivial, ih⟩

/-- A run obeys a guard that holds at each of its actions. -/
theorem obeys_of_split {as : List α}
    (h : ∀ before a later, as = before ++ a :: later → G (before.foldl step s) a) :
    Obeys step G s as := by
  induction as generalizing s with
  | nil => trivial
  | cons a as ih =>
    refine ⟨h [] a as rfl, ih fun before b later hsplit => ?_⟩
    exact h (a :: before) b later (congrArg (a :: ·) hsplit)

theorem Obeys.mono (hGH : ∀ s a, G s a → H s a) {as : List α}
    (h : Obeys step G s as) : Obeys step H s as := by
  induction as generalizing s with
  | nil => trivial
  | cons a as ih => exact ⟨hGH s a h.1, ih h.2⟩

theorem Obeys.and {as : List α} (hG : Obeys step G s as) (hH : Obeys step H s as) :
    Obeys step (fun s a => G s a ∧ H s a) s as := by
  induction as generalizing s with
  | nil => trivial
  | cons a as ih => exact ⟨⟨hG.1, hH.1⟩, ih hG.2 hH.2⟩

/-- **Invariant rule.**  What holds at the start and is kept by every admitted step
holds at the end of every obedient run. -/
theorem Obeys.invariant {I : σ → Prop} (hstep : ∀ s a, I s → G s a → I (step s a))
    {as : List α} (h : Obeys step G s as) (hs : I s) : I (as.foldl step s) := by
  induction as generalizing s with
  | nil => exact hs
  | cons a as ih => exact ih h.2 (hstep s a hs h.1)

/-- Along an obedient run the invariant stands before every action. -/
theorem Obeys.with_invariant {I : σ → Prop} (hstep : ∀ s a, I s → G s a → I (step s a))
    {as : List α} (h : Obeys step G s as) (hs : I s) :
    Obeys step (fun s a => I s ∧ G s a) s as := by
  induction as generalizing s with
  | nil => trivial
  | cons a as ih => exact ⟨⟨hs, h.1⟩, ih h.2 (hstep s a hs h.1)⟩

/-- **Invariant rule, without a guard.** -/
theorem foldl_invariant {I : σ → Prop} (hstep : ∀ s a, I s → I (step s a))
    (as : List α) (hs : I s) : I (as.foldl step s) := by
  induction as generalizing s with
  | nil => exact hs
  | cons a as ih => exact ih (hstep s a hs)

end GuardedRun
