import Kintrinsic.GuardedRun
import Mathlib.Data.List.Chain
import Mathlib.Data.List.Forall2

/-! # Runs that emit effects

A step of a reactive program takes an input and emits effects in an order.  A run keeps each
input beside what it emitted; what every step does to an observer of the effects, a run does
to it.  A one-shot observer is spent by the effects it fires on and fresh again after those
that re-arm it. -/
namespace EffectRun

open GuardedRun

variable {σ ι ε : Type} (step : σ → ι → σ × List ε)

/-- The last state, and every input with the effects it emitted. -/
def run : σ → List ι → σ × List (ι × List ε)
  | s, [] => (s, [])
  | s, i :: is => ((run (step s i).1 is).1, (i, (step s i).2) :: (run (step s i).1 is).2)

/-- The effects of a run, in the order they were emitted. -/
def effects (s : σ) (is : List ι) : List ε := ((run step s is).2.map Prod.snd).flatten

@[simp] theorem effects_nil (s : σ) : effects step s [] = [] := rfl

@[simp] theorem effects_cons (s : σ) (i : ι) (is : List ι) :
    effects step s (i :: is) = (step s i).2 ++ effects step (step s i).1 is := rfl

variable {step}

theorem run_append_singleton (s : σ) (is : List ι) (i : ι) :
    (run step s (is ++ [i])).1 = (step (run step s is).1 i).1 := by
  induction is generalizing s with
  | nil => rfl
  | cons j is ih => exact ih _

theorem run_entries_append_singleton (s : σ) (is : List ι) (i : ι) :
    (run step s (is ++ [i])).2 = (run step s is).2 ++ [(i, (step (run step s is).1 i).2)] := by
  induction is generalizing s with
  | nil => rfl
  | cons j is ih => exact congrArg (List.cons _) (ih _)

/-- The last state is that of the plain run. -/
theorem run_state (s : σ) (is : List ι) :
    (run step s is).1 = is.foldl (fun s i => (step s i).1) s := by
  induction is generalizing s with
  | nil => rfl
  | cons i is ih => exact ih _

theorem effects_append (s : σ) (is js : List ι) :
    effects step s (is ++ js) = effects step s is ++ effects step (run step s is).1 js := by
  induction is generalizing s with
  | nil => rfl
  | cons i is ih => rw [List.cons_append, effects_cons, effects_cons, ih, List.append_assoc]; rfl

/-- What a run emits was emitted by one of its steps. -/
theorem mem_effects {s : σ} {is : List ι} {x : ε} (h : x ∈ effects step s is) :
    ∃ js i ks, is = js ++ i :: ks ∧ x ∈ (step (run step s js).1 i).2 := by
  induction is generalizing s with
  | nil => cases h
  | cons i is ih =>
    rcases List.mem_append.mp (effects_cons step s i is ▸ h) with h | h
    · exact ⟨[], i, is, rfl, h⟩
    · obtain ⟨js, k, ks, rfl, hx⟩ := ih h
      exact ⟨i :: js, k, ks, rfl, hx⟩

/-- What holds of the effects of every step from every state holds in every entry of a run. -/
theorem run_entries {P : ι → List ε → Prop} (h : ∀ s i, P i (step s i).2) {s : σ} {is : List ι} :
    ∀ t ∈ (run step s is).2, P t.1 t.2 := by
  induction is generalizing s with
  | nil =>
    intro t ht
    cases ht
  | cons i is ih =>
    intro t ht
    rcases List.mem_cons.mp ht with rfl | ht
    · exact h s i
    · exact ih t ht

/-- **Observer rule, of runs that obey a guard.**  If from related states every admitted step is
seen as an obedient run of the observer and ends in related states, then so is every run. -/
theorem effects_obey_of {τ : Type} {see : τ → ε → τ} {G : τ → ε → Prop} {R : σ → τ → Prop}
    {K : σ → ι → Prop} (h : ∀ s t i, K s i → R s t →
      Obeys see G t (step s i).2 ∧ R (step s i).1 ((step s i).2.foldl see t))
    {s : σ} {t : τ} (hst : R s t) {is : List ι} (hK : Obeys (fun s i => (step s i).1) K s is) :
    Obeys see G t (effects step s is) := by
  induction is generalizing s t with
  | nil => trivial
  | cons i is ih =>
    obtain ⟨hadmits, hrest⟩ := hK
    obtain ⟨hobeys, hnext⟩ := h s t i hadmits hst
    rw [effects_cons, obeys_append]
    exact ⟨hobeys, ih hnext hrest⟩

/-- **Observer rule, for the end of a run.**  If every admitted step takes related states to
related states, so does every run. -/
theorem effects_related_of {τ : Type} {see : τ → ε → τ} {R : σ → τ → Prop} {K : σ → ι → Prop}
    (h : ∀ s t i, K s i → R s t → R (step s i).1 ((step s i).2.foldl see t))
    {s : σ} {t : τ} (hst : R s t) {is : List ι} (hK : Obeys (fun s i => (step s i).1) K s is) :
    R (run step s is).1 ((effects step s is).foldl see t) := by
  induction is generalizing s t with
  | nil => exact hst
  | cons i is ih =>
    obtain ⟨hadmits, hrest⟩ := hK
    rw [effects_cons, List.foldl_append]
    exact ih (h s t i hadmits hst) hrest

/-- **Observer rule.**  If from related states every step is seen as an obedient run of the
observer and ends in related states, then so is every run. -/
theorem effects_obey {τ : Type} {see : τ → ε → τ} {G : τ → ε → Prop} {R : σ → τ → Prop}
    (h : ∀ s t i, R s t → Obeys see G t (step s i).2 ∧ R (step s i).1 ((step s i).2.foldl see t))
    {s : σ} {t : τ} (hst : R s t) (is : List ι) : Obeys see G t (effects step s is) := by
  have hall : Obeys (fun s i => (step s i).1) (fun _ _ => True) s is := obeys_true is
  exact effects_obey_of (fun s t i _ => h s t i) hst hall

/-! ## One-shot observers -/

variable (fires rearms : ε → Bool)

/-- Whether the shot is spent after an effect. -/
def spend (spent : Bool) (e : ε) : Bool :=
  if fires e then true else if rearms e then false else spent

/-- It fires only when it is not spent. -/
def Fresh (spent : Bool) (e : ε) : Prop := fires e = true → spent = false

variable {fires rearms}

/-- Effects it does not fire on need no shot. -/
theorem obeys_of_silent {spent : Bool} {es : List ε} (h : ∀ e ∈ es, fires e = false) :
    Obeys (spend fires rearms) (Fresh fires) spent es := by
  induction es generalizing spent with
  | nil => trivial
  | cons e es ih =>
    refine ⟨?_, ih fun e' he' => h e' (List.mem_cons_of_mem _ he')⟩
    intro hfires
    rw [h e List.mem_cons_self] at hfires
    cases hfires

theorem spend_stays {es : List ε} (h : ∀ e ∈ es, rearms e = false) :
    es.foldl (spend fires rearms) true = true := by
  induction es with
  | nil => rfl
  | cons e es ih =>
    have he : spend fires rearms true e = true := by simp [spend, h e List.mem_cons_self]
    rw [List.foldl_cons, he]
    exact ih fun e' he' => h e' (List.mem_cons_of_mem _ he')

/-- **Between two firings it was re-armed.** -/
theorem rearmed_between {spent : Bool} {as bs cs : List ε} {x y : ε}
    (h : Obeys (spend fires rearms) (Fresh fires) spent (as ++ x :: bs ++ y :: cs))
    (hx : fires x = true) (hy : fires y = true) : ∃ e ∈ bs, rearms e = true := by
  by_contra hnone
  push Not at hnone
  have hquiet : ∀ e ∈ bs, rearms e = false := by
    intro e he
    simpa using hnone e he
  rw [List.append_assoc, obeys_append, List.cons_append, obeys_cons, obeys_append] at h
  obtain ⟨-, -, hrest⟩ := h
  have hspent : spend fires rearms (as.foldl (spend fires rearms) spent) x = true := if_pos hx
  rw [hspent, spend_stays hquiet] at hrest
  exact absurd (hrest.2.1 hy) (by decide)

end EffectRun

/-! # Machines in lockstep

A machine takes inputs one at a time and answers each.  Two runs that start in related states
and are fed related inputs give related answers all the way, when one step does. -/
namespace Lockstep

variable {S S' I I' O O' : Type} (step : S → I → S × O) (step' : S' → I' → S' × O')

/-- The state that a run ends in. -/
def final (s : S) (is : List I) : S := is.foldl (fun s i => (step s i).1) s

/-- The answers of a run. -/
def outputs : S → List I → List O
  | _, [] => []
  | s, i :: is => (step s i).2 :: outputs (step s i).1 is

variable {R : S → S' → Prop} {RI : I → I' → Prop} {RO : O → O' → Prop} {s : S} {s' : S'}
  {is : List I} {is' : List I'}

variable {step step'} in
/-- **Lockstep.**  The induction is on the inputs, and carries the relation between the states. -/
theorem outputs_related
    (hstep : ∀ s s' i i', R s s' → RI i i' →
      R (step s i).1 (step' s' i').1 ∧ RO (step s i).2 (step' s' i').2)
    (hs : R s s') (his : List.Forall₂ RI is is') :
    List.Forall₂ RO (outputs step s is) (outputs step' s' is') := by
  induction his generalizing s s' with
  | nil => exact .nil
  | cons hi _ ih =>
    obtain ⟨hnext, hout⟩ := hstep _ _ _ _ hs hi
    exact .cons hout (ih hnext)

end Lockstep

/-! # Alternation

A signal that is reported only when it changes is reported by turns: up, down, up.  `Flips b us c`
says that the reports `us` take the signal from `b` to `c`, each of them a change. -/
namespace Alternation

/-- The reports take the signal from one value to the other, each a change. -/
def Flips : Bool → List Bool → Bool → Prop
  | b, [], c => b = c
  | b, u :: us, c => b ≠ u ∧ Flips u us c

variable {b c d : Bool} {us vs : List Bool}

theorem Flips.refl (b : Bool) : Flips b [] b := rfl

theorem Flips.one (h : b ≠ c) : Flips b [c] c := ⟨h, rfl⟩

/-- After an alternating beginning, the rest has to alternate. -/
theorem Flips.append_iff (h : Flips b us c) : Flips b (us ++ vs) d ↔ Flips c vs d := by
  induction us generalizing b with
  | nil =>
    obtain rfl : b = c := h
    rfl
  | cons u us ih =>
    obtain ⟨hne, hrest⟩ := h
    constructor
    · rintro ⟨-, hd⟩
      exact (ih hrest).mp hd
    · intro hd
      exact ⟨hne, (ih hrest).mpr hd⟩

theorem Flips.append (h : Flips b us c) (h' : Flips c vs d) : Flips b (us ++ vs) d :=
  h.append_iff.mpr h'

/-- A report of what already is breaks the alternation. -/
theorem not_flips_same : ¬Flips b (b :: us) c := fun h => h.1 rfl

/-- **Flips, spelled out**: neighbours differ, the first from the start, and the last is the end. -/
theorem flips_iff : Flips b us c ↔ (b :: us).IsChain (· ≠ ·) ∧ us.getLast?.getD b = c := by
  induction us generalizing b with
  | nil =>
    constructor
    · intro h
      exact ⟨List.isChain_singleton b, h⟩
    · rintro ⟨-, h⟩
      exact h
  | cons u us ih =>
    have hlast : (u :: us).getLast?.getD b = us.getLast?.getD u := by
      cases us with
      | nil => rfl
      | cons v vs =>
        rw [List.getLast?_cons_cons, List.getLast?_cons, Option.getD_some, Option.getD_some]
    rw [Flips, ih, List.isChain_cons_cons, hlast, and_assoc]

/-- A signal that was down is up when the last report says so. -/
theorem last_iff (us : List Bool) (c : Bool) :
    us.getLast?.getD false = c ↔ (us.getLast? = some true ↔ c = true) := by
  cases us.getLast? with
  | none => simp
  | some b =>
    rw [Option.getD_some, Option.some.injEq]
    exact Bool.eq_iff_iff

end Alternation

/-! # Loops that may be left

A loop takes inputs in turn, and any turn may leave it; the inputs after that are not looked at.  What
every turn that stays preserves holds until then, and inputs that do nothing may be struck out. -/

/-- One turn of a loop: the state after it, what it wrote, and how the loop was left if it was. -/
structure Turn (σ ω ε : Type) where
  state : σ
  writes : List ω
  left : Option ε

namespace TurnLoop

variable {σ ι ω ε : Type} (step : σ → ι → Turn σ ω ε)

/-- The turns of a list of inputs, up to the one that leaves the loop. -/
def loop (s : σ) : List ι → Turn σ ω ε
  | [] => ⟨s, [], none⟩
  | i :: is =>
    let t := step s i
    if t.left.isSome then t
    else
      let rest := loop t.state is
      ⟨rest.state, t.writes ++ rest.writes, rest.left⟩

variable {step} {s : σ} {i : ι} {is js : List ι}

theorem loop_cons_of_left (h : (step s i).left ≠ none) : loop step s (i :: is) = step s i :=
  if_pos (Option.isSome_iff_ne_none.mpr h)

theorem loop_cons_of_stays (h : (step s i).left = none) : loop step s (i :: is) =
    ⟨(loop step (step s i).state is).state, (step s i).writes ++ (loop step (step s i).state is).writes,
      (loop step (step s i).state is).left⟩ :=
  if_neg (by rw [h]; exact Bool.false_ne_true)

/-- A loop that is not left goes on from where it is. -/
theorem loop_append (h : (loop step s is).left = none) : loop step s (is ++ js) =
    ⟨(loop step (loop step s is).state js).state,
      (loop step s is).writes ++ (loop step (loop step s is).state js).writes,
      (loop step (loop step s is).state js).left⟩ := by
  induction is generalizing s with
  | nil => rfl
  | cons i is ih =>
    by_cases hi : (step s i).left = none
    · rw [loop_cons_of_stays hi] at h ⊢
      rw [List.cons_append, loop_cons_of_stays hi, ih h]
      simp only [List.append_assoc]
    · rw [loop_cons_of_left hi] at h
      exact absurd h hi

/-- One that is left stays so. -/
theorem loop_append_of_left (h : (loop step s is).left ≠ none) :
    loop step s (is ++ js) = loop step s is := by
  induction is generalizing s with
  | nil => exact absurd rfl h
  | cons i is ih =>
    by_cases hi : (step s i).left = none
    · rw [loop_cons_of_stays hi] at h ⊢
      rw [List.cons_append, loop_cons_of_stays hi, ih h]
    · rw [List.cons_append, loop_cons_of_left hi, loop_cons_of_left hi]

theorem stays_of_append (h : (loop step s (is ++ js)).left = none) :
    (loop step s is).left = none := by
  by_contra hleft
  rw [loop_append_of_left hleft] at h
  exact hleft h

theorem loop_snoc (h : (loop step s is).left = none) : loop step s (is ++ [i]) =
    ⟨(step (loop step s is).state i).state,
      (loop step s is).writes ++ (step (loop step s is).state i).writes,
      (step (loop step s is).state i).left⟩ := by
  rw [loop_append h]
  by_cases hi : (step (loop step s is).state i).left = none
  · rw [loop_cons_of_stays hi, hi]
    show (⟨_, _ ++ (_ ++ []), none⟩ : Turn σ ω ε) = _
    rw [List.append_nil]
    rfl
  · rw [loop_cons_of_left hi]

/-- **Where a loop is left.**  All its turns stay, or all of them up to one that does not. -/
theorem left_or_stays (step : σ → ι → Turn σ ω ε) (s : σ) (is : List ι) :
    (loop step s is).left = none ∨ ∃ pre i post, is = pre ++ i :: post ∧
      (loop step s pre).left = none ∧ (step (loop step s pre).state i).left ≠ none ∧
      loop step s is = ⟨(step (loop step s pre).state i).state,
        (loop step s pre).writes ++ (step (loop step s pre).state i).writes,
        (step (loop step s pre).state i).left⟩ := by
  induction is using List.reverseRecOn with
  | nil => exact .inl rfl
  | append_singleton is i ih =>
    rcases ih with hstays | ⟨pre, j, post, rfl, hpre, hleft, hloop⟩
    · by_cases hi : (step (loop step s is).state i).left = none
      · rw [loop_snoc hstays]
        exact .inl hi
      · exact .inr ⟨is, i, [], rfl, hstays, hi, loop_snoc hstays⟩
    · refine .inr ⟨pre, j, post ++ [i], ?_, hpre, hleft, ?_⟩
      · rw [List.append_assoc, List.cons_append]
      · rw [loop_append_of_left (by rw [hloop]; exact hleft), hloop]

variable (step) in
/-- **What every turn that stays preserves** holds while the loop is not left. -/
theorem invariant {I : List ι → List ω → σ → Prop} (h : I [] [] s)
    (hstep : ∀ is ws s i, I is ws s → (step s i).left = none →
      I (is ++ [i]) (ws ++ (step s i).writes) (step s i).state)
    (hstays : (loop step s is).left = none) :
    I is (loop step s is).writes (loop step s is).state := by
  induction is using List.reverseRecOn with
  | nil => exact h
  | append_singleton is i ih =>
    have hbefore := stays_of_append hstays
    rw [loop_snoc hbefore] at hstays ⊢
    exact hstep is _ _ i (ih hbefore) hstays

variable (step) in
/-- What every turn preserves, whether it stays or not, holds of what was taken in. -/
theorem reached {I : List ι → List ω → σ → Prop} (h : I [] [] s)
    (hstep : ∀ is ws s i, I is ws s → I (is ++ [i]) (ws ++ (step s i).writes) (step s i).state)
    (is : List ι) :
    ∃ heard, heard <+: is ∧ I heard (loop step s is).writes (loop step s is).state := by
  have hstays : ∀ {is}, (loop step s is).left = none →
      I is (loop step s is).writes (loop step s is).state :=
    invariant step h fun is ws s i hi _ => hstep is ws s i hi
  rcases left_or_stays step s is with hnone | ⟨pre, i, post, rfl, hpre, -, hloop⟩
  · exact ⟨is, List.prefix_refl _, hstays hnone⟩
  · refine ⟨pre ++ [i], ⟨post, by simp⟩, ?_⟩
    rw [hloop]
    exact hstep _ _ _ i (hstays hpre)

/-- Inputs at which nothing happens change nothing. -/
theorem loop_idle (h : ∀ i ∈ is, step s i = ⟨s, [], none⟩) (js : List ι) :
    loop step s (is ++ js) = loop step s js := by
  induction is with
  | nil => rfl
  | cons i is ih =>
    have hi := h i List.mem_cons_self
    rw [List.cons_append, loop_cons_of_stays (by rw [hi]), hi, ih fun j hj =>
      h j (List.mem_cons_of_mem _ hj)]
    rfl

/-- **Inputs that do nothing may be struck out.** -/
theorem loop_filter {p : ι → Bool} (h : ∀ s i, p i = false → step s i = ⟨s, [], none⟩) (s : σ)
    (is : List ι) : loop step s (is.filter p) = loop step s is := by
  induction is generalizing s with
  | nil => rfl
  | cons i is ih =>
    cases hp : p i with
    | false =>
      rw [List.filter_cons_of_neg (by rw [hp]; exact Bool.false_ne_true), ih,
        loop_cons_of_stays (by rw [h s i hp]), h s i hp]
      rfl
    | true =>
      rw [List.filter_cons_of_pos hp]
      by_cases hi : (step s i).left = none
      · rw [loop_cons_of_stays hi, loop_cons_of_stays hi, ih]
      · rw [loop_cons_of_left hi, loop_cons_of_left hi]

end TurnLoop
