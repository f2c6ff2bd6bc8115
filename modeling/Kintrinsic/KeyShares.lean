import Mathlib

/-! # Shares of a total

The entries of a list weigh something and belong to somebody.  What everybody holds adds up to the
whole, so that the one who holds the most holds an equal share of it at least. -/
namespace KeyShares

variable {α κ : Type} [DecidableEq κ] (key : α → κ) (weight : α → Nat)

/-- What one key's entries weigh. -/
def share (l : List α) (k : κ) : Nat := ((l.filter fun a => key a = k).map weight).sum

@[simp] theorem share_nil (k : κ) : share key weight [] k = 0 := rfl

@[simp] theorem share_cons (a : α) (l : List α) (k : κ) :
    share key weight (a :: l) k = (if key a = k then weight a else 0) + share key weight l k := by
  unfold share
  by_cases h : key a = k
  · rw [List.filter_cons_of_pos (by simpa using h), List.map_cons, List.sum_cons, if_pos h]
  · rw [List.filter_cons_of_neg (by simpa using h), if_neg h, Nat.zero_add]

@[simp] theorem share_append (l l' : List α) (k : κ) :
    share key weight (l ++ l') k = share key weight l k + share key weight l' k := by
  unfold share
  rw [List.filter_append, List.map_append, List.sum_append]

variable {key weight} {l : List α} {m : Finset κ}

/-- **The shares are the whole.** -/
theorem sum_share (h : ∀ a ∈ l, key a ∈ m) :
    ∑ k ∈ m, share key weight l k = (l.map weight).sum := by
  induction l with
  | nil => exact Finset.sum_eq_zero fun _ _ => rfl
  | cons a l ih =>
    have hrest := ih fun b hb => h b (List.mem_cons_of_mem a hb)
    have hself : ∑ k ∈ m, (if key a = k then weight a else 0) = weight a := by
      rw [Finset.sum_ite_eq, if_pos (h a List.mem_cons_self)]
    simp only [share_cons]
    rw [Finset.sum_add_distrib, hself, hrest, List.map_cons, List.sum_cons]

/-- **Whoever holds the most holds an equal share.** -/
theorem total_le (h : ∀ a ∈ l, key a ∈ m) {b : Nat} (hb : ∀ k ∈ m, share key weight l k ≤ b) :
    (l.map weight).sum ≤ m.card * b := by
  rw [← sum_share h]
  exact Finset.sum_le_card_nsmul m _ b hb

/-- Who holds nothing of what has gone holds what he held. -/
theorem share_of_forall_ne {k : κ} (h : ∀ a ∈ l, key a ≠ k) : share key weight l k = 0 := by
  unfold share
  rw [List.filter_eq_nil_iff.mpr fun a ha => by simpa using h a ha]
  rfl

/-! ## The first of the greatest -/

variable {β : Type} (f : β → Nat)

/-- One candidate more: it wins where it is strictly greater. -/
def better (best : Option β) (b : β) : Option β :=
  match best with
  | none => some b
  | some a => if f a < f b then some b else some a

/-- The first of the greatest. -/
def greatest (bs : List β) : Option β := bs.foldl (better f) none

variable {f} {bs : List β} {a : β}

theorem foldl_better (best : Option β) (h : bs.foldl (better f) best = some a) :
    (a ∈ bs ∨ best = some a) ∧ (∀ b ∈ bs, f b ≤ f a) ∧ ∀ b ∈ best, f b ≤ f a := by
  induction bs generalizing best with
  | nil =>
    refine ⟨.inr h, fun b hb => absurd hb List.not_mem_nil, fun b hb => ?_⟩
    rw [Option.mem_def.mp hb] at h
    exact (congrArg f (Option.some.inj h)).le
  | cons b bs ih =>
    obtain ⟨hfrom, hrest, hbest⟩ := ih (better f best b) h
    -- the candidate and what it was put beside are both no greater
    have hboth : f b ≤ f a ∧ ∀ c ∈ best, f c ≤ f a := by
      cases best with
      | none => exact ⟨hbest b rfl, fun c hc => by cases hc⟩
      | some c =>
        unfold better at hbest
        dsimp only at hbest
        split at hbest
        · rename_i hlt
          have hb := hbest b rfl
          refine ⟨hb, fun d hd => ?_⟩
          obtain rfl := Option.some.inj hd
          exact hlt.le.trans hb
        · rename_i hle
          have hc := hbest c rfl
          refine ⟨(Nat.le_of_not_lt hle).trans hc, fun d hd => ?_⟩
          obtain rfl := Option.some.inj hd
          exact hc
    refine ⟨?_, fun c hc => ?_, hboth.2⟩
    · rcases hfrom with hmem | heq
      · exact .inl (List.mem_cons_of_mem b hmem)
      · unfold better at heq
        split at heq
        · obtain rfl := Option.some.inj heq
          exact .inl List.mem_cons_self
        · split at heq
          · obtain rfl := Option.some.inj heq
            exact .inl List.mem_cons_self
          · exact .inr heq
    · rcases List.mem_cons.mp hc with rfl | hc
      · exact hboth.1
      · exact hrest c hc

/-- **What is found is in the list, and nothing in it is greater.** -/
theorem greatest_spec (h : greatest f bs = some a) : a ∈ bs ∧ ∀ b ∈ bs, f b ≤ f a := by
  obtain ⟨hfrom, hall, -⟩ := foldl_better none h
  refine ⟨?_, hall⟩
  rcases hfrom with hmem | hnone
  · exact hmem
  · cases hnone

theorem better_isSome (best : Option β) (b : β) : (better f best b).isSome = true := by
  unfold better
  split
  · rfl
  · split
    · rfl
    · rfl

theorem greatest_eq_none (h : greatest f bs = none) : bs = [] := by
  rcases List.eq_nil_or_concat' bs with hnil | ⟨init, b, rfl⟩
  · exact hnil
  · unfold greatest at h
    rw [List.foldl_append, List.foldl_cons, List.foldl_nil] at h
    have hsome := better_isSome (f := f) (init.foldl (better f) none) b
    rw [h] at hsome
    cases hsome

end KeyShares
