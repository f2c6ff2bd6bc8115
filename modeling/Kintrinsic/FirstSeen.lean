import Mathlib.Data.List.Basic
import Mathlib.Data.List.Induction
import Mathlib.Data.List.Nodup
import Mathlib.Data.List.Perm.Basic

/-! # First uses

Of a sequence of calls under ids, those that count are the ones whose id has not been
seen: neither in an initial list nor earlier in the sequence. -/
namespace FirstUse

variable {K C : Type} [DecidableEq K] (idOf : C → K)

/-- The calls that count, in order. -/
def firstUses : List K → List C → List C
  | _, [] => []
  | seen, c :: cs =>
    if idOf c ∈ seen then firstUses seen cs else c :: firstUses (seen ++ [idOf c]) cs

variable {idOf} {seen : List K} {c : C} {cs : List C}

theorem firstUses_cons_of_mem (h : idOf c ∈ seen) :
    firstUses idOf seen (c :: cs) = firstUses idOf seen cs := if_pos h

theorem firstUses_cons_of_not_mem (h : idOf c ∉ seen) :
    firstUses idOf seen (c :: cs) = c :: firstUses idOf (seen ++ [idOf c]) cs := if_neg h

theorem not_mem_of_mem_firstUses (h : c ∈ firstUses idOf seen cs) : idOf c ∉ seen := by
  induction cs generalizing seen with
  | nil => cases h
  | cons d cs ih =>
    by_cases hd : idOf d ∈ seen
    · rw [firstUses_cons_of_mem hd] at h
      exact ih h
    · rw [firstUses_cons_of_not_mem hd] at h
      rcases List.mem_cons.mp h with rfl | h
      · exact hd
      · exact fun hc => ih h (List.mem_append_left _ hc)

theorem firstUses_sublist (seen : List K) (cs : List C) : (firstUses idOf seen cs).Sublist cs := by
  induction cs generalizing seen with
  | nil => exact List.Sublist.slnil
  | cons c cs ih =>
    by_cases hc : idOf c ∈ seen
    · rw [firstUses_cons_of_mem hc]
      exact (ih seen).trans (List.sublist_cons_self c cs)
    · rw [firstUses_cons_of_not_mem hc]
      exact (ih _).cons_cons c

/-- A call that does not count came under an id that was seen. -/
theorem mem_firstUses_or (seen : List K) (h : c ∈ cs) :
    c ∈ firstUses idOf seen cs ∨ idOf c ∈ seen ∨
      ∃ d ∈ firstUses idOf seen cs, idOf d = idOf c ∧ d ≠ c := by
  induction cs generalizing seen with
  | nil => cases h
  | cons d cs ih =>
    by_cases hd : idOf d ∈ seen
    · rw [firstUses_cons_of_mem hd]
      rcases List.mem_cons.mp h with rfl | h
      · exact .inr (.inl hd)
      · exact ih seen h
    · rw [firstUses_cons_of_not_mem hd]
      rcases List.mem_cons.mp h with rfl | h
      · exact .inl List.mem_cons_self
      · rcases ih (seen ++ [idOf d]) h with hin | hseen | ⟨e, he, hid, hne⟩
        · exact .inl (List.mem_cons_of_mem _ hin)
        · rcases List.mem_append.mp hseen with hseen | hsame
          · exact .inr (.inl hseen)
          · by_cases hcd : d = c
            · exact .inl (hcd ▸ List.mem_cons_self)
            · exact .inr (.inr ⟨d, List.mem_cons_self, (List.mem_singleton.mp hsame).symm, hcd⟩)
        · exact .inr (.inr ⟨e, List.mem_cons_of_mem _ he, hid, hne⟩)

/-- **Once each.**  No id counts twice. -/
theorem nodup_firstUses (cs : List C) : ((firstUses idOf seen cs).map idOf).Nodup := by
  induction cs generalizing seen with
  | nil => exact List.nodup_nil
  | cons c cs ih =>
    by_cases hc : idOf c ∈ seen
    · rw [firstUses_cons_of_mem hc]
      exact ih
    · rw [firstUses_cons_of_not_mem hc, List.map_cons, List.nodup_cons]
      refine ⟨?_, ih⟩
      intro hmem
      obtain ⟨d, hd, heq⟩ := List.mem_map.mp hmem
      exact not_mem_of_mem_firstUses hd (by rw [heq]; simp)

/-- Calls under distinct ids count unless their id was seen before. -/
theorem firstUses_of_nodup (h : (cs.map idOf).Nodup) :
    firstUses idOf seen cs = cs.filter (fun c => idOf c ∉ seen) := by
  induction cs generalizing seen with
  | nil => rfl
  | cons c cs ih =>
    obtain ⟨hc, hcs⟩ := List.nodup_cons.mp h
    by_cases hmem : idOf c ∈ seen
    · rw [firstUses_cons_of_mem hmem, ih hcs, List.filter_cons_of_neg (by simpa using hmem)]
    · rw [firstUses_cons_of_not_mem hmem, ih hcs, List.filter_cons_of_pos (by simpa using hmem)]
      refine congrArg (c :: ·) (List.filter_congr ?_)
      intro d hd
      have hne : idOf d ≠ idOf c := fun heq => hc (heq ▸ List.mem_map_of_mem hd)
      simp [hne]

/-- Distinct ids may be used in any order. -/
theorem firstUses_perm {cs' : List C} (hperm : cs.Perm cs') (h : (cs.map idOf).Nodup) :
    (firstUses idOf seen cs).Perm (firstUses idOf seen cs') := by
  rw [firstUses_of_nodup h, firstUses_of_nodup ((hperm.map idOf).nodup_iff.mp h)]
  exact hperm.filter _

end FirstUse

/-! # First sights

A history of sightings falls into stretches of one key.  What remembers only the key that was
seen last, with the first sight of it, remembers where the last stretch began. -/
namespace FirstSight

variable {κ τ : Type} [DecidableEq κ]

/-- One sighting more: it is a first unless it has the key of the last first. -/
def see (firsts : List (κ × τ)) (s : κ × τ) : List (κ × τ) :=
  if firsts.getLast?.any fun p => p.1 = s.1 then firsts else firsts ++ [s]

/-- The first sighting of every stretch of one key. -/
def firsts (hist : List (κ × τ)) : List (κ × τ) := hist.foldl see []

/-- The key has been seen since `t` without another in between, and not right before it. -/
def SeenSince (hist : List (κ × τ)) (k : κ) (t : τ) : Prop :=
  ∃ before after, hist = before ++ (k, t) :: after ∧ (∀ s ∈ after, s.1 = k) ∧
    ∀ s ∈ before.getLast?, s.1 ≠ k

theorem firsts_snoc (hist : List (κ × τ)) (s : κ × τ) :
    firsts (hist ++ [s]) = see (firsts hist) s := by
  unfold firsts
  rw [List.foldl_append]
  rfl

/-- The last first has the key of the last sighting. -/
theorem getLast?_firsts_key (hist : List (κ × τ)) :
    (firsts hist).getLast?.map Prod.fst = hist.getLast?.map Prod.fst := by
  induction hist using List.reverseRecOn with
  | nil => rfl
  | append_singleton hist s ih =>
    rw [firsts_snoc, List.getLast?_concat]
    unfold see
    split
    · rename_i h
      cases hlast : (firsts hist).getLast? with
      | none =>
        rw [hlast] at h
        cases h
      | some p =>
        rw [hlast] at h
        exact congrArg some (of_decide_eq_true h)
    · rw [List.getLast?_concat]

/-- **The last first** is where the last stretch began. -/
theorem seenSince_of_getLast? {hist : List (κ × τ)} {k : κ} {t : τ}
    (h : (firsts hist).getLast? = some (k, t)) : SeenSince hist k t := by
  induction hist using List.reverseRecOn generalizing k t with
  | nil => cases h
  | append_singleton hist s ih =>
    have hkey := getLast?_firsts_key hist
    rw [firsts_snoc] at h
    unfold see at h
    split at h
    · rename_i hsame
      obtain ⟨before, after, rfl, hafter, hbefore⟩ := ih h
      refine ⟨before, after ++ [s], by simp, ?_, hbefore⟩
      intro p hp
      rcases List.mem_append.mp hp with hp | hp
      · exact hafter p hp
      · rw [h] at hsame
        rw [List.mem_singleton.mp hp]
        exact (of_decide_eq_true hsame).symm
    · rename_i hnew
      rw [List.getLast?_concat] at h
      obtain rfl := Option.some.inj h
      refine ⟨hist, [], by simp, by simp, ?_⟩
      intro p hp hpk
      rw [Option.mem_def.mp hp] at hkey
      obtain ⟨q, hq, hqp⟩ := Option.map_eq_some_iff.mp hkey
      rw [hq] at hnew
      exact hnew (decide_eq_true (hqp.trans hpk))

end FirstSight
