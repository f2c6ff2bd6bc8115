import Mathlib.Data.List.Basic
import Mathlib.Data.List.Forall2
import Mathlib.Data.List.GetD
import Mathlib.Tactic.IntervalCases

/-! # Three bytes in four sextets

The grouping behind a base-64 text: a list written four at a time, and a number of twenty-four
bits as three bytes or as four sextets, each of the two read back from the number. -/
namespace SextetGroups

variable {α β : Type}

/-! ## Four at a time -/

/-- The list of `m` groups of four. -/
def quads (m : Nat) (f : Nat → Nat → α) : List α :=
  (List.range m).flatMap fun q => [f q 0, f q 1, f q 2, f q 3]

theorem quads_succ (m : Nat) (f : Nat → Nat → α) :
    quads (m + 1) f = quads m f ++ [f m 0, f m 1, f m 2, f m 3] := by
  rw [quads, List.range_succ, List.flatMap_append]
  rfl

theorem length_quads (m : Nat) (f : Nat → Nat → α) : (quads m f).length = 4 * m := by
  induction m with
  | zero => rfl
  | succ m ih =>
    rw [quads_succ, List.length_append, ih]
    rfl

/-- Each group stands where it was written. -/
theorem getD_quads {m : Nat} (f : Nat → Nat → α) {q r : Nat} (hq : q < m) (hr : r < 4) (d : α) :
    (quads m f).getD (4 * q + r) d = f q r := by
  induction m with
  | zero => cases hq
  | succ m ih =>
    rw [quads_succ]
    rcases Nat.lt_succ_iff_lt_or_eq.mp hq with hlt | rfl
    · rw [List.getD_append _ _ _ _ (by rw [length_quads]; omega)]
      exact ih hlt
    · rw [List.getD_append_right _ _ _ _ (by rw [length_quads]; omega), length_quads,
        Nat.add_sub_cancel_left]
      interval_cases r <;> rfl

/-- A list of groups of four is the quads it reads. -/
theorem eq_quads {l : List α} {m : Nat} (h : l.length = 4 * m) (d : α) :
    l = quads m fun q r => l.getD (4 * q + r) d := by
  refine List.ext_getElem (by rw [length_quads, h]) ?_
  intro i hi hi'
  have hdiv : 4 * (i / 4) + i % 4 = i := Nat.div_add_mod i 4
  have hquad := getD_quads (m := m) (fun q r => l.getD (4 * q + r) d) (q := i / 4) (r := i % 4)
    (by omega) (by omega) d
  rw [hdiv, List.getD_eq_getElem _ _ hi', List.getD_eq_getElem _ _ hi] at hquad
  exact hquad.symm

theorem map_quads (g : α → β) (m : Nat) (f : Nat → Nat → α) :
    (quads m f).map g = quads m fun q r => g (f q r) := by
  rw [quads, List.map_flatMap]
  rfl

theorem quads_congr {m : Nat} {f g : Nat → Nat → α} (h : ∀ q < m, ∀ r < 4, f q r = g q r) :
    quads m f = quads m g := by
  unfold quads
  refine List.flatMap_congr ?_
  intro q hq
  have hq' := List.mem_range.mp hq
  rw [h q hq' 0 (by decide), h q hq' 1 (by decide), h q hq' 2 (by decide), h q hq' 3 (by decide)]

/-! ## Twenty-four bits -/

def ofOctets (b : Nat → Nat) : Nat := b 0 * 2 ^ 16 + b 1 * 2 ^ 8 + b 2

def ofSextets (v : Nat → Nat) : Nat := v 0 * 2 ^ 18 + v 1 * 2 ^ 12 + v 2 * 2 ^ 6 + v 3

def octet (n r : Nat) : Nat := n / 2 ^ (16 - 8 * r) % 256

def sextetAt (n r : Nat) : Nat := n / 2 ^ (18 - 6 * r) % 64

theorem ofOctets_lt {b : Nat → Nat} (h : ∀ r < 3, b r < 256) : ofOctets b < 2 ^ 24 := by
  have h0 := h 0 (by decide)
  have h1 := h 1 (by decide)
  have h2 := h 2 (by decide)
  unfold ofOctets
  omega

theorem ofSextets_lt {v : Nat → Nat} (h : ∀ r < 4, v r < 64) : ofSextets v < 2 ^ 24 := by
  have h0 := h 0 (by decide)
  have h1 := h 1 (by decide)
  have h2 := h 2 (by decide)
  have h3 := h 3 (by decide)
  unfold ofSextets
  omega

theorem sextetAt_lt (n r : Nat) : sextetAt n r < 64 := Nat.mod_lt _ (by decide)

theorem ofSextets_sextetAt {n : Nat} (h : n < 2 ^ 24) : ofSextets (sextetAt n) = n := by
  simp only [ofSextets, sextetAt]
  omega

theorem ofOctets_octet {n : Nat} (h : n < 2 ^ 24) : ofOctets (octet n) = n := by
  simp only [ofOctets, octet]
  omega

theorem sextetAt_ofSextets {v : Nat → Nat} (h : ∀ r < 4, v r < 64) {r : Nat} (hr : r < 4) :
    sextetAt (ofSextets v) r = v r := by
  have h0 := h 0 (by decide)
  have h1 := h 1 (by decide)
  have h2 := h 2 (by decide)
  have h3 := h 3 (by decide)
  interval_cases r <;> simp only [ofSextets, sextetAt] <;> omega

theorem octet_ofOctets {b : Nat → Nat} (h : ∀ r < 3, b r < 256) {r : Nat} (hr : r < 3) :
    octet (ofOctets b) r = b r := by
  have h0 := h 0 (by decide)
  have h1 := h 1 (by decide)
  have h2 := h 2 (by decide)
  interval_cases r <;> simp only [ofOctets, octet] <;> omega

/-! ## Reading a list whole -/

/-- A list is read when each of its members is. -/
theorem mapM_eq_some_iff (f : α → Option β) (l : List α) (v : List β) :
    l.mapM f = some v ↔ List.Forall₂ (fun a b => f a = some b) l v := by
  induction l generalizing v with
  | nil =>
    rw [List.forall₂_nil_left_iff, List.mapM_nil]
    exact ⟨fun h => (Option.some.inj h).symm, fun h => congrArg some h.symm⟩
  | cons a l ih =>
    rw [List.mapM_cons, Option.bind_eq_bind, Option.bind_eq_some_iff, List.forall₂_cons_left_iff]
    refine exists_congr fun b => ?_
    rw [exists_and_left]
    refine and_congr_right fun _ => ?_
    rw [Option.bind_eq_bind, Option.bind_eq_some_iff]
    refine exists_congr fun vs => and_congr (ih vs) ?_
    exact ⟨fun h => (Option.some.inj h).symm, fun h => congrArg some h.symm⟩

/-- A list that is read whole is read whole in another way that reads each of its members. -/
theorem exists_mapM {γ : Type} {f : α → Option β} {g : α → Option γ} {R : β → γ → Prop}
    {l : List α} {v : List β} (h : l.mapM f = some v)
    (hg : ∀ a ∈ l, ∀ b ∈ v, f a = some b → ∃ c, g a = some c ∧ R b c) :
    ∃ w, l.mapM g = some w ∧ List.Forall₂ R v w := by
  rw [mapM_eq_some_iff] at h
  induction h with
  | nil => exact ⟨[], rfl, .nil⟩
  | cons hab _ ih =>
    obtain ⟨c, hc, hR⟩ := hg _ List.mem_cons_self _ List.mem_cons_self hab
    obtain ⟨w, hw, hRs⟩ := ih fun a ha b hb =>
      hg a (List.mem_cons_of_mem _ ha) b (List.mem_cons_of_mem _ hb)
    refine ⟨c :: w, ?_, .cons hR hRs⟩
    rw [List.mapM_cons, hc, hw]
    rfl

/-- What stands in a list that was read was read from a member. -/
theorem exists_of_forall₂ {R : α → β → Prop} {l : List α} {v : List β} (h : List.Forall₂ R l v)
    {b : β} (hb : b ∈ v) : ∃ a ∈ l, R a b := by
  induction h with
  | nil => cases hb
  | cons hab _ ih =>
    rcases List.mem_cons.mp hb with rfl | hb
    · exact ⟨_, List.mem_cons_self, hab⟩
    · obtain ⟨a, ha, hR⟩ := ih hb
      exact ⟨a, List.mem_cons_of_mem _ ha, hR⟩

end SextetGroups
