import Mathlib.Data.List.Nodup
import Mathlib.Data.List.Perm.Basic

/-! # Registries of records that carry their own key

A finite map whose values carry their key, so that a record can only stand under its own.  A
store on disk and the map in memory that mirrors it are both registries of one kind of record,
and every operation is known by what it does to a lookup. -/

/-- Records by the key they carry, no key twice. -/
structure Registry {ρ κ : Type} (key : ρ → κ) where
  entries : List ρ
  nodup : (entries.map key).Nodup

namespace Registry
variable {ρ κ : Type} {key : ρ → κ}

def empty : Registry key := ⟨[], List.nodup_nil⟩

/-- Keep the records that satisfy `p`. -/
def filter (m : Registry key) (p : ρ → Bool) : Registry key :=
  ⟨m.entries.filter p, m.nodup.sublist (List.filter_sublist.map key)⟩

/-- Change every record, its key apart. -/
def update (m : Registry key) (f : ρ → ρ) (hf : ∀ r, key (f r) = key r) : Registry key :=
  ⟨m.entries.map f, by
    have hkeys : (m.entries.map f).map key = m.entries.map key := by
      rw [List.map_map]
      exact List.map_congr_left fun r _ => hf r
    rw [hkeys]
    exact m.nodup⟩

variable [DecidableEq κ]

def get? (m : Registry key) (k : κ) : Option ρ := m.entries.find? fun r => key r = k

def remove (m : Registry key) (k : κ) : Registry key := m.filter fun r => key r ≠ k

theorem notMem_keys_remove (m : Registry key) (k : κ) : k ∉ (m.remove k).entries.map key := by
  intro h
  obtain ⟨r, hr, hk⟩ := List.mem_map.mp h
  exact of_decide_eq_true (List.mem_filter.mp hr).2 hk

/-- Store a record, in the place of the one under its key. -/
def put (m : Registry key) (r : ρ) : Registry key :=
  ⟨r :: (m.remove (key r)).entries,
    List.nodup_cons.mpr ⟨m.notMem_keys_remove (key r), (m.remove (key r)).nodup⟩⟩

/-- Store every record of another registry. -/
def putAll (m : Registry key) (rs : Registry key) : Registry key := rs.entries.foldl put m

/-! ## What a lookup finds -/

variable {m : Registry key} {k : κ} {r : ρ}

theorem get?_eq_some : m.get? k = some r ↔ r ∈ m.entries ∧ key r = k := by
  have hfound : ∀ {k r}, m.get? k = some r → r ∈ m.entries ∧ key r = k := by
    intro k r h
    have hk := List.find?_some h
    exact ⟨List.mem_of_find?_eq_some h, of_decide_eq_true hk⟩
  refine ⟨hfound, ?_⟩
  rintro ⟨hmem, rfl⟩
  cases h : m.get? (key r) with
  | none => exact absurd (decide_eq_true rfl) (List.find?_eq_none.mp h r hmem)
  | some r' =>
    obtain ⟨hmem', hkey⟩ := hfound h
    rw [List.inj_on_of_nodup_map m.nodup hmem' hmem hkey]

theorem key_of_get? (h : m.get? k = some r) : key r = k := (get?_eq_some.mp h).2

theorem get?_filter (p : ρ → Bool) : (m.filter p).get? k = (m.get? k).filter p := by
  apply Option.ext
  intro r
  rw [get?_eq_some, filter, List.mem_filter, Option.filter_eq_some_iff, get?_eq_some]
  tauto

theorem get?_update {f : ρ → ρ} (hf : ∀ r, key (f r) = key r) :
    (m.update f hf).get? k = (m.get? k).map f := by
  apply Option.ext
  intro r
  rw [get?_eq_some, update, List.mem_map, Option.map_eq_some_iff]
  constructor
  · rintro ⟨⟨a, ha, rfl⟩, hk⟩
    exact ⟨a, get?_eq_some.mpr ⟨ha, (hf a).symm.trans hk⟩, rfl⟩
  · rintro ⟨a, ha, rfl⟩
    obtain ⟨hmem, hk⟩ := get?_eq_some.mp ha
    exact ⟨⟨a, hmem, rfl⟩, (hf a).trans hk⟩

theorem get?_remove_of_ne {k' : κ} (h : k ≠ k') : (m.remove k').get? k = m.get? k := by
  rw [remove, get?_filter]
  cases hk : m.get? k with
  | none => rfl
  | some r => exact Option.filter_some_pos (by simp [key_of_get? hk, h])

@[simp] theorem get?_put_self (r : ρ) : (m.put r).get? (key r) = some r :=
  List.find?_cons_of_pos (decide_eq_true rfl)

theorem get?_put_of_ne (h : k ≠ key r) : (m.put r).get? k = m.get? k := by
  have hskip : ¬decide (key r = k) = true := by
    rw [decide_eq_true_eq]
    exact Ne.symm h
  calc (m.put r).get? k = (m.remove (key r)).get? k := List.find?_cons_of_neg hskip
    _ = m.get? k := get?_remove_of_ne h

theorem get?_put (r : ρ) : (m.put r).get? k = if k = key r then some r else m.get? k := by
  split
  · rename_i h
    rw [h, get?_put_self]
  · rename_i h
    exact get?_put_of_ne h

/-- **Storing a registry over another**: what it holds is found first. -/
theorem get?_putAll (rs : Registry key) : (m.putAll rs).get? k = (rs.get? k).or (m.get? k) := by
  obtain ⟨l, hl⟩ := rs
  unfold putAll get?
  dsimp only
  induction l generalizing m with
  | nil => rfl
  | cons r l ih =>
    obtain ⟨hr, hl'⟩ := List.nodup_cons.mp hl
    have hput := get?_put (m := m) (k := k) r
    unfold get? at hput
    rw [List.foldl_cons, ih hl', hput]
    by_cases h : key r = k
    · have hnone : l.find? (fun r => key r = k) = none := by
        rw [List.find?_eq_none]
        intro r' hr' hk
        exact hr (List.mem_map.mpr ⟨r', hr', (of_decide_eq_true hk).trans h.symm⟩)
      have hhead : (r :: l).find? (fun r => key r = k) = some r :=
        List.find?_cons_of_pos (decide_eq_true h)
      rw [hnone, if_pos h.symm, hhead]
      rfl
    · have htail : (r :: l).find? (fun r => key r = k) = l.find? fun r => key r = k :=
        List.find?_cons_of_neg (by simpa using h)
      rw [if_neg (Ne.symm h), htail]

/-! ## How many satisfy a predicate -/

/-- How many records satisfy `p`. -/
def count (m : Registry key) (p : ρ → Bool) : Nat := (m.entries.filter p).length

variable {p : ρ → Bool}

omit [DecidableEq κ] in
theorem count_filter_le (q : ρ → Bool) : (m.filter q).count p ≤ m.count p :=
  (List.filter_sublist.filter p).length_le

omit [DecidableEq κ] in
theorem count_update_le {f : ρ → ρ} (hf : ∀ r, key (f r) = key r)
    (h : ∀ r, p (f r) = true → p r = true) : (m.update f hf).count p ≤ m.count p := by
  unfold count update
  rw [List.filter_map, List.length_map]
  exact (List.monotone_filter_right m.entries h).length_le

theorem count_put_le (r : ρ) : (m.put r).count p ≤ m.count p + 1 := by
  have hrest : (m.remove (key r)).count p ≤ m.count p := count_filter_le _
  unfold count put at *
  by_cases h : p r = true
  · rw [List.filter_cons_of_pos h, List.length_cons]
    omega
  · rw [List.filter_cons_of_neg h]
    omega

/-- A record that does not satisfy `p` takes no place, and may free one. -/
theorem count_put_le_of_not (h : p r = false) : (m.put r).count p ≤ m.count p := by
  have hrest : (m.remove (key r)).count p ≤ m.count p := count_filter_le _
  unfold count put at *
  rwa [List.filter_cons_of_neg (by simp [h])]

/-- Storing again what is there changes no number. -/
theorem count_put_le_of_get? (h : m.get? (key r) = some r) : (m.put r).count p ≤ m.count p := by
  have hsubset : (m.put r).entries ⊆ m.entries := by
    intro a ha
    rcases List.mem_cons.mp ha with rfl | ha
    · exact (get?_eq_some.mp h).1
    · exact List.mem_of_mem_filter ha
  have hnodup : (m.put r).entries.Nodup := (m.put r).nodup.of_map
  exact ((List.subperm_of_subset hnodup hsubset).filter p).length_le

omit [DecidableEq κ] in
theorem count_pos_iff : 0 < m.count p ↔ ∃ r ∈ m.entries, p r = true := by
  rw [count, List.length_pos_iff_exists_mem]
  exact exists_congr fun r => List.mem_filter

/-- Records left out that satisfy `p`: one fewer for each. -/
theorem count_filter_notMem {ks : List κ} (hks : ks.Nodup)
    (h : ∀ k ∈ ks, ∃ r ∈ m.entries, key r = k ∧ p r = true) :
    (m.filter fun r => decide (key r ∉ ks)).count p + ks.length = m.count p := by
  have hkeys : ((m.entries.filter p).map key).Nodup :=
    m.nodup.sublist (List.filter_sublist.map key)
  have hgone : ((m.entries.filter p).map key).filter (fun k => decide (k ∈ ks)) |>.Perm ks := by
    refine (List.perm_ext_iff_of_nodup (hkeys.filter _) hks).mpr fun k => ?_
    rw [List.mem_filter, decide_eq_true_eq, and_iff_right_iff_imp]
    intro hk
    obtain ⟨r, hr, rfl, hp⟩ := h k hk
    exact List.mem_map_of_mem (List.mem_filter.mpr ⟨hr, hp⟩)
  have hkept : ((m.filter fun r => decide (key r ∉ ks)).count p) =
      (((m.entries.filter p).map key).filter fun k => !decide (k ∈ ks)).length := by
    rw [count, filter, List.filter_comm, List.filter_map, List.length_map]
    refine congrArg (fun q => ((m.entries.filter p).filter q).length) (funext fun r => ?_)
    exact decide_not
  rw [hkept, ← hgone.length_eq, Nat.add_comm, ← List.length_eq_length_filter_add,
    List.length_map]
  rfl

omit [DecidableEq κ] in
/-- Leaving out records that do not satisfy `p` changes no number. -/
theorem count_filter_of_imp {q : ρ → Bool} (h : ∀ r ∈ m.entries, p r = true → q r = true) :
    (m.filter q).count p = m.count p := by
  rw [count, filter, List.filter_filter, count]
  refine congrArg List.length (List.filter_congr fun r hr => ?_)
  cases hp : p r with
  | false => rfl
  | true => rw [Bool.true_and, h r hr hp]

end Registry
