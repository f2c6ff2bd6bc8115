import Mathlib.Data.List.Basic
import Mathlib.Data.Option.Basic

/-! # The newest of what came

A register keeps a value until a strictly newer one comes.  Whatever the order and the repetition, what
it holds is one of the values, and none of them is newer; among values of one stamp the first to come
stays. -/
namespace Newest

variable {α : Type} (stamp : α → Nat)

/-- Take a value in where it is newer than what is there. -/
def keep (r : Option α) (x : α) : Option α := if r.all fun a => stamp a < stamp x then some x else r

/-- One of some values, with none of them newer; nothing where there are none. -/
structure IsNewest (r : Option α) (P : α → Prop) : Prop where
  mem : ∀ x, r = some x → P x
  le : ∀ y, P y → ∃ x, r = some x ∧ stamp y ≤ stamp x

variable {stamp} {r s : Option α} {P Q : α → Prop}

theorem isNewest_none (h : ∀ x, ¬P x) : IsNewest stamp none P :=
  ⟨nofun, fun y hy => absurd hy (h y)⟩

theorem IsNewest.congr (h : IsNewest stamp r P) (hPQ : ∀ x, P x ↔ Q x) : IsNewest stamp r Q :=
  ⟨fun x hx => (hPQ x).mp (h.mem x hx), fun y hy => h.le y ((hPQ y).mpr hy)⟩

/-- **Step.**  One more value. -/
theorem IsNewest.keep (h : IsNewest stamp r P) (x : α) :
    IsNewest stamp (keep stamp r x) fun y => P y ∨ y = x := by
  unfold Newest.keep
  split
  · rename_i hnewer
    refine ⟨fun y hy => .inr (Option.some.inj hy).symm, ?_⟩
    rintro y (hy | rfl)
    · obtain ⟨a, rfl, hle⟩ := h.le y hy
      rw [Option.all_some, decide_eq_true_eq] at hnewer
      exact ⟨x, rfl, Nat.le_of_lt (Nat.lt_of_le_of_lt hle hnewer)⟩
    · exact ⟨y, rfl, Nat.le_refl _⟩
  · rename_i holder
    refine ⟨fun y hy => .inl (h.mem y hy), ?_⟩
    rintro y (hy | rfl)
    · exact h.le y hy
    · cases hr : r with
      | none =>
        rw [hr] at holder
        exact absurd rfl holder
      | some a =>
        rw [hr, Option.all_some, decide_eq_true_eq] at holder
        exact ⟨a, rfl, Nat.not_lt.mp holder⟩

/-- The newest of some values, taken in behind the newest of others. -/
theorem IsNewest.join (h : IsNewest stamp r P) (h' : IsNewest stamp s Q) :
    IsNewest stamp (s.elim r (Newest.keep stamp r)) fun y => P y ∨ Q y := by
  cases s with
  | none => exact h.congr fun y => (or_iff_left fun hy => nomatch (h'.le y hy).choose_spec.1).symm
  | some x =>
    obtain ⟨hmem, hle⟩ := h.keep x
    refine ⟨fun y hy => (hmem y hy).imp_right ?_, ?_⟩
    · rintro rfl
      exact h'.mem y rfl
    rintro y (hy | hy)
    · exact hle y (.inl hy)
    · obtain ⟨x', hx', hstamp⟩ := h'.le y hy
      obtain ⟨z, hz, hlast⟩ := hle x (.inr rfl)
      exact ⟨z, hz, Nat.le_trans (Option.some.inj hx' ▸ hstamp) hlast⟩

/-- The newest of some values, seen through a map that keeps their stamps. -/
theorem IsNewest.map {β : Type} {stamp' : β → Nat} {f : α → β} (h : IsNewest stamp r P)
    (hf : ∀ x, stamp' (f x) = stamp x) :
    IsNewest stamp' (r.map f) fun y => ∃ x, P x ∧ f x = y := by
  constructor
  · intro y hy
    obtain ⟨x, hx, rfl⟩ := Option.map_eq_some_iff.mp hy
    exact ⟨x, h.mem x hx, rfl⟩
  · rintro _ ⟨y, hy, rfl⟩
    obtain ⟨x, rfl, hle⟩ := h.le y hy
    refine ⟨f x, rfl, ?_⟩
    rw [hf, hf]
    exact hle

/-- **What is newest agrees on its stamp.** -/
theorem IsNewest.stamp_eq (h : IsNewest stamp r P) (h' : IsNewest stamp s P) :
    r.map stamp = s.map stamp := by
  cases r with
  | none =>
    cases s with
    | none => rfl
    | some y => exact nomatch (h.le y (h'.mem y rfl)).choose_spec.1
  | some x =>
    obtain ⟨y, rfl, hxy⟩ := h'.le x (h.mem x rfl)
    obtain ⟨x', hx', hyx⟩ := h.le y (h'.mem y rfl)
    cases hx'
    exact congrArg some (Nat.le_antisymm hxy hyx)

/-- **And on itself** where no two of the newest values differ. -/
theorem IsNewest.eq (h : IsNewest stamp r P) (h' : IsNewest stamp s P)
    (hties : ∀ x y, P x → P y → stamp x = stamp y → (∀ z, P z → stamp z ≤ stamp x) → x = y) :
    r = s := by
  have hstamp := h.stamp_eq h'
  cases r with
  | none => exact (Option.map_eq_none_iff.mp hstamp.symm).symm
  | some x =>
    obtain ⟨y, rfl, heq⟩ := Option.map_eq_some_iff.mp hstamp.symm
    refine congrArg some (hties x y (h.mem x rfl) (h'.mem y rfl) heq.symm fun z hz => ?_)
    obtain ⟨x', hx', hle⟩ := h.le z hz
    exact Option.some.inj hx' ▸ hle

end Newest

/-! # A log of keyed events, the latest first

Each event of a key has a turn, its number among all the events.  Which of several keys had an
event last can be read off their turns, or found by a search from the front of the log. -/
namespace RecentFirst

variable {α κ : Type} [DecidableEq κ] (key : α → κ)

/-- The turn of a key's latest event; 0 when it has had none. -/
def turn (k : κ) : List α → Nat
  | [] => 0
  | a :: log => if key a = k then log.length + 1 else turn k log

variable {key} {k : κ} {log : List α}

theorem turn_le_length : turn key k log ≤ log.length := by
  induction log with
  | nil => exact Nat.le_refl _
  | cons a log ih =>
    rw [turn, List.length_cons]
    split <;> omega

/-- **The first event found from the front** is the last one, of all keys searched for. -/
theorem turn_lt_of_find? {p : κ → Bool} {a : α} (h : log.find? (fun b => p (key b)) = some a)
    (hp : p k = true) (hne : k ≠ key a) : turn key k log < turn key (key a) log := by
  induction log with
  | nil => cases h
  | cons b log ih =>
    rw [List.find?_cons] at h
    split at h
    · obtain rfl := Option.some.inj h
      rw [turn, turn, if_neg (fun heq => hne heq.symm), if_pos rfl]
      exact Nat.lt_succ_of_le turn_le_length
    · rename_i hb
      have hpa : p (key a) = true := List.find?_some (p := fun b => p (key b)) h
      have hbk : key b ≠ k := fun heq => by rw [heq, hp] at hb; cases hb
      have hba : key b ≠ key a := fun heq => by rw [heq, hpa] at hb; cases hb
      rw [turn, turn, if_neg hbk, if_neg hba]
      exact ih h

end RecentFirst

/-! # The latest of each key

A queue keeps so many entries of each key, the latest.  Which entries that leaves does not depend on
the order in which the keys are gone through. -/
namespace LatestOfEach

variable {α κ : Type} [DecidableEq κ] (key : α → κ) (n : Nat)

/-- How many entries are of a key. -/
def held (k : κ) (l : List α) : Nat := (l.filter fun a => key a = k).length

/-- Of the keys in question, an entry with so many later ones of its key goes. -/
def latest (keys : κ → Bool) : List α → List α
  | [] => []
  | a :: l => if keys (key a) ∧ n ≤ held key (key a) l then latest keys l else a :: latest keys l

variable {key n} {keys keys' : κ → Bool} {k : κ} {a : α} {l : List α}

theorem held_cons : held key k (a :: l) = held key k l + if key a = k then 1 else 0 := by
  unfold held
  by_cases h : key a = k
  · simp [h]
  · simp [h]

theorem latest_sublist (l : List α) : (latest key n keys l).Sublist l := by
  induction l with
  | nil => exact .slnil
  | cons a l ih =>
    unfold latest
    split
    · exact ih.cons a
    · exact ih.cons_cons a

/-- A key that is not in question keeps all it holds. -/
theorem held_latest_of_not (hk : keys k = false) (l : List α) :
    held key k (latest key n keys l) = held key k l := by
  induction l with
  | nil => rfl
  | cons a l ih =>
    unfold latest
    split
    · rename_i hgoes
      have hne : key a ≠ k := by
        rintro rfl
        exact absurd (hk.symm.trans hgoes.1) (by decide)
      rw [held_cons, if_neg hne, ih, Nat.add_zero]
    · rw [held_cons, held_cons, ih]

/-- A key in question is left with so many at most. -/
theorem held_latest_le (hk : keys k = true) (l : List α) :
    held key k (latest key n keys l) ≤ n ∧ held key k (latest key n keys l) ≤ held key k l := by
  induction l with
  | nil => exact ⟨Nat.zero_le n, Nat.le_refl _⟩
  | cons a l ih =>
    have hcons := @held_cons _ _ _ key k a l
    unfold latest
    split
    · omega
    · rename_i hstays
      rw [held_cons]
      by_cases ha : key a = k
      · have hfew : held key k l < n := by
          subst ha
          exact Nat.not_le.mp fun hmany => hstays ⟨hk, hmany⟩
        rw [if_pos ha] at hcons ⊢
        omega
      · rw [if_neg ha] at hcons ⊢
        omega

theorem latest_congr (h : ∀ a ∈ l, keys (key a) = keys' (key a)) :
    latest key n keys l = latest key n keys' l := by
  induction l with
  | nil => rfl
  | cons a l ih =>
    unfold latest
    rw [h a List.mem_cons_self, ih fun b hb => h b (List.mem_cons_of_mem a hb)]

/-- Nothing goes of a key that holds no more than its number. -/
theorem latest_of_held_le (h : ∀ a ∈ l, keys (key a) = true → held key (key a) l ≤ n) :
    latest key n keys l = l := by
  induction l with
  | nil => rfl
  | cons a l ih =>
    unfold latest
    have hrest : latest key n keys l = l := by
      refine ih fun b hb hkey => ?_
      have hle := h b (List.mem_cons_of_mem a hb) hkey
      rw [held_cons] at hle
      omega
    rw [hrest, if_neg]
    rintro ⟨hkey, hmany⟩
    have hle := h a List.mem_cons_self hkey
    rw [held_cons, if_pos rfl] at hle
    omega

/-- **One key more.**  The keys can be gone through one by one. -/
theorem latest_latest (hk : keys k = false) (l : List α) :
    latest key n (fun j => decide (j = k)) (latest key n keys l) =
      latest key n (fun j => keys j || decide (j = k)) l := by
  induction l with
  | nil => rfl
  | cons a l ih =>
    by_cases hkey : keys (key a) = true
    · have hne : key a ≠ k := by
        rintro hak
        rw [hak, hk] at hkey
        cases hkey
      by_cases hmany : n ≤ held key (key a) l
      · rw [latest, if_pos ⟨hkey, hmany⟩, ih, latest, if_pos ⟨by rw [hkey]; rfl, hmany⟩]
      · rw [latest, if_neg fun h => hmany h.2, latest, if_neg fun h => hne (of_decide_eq_true h.1), ih,
          latest, if_neg fun h => hmany h.2]
    · rw [Bool.not_eq_true] at hkey
      rw [latest, if_neg fun h => absurd (hkey.symm.trans h.1) (by decide), latest, latest, hkey,
        Bool.false_or, held_latest_of_not hkey, ih]

/-- What goes has so many later ones of its key behind it. -/
theorem mem_latest_or (h : a ∈ l) : a ∈ latest key n keys l ∨
    ∃ before after, l = before ++ a :: after ∧ n ≤ held key (key a) after := by
  induction l with
  | nil => cases h
  | cons b l ih =>
    unfold latest
    rcases List.mem_cons.mp h with rfl | h
    · split
      · rename_i hgoes
        exact .inr ⟨[], l, rfl, hgoes.2⟩
      · exact .inl List.mem_cons_self
    · obtain hstays | ⟨before, after, rfl, hmany⟩ := ih h
      · split
        · exact .inl hstays
        · exact .inl (List.mem_cons_of_mem b hstays)
      · exact .inr ⟨b :: before, after, rfl, hmany⟩

/-- The last entry stays. -/
theorem last_mem_latest (hn : 0 < n) (l : List α) (a : α) : a ∈ latest key n keys (l ++ [a]) := by
  induction l with
  | nil =>
    rw [List.nil_append, latest, if_neg fun h => absurd h.2 (Nat.not_le.mpr hn)]
    exact List.mem_cons_self
  | cons b l ih =>
    rw [List.cons_append]
    unfold latest
    split
    · exact ih
    · exact List.mem_cons_of_mem b ih

end LatestOfEach
