import Kintrinsic.GuardianApps
import Mathlib.Data.List.DropRight

/-! # The lists of texts of the guardian's app

Trimming twice is trimming once, and a list without blanks and repeats is left as it is. -/
namespace Kintrinsic

/-- `trim` of a list of characters. -/
def jsTrimChars (s : List Char) : List Char := Text.trimEndBy isJsSpace (s.dropWhile isJsSpace)

theorem jsTrim_toList (s : String) : (jsTrim s).toList = jsTrimChars s.toList := by
  rw [jsTrim, String.toList_ofList]
  rfl

theorem trimEndBy_eq (p : Char → Bool) (s : List Char) : Text.trimEndBy p s = s.rdropWhile p := rfl

/-- What is trimmed at its front stays so when its end is trimmed. -/
theorem dropWhile_trimEndBy {p : Char → Bool} {s : List Char} (h : s.dropWhile p = s) :
    (Text.trimEndBy p s).dropWhile p = Text.trimEndBy p s := by
  rw [trimEndBy_eq]
  cases hrest : s.rdropWhile p with
  | nil => rfl
  | cons c cs =>
    have hprefix : c :: cs <+: s := hrest ▸ List.rdropWhile_prefix p s
    obtain ⟨more, rfl⟩ := hprefix
    have hkeep : ¬p c = true := by
      intro hp
      rw [List.cons_append, List.dropWhile_cons_of_pos hp] at h
      have hlen := congrArg List.length h
      have hle := List.length_dropWhile_le (p := p) (cs ++ more)
      rw [List.length_cons] at hlen
      omega
    rw [List.dropWhile_cons_of_neg hkeep]

theorem jsTrimChars_idem (s : List Char) : jsTrimChars (jsTrimChars s) = jsTrimChars s := by
  have hfront : (jsTrimChars s).dropWhile isJsSpace = jsTrimChars s :=
    dropWhile_trimEndBy (List.dropWhile_idempotent _ _)
  rw [jsTrimChars, hfront, jsTrimChars, trimEndBy_eq, trimEndBy_eq, List.rdropWhile_idempotent]

theorem jsTrim_jsTrim (s : String) : jsTrim (jsTrim s) = jsTrim s := by
  rw [← String.toList_inj, jsTrim_toList, jsTrim_toList, jsTrimChars_idem]

/-! ## Trimmed lists -/

theorem mem_trimTexts {list : List String} {x : String} :
    x ∈ trimTexts list ↔ (∃ y ∈ list, jsTrim y = x) ∧ x ≠ "" := by
  simp [trimTexts]

/-- A text of a trimmed list is trimmed itself. -/
theorem jsTrim_of_mem {list : List String} {x : String} (h : x ∈ trimTexts list) :
    jsTrim x = x := by
  obtain ⟨⟨y, -, rfl⟩, -⟩ := mem_trimTexts.mp h
  exact jsTrim_jsTrim y

/-- A list of trimmed texts that are not empty is left as it is. -/
theorem trimTexts_eq_self {list : List String} (h : ∀ x ∈ list, jsTrim x = x ∧ x ≠ "") :
    trimTexts list = list := by
  have hmap : list.map jsTrim = list := 
    (List.map_congr_left fun x hx => (h x hx).1).trans (List.map_id' list)
  rw [trimTexts, hmap, List.filter_eq_self]
  exact fun x hx => decide_eq_true (h x hx).2

theorem trimTexts_append (a b : List String) : trimTexts (a ++ b) = trimTexts a ++ trimTexts b := by
  simp [trimTexts]

/-- The repeats of a list taken out, the first of each kept. -/
def keepFirst (list : List String) : List String := list.reverse.dedup.reverse

theorem cleanTexts_eq (list : List String) : cleanTexts list = keepFirst (trimTexts list) := rfl

@[simp] theorem mem_keepFirst {list : List String} {x : String} : x ∈ keepFirst list ↔ x ∈ list := by
  simp [keepFirst]

theorem nodup_keepFirst (list : List String) : (keepFirst list).Nodup :=
  List.nodup_reverse.mpr (List.nodup_dedup _)

theorem keepFirst_of_nodup {list : List String} (h : list.Nodup) : keepFirst list = list := by
  rw [keepFirst, (List.nodup_reverse.mpr h).dedup, List.reverse_reverse]

theorem length_keepFirst_le (list : List String) : (keepFirst list).length ≤ list.length := by
  rw [keepFirst, List.length_reverse]
  exact (List.dedup_sublist _).length_le.trans List.length_reverse.le

theorem dedup_append_dedup (a b : List String) : (a ++ b.dedup).dedup = (a ++ b).dedup := by
  rw [List.dedup_append, List.dedup_append, List.dedup_idem]

theorem dedup_dedup_append (a b : List String) : (a.dedup ++ b).dedup = (a ++ b).dedup := by
  induction a with
  | nil => rfl
  | cons x a ih =>
    by_cases hx : x ∈ a
    · rw [List.dedup_cons_of_mem hx, List.cons_append,
        List.dedup_cons_of_mem (List.mem_append_left b hx), ih]
    · rw [List.dedup_cons_of_notMem hx, List.cons_append, List.cons_append]
      by_cases hb : x ∈ b
      · rw [List.dedup_cons_of_mem (List.mem_append_right _ hb),
          List.dedup_cons_of_mem (List.mem_append_right _ hb), ih]
      · rw [List.dedup_cons_of_notMem, List.dedup_cons_of_notMem, ih]
        · simp [hx, hb]
        · simp [hx, hb]

/-- Repeats within parts need not be looked for apart. -/
theorem keepFirst_flatMap {α : Type} (parts : List α) (f : α → List String) :
    keepFirst (parts.flatMap fun a => keepFirst (f a)) = keepFirst (parts.flatMap f) := by
  unfold keepFirst
  congr 1
  induction parts with
  | nil => rfl
  | cons a parts ih =>
    rw [List.flatMap_cons, List.flatMap_cons, List.reverse_append, List.reverse_append,
      List.reverse_reverse, dedup_append_dedup, ← dedup_dedup_append, ih, dedup_dedup_append]

/-! ## Lists without blanks and repeats -/

theorem mem_cleanTexts {list : List String} {x : String} :
    x ∈ cleanTexts list ↔ (∃ y ∈ list, jsTrim y = x) ∧ x ≠ "" := by
  rw [cleanTexts_eq, mem_keepFirst, mem_trimTexts]

theorem nodup_cleanTexts (list : List String) : (cleanTexts list).Nodup := nodup_keepFirst _

theorem clean_of_mem {list : List String} {x : String} (h : x ∈ cleanTexts list) :
    jsTrim x = x ∧ x ≠ "" := by
  rw [cleanTexts_eq, mem_keepFirst] at h
  exact ⟨jsTrim_of_mem h, (mem_trimTexts.mp h).2⟩

/-- A list that is clean already. -/
theorem cleanTexts_eq_self {list : List String} (h : ∀ x ∈ list, jsTrim x = x ∧ x ≠ "")
    (hnodup : list.Nodup) : cleanTexts list = list := by
  rw [cleanTexts_eq, trimTexts_eq_self h, keepFirst_of_nodup hnodup]

@[simp] theorem cleanTexts_cleanTexts (list : List String) :
    cleanTexts (cleanTexts list) = cleanTexts list :=
  cleanTexts_eq_self (fun _ hx => clean_of_mem hx) (nodup_cleanTexts list)

@[simp] theorem trimTexts_cleanTexts (list : List String) :
    trimTexts (cleanTexts list) = cleanTexts list :=
  trimTexts_eq_self fun _ hx => clean_of_mem hx

/-- What is left of a clean list is clean. -/
theorem cleanTexts_filter (list : List String) (p : String → Bool) :
    cleanTexts ((cleanTexts list).filter p) = (cleanTexts list).filter p :=
  cleanTexts_eq_self (fun _ hx => clean_of_mem (List.mem_filter.mp hx).1)
    ((nodup_cleanTexts list).filter p)

theorem length_cleanTexts_le (list : List String) : (cleanTexts list).length ≤ list.length := by
  refine (length_keepFirst_le _).trans ?_
  exact (List.length_filter_le ..).trans (List.length_map _).le

/-- The parts of a list may be cleaned first. -/
theorem cleanTexts_flatMap {α : Type} (parts : List α) (f : α → List String) :
    cleanTexts (parts.flatMap fun a => cleanTexts (f a)) = cleanTexts (parts.flatMap f) := by
  have htrim : ∀ g : α → List String,
      trimTexts (parts.flatMap g) = parts.flatMap fun a => trimTexts (g a) := by
    intro g
    induction parts with
    | nil => rfl
    | cons a parts ih => rw [List.flatMap_cons, List.flatMap_cons, trimTexts_append, ih]
  rw [cleanTexts_eq, htrim]
  simp only [trimTexts_cleanTexts]
  simp only [cleanTexts_eq]
  rw [keepFirst_flatMap, htrim]

end Kintrinsic
