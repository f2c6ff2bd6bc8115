import Mathlib.Data.List.AList
import Mathlib.Data.List.Basic

/-! # Last writes

Writes under keys, one after the other: what is read of a key in the end is its last write, or what
was there before when it has none. -/
namespace LastWrite

variable {σ ω κ β : Type*} [DecidableEq κ] {key : ω → κ} {value : ω → β} {ws : List ω} {k : κ}

/-- What a key reads after some writes. -/
def read (key : ω → κ) (value : ω → β) (ws : List ω) (k : κ) (before : β) : β :=
  ((ws.filter (key · = k)).getLast?.map value).getD before

@[simp] theorem read_nil (before : β) : read key value [] k before = before := rfl

/-- The first write is what was there before the others. -/
theorem read_cons (w : ω) (before : β) : read key value (w :: ws) k before =
    read key value ws k (if key w = k then value w else before) := by
  unfold read
  by_cases hkey : key w = k
  · rw [if_pos hkey, List.filter_cons_of_pos (by simpa using hkey), List.getLast?_cons]
    cases (ws.filter (key · = k)).getLast? <;> rfl
  · rw [if_neg hkey, List.filter_cons_of_neg (by simpa using hkey)]

/-- A key without writes reads as before. -/
theorem read_of_none (h : ∀ w ∈ ws, key w ≠ k) (before : β) :
    read key value ws k before = before := by
  have hnil : ws.filter (key · = k) = [] :=
    List.filter_eq_nil_iff.mpr fun w hw => by simpa using h w hw
  rw [read, hnil]
  rfl

/-- **The last write is read**, of a state in which each write sets its own key and no other. -/
theorem foldl_read {step : σ → ω → σ} {get : σ → κ → β}
    (hstep : ∀ s w k, get (step s w) k = if key w = k then value w else get s k) (ws : List ω)
    (s : σ) (k : κ) : get (ws.foldl step s) k = read key value ws k (get s k) := by
  induction ws generalizing s with
  | nil => rfl
  | cons w ws ih => rw [List.foldl_cons, ih, hstep, read_cons]

end LastWrite

/-! # Maps over the values of a record

A finite record of values under distinct keys, its values replaced by others or dropped.  What is
looked up afterwards is what was looked up before, replaced or dropped. -/
namespace RecordMaps

variable {κ β γ : Type*} [DecidableEq κ]

/-- The entries whose value is not dropped, under their keys. -/
def keepEntries (f : β → Option γ) (entries : List (Σ _ : κ, β)) : List (Σ _ : κ, γ) :=
  entries.filterMap fun e => (f e.2).map (Sigma.mk e.1)

/-- Every value of the record replaced or dropped. -/
def mapKept (f : β → Option γ) (r : AList fun _ : κ => β) : AList fun _ : κ => γ :=
  (keepEntries f r.entries).toAList

theorem dlookup_keepEntries (f : β → Option γ) (k : κ) :
    ∀ {entries : List (Σ _ : κ, β)}, entries.NodupKeys →
      (keepEntries f entries).dlookup k = (entries.dlookup k).bind f
  | [], _ => rfl
  | ⟨k', v⟩ :: entries, h => by
    obtain ⟨hfresh, hrest⟩ := List.nodupKeys_cons.mp h
    have ih := dlookup_keepEntries f k hrest
    unfold keepEntries at ih ⊢
    by_cases hk : k = k'
    · subst hk
      rw [List.dlookup_cons_eq, Option.bind_some]
      cases hv : f v with
      | some w =>
        rw [List.filterMap_cons_some (by rw [hv, Option.map_some]), List.dlookup_cons_eq]
      | none =>
        -- no other entry has this key
        rw [List.filterMap_cons_none (by rw [hv, Option.map_none]), ih,
          List.dlookup_eq_none.mpr hfresh, Option.bind_none]
    · rw [List.dlookup_cons_ne _ _ hk, ← ih]
      cases hv : f v with
      | some w =>
        rw [List.filterMap_cons_some (by rw [hv, Option.map_some]),
          List.dlookup_cons_ne _ _ hk]
      | none => rw [List.filterMap_cons_none (by rw [hv, Option.map_none])]

/-- **What is looked up** is what was looked up before, replaced or dropped. -/
@[simp] theorem lookup_mapKept (f : β → Option γ) (r : AList fun _ : κ => β) (k : κ) :
    (mapKept f r).lookup k = (r.lookup k).bind f := by
  unfold mapKept
  rw [AList.lookup_to_alist]
  exact dlookup_keepEntries f k r.nodupKeys

/-- A record without entries has nothing under any key. -/
theorem lookup_of_isEmpty {r : AList fun _ : κ => β} (h : r.entries.isEmpty = true) (k : κ) :
    r.lookup k = none := by
  unfold AList.lookup
  rw [List.isEmpty_iff.mp h]
  rfl

end RecordMaps
