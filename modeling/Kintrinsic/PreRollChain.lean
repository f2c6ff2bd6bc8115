import Kintrinsic.MachineWord
import Mathlib.Data.String.Basic
import Mathlib.Data.List.Basic

/-! # Keyed counters and the chain of counters set aside

The day-keyed and the week-keyed counters of a usage ledger roll by one rule.  A `Track`
is the counters in force under their date key, with the chain of those that rolls on an
unconfirmed clock have set aside, oldest first.  `Track.roll` is that rule; a `Meter` is
any one number read off the counters, and what a roll does to it is said here once. -/
namespace Kintrinsic

open MachineWord

/-- The most entries a chain keeps; past it the two newest are merged. -/
def preRollCap : Nat := 16

/-- Counters under a date key that can start afresh and absorb one another. -/
class PreRoll (T : Type) where
  key : T → String
  fresh : String → T
  setKey : T → String → T
  merge : T → T → T
  key_fresh : ∀ k, key (fresh k) = k
  key_setKey : ∀ t k, key (setKey t k) = k
  key_merge : ∀ t u, key (merge t u) = key t

open PreRoll

attribute [simp] key_fresh key_setKey key_merge

/-- The counters in force, and those set aside. -/
structure Track (T : Type) where
  current : T
  chain : List T

section Chain
variable {T : Type} [PreRoll T]

/-- Merge the newest entry into the one before it, under the later key. -/
def mergeNewest (newest prev : T) : T := setKey (merge prev newest) (max (key prev) (key newest))

/-- Shorten a chain, newest first, by `excess` merges. -/
def shorten : Nat → List T → List T
  | excess + 1, newest :: prev :: rest => shorten excess (mergeNewest newest prev :: rest)
  | _, chain => chain

/-- `push_pre_roll`. -/
def pushPreRoll (chain : List T) (entry : T) : List T :=
  (shorten (chain.length + 1 - preRollCap) (entry :: chain.reverse)).reverse

/-- `chain_restores`: the lead came from rolls that began on or before the computed day. -/
def chainRestores (trusted : Bool) (chain : List T) (stored current : String) : Bool :=
  trusted && decide (current < stored) && chain.head?.any (fun e => decide (key e ≤ current))

/-- `take_restorable`: every entry keyed `current` or later, folded together. -/
def takeRestorable (chain : List T) (current : String) : Option T :=
  match chain.filter (fun e => decide (current ≤ key e)) with
  | [] => none
  | e :: rest => some (rest.foldl merge (setKey e current))

/-- How far a stored key is ahead of the computed one, in days. -/
def daysAhead (parse : String → Option Int) (stored current : String) : Option Int :=
  match parse stored, parse current with
  | some s, some c => some (s - c)
  | _, _ => none

/-- `drop_back`: an unparseable key always is, a far one only on a trusted clock. -/
def dropBack (trusted : Bool) (ahead : Option Int) (bound : Int) : Bool :=
  ahead.all (fun d => trusted && decide (bound < d))

namespace Track

def key (t : Track T) : String := PreRoll.key t.current

/-- A confirmed clock that finds the stored key current closes the chain. -/
def close (trusted : Bool) (computed : String) (t : Track T) : Track T :=
  if trusted ∧ t.key = computed then { t with chain := [] } else t

/-- Move the counters in force to the computed key, with what the chain gives back. -/
def restore (computed : String) (t : Track T) : Track T × Option T :=
  match takeRestorable t.chain computed with
  | some r => (⟨merge (setKey t.current computed) r, []⟩, some r)
  | none => (⟨setKey t.current computed, []⟩, none)

/-- One half of `UsageLedger::roll`, and what it gave back. -/
def roll (parse : String → Option Int) (trusted : Bool) (bound : Int) (computed : String)
    (t : Track T) : Track T × Option T :=
  if t.key < computed then
    let chain := if trusted then t.chain else pushPreRoll t.chain t.current
    (close trusted computed ⟨fresh computed, chain⟩, none)
  else if chainRestores trusted t.chain t.key computed then
    let restored := t.restore computed
    (close trusted computed restored.1, restored.2)
  else if dropBack trusted (daysAhead parse t.key computed) bound then
    (close trusted computed { t with current := setKey t.current computed }, none)
  else (close trusted computed t, none)

/-- The key a track would be on after a roll. -/
def currentKey (parse : String → Option Int) (trusted : Bool) (bound : Int) (computed : String)
    (t : Track T) : String :=
  if t.key < computed ∨ chainRestores trusted t.chain t.key computed ∨
      dropBack trusted (daysAhead parse t.key computed) bound then computed
  else t.key

end Track

/-! ## What a roll does -/

variable {parse : String → Option Int} {trusted : Bool} {b : Int} {computed : String}
  {t t' : Track T}

@[simp] theorem chainRestores_untrusted (chain : List T) (stored current : String) :
    chainRestores false chain stored current = false := rfl

@[simp] theorem close_untrusted : t.close false computed = t := if_neg (by simp)

@[simp] theorem close_current (trusted : Bool) : (t.close trusted computed).current = t.current := by
  unfold Track.close
  split <;> rfl

@[simp] theorem close_key (trusted : Bool) : (t.close trusted computed).key = t.key :=
  congrArg PreRoll.key (close_current trusted)

/-- Only a track on the computed key has its chain closed. -/
theorem close_chain (h : t.key ≠ computed) : (t.close trusted computed).chain = t.chain := by
  rw [Track.close, if_neg fun hclose => h hclose.2]

/-- **The counters in force after a roll**: fresh ones on a new day, and else those that were,
re-keyed or with a restored entry folded in. -/
theorem roll_current (parse : String → Option Int) (trusted : Bool) (b : Int)
    (computed : String) (t : Track T) :
    t.key < computed ∧ (t.roll parse trusted b computed).1.current = fresh computed ∨
      ¬t.key < computed ∧
        ((t.roll parse trusted b computed).1.current = t.current ∨
          (t.roll parse trusted b computed).1.current = setKey t.current computed ∨
          ∃ r, (t.roll parse trusted b computed).1.current =
            merge (setKey t.current computed) r) := by
  unfold Track.roll
  by_cases hlt : t.key < computed
  · left
    rw [if_pos hlt]
    exact ⟨hlt, close_current _⟩
  right
  refine ⟨hlt, ?_⟩
  rw [if_neg hlt]
  split
  · unfold Track.restore
    split
    · exact Or.inr (Or.inr ⟨_, close_current _⟩)
    · exact Or.inr (Or.inl (close_current _))
  split
  · exact Or.inr (Or.inl (close_current _))
  · exact Or.inl (close_current _)

theorem restore_key : (t.restore computed).1.key = computed := by
  unfold Track.restore
  split <;> simp [Track.key]

theorem roll_key : (t.roll parse trusted b computed).1.key =
    t.currentKey parse trusted b computed := by
  unfold Track.roll Track.currentKey
  by_cases hlt : t.key < computed
  · rw [if_pos hlt, if_pos (Or.inl hlt), close_key]
    exact key_fresh _
  rw [if_neg hlt]
  by_cases hrestores : chainRestores trusted t.chain t.key computed
  · rw [if_pos hrestores, if_pos (Or.inr (Or.inl hrestores)), close_key, restore_key]
  rw [if_neg hrestores]
  by_cases hdrop : dropBack trusted (daysAhead parse t.key computed) b
  · rw [if_pos hdrop, if_pos (Or.inr (Or.inr hdrop)), close_key]
    exact key_setKey _ _
  · rw [if_neg hdrop, if_neg (by rintro (h | h | h) <;> contradiction), close_key]

/-- After a roll the day is current. -/
theorem not_roll_key_lt : ¬(t.roll parse trusted b computed).1.key < computed := by
  rw [roll_key, Track.currentKey]
  split
  · exact lt_irrefl _
  · rename_i h
    exact fun hlt => h (Or.inl hlt)

/-- A track on the computed key stays there. -/
theorem currentKey_of_key (h : t.key = computed) :
    t.currentKey parse trusted b computed = computed := by
  unfold Track.currentKey
  split
  · rfl
  · exact h

/-- A second roll finds the key where the first one left it. -/
theorem currentKey_rolled (hkey : t'.key = (t.roll parse trusted b computed).1.key)
    (hchain : t'.chain = (t.roll parse trusted b computed).1.chain) :
    t'.currentKey parse trusted b computed = t.currentKey parse trusted b computed := by
  by_cases hmoves : t.key < computed ∨ chainRestores trusted t.chain t.key computed ∨
      dropBack trusted (daysAhead parse t.key computed) b
  · have hcurrent : t.currentKey parse trusted b computed = computed := if_pos hmoves
    rw [hcurrent]
    exact currentKey_of_key (by rw [hkey, roll_key, hcurrent])
  · have hcurrent : t.currentKey parse trusted b computed = t.key := if_neg hmoves
    obtain ⟨hlt, hrestores, hdrop⟩ : ¬t.key < computed ∧ _ ∧ _ :=
      ⟨fun h => hmoves (Or.inl h), fun h => hmoves (Or.inr (Or.inl h)),
        fun h => hmoves (Or.inr (Or.inr h))⟩
    rw [roll_key, hcurrent] at hkey
    by_cases heq : t.key = computed
    · rw [hcurrent, heq]
      exact currentKey_of_key (hkey.trans heq)
    · have hsame : t'.chain = t.chain := by
        rw [hchain, Track.roll, if_neg hlt, if_neg hrestores, if_neg hdrop, close_chain heq]
      unfold Track.currentKey
      rw [hkey, hsame]

/-- On an untrusted clock a key that parses stays where it is unless the day advances. -/
theorem roll_untrusted (hparse : (daysAhead parse t.key computed).isSome) :
    (t.roll parse false b computed).1 =
      if t.key < computed then ⟨fresh computed, pushPreRoll t.chain t.current⟩ else t := by
  obtain ⟨d, hd⟩ := Option.isSome_iff_exists.mp hparse
  unfold Track.roll
  split <;> simp [hd, dropBack]

/-! ## Length and first entry of the chain -/

theorem length_shorten (n : Nat) (l : List T) (h : n < l.length) :
    (shorten n l).length = l.length - n := by
  induction n generalizing l with
  | zero => simp [shorten]
  | succ n ih =>
    match l, h with
    | newest :: prev :: rest, h =>
      have hlen : n < (mergeNewest newest prev :: rest).length := by
        simp only [List.length_cons] at h ⊢
        omega
      rw [shorten, ih _ hlen]
      simp

/-- The chain stays within its cap. -/
theorem length_pushPreRoll_le (chain : List T) (entry : T) :
    (pushPreRoll chain entry).length ≤ preRollCap := by
  have hlen : chain.length + 1 - preRollCap < (entry :: chain.reverse).length := by
    rw [List.length_cons, List.length_reverse, preRollCap]
    omega
  rw [pushPreRoll, List.length_reverse, length_shorten _ _ hlen]
  simp only [List.length_cons, List.length_reverse]
  omega

/-- As long as two entries remain, the oldest is not merged. -/
theorem getLast_shorten (n : Nat) (l : List T) (h : n + 2 ≤ l.length) :
    (shorten n l).getLast? = l.getLast? := by
  induction n generalizing l with
  | zero => simp [shorten]
  | succ n ih =>
    match l, h with
    | newest :: prev :: rest, h =>
      have hrest : rest ≠ [] := by
        rintro rfl
        simp at h
      have hlen : n + 2 ≤ (mergeNewest newest prev :: rest).length := by
        simp only [List.length_cons] at h ⊢
        omega
      rw [shorten, ih _ hlen]
      simp [List.getLast?_cons, List.getLast?_eq_some_getLast hrest]

/-- **The first entry never moves**: a roll only appends behind it. -/
theorem head_pushPreRoll {chain : List T} (h : chain ≠ []) (entry : T) :
    (pushPreRoll chain entry).head? = chain.head? := by
  have hpos : 0 < chain.length := List.length_pos_iff.mpr h
  have hlen : chain.length + 1 - preRollCap + 2 ≤ (entry :: chain.reverse).length := by
    rw [List.length_cons, List.length_reverse, preRollCap]
    omega
  rw [pushPreRoll, List.head?_reverse, getLast_shorten _ _ hlen]
  cases chain with
  | nil => exact absurd rfl h
  | cons e chain => simp [List.getLast?_cons]

theorem pushPreRoll_nil (entry : T) : pushPreRoll [] entry = [entry] := rfl

/-- Merging keeps every key at or past a bound. -/
theorem le_key_shorten {k : String} (n : Nat) (l : List T) (h : ∀ e ∈ l, k ≤ key e) :
    ∀ e ∈ shorten n l, k ≤ key e := by
  induction n generalizing l with
  | zero => simpa [shorten] using h
  | succ n ih =>
    match l with
    | [] => simp [shorten]
    | [e] => simpa [shorten] using h
    | newest :: prev :: rest =>
      refine ih _ ?_
      intro e he
      rcases List.mem_cons.mp he with rfl | he
      · have hprev := h prev (by simp)
        simpa [mergeNewest] using Or.inl hprev
      · exact h e (by simp [he])

theorem le_key_pushPreRoll {k : String} {chain : List T} {entry : T}
    (hchain : ∀ e ∈ chain, k ≤ key e) (hentry : k ≤ key entry) :
    ∀ e ∈ pushPreRoll chain entry, k ≤ key e := by
  intro e he
  refine le_key_shorten _ _ ?_ e (List.mem_reverse.mp he)
  intro e he
  rcases List.mem_cons.mp he with rfl | he
  · exact hentry
  · exact hchain e (List.mem_reverse.mp he)

end Chain

/-! ## Meters -/

/-- One number read off the counters: zero when fresh, and added when absorbed. -/
structure Meter (T : Type) [PreRoll T] where
  read : T → Nat
  read_fresh : ∀ k, read (fresh k) = 0
  read_setKey : ∀ t k, read (setKey t k) = read t
  read_merge : ∀ t u, read (merge t u) = addU64 (read t) (read u)

namespace Meter
variable {T : Type} [PreRoll T] (m : Meter T)

/-- The sum over some counters. -/
def sum (l : List T) : Nat := (l.map m.read).sum

/-- What a track holds in all, in force or set aside. -/
def total (t : Track T) : Nat := m.sum t.chain + m.read t.current

@[simp] theorem sum_nil : m.sum [] = 0 := rfl

@[simp] theorem sum_cons (t : T) (l : List T) : m.sum (t :: l) = m.read t + m.sum l := rfl

theorem sum_reverse (l : List T) : m.sum l.reverse = m.sum l := by
  rw [sum, List.map_reverse, List.sum_reverse, sum]

/-- Merging loses nothing but what saturates. -/
theorem sum_shorten (n : Nat) (l : List T) : min (m.sum l) u64Max ≤ m.sum (shorten n l) := by
  induction n generalizing l with
  | zero => simp [shorten]
  | succ n ih =>
    match l with
    | [] => simp [shorten]
    | [e] => simp [shorten]
    | newest :: prev :: rest =>
      have hmerge : m.read (mergeNewest newest prev) = addU64 (m.read prev) (m.read newest) := by
        rw [mergeNewest, m.read_setKey, m.read_merge]
      have hrest := ih (mergeNewest newest prev :: rest)
      rw [sum_cons, hmerge] at hrest
      simp only [sum_cons, shorten]
      unfold addU64 at hrest
      omega

theorem sum_pushPreRoll (chain : List T) (entry : T) :
    min (m.sum chain + m.read entry) u64Max ≤ m.sum (pushPreRoll chain entry) := by
  have h := m.sum_shorten (chain.length + 1 - preRollCap) (entry :: chain.reverse)
  rw [sum_cons, sum_reverse] at h
  rw [pushPreRoll, sum_reverse]
  omega

/-- No roll lowers what was read of the counters in force. -/
theorem read_le_roll (parse : String → Option Int) (trusted : Bool) (b : Int)
    (computed : String) {t : Track T} (h : m.read t.current ≤ u64Max) :
    (if t.key < computed then 0 else m.read t.current) ≤
      m.read (t.roll parse trusted b computed).1.current := by
  rcases roll_current parse trusted b computed t with ⟨hlt, -⟩ | ⟨hlt, hsame | hmoved | ⟨r, hmerged⟩⟩
  · rw [if_pos hlt]
    exact Nat.zero_le _
  · rw [if_neg hlt, hsame]
  · rw [if_neg hlt, hmoved, m.read_setKey]
  · rw [if_neg hlt, hmerged, m.read_merge, m.read_setKey]
    exact le_addU64 h _

theorem read_foldl_merge (l : List T) (t : T) :
    min (m.read t + m.sum l) u64Max ≤ m.read (l.foldl merge t) := by
  induction l generalizing t with
  | nil => simp
  | cons e l ih =>
    have h := ih (merge t e)
    rw [m.read_merge] at h
    rw [sum_cons, List.foldl_cons]
    unfold addU64 at h
    omega

/-- A roll keeps a word a word. -/
theorem read_roll_le (parse : String → Option Int) (trusted : Bool) (b : Int)
    (computed : String) {t : Track T} (h : m.read t.current ≤ u64Max) :
    m.read (t.roll parse trusted b computed).1.current ≤ u64Max := by
  rcases roll_current parse trusted b computed t with ⟨-, hfresh⟩ | ⟨-, hsame | hmoved | ⟨r, hmerged⟩⟩
  · rw [hfresh, m.read_fresh]
    exact Nat.zero_le _
  · rwa [hsame]
  · rwa [hmoved, m.read_setKey]
  · rw [hmerged, m.read_merge]
    exact addU64_le_max _ _

theorem foldl_merge_le (l : List T) (t : T) :
    m.read (l.foldl merge t) ≤ m.read t + m.sum l := by
  induction l generalizing t with
  | nil => simp
  | cons e l ih =>
    have h := ih (merge t e)
    have hmerge := addU64_le_add (m.read t) (m.read e)
    rw [m.read_merge] at h
    rw [sum_cons, List.foldl_cons]
    omega

/-- What the chain would give back at a key. -/
def restorable (chain : List T) (computed : String) : Nat :=
  m.sum (chain.filter fun e => decide (computed ≤ key e))

/-- What is taken back is nothing only if nothing was there. -/
theorem read_takeRestorable (chain : List T) (computed : String) :
    (takeRestorable chain computed = none ∧ m.restorable chain computed = 0) ∨
      ∃ r, takeRestorable chain computed = some r ∧
        (m.read r = 0 ↔ m.restorable chain computed = 0) := by
  unfold takeRestorable restorable
  cases chain.filter fun e => decide (computed ≤ key e) with
  | nil => exact Or.inl ⟨rfl, rfl⟩
  | cons e rest =>
    right
    refine ⟨_, rfl, ?_⟩
    have hle := m.foldl_merge_le rest (setKey e computed)
    have hge := m.read_foldl_merge rest (setKey e computed)
    rw [m.read_setKey] at hle hge
    rw [sum_cons]
    unfold u64Max at hge
    omega

/-- A roll finds nothing to give back to this meter, or no room for it. -/
def Steady (trusted : Bool) (computed : String) (t : Track T) : Prop :=
  chainRestores trusted t.chain t.key computed →
    m.restorable t.chain computed = 0 ∨ m.read t.current = u64Max

/-- **What a roll leaves to be read** is what was, from zero on a new day, exactly when it has
nothing to give back. -/
theorem read_roll_eq_iff (parse : String → Option Int) (trusted : Bool) (b : Int)
    (computed : String) {t : Track T} (h : m.read t.current ≤ u64Max) :
    (if t.key < computed then 0 else m.read t.current) =
        m.read (t.roll parse trusted b computed).1.current ↔ m.Steady trusted computed t := by
  unfold Track.roll Steady
  by_cases hlt : t.key < computed
  · have hrestores : chainRestores trusted t.chain t.key computed = false := by
      rw [chainRestores, decide_eq_false (not_lt.mpr hlt.le), Bool.and_false, Bool.false_and]
    rw [if_pos hlt, if_pos hlt, close_current, m.read_fresh, hrestores]
    simp
  rw [if_neg hlt, if_neg hlt]
  by_cases hrestores : chainRestores trusted t.chain t.key computed
  · rw [if_pos hrestores, close_current, Track.restore]
    rcases m.read_takeRestorable t.chain computed with ⟨htake, hzero⟩ | ⟨r, htake, hzero⟩
    · simp only [htake, m.read_setKey, hzero, hrestores, true_or, imp_self]
    · simp only [htake, m.read_merge, m.read_setKey, ← hzero, hrestores, true_imp_iff]
      unfold addU64
      omega
  · rw [if_neg hrestores]
    have hsteady : m.Steady trusted computed t := fun h => absurd h hrestores
    refine iff_of_true ?_ hsteady
    split
    · rw [close_current, m.read_setKey]
    · rw [close_current]

end Meter

end Kintrinsic
