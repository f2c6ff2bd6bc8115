import Kintrinsic.UsageLedger

/-! # Credits at one instant

A tick makes several credits at one instant.  The first of them rolls the ledger; the rolls of
the others find it settled and move no counter, so every counter grows by the sum of its own
seconds, whatever else is credited beside it. -/
namespace Kintrinsic

open MachineWord PreRoll

/-! ## Settled tracks -/

section Track
variable {T : Type} [PreRoll T] {parse : String → Option Int} {trusted : Bool} {b : Int}
  {computed : String} {t t' : Track T}

/-- A track that a roll at the computed key leaves where it is. -/
def Track.Settled (parse : String → Option Int) (trusted : Bool) (b : Int) (computed : String)
    (t : Track T) : Prop :=
  t.key = computed ∧ (trusted = true → t.chain = []) ∨
    t.key ≠ computed ∧ ¬t.key < computed ∧ ¬chainRestores trusted t.chain t.key computed ∧
      ¬dropBack trusted (daysAhead parse t.key computed) b

/-- It is a matter of the key and the chain. -/
theorem Track.Settled.congr (h : t.Settled parse trusted b computed) (hkey : t'.key = t.key)
    (hchain : t'.chain = t.chain) : t'.Settled parse trusted b computed := by
  unfold Track.Settled at *
  rwa [hkey, hchain]

/-- A track that is closed on the computed key. -/
theorem settled_close (h : t.key = computed) :
    (t.close trusted computed).Settled parse trusted b computed := by
  refine Or.inl ⟨(close_key trusted).trans h, ?_⟩
  rintro rfl
  rw [Track.close, if_pos ⟨rfl, h⟩]

/-- **A roll settles.** -/
theorem settled_roll : (t.roll parse trusted b computed).1.Settled parse trusted b computed := by
  by_cases hmoves : t.key < computed ∨ chainRestores trusted t.chain t.key computed ∨
      dropBack trusted (daysAhead parse t.key computed) b
  · unfold Track.roll
    split
    · exact settled_close (key_fresh _)
    split
    · exact settled_close restore_key
    split
    · exact settled_close (key_setKey _ _)
    · rename_i hlt hrestores hdrop
      rcases hmoves with h | h | h <;> contradiction
  · obtain ⟨hlt, hrestores, hdrop⟩ : ¬t.key < computed ∧ _ ∧ _ :=
      ⟨fun h => hmoves (Or.inl h), fun h => hmoves (Or.inr (Or.inl h)),
        fun h => hmoves (Or.inr (Or.inr h))⟩
    rw [Track.roll, if_neg hlt, if_neg hrestores, if_neg hdrop]
    by_cases heq : t.key = computed
    · exact settled_close heq
    · refine Or.inr ?_
      rw [close_key, close_chain heq]
      exact ⟨heq, hlt, hrestores, hdrop⟩

/-- A settled track gives nothing back, and keeps its counters under its key. -/
theorem Track.Settled.roll (h : t.Settled parse trusted b computed) :
    (t.roll parse trusted b computed).1.key = t.key ∧
      (t.roll parse trusted b computed).1.chain = t.chain ∧
      (t.roll parse trusted b computed).2 = none ∧
      ((t.roll parse trusted b computed).1.current = t.current ∨
        (t.roll parse trusted b computed).1.current = setKey t.current t.key) := by
  rcases h with ⟨hkey, hchain⟩ | ⟨hne, hlt, hrestores, hdrop⟩
  · have hnot : ¬chainRestores trusted t.chain t.key computed := by
      rw [hkey]
      simp [chainRestores]
    have hclosed : ∀ u : Track T, u.key = computed → u.chain = t.chain →
        (u.close trusted computed).chain = t.chain := by
      intro u hu hchain'
      unfold Track.close
      split
      · rename_i htrusted
        exact (hchain htrusted.1).symm
      · exact hchain'
    unfold Track.roll
    rw [if_neg (by rw [hkey]; exact lt_irrefl _), if_neg hnot]
    split
    · refine ⟨(close_key _).trans ((key_setKey _ _).trans hkey.symm),
        hclosed _ (key_setKey _ _) rfl, rfl, Or.inr ?_⟩
      rw [close_current, hkey]
    · exact ⟨close_key _, hclosed t hkey rfl, rfl, Or.inl (close_current _)⟩
  · unfold Track.roll
    rw [if_neg hlt, if_neg hrestores, if_neg hdrop]
    exact ⟨close_key _, close_chain hne, rfl, Or.inl (close_current _)⟩

theorem Meter.read_roll_of_settled (m : Meter T) (h : t.Settled parse trusted b computed) :
    m.read (t.roll parse trusted b computed).1.current = m.read t.current := by
  obtain ⟨-, -, -, hsame | hmoved⟩ := h.roll
  · rw [hsame]
  · rw [hmoved, m.read_setKey]

end Track

/-! ## Settled ledgers -/

namespace UsageLedger
variable {cal : Calendar} {l l' : UsageLedger} {now : Int}

/-- A ledger that a roll at this instant leaves where it is. -/
structure AtRest (cal : Calendar) (now : Int) (l : UsageLedger) : Prop where
  day : l.day.Settled cal.parse l.clockTrusted 1 (l.dayKeyAt cal now)
  week : l.week.Settled cal.parse l.clockTrusted 7 (l.weekKeyAt cal now)

/-- What keeps the keys and the chains of a rolled ledger is settled. -/
theorem settled_of_adds {c : Credit} (h : Credit.Adds c (l.roll cal now) l') :
    l'.AtRest cal now := by
  have hrolled := l.rolled_roll cal now
  have htz := h.tz.trans hrolled.tz
  have hweekStart := h.weekStart.trans hrolled.weekStart
  have htrusted := h.clockTrusted.trans hrolled.clockTrusted
  have hday : l'.dayKeyAt cal now = l.dayKeyAt cal now := by
    unfold dayKeyAt zone
    rw [htz]
  have hweek : l'.weekKeyAt cal now = l.weekKeyAt cal now := by
    unfold weekKeyAt zone
    rw [htz, hweekStart]
  refine ⟨?_, ?_⟩
  · rw [hday, htrusted]
    exact settled_roll.congr (h.dayKey.trans (congrArg Track.key hrolled.day))
      (h.dayChain.trans (congrArg Track.chain hrolled.day))
  · rw [hweek, htrusted]
    exact settled_roll.congr (h.weekKey.trans hrolled.weekKey)
      (h.weekChain.trans hrolled.weekChain)

end UsageLedger

/-! ## Counters -/

/-- A counter of the ledger, with the seconds that a credit adds to it. -/
structure CreditMeter where
  read : UsageLedger → Nat
  secs : Credit → Nat
  adds : ∀ cal l c, Added (secs c) (read (l.roll cal c.now)) (read (c.apply cal l))
  settled : ∀ cal now l, l.AtRest cal now → read (l.roll cal now) = read l

namespace CreditMeter
variable (m : CreditMeter) {cal : Calendar} {l : UsageLedger} {now : Int}

/-- **Credits at one instant add up.** -/
theorem read_foldl {cs : List Credit} (hnow : ∀ c ∈ cs, c.now = now) (hl : l.AtRest cal now) :
    Added ((cs.map m.secs).sum) (m.read l) (m.read (cs.foldl (Credit.apply cal) l)) := by
  induction cs generalizing l with
  | nil => exact Or.inl ⟨rfl, rfl⟩
  | cons c cs ih =>
    obtain rfl := hnow c List.mem_cons_self
    have hfirst := m.adds cal l c
    rw [m.settled cal c.now l hl] at hfirst
    have hrest := ih (fun d hd => hnow d (List.mem_cons_of_mem _ hd))
      (UsageLedger.settled_of_adds (Credit.adds_apply cal l c))
    rw [List.map_cons, List.sum_cons, List.foldl_cons]
    exact hfirst.add hrest

/-- The ledger that credits at an instant add to: rolled on, where there is a credit at all. -/
def base (cal : Calendar) (now : Int) (cs : List Credit) (l : UsageLedger) : UsageLedger :=
  if cs = [] then l else l.roll cal now

theorem read_credits {cs : List Credit} (hnow : ∀ c ∈ cs, c.now = now) (l : UsageLedger) :
    Added ((cs.map m.secs).sum) (m.read (base cal now cs l))
      (m.read (cs.foldl (Credit.apply cal) l)) := by
  cases cs with
  | nil => exact Or.inl ⟨rfl, rfl⟩
  | cons c cs =>
    obtain rfl := hnow c List.mem_cons_self
    have hrest := m.read_foldl (fun d hd => hnow d (List.mem_cons_of_mem _ hd))
      (UsageLedger.settled_of_adds (Credit.adds_apply cal l c))
    rw [base, if_neg (by simp), List.map_cons, List.sum_cons, List.foldl_cons]
    exact (m.adds cal l c).add hrest

end CreditMeter
end Kintrinsic
