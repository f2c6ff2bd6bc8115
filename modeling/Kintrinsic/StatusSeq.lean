import Kintrinsic.CivilDate
import Kintrinsic.GuardedRun
import Kintrinsic.MachineWord
import Kintrinsic.Text
import Kintrinsic.WireTypes

/-! # The status sequence

A device numbers its statuses.  A number is written to the state directory before it is stamped on
a status, so what a restart resumes from is never below what was emitted, whatever the clock says
by then.  The counter saturates. -/
namespace Kintrinsic

open MachineWord CivilDate

/-- One child's state on one device, as it is put on the wire; `report` is what the guardian only
displays. -/
structure StatusPayload where
  subject : PubKey
  machine : PubKey
  ts : Nat
  clockSteppedBackFrom : Option Nat
  seq : Option Nat
  report : Value
deriving DecidableEq

/-- `StatusSeq`. -/
structure StatusSeq where
  last : Nat
deriving DecidableEq

namespace StatusSeq

def resume (stored : Option Nat) (nowUnixMs : Nat) : StatusSeq := ⟨max (stored.getD 0) nowUnixMs⟩

/-- `advance`; the number handed out is the new `last`. -/
def advance (s : StatusSeq) : StatusSeq := ⟨addU64 s.last 1⟩

/-- The digits after a plus sign, if there is one. -/
def digitsOf : List Char → List Char
  | '+' :: rest => rest
  | cs => cs

/-- `parse::<u64>`. -/
def parseU64 (cs : List Char) : Option Nat :=
  let digits := digitsOf cs
  if digits.isEmpty || digits.any (fun c => !c.isDigit) then none
  else if digitsValue digits ≤ u64Max then some (digitsValue digits) else none

def parseStored (s : String) : Option Nat := parseU64 (Text.trim s.toList)

def formatStored (seq : Nat) : String := String.ofList (Nat.toDigits 10 seq ++ ['\n'])

/-! ## What is stored is read back -/

theorem digitsValue_append_digit (cs : List Char) {d : Nat} (h : d < 10) :
    digitsValue (cs ++ [Nat.digitChar d]) = 10 * digitsValue cs + d := by
  unfold digitsValue
  rw [List.foldl_append, List.foldl_cons, List.foldl_nil, Nat.toNat_digitChar_of_lt_ten h]
  omega

theorem digitsValue_toDigits (n : Nat) : digitsValue (Nat.toDigits 10 n) = n := by
  induction n using Nat.strongRecOn with
  | ind n ih =>
    by_cases h : n < 10
    · rw [Nat.toDigits_of_lt_base h]
      have hone := digitsValue_append_digit [] h
      rw [List.nil_append] at hone
      rw [hone]
      exact Nat.zero_add n
    · rw [Nat.toDigits_of_base_le (by decide) (by omega),
        digitsValue_append_digit _ (Nat.mod_lt n (by decide)), ih (n / 10) (by omega)]
      omega

theorem isDigit_of_mem_toDigits {n : Nat} {c : Char} (h : c ∈ Nat.toDigits 10 n) :
    c.isDigit = true := Nat.isDigit_of_mem_toDigits (by decide) (by decide) h

theorem not_isWhiteSpace_of_isDigit {c : Char} (h : c.isDigit = true) :
    Text.isWhiteSpace c = false := by
  have hbounds : 48 ≤ c.toNat ∧ c.toNat ≤ 57 := Char.isDigit_iff_toNat.mp h
  unfold Text.isWhiteSpace
  rw [decide_eq_false_iff_not]
  omega

theorem trim_formatStored (n : Nat) : Text.trim (formatStored n).toList = Nat.toDigits 10 n := by
  have hspace : ∀ c ∈ Nat.toDigits 10 n, ¬ Text.isWhiteSpace c = true := fun c hc => by
    rw [not_isWhiteSpace_of_isDigit (isDigit_of_mem_toDigits hc)]
    exact Bool.false_ne_true
  have hdrop : ∀ cs : List Char, (∀ c ∈ cs, ¬ Text.isWhiteSpace c = true) →
      cs.dropWhile Text.isWhiteSpace = cs := by
    intro cs hcs
    cases cs with
    | nil => rfl
    | cons c cs => exact List.dropWhile_cons_of_neg (hcs c List.mem_cons_self)
  have hfront : (Nat.toDigits 10 n ++ ['\n']).dropWhile Text.isWhiteSpace =
      Nat.toDigits 10 n ++ ['\n'] := by
    cases hd : Nat.toDigits 10 n with
    | nil => exact absurd hd Nat.toDigits_ne_nil
    | cons c cs =>
      exact List.dropWhile_cons_of_neg (hspace c (hd ▸ List.mem_cons_self))
  unfold Text.trim formatStored Text.trimEndBy
  rw [String.toList_ofList, hfront, List.reverse_append, List.reverse_singleton,
    List.singleton_append, List.dropWhile_cons_of_pos (by decide),
    hdrop _ fun c hc => hspace c (List.mem_reverse.mp hc), List.reverse_reverse]

/-- **The stored form reads back.** -/
theorem parseStored_formatStored {n : Nat} (h : n ≤ u64Max) :
    parseStored (formatStored n) = some n := by
  have hany : (Nat.toDigits 10 n).any (fun c => !c.isDigit) = false :=
    List.any_eq_false.mpr fun c hc => by simp [isDigit_of_mem_toDigits hc]
  have hdigits : digitsOf (Nat.toDigits 10 n) = Nat.toDigits 10 n := by
    unfold digitsOf
    split
    · rename_i rest hplus
      exact absurd (isDigit_of_mem_toDigits (hplus ▸ List.mem_cons_self)) (by decide)
    · rfl
  unfold parseStored parseU64
  rw [trim_formatStored, hdigits]
  dsimp only
  rw [hany, List.isEmpty_eq_false_iff.mpr Nat.toDigits_ne_nil, Bool.or_false,
    if_neg Bool.false_ne_true, digitsValue_toDigits, if_pos h]

theorem parseU64_le {cs : List Char} {n : Nat} (h : parseU64 cs = some n) : n ≤ u64Max := by
  unfold parseU64 at h
  dsimp only at h
  split at h
  · cases h
  · split at h
    · rename_i hle
      exact Option.some.inj h ▸ hle
    · cases h

end StatusSeq

/-! ## A device's run -/

/-- What the loop holds between taking a number and stamping it. -/
inductive InHand
  | nothing
  | taken (n : Nat)
  | durable (n : Nat)
deriving DecidableEq

/-- A loop that runs. -/
structure StatusLoop where
  seq : StatusSeq
  hand : InHand
deriving DecidableEq

/-- A device: what its state directory holds, its loop if one runs, and what it emitted so far,
oldest first. -/
structure Ward where
  machine : PubKey
  file : Option String
  loop : Option StatusLoop
  emitted : List StatusPayload
deriving DecidableEq

inductive WardStep
  | start (nowUnixMs : UInt64)
  | advance
  | store
  | stamp (status : StatusPayload)
  | crash
deriving DecidableEq

namespace Ward

def new (machine : PubKey) : Ward := ⟨machine, none, none, []⟩

/-- `load_from`. -/
def load (w : Ward) : Option Nat := w.file.bind StatusSeq.parseStored

/-- One step of `next_durable` or of the loop around it.  A crash loses what is in memory; a write
is whole or not at all. -/
def apply (w : Ward) : WardStep → Ward
  | .start now => { w with loop := some ⟨.resume w.load now.toNat, .nothing⟩ }
  | .advance =>
    match w.loop with
    | some ⟨seq, .nothing⟩ => { w with loop := some ⟨seq.advance, .taken seq.advance.last⟩ }
    | _ => w
  | .store =>
    match w.loop with
    | some ⟨seq, .taken n⟩ =>
      { w with file := some (StatusSeq.formatStored n), loop := some ⟨seq, .durable n⟩ }
    | _ => w
  | .stamp status =>
    match w.loop with
    | some ⟨seq, .durable n⟩ =>
      { w with
        loop := some ⟨seq, .nothing⟩
        emitted := w.emitted ++ [{ status with machine := w.machine, seq := some n }] }
    | _ => w
  | .crash => { w with loop := none }

def run (w : Ward) (steps : List WardStep) : Ward := steps.foldl apply w

/-- The next number is above, unless both are the last one there is. -/
def Above (n m : Nat) : Prop := n < m ∨ n = u64Max ∧ m = u64Max

instance (n m : Nat) : Decidable (Above n m) := inferInstanceAs (Decidable (_ ∨ _))

theorem Above.le {n m : Nat} (h : Above n m) : n ≤ m := by
  unfold Above at h
  omega

theorem Above.of_le {n m k : Nat} (h : n ≤ m) (hm : Above m k) (hk : k ≤ u64Max) : Above n k := by
  unfold Above at *
  omega

theorem above_advance {s : StatusSeq} {n : Nat} (h : n ≤ s.last) (hmax : s.last ≤ u64Max) :
    Above n s.advance.last := by
  change Above n (addU64 s.last 1)
  unfold Above addU64
  omega

/-- Two statuses of a device, the first emitted before the second. -/
def EmittedBefore (a b : StatusPayload) : Prop :=
  ∃ n m, a.seq = some n ∧ b.seq = some m ∧ Above n m

/-- The number of the file, from which a restart resumes. -/
def floor (w : Ward) : Nat := w.load.getD 0

/-- **What holds of a device at any time.**  What it emitted is in the order of its numbers, and
the file is not below it. -/
structure Valid (w : Ward) : Prop where
  ordered : w.emitted.Pairwise EmittedBefore
  durable : ∀ s ∈ w.emitted, s.machine = w.machine ∧ ∃ n, s.seq = some n ∧ n ≤ w.floor
  ahead : ∀ l, w.loop = some l → w.floor ≤ l.seq.last ∧ l.seq.last ≤ u64Max
  taken : ∀ l n, w.loop = some l → l.hand = .taken n → l.seq.last = n ∧ Above w.floor n
  inFile : ∀ l n, w.loop = some l → l.hand = .durable n →
    w.floor = n ∧ ∀ s ∈ w.emitted, ∃ m, s.seq = some m ∧ Above m n

theorem valid_new (machine : PubKey) : (new machine).Valid where
  ordered := List.Pairwise.nil
  durable := fun _ h => nomatch h
  ahead := fun _ h => nomatch h
  taken := fun _ _ h => nomatch h
  inFile := fun _ _ h => nomatch h

theorem floor_le {w : Ward} : w.floor ≤ u64Max := by
  unfold floor
  cases hload : w.load with
  | none => exact Nat.zero_le _
  | some n =>
    obtain ⟨text, -, hparse⟩ := Option.bind_eq_some_iff.mp hload
    exact StatusSeq.parseU64_le hparse

variable {w : Ward}

theorem Valid.start (h : w.Valid) (now : UInt64) : (w.apply (.start now)).Valid where
  ordered := h.ordered
  durable := h.durable
  ahead := by
    rintro l ⟨⟩
    refine ⟨Nat.le_max_left _ _, max_le floor_le ?_⟩
    exact Nat.le_of_lt_succ now.toNat_lt
  taken := by
    rintro l n ⟨⟩ hhand
    cases hhand
  inFile := by
    rintro l n ⟨⟩ hhand
    cases hhand

theorem Valid.crash (h : w.Valid) : (w.apply .crash).Valid where
  ordered := h.ordered
  durable := h.durable
  ahead := fun _ h => nomatch h
  taken := fun _ _ h => nomatch h
  inFile := fun _ _ h => nomatch h

theorem Valid.advance (h : w.Valid) : (w.apply .advance).Valid := by
  dsimp only [apply]
  split
  · rename_i seq hloop
    obtain ⟨hfloor, hmax⟩ := h.ahead _ hloop
    have habove : Above w.floor seq.advance.last := above_advance hfloor hmax
    refine ⟨h.ordered, h.durable, ?_, ?_, ?_⟩
    · rintro l ⟨⟩
      exact ⟨habove.le, addU64_le_max _ _⟩
    · rintro l n ⟨⟩ hhand
      cases hhand
      exact ⟨rfl, habove⟩
    · rintro l n ⟨⟩ hhand
      cases hhand
  · exact h

/-- Once a number is in the file it is above what was emitted before it was taken. -/
theorem Valid.store (h : w.Valid) : (w.apply .store).Valid := by
  dsimp only [apply]
  split
  · rename_i seq n hloop
    obtain ⟨hlast, habove⟩ := h.taken _ n hloop rfl
    have hmax : n ≤ u64Max := hlast ▸ (h.ahead _ hloop).2
    have hfloor : floor { w with
        file := some (StatusSeq.formatStored n), loop := some ⟨seq, .durable n⟩ } = n := by
      unfold floor load
      rw [Option.bind_some, StatusSeq.parseStored_formatStored hmax]
      rfl
    refine ⟨h.ordered, ?_, ?_, ?_, ?_⟩
    · intro s hs
      obtain ⟨hmachine, m, hm, hle⟩ := h.durable s hs
      exact ⟨hmachine, m, hm, hfloor.symm ▸ hle.trans habove.le⟩
    · rintro l ⟨⟩
      rw [hfloor]
      exact ⟨hlast.ge, hlast.le.trans hmax⟩
    · rintro l k ⟨⟩ hhand
      cases hhand
    · rintro l k ⟨⟩ hhand
      cases hhand
      refine ⟨hfloor, fun s hs => ?_⟩
      obtain ⟨-, m, hm, hle⟩ := h.durable s hs
      exact ⟨m, hm, habove.of_le hle hmax⟩
  · exact h

theorem Valid.stamp (h : w.Valid) (status : StatusPayload) : (w.apply (.stamp status)).Valid := by
  dsimp only [apply]
  split
  · rename_i seq n hloop
    obtain ⟨hfloor, hbefore⟩ := h.inFile _ n hloop rfl
    refine ⟨?_, ?_, ?_, ?_, ?_⟩
    · refine List.pairwise_append.mpr ⟨h.ordered, List.pairwise_singleton _ _, ?_⟩
      intro s hs t ht
      rw [List.mem_singleton.mp ht]
      obtain ⟨m, hm, habove⟩ := hbefore s hs
      exact ⟨m, n, hm, rfl, habove⟩
    · intro s hs
      rcases List.mem_append.mp hs with hs | hs
      · exact h.durable s hs
      · rw [List.mem_singleton.mp hs]
        exact ⟨rfl, n, rfl, hfloor.ge⟩
    · rintro l ⟨⟩
      exact ⟨(h.ahead _ hloop).1, (h.ahead _ hloop).2⟩
    · rintro l k ⟨⟩ hhand
      cases hhand
    · rintro l k ⟨⟩ hhand
      cases hhand
  · exact h

theorem Valid.apply (h : w.Valid) (step : WardStep) : (w.apply step).Valid := by
  cases step with
  | start now => exact h.start now
  | advance => exact h.advance
  | store => exact h.store
  | stamp status => exact h.stamp status
  | crash => exact h.crash

/-- **Every run keeps it.** -/
theorem Valid.run (h : w.Valid) (steps : List WardStep) : (w.run steps).Valid :=
  GuardedRun.foldl_invariant (fun _ step hw => hw.apply step) steps h

end Ward
end Kintrinsic
