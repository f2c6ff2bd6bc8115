import Kintrinsic.GuardedRun
import Mathlib.Data.List.Infix
import Mathlib.Logic.Function.Basic

/-! # Threads that share a staged file

Every thread stages under the lock of the state, and flushes or closes after it.  The lock of the
snapshot is held for one assignment, the lock of the writer for a whole write. -/
namespace Kintrinsic

/-- What a thread does under the writer's lock. -/
inductive PersistOp
  | flush
  | close
deriving DecidableEq

/-- Where a thread is: outside, in a call made when so many snapshots had been staged, or back from
one, which found the file open or closed. -/
inductive PersistCall
  | idle
  | called (op : PersistOp) (staged : Nat)
  | returned (op : PersistOp) (staged : Nat) (found : Bool)
deriving DecidableEq

/-- How far the holder of the writer's lock is. -/
inductive WriteSection (T : Type)
  | entered
  | taken (v : Option T)
  | saved
  | refused
deriving DecidableEq

/-- One `Persist` with its file and its threads, and what has been staged and written so far. -/
structure Persist (ι T : Type) where
  file : T
  pending : Option T
  closed : Bool
  writer : Option (ι × WriteSection T)
  calls : ι → PersistCall
  staged : List T
  written : List T
  /-- How much had been staged when the call was made that closed the file. -/
  closedFrom : Nat

/-- What happens next: a thread stages, or calls; a call gets the writer's lock; its holder goes on.
A background flush is a flush that a thread of the pool calls. -/
inductive PersistAction (ι T : Type)
  | stage (v : T)
  | call (t : ι) (op : PersistOp)
  | lock (t : ι)
  | take
  | save
  | release

namespace Persist
variable {ι T : Type}

/-- `new`. -/
def new (file : T) (writable : Bool) : Persist ι T where
  file
  pending := none
  closed := !writable
  writer := none
  calls _ := .idle
  staged := []
  written := []
  closedFrom := 0

/-- The file holds a snapshot no older than the last of the first `n`. -/
def AsNew (p : Persist ι T) (n : Nat) : Prop :=
  n = 0 ∨ ∃ i, n ≤ i + 1 ∧ p.staged[i]? = some p.file

/-- `stage`. -/
def stage (p : Persist ι T) (v : T) : Persist ι T :=
  { p with pending := some v, staged := p.staged ++ [v] }

/-- The holder takes the newest snapshot. -/
def take (p : Persist ι T) : Persist ι T :=
  match p.writer with
  | some (t, .entered) => { p with writer := some (t, .taken p.pending), pending := none }
  | _ => p

/-- `save_logged`, of what was taken. -/
def save (p : Persist ι T) : Persist ι T :=
  match p.writer with
  | some (t, .taken v) =>
    { p with file := v.getD p.file, written := p.written ++ v.toList, writer := some (t, .saved) }
  | _ => p

/-- A call gets the writer's lock and finds the file open or closed. -/
def lock (p : Persist ι T) (t : ι) : Persist ι T :=
  match p.calls t, p.writer with
  | .called _ _, none => { p with writer := some (t, if p.closed then .refused else .entered) }
  | _, _ => p

variable [DecidableEq ι]

/-- A thread calls `flush` or `close`. -/
def call (p : Persist ι T) (t : ι) (op : PersistOp) : Persist ι T :=
  match p.calls t with
  | .called _ _ => p
  | _ => { p with calls := Function.update p.calls t (.called op p.staged.length) }

/-- The holder is back from its call, and a close has closed the file. -/
def release (p : Persist ι T) : Persist ι T :=
  match p.writer with
  | some (t, .saved) =>
    match p.calls t with
    | .called .flush n =>
      { p with writer := none, calls := Function.update p.calls t (.returned .flush n true) }
    | .called .close n =>
      { p with
        writer := none
        closed := true
        closedFrom := n
        calls := Function.update p.calls t (.returned .close n true) }
    | _ => p
  | some (t, .refused) =>
    match p.calls t with
    | .called op n =>
      { p with writer := none, calls := Function.update p.calls t (.returned op n false) }
    | _ => p
  | _ => p

/-- One step; what cannot happen changes nothing. -/
def step (p : Persist ι T) : PersistAction ι T → Persist ι T
  | .stage v => p.stage v
  | .call t op => p.call t op
  | .lock t => p.lock t
  | .take => p.take
  | .save => p.save
  | .release => p.release

/-! ## The invariant -/

/-- What the holder of the writer's lock has done: `j` is how many snapshots the file covers, `k`
how many are taken. -/
def SectionAt (p : Persist ι T) (n j k : Nat) : WriteSection T → Prop
  | .entered => p.closed = false ∧ j = k
  | .taken none => p.closed = false ∧ j = k ∧ n ≤ k
  | .taken (some v) => p.closed = false ∧ j < k ∧ n ≤ k ∧ p.staged[k - 1]? = some v
  | .saved => p.closed = false ∧ j = k ∧ n ≤ k
  | .refused => p.closed = true ∧ j = k

structure InvAt (p : Persist ι T) (j k : Nat) : Prop where
  taken_le : k ≤ p.staged.length
  filed : 0 < j → p.staged[j - 1]? = some p.file
  written : p.written.Sublist (p.staged.take j)
  pending : p.pending = none ∧ k = p.staged.length ∨
    k < p.staged.length ∧ p.pending = p.staged[p.staged.length - 1]?
  writer : match p.writer with
    | none => j = k
    | some (t, s) => ∃ op n, p.calls t = .called op n ∧ p.SectionAt n j k s
  called : ∀ t op n, p.calls t = .called op n → n ≤ p.staged.length
  found : ∀ t op n, p.calls t = .returned op n true → n ≤ j
  refused : ∀ t op n, p.calls t = .returned op n false → p.closed = true
  closing : ∀ t n found, p.calls t = .returned .close n found → p.closed = true
  closed : p.closed = true → p.closedFrom ≤ j

/-- Some snapshots are taken and some of them are in the file, as far as the writer is. -/
def Inv (p : Persist ι T) : Prop := ∃ j k, p.InvAt j k

omit [DecidableEq ι] in
theorem InvAt.covered_le {p : Persist ι T} {j k : Nat} (h : p.InvAt j k) : j ≤ k := by
  have hwriter := h.writer
  split at hwriter
  · exact hwriter.le
  · obtain ⟨op, n, -, hsection⟩ := hwriter
    unfold SectionAt at hsection
    split at hsection
    · exact hsection.2.le
    · exact hsection.2.1.le
    · exact hsection.2.1.le
    · exact hsection.2.1.le
    · exact hsection.2.le

omit [DecidableEq ι] in
theorem inv_new (file : T) (writable : Bool) : (new file writable : Persist ι T).Inv := by
  refine ⟨0, 0, ⟨le_rfl, fun h => absurd h (lt_irrefl 0), .slnil, .inl ⟨rfl, rfl⟩, rfl, ?_, ?_, ?_,
    ?_, fun _ => le_rfl⟩⟩
  · intro t op n h
    cases h
  · intro t op n h
    cases h
  · intro t op n h
    cases h
  · intro t n found h
    cases h

omit [DecidableEq ι] in
theorem Inv.stage {p : Persist ι T} (h : p.Inv) (v : T) : (p.stage v).Inv := by
  obtain ⟨j, k, h⟩ := h
  have hle := h.taken_le
  have hjk := h.covered_le
  have hlength : (p.staged ++ [v]).length = p.staged.length + 1 := List.length_append
  refine ⟨j, k, ⟨?_, ?_, ?_, ?_, ?_, ?_, h.found, h.refused, h.closing, h.closed⟩⟩
  · show k ≤ (p.staged ++ [v]).length
    omega
  · intro hpos
    show (p.staged ++ [v])[j - 1]? = some p.file
    rw [List.getElem?_append_left (by omega)]
    exact h.filed hpos
  · show p.written.Sublist ((p.staged ++ [v]).take j)
    rw [List.take_append_of_le_length (by omega)]
    exact h.written
  · refine .inr ⟨?_, ?_⟩
    · show k < (p.staged ++ [v]).length
      omega
    · show some v = (p.staged ++ [v])[(p.staged ++ [v]).length - 1]?
      rw [hlength, Nat.add_sub_cancel, List.getElem?_append_right le_rfl, Nat.sub_self]
      rfl
  · have hwriter := h.writer
    show match p.writer with
      | none => j = k
      | some (t, s) => ∃ op n, p.calls t = .called op n ∧
        (p.stage v).SectionAt n j k s
    split at hwriter
    · exact hwriter
    · obtain ⟨op, n, hcall, hsection⟩ := hwriter
      refine ⟨op, n, hcall, ?_⟩
      unfold SectionAt at hsection ⊢
      split at hsection
      · exact hsection
      · exact hsection
      · obtain ⟨hopen, hlt, hn, htaken⟩ := hsection
        refine ⟨hopen, hlt, hn, ?_⟩
        show (p.staged ++ [v])[k - 1]? = some _
        rw [List.getElem?_append_left (by omega)]
        exact htaken
      · exact hsection
      · exact hsection
  · intro t op n hcall
    have hn := h.called t op n hcall
    show n ≤ (p.staged ++ [v]).length
    omega

theorem Inv.call {p : Persist ι T} (h : p.Inv) (t : ι) (op : PersistOp) :
    (p.call t op).Inv := by
  by_cases hcalled : ∃ op n, p.calls t = .called op n
  · obtain ⟨op', n, hcalled⟩ := hcalled
    have hsame : p.call t op = p := by
      unfold Persist.call
      rw [hcalled]
    rw [hsame]
    exact h
  · have hnew : p.call t op =
        { p with calls := Function.update p.calls t (.called op p.staged.length) } := by
      unfold Persist.call
      split
      · rename_i op' n hcall
        exact absurd ⟨op', n, hcall⟩ hcalled
      · rfl
    rw [hnew]
    obtain ⟨j, k, h⟩ := h
    -- a thread that has not called holds no lock
    have hother : ∀ u op n, p.calls u = .called op n → u ≠ t := by
      rintro u op n hu rfl
      exact hcalled ⟨op, n, hu⟩
    have hreturned : ∀ u op' n found,
        Function.update p.calls t (.called op p.staged.length) u = .returned op' n found →
          p.calls u = .returned op' n found := by
      intro u op' n found hu
      by_cases hut : u = t
      · rw [hut, Function.update_self] at hu
        cases hu
      · rwa [Function.update_of_ne hut] at hu
    refine ⟨j, k, ⟨h.taken_le, h.filed, h.written, h.pending, ?_, ?_, ?_, ?_, ?_, h.closed⟩⟩
    · have hwriter := h.writer
      dsimp only
      split at hwriter
      · exact hwriter
      · rename_i u s hheld
        obtain ⟨op', n, hcall, hsection⟩ := hwriter
        refine ⟨op', n, ?_, hsection⟩
        rw [Function.update_of_ne (hother u op' n hcall)]
        exact hcall
    · intro u op' n hu
      dsimp only at hu
      by_cases hut : u = t
      · rw [hut, Function.update_self] at hu
        obtain ⟨-, rfl⟩ := PersistCall.called.inj hu
        exact le_rfl
      · rw [Function.update_of_ne hut] at hu
        exact h.called u op' n hu
    · exact fun u op' n hu => h.found u op' n (hreturned u op' n true hu)
    · exact fun u op' n hu => h.refused u op' n (hreturned u op' n false hu)
    · exact fun u n found hu => h.closing u n found (hreturned u .close n found hu)

omit [DecidableEq ι] in
theorem Inv.lock {p : Persist ι T} (h : p.Inv) (t : ι) : (p.lock t).Inv := by
  unfold Persist.lock
  split
  · rename_i op n hcall hfree
    obtain ⟨j, k, h⟩ := h
    have hwriter : j = k := by
      have hwriter := h.writer
      rw [hfree] at hwriter
      exact hwriter
    refine ⟨j, k, ⟨h.taken_le, h.filed, h.written, h.pending, ⟨op, n, hcall, ?_⟩, h.called,
      h.found, h.refused, h.closing, h.closed⟩⟩
    cases hclosed : p.closed with
    | true => exact ⟨rfl, hwriter⟩
    | false => exact ⟨rfl, hwriter⟩
  · exact h

omit [DecidableEq ι] in
theorem Inv.take {p : Persist ι T} (h : p.Inv) : p.take.Inv := by
  unfold Persist.take
  split
  · rename_i t hentered
    obtain ⟨j, k, h⟩ := h
    have hwriter := h.writer
    rw [hentered] at hwriter
    obtain ⟨op, n, hcall, hopen, hjk⟩ := hwriter
    have hn := h.called t op n hcall
    obtain ⟨hnone, hk⟩ | ⟨hlt, hsome⟩ := h.pending
    · refine ⟨j, k, ⟨h.taken_le, h.filed, h.written, .inl ⟨rfl, hk⟩, ⟨op, n, hcall, ?_⟩, h.called,
        h.found, h.refused, h.closing, h.closed⟩⟩
      rw [hnone]
      exact ⟨hopen, hjk, hk ▸ hn⟩
    · have hlast : p.staged.length - 1 < p.staged.length := by omega
      rw [List.getElem?_eq_getElem hlast] at hsome
      refine ⟨j, p.staged.length, ⟨le_rfl, h.filed, h.written, .inl ⟨rfl, rfl⟩,
        ⟨op, n, hcall, ?_⟩, h.called, h.found, h.refused, h.closing, h.closed⟩⟩
      rw [hsome]
      exact ⟨hopen, hjk ▸ hlt, hn, List.getElem?_eq_getElem hlast⟩
  · exact h

omit [DecidableEq ι] in
theorem Inv.save {p : Persist ι T} (h : p.Inv) : p.save.Inv := by
  unfold Persist.save
  split
  · rename_i t v htaken
    obtain ⟨j, k, h⟩ := h
    have hwriter := h.writer
    rw [htaken] at hwriter
    obtain ⟨op, n, hcall, hsection⟩ := hwriter
    cases v with
    | none =>
      obtain ⟨hopen, hjk, hn⟩ := hsection
      refine ⟨j, k, ⟨h.taken_le, h.filed, ?_, h.pending, ⟨op, n, hcall, hopen, hjk, hn⟩, h.called,
        h.found, h.refused, h.closing, h.closed⟩⟩
      show (p.written ++ []).Sublist (p.staged.take j)
      rw [List.append_nil]
      exact h.written
    | some v =>
      obtain ⟨hopen, hlt, hn, hlast⟩ := hsection
      refine ⟨k, k, ⟨h.taken_le, fun _ => hlast, ?_, h.pending, ⟨op, n, hcall, hopen, rfl, hn⟩,
        h.called, fun u op n hu => (h.found u op n hu).trans hlt.le, h.refused, h.closing, ?_⟩⟩
      · -- what was written before is older than the snapshot that lands
        have hsplit : p.staged.take k = p.staged.take (k - 1) ++ [v] := by
          have htake := List.take_add_one (l := p.staged) (i := k - 1)
          rw [hlast, Nat.sub_add_cancel (by omega)] at htake
          exact htake
        show (p.written ++ [v]).Sublist (p.staged.take k)
        rw [hsplit]
        refine List.Sublist.append (h.written.trans ?_) (List.Sublist.refl _)
        exact (List.take_prefix_take_left (by omega)).sublist
      · intro hclosed
        exact absurd hclosed (by rw [hopen]; exact Bool.false_ne_true)
  · exact h

/-- A thread that has let go of the lock is back. -/
theorem InvAt.back {p : Persist ι T} {j k : Nat} (h : p.InvAt j k) {t : ι} {op : PersistOp}
    {n : Nat} {found closed : Bool} {closedFrom : Nat} (hjk : j = k)
    (hfound : found = true → n ≤ j) (hrefused : found = false → closed = true)
    (hclosing : op = .close → closed = true) (hkept : p.closed = true → closed = true)
    (hfrom : closed = true → closedFrom ≤ j) :
    ({ p with
      writer := none
      closed
      closedFrom
      calls := Function.update p.calls t (.returned op n found) } : Persist ι T).InvAt j k := by
  have hreturned : ∀ {u op' n' found'},
      Function.update p.calls t (.returned op n found) u = .returned op' n' found' →
        (op' = op ∧ n' = n ∧ found' = found) ∨ p.calls u = .returned op' n' found' := by
    intro u op' n' found' hu
    by_cases hut : u = t
    · rw [hut, Function.update_self] at hu
      obtain ⟨rfl, rfl, rfl⟩ := PersistCall.returned.inj hu
      exact .inl ⟨rfl, rfl, rfl⟩
    · rw [Function.update_of_ne hut] at hu
      exact .inr hu
  refine ⟨h.taken_le, h.filed, h.written, h.pending, hjk, ?_, ?_, ?_, ?_, hfrom⟩
  · intro u op' n' hu
    dsimp only at hu
    by_cases hut : u = t
    · rw [hut, Function.update_self] at hu
      cases hu
    · rw [Function.update_of_ne hut] at hu
      exact h.called u op' n' hu
  · intro u op' n' hu
    obtain ⟨-, rfl, hf⟩ | hu := hreturned hu
    · exact hfound hf.symm
    · exact h.found u op' n' hu
  · intro u op' n' hu
    obtain ⟨-, -, hf⟩ | hu := hreturned hu
    · exact hrefused hf.symm
    · exact hkept (h.refused u op' n' hu)
  · intro u n' found' hu
    obtain ⟨hop, -, -⟩ | hu := hreturned hu
    · exact hclosing hop.symm
    · exact hkept (h.closing u n' found' hu)

theorem Inv.release {p : Persist ι T} (h : p.Inv) : p.release.Inv := by
  obtain ⟨j, k, h⟩ := h
  have hwriter := h.writer
  unfold Persist.release
  split
  · rename_i t hsaved
    rw [hsaved] at hwriter
    obtain ⟨op, n, hcall, hopen, hjk, hn⟩ := hwriter
    have hnever : p.closed = true → False := fun hclosed => by
      rw [hopen] at hclosed
      exact Bool.false_ne_true hclosed
    rw [hcall]
    cases op with
    | flush =>
      exact ⟨j, k, h.back hjk (fun _ => hjk ▸ hn) (by simp) (by simp) id
        fun hclosed => (hnever hclosed).elim⟩
    | close =>
      exact ⟨j, k, h.back hjk (fun _ => hjk ▸ hn) (by simp) (fun _ => rfl) (fun _ => rfl)
        fun _ => hjk ▸ hn⟩
  · rename_i t hrefused
    rw [hrefused] at hwriter
    obtain ⟨op, n, hcall, hclosed, hjk⟩ := hwriter
    rw [hcall]
    exact ⟨j, k, h.back hjk (by simp) (fun _ => hclosed) (fun _ => hclosed) id h.closed⟩
  · exact ⟨j, k, h⟩

theorem Inv.step {p : Persist ι T} (h : p.Inv) (a : PersistAction ι T) : (p.step a).Inv := by
  cases a with
  | stage v => exact h.stage v
  | call t op => exact h.call t op
  | lock t => exact h.lock t
  | take => exact h.take
  | save => exact h.save
  | release => exact h.release

/-! ## After a close -/

omit [DecidableEq ι] in
/-- Nothing is on its way into a file that is closed. -/
theorem Inv.no_write {p : Persist ι T} (h : p.Inv) (hclosed : p.closed = true) (t : ι)
    (s : WriteSection T) (hwriter : p.writer = some (t, s)) : s = .refused := by
  obtain ⟨j, k, h⟩ := h
  have hheld := h.writer
  rw [hwriter] at hheld
  obtain ⟨op, n, -, hsection⟩ := hheld
  unfold SectionAt at hsection
  rw [hclosed] at hsection
  split at hsection
  · exact absurd hsection.1.symm Bool.false_ne_true
  · exact absurd hsection.1.symm Bool.false_ne_true
  · exact absurd hsection.1.symm Bool.false_ne_true
  · exact absurd hsection.1.symm Bool.false_ne_true
  · rfl

theorem step_closed {p : Persist ι T} (h : p.Inv) (hclosed : p.closed = true)
    (a : PersistAction ι T) : (p.step a).closed = true ∧ (p.step a).file = p.file ∧
      (p.step a).written = p.written := by
  cases a with
  | stage v => exact ⟨hclosed, rfl, rfl⟩
  | call t op =>
    show (p.call t op).closed = true ∧ (p.call t op).file = p.file ∧
      (p.call t op).written = p.written
    unfold call
    split
    · exact ⟨hclosed, rfl, rfl⟩
    · exact ⟨hclosed, rfl, rfl⟩
  | lock t =>
    show (p.lock t).closed = true ∧ (p.lock t).file = p.file ∧
      (p.lock t).written = p.written
    unfold lock
    split
    · exact ⟨hclosed, rfl, rfl⟩
    · exact ⟨hclosed, rfl, rfl⟩
  | take =>
    show p.take.closed = true ∧ p.take.file = p.file ∧ p.take.written = p.written
    unfold take
    split
    · exact ⟨hclosed, rfl, rfl⟩
    · exact ⟨hclosed, rfl, rfl⟩
  | save =>
    show p.save.closed = true ∧ p.save.file = p.file ∧ p.save.written = p.written
    unfold save
    split
    · rename_i t v htaken
      exact absurd (h.no_write hclosed t _ htaken) (by simp)
    · exact ⟨hclosed, rfl, rfl⟩
  | release =>
    show p.release.closed = true ∧ p.release.file = p.file ∧ p.release.written = p.written
    unfold release
    split
    · rename_i t hsaved
      exact absurd (h.no_write hclosed t _ hsaved) (by simp)
    · split
      · exact ⟨hclosed, rfl, rfl⟩
      · exact ⟨hclosed, rfl, rfl⟩
    · exact ⟨hclosed, rfl, rfl⟩

theorem run_closed {p : Persist ι T} (h : p.Inv) (hclosed : p.closed = true)
    (as : List (PersistAction ι T)) :
    (as.foldl step p).file = p.file ∧ (as.foldl step p).written = p.written := by
  have hrun : (as.foldl step p).Inv ∧ (as.foldl step p).closed = true ∧
      (as.foldl step p).file = p.file ∧ (as.foldl step p).written = p.written := by
    refine @GuardedRun.foldl_invariant _ _ step _ (fun q => q.Inv ∧ q.closed = true ∧
      q.file = p.file ∧ q.written = p.written) ?_ as ⟨h, hclosed, rfl, rfl⟩
    rintro q a ⟨hq, hqclosed, hfile, hwritten⟩
    obtain ⟨hkept, hsame, hlog⟩ := step_closed hq hqclosed a
    exact ⟨hq.step a, hkept, hsame.trans hfile, hlog.trans hwritten⟩
  exact hrun.2.2

/-! ## The law of a run -/

omit [DecidableEq ι] in
theorem InvAt.asNew {p : Persist ι T} {j k n : Nat} (h : p.InvAt j k) (hn : n ≤ j) : p.AsNew n := by
  rcases Nat.eq_zero_or_pos n with hzero | hpos
  · exact .inl hzero
  · exact .inr ⟨j - 1, by omega, h.filed (by omega)⟩

/-- **Snapshots never go back**: what is written is some of what was staged, in that order.  A call
that found the file open leaves in it a snapshot at least as new as the last staged before the call;
one that found it closed leaves what was staged before the call that closed it.  After a close
returns nothing is written. -/
theorem persist_law (file : T) (writable : Bool) (as : List (PersistAction ι T)) :
    let p := as.foldl step (new file writable)
    p.written.Sublist p.staged ∧
    (∀ t op n found, p.calls t = .returned op n found →
      if found then p.AsNew n else p.closed = true ∧ p.AsNew p.closedFrom) ∧
    ∀ t n found, p.calls t = .returned .close n found → ∀ bs : List (PersistAction ι T),
      (bs.foldl step p).file = p.file ∧ (bs.foldl step p).written = p.written := by
  intro p
  have hinv : p.Inv :=
    @GuardedRun.foldl_invariant _ _ step _ _ (fun q a hq => hq.step a) as (inv_new file writable)
  obtain ⟨j, k, h⟩ := hinv
  refine ⟨h.written.trans (List.take_sublist j p.staged), ?_, ?_⟩
  · intro t op n found hcall
    cases found with
    | true => exact h.asNew (h.found t op n hcall)
    | false =>
      have hclosed := h.refused t op n hcall
      exact ⟨hclosed, h.asNew (h.closed hclosed)⟩
  · intro t n found hcall bs
    exact run_closed ⟨j, k, h⟩ (h.closing t n found hcall) bs

/-- A snapshot staged after the close stays out of the file, whoever flushes. -/
theorem not_asNew_closed :
    let p := [.call 0 .close, .lock 0, .take, .save, .release, .stage 1, .call 0 .flush, .lock 0,
      .release].foldl step (new 0 true : Persist Nat Nat)
    p.calls 0 = .returned .flush 1 false ∧ ¬p.AsNew 1 ∧ p.file = 0 := by
  refine ⟨rfl, ?_, rfl⟩
  rintro (hzero | ⟨i, -, hi⟩)
  · cases hzero
  · have hmem := List.mem_of_getElem? hi
    exact absurd hmem (by decide)

end Persist

end Kintrinsic
