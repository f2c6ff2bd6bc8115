import Kintrinsic.LinkTypes
import Kintrinsic.StagedFile
import Mathlib.Data.List.Sort
import Mathlib.Logic.Function.Basic

/-! # The ward's outbox

Wraps to the guardian are offered to an outbox that every session drains.  An offer is recorded
under the state lock; its change signal is raised after the lock is released, and the file is
written later still.  A session's pump reads what is beyond its cursor, writes it oldest first, and
waits for a change it has not seen. -/
namespace Kintrinsic

/-! ## Entries and their retention -/

structure OutEntry where
  seq : Nat
  innerKind : Nat
  key : Option String
  offeredAt : Nat
  wrap : NostrEvent
deriving DecidableEq

/-- A wrap offered to the outbox.  A newer offer of the same kind with the same key replaces the
older one. -/
structure LocalOffer where
  innerKind : Nat
  key : Option String
  wrap : NostrEvent

def outboxCap : Nat := 64

namespace OutEntry

/-- Retention class of an inner kind: the class, and its seconds to live. -/
def retention (innerKind : Nat) : Nat × Nat :=
  if innerKind = Kinds.charterDeviceRequest then (0, 24 * 3600)
  else if innerKind = Kinds.charterDeviceAudit then (1, 48 * 3600)
  else if innerKind = Kinds.charterDeviceStatus then (2, 48 * 3600)
  else (3, 48 * 3600)

def retentionClass (e : OutEntry) : Nat := (retention e.innerKind).1

/-- What the file keeps of an entry: all but its sequence number. -/
def stored (e : OutEntry) : OutEntry := { e with seq := 0 }

/-- Whether an entry is within its class's time. -/
def fresh (now : Nat) (e : OutEntry) : Bool :=
  decide (now - e.offeredAt < (retention e.innerKind).2)

end OutEntry

/-! ## Pruning -/

/-- Drop the first `n` that satisfy a predicate. -/
def dropFirst {α : Type} (p : α → Bool) : Nat → List α → List α
  | 0, l => l
  | _, [] => []
  | n + 1, a :: l => if p a then dropFirst p n l else a :: dropFirst p (n + 1) l

def inClass (cls : Nat) (e : OutEntry) : Bool := decide (e.retentionClass = cls)

/-- One class brought within the cap, the oldest first. -/
def capClass (outbox : List OutEntry) (cls : Nat) : List OutEntry :=
  dropFirst (inClass cls) ((outbox.filter (inClass cls)).length - outboxCap) outbox

/-- `prune_outbox`. -/
def pruneOutbox (outbox : List OutEntry) (now : Nat) : List OutEntry :=
  (List.range 4).foldl capClass (outbox.filter (·.fresh now))

theorem retentionClass_lt (e : OutEntry) : e.retentionClass < 4 := by
  unfold OutEntry.retentionClass OutEntry.retention
  repeat' split
  all_goals decide

section
variable {α : Type} {p : α → Bool}

theorem dropFirst_sublist (n : Nat) (l : List α) : (dropFirst p n l).Sublist l := by
  induction l generalizing n with
  | nil => cases n <;> exact List.Sublist.refl _
  | cons a l ih =>
    cases n with
    | zero => exact List.Sublist.refl _
    | succ n =>
      unfold dropFirst
      split
      · exact (ih n).cons a
      · exact (ih (n + 1)).cons_cons a

theorem filter_dropFirst (n : Nat) (l : List α) :
    (dropFirst p n l).filter p = (l.filter p).drop n := by
  induction l generalizing n with
  | nil => cases n <;> rfl
  | cons a l ih =>
    cases n with
    | zero => rfl
    | succ n =>
      unfold dropFirst
      cases ha : p a with
      | true =>
        rw [if_pos rfl, List.filter_cons_of_pos ha, List.drop_succ_cons]
        exact ih n
      | false =>
        rw [if_neg Bool.false_ne_true, List.filter_cons_of_neg (by simp [ha]),
          List.filter_cons_of_neg (by simp [ha])]
        exact ih (n + 1)

/-- What the predicate spares stays, and in its place. -/
theorem filter_dropFirst_of_disjoint {q : α → Bool} (h : ∀ a, p a = true → q a = false) (n : Nat)
    (l : List α) : (dropFirst p n l).filter q = l.filter q := by
  induction l generalizing n with
  | nil => cases n <;> rfl
  | cons a l ih =>
    cases n with
    | zero => rfl
    | succ n =>
      unfold dropFirst
      cases ha : p a with
      | true =>
        rw [if_pos rfl, List.filter_cons_of_neg (by simp [h a ha])]
        exact ih n
      | false =>
        rw [if_neg Bool.false_ne_true, List.filter_cons, List.filter_cons, ih (n + 1)]

/-- What goes is among the first that satisfy the predicate. -/
theorem mem_take_of_notMem_dropFirst {n : Nat} {l : List α} {a : α} (ha : a ∈ l)
    (hnot : a ∉ dropFirst p n l) : p a = true ∧ a ∈ (l.filter p).take n := by
  have hp : p a = true := by
    by_contra hp
    have hspared := filter_dropFirst_of_disjoint (p := p) (q := fun b => !p b)
      (fun b hb => by simp [hb]) n l
    have hmem : a ∈ l.filter fun b => !p b := List.mem_filter.mpr ⟨ha, by simpa using hp⟩
    rw [← hspared] at hmem
    exact hnot (List.mem_filter.mp hmem).1
  refine ⟨hp, ?_⟩
  have hmem : a ∈ (l.filter p).take n ++ (l.filter p).drop n := by
    rw [List.take_append_drop]
    exact List.mem_filter.mpr ⟨ha, hp⟩
  rcases List.mem_append.mp hmem with htake | hdrop
  · exact htake
  · rw [← filter_dropFirst] at hdrop
    exact absurd (List.mem_filter.mp hdrop).1 hnot

end

/-- The class of an entry is full, with entries that all come after it. -/
structure Outlived (R : OutEntry → OutEntry → Prop) (e : OutEntry) (outbox : List OutEntry) :
    Prop where
  full : outboxCap ≤ (outbox.filter (inClass e.retentionClass)).length
  after : ∀ e' ∈ outbox, e'.retentionClass = e.retentionClass → R e e'

theorem capClass_sublist (outbox : List OutEntry) (cls : Nat) :
    (capClass outbox cls).Sublist outbox :=
  dropFirst_sublist _ _

theorem filter_capClass_of_ne {cls cls' : Nat} (h : cls ≠ cls') (outbox : List OutEntry) :
    (capClass outbox cls).filter (inClass cls') = outbox.filter (inClass cls') := by
  refine filter_dropFirst_of_disjoint ?_ _ _
  intro e he
  have hclass : e.retentionClass = cls := of_decide_eq_true he
  exact decide_eq_false (hclass ▸ h)

theorem capClass_le (outbox : List OutEntry) (cls : Nat) :
    ((capClass outbox cls).filter (inClass cls)).length ≤ outboxCap := by
  unfold capClass
  rw [filter_dropFirst, List.length_drop]
  omega

theorem outlived_capClass {R : OutEntry → OutEntry → Prop} {outbox : List OutEntry}
    (hR : outbox.Pairwise R) {cls : Nat} {e : OutEntry} (he : e ∈ outbox)
    (hgone : e ∉ capClass outbox cls) :
    e.retentionClass = cls ∧ Outlived R e (capClass outbox cls) := by
  obtain ⟨hp, htake⟩ := mem_take_of_notMem_dropFirst he hgone
  have hclass : e.retentionClass = cls := of_decide_eq_true hp
  subst hclass
  have hdrop := filter_dropFirst (p := inClass e.retentionClass)
    ((outbox.filter (inClass e.retentionClass)).length - outboxCap) outbox
  refine ⟨rfl, ?_, ?_⟩
  · unfold capClass
    rw [hdrop, List.length_drop]
    have hlen := List.length_pos_of_mem htake
    rw [List.length_take] at hlen
    omega
  · intro e' he' hsame
    have hmem : e' ∈ (capClass outbox e.retentionClass).filter (inClass e.retentionClass) :=
      List.mem_filter.mpr ⟨he', decide_eq_true hsame⟩
    unfold capClass at hmem
    rw [hdrop] at hmem
    have hsplit := hR.filter (inClass e.retentionClass)
    rw [← List.take_append_drop ((outbox.filter (inClass e.retentionClass)).length - outboxCap)
      (outbox.filter (inClass e.retentionClass))] at hsplit
    exact (List.pairwise_append.mp hsplit).2.2 e htake e' hmem

theorem foldl_capClass_sublist (classes : List Nat) (outbox : List OutEntry) :
    (classes.foldl capClass outbox).Sublist outbox := by
  induction classes generalizing outbox with
  | nil => exact List.Sublist.refl _
  | cons cls classes ih => exact (ih _).trans (capClass_sublist outbox cls)

theorem filter_foldl_capClass {cls : Nat} {classes : List Nat} (h : cls ∉ classes)
    (outbox : List OutEntry) :
    (classes.foldl capClass outbox).filter (inClass cls) = outbox.filter (inClass cls) := by
  induction classes generalizing outbox with
  | nil => rfl
  | cons cls' classes ih =>
    obtain ⟨hne, hrest⟩ := not_or.mp (mt List.mem_cons.mpr h)
    rw [List.foldl_cons, ih hrest, filter_capClass_of_ne (Ne.symm hne)]

theorem outlived_foldl {R : OutEntry → OutEntry → Prop} {classes : List Nat}
    (hnodup : classes.Nodup) {outbox : List OutEntry} (hR : outbox.Pairwise R) {e : OutEntry}
    (he : e ∈ outbox) (hgone : e ∉ classes.foldl capClass outbox) :
    Outlived R e (classes.foldl capClass outbox) := by
  induction classes generalizing outbox with
  | nil => exact absurd he hgone
  | cons cls classes ih =>
    obtain ⟨hcls, hrest⟩ := List.nodup_cons.mp hnodup
    rw [List.foldl_cons] at hgone ⊢
    by_cases hkept : e ∈ capClass outbox cls
    · exact ih hrest (hR.sublist (capClass_sublist outbox cls)) hkept hgone
    · obtain ⟨hclass, hout⟩ := outlived_capClass hR he hkept
      refine ⟨?_, ?_⟩
      · rw [filter_foldl_capClass (hclass ▸ hcls)]
        exact hout.full
      · intro e' he'
        exact hout.after e' ((foldl_capClass_sublist classes _).subset he')

theorem foldl_capClass_le {cls : Nat} {classes : List Nat} (h : cls ∈ classes)
    (outbox : List OutEntry) :
    ((classes.foldl capClass outbox).filter (inClass cls)).length ≤ outboxCap := by
  induction classes generalizing outbox with
  | nil => cases h
  | cons cls' classes ih =>
    rw [List.foldl_cons]
    rcases List.mem_cons.mp h with rfl | hrest
    · exact (((foldl_capClass_sublist classes _).filter _).length_le).trans
        (capClass_le outbox cls)
    · exact ih hrest _

theorem pruneOutbox_sublist (outbox : List OutEntry) (now : Nat) :
    (pruneOutbox outbox now).Sublist outbox :=
  (foldl_capClass_sublist _ _).trans List.filter_sublist

/-- No class is over its cap after a prune. -/
theorem pruneOutbox_le (outbox : List OutEntry) (now cls : Nat) :
    ((pruneOutbox outbox now).filter (inClass cls)).length ≤ outboxCap := by
  by_cases h : cls < 4
  · exact foldl_capClass_le (List.mem_range.mpr h) _
  · have hempty : (pruneOutbox outbox now).filter (inClass cls) = [] := by
      refine List.filter_eq_nil_iff.mpr ?_
      intro e _ he
      exact h (of_decide_eq_true he ▸ retentionClass_lt e)
    rw [hempty]
    exact Nat.zero_le _

/-- **What a prune drops** is expired, or outlived by a full class. -/
theorem dropped_by_prune {R : OutEntry → OutEntry → Prop} {outbox : List OutEntry}
    (hR : outbox.Pairwise R) {now : Nat} {e : OutEntry} (he : e ∈ outbox)
    (hgone : e ∉ pruneOutbox outbox now) :
    e.fresh now = false ∨ Outlived R e (pruneOutbox outbox now) := by
  cases hfresh : e.fresh now with
  | false => exact Or.inl rfl
  | true =>
    exact Or.inr (outlived_foldl List.nodup_range (hR.filter _)
      (List.mem_filter.mpr ⟨he, hfresh⟩) hgone)

-- from here on a prune is what the lemmas above say of it
attribute [irreducible] pruneOutbox

/-! ## The state -/

/-- What a pump writes: the sequence number it counts by, and the wrap. -/
abbrev Numbered := Nat × NostrEvent

inductive PumpPhase
  | reading
  | sending (rest : List Numbered)
  | waiting
deriving DecidableEq

/-- A session's pump: its cursor, the change it has seen, what it is doing, and what it has written,
the newest last. -/
structure Pump where
  cursor : Nat
  seen : Nat
  phase : PumpPhase
  written : List Numbered
deriving DecidableEq

structure WardOutbox where
  guardian : PubKey
  closed : Bool
  outbox : List OutEntry
  nextSeq : Nat
  file : StagedFile (List OutEntry)
  -- the changes signalled so far, and the offers whose signal is still to come
  version : Nat
  signals : List Nat
  pumps : Nat → Option Pump

inductive OutboxMove
  | offer (o : LocalOffer) (now : Nat)
  | signal (seq : Nat)
  | okFrame (wrap : EventId)
  | snapshot (now : Nat)
  | takeWrite
  | landWrite
  | shutdown
  | closeFile
  | openSession (sid : Nat)
  | pumpReads (sid now : Nat)
  | pumpWrites (sid : Nat)
  | pumpWakes (sid : Nat)
  | closeSession (sid : Nat)
  | restart (guardian : PubKey) (now : Nat)

/-- Whether a wrap may travel to a guardian. -/
def acceptedBy (check : WrapCheck) (guardian : PubKey) (wrap : NostrEvent) : Bool :=
  match validateWrapFor check wrap guardian with
  | .ok _ => true
  | .error _ => false

/-- An entry older than another, or as old. -/
def OfferedBefore (a b : OutEntry) : Prop := a.offeredAt ≤ b.offeredAt

instance : DecidableRel OfferedBefore := fun a b =>
  inferInstanceAs (Decidable (a.offeredAt ≤ b.offeredAt))

instance : Std.Total OfferedBefore := ⟨fun a b => le_total a.offeredAt b.offeredAt⟩

instance : IsTrans OutEntry OfferedBefore := ⟨fun _ _ _ => le_trans⟩

/-- The entries in the order of a restart, numbered from one. -/
def renumber (entries : List OutEntry) : List OutEntry :=
  (entries.insertionSort OfferedBefore).mapIdx fun i e => { e with seq := i + 1 }

/-- What a pump finds beyond its cursor, oldest first. -/
def beyond (cursor : Nat) (outbox : List OutEntry) : List Numbered :=
  ((outbox.filter fun e => decide (cursor < e.seq)).map fun e => (e.seq, e.wrap)).insertionSort
    fun a b => a.1 ≤ b.1

namespace WardOutbox
variable (check : WrapCheck) (s : WardOutbox)

def stageOutbox : WardOutbox :=
  if s.closed then s else { s with file := s.file.stage (s.outbox.map OutEntry.stored) }

/-- Whether an offer replaces an entry. -/
def replacedBy (o : LocalOffer) (e : OutEntry) : Bool :=
  o.key.isSome && decide (e.innerKind = o.innerKind) && decide (e.key = o.key)

/-- `offer`, up to the release of the lock. -/
def offer (o : LocalOffer) (now : Nat) : WardOutbox :=
  if !acceptedBy check s.guardian o.wrap then s
  else if s.closed then s
  else
    let kept := pruneOutbox s.outbox now
    if kept.any fun e => decide (e.wrap.id = o.wrap.id) then { s with outbox := kept }
    else
      let entry : OutEntry := ⟨s.nextSeq, o.innerKind, o.key, now, o.wrap⟩
      { s with
        outbox := pruneOutbox ((kept.filter fun e => !replacedBy o e) ++ [entry]) now
        nextSeq := s.nextSeq + 1
        signals := s.nextSeq :: s.signals }.stageOutbox

/-- `send_replace`: every change counts as one. -/
def signal (seq : Nat) : WardOutbox :=
  if seq ∈ s.signals then
    { s with version := s.version + 1, signals := s.signals.erase seq }
  else s

/-- `remove_from_outbox`: the guardian has stored or refused a wrap. -/
def removeFromOutbox (wrap : EventId) : WardOutbox :=
  let kept := s.outbox.filter fun e => decide (e.wrap.id ≠ wrap)
  if kept.length = s.outbox.length then s else { s with outbox := kept }.stageOutbox

def setPump (sid : Nat) (p : Option Pump) : WardOutbox :=
  { s with pumps := Function.update s.pumps sid p }

/-- One critical section of a pump, by what it is doing. -/
def pumpReads (sid now : Nat) : WardOutbox :=
  match s.pumps sid with
  | some ⟨cursor, seen, .reading, written⟩ =>
    let kept := pruneOutbox s.outbox now
    { s with outbox := kept }.setPump sid
      (some ⟨cursor, seen, .sending (beyond cursor kept), written⟩)
  | _ => s

def pumpWrites (sid : Nat) : WardOutbox :=
  match s.pumps sid with
  | some ⟨_, seen, .sending (next :: rest), written⟩ =>
    s.setPump sid (some ⟨next.1, seen, .sending rest, written ++ [next]⟩)
  | some ⟨cursor, seen, .sending [], written⟩ =>
    s.setPump sid (some ⟨cursor, seen, .waiting, written⟩)
  | _ => s

/-- `changed`: a change not yet seen is seen. -/
def pumpWakes (sid : Nat) : WardOutbox :=
  match s.pumps sid with
  | some ⟨cursor, seen, .waiting, written⟩ =>
    if seen = s.version then s
    else s.setPump sid (some ⟨cursor, s.version, .reading, written⟩)
  | _ => s

/-- `spawn`, over what the last process left on disk. -/
def restart (guardian : PubKey) (now : Nat) : WardOutbox :=
  let stored := s.file.disk
  let valid := renumber (stored.filter fun e => acceptedBy check guardian e.wrap)
  let kept := pruneOutbox valid now
  let found := StagedFile.load stored
  let dirty := decide (valid.length ≠ stored.length) || decide (kept.length ≠ valid.length)
  { guardian := guardian
    closed := false
    outbox := kept
    nextSeq := valid.length + 1
    file := if dirty then (found.stage (kept.map OutEntry.stored)).flush else found
    version := 0
    signals := []
    pumps := fun _ => none }

/-- One step. -/
def step : OutboxMove → WardOutbox
  | .offer o now => s.offer check o now
  | .signal seq => s.signal seq
  | .okFrame wrap => s.removeFromOutbox wrap
  | .snapshot now => { s with outbox := pruneOutbox s.outbox now }
  | .takeWrite => { s with file := s.file.take }
  | .landWrite => { s with file := s.file.land }
  | .shutdown => { s with closed := true }
  | .closeFile => { s with file := s.file.close }
  | .openSession sid =>
    if s.closed || (s.pumps sid).isSome then s
    else s.setPump sid (some ⟨0, s.version, .reading, []⟩)
  | .pumpReads sid now => s.pumpReads sid now
  | .pumpWrites sid => s.pumpWrites sid
  | .pumpWakes sid => s.pumpWakes sid
  | .closeSession sid => s.setPump sid none
  | .restart guardian now => s.restart check guardian now

/-- A first start, with nothing on disk. -/
def start (guardian : PubKey) : WardOutbox :=
  ⟨guardian, false, [], 1, .load [], 0, [], fun _ => none⟩

end WardOutbox

end Kintrinsic
