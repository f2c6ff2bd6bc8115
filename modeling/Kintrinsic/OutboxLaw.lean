import Kintrinsic.OutboxRuns

/-! # The law of the ward's outbox

Why an entry leaves, what a restart brings back, and what a waiting pump has written. -/
namespace Kintrinsic

open GuardedRun

/-- The clock reading of a move that prunes, a restart apart. -/
def OutboxMove.now? : OutboxMove → Option Nat
  | offer _ now => some now
  | snapshot now => some now
  | pumpReads _ now => some now
  | _ => none

namespace WardOutbox

/-! ## Why entries leave -/

/-- Why a move takes an entry out. -/
inductive Leaves (s' : WardOutbox) (e : OutEntry) : OutboxMove → Prop
  | answered : Leaves s' e (.okFrame e.wrap.id)
  | expired {move : OutboxMove} {now : Nat} :
    move.now? = some now → e.fresh now = false → Leaves s' e move
  | capped {o : LocalOffer} {now : Nat} :
    Outlived (fun a b => a.seq < b.seq) e s'.outbox → Leaves s' e (.offer o now)
  | replaced {o : LocalOffer} {now : Nat} :
    e.innerKind = o.innerKind → e.key = o.key → o.key.isSome → Leaves s' e (.offer o now)

variable {check : WrapCheck} {s : WardOutbox}

theorem length_filter_lt {kept outbox : List OutEntry} (hsub : kept.Sublist outbox) {e : OutEntry}
    (he : e ∈ outbox) (hgone : e ∉ kept) :
    (kept.filter (inClass e.retentionClass)).length <
      (outbox.filter (inClass e.retentionClass)).length := by
  have hfilter := hsub.filter (inClass e.retentionClass)
  refine lt_of_le_of_ne hfilter.length_le ?_
  intro heq
  have hmem : e ∈ outbox.filter (inClass e.retentionClass) :=
    List.mem_filter.mpr ⟨he, decide_eq_true rfl⟩
  rw [← hfilter.eq_of_length heq] at hmem
  exact hgone (List.mem_filter.mp hmem).1

/-- With no class over its cap a prune drops what has expired. -/
theorem Tidy.expired_of_pruned (h : Tidy s) {now : Nat} {e : OutEntry} (he : e ∈ s.outbox)
    (hgone : e ∉ pruneOutbox s.outbox now) : e.fresh now = false := by
  rcases dropped_by_prune h.ordered he hgone with hexpired | hout
  · exact hexpired
  · have hlt := length_filter_lt (pruneOutbox_sublist s.outbox now) he hgone
    exact absurd (hout.full.trans_lt hlt) (not_lt.mpr (h.few _))

theorem outbox_stageOutbox (s : WardOutbox) : s.stageOutbox.outbox = s.outbox := by
  unfold stageOutbox
  split <;> rfl

theorem Tidy.leaves_offer (h : Tidy s) {o : LocalOffer} {now : Nat} {e : OutEntry}
    (he : e ∈ s.outbox) (hgone : e ∉ (s.offer check o now).outbox) :
    Leaves (s.offer check o now) e (.offer o now) := by
  rcases @offer_cases check s o now with heq | heq | ⟨-, -, heq⟩
  · rw [heq] at hgone
    exact absurd he hgone
  · rw [heq] at hgone
    exact .expired rfl (h.expired_of_pruned he hgone)
  · have hout : (s.offer check o now).outbox = pruneOutbox (s.offered o now) now := by
      rw [heq, outbox_stageOutbox]
    by_cases hkept : e ∈ pruneOutbox s.outbox now
    · cases hreplaced : replacedBy o e with
      | true =>
        unfold replacedBy at hreplaced
        rw [Bool.and_eq_true, Bool.and_eq_true, decide_eq_true_eq, decide_eq_true_eq] at hreplaced
        exact .replaced hreplaced.1.2 hreplaced.2 hreplaced.1.1
      | false =>
        have hoffered : e ∈ s.offered o now :=
          List.mem_append_left _ (List.mem_filter.mpr ⟨hkept, by rw [hreplaced, Bool.not_false]⟩)
        rw [hout] at hgone
        rcases dropped_by_prune (h.ordered_offered o now) hoffered hgone with hexpired | houtlived
        · exact .expired rfl hexpired
        · exact .capped (hout ▸ houtlived)
    · exact .expired rfl (h.expired_of_pruned he hkept)

/-- **Step.**  An entry leaves through an answer, its time, its class's cap or its replacement. -/
theorem Tidy.leaves (h : Tidy s) {move : OutboxMove}
    (hmove : ∀ guardian now, move ≠ .restart guardian now) {e : OutEntry}
    (he : e ∈ s.outbox) (hgone : e ∉ (s.step check move).outbox) :
    Leaves (s.step check move) e move := by
  cases move with
  | offer o now => exact h.leaves_offer he hgone
  | signal seq =>
    unfold WardOutbox.step WardOutbox.signal at hgone
    dsimp only at hgone
    split at hgone <;> exact absurd he hgone
  | okFrame wrap =>
    unfold WardOutbox.step WardOutbox.removeFromOutbox at hgone
    dsimp only at hgone
    split at hgone
    · exact absurd he hgone
    · rw [outbox_stageOutbox] at hgone
      have hid : e.wrap.id = wrap := by
        by_contra hne
        exact hgone (List.mem_filter.mpr ⟨he, decide_eq_true hne⟩)
      exact hid ▸ .answered
  | snapshot now => exact .expired rfl (h.expired_of_pruned he hgone)
  | takeWrite => exact absurd he hgone
  | landWrite => exact absurd he hgone
  | shutdown => exact absurd he hgone
  | closeFile => exact absurd he hgone
  | openSession sid =>
    unfold WardOutbox.step at hgone
    dsimp only at hgone
    split at hgone <;> exact absurd he hgone
  | pumpReads sid now =>
    refine .expired rfl (h.expired_of_pruned he ?_)
    unfold WardOutbox.step WardOutbox.pumpReads at hgone
    dsimp only at hgone
    split at hgone
    · exact hgone
    · exact absurd he hgone
  | pumpWrites sid =>
    unfold WardOutbox.step WardOutbox.pumpWrites at hgone
    dsimp only at hgone
    split at hgone <;> exact absurd he hgone
  | pumpWakes sid =>
    unfold WardOutbox.step WardOutbox.pumpWakes at hgone
    dsimp only at hgone
    split at hgone
    · split at hgone <;> exact absurd he hgone
    · exact absurd he hgone
  | closeSession sid => exact absurd he hgone
  | restart guardian now => exact absurd rfl (hmove guardian now)

/-- **An offer evicts no entry of another class**: what leaves beside it has expired. -/
theorem Tidy.offer_classes (h : Tidy s) {o : LocalOffer} {now : Nat} {e : OutEntry}
    (he : e ∈ s.outbox) (hgone : e ∉ (s.offer check o now).outbox)
    (hclass : e.retentionClass ≠ (OutEntry.retention o.innerKind).1) : e.fresh now = false := by
  cases h.leaves_offer he hgone with
  | expired hnow hexpired =>
    cases hnow
    exact hexpired
  | capped hout =>
    rcases @offer_cases check s o now with heq | heq | ⟨-, -, heq⟩
    · rw [heq] at hgone
      exact absurd he hgone
    · rw [heq] at hgone
      exact h.expired_of_pruned he hgone
    · have hfull := hout.full
      rw [heq, outbox_stageOutbox] at hfull hgone
      -- the newcomer is of another class, so those that are left were all there before
      have hnew : ([⟨s.nextSeq, o.innerKind, o.key, now, o.wrap⟩] : List OutEntry).filter
          (inClass e.retentionClass) = [] :=
        List.filter_eq_nil_iff.mpr fun e' he' => by
          rw [List.mem_singleton.mp he']
          exact fun hsame => hclass (of_decide_eq_true hsame).symm
      have hold : ((pruneOutbox (s.offered o now) now).filter (inClass e.retentionClass)).Sublist
          (s.outbox.filter (inClass e.retentionClass)) := by
        refine ((pruneOutbox_sublist _ now).filter _).trans ?_
        unfold offered
        rw [List.filter_append, hnew, List.append_nil]
        exact (List.filter_sublist.trans (pruneOutbox_sublist _ _)).filter _
      have hmem : e ∈ s.outbox.filter (inClass e.retentionClass) :=
        List.mem_filter.mpr ⟨he, decide_eq_true rfl⟩
      have hlen := hold.length_le.antisymm ((h.few _).trans hfull)
      rw [← hold.eq_of_length hlen] at hmem
      exact absurd (List.mem_filter.mp hmem).1 hgone
  | replaced hkind _ _ => exact absurd (congrArg (fun k => (OutEntry.retention k).1) hkind) hclass

/-- **Restart.**  An entry that does not come back was not on disk, is refused by the guardian now
pinned, has expired, or is outlived by a full class. -/
theorem lost_at_restart {guardian : PubKey} {now : Nat} {e : OutEntry}
    (hgone : ∀ e' ∈ (s.restart check guardian now).outbox, e'.wrap.id ≠ e.wrap.id) :
    e.stored ∉ s.file.disk ∨ acceptedBy check guardian e.wrap = false ∨ e.fresh now = false ∨
      Outlived OfferedBefore e (s.restart check guardian now).outbox := by
  by_cases hdisk : e.stored ∈ s.file.disk
  · refine Or.inr ?_
    cases haccepted : acceptedBy check guardian e.wrap with
    | false => exact Or.inl rfl
    | true =>
      refine Or.inr ?_
      have hvalid : e.stored ∈ s.file.disk.filter fun e => acceptedBy check guardian e.wrap :=
        List.mem_filter.mpr ⟨hdisk, haccepted⟩
      obtain ⟨n, hn⟩ := exists_mem_renumber hvalid
      have hsorted : (found check s guardian).Pairwise OfferedBefore :=
        pairwise_renumber (List.pairwise_insertionSort OfferedBefore _) fun _ _ _ _ hle _ => hle
      rcases @dropped_by_prune _ _ hsorted now _ hn
        (fun hmem => hgone _ hmem rfl) with hexpired | hout
      · exact Or.inl hexpired
      · exact Or.inr ⟨hout.full, hout.after⟩
  · exact Or.inl hdisk

/-! ## The law -/

/-- What holds in a state of a run, whatever comes next. -/
structure OutboxLaw (check : WrapCheck) (s : WardOutbox) : Prop where
  leaves : ∀ move, (∀ guardian now, move ≠ .restart guardian now) → ∀ e ∈ s.outbox,
    e ∉ (s.step check move).outbox → Leaves (s.step check move) e move
  restarts : ∀ guardian now, ∀ e ∈ s.outbox,
    (∀ e' ∈ (s.step check (.restart guardian now)).outbox, e'.wrap.id ≠ e.wrap.id) →
    e.stored ∉ s.file.disk ∨ acceptedBy check guardian e.wrap = false ∨ e.fresh now = false ∨
      Outlived OfferedBefore e (s.step check (.restart guardian now)).outbox
  saved : ∀ e ∈ s.outbox, e.stored ∈ s.file.newest
  classes : ∀ o now, ∀ e ∈ s.outbox, e ∉ (s.step check (.offer o now)).outbox →
    e.retentionClass ≠ (OutEntry.retention o.innerKind).1 → e.fresh now = false
  ids : (s.outbox.map (·.wrap.id)).Nodup
  ordered : ∀ sid p, s.pumps sid = some p → p.written.Pairwise fun a b => a.1 < b.1
  waiting : ∀ sid p, s.pumps sid = some p → p.phase = .waiting → p.seen = s.version →
    ∀ e ∈ s.outbox, (e.seq, e.wrap) ∈ p.written ∨ e.seq ∈ s.signals

theorem Drains.waiting {p : Pump} (h : Drains s p) (hphase : p.phase = .waiting)
    (hseen : p.seen = s.version) {e : OutEntry} (he : e ∈ s.outbox) :
    (e.seq, e.wrap) ∈ p.written ∨ e.seq ∈ s.signals := by
  by_cases hle : e.seq ≤ p.cursor
  · exact Or.inl (h.done e he hle)
  · have hahead := h.ahead [] (by rw [hphase]; rfl)
    rcases hahead.covers e he (not_le.mp hle) with hmem | ⟨-, hunseen | hsignal⟩
    · cases hmem
    · exact absurd hseen hunseen
    · exact Or.inr hsignal

/-- **The law of the outbox, in every run.** -/
theorem outbox_law (check : WrapCheck) (guardian : PubKey) (moves : List OutboxMove) :
    OutboxLaw check (moves.foldl (WardOutbox.step check) (.start guardian)) := by
  have hstep : ∀ s move, Tidy s ∧ Saved s →
      Tidy (s.step check move) ∧ Saved (s.step check move) :=
    fun s move hs => ⟨hs.1.step move, hs.2.step hs.1 move⟩
  have hstart : Tidy (.start guardian) ∧ Saved (.start guardian) :=
    ⟨Tidy.start guardian, fun _ he => nomatch he⟩
  obtain ⟨htidy, hsaved⟩ := foldl_invariant (I := fun s => Tidy s ∧ Saved s) hstep moves hstart
  exact ⟨fun move hmove e he => htidy.leaves hmove he, fun _ _ e _ => lost_at_restart, hsaved,
    fun _ _ e he => htidy.offer_classes he, List.pairwise_map.mpr htidy.ids,
    fun sid p hp => (htidy.drains sid p hp).ordered,
    fun sid p hp hphase hseen e he => (htidy.drains sid p hp).waiting hphase hseen he⟩

/-! ### Before the write, and before the signal -/

/-- Hashes and signatures that always fit. -/
def plainCheck : WrapCheck := ⟨⟨fun wrap => wrap.id, fun _ _ _ => true⟩, fun _ => 0⟩

def pinned : PubKey := ⟨5⟩

/-- A request, sealed to the guardian. -/
def request : LocalOffer :=
  ⟨Kinds.charterDeviceRequest, none,
    ⟨⟨1⟩, ⟨7⟩, 100, Kinds.giftWrap, [["p", pinned.toHex]], "", ⟨0⟩⟩⟩

/-- The process ends before the write. -/
def offers : List OutboxMove := [.offer request 100]

/-- A pump has drained the outbox when a request is offered. -/
def offersToAWaitingPump : List OutboxMove :=
  [.openSession 1, .pumpReads 1 100, .pumpWrites 1, .offer request 100]

/-- **Lost and not yet written**: an entry that no answer, time, cap or offer took out is gone after
a restart, and a pump that has seen every change waits beside an entry it has not written. -/
theorem not_outboxLaw_beforeTheWrite :
    ((offers.foldl (WardOutbox.step plainCheck) (.start pinned)).outbox.map (·.wrap) =
        [request.wrap] ∧
      ((offers ++ [OutboxMove.restart pinned 101]).foldl (WardOutbox.step plainCheck)
        (.start pinned)).outbox = []) ∧
    ∃ p, (offersToAWaitingPump.foldl (WardOutbox.step plainCheck)
        (.start pinned)).pumps 1 = some p ∧
      p.phase = .waiting ∧
      p.seen = (offersToAWaitingPump.foldl (WardOutbox.step plainCheck) (.start pinned)).version ∧
      p.written = [] ∧
      (offersToAWaitingPump.foldl (WardOutbox.step plainCheck) (.start pinned)).outbox.map
        (·.wrap) = [request.wrap] := by
  refine ⟨⟨?_, ?_⟩, ⟨0, 0, .waiting, []⟩, ?_, rfl, ?_, rfl, ?_⟩
  all_goals decide +kernel

end WardOutbox

end Kintrinsic
