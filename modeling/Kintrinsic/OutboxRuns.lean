import Kintrinsic.GuardedRun
import Kintrinsic.WardOutbox

/-! # Runs of the ward's outbox

The invariant of every run: sequence numbers grow along the outbox, wrap ids are apart, no class is
over its cap, and what a pump has neither written nor still to write came after its last read.  What
a step takes out of the outbox it takes for a reason. -/
namespace Kintrinsic

open GuardedRun

/-- What a pump has still to write: nothing is known while it reads. -/
def PumpPhase.rest? : PumpPhase → Option (List Numbered)
  | reading => none
  | sending rest => some rest
  | waiting => some []

namespace WardOutbox

/-! ## The invariant -/

/-- A snapshot in the file: wrap ids apart, and no sequence numbers. -/
structure Filed (entries : List OutEntry) : Prop where
  ids : entries.Pairwise fun a b => a.wrap.id ≠ b.wrap.id
  unnumbered : ∀ e ∈ entries, e.seq = 0

/-- What is still to write is beyond the cursor, in order, and complete but for entries offered
since, of which the pump has still to hear. -/
structure Ahead (s : WardOutbox) (cursor seen : Nat) (rest : List Numbered) : Prop where
  ordered : rest.Pairwise fun a b => a.1 < b.1
  within : ∀ r ∈ rest, cursor < r.1 ∧ r.1 < s.nextSeq
  covers : ∀ e ∈ s.outbox, cursor < e.seq → (e.seq, e.wrap) ∈ rest ∨
    (∀ r ∈ rest, r.1 < e.seq) ∧ (seen ≠ s.version ∨ e.seq ∈ s.signals)

structure Drains (s : WardOutbox) (p : Pump) : Prop where
  seen : p.seen ≤ s.version
  cursor : p.cursor < s.nextSeq
  done : ∀ e ∈ s.outbox, e.seq ≤ p.cursor → (e.seq, e.wrap) ∈ p.written
  ordered : p.written.Pairwise fun a b => a.1 < b.1
  past : ∀ w ∈ p.written, w.1 ≤ p.cursor
  ahead : ∀ rest ∈ p.phase.rest?, Ahead s p.cursor p.seen rest

/-- **The invariant.** -/
structure Tidy (s : WardOutbox) : Prop where
  positive : 0 < s.nextSeq
  few : ∀ cls, (s.outbox.filter (inClass cls)).length ≤ outboxCap
  ordered : s.outbox.Pairwise fun a b => a.seq < b.seq
  bound : ∀ e ∈ s.outbox, 0 < e.seq ∧ e.seq < s.nextSeq
  ids : s.outbox.Pairwise fun a b => a.wrap.id ≠ b.wrap.id
  filed : s.file.All Filed
  drains : ∀ sid p, s.pumps sid = some p → Drains s p

/-- Every entry is in the newest snapshot. -/
def Saved (s : WardOutbox) : Prop := ∀ e ∈ s.outbox, e.stored ∈ s.file.newest

variable {check : WrapCheck} {s s' : WardOutbox}

theorem filed_map_stored {entries : List OutEntry}
    (h : entries.Pairwise fun a b => a.wrap.id ≠ b.wrap.id) :
    Filed (entries.map OutEntry.stored) := by
  refine ⟨List.pairwise_map.mpr h, ?_⟩
  intro e he
  obtain ⟨e', -, rfl⟩ := List.mem_map.mp he
  rfl

/-- A pump drains on when what is new in the outbox has its signal still to come. -/
theorem Drains.grow {p : Pump}
    (hout : ∀ e ∈ s'.outbox, e ∈ s.outbox ∨ s.nextSeq ≤ e.seq ∧ e.seq ∈ s'.signals)
    (hnext : s.nextSeq ≤ s'.nextSeq) (hversion : s'.version = s.version)
    (hsignals : ∀ q ∈ s.signals, q ∈ s'.signals) (h : Drains s p) : Drains s' p := by
  refine ⟨hversion ▸ h.seen, h.cursor.trans_le hnext, ?_, h.ordered, h.past, ?_⟩
  · intro e he hle
    rcases hout e he with hold | ⟨hnew, -⟩
    · exact h.done e hold hle
    · exact absurd (h.cursor.trans_le hnew) (not_lt.mpr hle)
  · intro rest hrest
    have hahead := h.ahead rest hrest
    refine ⟨hahead.ordered, ?_, ?_⟩
    · exact fun r hr => ⟨(hahead.within r hr).1, (hahead.within r hr).2.trans_le hnext⟩
    · intro e he hlt
      rcases hout e he with hold | ⟨hnew, hsignal⟩
      · rcases hahead.covers e hold hlt with hmem | ⟨hlater, hunseen | hsignal⟩
        · exact Or.inl hmem
        · exact Or.inr ⟨hlater, Or.inl (hversion ▸ hunseen)⟩
        · exact Or.inr ⟨hlater, Or.inr (hsignals _ hsignal)⟩
      · exact Or.inr ⟨fun r hr => (hahead.within r hr).2.trans_le hnew, Or.inr hsignal⟩

/-! ## Steps that take entries out -/

theorem Tidy.shrink (h : Tidy s) {kept : List OutEntry} (hsub : kept.Sublist s.outbox) :
    Tidy { s with outbox := kept } := by
  refine ⟨h.positive, ?_, h.ordered.sublist hsub, fun e he => h.bound e (hsub.subset he),
    h.ids.sublist hsub, h.filed, ?_⟩
  · exact fun cls => ((hsub.filter (inClass cls)).length_le).trans (h.few cls)
  · intro sid p hp
    exact (h.drains sid p hp).grow (fun e he => Or.inl (hsub.subset he)) le_rfl rfl fun _ => id

theorem Tidy.withFile (h : Tidy s) {file : StagedFile (List OutEntry)} (hfile : file.All Filed) :
    Tidy { s with file := file } := by
  refine ⟨h.positive, h.few, h.ordered, h.bound, h.ids, hfile, ?_⟩
  intro sid p hp
  exact Drains.grow (s := s) (fun _ => Or.inl) le_rfl rfl (fun _ => id) (h.drains sid p hp)

theorem Tidy.stageOutbox (h : Tidy s) : Tidy s.stageOutbox := by
  unfold WardOutbox.stageOutbox
  split
  · exact h
  · exact h.withFile (h.filed.stage (filed_map_stored h.ids))

theorem Tidy.removeFromOutbox (h : Tidy s) (wrap : EventId) : Tidy (s.removeFromOutbox wrap) := by
  unfold WardOutbox.removeFromOutbox
  dsimp only
  split
  · exact h
  · exact (h.shrink List.filter_sublist).stageOutbox

/-! ## Offers and signals -/

/-- The outbox between the two prunes of an offer. -/
def offered (s : WardOutbox) (o : LocalOffer) (now : Nat) : List OutEntry :=
  ((pruneOutbox s.outbox now).filter fun e => !replacedBy o e) ++
    [⟨s.nextSeq, o.innerKind, o.key, now, o.wrap⟩]

/-- **An offer** is refused, or prunes only, or records an entry. -/
theorem offer_cases (s : WardOutbox) (o : LocalOffer) (now : Nat) :
    s.offer check o now = s ∨
    s.offer check o now = { s with outbox := pruneOutbox s.outbox now } ∨
    s.closed = false ∧ (∀ e ∈ pruneOutbox s.outbox now, e.wrap.id ≠ o.wrap.id) ∧
      s.offer check o now =
        { s with
          outbox := pruneOutbox (s.offered o now) now
          nextSeq := s.nextSeq + 1
          signals := s.nextSeq :: s.signals }.stageOutbox := by
  unfold WardOutbox.offer
  cases haccepted : acceptedBy check s.guardian o.wrap with
  | false => exact Or.inl rfl
  | true =>
    cases hclosed : s.closed with
    | true => exact Or.inl rfl
    | false =>
      dsimp only
      rw [Bool.not_true, if_neg Bool.false_ne_true, if_neg Bool.false_ne_true]
      split
      · exact Or.inr (Or.inl rfl)
      · rename_i hfresh
        refine Or.inr (Or.inr ⟨rfl, ?_, rfl⟩)
        simpa using hfresh

theorem mem_offered {o : LocalOffer} {now : Nat} {e : OutEntry} (h : e ∈ s.offered o now) :
    e ∈ s.outbox ∨ e = ⟨s.nextSeq, o.innerKind, o.key, now, o.wrap⟩ := by
  rcases List.mem_append.mp h with hold | hnew
  · exact Or.inl ((pruneOutbox_sublist _ _).subset (List.mem_filter.mp hold).1)
  · exact Or.inr (List.mem_singleton.mp hnew)

/-- What holds along the outbox and of every entry with the newcomer holds along what is offered. -/
theorem pairwise_offered {R : OutEntry → OutEntry → Prop} (hR : s.outbox.Pairwise R)
    {o : LocalOffer} {now : Nat}
    (hnew : ∀ e ∈ pruneOutbox s.outbox now, R e ⟨s.nextSeq, o.innerKind, o.key, now, o.wrap⟩) :
    (s.offered o now).Pairwise R := by
  refine List.pairwise_append.mpr ⟨(hR.sublist (pruneOutbox_sublist _ _)).filter _,
    List.pairwise_singleton _ _, ?_⟩
  intro e he e' he'
  obtain rfl := List.mem_singleton.mp he'
  exact hnew e (List.mem_filter.mp he).1

theorem Tidy.ordered_offered (h : Tidy s) (o : LocalOffer) (now : Nat) :
    (s.offered o now).Pairwise fun a b => a.seq < b.seq :=
  pairwise_offered h.ordered fun e he => (h.bound e ((pruneOutbox_sublist _ _).subset he)).2

theorem Tidy.push (h : Tidy s) {o : LocalOffer} {now : Nat}
    (hnew : ∀ e ∈ pruneOutbox s.outbox now, e.wrap.id ≠ o.wrap.id) :
    Tidy { s with
      outbox := pruneOutbox (s.offered o now) now
      nextSeq := s.nextSeq + 1
      signals := s.nextSeq :: s.signals } := by
  have hsub := pruneOutbox_sublist (s.offered o now) now
  have hfew := pruneOutbox_le (s.offered o now) now
  have hordered := (h.ordered_offered o now).sublist hsub
  have hids := (pairwise_offered h.ids hnew).sublist hsub
  generalize pruneOutbox (s.offered o now) now = kept at *
  refine ⟨Nat.succ_pos _, hfew, hordered, ?_, hids, h.filed, ?_⟩
  · intro e he
    rcases mem_offered (hsub.subset he) with hold | rfl
    · exact ⟨(h.bound e hold).1, (h.bound e hold).2.trans (Nat.lt_succ_self _)⟩
    · exact ⟨h.positive, Nat.lt_succ_self _⟩
  · intro sid p hp
    refine Drains.grow (s := s) ?_ (Nat.le_succ _) rfl (fun _ => List.mem_cons_of_mem _)
      (h.drains sid p hp)
    intro e he
    rcases mem_offered (hsub.subset he) with hold | rfl
    · exact Or.inl hold
    · exact Or.inr ⟨le_rfl, List.mem_cons_self⟩

theorem Tidy.offer (h : Tidy s) (o : LocalOffer) (now : Nat) : Tidy (s.offer check o now) := by
  rcases @offer_cases check s o now with heq | heq | ⟨-, hnew, heq⟩
  · rw [heq]
    exact h
  · rw [heq]
    exact h.shrink (pruneOutbox_sublist _ _)
  · rw [heq]
    exact (h.push hnew).stageOutbox

theorem Tidy.signal (h : Tidy s) (seq : Nat) : Tidy (s.signal seq) := by
  unfold WardOutbox.signal
  split
  · refine ⟨h.positive, h.few, h.ordered, h.bound, h.ids, h.filed, ?_⟩
    intro sid p hp
    have hp' := h.drains sid p hp
    refine ⟨hp'.seen.trans (Nat.le_succ _), hp'.cursor, hp'.done, hp'.ordered, hp'.past, ?_⟩
    intro rest hrest
    have hahead := hp'.ahead rest hrest
    refine ⟨hahead.ordered, hahead.within, ?_⟩
    intro e he hlt
    rcases hahead.covers e he hlt with hmem | ⟨hlater, -⟩
    · exact Or.inl hmem
    · -- no pump has seen a change that has just come
      exact Or.inr ⟨hlater, Or.inl (Nat.ne_of_lt (Nat.lt_succ_of_le hp'.seen))⟩
  · exact h

/-! ## Pumps -/

theorem Tidy.setPump (h : Tidy s) (sid : Nat) {next : Option Pump}
    (hnext : ∀ p, next = some p → Drains s p) : Tidy (s.setPump sid next) := by
  refine ⟨h.positive, h.few, h.ordered, h.bound, h.ids, h.filed, ?_⟩
  intro sid' p hp
  have hdrains : Drains s p := by
    change Function.update s.pumps sid next sid' = some p at hp
    by_cases heq : sid' = sid
    · subst heq
      rw [Function.update_self] at hp
      exact hnext p hp
    · rw [Function.update_of_ne heq] at hp
      exact h.drains sid' p hp
  exact Drains.grow (s := s) (fun _ => Or.inl) le_rfl rfl (fun _ => id) hdrains

theorem beyond_eq {cursor : Nat} {outbox : List OutEntry}
    (h : outbox.Pairwise fun a b => a.seq < b.seq) :
    beyond cursor outbox =
      (outbox.filter fun e => decide (cursor < e.seq)).map fun e => (e.seq, e.wrap) := by
  refine List.Pairwise.insertionSort_eq (List.pairwise_map.mpr ?_)
  exact (h.filter _).imp fun hlt => le_of_lt hlt

/-- A fresh read finds everything beyond the cursor. -/
theorem Tidy.ahead_beyond (h : Tidy s) (cursor seen : Nat) :
    Ahead s cursor seen (beyond cursor s.outbox) := by
  rw [beyond_eq h.ordered]
  refine ⟨List.pairwise_map.mpr (h.ordered.filter _), ?_, ?_⟩
  · intro r hr
    obtain ⟨e, he, rfl⟩ := List.mem_map.mp hr
    obtain ⟨hmem, hlt⟩ := List.mem_filter.mp he
    exact ⟨of_decide_eq_true hlt, (h.bound e hmem).2⟩
  · intro e he hlt
    exact Or.inl (List.mem_map.mpr ⟨e, List.mem_filter.mpr ⟨he, decide_eq_true hlt⟩, rfl⟩)

theorem Tidy.pumpReads (h : Tidy s) (sid now : Nat) : Tidy (s.pumpReads sid now) := by
  unfold WardOutbox.pumpReads
  dsimp only
  have hpruned := h.shrink (pruneOutbox_sublist s.outbox now)
  generalize pruneOutbox s.outbox now = kept at *
  split
  · rename_i cursor seen written hp
    have hdrains := hpruned.drains sid _ hp
    refine hpruned.setPump sid ?_
    intro p heq
    cases heq
    refine ⟨hdrains.seen, hdrains.cursor, hdrains.done, hdrains.ordered, hdrains.past, ?_⟩
    intro rest hrest
    cases hrest
    exact hpruned.ahead_beyond cursor seen
  · exact h

/-- **One wrap written.** -/
theorem Drains.write {cursor seen : Nat} {next : Numbered} {rest written : List Numbered}
    (h : Drains s ⟨cursor, seen, .sending (next :: rest), written⟩) :
    Drains s ⟨next.1, seen, .sending rest, written ++ [next]⟩ := by
  have hahead := h.ahead (next :: rest) rfl
  obtain ⟨hnext, hrest⟩ := List.pairwise_cons.mp hahead.ordered
  have hwithin := hahead.within next List.mem_cons_self
  have hcovers : ∀ e ∈ s.outbox, cursor < e.seq → (e.seq, e.wrap) = next ∨
      (e.seq, e.wrap) ∈ rest ∨ (∀ r ∈ next :: rest, r.1 < e.seq) ∧
        (seen ≠ s.version ∨ e.seq ∈ s.signals) := by
    intro e he hlt
    rcases hahead.covers e he hlt with hmem | hlater
    · rcases List.mem_cons.mp hmem with heq | hmem
      · exact Or.inl heq
      · exact Or.inr (Or.inl hmem)
    · exact Or.inr (Or.inr hlater)
  refine ⟨h.seen, hwithin.2, ?_, ?_, ?_, ?_⟩
  · intro e he hle
    by_cases hold : e.seq ≤ cursor
    · exact List.mem_append_left _ (h.done e he hold)
    · rcases hcovers e he (not_le.mp hold) with heq | hmem | ⟨hlater, -⟩
      · rw [heq]
        exact List.mem_append_right _ (List.mem_singleton_self next)
      · exact absurd (hnext _ hmem) (not_lt.mpr hle)
      · exact absurd (hlater next List.mem_cons_self) (not_lt.mpr hle)
  · refine List.pairwise_append.mpr ⟨h.ordered, List.pairwise_singleton _ _, ?_⟩
    intro w hw w' hw'
    obtain rfl := List.mem_singleton.mp hw'
    exact (h.past w hw).trans_lt hwithin.1
  · intro w hw
    rcases List.mem_append.mp hw with hold | hnew
    · exact (h.past w hold).trans hwithin.1.le
    · exact (List.mem_singleton.mp hnew ▸ le_rfl)
  · intro rest' hrest'
    cases hrest'
    refine ⟨hrest, ?_, ?_⟩
    · exact fun r hr => ⟨hnext r hr, (hahead.within r (List.mem_cons_of_mem _ hr)).2⟩
    · intro e he hlt
      rcases hcovers e he (hwithin.1.trans hlt) with rfl | hmem | ⟨hlater, hunheard⟩
      · exact absurd hlt (lt_irrefl _)
      · exact Or.inl hmem
      · exact Or.inr ⟨fun r hr => hlater r (List.mem_cons_of_mem _ hr), hunheard⟩

theorem Tidy.pumpWrites (h : Tidy s) (sid : Nat) : Tidy (s.pumpWrites sid) := by
  unfold WardOutbox.pumpWrites
  split
  · rename_i cursor seen next rest written hp
    refine h.setPump sid ?_
    intro p heq
    cases heq
    exact (h.drains sid _ hp).write
  · rename_i cursor seen written hp
    refine h.setPump sid ?_
    intro p heq
    cases heq
    have hdrains := h.drains sid _ hp
    refine ⟨hdrains.seen, hdrains.cursor, hdrains.done, hdrains.ordered, hdrains.past, ?_⟩
    intro rest hrest
    cases hrest
    exact hdrains.ahead [] rfl
  · exact h

theorem Tidy.pumpWakes (h : Tidy s) (sid : Nat) : Tidy (s.pumpWakes sid) := by
  unfold WardOutbox.pumpWakes
  split
  · rename_i cursor seen written hp
    split
    · exact h
    · refine h.setPump sid ?_
      intro p heq
      cases heq
      have hdrains := h.drains sid _ hp
      exact ⟨le_rfl, hdrains.cursor, hdrains.done, hdrains.ordered, hdrains.past,
        fun _ hrest => nomatch hrest⟩
  · exact h

theorem Tidy.openSession (h : Tidy s) (sid : Nat) :
    Tidy (s.setPump sid (some ⟨0, s.version, .reading, []⟩)) := by
  refine h.setPump sid ?_
  intro p heq
  cases heq
  refine ⟨le_rfl, h.positive, ?_, List.Pairwise.nil, fun _ hw => (nomatch hw),
    fun _ hrest => (nomatch hrest)⟩
  intro e he hle
  exact absurd (h.bound e he).1 (not_lt.mpr hle)

/-! ## Restarts -/

/-- What holds between two entries in the order of a restart, whatever their numbers. -/
theorem pairwise_renumber {R S : OutEntry → OutEntry → Prop} {entries : List OutEntry}
    (hR : (entries.insertionSort OfferedBefore).Pairwise R)
    (hS : ∀ a b m n, R a b → m < n → S { a with seq := m } { b with seq := n }) :
    (renumber entries).Pairwise S := by
  refine List.pairwise_iff_getElem.mpr ?_
  intro i j hi hj hlt
  unfold renumber at hi hj ⊢
  rw [List.length_mapIdx] at hi hj
  rw [List.getElem_mapIdx, List.getElem_mapIdx]
  exact hS _ _ _ _ (List.pairwise_iff_getElem.mp hR i j hi hj hlt) (Nat.succ_lt_succ hlt)

theorem length_renumber (entries : List OutEntry) : (renumber entries).length = entries.length := by
  unfold renumber
  rw [List.length_mapIdx, List.length_insertionSort]

theorem mem_renumber {entries : List OutEntry} {e : OutEntry} (h : e ∈ renumber entries) :
    (∃ e' ∈ entries, e = { e' with seq := e.seq }) ∧ 0 < e.seq ∧ e.seq < entries.length + 1 := by
  obtain ⟨i, hi, rfl⟩ := List.mem_mapIdx.mp h
  rw [List.length_insertionSort] at hi
  refine ⟨⟨_, (List.mem_insertionSort _).mp (List.getElem_mem _), rfl⟩, Nat.succ_pos i, ?_⟩
  exact Nat.succ_lt_succ hi

theorem exists_mem_renumber {entries : List OutEntry} {e : OutEntry} (h : e ∈ entries) :
    ∃ n, { e with seq := n } ∈ renumber entries := by
  obtain ⟨i, hi, heq⟩ := List.mem_iff_getElem.mp ((List.mem_insertionSort OfferedBefore).mpr h)
  exact ⟨i + 1, List.mem_mapIdx.mpr ⟨i, hi, by rw [heq]⟩⟩

theorem Filed.ids_sorted {entries : List OutEntry} (h : Filed entries) :
    (entries.insertionSort OfferedBefore).Pairwise fun a b => a.wrap.id ≠ b.wrap.id :=
  (List.perm_insertionSort OfferedBefore entries).symm.pairwise h.ids fun hne => hne.symm

/-- The entries that a restart finds and the guardian takes, numbered from one. -/
def found (check : WrapCheck) (s : WardOutbox) (guardian : PubKey) : List OutEntry :=
  renumber (s.file.disk.filter fun e => acceptedBy check guardian e.wrap)

theorem Tidy.restart (h : Tidy s) (guardian : PubKey) (now : Nat) :
    Tidy (s.restart check guardian now) := by
  have hfiled : Filed (s.file.disk.filter fun e => acceptedBy check guardian e.wrap) :=
    ⟨h.filed.disk.ids.filter _, fun e he => h.filed.disk.unnumbered e (List.mem_filter.mp he).1⟩
  have hsub := pruneOutbox_sublist (found check s guardian) now
  have hids : (found check s guardian).Pairwise fun a b => a.wrap.id ≠ b.wrap.id :=
    pairwise_renumber hfiled.ids_sorted fun _ _ _ _ hne _ => hne
  have hordered : (found check s guardian).Pairwise fun a b => a.seq < b.seq :=
    pairwise_renumber hfiled.ids_sorted fun _ _ _ _ _ hlt => hlt
  have hfew := pruneOutbox_le (found check s guardian) now
  have hbound : ∀ e ∈ found check s guardian, 0 < e.seq ∧
      e.seq < (found check s guardian).length + 1 := by
    intro e he
    rw [found, length_renumber]
    exact (mem_renumber he).2
  unfold WardOutbox.restart
  dsimp only
  rw [← found]
  generalize found check s guardian = valid at *
  generalize pruneOutbox valid now = kept at *
  refine ⟨Nat.succ_pos _, hfew, hordered.sublist hsub, fun e he => hbound e (hsub.subset he),
    hids.sublist hsub, ?_, fun _ _ hp => (nomatch hp)⟩
  dsimp only
  split
  · exact (((StagedFile.All.load h.filed.disk).stage
      (filed_map_stored (hids.sublist hsub))).take).land
  · exact .load h.filed.disk

/-! ## Runs -/

/-- **Step.** -/
theorem Tidy.step (h : Tidy s) (move : OutboxMove) : Tidy (s.step check move) := by
  cases move with
  | offer o now => exact h.offer o now
  | signal seq => exact h.signal seq
  | okFrame wrap => exact h.removeFromOutbox wrap
  | snapshot now => exact h.shrink (pruneOutbox_sublist _ _)
  | takeWrite => exact h.withFile h.filed.take
  | landWrite => exact h.withFile h.filed.land
  | shutdown =>
    refine ⟨h.positive, h.few, h.ordered, h.bound, h.ids, h.filed, ?_⟩
    intro sid p hp
    exact Drains.grow (s := s) (fun _ => Or.inl) le_rfl rfl (fun _ => id) (h.drains sid p hp)
  | closeFile => exact h.withFile h.filed.close
  | openSession sid =>
    unfold WardOutbox.step
    dsimp only
    split
    · exact h
    · exact h.openSession sid
  | pumpReads sid now => exact h.pumpReads sid now
  | pumpWrites sid => exact h.pumpWrites sid
  | pumpWakes sid => exact h.pumpWakes sid
  | closeSession sid => exact h.setPump sid fun _ heq => nomatch heq
  | restart guardian now => exact h.restart guardian now

theorem Tidy.start (guardian : PubKey) : Tidy (.start guardian) := by
  refine ⟨Nat.one_pos, fun _ => Nat.zero_le _, List.Pairwise.nil, fun _ he => (nomatch he),
    List.Pairwise.nil, .load ⟨List.Pairwise.nil, fun _ he => (nomatch he)⟩,
    fun _ _ hp => (nomatch hp)⟩

/-- **Run.** -/
theorem Tidy.run (check : WrapCheck) (h : Tidy s) (moves : List OutboxMove) :
    Tidy (moves.foldl (WardOutbox.step check) s) :=
  foldl_invariant (fun _ move hs => hs.step move) moves h

/-! ## What the newest snapshot holds -/

theorem Saved.shrink (h : Saved s) {kept : List OutEntry} (hsub : kept ⊆ s.outbox) :
    Saved { s with outbox := kept } :=
  fun e he => h e (hsub he)

theorem saved_stageOutbox (s : WardOutbox) (h : s.closed = true → Saved s) :
    Saved s.stageOutbox := by
  unfold WardOutbox.stageOutbox
  split
  · rename_i hclosed
    exact h hclosed
  · intro e he
    exact List.mem_map.mpr ⟨e, he, rfl⟩

theorem Saved.offer (h : Saved s) (o : LocalOffer) (now : Nat) :
    Saved (s.offer check o now) := by
  rcases @offer_cases check s o now with heq | heq | ⟨hopen, -, heq⟩
  · rw [heq]
    exact h
  · rw [heq]
    exact h.shrink (pruneOutbox_sublist _ _).subset
  · rw [heq]
    exact saved_stageOutbox _ fun hclosed => absurd (hopen.symm.trans hclosed) Bool.false_ne_true

theorem Saved.removeFromOutbox (h : Saved s) (wrap : EventId) :
    Saved (s.removeFromOutbox wrap) := by
  unfold WardOutbox.removeFromOutbox
  dsimp only
  split
  · exact h
  · exact saved_stageOutbox _ fun _ => h.shrink List.filter_sublist.subset

/-- What a restart finds is what the file keeps of it. -/
theorem Tidy.stored_mem_disk (h : Tidy s) {guardian : PubKey} {e : OutEntry}
    (he : e ∈ found check s guardian) : e.stored ∈ s.file.disk := by
  obtain ⟨⟨e', he', heq⟩, -⟩ := mem_renumber he
  have hdisk := (List.mem_filter.mp he').1
  have hstored : e.stored = e' := by
    rw [heq, OutEntry.stored, ← h.filed.disk.unnumbered e' hdisk]
  rw [hstored]
  exact hdisk

theorem Tidy.saved_restart (h : Tidy s) (guardian : PubKey) (now : Nat) :
    Saved (s.restart check guardian now) := by
  have hsub := (pruneOutbox_sublist (found check s guardian) now).subset
  have hdisk : ∀ e ∈ found check s guardian, e.stored ∈ s.file.disk :=
    fun e he => h.stored_mem_disk he
  unfold WardOutbox.restart
  dsimp only
  rw [← found]
  generalize found check s guardian = valid at *
  generalize pruneOutbox valid now = kept at *
  intro e he
  dsimp only
  split
  · rw [StagedFile.flush, StagedFile.newest_land, StagedFile.newest_take, StagedFile.newest_stage]
    exact List.mem_map.mpr ⟨e, he, rfl⟩
  · exact hdisk e (hsub he)

theorem Saved.step (h : Saved s) (htidy : Tidy s) (move : OutboxMove) :
    Saved (s.step check move) := by
  cases move with
  | offer o now => exact h.offer o now
  | signal seq =>
    unfold WardOutbox.step WardOutbox.signal
    dsimp only
    split <;> exact h
  | okFrame wrap => exact h.removeFromOutbox wrap
  | snapshot now => exact h.shrink (pruneOutbox_sublist _ _).subset
  | takeWrite =>
    intro e he
    exact (StagedFile.newest_take s.file).symm ▸ h e he
  | landWrite =>
    intro e he
    exact (StagedFile.newest_land s.file).symm ▸ h e he
  | shutdown => exact h
  | closeFile =>
    intro e he
    exact (StagedFile.newest_close s.file).symm ▸ h e he
  | openSession sid =>
    unfold WardOutbox.step
    dsimp only
    split <;> exact h
  | pumpReads sid now =>
    have hsub := (pruneOutbox_sublist s.outbox now).subset
    unfold WardOutbox.step WardOutbox.pumpReads
    dsimp only
    generalize pruneOutbox s.outbox now = kept at *
    split
    · exact fun e he => h e (hsub he)
    · exact h
  | pumpWrites sid =>
    unfold WardOutbox.step WardOutbox.pumpWrites
    dsimp only
    split <;> exact h
  | pumpWakes sid =>
    unfold WardOutbox.step WardOutbox.pumpWakes
    dsimp only
    split
    · split <;> exact h
    · exact h
  | closeSession sid => exact h
  | restart guardian now => exact htidy.saved_restart guardian now

end WardOutbox

end Kintrinsic
