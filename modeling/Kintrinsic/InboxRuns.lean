import Kintrinsic.GuardedRun
import Kintrinsic.LinkInbox
import Kintrinsic.StagedFile

/-! # Runs of the inbox

The inbox and the ids that are remembered are staged together and written to two files, one after
the other, before a wrap is answered.  A crash leaves what has landed of each. -/
namespace Kintrinsic

/-- The two files of the inbox. -/
inductive InboxFile
  | inbox
  | seen
deriving DecidableEq

/-- A task between the lock of the state and its end: the files it still flushes, whether it holds
the first one's writer lock, and what it answers then. -/
structure InboxJob where
  todo : List InboxFile
  holds : Bool
  reply : Option WrapReply
deriving DecidableEq

/-- The link, with its two files and its tasks, and what has been answered as accepted and what has
been evicted or ingested so far. -/
structure InboxLink where
  st : LinkInbox
  stopped : Bool
  inboxFile : StagedFile (List InboxEntry)
  seenFile : StagedFile (List SeenId)
  jobs : Nat → Option InboxJob
  answered : List EventId
  gone : List EventId

/-- What happens next.  `frame` is an EVENT frame that a session's task reads, `take` and `land` are
the two halves of a task's next write, `crash` is a restart too. -/
inductive InboxAction
  | frame (t : Nat) (machine : PubKey) (wrap : NostrEvent) (now : Nat)
  | consume (t : Nat) (ids : List EventId)
  | take (t : Nat)
  | land (t : Nat)
  | answer (t : Nat)
  | stop
  | close (file : InboxFile)
  | crash (now : Nat)
deriving DecidableEq

namespace InboxLink

/-- A link on empty files. -/
def empty : InboxLink where
  st := ⟨[], 0, []⟩
  stopped := false
  inboxFile := .load []
  seenFile := .load []
  jobs _ := none
  answered := []
  gone := []

/-- `stage`: nothing is staged any more once the link is closed. -/
def stage (l : InboxLink) (files : List InboxFile) : InboxLink :=
  if l.stopped then l
  else { l with
    inboxFile := if .inbox ∈ files then l.inboxFile.stage l.st.inbox else l.inboxFile
    seenFile := if .seen ∈ files then l.seenFile.stage l.st.seen else l.seenFile }

def setJob (l : InboxLink) (t : Nat) (job : Option InboxJob) : InboxLink :=
  { l with jobs := Function.update l.jobs t job }

/-- The ids of the first entries that are not among the second. -/
def dropped (before after : List InboxEntry) : List EventId :=
  (before.map InboxEntry.id).filter fun id => id ∉ after.map InboxEntry.id

/-- A session's task reads an EVENT frame. -/
def frame (check : WrapCheck) (guardian : PubKey) (l : InboxLink) (t : Nat) (machine : PubKey)
    (wrap : NostrEvent) (now : Nat) : InboxLink :=
  match l.jobs t with
  | some _ => l
  | none =>
    let r := l.st.inboundWrap check guardian machine wrap now
    let files := if r.2.2 then [InboxFile.inbox, .seen] else []
    let gone := if r.2.2 then dropped (l.st.push machine wrap now).inbox r.1.inbox else []
    { ({ l with st := r.1 } : InboxLink).stage files with gone := l.gone ++ gone }.setJob t
      (some ⟨files, false, some r.2.1⟩)

/-- The console ingests. -/
def consume (l : InboxLink) (t : Nat) (ids : List EventId) : InboxLink :=
  match l.jobs t, l.st.consume ids with
  | none, some st =>
    { ({ l with st } : InboxLink).stage [.inbox] with
      gone := l.gone ++ dropped l.st.inbox st.inbox }.setJob t (some ⟨[.inbox], false, none⟩)
  | _, _ => l

/-- A flush takes what is staged for its next file, when it is its turn. -/
def take (l : InboxLink) (t : Nat) : InboxLink :=
  match l.jobs t with
  | some ⟨.inbox :: rest, false, reply⟩ =>
    if !l.inboxFile.closed && l.inboxFile.writing.isSome then l
    else
      let file := l.inboxFile.take
      let writes := !l.inboxFile.closed && file.writing.isSome
      { l with inboxFile := file }.setJob t
        (some (if writes then ⟨.inbox :: rest, true, reply⟩ else ⟨rest, false, reply⟩))
  | some ⟨.seen :: rest, false, reply⟩ =>
    if !l.seenFile.closed && l.seenFile.writing.isSome then l
    else
      let file := l.seenFile.take
      let writes := !l.seenFile.closed && file.writing.isSome
      { l with seenFile := file }.setJob t
        (some (if writes then ⟨.seen :: rest, true, reply⟩ else ⟨rest, false, reply⟩))
  | _ => l

/-- The write that a task holds lands. -/
def land (l : InboxLink) (t : Nat) : InboxLink :=
  match l.jobs t with
  | some ⟨.inbox :: rest, true, reply⟩ =>
    { l with inboxFile := l.inboxFile.land }.setJob t (some ⟨rest, false, reply⟩)
  | some ⟨.seen :: rest, true, reply⟩ =>
    { l with seenFile := l.seenFile.land }.setJob t (some ⟨rest, false, reply⟩)
  | _ => l

/-- A task with nothing left to write ends, with its answer. -/
def answer (l : InboxLink) (t : Nat) : InboxLink :=
  match l.jobs t with
  | some ⟨[], _, some reply⟩ =>
    { l with answered := if reply.accepted then l.answered ++ [reply.wrap] else l.answered }.setJob
      t none
  | some ⟨[], _, none⟩ => l.setJob t none
  | _ => l

/-- `shutdown` closes the files once the state is closed. -/
def close (l : InboxLink) (file : InboxFile) : InboxLink :=
  if l.stopped then
    match file with
    | .inbox => { l with inboxFile := l.inboxFile.close }
    | .seen => { l with seenFile := l.seenFile.close }
  else l

/-- The link starts again on what is on disk, and writes what it pruned. -/
def crash (l : InboxLink) (now : Nat) : InboxLink :=
  let st := LinkInbox.start l.inboxFile.disk l.seenFile.disk now
  let files := (if st.inbox.length ≠ l.inboxFile.disk.length then [InboxFile.inbox] else []) ++
    if st.seen.length ≠ l.seenFile.disk.length then [InboxFile.seen] else []
  let fresh : InboxLink := ⟨st, false, .load l.inboxFile.disk, .load l.seenFile.disk,
    fun _ => none, l.answered, l.gone ++ dropped l.inboxFile.disk st.inbox⟩
  (fresh.stage files).setJob 0 (some ⟨files, false, none⟩)

variable (check : WrapCheck) (guardian : PubKey)

/-- One step; what cannot happen changes nothing. -/
def step (l : InboxLink) : InboxAction → InboxLink
  | .frame t machine wrap now => l.frame check guardian t machine wrap now
  | .consume t ids => l.consume t ids
  | .take t => l.take t
  | .land t => l.land t
  | .answer t => l.answer t
  | .stop => { l with stopped := true }
  | .close file => l.close file
  | .crash now => l.crash now

/-- The link after a run from empty files. -/
def after (as : List InboxAction) : InboxLink := as.foldl (step check guardian) empty

/-! ## What every snapshot satisfies -/

/-- Within the bounds, as a list. -/
def Within (l : List InboxEntry) : Prop :=
  l.length ≤ inboxCap ∧ (l.map LinkInbox.entryBytes).sum ≤ inboxBytes

/-- The counter is right, and the inbox and every snapshot of it are within the bounds and have a
property that all of their parts have. -/
structure Sound (P : List InboxEntry → Prop) (l : InboxLink) : Prop where
  counted : l.st.Counted
  within : Within l.st.inbox
  holds : P l.st.inbox
  files : l.inboxFile.All fun snapshot => Within snapshot ∧ P snapshot

variable {check guardian} {l : InboxLink} {P : List InboxEntry → Prop}

theorem within_iff {st : LinkInbox} (h : st.Counted) : Within st.inbox ↔ st.Bounded := by
  unfold Within LinkInbox.Bounded
  rw [h]

theorem Sound.stage (h : Sound P l) (files : List InboxFile) : Sound P (l.stage files) := by
  unfold InboxLink.stage
  split
  · exact h
  · refine ⟨h.counted, h.within, h.holds, ?_⟩
    dsimp only
    split
    · exact h.files.stage ⟨h.within, h.holds⟩
    · exact h.files

theorem Sound.setState (h : Sound P l) {st : LinkInbox} (hcounted : st.Counted)
    (hbounded : st.Bounded) (hP : P st.inbox) : Sound P { l with st } :=
  ⟨hcounted, (within_iff hcounted).mpr hbounded, hP, h.files⟩

/-- Tasks and logs are not what is sound. -/
theorem Sound.of_eq {l' : InboxLink} (h : Sound P l) (hst : l'.st = l.st)
    (hfile : l'.inboxFile = l.inboxFile) : Sound P l' := by
  obtain ⟨hcounted, hwithin, hP, hfiles⟩ := h
  exact ⟨by rwa [hst], by rwa [hst], by rwa [hst], by rwa [hfile]⟩

theorem counted_push {st : LinkInbox} (h : st.Counted) (machine : PubKey) (wrap : NostrEvent)
    (now : Nat) : (st.push machine wrap now).Counted := by
  unfold LinkInbox.Counted at h ⊢
  show st.bytes + wrapBytes wrap = ((st.inbox ++ [_]).map LinkInbox.entryBytes).sum
  rw [List.map_append, List.sum_append, ← h]
  rfl

/-- What an accepted frame leaves: the inbox as it was, or the trimmed inbox with the wrap. -/
theorem inboundWrap_cases (st : LinkInbox) (machine : PubKey) (wrap : NostrEvent) (now : Nat) :
    (st.inboundWrap check guardian machine wrap now).1.inbox = st.inbox ∧
      (st.inboundWrap check guardian machine wrap now).1.bytes = st.bytes ∨
    (∀ s ∈ pruneSeen st.seen now, s.id ≠ wrap.id) ∧
      validateWrapFor check wrap guardian = .ok () ∧
      (st.inboundWrap check guardian machine wrap now).1 = (st.push machine wrap now).trimInbox := by
  unfold LinkInbox.inboundWrap
  split
  · exact .inl ⟨rfl, rfl⟩
  · rename_i hvalid
    split
    · exact .inl ⟨rfl, rfl⟩
    · rename_i hnew
      refine .inr ⟨fun s hs heq => hnew ?_, hvalid, rfl⟩
      exact List.any_eq_true.mpr ⟨s, hs, decide_eq_true heq⟩

/-- **One step keeps every snapshot sound**, if a wrap that is stored keeps the property. -/
theorem Sound.step (hP : ∀ {xs ys : List InboxEntry}, ys.Sublist xs → P xs → P ys)
    (h : Sound P l) (a : InboxAction)
    (hpush : ∀ t machine wrap now, a = .frame t machine wrap now →
      (∀ s ∈ pruneSeen l.st.seen now, s.id ≠ wrap.id) →
      validateWrapFor check wrap guardian = .ok () →
      P (l.st.push machine wrap now).inbox) :
    Sound P (l.step check guardian a) := by
  cases a with
  | frame t machine wrap now =>
    show Sound P (l.frame check guardian t machine wrap now)
    unfold InboxLink.frame
    split
    · exact h
    · have hst : Sound P { l with st := (l.st.inboundWrap check guardian machine wrap now).1 } := by
        obtain ⟨hinbox, hbytes⟩ | ⟨hnew, hvalid, hpushed⟩ :=
          @inboundWrap_cases check guardian l.st machine wrap now
        · refine ⟨?_, ?_, ?_, h.files⟩
          · unfold LinkInbox.Counted
            rw [hinbox, hbytes]
            exact h.counted
          · rw [hinbox]
            exact h.within
          · rw [hinbox]
            exact h.holds
        · have htrim := LinkInbox.trimInbox_spec (counted_push h.counted machine wrap now)
          rw [hpushed]
          exact h.setState htrim.counted htrim.bounded
            (hP htrim.sublist (hpush t machine wrap now rfl hnew hvalid))
      exact (hst.stage _).of_eq rfl rfl
  | consume t ids =>
    show Sound P (l.consume t ids)
    unfold InboxLink.consume
    split
    · rename_i st hst
      unfold LinkInbox.consume at hst
      dsimp only at hst
      split at hst
      · cases hst
      · obtain rfl := Option.some.inj hst
        have hsub : (l.st.inbox.filter fun e => e.id ∉ ids).Sublist l.st.inbox :=
          List.filter_sublist
        have hkept : Sound P { l with st := { l.st with
            inbox := l.st.inbox.filter fun e => e.id ∉ ids
            bytes := ((l.st.inbox.filter fun e => e.id ∉ ids).map LinkInbox.entryBytes).sum } } := by
          refine ⟨rfl, ⟨?_, ?_⟩, hP hsub h.holds, h.files⟩
          · exact hsub.length_le.trans h.within.1
          · exact (hsub.map LinkInbox.entryBytes).sum_le_sum (fun _ _ => Nat.zero_le _) |>.trans
              h.within.2
        exact (hkept.stage _).of_eq rfl rfl
    · exact h
  | take t =>
    show Sound P (l.take t)
    unfold InboxLink.take
    split
    · split
      · exact h
      · exact ⟨h.counted, h.within, h.holds, h.files.take⟩
    · split
      · exact h
      · exact h.of_eq rfl rfl
    · exact h
  | land t =>
    show Sound P (l.land t)
    unfold InboxLink.land
    split
    · exact ⟨h.counted, h.within, h.holds, h.files.land⟩
    · exact h.of_eq rfl rfl
    · exact h
  | answer t =>
    show Sound P (l.answer t)
    unfold InboxLink.answer
    split
    · exact h.of_eq rfl rfl
    · exact h.of_eq rfl rfl
    · exact h
  | stop => exact h.of_eq rfl rfl
  | close file =>
    show Sound P (l.close file)
    unfold InboxLink.close
    split
    · cases file with
      | inbox => exact ⟨h.counted, h.within, h.holds, h.files.close⟩
      | seen => exact h.of_eq rfl rfl
    · exact h
  | crash now =>
    show Sound P (l.crash now)
    have hloaded : LinkInbox.Counted ⟨l.inboxFile.disk,
        (l.inboxFile.disk.map LinkInbox.entryBytes).sum, pruneSeen l.seenFile.disk now⟩ := rfl
    have htrim := LinkInbox.trimInbox_spec hloaded
    obtain ⟨hwithin, hdisk⟩ := h.files.disk
    have hfresh : Sound P ⟨LinkInbox.start l.inboxFile.disk l.seenFile.disk now, false,
        .load l.inboxFile.disk, .load l.seenFile.disk, fun _ => none, l.answered, l.gone⟩ :=
      ⟨htrim.counted, (within_iff htrim.counted).mpr htrim.bounded, hP htrim.sublist hdisk,
        .load ⟨hwithin, hdisk⟩⟩
    exact (hfresh.stage _).of_eq rfl rfl

/-! ## Every run -/

theorem sound_empty (hP : P []) : Sound P empty :=
  ⟨rfl, ⟨Nat.zero_le _, Nat.zero_le _⟩, hP, .load ⟨⟨Nat.zero_le _, Nat.zero_le _⟩, hP⟩⟩

/-- The machine a frame comes from. -/
def sender : InboxAction → Option PubKey
  | .frame _ machine _ _ => some machine
  | _ => none

/-- All machines of a run's frames are among these. -/
def SentBy (machines : Finset PubKey) (as : List InboxAction) : Prop :=
  ∀ a ∈ as, ∀ m ∈ sender a, m ∈ machines

theorem sound_after (as : List InboxAction) : Sound (fun _ => True) (after check guardian as) :=
  @GuardedRun.foldl_invariant _ _ (InboxLink.step check guardian) _ _
    (fun _ a h => h.step (fun _ _ => trivial) a fun _ _ _ _ _ _ _ => trivial) as
    (sound_empty trivial)

/-- The inbox holds wraps of the run's machines. -/
theorem machines_after {machines : Finset PubKey} {as : List InboxAction}
    (h : SentBy machines as) : ∀ e ∈ (after check guardian as).st.inbox, e.machine ∈ machines := by
  have hobeys : GuardedRun.Obeys (InboxLink.step check guardian)
      (fun _ a => ∀ m ∈ sender a, m ∈ machines) empty as := by
    generalize empty = l
    induction as generalizing l with
    | nil => exact GuardedRun.obeys_nil
    | cons a as ih =>
      exact ⟨h a List.mem_cons_self, ih (fun b hb => h b (List.mem_cons_of_mem a hb)) _⟩
  refine (hobeys.invariant (I := Sound fun l => ∀ e ∈ l, e.machine ∈ machines) ?_
    (sound_empty fun e he => absurd he List.not_mem_nil)).holds
  intro l a hl ha
  refine hl.step (fun hsub hall e he => hall e (hsub.subset he)) a ?_
  rintro t machine wrap now rfl - -
  intro e he
  rcases List.mem_append.mp he with he | he
  · exact hl.holds e he
  · rw [List.mem_singleton.mp he]
    exact ha machine rfl

/-- A wrap that comes while it is in the inbox is still remembered. -/
def Remembers (l : InboxLink) : InboxAction → Prop
  | .frame _ _ wrap now =>
    (∃ e ∈ l.st.inbox, e.id = wrap.id) → ∃ s ∈ pruneSeen l.st.seen now, s.id = wrap.id
  | _ => True

/-- No id is in the list twice. -/
def Once (l : List InboxEntry) : Prop := (l.map InboxEntry.id).Nodup

theorem once_after {as : List InboxAction}
    (h : GuardedRun.Obeys (InboxLink.step check guardian) Remembers empty as) :
    Once (after check guardian as).st.inbox := by
  refine (h.invariant (I := Sound Once) ?_ (sound_empty List.nodup_nil)).holds
  intro l a hl ha
  refine hl.step (fun hsub honce => honce.sublist (hsub.map InboxEntry.id)) a ?_
  rintro t machine wrap now rfl hnew -
  show ((l.st.inbox ++ [_]).map InboxEntry.id).Nodup
  rw [List.map_append, List.nodup_append]
  refine ⟨hl.holds, List.nodup_singleton _, ?_⟩
  rintro id hid id' hid' rfl
  obtain rfl := List.mem_singleton.mp hid'
  obtain ⟨e, he, heq⟩ := List.mem_map.mp hid
  obtain ⟨s, hs, hseen⟩ := ha ⟨e, he, heq⟩
  exact hnew s hs hseen

/-- A machine within its share of both bounds loses nothing to a frame. -/
theorem frame_fair {machines : Finset PubKey} {as : List InboxAction} {machine m : PubKey}
    (hsent : SentBy machines as) (hmachine : machine ∈ machines) (wrap : NostrEvent) (now : Nat)
    (hshare : LinkInbox.WithinShare
      ((after check guardian as).st.push machine wrap now).inbox machines m) :
    ((after check guardian as).st.inbox.filter fun e => e.machine = m).Sublist
      (((after check guardian as).st.inboundWrap check guardian machine wrap now).1.inbox.filter
        fun e => e.machine = m) := by
  have hmachines := @machines_after check guardian _ _ hsent
  have hcounted := (@sound_after check guardian as).counted
  generalize (after check guardian as).st = st at hshare hmachines hcounted ⊢
  obtain ⟨hinbox, -⟩ | ⟨-, -, hpushed⟩ :=
    @inboundWrap_cases check guardian st machine wrap now
  · rw [hinbox]
  · rw [hpushed, LinkInbox.trimInbox_fair (counted_push hcounted machine wrap now) ?_ hshare]
    · exact (List.sublist_append_left st.inbox _).filter _
    · intro e he
      rcases List.mem_append.mp he with he | he
      · exact hmachines e he
      · rw [List.mem_singleton.mp he]
        exact hmachine

/-- A restart evicts nothing. -/
theorem crash_inbox (as : List InboxAction) (now : Nat) :
    ((after check guardian as).crash now).st.inbox = (after check guardian as).inboxFile.disk := by
  have hdisk := (@sound_after check guardian as).files.disk.1
  generalize after check guardian as = l at hdisk ⊢
  have hstart : (l.crash now).st = LinkInbox.start l.inboxFile.disk l.seenFile.disk now := by
    unfold InboxLink.crash setJob InboxLink.stage
    rfl
  rw [hstart]
  have hbounded : LinkInbox.Bounded ⟨l.inboxFile.disk,
      (l.inboxFile.disk.map LinkInbox.entryBytes).sum, pruneSeen l.seenFile.disk now⟩ := hdisk
  unfold LinkInbox.start
  rw [LinkInbox.trimInbox_of_bounded hbounded]

/-- **The inbox is bounded and fair, and holds a wrap once while it remembers it.**  After every run
the bounds hold and the counter is right; the next wrap evicts nothing of a machine that is within
its share of both bounds among the run's machines, and a restart evicts nothing.  If no wrap comes
while it is in the inbox and forgotten, no id is in it twice. -/
theorem inbox_law (check : WrapCheck) (guardian : PubKey) (as : List InboxAction) :
    (after check guardian as).st.Counted ∧ (after check guardian as).st.Bounded ∧
    (∀ (machines : Finset PubKey) (machine m : PubKey) (wrap : NostrEvent) (now : Nat),
      SentBy machines as → machine ∈ machines →
      LinkInbox.WithinShare ((after check guardian as).st.push machine wrap now).inbox machines m →
      ((after check guardian as).st.inbox.filter fun e => e.machine = m).Sublist
        (((after check guardian as).st.inboundWrap check guardian machine wrap now).1.inbox.filter
          fun e => e.machine = m)) ∧
    (∀ now, ((after check guardian as).crash now).st.inbox =
      (after check guardian as).inboxFile.disk) ∧
    (GuardedRun.Obeys (step check guardian) Remembers empty as →
      Once (after check guardian as).st.inbox) := by
  have hsound := @sound_after check guardian as
  exact ⟨hsound.counted, (within_iff hsound.counted).mp hsound.within,
    fun machines machine m wrap now hsent hmachine hshare =>
      frame_fair hsent hmachine wrap now hshare, crash_inbox as, once_after⟩

/-! ### A wrap again -/

/-- Hashes and signatures that always fit. -/
def plainCheck : WrapCheck := ⟨⟨fun wrap => wrap.id, fun _ _ _ => true⟩, fun _ => 0⟩

def guardianKey : PubKey := ⟨5⟩

/-- A wrap to the guardian. -/
def sealed : NostrEvent :=
  ⟨⟨1⟩, ⟨7⟩, 100, Kinds.giftWrap, [["p", guardianKey.toHex]], "", ⟨0⟩⟩

/-- The wrap comes, and again when its id is forgotten. -/
def comesAgain : List InboxAction :=
  [.frame 0 ⟨7⟩ sealed 0, .frame 1 ⟨7⟩ sealed seenTtl]

/-- The wrap comes, a crash leaves the inbox file without the other, and the wrap comes again. -/
def comesAfterCrash : List InboxAction :=
  [.frame 0 ⟨7⟩ sealed 0, .take 0, .land 0, .crash 1, .frame 1 ⟨7⟩ sealed 2]

/-- **Stored twice**: two days later, or after a crash between the two writes. -/
theorem not_once_comesAgain :
    ¬Once (after plainCheck guardianKey comesAgain).st.inbox ∧
      ¬Once (after plainCheck guardianKey comesAfterCrash).st.inbox := by
  unfold Once
  exact ⟨by decide +kernel, by decide +kernel⟩

/-- Once, when it comes again within two days. -/
theorem inbox_law_twice :
    Once (after plainCheck guardianKey
      [.frame 0 ⟨7⟩ sealed 0, .frame 1 ⟨7⟩ sealed 100]).st.inbox := by
  refine (inbox_law plainCheck guardianKey _).2.2.2.2 ⟨?_, ?_, trivial⟩
  · rintro ⟨e, he, -⟩
    exact absurd he List.not_mem_nil
  · exact fun _ => ⟨⟨⟨1⟩, 0⟩, by decide +kernel, rfl⟩

end InboxLink

end Kintrinsic
