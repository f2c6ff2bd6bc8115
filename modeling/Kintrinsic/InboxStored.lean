import Kintrinsic.InboxRuns

/-! # An answered wrap is stored

A ward forgets a wrap when it is answered, so the answer must not come before the wrap is on disk.
The invariant follows one wrap: what it has reached in the inbox file it keeps, and a task that is
to answer it waits for what the file has yet to reach. -/
namespace Kintrinsic

namespace InboxLink

/-- A snapshot of the inbox that has the wrap. -/
def Has (id : EventId) (snapshot : List InboxEntry) : Prop := id ∈ snapshot.map InboxEntry.id

instance (id : EventId) (snapshot : List InboxEntry) : Decidable (Has id snapshot) :=
  inferInstanceAs (Decidable (id ∈ snapshot.map InboxEntry.id))

/-- How far the file is when a task is where it is. -/
def Reached (id : EventId) (file : StagedFile (List InboxEntry)) (job : InboxJob) : Prop :=
  match job.todo, job.holds with
  | .inbox :: _, true => Has id file.taken
  | .inbox :: _, false => Has id file.newest
  | _, _ => Has id file.disk

/-- The task answers that the wrap is accepted. -/
def Accepts (job : InboxJob) (id : EventId) : Prop :=
  ∃ reply, job.reply = some reply ∧ reply.accepted = true ∧ reply.wrap = id

/-- The wrap is remembered when it comes. -/
def Known (l : InboxLink) (wrap : NostrEvent) (now : Nat) : Prop :=
  ∃ s ∈ pruneSeen l.st.seen now, s.id = wrap.id

/-- A wrap comes when it is remembered and on disk, or neither and the link is not stopped. -/
def Stores (check : WrapCheck) (guardian : PubKey) (id : EventId) (l : InboxLink) :
    InboxAction → Prop
  | .frame _ _ wrap now =>
    wrap.id = id → validateWrapFor check wrap guardian = .ok () →
      (Known l wrap now → Has id l.inboxFile.disk) ∧ (¬Known l wrap now → l.stopped = false)
  | _ => True

/-- What the file, the tasks and the answers owe a wrap that is neither evicted nor ingested. -/
structure Follows (id : EventId) (l : InboxLink) : Prop where
  climbs : l.inboxFile.Climbs (Has id)
  kept : Has id l.inboxFile.newest → Has id l.st.inbox
  jobs : ∀ t job, l.jobs t = some job → Accepts job id → Reached id l.inboxFile job
  answered : id ∈ l.answered → Has id l.inboxFile.disk

/-- A closed file has nothing on its way, and is not closed before the state is. -/
structure Quiet (l : InboxLink) : Prop where
  stopped : l.inboxFile.closed = true → l.stopped = true
  idle : l.inboxFile.closed = true → l.inboxFile.pending = none ∧ l.inboxFile.writing = none

variable {check : WrapCheck} {guardian : PubKey} {l : InboxLink} {id : EventId}

/-! ## What a task has reached -/

section Reached
variable {file file' : StagedFile (List InboxEntry)} {job : InboxJob}

theorem Reached.of_disk (hclimbs : file.Climbs (Has id)) (hdisk : Has id file.disk) :
    Reached id file job := by
  have htaken := hclimbs.taken hdisk
  unfold Reached
  split
  · exact htaken
  · exact hclimbs.newest htaken
  · exact hdisk

theorem Reached.mono (h : Reached id file job) (hdisk : Has id file.disk → Has id file'.disk)
    (htaken : Has id file.taken → Has id file'.taken)
    (hnewest : Has id file.newest → Has id file'.newest) : Reached id file' job := by
  unfold Reached at h ⊢
  split at h
  · exact htaken h
  · exact hnewest h
  · exact hdisk h

/-- A task with nothing to write is as far as the disk. -/
theorem Reached.disk_of_nil {holds : Bool} {reply : Option WrapReply}
    (h : Reached id file ⟨[], holds, reply⟩) : Has id file.disk := h

end Reached

theorem Accepts.congr {job job' : InboxJob} (h : Accepts job' id) (hreply : job'.reply = job.reply) :
    Accepts job id := by
  unfold Accepts at h ⊢
  rwa [← hreply]

theorem has_of_not_dropped {before after : List InboxEntry} (hid : id ∉ dropped before after)
    (h : Has id before) : Has id after := by
  by_contra hafter
  exact hid (List.mem_filter.mpr ⟨h, decide_eq_true hafter⟩)

/-! ## What the parts of a step keep -/

theorem Follows.setState (h : Follows id l) {st : LinkInbox}
    (hst : Has id l.st.inbox → Has id st.inbox) : Follows id { l with st } :=
  ⟨h.climbs, fun hnewest => hst (h.kept hnewest), h.jobs, h.answered⟩

theorem Follows.setJob (h : Follows id l) {t : Nat} {job : Option InboxJob}
    (hjob : ∀ j, job = some j → Accepts j id → Reached id l.inboxFile j) :
    Follows id (l.setJob t job) := by
  refine ⟨h.climbs, h.kept, ?_, h.answered⟩
  intro u j hu haccepts
  by_cases htask : u = t
  · subst htask
    have hnow : job = some j := by simpa [InboxLink.setJob] using hu
    exact hjob j hnow haccepts
  · have hbefore : l.jobs u = some j := by simpa [InboxLink.setJob, htask] using hu
    exact h.jobs u j hbefore haccepts

/-- The file moves on: what it had it still has. -/
theorem Follows.setFile (h : Follows id l) {file : StagedFile (List InboxEntry)}
    (hclimbs : file.Climbs (Has id)) (hnow : file.newest = l.inboxFile.newest)
    (hdisk : Has id l.inboxFile.disk → Has id file.disk)
    (htaken : Has id l.inboxFile.taken → Has id file.taken) :
    Follows id { l with inboxFile := file } := by
  refine ⟨hclimbs, ?_, ?_, fun hanswered => hdisk (h.answered hanswered)⟩
  · rw [hnow]
    exact h.kept
  · intro t job hjob haccepts
    refine (h.jobs t job hjob haccepts).mono hdisk htaken ?_
    rw [hnow]
    exact fun hnewest => hnewest

theorem Follows.setGone (h : Follows id l) (gone : List EventId) : Follows id { l with gone } :=
  ⟨h.climbs, h.kept, h.jobs, h.answered⟩

theorem Follows.setSeenFile (h : Follows id l) (seenFile : StagedFile (List SeenId)) :
    Follows id { l with seenFile } := ⟨h.climbs, h.kept, h.jobs, h.answered⟩

theorem Follows.stage (h : Follows id l) (files : List InboxFile) : Follows id (l.stage files) := by
  unfold InboxLink.stage
  split
  · exact h
  · by_cases hfile : .inbox ∈ files
    · rw [if_pos hfile]
      refine ⟨h.climbs.stage h.kept, fun hnewest => hnewest, ?_, h.answered⟩
      intro t job hjob haccepts
      exact (h.jobs t job hjob haccepts).mono (fun hdisk => hdisk) (fun htaken => htaken) h.kept
    · rw [if_neg hfile]
      exact ⟨h.climbs, h.kept, h.jobs, h.answered⟩

/-- Staged while the link runs, the inbox is what the file comes to. -/
theorem newest_stage_inbox (hrunning : l.stopped = false) {files : List InboxFile}
    (hfile : .inbox ∈ files) : (l.stage files).inboxFile.newest = l.st.inbox := by
  unfold InboxLink.stage
  rw [hrunning, if_neg Bool.false_ne_true, if_pos hfile]
  rfl

@[simp] theorem disk_stage (files : List InboxFile) :
    (l.stage files).inboxFile.disk = l.inboxFile.disk := by
  unfold InboxLink.stage
  split
  · rfl
  · dsimp only
    split
    · rfl
    · rfl

theorem Quiet.newest_eq (h : Quiet l) (hclosed : l.inboxFile.closed = true) :
    l.inboxFile.newest = l.inboxFile.disk := by
  obtain ⟨hpending, hwriting⟩ := h.idle hclosed
  unfold StagedFile.newest
  rw [hpending, hwriting]
  rfl

/-! ## What a step keeps -/

theorem Follows.frame (h : id ∉ l.gone → Follows id l) (t : Nat) (machine : PubKey)
    (wrap : NostrEvent) (now : Nat)
    (hguard : Stores check guardian id l (.frame t machine wrap now))
    (hid : id ∉ (l.frame check guardian t machine wrap now).gone) :
    Follows id (l.frame check guardian t machine wrap now) := by
  unfold InboxLink.frame at hid ⊢
  split
  · rename_i job hbusy
    rw [hbusy] at hid
    exact h hid
  · rename_i hfree
    rw [hfree] at hid
    have hgone : id ∉ l.gone := fun hgone => hid (List.mem_append_left _ hgone)
    have hfollows := h hgone
    unfold Stores at hguard
    have hknown : (pruneSeen l.st.seen now).any (·.id = wrap.id) = true ↔ Known l wrap now := by
      unfold Known
      rw [List.any_eq_true]
      simp only [decide_eq_true_eq]
    unfold LinkInbox.inboundWrap at hid ⊢
    cases hvalid : validateWrapFor check wrap guardian with
    | error e =>
      refine ((hfollows.stage []).setGone _).setJob ?_
      rintro j hj ⟨reply, hreply, haccepted, -⟩
      cases hj
      cases hreply
      cases haccepted
    | ok _ =>
      rw [hvalid] at hid
      dsimp only at hid ⊢
      by_cases hseen : Known l wrap now
      · rw [if_pos (hknown.mpr hseen)]
        simp only [Bool.false_eq_true, if_false, List.append_nil]
        have hstate : Follows id { l with st := { l.st with seen := pruneSeen l.st.seen now } } :=
          hfollows.setState fun h => h
        refine ((hstate.stage []).setGone l.gone).setJob ?_
        rintro j hj ⟨reply, hreply, -, hwrap⟩
        cases hj
        obtain rfl := Option.some.inj hreply
        obtain rfl : wrap.id = id := hwrap
        -- a duplicate is answered at once: the guard has it on disk
        refine Reached.of_disk (hstate.stage []).climbs ?_
        rw [disk_stage]
        exact (hguard rfl hvalid).1 hseen
      · rw [if_neg (mt hknown.mp hseen)] at hid ⊢
        simp only [if_true] at hid ⊢
        have hdropped : id ∉ dropped (l.st.push machine wrap now).inbox
            (l.st.push machine wrap now).trimInbox.inbox :=
          fun h => hid (List.mem_append_right _ h)
        have hstate : Follows id { l with st := (l.st.push machine wrap now).trimInbox } := by
          refine hfollows.setState fun h => has_of_not_dropped hdropped ?_
          show id ∈ (l.st.inbox ++ [_]).map InboxEntry.id
          rw [List.map_append]
          exact List.mem_append_left _ h
        refine ((hstate.stage [.inbox, .seen]).setGone _).setJob ?_
        rintro j hj ⟨reply, hreply, -, hwrap⟩
        cases hj
        obtain rfl := Option.some.inj hreply
        obtain rfl : wrap.id = id := hwrap
        have hstaged := @newest_stage_inbox { l with st := (l.st.push machine wrap now).trimInbox }
          ((hguard rfl hvalid).2 hseen) [.inbox, .seen] List.mem_cons_self
        show Has wrap.id (InboxLink.stage { l with st := _ } _).inboxFile.newest
        rw [hstaged]
        refine has_of_not_dropped hdropped ?_
        show wrap.id ∈ (l.st.inbox ++ [_]).map InboxEntry.id
        rw [List.map_append]
        exact List.mem_append_right _ (List.mem_singleton_self _)

theorem Follows.consume (h : id ∉ l.gone → Follows id l) (t : Nat) (ids : List EventId)
    (hid : id ∉ (l.consume t ids).gone) : Follows id (l.consume t ids) := by
  unfold InboxLink.consume at hid ⊢
  cases hjob : l.jobs t with
  | some job =>
    rw [hjob] at hid
    exact h hid
  | none =>
    rw [hjob] at hid
    cases hst : l.st.consume ids with
    | none =>
      rw [hst] at hid
      exact h hid
    | some st =>
      rw [hst] at hid
      have hfollows := h fun hgone => hid (List.mem_append_left _ hgone)
      have hstate : Follows id { l with st } :=
        hfollows.setState (has_of_not_dropped fun h => hid (List.mem_append_right _ h))
      refine ((hstate.stage [.inbox]).setGone _).setJob ?_
      rintro j hj ⟨reply, hreply, -, -⟩
      cases hj
      cases hreply

/-- A flush takes for its file, or there is nothing to take. -/
theorem Follows.take (h : Follows id l) (hquiet : Quiet l) (t : Nat) : Follows id (l.take t) := by
  unfold InboxLink.take
  split
  · rename_i rest reply hjob
    have hreached := h.jobs t _ hjob
    by_cases hbusy : (!l.inboxFile.closed && l.inboxFile.writing.isSome) = true
    · rw [if_pos hbusy]
      exact h
    · rw [if_neg hbusy]
      have hmoved : Follows id { l with inboxFile := l.inboxFile.take } := by
        refine h.setFile h.climbs.take l.inboxFile.newest_take ?_ ?_
        · rw [StagedFile.disk_take]
          exact fun hdisk => hdisk
        · exact h.climbs.taken_take
      refine hmoved.setJob ?_
      rintro j hj haccepts
      obtain rfl := Option.some.inj hj
      have hnewest : Has id l.inboxFile.newest := by
        refine h.jobs t _ hjob (haccepts.congr ?_)
        split
        · rfl
        · rfl
      cases hclosed : l.inboxFile.closed with
      | true =>
        refine Reached.of_disk hmoved.climbs ?_
        show Has id l.inboxFile.take.disk
        rw [StagedFile.disk_take, ← hquiet.newest_eq hclosed]
        exact hnewest
      | false =>
        rw [hclosed] at hbusy
        have hidle : l.inboxFile.writing = none := by simpa using hbusy
        rw [← StagedFile.taken_take hclosed hidle] at hnewest
        cases hwriting : l.inboxFile.take.writing with
        | some v => exact hnewest
        | none =>
          rw [StagedFile.taken_of_idle hwriting] at hnewest
          exact Reached.of_disk hmoved.climbs hnewest
  · rename_i rest reply hjob
    split
    · exact h
    · refine (h.setSeenFile _).setJob ?_
      rintro j hj haccepts
      obtain rfl := Option.some.inj hj
      refine Reached.of_disk h.climbs (h.jobs t _ hjob (haccepts.congr ?_))
      split
      · rfl
      · rfl
  · exact h

theorem Follows.land (h : Follows id l) (t : Nat) : Follows id (l.land t) := by
  unfold InboxLink.land
  split
  · rename_i rest reply hjob
    have hmoved : Follows id { l with inboxFile := l.inboxFile.land } := by
      refine h.setFile h.climbs.land l.inboxFile.newest_land ?_ ?_
      · rw [StagedFile.disk_land]
        exact h.climbs.taken
      · rw [StagedFile.taken_land]
        exact fun htaken => htaken
    refine hmoved.setJob ?_
    rintro j hj haccepts
    obtain rfl := Option.some.inj hj
    have htaken : Has id l.inboxFile.taken := h.jobs t _ hjob (haccepts.congr rfl)
    rw [← StagedFile.disk_land] at htaken
    exact Reached.of_disk hmoved.climbs htaken
  · rename_i rest reply hjob
    refine (h.setSeenFile _).setJob ?_
    rintro j hj haccepts
    obtain rfl := Option.some.inj hj
    exact Reached.of_disk h.climbs (h.jobs t _ hjob (haccepts.congr rfl))
  · exact h

theorem Follows.answer (h : Follows id l) (t : Nat) : Follows id (l.answer t) := by
  unfold InboxLink.answer
  split
  · rename_i holds reply hjob
    have hlogged : Follows id { l with
        answered := if reply.accepted then l.answered ++ [reply.wrap] else l.answered } := by
      refine ⟨h.climbs, h.kept, h.jobs, fun hanswered => ?_⟩
      dsimp only at hanswered
      split at hanswered
      · rename_i haccepted
        rcases List.mem_append.mp hanswered with hbefore | hnow
        · exact h.answered hbefore
        · refine (h.jobs t _ hjob ⟨reply, rfl, haccepted, ?_⟩).disk_of_nil
          exact (List.mem_singleton.mp hnow).symm
      · exact h.answered hanswered
    exact hlogged.setJob fun j hj => absurd hj (by simp)
  · exact h.setJob fun j hj => absurd hj (by simp)
  · exact h

theorem Follows.close (h : Follows id l) (file : InboxFile) : Follows id (l.close file) := by
  unfold InboxLink.close
  split
  · cases file with
    | inbox =>
      refine h.setFile h.climbs.close l.inboxFile.newest_close ?_ ?_
      · exact h.climbs.disk_close
      · exact h.climbs.taken_close
    | seen => exact h.setSeenFile _
  · exact h

/-- A restart takes over what is on disk, and what it trims is evicted. -/
theorem Follows.crash (h : id ∉ l.gone → Follows id l) (now : Nat)
    (hid : id ∉ (l.crash now).gone) : Follows id (l.crash now) := by
  have hgone : id ∉ l.gone := fun hgone => hid (List.mem_append_left _ hgone)
  have hkept := has_of_not_dropped fun h => hid (List.mem_append_right _ h)
  have hfresh : Follows id ⟨LinkInbox.start l.inboxFile.disk l.seenFile.disk now, false,
      .load l.inboxFile.disk, .load l.seenFile.disk, fun _ => none, l.answered,
      l.gone ++ dropped l.inboxFile.disk
        (LinkInbox.start l.inboxFile.disk l.seenFile.disk now).inbox⟩ :=
    ⟨.load, hkept, fun t job hjob => absurd hjob (by simp), (h hgone).answered⟩
  refine (hfresh.stage _).setJob ?_
  rintro j hj ⟨reply, hreply, -⟩
  obtain rfl := Option.some.inj hj
  cases hreply

theorem Quiet.stage (h : Quiet l) (files : List InboxFile) : Quiet (l.stage files) := by
  unfold InboxLink.stage
  split
  · exact h
  · rename_i hrunning
    have hopen : l.inboxFile.closed ≠ true := fun hclosed => hrunning (h.stopped hclosed)
    refine ⟨fun hclosed => absurd hclosed ?_, fun hclosed => absurd hclosed ?_⟩
    · dsimp only
      split
      · exact hopen
      · exact hopen
    · dsimp only
      split
      · exact hopen
      · exact hopen

/-- Tasks, states and logs are not what is quiet. -/
theorem Quiet.of_eq {l' : InboxLink} (h : Quiet l) (hstopped : l'.stopped = l.stopped)
    (hfile : l'.inboxFile = l.inboxFile) : Quiet l' := by
  obtain ⟨hclosed, hidle⟩ := h
  exact ⟨by rwa [hfile, hstopped], by rwa [hfile]⟩

theorem Quiet.take (h : Quiet l) (t : Nat) : Quiet (l.take t) := by
  unfold InboxLink.take
  split
  · split
    · exact h
    · have hclosed : l.inboxFile.take.closed = l.inboxFile.closed := by
        unfold StagedFile.take
        split
        · rfl
        · rfl
      refine ⟨fun hnow => h.stopped (hclosed ▸ hnow), fun hnow => ?_⟩
      have hbefore : l.inboxFile.closed = true := hclosed ▸ hnow
      show l.inboxFile.take.pending = none ∧ l.inboxFile.take.writing = none
      rw [StagedFile.take_of_refused (by rw [hbefore]; rfl)]
      exact h.idle hbefore
  · split
    · exact h
    · exact h.of_eq rfl rfl
  · exact h

theorem Quiet.land (h : Quiet l) (t : Nat) : Quiet (l.land t) := by
  unfold InboxLink.land
  split
  · cases hwriting : l.inboxFile.writing with
    | none =>
      have hsame : l.inboxFile.land = l.inboxFile := by
        unfold StagedFile.land
        rw [hwriting]
      exact h.of_eq rfl hsame
    | some v =>
      have hopen : l.inboxFile.closed ≠ true := fun hclosed =>
        absurd ((h.idle hclosed).2.symm.trans hwriting) (by simp)
      have hland : l.inboxFile.land.closed = l.inboxFile.closed := by
        unfold StagedFile.land
        rw [hwriting]
      exact ⟨fun hclosed => absurd (hland ▸ hclosed) hopen,
        fun hclosed => absurd (hland ▸ hclosed) hopen⟩
  · exact h.of_eq rfl rfl
  · exact h

theorem Quiet.step (h : Quiet l) (a : InboxAction) : Quiet (l.step check guardian a) := by
  cases a with
  | frame t machine wrap now =>
    show Quiet (l.frame check guardian t machine wrap now)
    unfold InboxLink.frame
    split
    · exact h
    · have hstate : Quiet { l with st := (l.st.inboundWrap check guardian machine wrap now).1 } :=
        h.of_eq rfl rfl
      exact (hstate.stage _).of_eq rfl rfl
  | consume t ids =>
    show Quiet (l.consume t ids)
    unfold InboxLink.consume
    split
    · rename_i st hfree hst
      have hstate : Quiet { l with st } := h.of_eq rfl rfl
      exact (hstate.stage _).of_eq rfl rfl
    · exact h
  | take t => exact h.take t
  | land t => exact h.land t
  | answer t =>
    show Quiet (l.answer t)
    unfold InboxLink.answer
    split
    · exact h.of_eq rfl rfl
    · exact h.of_eq rfl rfl
    · exact h
  | stop => exact ⟨fun _ => rfl, h.idle⟩
  | close file =>
    show Quiet (l.close file)
    unfold InboxLink.close
    split
    · rename_i hstopped
      cases file with
      | inbox =>
        refine ⟨fun _ => hstopped, fun hclosed => ?_⟩
        show l.inboxFile.close.pending = none ∧ l.inboxFile.close.writing = none
        unfold StagedFile.close at hclosed ⊢
        split
        · rename_i hrefused
          rw [if_pos hrefused] at hclosed
          exact h.idle hclosed
        · exact ⟨rfl, rfl⟩
      | seen => exact h.of_eq rfl rfl
    · exact h
  | crash now =>
    have hfresh : Quiet ⟨LinkInbox.start l.inboxFile.disk l.seenFile.disk now, false,
        .load l.inboxFile.disk, .load l.seenFile.disk, fun _ => none, l.answered,
        l.gone ++ dropped l.inboxFile.disk
          (LinkInbox.start l.inboxFile.disk l.seenFile.disk now).inbox⟩ :=
      ⟨fun hclosed => absurd hclosed (by simp [StagedFile.load]), fun _ => ⟨rfl, rfl⟩⟩
    exact (hfresh.stage _).of_eq rfl rfl

/-! ## Every run -/

/-- What is owed to a wrap holds as long as it is neither evicted nor ingested. -/
structure Settled (id : EventId) (l : InboxLink) : Prop where
  quiet : Quiet l
  follows : id ∉ l.gone → Follows id l

theorem settled_empty : Settled id empty :=
  ⟨⟨fun hclosed => absurd hclosed (by simp [empty, StagedFile.load]), fun _ => ⟨rfl, rfl⟩⟩,
    fun _ => ⟨.load, fun h => h, fun t job hjob => absurd hjob (by simp [empty]),
      fun h => absurd h List.not_mem_nil⟩⟩

theorem Settled.step (h : Settled id l) {a : InboxAction} (hguard : Stores check guardian id l a) :
    Settled id (l.step check guardian a) := by
  refine ⟨h.quiet.step a, fun hid => ?_⟩
  cases a with
  | frame t machine wrap now => exact Follows.frame h.follows t machine wrap now hguard hid
  | consume t ids => exact Follows.consume h.follows t ids hid
  | take t =>
    have hsame : (l.take t).gone = l.gone := by
      unfold InboxLink.take
      split
      · split
        · rfl
        · rfl
      · split
        · rfl
        · rfl
      · rfl
    exact (h.follows (hsame ▸ hid)).take h.quiet t
  | land t =>
    have hsame : (l.land t).gone = l.gone := by
      unfold InboxLink.land
      split
      · rfl
      · rfl
      · rfl
    exact (h.follows (hsame ▸ hid)).land t
  | answer t =>
    have hsame : (l.answer t).gone = l.gone := by
      unfold InboxLink.answer
      split
      · rfl
      · rfl
      · rfl
    exact (h.follows (hsame ▸ hid)).answer t
  | stop =>
    have hfollows := h.follows hid
    exact ⟨hfollows.climbs, hfollows.kept, hfollows.jobs, hfollows.answered⟩
  | close file =>
    have hsame : (l.close file).gone = l.gone := by
      unfold InboxLink.close
      split
      · cases file with
        | inbox => rfl
        | seen => rfl
      · rfl
    exact (h.follows (hsame ▸ hid)).close file
  | crash now => exact Follows.crash h.follows now hid

/-- The frame that brings a wrap when it is remembered and not on disk, or when the link is stopped:
it is answered as accepted and stores nothing. -/
def Slips (check : WrapCheck) (guardian : PubKey) (id : EventId) (l : InboxLink) :
    InboxAction → Prop
  | .frame _ _ wrap now =>
    wrap.id = id ∧ validateWrapFor check wrap guardian = .ok () ∧
      (Known l wrap now ∧ ¬Has id l.inboxFile.disk ∨ ¬Known l wrap now ∧ l.stopped = true)
  | _ => False

theorem stores_of_not_slips {a : InboxAction} (h : ¬Slips check guardian id l a) :
    Stores check guardian id l a := by
  cases a with
  | frame t machine wrap now =>
    refine fun hid hvalid => ⟨fun hknown => ?_, fun hnew => ?_⟩
    · by_contra hdisk
      exact h ⟨hid, hvalid, .inl ⟨hknown, hdisk⟩⟩
    · by_contra hstopped
      exact h ⟨hid, hvalid, .inr ⟨hnew, by simpa using hstopped⟩⟩
  | _ => trivial

/-- **What is answered as accepted is stored.**  In every run a wrap that has been answered as
accepted, and is neither evicted nor ingested, is in the inbox file, and so in the inbox of whatever
link starts after a crash; unless one of its frames came while it was remembered and not yet on
disk, or while the link was stopped. -/
theorem answered_stored (as : List InboxAction) (hanswered : id ∈ (after check guardian as).answered)
    (hgone : id ∉ (after check guardian as).gone) :
    (Has id (after check guardian as).inboxFile.disk ∧
      ∀ now, Has id ((after check guardian as).crash now).st.inbox) ∨
    ∃ before a later, as = before ++ a :: later ∧
      Slips check guardian id (after check guardian before) a := by
  by_cases hslips : ∃ before a later, as = before ++ a :: later ∧
      Slips check guardian id (after check guardian before) a
  · exact .inr hslips
  · have hobeys : GuardedRun.Obeys (InboxLink.step check guardian)
        (Stores check guardian id) empty as := by
      refine GuardedRun.obeys_of_split fun before a later hsplit => stores_of_not_slips ?_
      exact fun h => hslips ⟨before, a, later, hsplit, h⟩
    have hsettled : Settled id (after check guardian as) :=
      hobeys.invariant (fun l a hl ha => hl.step ha) settled_empty
    have hdisk := (hsettled.follows hgone).answered hanswered
    refine .inl ⟨hdisk, fun now => ?_⟩
    rw [crash_inbox]
    exact hdisk

/-! ### Answered, and not stored -/

/-- Some wrap has been answered as accepted that is not on disk. -/
def Unstored (l : InboxLink) : Prop :=
  ∃ id ∈ l.answered, id ∉ l.gone ∧ ¬Has id l.inboxFile.disk

/-- Another wrap to the guardian. -/
def sealedNext : NostrEvent := { sealed with id := ⟨2⟩ }

/-- The ward sends the wrap again before the first copy is written. -/
def sentAgain : List InboxAction :=
  [.frame 0 ⟨7⟩ sealed 0, .frame 1 ⟨7⟩ sealed 0, .answer 1]

/-- The first task writes the ids of both wraps when the inbox with the second is not yet written,
and the link crashes: the second wrap is remembered and nowhere. -/
def rememberedFirst : List InboxAction :=
  [.frame 0 ⟨7⟩ sealed 0, .take 0, .frame 1 ⟨7⟩ sealedNext 0, .land 0, .take 0, .land 0, .crash 1,
    .frame 1 ⟨7⟩ sealedNext 2, .answer 1]

/-- The wrap comes while the link shuts down. -/
def comesLate : List InboxAction := [.stop, .frame 0 ⟨7⟩ sealed 0, .take 0, .take 0, .answer 0]

/-- **Answered and lost**: before the first copy is written, remembered before it is written, and
while the link shuts down. -/
theorem unstored_runs : Unstored (after plainCheck guardianKey sentAgain) ∧
    Unstored (after plainCheck guardianKey rememberedFirst) ∧
    Unstored (after plainCheck guardianKey comesLate) := by
  unfold Unstored
  exact ⟨by decide +kernel, by decide +kernel, by decide +kernel⟩

/-- A wrap, and the same wrap again when it is stored. -/
def stored : List InboxAction :=
  [.frame 0 ⟨7⟩ sealed 0, .take 0, .land 0, .frame 1 ⟨7⟩ sealed 1, .answer 1]

theorem answered_stored_twice :
    (Has sealed.id (after plainCheck guardianKey stored).inboxFile.disk ∧
      ∀ now, Has sealed.id ((after plainCheck guardianKey stored).crash now).st.inbox) ∨
    ∃ before a later, stored = before ++ a :: later ∧
      Slips plainCheck guardianKey sealed.id (after plainCheck guardianKey before) a :=
  answered_stored stored (by decide +kernel) (by decide +kernel)

end InboxLink

end Kintrinsic
