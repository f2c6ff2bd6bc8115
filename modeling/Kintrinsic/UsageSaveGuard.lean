import Kintrinsic.EffectRun
import Kintrinsic.MachineWord
import Mathlib.Data.Finset.Erase
import Mathlib.Data.Finset.Filter
import Mathlib.Data.Finset.Insert
import Mathlib.Data.List.DropRight

/-! # The guard over the saves of usage ledgers

A child whose ledger cannot be saved is held paused: at once when there is no room for the save,
and otherwise when saves have failed for five minutes on end.  What the guard says of a child is
read here off that child's own results since the child was last dropped.  The loop also stamps when it
last ran, so that the next start can tell how long nothing was enforced. -/
namespace Kintrinsic

open EffectRun

inductive ErrorKind
  | storageFull
  | quotaExceeded
  | other
deriving DecidableEq

/-- `std::io::Error`: its kind, its code if it has one, and how it reads. -/
structure IoError where
  kind : ErrorKind
  rawOsError : Option Int
  text : String
deriving DecidableEq

/-- Out of blocks, inodes or quota: `ENOSPC` or `EDQUOT`, by the kind or by the code. -/
def IoError.isStorageFull (e : IoError) : Bool :=
  decide (e.kind = .storageFull ∨ e.kind = .quotaExceeded) ||
    decide (e.rawOsError = some 28 ∨ e.rawOsError = some 122)

def usageUnsavedAfterSecs : Nat := 5 * 60

inductive SaveTransition
  | startedFailing (error : String)
  | tripped
  | trippedStorageFull (error : String)
  | recovered (wasTripped : Bool)
deriving DecidableEq

structure UsageSaveGuard where
  /-- Second of the first failure in each child's current stretch. -/
  failingSince : UInt32 → Option Nat
  tripped : Finset UInt32

namespace UsageSaveGuard
variable (g : UsageSaveGuard)

def new : UsageSaveGuard := ⟨fun _ => none, ∅⟩

def setSince (uid : UInt32) (since : Option Nat) : UInt32 → Option Nat :=
  fun u => if u = uid then since else g.failingSince u

/-- `record`: one attempt to save, at a second of the monotonic clock. -/
def record (uid : UInt32) (result : Except IoError Unit) (monoSecs : Nat) :
    UsageSaveGuard × Option SaveTransition :=
  match result with
  | .ok () =>
    let wasFailing := (g.failingSince uid).isSome
    let wasTripped := decide (uid ∈ g.tripped)
    (⟨g.setSince uid none, g.tripped.erase uid⟩,
      if wasFailing then some (.recovered wasTripped) else none)
  | .error e =>
    if e.isStorageFull then
      (⟨g.setSince uid (some ((g.failingSince uid).getD monoSecs)), insert uid g.tripped⟩,
        if uid ∈ g.tripped then none else some (.trippedStorageFull e.text))
    else
      match g.failingSince uid with
      | none => (⟨g.setSince uid (some monoSecs), g.tripped⟩, some (.startedFailing e.text))
      | some since =>
        if usageUnsavedAfterSecs ≤ monoSecs - since ∧ uid ∉ g.tripped then
          (⟨g.failingSince, insert uid g.tripped⟩, some .tripped)
        else (g, none)

def isUnsaved (uid : UInt32) : Bool := decide (uid ∈ g.tripped)

/-- `retain`: forget every child that is not managed any more. -/
def retain (uids : List UInt32) : UsageSaveGuard :=
  ⟨fun u => if u ∈ uids then g.failingSince u else none, g.tripped.filter (· ∈ uids)⟩

end UsageSaveGuard

/-! ## Runs -/

/-- A call of the guard. -/
inductive SaveOp
  | record (uid : UInt32) (result : Except IoError Unit) (monoSecs : Nat)
  | retain (uids : List UInt32)

/-- What the call reports, under the child it is about. -/
def UsageSaveGuard.step (g : UsageSaveGuard) :
    SaveOp → UsageSaveGuard × List (UInt32 × SaveTransition)
  | .record uid result monoSecs =>
    ((g.record uid result monoSecs).1,
      ((g.record uid result monoSecs).2.map fun t => (uid, t)).toList)
  | .retain uids => (g.retain uids, [])

/-- The guard after a run. -/
def UsageSaveGuard.after (ops : List SaveOp) : UsageSaveGuard :=
  (run UsageSaveGuard.step .new ops).1

/-! ## One child's results -/

/-- An attempt to save, and when. -/
structure Save where
  result : Except IoError Unit
  monoSecs : Nat

namespace Save

def failed (s : Save) : Bool :=
  match s.result with
  | .ok () => false
  | .error _ => true

def full (s : Save) : Bool :=
  match s.result with
  | .ok () => false
  | .error e => e.isStorageFull

end Save

/-- What a call adds to the results of a child. -/
def heard (uid : UInt32) (saves : List Save) : SaveOp → List Save
  | .record u result monoSecs => if u = uid then saves ++ [⟨result, monoSecs⟩] else saves
  | .retain uids => if uid ∈ uids then saves else []

/-- A child's results since the child was last dropped, the latest at the end. -/
def savesOf (uid : UInt32) (ops : List SaveOp) : List Save := ops.foldl (heard uid) []

/-- The current unbroken failing stretch: the errors at the end. -/
def stretch (saves : List Save) : List Save := saves.rtakeWhile Save.failed

/-- A stretch that pauses the budget: some save had no room, or some save failed five minutes
after the first. -/
def Shuts (failures : List Save) : Prop :=
  (∃ s ∈ failures, s.full = true) ∨
    ∃ first, failures.head? = some first ∧
      ∃ s ∈ failures, first.monoSecs + usageUnsavedAfterSecs ≤ s.monoSecs

/-- Whether a report takes a child into the pause, or out of it. -/
def SaveTransition.signal : SaveTransition → Option Bool
  | tripped | trippedStorageFull _ => some true
  | recovered true => some false
  | startedFailing _ | recovered false => none

/-- A child's turns into the pause and out of it. -/
def signalsOf (uid : UInt32) (reports : List (UInt32 × SaveTransition)) : List Bool :=
  reports.filterMap fun r => if r.1 = uid then r.2.signal else none

/-- A call that ends a child's stretch: a save that lands, or a drop. -/
def SaveOp.breaks (uid : UInt32) : SaveOp → Bool
  | record u result _ => decide (u = uid) && (result matches .ok ())
  | retain uids => decide (uid ∉ uids)

/-! ## A stretch, result by result -/

theorem stretch_landed (saves : List Save) {s : Save} (h : s.failed = false) :
    stretch (saves ++ [s]) = [] :=
  List.rtakeWhile_concat_neg _ _ _ (Bool.eq_false_iff.mp h)

theorem stretch_failed (saves : List Save) {s : Save} (h : s.failed = true) :
    stretch (saves ++ [s]) = stretch saves ++ [s] :=
  List.rtakeWhile_concat_pos _ _ _ h

/-- The stretch is empty unless the last result is an error. -/
theorem stretch_ne_nil_iff {saves : List Save} :
    stretch saves ≠ [] ↔ ∃ s, saves.getLast? = some s ∧ s.failed = true := by
  rcases List.eq_nil_or_concat' saves with rfl | ⟨saves, s, rfl⟩
  · simp [stretch]
  · rw [List.getLast?_concat]
    cases hs : s.failed with
    | false => simp [stretch_landed saves hs, hs]
    | true => simp [stretch_failed saves hs, hs]

theorem not_shuts_nil : ¬Shuts [] := by
  rintro (⟨s, hs, -⟩ | ⟨first, hfirst, -⟩)
  · cases hs
  · cases hfirst

/-- The first failure of a stretch shuts only when there was no room. -/
theorem shuts_singleton {s : Save} : Shuts [s] ↔ s.full = true := by
  constructor
  · rintro (⟨s', hs', hfull⟩ | ⟨first, hfirst, s', hs', hlate⟩)
    · rw [← List.mem_singleton.mp hs']
      exact hfull
    · obtain rfl := List.mem_singleton.mp hs'
      obtain rfl := Option.some.inj hfirst
      unfold usageUnsavedAfterSecs at hlate
      omega
  · intro hfull
    exact .inl ⟨s, List.mem_singleton_self s, hfull⟩

/-- What one more failure adds. -/
theorem shuts_concat {failures : List Save} {first s : Save} (h : failures.head? = some first) :
    Shuts (failures ++ [s]) ↔ Shuts failures ∨ s.full = true ∨
      first.monoSecs + usageUnsavedAfterSecs ≤ s.monoSecs := by
  have hhead : (failures ++ [s]).head? = some first := by
    rw [List.head?_append, h, Option.some_or]
  have hmem : ∀ {p : Save → Prop}, (∃ x ∈ failures ++ [s], p x) ↔
      (∃ x ∈ failures, p x) ∨ p s := by
    intro p
    constructor
    · rintro ⟨x, hx, hp⟩
      rcases List.mem_append.mp hx with hx | hx
      · exact .inl ⟨x, hx, hp⟩
      · rw [← List.mem_singleton.mp hx]
        exact .inr hp
    · rintro (⟨x, hx, hp⟩ | hp)
      · exact ⟨x, List.mem_append_left _ hx, hp⟩
      · exact ⟨s, List.mem_append_right _ (List.mem_singleton_self s), hp⟩
  unfold Shuts
  rw [hhead, h]
  simp only [Option.some.injEq, exists_eq_left', hmem]
  exact or_or_or_comm

namespace UsageSaveGuard
variable {g : UsageSaveGuard} {uid : UInt32} {saves : List Save}

/-! ## One step -/

/-- What the guard knows of a child, against the child's results. -/
structure Tracks (g : UsageSaveGuard) (uid : UInt32) (saves : List Save) : Prop where
  since : g.failingSince uid = (stretch saves).head?.map Save.monoSecs
  unsaved : g.isUnsaved uid = true ↔ Shuts (stretch saves)

theorem tracks_new (uid : UInt32) : Tracks new uid [] := by
  refine ⟨rfl, iff_of_false (fun h => ?_) not_shuts_nil⟩
  simp [isUnsaved, new] at h

/-- A save of another child is not heard. -/
theorem record_other {u : UInt32} (hu : uid ≠ u) (result : Except IoError Unit) (monoSecs : Nat) :
    (g.record u result monoSecs).1.failingSince uid = g.failingSince uid ∧
      (g.record u result monoSecs).1.isUnsaved uid = g.isUnsaved uid := by
  have hsince : ∀ since, g.setSince u since uid = g.failingSince uid := fun _ => if_neg hu
  unfold record isUnsaved
  split
  · exact ⟨hsince _, by simp [hu]⟩
  · split
    · exact ⟨hsince _, by simp [hu]⟩
    · split
      · exact ⟨hsince _, rfl⟩
      · split
        · exact ⟨rfl, by simp [hu]⟩
        · exact ⟨rfl, rfl⟩

/-- A save that lands releases the child. -/
theorem tracks_landed (g : UsageSaveGuard) (uid : UInt32) (saves : List Save) (monoSecs : Nat) :
    (g.record uid (.ok ()) monoSecs).1.Tracks uid (saves ++ [⟨.ok (), monoSecs⟩]) := by
  have hnil : stretch (saves ++ [⟨.ok (), monoSecs⟩]) = [] := stretch_landed saves rfl
  refine ⟨?_, ?_⟩
  · rw [hnil]
    exact if_pos rfl
  · rw [hnil]
    refine iff_of_false (fun hunsaved => ?_) not_shuts_nil
    simp [record, isUnsaved] at hunsaved

/-- No room: the child is held at once. -/
theorem Tracks.full (h : g.Tracks uid saves) {e : IoError} (he : e.isStorageFull = true)
    (monoSecs : Nat) :
    (g.record uid (.error e) monoSecs).1.Tracks uid (saves ++ [⟨.error e, monoSecs⟩]) := by
  have hstretch := stretch_failed saves (s := ⟨.error e, monoSecs⟩) rfl
  unfold record
  dsimp only
  rw [if_pos he]
  refine ⟨?_, iff_of_true ?_ ?_⟩
  · rw [hstretch, h.since]
    cases hfirst : (stretch saves).head? with
    | none =>
      rw [List.head?_eq_none_iff.mp hfirst]
      exact if_pos rfl
    | some first =>
      rw [List.head?_append, hfirst]
      exact if_pos rfl
  · simp [isUnsaved]
  · rw [hstretch]
    exact .inl ⟨_, List.mem_append_right _ (List.mem_singleton_self _), he⟩

/-- Any other error: the child is held five minutes after the stretch began. -/
theorem Tracks.failed (h : g.Tracks uid saves) {e : IoError} (he : e.isStorageFull = false)
    (monoSecs : Nat) :
    (g.record uid (.error e) monoSecs).1.Tracks uid (saves ++ [⟨.error e, monoSecs⟩]) := by
  have hstretch := stretch_failed saves (s := ⟨.error e, monoSecs⟩) rfl
  have hroom : ¬Save.full ⟨.error e, monoSecs⟩ = true := Bool.eq_false_iff.mp he
  have hnot : ¬e.isStorageFull = true := Bool.eq_false_iff.mp he
  unfold record
  dsimp only
  rw [if_neg hnot, h.since]
  cases hfirst : (stretch saves).head? with
  | none =>
    have hnil := List.head?_eq_none_iff.mp hfirst
    rw [hnil, List.nil_append] at hstretch
    refine ⟨?_, ?_⟩
    · rw [hstretch]
      exact if_pos rfl
    · rw [hstretch, shuts_singleton]
      refine iff_of_false (fun hunsaved => ?_) hroom
      exact not_shuts_nil (hnil ▸ h.unsaved.mp hunsaved)
  | some first =>
    have hsince : g.failingSince uid = some first.monoSecs := by rw [h.since, hfirst]; rfl
    have hhead : (stretch saves ++ [(⟨.error e, monoSecs⟩ : Save)]).head? = some first := by
      rw [List.head?_append, hfirst, Option.some_or]
    have hlate : usageUnsavedAfterSecs ≤ monoSecs - first.monoSecs ↔
        first.monoSecs + usageUnsavedAfterSecs ≤ monoSecs := by
      unfold usageUnsavedAfterSecs
      omega
    dsimp only [Option.map_some]
    split
    · rename_i htrips
      refine ⟨?_, ?_⟩
      · rw [hstretch, hhead]
        exact hsince
      · rw [hstretch, shuts_concat hfirst]
        exact iff_of_true (by simp [isUnsaved]) (.inr (.inr (hlate.mp htrips.1)))
    · rename_i hstays
      refine ⟨?_, ?_⟩
      · rw [hstretch, hhead]
        exact hsince
      · rw [hstretch, shuts_concat hfirst, h.unsaved]
        refine ⟨.inl, ?_⟩
        rintro (hshuts | hfull | htime)
        · exact hshuts
        · exact absurd hfull hroom
        · by_contra hopen
          refine hstays ⟨hlate.mpr htime, fun hmem => hopen (h.unsaved.mp ?_)⟩
          exact decide_eq_true hmem

/-- **Each call keeps what the guard knows in step with the results.** -/
theorem Tracks.step (h : g.Tracks uid saves) (op : SaveOp) :
    (g.step op).1.Tracks uid (heard uid saves op) := by
  cases op with
  | record u result monoSecs =>
    show (g.record u result monoSecs).1.Tracks uid _
    unfold heard
    by_cases hu : u = uid
    · subst hu
      dsimp only
      rw [if_pos rfl]
      cases result with
      | ok value => exact tracks_landed g u saves monoSecs
      | error e =>
        cases he : e.isStorageFull with
        | true => exact h.full he monoSecs
        | false => exact h.failed he monoSecs
    · dsimp only
      rw [if_neg hu]
      obtain ⟨hsince, hunsaved⟩ := record_other (g := g) (Ne.symm hu) result monoSecs
      exact ⟨hsince.trans h.since, hunsaved ▸ h.unsaved⟩
  | retain uids =>
    unfold heard
    show (g.retain uids).Tracks uid _
    dsimp only
    split
    · rename_i hin
      refine ⟨(if_pos hin).trans h.since, ?_⟩
      rw [← h.unsaved]
      simp [isUnsaved, retain, hin]
    · rename_i hout
      refine ⟨if_neg hout, iff_of_false (fun hunsaved => ?_) not_shuts_nil⟩
      simp [isUnsaved, retain, hout] at hunsaved

theorem tracks_after (uid : UInt32) (ops : List SaveOp) :
    (after ops).Tracks uid (savesOf uid ops) := by
  induction ops using List.reverseRecOn with
  | nil => exact tracks_new uid
  | append_singleton ops op ih =>
    unfold after savesOf at *
    rw [run_append_singleton, List.foldl_append]
    exact ih.step op

/-! ## Transitions -/

/-- A call that ends no stretch of a child can take it into the pause, and reports that. -/
theorem signals_step {op : SaveOp} (h : op.breaks uid = false) :
    signalsOf uid (g.step op).2 =
      if (g.step op).1.isUnsaved uid = true ∧ g.isUnsaved uid = false then [true] else [] := by
  have hsame : ∀ {b b' : Bool}, b' = b → ¬(b' = true ∧ b = false) := by
    rintro b _ rfl ⟨htrue, hfalse⟩
    rw [htrue] at hfalse
    cases hfalse
  cases op with
  | retain uids =>
    have hin : uid ∈ uids := by simpa [SaveOp.breaks] using h
    have hunsaved : (g.retain uids).isUnsaved uid = g.isUnsaved uid := by
      simp [isUnsaved, retain, hin]
    exact (if_neg (hsame hunsaved)).symm
  | record u result monoSecs =>
    show signalsOf uid ((g.record u result monoSecs).2.map fun t => (u, t)).toList =
      if (g.record u result monoSecs).1.isUnsaved uid = true ∧ g.isUnsaved uid = false
        then [true] else []
    by_cases hu : u = uid
    · subst hu
      cases result with
      | ok value => simp [SaveOp.breaks] at h
      | error e =>
        unfold record
        dsimp only
        split
        · by_cases hmem : u ∈ g.tripped
          · simp [isUnsaved, hmem, signalsOf]
          · simp [isUnsaved, hmem, signalsOf, SaveTransition.signal]
        · split
          · simp [isUnsaved, signalsOf, SaveTransition.signal]
          · split
            · rename_i htrips
              simp [isUnsaved, htrips.2, signalsOf, SaveTransition.signal]
            · simp [isUnsaved, signalsOf]
    · rw [if_neg (hsame (record_other (Ne.symm hu) result monoSecs).2)]
      cases (g.record u result monoSecs).2 with
      | none => rfl
      | some t => simp [signalsOf, hu]

/-- While no call ends a stretch of a child, it is not released. -/
theorem isUnsaved_step {op : SaveOp} (h : op.breaks uid = false) (hg : g.isUnsaved uid = true) :
    (g.step op).1.isUnsaved uid = true := by
  have hmem : uid ∈ g.tripped := of_decide_eq_true hg
  cases op with
  | retain uids =>
    have hin : uid ∈ uids := by simpa [SaveOp.breaks] using h
    show (g.retain uids).isUnsaved uid = true
    simp [isUnsaved, retain, hin, hmem]
  | record u result monoSecs =>
    show (g.record u result monoSecs).1.isUnsaved uid = true
    by_cases hu : u = uid
    · subst hu
      cases result with
      | ok value => simp [SaveOp.breaks] at h
      | error e =>
        unfold record isUnsaved
        dsimp only
        split
        · simp
        · split
          · exact hg
          · split
            · simp
            · exact hg
    · rw [(record_other (Ne.symm hu) result monoSecs).2]
      exact hg

theorem isUnsaved_run {ops : List SaveOp} (h : ∀ op ∈ ops, op.breaks uid = false)
    (hg : g.isUnsaved uid = true) : (run step g ops).1.isUnsaved uid = true := by
  induction ops generalizing g with
  | nil => exact hg
  | cons op ops ih =>
    exact ih (fun o ho => h o (List.mem_cons_of_mem _ ho))
      (isUnsaved_step (h op List.mem_cons_self) hg)

/-- **Over a piece of a run that ends no stretch of a child**, it goes into the pause at most
once, and is not released. -/
theorem signals_stretch {ops : List SaveOp} (h : ∀ op ∈ ops, op.breaks uid = false) :
    signalsOf uid (effects step g ops) =
      if (run step g ops).1.isUnsaved uid = true ∧ g.isUnsaved uid = false then [true] else [] := by
  induction ops generalizing g with
  | nil =>
    symm
    apply if_neg
    rintro ⟨htrue, hfalse⟩
    exact absurd (htrue.symm.trans hfalse) (by decide)
  | cons op ops ih =>
    have hop := h op List.mem_cons_self
    have hlater : ∀ o ∈ ops, o.breaks uid = false := fun o ho => h o (List.mem_cons_of_mem _ ho)
    have hrest := ih (g := (g.step op).1) hlater
    have hfirst : signalsOf uid (g.step op).2 = _ := signals_step hop
    rw [effects_cons, signalsOf, List.filterMap_append]
    rw [signalsOf] at hfirst hrest
    rw [hfirst, hrest]
    show _ = if (run step (g.step op).1 ops).1.isUnsaved uid = true ∧ _ then _ else _
    cases hg : g.isUnsaved uid with
    | true => simp [isUnsaved_step hop hg]
    | false =>
      cases hnext : (g.step op).1.isUnsaved uid with
      | true => simp [isUnsaved_run hlater hnext]
      | false => simp

/-- A save that lands reports a release when there was a pause. -/
theorem signals_landed (ops : List SaveOp) (uid : UInt32) (monoSecs : Nat) :
    signalsOf uid ((after ops).step (.record uid (.ok ()) monoSecs)).2 =
      if (after ops).isUnsaved uid = true then [false] else [] := by
  have htracks := tracks_after uid ops
  show signalsOf uid (((after ops).record uid (.ok ()) monoSecs).2.map fun t => (uid, t)).toList = _
  unfold record
  dsimp only
  cases hunsaved : (after ops).isUnsaved uid with
  | false =>
    have hmem : decide (uid ∈ (after ops).tripped) = false := hunsaved
    rw [hmem]
    split <;> simp [signalsOf, SaveTransition.signal]
  | true =>
    have hmem : decide (uid ∈ (after ops).tripped) = true := hunsaved
    have hfailing : ((after ops).failingSince uid).isSome = true := by
      rw [htracks.since]
      cases hst : stretch (savesOf uid ops) with
      | nil => exact absurd (hst ▸ htracks.unsaved.mp hunsaved) not_shuts_nil
      | cons s rest => rfl
    rw [hmem, if_pos hfailing]
    simp [signalsOf, SaveTransition.signal]

/-- **The law of the guard, over every run.**  A child is reported unsaved exactly when its last
result was an error and its stretch shuts.  From the start of a stretch until it ends, the child
goes into the pause at most once and is not released; the save that ends the stretch releases it
once, if it was paused.  To retain some children forgets the others, and only them. -/
theorem save_guard_law (ops : List SaveOp) (uid : UInt32) :
    ((after ops).isUnsaved uid = true ↔
      (∃ s, (savesOf uid ops).getLast? = some s ∧ s.failed = true) ∧
        Shuts (stretch (savesOf uid ops))) ∧
    (∀ failures : List SaveOp, stretch (savesOf uid ops) = [] →
      (∀ op ∈ failures, op.breaks uid = false) →
      signalsOf uid (effects step (after ops) failures) =
          (if (after (ops ++ failures)).isUnsaved uid = true then [true] else []) ∧
        ∀ monoSecs, signalsOf uid ((after (ops ++ failures)).step
            (.record uid (.ok ()) monoSecs)).2 =
          if (after (ops ++ failures)).isUnsaved uid = true then [false] else []) ∧
    ∀ uids,
      (uid ∈ uids → ((after ops).retain uids).failingSince uid = (after ops).failingSince uid ∧
        ((after ops).retain uids).isUnsaved uid = (after ops).isUnsaved uid) ∧
      (uid ∉ uids → ((after ops).retain uids).failingSince uid = none ∧
        ((after ops).retain uids).isUnsaved uid = false) := by
  have htracks := tracks_after uid ops
  refine ⟨?_, fun failures hquiet hfailures => ⟨?_, ?_⟩,
    fun uids => ⟨fun hin => ?_, fun hout => ?_⟩⟩
  · rw [htracks.unsaved, ← stretch_ne_nil_iff, iff_and_self]
    intro hshuts hnil
    exact not_shuts_nil (hnil ▸ hshuts)
  · have hsaved : (after ops).isUnsaved uid = false := by
      rw [← Bool.not_eq_true, htracks.unsaved, hquiet]
      exact not_shuts_nil
    have hrun : after (ops ++ failures) = (run step (after ops) failures).1 := by
      unfold after
      rw [run_state, run_state, run_state, List.foldl_append]
    rw [signals_stretch hfailures, hsaved, hrun]
    simp
  · exact signals_landed (ops ++ failures) uid
  · exact ⟨if_pos hin, by simp [isUnsaved, retain, hin]⟩
  · exact ⟨if_neg hout, by simp [isUnsaved, retain, hout]⟩

end UsageSaveGuard

/-! ## When the loop last ran -/

/-- The stamp of the last enforced tick: the file, `Stamp`, and the writes that are on their way. -/
structure EnforcedStamp where
  file : Option Int
  lastWritten : Option Int
  pending : List Int
deriving DecidableEq

namespace EnforcedStamp

def gapThresholdSecs : Int := 300

def stampIntervalSecs : Int := 60

/-- `Stamp::due`: a clock that went back writes at once. -/
def due (lastWritten : Option Int) (now : Int) : Bool :=
  lastWritten.all fun last => decide (now < last) || decide (stampIntervalSecs ≤ now - last)

/-- `gap_secs`: how long nothing was enforced, where that is worth telling. -/
def gapSecs (lastEnforced : Option Int) (now : Int) : Option Int :=
  (lastEnforced.filter fun last => decide (-2 ^ 63 ≤ now - last ∧ now - last < 2 ^ 63)).bind
    fun last => if gapThresholdSecs < now - last then some (now - last) else none

/-- A tick, the end of a write that was on its way, and a start of the daemon, which drops those
that have not ended. -/
inductive Move
  | tick (now : Int)
  | land (k : Nat) (written : Bool)
  | restart
deriving DecidableEq

def step (s : EnforcedStamp) : Move → EnforcedStamp
  | .tick now =>
    if due s.lastWritten now then { s with lastWritten := some now, pending := s.pending ++ [now] }
    else s
  | .land k written =>
    match s.pending[k]? with
    | none => s
    | some stamped => ⟨if written then some stamped else s.file, s.lastWritten, s.pending.eraseIdx k⟩
  | .restart => ⟨s.file, none, []⟩

def run (s : EnforcedStamp) (moves : List Move) : EnforcedStamp := moves.foldl step s

/-- The daemon's first start, with what is on disk. -/
def start (file : Option Int) : EnforcedStamp := ⟨file, none, []⟩

def Move.tick? : Move → Option Int
  | .tick now => some now
  | _ => none

/-- When the loop last ran. -/
def lastTick (moves : List Move) : Option Int := (moves.filterMap Move.tick?).getLast?

/-- A move of one session whose writes all succeed, one after the other. -/
def Move.Prompt : Move → Prop
  | .tick _ => True
  | .land k written => k = 0 ∧ written = true
  | .restart => False

section
variable {s : EnforcedStamp} {file : Option Int} {moves : List Move} {now gap : Int}

theorem gapSecs_eq_some : gapSecs file now = some gap ↔
    ∃ last, file = some last ∧ gap = now - last ∧ 300 < gap ∧ gap < 2 ^ 63 := by
  unfold gapSecs gapThresholdSecs
  cases file with
  | none => simp
  | some last =>
    rw [Option.filter_some]
    by_cases hfits : -2 ^ 63 ≤ now - last ∧ now - last < 2 ^ 63
    · rw [if_pos (decide_eq_true hfits), Option.bind_some]
      by_cases htold : 300 < now - last
      · rw [if_pos htold]
        constructor
        · intro h
          obtain rfl := Option.some.inj h
          exact ⟨last, rfl, rfl, htold, hfits.2⟩
        · rintro ⟨last', hlast, rfl, -⟩
          rw [Option.some.inj hlast]
      · rw [if_neg htold]
        constructor
        · intro h
          cases h
        · rintro ⟨last', hlast, rfl, hgap, -⟩
          obtain rfl := Option.some.inj hlast
          exact absurd hgap htold
    · rw [if_neg (by rwa [decide_eq_true_eq]), Option.bind_none]
      constructor
      · intro h
        cases h
      · rintro ⟨last', hlast, rfl, hgap, hfit⟩
        obtain rfl := Option.some.inj hlast
        exact absurd ⟨by omega, hfit⟩ hfits

/-! ### What is on disk -/

/-- What is on disk or on its way there is what was there first, or the time of a tick. -/
structure Honest (file : Option Int) (moves : List Move) (s : EnforcedStamp) : Prop where
  file : s.file = file ∨ ∃ t, s.file = some t ∧ .tick t ∈ moves
  pending : ∀ t ∈ s.pending, .tick t ∈ moves

theorem Honest.step (h : Honest file moves s) (m : Move) : Honest file (moves ++ [m]) (s.step m) := by
  have hfile : s.file = file ∨ ∃ t, s.file = some t ∧ .tick t ∈ moves ++ [m] :=
    h.file.imp_right fun ⟨t, ht, hmem⟩ => ⟨t, ht, List.mem_append_left _ hmem⟩
  have hpending : ∀ t ∈ s.pending, .tick t ∈ moves ++ [m] :=
    fun t ht => List.mem_append_left _ (h.pending t ht)
  cases m with
  | tick now =>
    unfold EnforcedStamp.step
    dsimp only
    split
    · refine ⟨hfile, ?_⟩
      intro t ht
      rcases List.mem_append.mp ht with ht | ht
      · exact hpending t ht
      · rw [List.mem_singleton.mp ht]
        exact List.mem_concat_self
    · exact ⟨hfile, hpending⟩
  | land k written =>
    unfold EnforcedStamp.step
    dsimp only
    split
    · exact ⟨hfile, hpending⟩
    · rename_i stamped hat
      refine ⟨?_, fun t ht => hpending t ((List.eraseIdx_sublist _ _).subset ht)⟩
      cases written with
      | false => exact hfile
      | true => exact .inr ⟨stamped, rfl, hpending stamped (List.mem_of_getElem? hat)⟩
  | restart => exact ⟨hfile, fun t ht => by cases ht⟩

theorem honest_run (file : Option Int) (moves : List Move) :
    Honest file moves ((start file).run moves) := by
  unfold run
  induction moves using List.reverseRecOn with
  | nil => exact ⟨.inl rfl, fun t ht => by cases ht⟩
  | append_singleton moves m ih =>
    rw [List.foldl_append]
    exact ih.step m

/-! ### A session whose writes land in order -/

/-- Nothing was stamped before the first tick; and then the newest write, on disk or on its way, is
less than a minute older than the last tick, and no newer. -/
def Follows (s : EnforcedStamp) (last : Option Int) : Prop :=
  (last = none ∧ s.lastWritten = none ∧ s.pending = []) ∨
    ∃ w t, last = some t ∧ s.lastWritten = some w ∧ w ≤ t ∧ t < w + 60 ∧
      s.pending.getLast?.or s.file = some w

theorem lastTick_append_tick (moves : List Move) (now : Int) :
    lastTick (moves ++ [.tick now]) = some now := by
  unfold lastTick
  rw [List.filterMap_append]
  exact List.getLast?_concat

theorem lastTick_append_land (moves : List Move) (k : Nat) (written : Bool) :
    lastTick (moves ++ [.land k written]) = lastTick moves := by
  unfold lastTick
  rw [List.filterMap_append]
  exact congrArg List.getLast? (List.append_nil _)

theorem Follows.tick (h : Follows s (lastTick moves)) (now : Int) :
    Follows (s.step (.tick now)) (lastTick (moves ++ [.tick now])) := by
  rw [lastTick_append_tick]
  have hstamped : Follows ⟨s.file, some now, s.pending ++ [now]⟩ (some now) := by
    refine .inr ⟨now, now, rfl, rfl, le_rfl, by omega, ?_⟩
    show (s.pending ++ [now]).getLast?.or s.file = some now
    rw [List.getLast?_concat]
    rfl
  unfold step
  dsimp only
  split
  · exact hstamped
  · rename_i hdue
    rcases h with ⟨-, hnone, -⟩ | ⟨w, t, -, hwritten, -, -, hnewest⟩
    · rw [hnone] at hdue
      exact absurd rfl hdue
    · unfold due stampIntervalSecs at hdue
      rw [hwritten, Option.all_some, Bool.or_eq_true, not_or, decide_eq_true_eq,
        decide_eq_true_eq] at hdue
      exact .inr ⟨w, now, rfl, hwritten, by omega, by omega, hnewest⟩

theorem Follows.land (h : Follows s (lastTick moves)) :
    Follows (s.step (.land 0 true)) (lastTick (moves ++ [.land 0 true])) := by
  rw [lastTick_append_land]
  unfold step
  dsimp only
  split
  · exact h
  · rename_i stamped hat
    rcases h with ⟨-, -, hnil⟩ | ⟨w, t, hlast, hwritten, hle, hlt, hnewest⟩
    · rw [hnil] at hat
      cases hat
    · refine .inr ⟨w, t, hlast, hwritten, hle, hlt, ?_⟩
      obtain ⟨rest, hpending⟩ : ∃ rest, s.pending = stamped :: rest := by
        cases hp : s.pending with
        | nil =>
          rw [hp] at hat
          cases hat
        | cons p rest =>
          rw [hp] at hat
          obtain rfl := Option.some.inj hat
          exact ⟨rest, rfl⟩
      rw [hpending, List.getLast?_cons] at hnewest
      rw [hpending]
      show rest.getLast?.or (some stamped) = some w
      cases hrest : rest.getLast? <;> rw [hrest] at hnewest <;> exact hnewest

/-- **Run.**  A session from a start on follows its last tick. -/
theorem follows_run (s : EnforcedStamp) (hprompt : ∀ m ∈ moves, m.Prompt) :
    Follows (s.run (.restart :: moves)) (lastTick moves) := by
  unfold run
  rw [List.foldl_cons]
  induction moves using List.reverseRecOn with
  | nil => exact .inl ⟨rfl, rfl, rfl⟩
  | append_singleton moves m ih =>
    have hbefore := ih fun m hm => hprompt m (List.mem_append_left _ hm)
    have hlast := hprompt m List.mem_concat_self
    rw [List.foldl_append]
    cases m with
    | tick now => exact hbefore.tick now
    | land k written =>
      obtain ⟨rfl, rfl⟩ := hlast
      exact hbefore.land
    | restart => exact absurd hlast id

/-- **What a start tells of an absence.**  In every run, with writes that fail, are late or are lost, a
gap that is told is over five minutes and begins at a tick, or at what was first on disk.  After a
session whose writes landed in order an absence of over five minutes is told, with less than a minute
too much, and one of up to four minutes is not, however the clock was set during the session. -/
theorem gap_of_absence (file : Option Int) (before session : List Move) (now : Int) :
    (∀ gap, gapSecs ((start file).run before).file now = some gap →
      300 < gap ∧ (file = some (now - gap) ∨ .tick (now - gap) ∈ before)) ∧
    ((∀ m ∈ session, m.Prompt) → ∀ t, lastTick session = some t →
      (((start file).run before).run (.restart :: session)).pending = [] → now - t + 60 < 2 ^ 63 →
      (300 < now - t →
        (gapSecs (((start file).run before).run (.restart :: session)).file now).isSome = true) ∧
      (now - t ≤ 240 →
        gapSecs (((start file).run before).run (.restart :: session)).file now = none) ∧
      ∀ gap, gapSecs (((start file).run before).run (.restart :: session)).file now = some gap →
        now - t ≤ gap ∧ gap < now - t + 60) := by
  constructor
  · intro gap hgap
    obtain ⟨last, hfile, rfl, hover, -⟩ := gapSecs_eq_some.mp hgap
    have hlast : now - (now - last) = last := by omega
    refine ⟨hover, ?_⟩
    rw [hlast]
    rcases (honest_run file before).file with hfirst | ⟨t, ht, hmem⟩
    · exact .inl (hfirst ▸ hfile)
    · obtain rfl := Option.some.inj (ht.symm.trans hfile)
      exact .inr hmem
  · intro hprompt t hlast hpending hfits
    rcases follows_run ((start file).run before) hprompt with
      ⟨hnone, -⟩ | ⟨w, t', htick, -, hle, hlt, hnewest⟩
    · cases hnone.symm.trans hlast
    · obtain rfl := Option.some.inj (htick.symm.trans hlast)
      rw [hpending] at hnewest
      have hfile : (((start file).run before).run (.restart :: session)).file = some w := hnewest
      rw [hfile]
      refine ⟨?_, ?_, ?_⟩
      · intro hover
        rw [gapSecs_eq_some.mpr ⟨w, rfl, rfl, by omega, by omega⟩]
        rfl
      · intro hshort
        by_contra htold
        obtain ⟨gap, hgap⟩ := Option.ne_none_iff_exists'.mp htold
        obtain ⟨last, hw, rfl, hover, -⟩ := gapSecs_eq_some.mp hgap
        obtain rfl := Option.some.inj hw
        omega
      · intro gap hgap
        obtain ⟨last, hw, rfl, -⟩ := gapSecs_eq_some.mp hgap
        obtain rfl := Option.some.inj hw
        omega

end

theorem gap_of_absence_told : (gapSecs (((start none).run []).run
    [.restart, .tick 1000, .land 0 true, .tick 1030]).file 5000).isSome = true :=
  ((gap_of_absence none [] [.tick 1000, .land 0 true, .tick 1030] 5000).2 (by simp [Move.Prompt]) 1030
    rfl rfl (by decide)).1 (by decide)

/-- **A late write hides an absence.**  The clock was set back and stamped at once, and the write of
the time before landed after it: the loop last ran 400 seconds ago, and nothing is told. -/
theorem late_write_hides : lastTick [.tick 1000, .tick 500, .land 1 true, .land 0 true] = some 500 ∧
    gapSecs ((start none).run [.tick 1000, .tick 500, .land 1 true, .land 0 true]).file 900 = none := by
  decide

end EnforcedStamp
end Kintrinsic
