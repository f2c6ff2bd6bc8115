import Kintrinsic.ClauseFloor
import Kintrinsic.RequestLife
import Kintrinsic.SingleUse

/-! # What a release clears

A release clears the slots of the link's own subject.  Deliveries also store under other subjects
and, for web content, machine-wide; those slots stay.  Once it has applied, no handler of the
same process writes to any slot. -/
namespace Kintrinsic
namespace Device

open GuardedRun EffectRun

variable {f : Facade} {s : Device}

/-! ## After a release -/

theorem clauses_of_submitCase {ids : ReqId × Nonce} {out : Device × List BrokerOutput}
    (hcases : SubmitCase s ids out) :
    out.1.disk.clauses = s.disk.clauses ∧ out.1.broker.released = s.broker.released := by
  cases hcases with
  | refused m callerUid e => exact ⟨rfl, rfl⟩
  | filed m r outs => exact ⟨rfl, rfl⟩

/-- **No handler writes after a release**, and the flag stays. -/
theorem step_released (hreleased : s.broker.released = true) {a : BrokerAction}
    (ha : isRestart a = false) :
    (step f s a).1.disk.clauses = s.disk.clauses ∧ (step f s a).1.broker.released = true := by
  have hframe : ∀ {t : Device}, Frame s t →
      t.disk.clauses = s.disk.clauses ∧ t.broker.released = true :=
    fun h => ⟨h.clauses, h.released.trans hreleased⟩
  unfold step
  split
  · exact ⟨rfl, hreleased⟩
  cases a with
  | submit op params sourcePath callerUid ids now fault =>
    obtain ⟨hclauses, hstill⟩ := clauses_of_submitCase
      (s.submit_cases f op params sourcePath callerUid ids now fault)
    exact ⟨hclauses, hstill.trans hreleased⟩
  | grant event now => exact hframe (frame_grant s event now)
  | localGrant event swept now =>
    exact hframe ((frame_expire s swept).trans (frame_grant _ event now))
  | enactReturn result => exact hframe (frame_enactReturn s result)
  | cancel id => exact hframe (frame_cancel (s.cancel_cases id))
  | cancelAs uid id => exact hframe (frame_cancel (s.cancelAs_cases uid id))
  | sweep now => exact hframe (frame_expire s now)
  | clause event io =>
    have hstay : s.onClause f event io = (s, [.ingested ClauseDisposition.refused.ack]) :=
      if_pos hreleased
    rw [show s.act f (.clause event io) = s.onClause f event io from rfl, hstay]
    exact ⟨rfl, hreleased⟩
  | usageSync event io =>
    have hstay : s.onUsageSync f event io = (s, [.ingested .refused]) := if_pos hreleased
    rw [show s.act f (.usageSync event io) = s.onUsageSync f event io from rfl, hstay]
    exact ⟨rfl, hreleased⟩
  | release event now =>
    have hstay : s.onRelease f event now = (s, []) := if_pos hreleased
    rw [show s.act f (.release event now) = s.onRelease f event now from rfl, hstay]
    exact ⟨rfl, hreleased⟩
  | markReleased => exact ⟨rfl, rfl⟩
  | restart now => cases ha
  | consumedFault e => exact ⟨rfl, hreleased⟩

theorem run_released (hreleased : s.broker.released = true) {as : List BrokerAction}
    (has : ∀ a ∈ as, isRestart a = false) : (run (step f) s as).1.disk.clauses = s.disk.clauses := by
  induction as generalizing s with
  | nil => rfl
  | cons a as ih =>
    obtain ⟨hclauses, hstill⟩ := step_released (f := f) hreleased (has a List.mem_cons_self)
    have hrest := ih hstill fun b hb => has b (List.mem_cons_of_mem _ hb)
    exact hrest.trans hclauses

/-! ## The release itself -/

/-- A release that applies clears the link's own subject and sets the flag. -/
theorem release_applied {event : NostrEvent} {now issuedAt at_ : Nat}
    (h : .releaseApplied issuedAt at_ ∈ (step f s (.release event now)).2) :
    (step f s (.release event now)).1.disk.clauses = s.disk.clauses.clearFor f.link.subject ∧
      (step f s (.release event now)).1.broker.released = true := by
  unfold step at h ⊢
  split at h
  · cases h
  rename_i hturn
  rw [if_neg hturn]
  change .releaseApplied issuedAt at_ ∈ (s.onRelease f event now).2 at h
  show (s.onRelease f event now).1.disk.clauses = _ ∧ (s.onRelease f event now).1.broker.released = _
  unfold onRelease at h ⊢
  split at h
  · cases h
  rename_i hreleased
  rw [if_neg hreleased]
  split at h
  · cases h
  split at h
  · cases h
  split at h
  · cases h
  · rename_i hok _ payload hdec hafter
    exact ⟨by rw [if_neg hafter], by rw [if_neg hafter]⟩

/-- **What a release leaves.**  After a run from empty stores and a release that applies, whatever
else the same process handles, every slot is empty exactly when only slots of the link's own
subject had been written; and nothing is written any more. -/
theorem release_clears_iff (pairing : Option (Option Nat)) (as cs : List BrokerAction)
    (event : NostrEvent) (now issuedAt at_ : Nat)
    (happlied : .releaseApplied issuedAt at_ ∈
      (step f (run (step f) (initial pairing) as).1 (.release event now)).2)
    (hprocess : ∀ a ∈ cs, isRestart a = false) :
    let s := (run (step f) (initial pairing) as).1
    let t := (step f s (.release event now)).1
    ((∀ slot key, (run (step f) t cs).1.disk.clauses slot key = .empty) ↔
      ∀ slot key, slot ≠ .child f.link.subject → s.disk.clauses slot key = .empty) ∧
    ∀ bs ds, cs = bs ++ ds → (run (step f) t bs).1.disk.clauses = t.disk.clauses := by
  intro s t
  obtain ⟨hclear, hreleased⟩ := release_applied happlied
  have hstill : ∀ bs ds, cs = bs ++ ds →
      (run (step f) t bs).1.disk.clauses = t.disk.clauses := by
    rintro bs ds rfl
    exact run_released hreleased fun a ha => hprocess a (List.mem_append_left _ ha)
  refine ⟨?_, hstill⟩
  rw [hstill cs [] (List.append_nil cs).symm, hclear]
  constructor
  · intro h slot key hslot
    have hempty := h slot key
    unfold ClauseFiles.clearFor at hempty
    rwa [if_neg hslot] at hempty
  · intro h slot key
    unfold ClauseFiles.clearFor
    split
    · rfl
    · exact h slot key ‹_›

/-! ## The slots it leaves -/

/-- The text of a web content clause. -/
def contentText : String :=
  "\x7b\"v\":1,\"kind\":\"content\",\"issuedAt\":20,\"body\":\x7b\"block\":[]\x7d\x7d"

/-- The text of a schedule clause for the child 12. -/
def siblingText : String :=
  "\x7b\"v\":1,\"kind\":\"schedule\",\"subject\":\"0c\",\"issuedAt\":30,\"body\":\x7b\x7d\x7d"

/-- The text of a release of machine 9. -/
def releaseText : String := "\x7b\"v\":1,\"machine\":\"09\",\"issuedAt\":1000\x7d"

/-- Genuine deliveries of guardian 7 to machine 9, whose child is 8. -/
def releaseFacade : Facade where
  crypto := genuineCrypto
  grants := Desk.deskCodec
  standing := { scheduleCodec with
    clause := fun s =>
      if s = contentText then .ok ⟨1, .content, none, 20, "\x7b\"block\":[]\x7d"⟩
      else if s = siblingText then .ok ⟨1, .schedule, some ⟨12⟩, 30, "\x7b\x7d"⟩
      else scheduleCodec.clause s
    release := fun s => if s = releaseText then .ok ⟨1, ⟨9⟩, 1000⟩ else .error "missing field" }
  link := deviceLink

def clauseEvent (text : String) : NostrEvent :=
  ⟨⟨1⟩, ⟨7⟩, 900, Kinds.charterDeviceClause, [], text, ⟨0⟩⟩

def releaseEvent : NostrEvent :=
  ⟨⟨2⟩, ⟨7⟩, 1000, Kinds.charterDeviceRelease, [], releaseText, ⟨0⟩⟩

/-- A schedule of the child's own goes, and a clause that comes later is refused. -/
theorem release_clears_own :
    let s := (run (step releaseFacade) (initial (some (some 500)))
      [.clause (clauseEvent (scheduleText "5")) .ok]).1
    let t := (step releaseFacade s (.release releaseEvent 1000)).1
    ((∀ slot key, (run (step releaseFacade) t
        [.clause (clauseEvent contentText) .ok]).1.disk.clauses slot key = .empty) ↔
      ∀ slot key, slot ≠ .child ⟨8⟩ → s.disk.clauses slot key = .empty) ∧
    ∀ bs ds, [BrokerAction.clause (clauseEvent contentText) .ok] = bs ++ ds →
      (run (step releaseFacade) t bs).1.disk.clauses = t.disk.clauses :=
  release_clears_iff (f := releaseFacade) _ _ _ releaseEvent 1000 1000 1000 (by decide +kernel)
    (by decide)

/-- **What the release leaves behind**: web content, which is stored machine-wide, and the
schedule of another child. -/
theorem release_leaves_slots :
    let s := (run (step releaseFacade) (initial (some (some 500)))
      [.clause (clauseEvent contentText) .ok, .clause (clauseEvent siblingText) .ok]).1
    let out := step releaseFacade s (.release releaseEvent 1000)
    out.2 = [.releaseApplied 1000 1000] ∧
      out.1.disk.clauses .machine 3 =
        ⟨.ok (some ⟨20, "\x7b\"block\":[]\x7d"⟩), .ok (some 20)⟩ ∧
      out.1.disk.clauses (.child ⟨12⟩) 1 = ⟨.ok (some ⟨30, "\x7b\x7d"⟩), .ok (some 30)⟩ := by
  decide +kernel

end Device
end Kintrinsic
