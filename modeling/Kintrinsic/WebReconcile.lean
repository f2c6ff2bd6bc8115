import Kintrinsic.IntakeRecords
import Kintrinsic.NamedTimes

/-! # The web enforcer and the clause it reads

A content clause is stored by the broker, in the slot of its subject or in the machine-wide one.
The enforcer reads the machine-wide slot, evaluates what it holds, and writes the browser and the
resolver documents. -/
namespace Kintrinsic

open EffectRun GuardedRun

/-! ## The enforcer -/

/-- One of the two documents on disk. -/
inductive WebDocument
  | absent
  | foreign
  | ours (policy : EffectiveWebPolicy)
deriving DecidableEq

def WebDocument.isOurs : WebDocument → Bool
  | ours _ => true
  | _ => false

/-- What the enforcer remembers and what it finds on disk. -/
structure WebContentEnforcer where
  lastApplied : Option EffectiveWebPolicy
  retracted : Bool
  marker : Bool
  policies : WebDocument
  plan : WebDocument
deriving DecidableEq

/-- Which of the writes of one reconcile succeed. -/
structure WebPorts where
  writePolicies : Bool
  applyPlan : Bool
  clearPolicies : Bool
  clearPlan : Bool
  writeMarker : Bool
  removeMarker : Bool

inductive WebReconcile
  | absent
  | retracted
  | unavailable
  | unchanged
  | enacted (locked : Bool)
  | failed
deriving DecidableEq

namespace WebContentEnforcer
variable (web : WebContentEnforcer) (ports : WebPorts)

/-- `materialize`: both documents, then the durable marker. -/
def materialize (policy : EffectiveWebPolicy) : WebReconcile × WebContentEnforcer :=
  if !ports.writePolicies then (.failed, web)
  else
    let web := { web with policies := .ours policy }
    if !ports.applyPlan then (.failed, web)
    else
      (.enacted policy.locked,
        { web with
          plan := .ours policy
          lastApplied := some policy
          retracted := false
          marker := web.marker || ports.writeMarker })

/-- `retract`: take off, once, the documents that are still ours. -/
def retract : WebReconcile × WebContentEnforcer :=
  if web.retracted then (.absent, web)
  else
    let live := web.lastApplied.isSome || web.marker
    if !live && !(web.policies.isOurs || web.plan.isOurs) then (.absent, web)
    else
      let web := if live then web else { web with marker := ports.writeMarker }
      if web.policies.isOurs && !ports.clearPolicies then (.failed, web)
      else
        let hadPlan := web.plan.isOurs
        let web := if web.policies.isOurs then { web with policies := .absent } else web
        if hadPlan && !ports.clearPlan then (.failed, web)
        else
          let web := if hadPlan then { web with plan := .absent } else web
          (.retracted,
            { web with
              marker := web.marker && !ports.removeMarker
              lastApplied := none
              retracted := true })

end WebContentEnforcer

/-! ## What a reconcile decides -/

/-- What a reconcile is to do. -/
inductive WebDirective
  | policy (p : EffectiveWebPolicy)
  | retract
  | unavailable
deriving DecidableEq

/-- The decision of `reconcile_with` about what it read; `parse` reads a content body. -/
def webDirective (parse : String → Option GrantContent) (lists : List CuratorList)
    (time : Option NamedTime) (stored : Except SysError (Option String)) : WebDirective :=
  match time.filter fun t =>
      decide (t.posture = .everythingExcept) && (!t.denySites.isEmpty || !t.undenySites.isEmpty) with
  | some t =>
    match stored with
    | .error _ => .unavailable
    | .ok none =>
      match composeContent none t with
      | some composed => .policy (evaluateContent composed lists)
      | none => .retract
    | .ok (some json) =>
      match parse json with
      | none => .policy .lockedPolicy
      | some free =>
        if free.isSupportedVersion then
          match composeContent (some free) t with
          | some composed => .policy (evaluateContent composed lists)
          | none => .retract
        else .policy .lockedPolicy
  | none =>
    match stored with
    | .error _ => .unavailable
    | .ok none => .retract
    | .ok (some json) =>
      match parse json with
      | none => .policy .lockedPolicy
      | some clause => .policy (evaluateContent clause lists)

/-- The text a reconcile reads. -/
def ClauseFiles.contentRead (files : ClauseFiles) : Except SysError (Option String) :=
  files.get .machine ClauseKind.content.storeKey

/-- `reconcile_with`. -/
def WebContentEnforcer.reconcileWith (web : WebContentEnforcer)
    (parse : String → Option GrantContent) (lists : List CuratorList) (ports : WebPorts)
    (time : Option NamedTime) (files : ClauseFiles) : WebReconcile × WebContentEnforcer :=
  match webDirective parse lists time files.contentRead with
  | .policy p => if web.lastApplied = some p then (.unchanged, web) else web.materialize ports p
  | .retract => web.retract ports
  | .unavailable => (.unavailable, web)

/-! ## Runs -/

/-- The stores and the enforcer of one device. -/
structure WebBox where
  files : ClauseFiles
  web : WebContentEnforcer

inductive WebAction
  | deliver (event : NostrEvent) (io : IntakeIo)
  | reconcile (lists : List CuratorList) (ports : WebPorts) (time : Option NamedTime)

/-- What is seen: a content clause acknowledged as stored, with its body, and what a reconcile
decides. -/
inductive WebEffect
  | stored (body : String)
  | reconciled (lists : List CuratorList) (time : Option NamedTime) (directive : WebDirective)
deriving DecidableEq

variable (crypto : Crypto) (codec : StandingCodec) (link : Link)
  (parse : String → Option GrantContent)

namespace WebBox

/-- The content body a delivery was acknowledged for. -/
def acknowledged (files : ClauseFiles) (io : IntakeIo) (event : NostrEvent) : Option String :=
  match ClausePayload.fromJson codec event.content with
  | .error _ => none
  | .ok payload =>
    if payload.kind = .content ∧ (clauseDisposition crypto codec link io files event).1 = .stored then
      some payload.body
    else none

def step (box : WebBox) : WebAction → WebBox × List WebEffect
  | .deliver event io =>
    ({ box with files := (clauseDisposition crypto codec link io box.files event).2 },
      (acknowledged crypto codec link box.files io event).toList.map .stored)
  | .reconcile lists ports time =>
    ({ box with web := (box.web.reconcileWith parse lists ports time box.files).2 },
      [.reconciled lists time (webDirective parse lists time box.files.contentRead)])

/-- The last content clause acknowledged as stored. -/
def lastStored (last : Option String) : WebEffect → Option String
  | .stored body => some body
  | .reconciled _ _ _ => last

/-- A reconcile evaluates the last content clause that was stored. -/
def Evaluates (last : Option String) : WebEffect → Prop
  | .stored _ => True
  | .reconciled lists time directive =>
    ∀ body, last = some body → directive = webDirective parse lists time (.ok (some body))

/-- No content clause that is let in names a subject, unless the machine-wide slot holds its very
body already. -/
def Subjectless (box : WebBox) : WebAction → Prop
  | .deliver event _ => ∀ payload floor vc,
      ClausePayload.fromJson codec event.content = .ok payload → payload.kind = .content →
      ((box.files (payload.slot link) payload.kind.storeKey).replayFloor none).1 = .ok floor →
      verifyClause crypto codec event link.guardian payload.kind
        (floor.bind ReplayFloor.verifyBound) = .ok vc →
      payload.subject = none ∨ box.files.contentRead = .ok (some vc.body)
  | .reconcile _ _ _ => True

variable {crypto codec link}

/-- What is read follows what was stored last. -/
theorem deliver_follows {box : WebBox} {event : NostrEvent} {io : IntakeIo} {last : Option String}
    (hlast : ∀ body, last = some body → box.files.contentRead = .ok (some body))
    (h : box.Subjectless crypto codec link (.deliver event io)) :
    ∀ body, (acknowledged crypto codec link box.files io event).or last = some body →
      (clauseDisposition crypto codec link io box.files event).2.contentRead = .ok (some body) := by
  intro body hbody
  cases clauseDisposition_case crypto codec link io box.files event with
  | kept hnot hrecords =>
    have hnone : acknowledged crypto codec link box.files io event = none := by
      unfold acknowledged
      split
      · rfl
      · exact if_neg fun hstored => hnot hstored.2
    rw [hnone, Option.none_or] at hbody
    have hread := hlast body hbody
    unfold ClauseFiles.contentRead ClauseFiles.get SlotFiles.get at hread ⊢
    rw [hrecords]
    exact hread
  | stored payload vc floor hstored hpayload hfloor hverified hrecord hrecords =>
    obtain ⟨payload', hpayload', rfl, -, -, -⟩ := verifyClause_ok hverified
    obtain rfl : payload = payload' := Except.ok.inj (hpayload.symm.trans hpayload')
    unfold acknowledged at hbody
    rw [hpayload] at hbody
    dsimp only at hbody
    by_cases hkind : payload.kind = .content
    · rw [if_pos ⟨hkind, hstored⟩, Option.some_or] at hbody
      obtain rfl := Option.some.inj hbody
      have hread : box.files.contentRead = .ok (some payload.body) →
          payload.slot link ≠ .machine →
          (clauseDisposition crypto codec link io box.files event).2.contentRead =
            .ok (some payload.body) := by
        intro hheld hslot
        unfold ClauseFiles.contentRead ClauseFiles.get SlotFiles.get at hheld ⊢
        rw [hrecords _ _ fun hsame => hslot hsame.1.symm]
        exact hheld
      by_cases hslot : payload.slot link = .machine
      · unfold ClauseFiles.contentRead ClauseFiles.get SlotFiles.get
        rw [hslot, hkind] at hrecord
        rw [hrecord]
        rfl
      · refine hread ?_ hslot
        refine (h payload floor _ hpayload hkind (hfloor none) hverified).resolve_left ?_
        intro hnone
        apply hslot
        unfold ClausePayload.slot
        rw [hnone, hkind]
    · rw [if_neg fun hboth => hkind hboth.1, Option.none_or] at hbody
      have hread := hlast body hbody
      unfold ClauseFiles.contentRead ClauseFiles.get SlotFiles.get at hread ⊢
      rw [hrecords _ _ fun hsame => hkind (ClauseKind.storeKey_injective hsame.2.symm)]
      exact hread

theorem foldl_lastStored (last : Option String) (body : Option String) :
    (body.toList.map WebEffect.stored).foldl lastStored last = body.or last := by
  cases body <;> rfl

/-- **A stored content clause governs**, in every run whose content clauses name no subject: each
reconcile decides on the body of the last one that was acknowledged as stored, the slot it reads
holds that body at the end of the run, and where no content clause is stored it retracts. -/
theorem content_governs (box : WebBox) (as : List WebAction)
    (h : Obeys (fun b a => (step crypto codec link parse b a).1)
      (Subjectless crypto codec link) box as) :
    Obeys lastStored (Evaluates parse) none (effects (step crypto codec link parse) box as) ∧
      (∀ body, (effects (step crypto codec link parse) box as).foldl lastStored none = some body →
        (run (step crypto codec link parse) box as).1.files.contentRead = .ok (some body)) ∧
      ((∀ slot, ((run (step crypto codec link parse) box as).1.files slot
          ClauseKind.content.storeKey).record = .ok none) →
        ∀ lists, webDirective parse lists none
          (run (step crypto codec link parse) box as).1.files.contentRead = .retract) := by
  have hstep : ∀ (b : WebBox) (last : Option String) (a : WebAction),
      b.Subjectless crypto codec link a →
      (∀ body, last = some body → b.files.contentRead = .ok (some body)) →
      Obeys lastStored (Evaluates parse) last (step crypto codec link parse b a).2 ∧
        ∀ body, (step crypto codec link parse b a).2.foldl lastStored last = some body →
          (step crypto codec link parse b a).1.files.contentRead = .ok (some body) := by
    intro b last a ha hlast
    cases a with
    | deliver event io =>
      refine ⟨?_, ?_⟩
      · unfold step
        dsimp only
        cases acknowledged crypto codec link b.files io event with
        | none => trivial
        | some body => exact ⟨trivial, trivial⟩
      · unfold step
        dsimp only
        rw [foldl_lastStored]
        exact deliver_follows hlast ha
    | reconcile lists ports time =>
      refine ⟨⟨?_, trivial⟩, hlast⟩
      intro body hbody
      rw [hlast body hbody]
  have hstart : ∀ body, none = some body → box.files.contentRead = .ok (some body) :=
    fun _ hbody => by cases hbody
  refine ⟨effects_obey_of hstep hstart h, ?_, ?_⟩
  · exact effects_related_of (fun b last a ha hlast => (hstep b last a ha hlast).2) hstart h
  · intro hnone lists
    unfold ClauseFiles.contentRead ClauseFiles.get SlotFiles.get
    rw [hnone]
    rfl

/-! ## Two deliveries of one body -/

/-- A content clause as it arrives, with a subject or with none. -/
def contentText (subject : String) : String :=
  "\x7b\"v\":1,\"kind\":\"content\"" ++ subject ++ ",\"issuedAt\":10,\"body\":\x7b\x7d\x7d"

/-- The decoders, on the texts at hand. -/
def contentCodec : StandingCodec where
  clause s :=
    if s = contentText "" then .ok ⟨1, .content, none, 10, "\x7b\x7d"⟩
    else if s = contentText ",\"subject\":8" then .ok ⟨1, .content, some ⟨8⟩, 10, "\x7b\x7d"⟩
    else .error "missing field"
  usageSync _ := .error "missing field"
  release _ := .error "missing field"
  usageSyncJson _ := "\x7b\x7d"
  value s := some s

/-- The bodies at hand: a clause that denies one site. -/
def contentParse (s : String) : Option GrantContent :=
  if s = "\x7b\x7d" then some { syntheticContent .blocklist with parentDeny := ["example.org"] }
  else none

def contentEvent (subject : String) : NostrEvent :=
  ⟨⟨1⟩, ⟨7⟩, 1000, Kinds.charterDeviceClause, [], contentText subject, ⟨0⟩⟩

/-- Nothing stored, nothing written. -/
def freshBox : WebBox := ⟨.empty, ⟨none, false, false, .absent, .absent⟩⟩

def openPorts : WebPorts := ⟨true, true, true, true, true, true⟩

/-- Without a subject the clause is evaluated by the next reconcile. -/
theorem content_governs_subjectless :
    (WebBox.lastStored none (.stored "\x7b\x7d")).isSome = true ∧
      Obeys lastStored (Evaluates contentParse) none
        (effects (step genuineCrypto contentCodec deviceLink contentParse) freshBox
          [.deliver (contentEvent "") .ok, .reconcile [] openPorts none]) := by
  have hsubjectless : Obeys (fun b a => (step genuineCrypto contentCodec deviceLink contentParse b a).1)
      (Subjectless genuineCrypto contentCodec deviceLink) freshBox
      [.deliver (contentEvent "") .ok, .reconcile [] openPorts none] := by
    refine ⟨?_, trivial, trivial⟩
    intro payload floor vc hpayload _ _ _
    have hdecoded : ClausePayload.fromJson contentCodec (contentEvent "").content =
        .ok ⟨1, .content, none, 10, "\x7b\x7d"⟩ := by decide +kernel
    rw [hdecoded] at hpayload
    obtain rfl := Except.ok.inj hpayload
    exact Or.inl rfl
  exact ⟨rfl, (content_governs contentParse freshBox _ hsubjectless).1⟩

/-- **With a subject it is stored and never read**: the next reconcile retracts. -/
theorem not_content_governs_subject :
    ¬Obeys lastStored (Evaluates contentParse) none
      (effects (step genuineCrypto contentCodec deviceLink contentParse) freshBox
        [.deliver (contentEvent ",\"subject\":8") .ok, .reconcile [] openPorts none]) := by
  have hrun : effects (step genuineCrypto contentCodec deviceLink contentParse) freshBox
      [.deliver (contentEvent ",\"subject\":8") .ok, .reconcile [] openPorts none] =
        [.stored "\x7b\x7d", .reconciled [] none .retract] := by decide +kernel
  rw [hrun]
  rintro ⟨-, hevaluates, -⟩
  have hdirective := hevaluates "\x7b\x7d" rfl
  exact absurd hdirective (by decide +kernel)

end WebBox
end Kintrinsic
