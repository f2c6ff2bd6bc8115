import Kintrinsic.SplitPolicy

/-! # What the guardian shows of an app, and what the device does with it

The guardian drops holds by the instant it looks, the device by the instant its clause was issued.
The two come to the same for holds that are honoured when the clause is issued, on a policy that is
on, and for an app whose place in the lists the wire keeps. -/
namespace Kintrinsic

/-! ## The wire -/

namespace AppsPolicy
variable {apps : AppsPolicy} {pkg : String} {issuedAt now later : Int}

/-- The list that the posture reads. -/
def list (apps : AppsPolicy) : List String :=
  match apps.posture with
  | .allowlist => apps.allowed
  | .blocklist => apps.blocked

/-- The same list as it is sent: trimmed, and under an allowlist without what is asked for first. -/
def wireList (apps : AppsPolicy) : List String :=
  match apps.posture with
  | .allowlist => (trimTexts apps.allowed).filter (· ∉ trimTexts (apps.askFirst.getD []))
  | .blocklist => trimTexts apps.blocked

theorem standingState_eq (apps : AppsPolicy) (pkg : String) :
    apps.standingState pkg = .ofListed apps.posture (decide (pkg ∈ apps.list)) := by
  unfold standingState list HoldState.ofListed
  cases apps.posture with
  | allowlist => by_cases hmem : pkg ∈ apps.allowed <;> simp [hmem]
  | blocklist => by_cases hmem : pkg ∈ apps.blocked <;> simp [hmem]

/-- A policy that is on, on the wire. -/
theorem appsToGrant_on (hon : apps.enabled = true) :
    (appsToGrant apps issuedAt).isPaused = false ∧
      (appsToGrant apps issuedAt).posture = apps.posture ∧
      (appsToGrant apps issuedAt).list = apps.wireList ∧
      (appsToGrant apps issuedAt).holds = (pruneHolds apps.holds issuedAt).map HoldSel.toGrant ∧
      (appsToGrant apps issuedAt).issuedAt = UInt64.ofNat issuedAt.toNat := by
  unfold appsToGrant
  rw [hon, Bool.not_true, if_neg Bool.false_ne_true]
  dsimp only
  refine ⟨rfl, rfl, ?_, rfl, rfl⟩
  unfold GrantApps.list wireList
  dsimp only
  cases apps.posture with
  | allowlist => rfl
  | blocklist => rfl

/-- What is shown of an app is its last hold that is kept, or the lists' word. -/
theorem effectiveState_eq (apps : AppsPolicy) (pkg : String) (now : Int) :
    apps.effectiveState pkg now = LastWrite.read HoldSel.pkg HoldSel.state
      (pruneHolds apps.holds now) pkg (apps.standingState pkg) := rfl

theorem read_toGrant (holds : List HoldSel) (pkg : String) (before : HoldState) :
    LastWrite.read AppHold.pkg AppHold.state (holds.map HoldSel.toGrant) pkg before =
      LastWrite.read HoldSel.pkg HoldSel.state holds pkg before := by
  unfold LastWrite.read
  rw [List.filter_map]
  show (((holds.filter (·.pkg = pkg)).map HoldSel.toGrant).getLast?.map AppHold.state).getD before = _
  rw [List.getLast?_map, Option.map_map]
  rfl

theorem toNat_ofNat_of_lt {n : Int} (h : n < 2 ^ 64) : (UInt64.ofNat n.toNat).toNat = n.toNat := by
  rw [UInt64.toNat_ofNat']
  exact Nat.mod_eq_of_lt (by omega)

end AppsPolicy

/-! ## What is kept of the holds -/

section
variable {holds : Option (List HoldSel)} {now later : Int}

theorem of_mem_pruneHolds {hold : HoldSel} (h : hold ∈ pruneHolds holds now) :
    jsTrim hold.pkg ≠ "" ∧ now < hold.untilUnix ∧ hold.untilUnix ≤ now + maxAppHoldSecs := by
  rw [pruneHolds_eq] at h
  obtain ⟨hmem, hwithin⟩ := List.mem_filter.mp (List.mem_of_mem_take h)
  obtain ⟨hblank, hpast⟩ := of_decide_eq_true (List.mem_filter.mp hmem).2
  exact ⟨hblank, hpast, of_decide_eq_true hwithin⟩

theorem unexpired_pruneHolds (holds : Option (List HoldSel)) (now : Int) :
    unexpired (some (pruneHolds holds now)) now = pruneHolds holds now := by
  refine List.filter_eq_self.mpr fun hold hmem => decide_eq_true ?_
  obtain ⟨hblank, hpast, -⟩ := of_mem_pruneHolds hmem
  exact ⟨hblank, hpast⟩

theorem length_pruneHolds_le (holds : Option (List HoldSel)) (now : Int) :
    (pruneHolds holds now).length ≤ maxAppHolds := by
  rw [pruneHolds_eq]
  exact List.length_take_le ..

/-- What is kept is honoured. -/
theorem honoured_pruneHolds (holds : Option (List HoldSel)) (now : Int) :
    Honoured (some (pruneHolds holds now)) now := by
  constructor
  · rw [unexpired_pruneHolds]
    exact fun hold hmem => (of_mem_pruneHolds hmem).2.2
  · rw [unexpired_pruneHolds]
    exact length_pruneHolds_le ..

/-- What is over is over, whichever list it is dropped from. -/
theorem unexpired_unexpired (hle : now ≤ later) :
    unexpired (some (unexpired holds now)) later = unexpired holds later := by
  rw [@unexpired_later holds now later hle]
  unfold unexpired
  rw [Option.getD_some, List.filter_filter, List.filter_filter]
  refine List.filter_congr fun hold _ => ?_
  rw [← Bool.decide_and, ← Bool.decide_and]
  refine decide_eq_decide.mpr ⟨fun h => ⟨h.1.2, h.2⟩, fun h => ⟨⟨h.2.1, h.1⟩, h.2⟩⟩

end

namespace AppsPolicy
variable {apps : AppsPolicy} {pkg other : String} {issuedAt now save later : Int}

/-- A policy whose holds were pruned at an instant. -/
def pruned (apps : AppsPolicy) (save : Int) : AppsPolicy :=
  { apps with holds := some (pruneHolds apps.holds save) }

/-- Honoured holds show what they did, once they are pruned. -/
theorem shown_kept (hholds : Honoured apps.holds now) (hsave : now ≤ save) (hlater : save ≤ later) :
    (apps.pruned save).effectiveState other later = apps.effectiveState other later := by
  have hpruned : (apps.pruned save).holds = some (unexpired apps.holds save) := by
    rw [← hholds.pruneHolds_later hsave]
    rfl
  have hnext : Honoured (some (unexpired apps.holds save)) save := by
    rw [← hholds.pruneHolds_later hsave]
    exact honoured_pruneHolds ..
  rw [effectiveState_eq, effectiveState_eq, hpruned, hnext.pruneHolds_later hlater,
    unexpired_unexpired hlater, hholds.pruneHolds_later (hsave.trans hlater)]
  rfl

/-- At the instant they are pruned, any holds show what they did. -/
theorem shown_at_once (apps : AppsPolicy) (pkg : String) (now : Int) :
    (apps.pruned now).effectiveState pkg now = apps.effectiveState pkg now := by
  have hkept : pruneHolds (apps.pruned now).holds now = pruneHolds apps.holds now := by
    exact ((honoured_pruneHolds apps.holds now).pruneHolds_later le_rfl).trans
      (unexpired_pruneHolds ..)
  rw [effectiveState_eq, effectiveState_eq, hkept]
  rfl

/-- **The holds of a clause in force at an instant** are those it was issued with that the guardian
does not call over then. -/
theorem inForce_appsToGrant (hon : apps.enabled = true) (hissued : 0 ≤ issuedAt)
    (hle : issuedAt ≤ now) (hword : now + maxAppHoldSecs < 2 ^ 64) :
    (appsToGrant apps issuedAt).inForce (UInt64.ofNat now.toNat) =
      (unexpired (apps.pruned issuedAt).holds now).map HoldSel.toGrant := by
  obtain ⟨-, -, -, hsent, hstamp⟩ := @appsToGrant_on apps issuedAt hon
  have hday : (maxAppHoldSecs : Int) = 86400 := rfl
  have hnow : (UInt64.ofNat now.toNat).toNat = now.toNat := toNat_ofNat_of_lt (by omega)
  have hstampNat : (UInt64.ofNat issuedAt.toNat).toNat = issuedAt.toNat :=
    toNat_ofNat_of_lt (by omega)
  have hkept : (appsToGrant apps issuedAt).outstanding (UInt64.ofNat now.toNat) =
      (unexpired (apps.pruned issuedAt).holds now).map HoldSel.toGrant := by
    unfold GrantApps.outstanding
    rw [hsent, List.filter_map, hstamp]
    refine congrArg (List.map HoldSel.toGrant) (List.filter_congr fun hold hmem => ?_)
    obtain ⟨hblank, hpast, hwithin⟩ := of_mem_pruneHolds hmem
    have huntil : hold.toGrant.untilUnix.toNat = hold.untilUnix.toNat :=
      toNat_ofNat_of_lt (by omega)
    show decide (UInt64.ofNat now.toNat < hold.toGrant.untilUnix ∧
      hold.toGrant.untilUnix.toNat ≤ (UInt64.ofNat issuedAt.toNat).toNat + maxAppHoldSecs) = _
    refine decide_eq_decide.mpr ⟨fun h => ?_, fun h => ?_⟩
    · have hlt := UInt64.lt_iff_toNat_lt.mp h.1
      exact ⟨hblank, by omega⟩
    · have hlt : (UInt64.ofNat now.toNat).toNat < hold.toGrant.untilUnix.toNat := by omega
      exact ⟨UInt64.lt_iff_toNat_lt.mpr hlt, by omega⟩
  unfold GrantApps.inForce
  rw [hkept]
  refine List.take_of_length_le ?_
  rw [List.length_map]
  exact (List.length_filter_le _ _).trans (length_pruneHolds_le ..)

/-- **The device does what the guardian shows** of the holds that the clause was issued with. -/
theorem pruned_is_applied (hon : apps.enabled = true) (hissued : 0 ≤ issuedAt)
    (hle : issuedAt ≤ now) (hword : now + maxAppHoldSecs < 2 ^ 64)
    (hplace : pkg ∈ apps.wireList ↔ pkg ∈ apps.list) :
    (apps.pruned issuedAt).effectiveState pkg now =
      ((appsToGrant apps issuedAt).effectiveAt (UInt64.ofNat now.toNat)).stateOf pkg := by
  obtain ⟨hlive, hposture, hlist, -, -⟩ := @appsToGrant_on apps issuedAt hon
  have hstanding : (apps.pruned issuedAt).standingState pkg = apps.standingState pkg := rfl
  have hkept : pruneHolds (apps.pruned issuedAt).holds now =
      unexpired (apps.pruned issuedAt).holds now :=
    (honoured_pruneHolds apps.holds issuedAt).pruneHolds_later hle
  rw [stateOf_effectiveAt hlive, stateOf_eq_ofListed hlive, hposture, hlist,
    inForce_appsToGrant hon hissued hle hword, read_toGrant, effectiveState_eq, hkept, hstanding,
    standingState_eq, decide_eq_decide.mpr hplace]

end AppsPolicy

/-! ## A hold put on another app -/

section
variable {holds : Option (List HoldSel)} {rest tail : List HoldSel} {pkg other : String}
  {now later : Int}

theorem unexpired_some_append (rest tail : List HoldSel) (now : Int) :
    unexpired (some (rest ++ tail)) now = unexpired (some rest) now ++ unexpired (some tail) now :=
  List.filter_append ..

/-- Holds of other apps behind those that are honoured do not push one of these out. -/
theorem pruneHolds_append (h : Honoured (some rest) now) (hle : now ≤ later) :
    ∃ kept, pruneHolds (some (rest ++ tail)) later = unexpired (some rest) later ++ kept ∧
      kept.Sublist tail := by
  have hfew : (unexpired (some rest) later).length ≤ maxAppHolds := by
    rw [unexpired_later hle]
    exact (List.length_filter_le _ _).trans h.few
  have hwithin : (unexpired (some rest) later).filter (fun hold =>
      decide (hold.untilUnix ≤ later + maxAppHoldSecs)) = unexpired (some rest) later := by
    refine List.filter_eq_self.mpr fun hold hmem => decide_eq_true ?_
    rw [unexpired_later hle] at hmem
    have hbound := h.within hold (List.mem_of_mem_filter hmem)
    omega
  rw [pruneHolds_eq, unexpired_some_append, List.filter_append, hwithin, List.take_append,
    List.take_of_length_le hfew]
  refine ⟨_, rfl, (List.take_sublist _ _).trans (List.filter_sublist.trans ?_)⟩
  exact List.filter_sublist

theorem honoured_of_sublist (h : Honoured holds now) (hsub : rest.Sublist (unexpired holds now))
    (hle : now ≤ later) : Honoured (some rest) later := by
  have hunexpired : (unexpired (some rest) later).Sublist (unexpired holds now) :=
    List.filter_sublist.trans hsub
  constructor
  · intro hold hmem
    have hbound := h.within hold (hunexpired.subset hmem)
    omega
  · exact hunexpired.length_le.trans h.few

/-- Holds of other apps are not read. -/
theorem read_append (hrest : ∀ hold ∈ tail, hold.pkg ≠ other) (before : HoldState) :
    LastWrite.read HoldSel.pkg HoldSel.state (rest ++ tail) other before =
      LastWrite.read HoldSel.pkg HoldSel.state rest other before := by
  have hnone : tail.filter (·.pkg = other) = [] :=
    List.filter_eq_nil_iff.mpr fun hold hmem => by simpa using hrest hold hmem
  unfold LastWrite.read
  rw [List.filter_append, hnone, List.append_nil]

/-- What is left of the holds once those of one app are taken out reads alike for any other. -/
theorem read_without (hle : now ≤ later) (hne : other ≠ pkg) (before : HoldState) :
    LastWrite.read HoldSel.pkg HoldSel.state
        (unexpired (some ((unexpired holds now).filter (·.pkg ≠ pkg))) later) other before =
      LastWrite.read HoldSel.pkg HoldSel.state (unexpired holds later) other before := by
  unfold LastWrite.read
  rw [← unexpired_unexpired hle]
  unfold unexpired
  simp only [Option.getD_some, List.filter_filter]
  congr 3
  refine List.filter_congr fun hold _ => ?_
  by_cases hother : hold.pkg = other
  · have hpkg : hold.pkg ≠ pkg := fun h => hne (hother.symm.trans h)
    have hpast : later < hold.untilUnix → now < hold.untilUnix := fun h => by omega
    simp [hother, hne]
    tauto
  · simp [hother]

end

namespace AppsPolicy
variable {apps : AppsPolicy} {pkg other : String} {state : HoldState} {untilUnix now save later : Int}

/-- **Pruned, honoured holds show what they showed**, whatever else of other apps stands behind
them. -/
theorem shown_pruned {rest tail : List HoldSel} (hholds : apps.holds = some (rest ++ tail))
    (hrest : Honoured (some rest) now) (htail : ∀ hold ∈ tail, hold.pkg ≠ other)
    (hsave : now ≤ save) (hlater : save ≤ later) :
    (apps.pruned save).effectiveState other later = LastWrite.read HoldSel.pkg HoldSel.state
      (unexpired (some rest) later) other (apps.standingState other) := by
  obtain ⟨kept, hkept, hsub⟩ := @pruneHolds_append rest tail now save hrest hsave
  have hnext : Honoured (some (unexpired (some rest) save)) save := by
    refine honoured_of_sublist hrest ?_ hsave
    rw [unexpired_later hsave]
    exact List.filter_sublist
  obtain ⟨kept', hkept', hsub'⟩ := @pruneHolds_append _ kept save later hnext hlater
  have hpruned : (apps.pruned save).holds = some (unexpired (some rest) save ++ kept) := by
    rw [← hkept, ← hholds]
    rfl
  have hothers : ∀ hold ∈ kept', hold.pkg ≠ other :=
    fun hold hmem => htail hold (hsub.subset (hsub'.subset hmem))
  rw [effectiveState_eq, hpruned, hkept', unexpired_unexpired hlater, read_append hothers]
  rfl

/-- A hold put on one app leaves what is shown of every other, by the holds kept then. -/
theorem shown_putHold (hne : other ≠ pkg) (hsave : now ≤ save) (hlater : save ≤ later) :
    ((apps.putHold pkg now state (some untilUnix)).pruned save).effectiveState other later =
      (apps.pruned now).effectiveState other later := by
  have hkept : unexpired (apps.pruned now).holds now = pruneHolds apps.holds now :=
    unexpired_pruneHolds ..
  have hhonoured : Honoured (apps.pruned now).holds now := honoured_pruneHolds ..
  have hput : (apps.putHold pkg now state (some untilUnix)).holds =
      some ((unexpired (apps.pruned now).holds now).filter (·.pkg ≠ pkg) ++
        [⟨pkg, state, untilUnix⟩]) := by
    rw [hkept]
    rfl
  have hrest : Honoured (some ((unexpired (apps.pruned now).holds now).filter (·.pkg ≠ pkg))) now :=
    honoured_of_sublist hhonoured List.filter_sublist le_rfl
  have htail : ∀ hold ∈ [(⟨pkg, state, untilUnix⟩ : HoldSel)], hold.pkg ≠ other := by
    intro hold hmem
    rw [List.mem_singleton.mp hmem]
    exact fun h => hne h.symm
  rw [shown_pruned hput hrest htail hsave hlater, read_without (hsave.trans hlater) hne,
    effectiveState_eq, hhonoured.pruneHolds_later (hsave.trans hlater)]
  rfl

end AppsPolicy

namespace Policy
variable {Other : PolicyDimension → Type} {p : Policy Other} {apps : AppsPolicy}
  {pkg : String} {state : HoldState} {untilUnix now : Int}

/-- After a composed hold a device has the apps it had, or those with the hold on them. -/
theorem effective_saveHold (happs : p.base .apps = some apps) (asked : Option String)
    {deviceId : String} {mine : AppsPolicy} (hmine : p.effective deviceId .apps = some mine) :
    ∃ mine', (p.saveHold (composeDeviceHold apps p.deviceOverrides asked pkg state untilUnix
        now)).effective deviceId .apps = some mine' ∧
      (mine' = mine ∨ mine' = mine.putHold pkg now state (some untilUnix)) := by
  have hcontrol := p.effective_control deviceId .apps
  rcases hold_cases p asked with ⟨target, own, rfl, hid, hown⟩ | hnone
  · rw [composeDeviceHold_own happs hid hown]
    by_cases htarget : deviceId = target
    · subst htarget
      rw [hown] at hcontrol
      obtain rfl : own = mine := Option.some.inj (hcontrol.symm.trans hmine)
      exact ⟨_, (effective_setDeviceControl p .apps deviceId _).1, .inr rfl⟩
    · have hsame := effectivePolicy_setDeviceControl_of_ne (p := p) (c := .apps)
        (some (AppsPolicy.putHold own pkg now state (some untilUnix))) htarget
      refine ⟨mine, ?_, .inl rfl⟩
      rw [← hmine]
      unfold effective
      rw [hsame]
  · rw [composeDeviceHold_base asked hnone]
    have hown' : ∀ q : Policy Other, q.deviceOverrides = p.deviceOverrides →
        q.own deviceId .apps = p.own deviceId .apps := by
      intro q hq
      unfold own overrideOf
      rw [hq]
    have hself : ∀ q : Policy Other, q.deviceOverrides = p.deviceOverrides →
        q.effective deviceId .apps = (p.own deviceId .apps).or (q.base .apps) := by
      intro q hq
      rw [← hown' q hq]
      exact q.effective_control deviceId .apps
    cases howned : p.own deviceId .apps with
    | some own =>
      rw [howned] at hcontrol
      obtain rfl : own = mine := Option.some.inj (hcontrol.symm.trans hmine)
      refine ⟨own, ?_, .inl rfl⟩
      rw [hself, howned]
      · rfl
      · rfl
    | none =>
      rw [howned] at hcontrol
      have hbase : apps = mine := by
        have hread : p.base .apps = some mine := hcontrol.symm.trans hmine
        exact Option.some.inj (happs.symm.trans hread)
      subst hbase
      refine ⟨apps.putHold pkg now state (some untilUnix), ?_, .inr rfl⟩
      rw [hself, howned]
      · exact Function.update_self PolicyDimension.apps _ p.base
      · rfl

end Policy

/-! ## Holds on both sides -/

open AppsPolicy in
/-- **Holds mean the same on both sides**, where the policy is on and the wire keeps the app's place:
the device does what is shown of the holds kept when the clause was issued, and these are what is
shown of the policy at that instant, or at any later one if its holds are honoured.  A hold on one
app changes nothing that is shown of another, by the holds kept when it was put. -/
theorem holds_agree :
    (∀ (apps : AppsPolicy) (pkg : String) (issuedAt now : Int), apps.enabled = true →
      0 ≤ issuedAt → issuedAt ≤ now → now + maxAppHoldSecs < 2 ^ 64 →
      (pkg ∈ apps.wireList ↔ pkg ∈ apps.list) →
      (apps.pruned issuedAt).effectiveState pkg now =
          ((appsToGrant apps issuedAt).effectiveAt (UInt64.ofNat now.toNat)).stateOf pkg ∧
        (Honoured apps.holds issuedAt ∨ now = issuedAt →
          apps.effectiveState pkg now =
            ((appsToGrant apps issuedAt).effectiveAt (UInt64.ofNat now.toNat)).stateOf pkg)) ∧
    ∀ (Other : PolicyDimension → Type) (p : Policy Other) (apps mine : AppsPolicy)
      (asked : Option String) (deviceId pkg other : String) (state : HoldState)
      (untilUnix now save later : Int), p.base .apps = some apps →
      p.effective deviceId .apps = some mine → other ≠ pkg → now ≤ save → save ≤ later →
      ∃ mine', (p.saveHold (composeDeviceHold apps p.deviceOverrides asked pkg state untilUnix
          now)).effective deviceId .apps = some mine' ∧
        (mine' = mine ∨ (mine'.pruned save).effectiveState other later =
          (mine.pruned now).effectiveState other later) ∧
        (Honoured mine.holds now →
          (mine'.pruned save).effectiveState other later = mine.effectiveState other later) := by
  constructor
  · intro apps pkg issuedAt now hon hissued hle hword hplace
    have happlied := pruned_is_applied hon hissued hle hword hplace
    refine ⟨happlied, fun hshown => ?_⟩
    rw [← happlied]
    rcases hshown with hholds | rfl
    · exact (shown_kept hholds le_rfl hle).symm
    · exact (shown_at_once ..).symm
  · intro Other p apps mine asked deviceId pkg other state untilUnix now save later happs hmine
      hne hsave hlater
    obtain ⟨mine', hmine', hcases⟩ := Policy.effective_saveHold happs asked hmine
    refine ⟨mine', hmine', ?_⟩
    rcases hcases with rfl | rfl
    · exact ⟨.inl rfl, fun hholds => shown_kept hholds hsave hlater⟩
    · have hkept := @shown_putHold mine pkg other state untilUnix now save later hne hsave hlater
      refine ⟨.inr hkept, fun hholds => ?_⟩
      rw [hkept]
      exact shown_kept hholds le_rfl (hsave.trans hlater)

/-- A game that is blocked for good, and a chat that is closed until an instant. -/
def gameAndChat (chatUntil : Int) : AppsPolicy where
  enabled := true
  posture := .blocklist
  blocked := ["game"]
  allowed := []
  holds := some [⟨"chat", .blocked, chatUntil⟩]
  askFirst := none
  hidden := none

/-- A child's policy of apps alone. -/
def onlyApps (apps : AppsPolicy) : Policy fun _ => Unit where
  scope := .device
  base := Function.update (fun _ => none) .apps (some apps)
  deviceOverrides := none

theorem onlyApps_base (apps : AppsPolicy) : (onlyApps apps).base .apps = some apps := by
  exact Function.update_self PolicyDimension.apps (some apps : Option (DimensionValue (fun _ => Unit)
    .apps)) fun _ => none

theorem gameAndChat_honoured : Honoured (gameAndChat 1782738000).holds 1782734400 := by
  constructor
  · decide
  · decide

/-- An hour without the chat, and the game let in for half of it. -/
theorem holds_agree_hour :
    (gameAndChat 1782738000).effectiveState "chat" 1782734460 =
        ((appsToGrant (gameAndChat 1782738000) 1782734400).effectiveAt 1782734460).stateOf "chat" ∧
      ∃ mine', ((onlyApps (gameAndChat 1782738000)).saveHold (composeDeviceHold
          (gameAndChat 1782738000) none none "game" .allowed 1782736200 1782734400)).effective "d1"
            .apps = some mine' ∧
        (mine'.pruned 1782734400).effectiveState "chat" 1782734460 =
          (gameAndChat 1782738000).effectiveState "chat" 1782734460 := by
  constructor
  · exact (holds_agree.1 (gameAndChat 1782738000) "chat" 1782734400 1782734460 rfl (by decide)
      (by decide) (by decide) (by decide)).2 (.inl gameAndChat_honoured)
  · obtain ⟨mine', hmine', -, hshown⟩ := holds_agree.2 (fun _ => Unit)
      (onlyApps (gameAndChat 1782738000)) (gameAndChat 1782738000) (gameAndChat 1782738000) none
      "d1" "game" "chat" .allowed 1782736200 1782734400 1782734400 1782734460
      (onlyApps_base _) (onlyApps_base _) (by decide) (by decide) (by decide)
    exact ⟨mine', hmine', hshown gameAndChat_honoured⟩

/-- A game that is asked for first is blocked on the device though the guardian's list has it; and a
chat closed for more than a day is open again once a hold is put on the game. -/
theorem not_holds_agree :
    (¬∀ (apps : AppsPolicy) (pkg : String) (issuedAt now : Int), 0 ≤ issuedAt → issuedAt ≤ now →
      now + maxAppHoldSecs < 2 ^ 64 → apps.effectiveState pkg now =
        ((appsToGrant apps issuedAt).effectiveAt (UInt64.ofNat now.toNat)).stateOf pkg) ∧
    ¬∀ (apps : AppsPolicy) (pkg other : String) (state : HoldState)
      (untilUnix now save later : Int), other ≠ pkg → now ≤ save → save ≤ later →
      ((composeDeviceHold apps none none pkg state untilUnix now :
        ComposedHold fun _ => Unit).apps.pruned save).effectiveState other later =
          apps.effectiveState other later := by
  constructor
  · intro h
    have hgame := h ⟨true, .allowlist, [], ["game"], none, some ["game"], none⟩ "game" 1782734400
      1782734400 (by decide) (by decide) (by decide)
    exact absurd hgame (by decide)
  · intro h
    have hchat := h (gameAndChat 1782824400) "game" "chat" .allowed 1782736200 1782734400
      1782734400 1782741600 (by decide) (by decide) (by decide)
    exact absurd hchat (by decide)

end Kintrinsic
