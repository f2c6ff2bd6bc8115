import Kintrinsic.GuardedRun
import Kintrinsic.MultiChild

/-! # A ledger under a torn clause

A time clause that is there and cannot be used is replaced until it reads again.  The substitute
has no zone of its own, no week start and no time model, and the ledger is rolled and charged by
those of the budget in force.  Here two runs of the enforcer are compared, one in which slots are
torn and one in which they are not. -/
namespace Kintrinsic

/-! ## Readings -/

/-- A slot as it was found, against what it holds: the same, or illegible over a clause. -/
inductive Slot.Torn {α : Type} : Slot α → Slot α → Prop
  | same (s : Slot α) (h : s ≠ .illegible) : Torn s s
  | torn (clause : α) : Torn .illegible (.held clause)

/-- What a sync reads of one child, as it was found and as it stands. -/
structure ClauseReading where
  uid : UInt32
  found : ChildClauses
  intact : ChildClauses
  limits : Option DeviceLimits
  learning : Option GrantLearning

namespace ClauseReading
variable (codec : ClauseCodec) (r : ClauseReading)

/-- No more than the two time slots is torn. -/
structure Torn : Prop where
  schedule : (r.found.scheduleSlot codec).Torn (r.intact.scheduleSlot codec)
  budget : (r.found.budgetSlot codec).Torn (r.intact.budgetSlot codec)
  learningUnreadable : r.found.isUnreadable .learning = r.intact.isUnreadable .learning
  guardianLearning : r.found.guardianLearning codec = r.intact.guardianLearning codec

/-- The policy that a side of the reading resolves to. -/
def policy (side : ClauseReading → ChildClauses) : EffectivePolicy :=
  resolveEffective codec (side r) r.limits r.learning

/-- The entry that the sync is given. -/
def entry (side : ClauseReading → ChildClauses) : UInt32 × EffectivePolicy :=
  (r.uid, r.policy codec side)

end ClauseReading

/-- The zone that a clause or a substitute is given by `with_resolved_tz`. -/
def resolvedTz (fallback tz : String) : String := if tz = unresolvedTz then fallback else tz

/-- What a budget rolls and charges the usage ledger by. -/
def GrantBudget.usageKeys (b : GrantBudget) : String × WeekStart × TimeModel :=
  (b.tz, b.weekStart.getD .mon, b.model.getD .session)

/-- **The substitutes roll the ledger as the clauses do.**  A budget's has the zone of the budget,
and the budget begins its weeks on Mondays and charges for sessions; a schedule's has the zone of
the schedule, where there is no budget. -/
structure ClauseReading.StandsIn (codec : ClauseCodec) (ledgerTz : String) (r : ClauseReading) :
    Prop where
  budget : ∀ b, r.found.budgetSlot codec = .illegible → r.intact.budgetSlot codec = .held b →
    resolvedTz ledgerTz (r.found.siblingTz codec) = resolvedTz ledgerTz b.tz ∧
      b.weekStart.getD .mon = .mon ∧ b.model.getD .session = .session
  schedule : ∀ s, r.found.scheduleSlot codec = .illegible → r.intact.scheduleSlot codec = .held s →
    r.intact.budgetSlot codec = .absent →
    resolvedTz ledgerTz (r.found.siblingTz codec) = resolvedTz ledgerTz s.tz

/-! ## The policy of a torn reading -/

namespace ChildClauses
variable {codec : ClauseCodec} {cc : ChildClauses}

theorem slot_absent_iff {α : Type} {decode : String → Option α} {kind : ClauseKind} :
    cc.slot decode kind = .absent ↔
      cc.isUnreadable kind = false ∧ ∀ e ∈ cc.clauses, e.1 ≠ kind.storeKey := by
  have hbody : cc.lastBody kind = none ↔ ∀ e ∈ cc.clauses, e.1 ≠ kind.storeKey := by
    unfold lastBody
    rw [Option.map_eq_none_iff, List.getLast?_eq_none_iff, List.filter_eq_nil_iff]
    simp only [decide_eq_true_eq]
  unfold slot
  cases hunread : cc.isUnreadable kind with
  | true => simp
  | false =>
    rw [← hbody]
    cases cc.lastBody kind with
    | none => simp
    | some body =>
      dsimp only
      cases decode body <;> simp

variable (codec) in
/-- The guardian governs when some time slot is not empty. -/
theorem governs_iff : cc.guardianTimeGoverns = true ↔
    cc.scheduleSlot codec ≠ .absent ∨ cc.budgetSlot codec ≠ .absent := by
  constructor
  · intro h
    by_contra hnone
    rw [not_or, not_not, not_not] at hnone
    obtain ⟨hschedule, hbudget⟩ := hnone
    obtain ⟨hs, hsnone⟩ := slot_absent_iff.mp hschedule
    obtain ⟨hb, hbnone⟩ := slot_absent_iff.mp hbudget
    have hany : cc.clauses.any (fun e =>
        e.1 = ClauseKind.schedule.storeKey || e.1 = ClauseKind.budget.storeKey) = false := by
      rw [List.any_eq_false]
      intro e he
      simp [hsnone e he, hbnone e he]
    rw [guardianTimeGoverns, hany, hs, hb] at h
    cases h
  · rintro (h | h)
    · exact governs_of_slot (Or.inl rfl) h
    · exact governs_of_slot (Or.inr rfl) h

end ChildClauses

theorem Slot.Torn.absent_iff {α : Type} {s t : Slot α} (h : s.Torn t) :
    s = .absent ↔ t = .absent := by
  cases h with
  | same _ _ => exact Iff.rfl
  | torn clause => constructor <;> intro h <;> cases h

/-- Two policies that roll and charge a ledger alike. -/
structure EffectivePolicy.SameKeys (p p' : EffectivePolicy) : Prop where
  budget : p.budget.map GrantBudget.usageKeys = p'.budget.map GrantBudget.usageKeys
  zone : p.budget = none → policyTz p = policyTz p'
  learning : p.learning = p'.learning

theorem EffectivePolicy.SameKeys.refl (p : EffectivePolicy) : p.SameKeys p :=
  ⟨rfl, fun _ => rfl, rfl⟩

namespace ClauseReading
variable {codec : ClauseCodec} {r : ClauseReading} {ledgerTz : String}

theorem Torn.governs (h : r.Torn codec) :
    r.found.guardianTimeGoverns = r.intact.guardianTimeGoverns := by
  rw [Bool.eq_iff_iff, ChildClauses.governs_iff codec, ChildClauses.governs_iff codec,
    ne_eq, ne_eq, h.schedule.absent_iff,
    h.budget.absent_iff]

theorem Torn.resolveLearning (h : r.Torn codec) (deviceLearning : Option GrantLearning) :
    r.found.resolveLearning codec deviceLearning =
      r.intact.resolveLearning codec deviceLearning := by
  unfold ChildClauses.resolveLearning
  rw [h.learningUnreadable, h.guardianLearning, h.governs]

/-- The budgets of the two sides, once their zones are resolved. -/
theorem StandsIn.budgetKeys (h : r.StandsIn codec ledgerTz)
    (htorn : (r.found.budgetSlot codec).Torn (r.intact.budgetSlot codec)) :
    (((r.found.budgetSlot codec).inForce (failSafeBudget (r.found.siblingTz codec))).map
        fun b => if b.tz = unresolvedTz then { b with tz := ledgerTz } else b).map
        GrantBudget.usageKeys =
      (((r.intact.budgetSlot codec).inForce (failSafeBudget (r.intact.siblingTz codec))).map
        fun b => if b.tz = unresolvedTz then { b with tz := ledgerTz } else b).map
        GrantBudget.usageKeys := by
  have hkeys : ∀ b : GrantBudget, GrantBudget.usageKeys
      (if b.tz = unresolvedTz then { b with tz := ledgerTz } else b) =
        (resolvedTz ledgerTz b.tz, b.weekStart.getD .mon, b.model.getD .session) := by
    intro b
    unfold resolvedTz
    split <;> rfl
  generalize hfound : r.found.budgetSlot codec = found at htorn
  generalize hintact : r.intact.budgetSlot codec = intact at htorn
  cases htorn with
  | same found hlegible =>
    cases found with
    | absent => rfl
    | illegible => exact absurd rfl hlegible
    | held b => rfl
  | torn b =>
    obtain ⟨hzone, hweek, hmodel⟩ := h.budget b hfound hintact
    simp only [Slot.inForce, Option.map_some, hkeys]
    rw [← hzone, hweek, hmodel]
    rfl

/-- Nothing stands in where nothing is torn. -/
theorem standsIn_of_eq (h : r.found = r.intact) : r.StandsIn codec ledgerTz := by
  refine ⟨fun b hfound hheld => ?_, fun s hfound hheld => ?_⟩
  · rw [h, hheld] at hfound
    cases hfound
  · rw [h, hheld] at hfound
    cases hfound

/-- **A torn reading rolls and charges the ledger as the clauses do**, where its substitutes
stand in for them. -/
theorem Torn.sameKeys (h : r.Torn codec) (hstands : r.StandsIn codec ledgerTz) :
    (withResolvedTz (r.policy codec found) ledgerTz).SameKeys
      (withResolvedTz (r.policy codec intact) ledgerTz) := by
  have hlearning := h.resolveLearning r.learning
  unfold policy resolveEffective
  dsimp only
  rw [h.governs, hlearning]
  split
  · rw [ChildClauses.timeClauses_eq, ChildClauses.timeClauses_eq]
    refine ⟨hstands.budgetKeys h.budget, fun hnone => ?_, rfl⟩
    have habsent : r.found.budgetSlot codec = .absent := by
      cases hslot : r.found.budgetSlot codec with
      | absent => rfl
      | illegible => simp [withResolvedTz, hslot, Slot.inForce] at hnone
      | held b => simp [withResolvedTz, hslot, Slot.inForce] at hnone
    have habsent' := h.budget.absent_iff.mp habsent
    rw [habsent, habsent']
    have htorn := h.schedule
    generalize hfound : r.found.scheduleSlot codec = found at htorn
    generalize hintact : r.intact.scheduleSlot codec = intact at htorn
    cases htorn with
    | same found hlegible =>
      cases found with
      | absent => rfl
      | illegible => exact absurd rfl hlegible
      | held s => rfl
    | torn s =>
      have hzone := hstands.schedule s hfound hintact habsent'
      have htz : ∀ s : GrantSchedule, (if s.tz = unresolvedTz then { s with tz := ledgerTz }
          else s).tz = resolvedTz ledgerTz s.tz := by
        intro s
        unfold resolvedTz
        split <;> rfl
      simp only [policyTz, withResolvedTz, Slot.inForce, Option.map_some, htz]
      exact hzone
  · exact .refl _

end ClauseReading

/-! ## Two children with one ledger -/

namespace ChildEnforcer
variable (cal : Calendar)

/-- Two children with one usage ledger, that is rolled and charged alike. -/
structure Twin (c c' : ChildEnforcer) : Prop where
  usage : c.usage = c'.usage
  bucketsTz : c.bucketsTz = c'.bucketsTz
  bucketsWeekStart : c.bucketsWeekStart = c'.bucketsWeekStart
  budget : c.budget.map GrantBudget.usageKeys = c'.budget.map GrantBudget.usageKeys
  zone : c.budget = none → c.tz = c'.tz
  learning : c.learning = c'.learning

theorem Twin.refl (c : ChildEnforcer) : c.Twin c := ⟨rfl, rfl, rfl, rfl, fun _ => rfl, rfl⟩

variable {cal} {c c' : ChildEnforcer}

theorem Twin.extended (h : c.Twin c') (l l' : ExtensionLedger) :
    { c with extension := l }.Twin { c' with extension := l' } :=
  ⟨h.usage, h.bucketsTz, h.bucketsWeekStart, h.budget, h.zone, h.learning⟩

/-- Policies with one set of keys, over one ledger. -/
theorem Twin.relimit (husage : c.usage = c'.usage) (htz : c.bucketsTz = c'.bucketsTz)
    (hweek : c.bucketsWeekStart = c'.bucketsWeekStart) {p p' : EffectivePolicy}
    (hp : (withResolvedTz p c.usage.tz).SameKeys (withResolvedTz p' c'.usage.tz)) :
    (c.relimit p).Twin (c'.relimit p') :=
  ⟨husage, htz, hweek, hp.budget, hp.zone, hp.learning⟩

theorem Twin.usageKeys (h : c.Twin c') : c.usageKeys = c'.usageKeys := by
  have hbudget := h.budget
  have hzone := h.zone
  unfold ChildEnforcer.usageKeys
  rw [h.bucketsTz, h.bucketsWeekStart]
  cases hb : c.budget with
  | none =>
    cases hb' : c'.budget with
    | none => rw [hzone hb]
    | some b' => rw [hb, hb'] at hbudget; cases hbudget
  | some b =>
    cases hb' : c'.budget with
    | none => rw [hb, hb'] at hbudget; cases hbudget
    | some b' =>
      rw [hb, hb', Option.map_some, Option.map_some, Option.some.injEq] at hbudget
      exact congrArg (fun k : String × WeekStart × TimeModel => (k.1, k.2.1)) hbudget

theorem Twin.model (h : c.Twin c') : TimeModel.of c.budget = TimeModel.of c'.budget := by
  have hof : ∀ budget : Option GrantBudget, TimeModel.of budget =
      ((budget.map GrantBudget.usageKeys).map fun k => k.2.2).getD .session := by
    intro budget
    cases budget <;> rfl
  rw [hof, hof, h.budget]

theorem Twin.reconcile (h : c.Twin c') (clockTrusted : Bool) (now : Int) :
    (c.reconcile cal clockTrusted now).Twin (c'.reconcile cal clockTrusted now) := by
  refine ⟨?_, h.bucketsTz, h.bucketsWeekStart, h.budget, h.zone, h.learning⟩
  unfold ChildEnforcer.reconcile
  dsimp only
  rw [h.usageKeys, h.usage]

theorem Twin.credits (h : c.Twin c') (fg : Foreground) (t : TickClock) :
    c.credits cal fg t = c'.credits cal fg t := by
  unfold ChildEnforcer.credits ChildEnforcer.charge effectiveBucket learningHeadroom
  rw [h.model, h.learning, h.usage]

theorem Twin.spend (h : c.Twin c') (fg : Foreground) (t : TickClock) :
    (c.spend cal fg t).Twin (c'.spend cal fg t) := by
  refine ⟨?_, h.bucketsTz, h.bucketsWeekStart, h.budget, h.zone, h.learning⟩
  unfold ChildEnforcer.spend
  dsimp only
  rw [h.credits, h.usage]

/-- A tick rolls the two ledgers and charges them as one. -/
theorem Twin.tick (h : c.Twin c') (clockTrusted : Bool) (uid : UInt32) (fg : Option Foreground)
    (t : TickClock) :
    (c.tick cal clockTrusted uid fg t).1.Twin (c'.tick cal clockTrusted uid fg t).1 := by
  have hlast : ∀ {d d' : ChildEnforcer} (active : Bool), d.Twin d' →
      ((d.burn cal t).judge cal uid active t.now).1.Twin
        ((d'.burn cal t).judge cal uid active t.now).1 :=
    fun _ hd => ⟨hd.usage, hd.bucketsTz, hd.bucketsWeekStart, hd.budget, hd.zone, hd.learning⟩
  cases fg with
  | none => exact hlast false (h.reconcile clockTrusted t.now)
  | some fg => exact hlast true ((h.reconcile clockTrusted t.now).spend fg t)

variable (cal) in
/-- Whatever a sync gives a tracked child, its usage ledger stays. -/
theorem foldl_synced_usage (deviceTz : String) (now : Int)
    (snap : Option UsageLedger × Option ExtensionLedger) (entries : List (UInt32 × EffectivePolicy))
    (c : ChildEnforcer) :
    ∃ d : ChildEnforcer, d.usage = c.usage ∧
      entries.foldl (fun c e => some (synced cal deviceTz now snap e.2 c)) (some c) = some d := by
  induction entries generalizing c with
  | nil => exact ⟨c, rfl, rfl⟩
  | cons first entries ih => exact ih (c.relimit first.2)

/-- Two children with one usage ledger, whatever policies they are under. -/
structure SameLedger (c c' : ChildEnforcer) : Prop where
  usage : c.usage = c'.usage
  bucketsTz : c.bucketsTz = c'.bucketsTz
  bucketsWeekStart : c.bucketsWeekStart = c'.bucketsWeekStart

/-- A child before an entry of a sync, on both sides: tracked, with one usage ledger, or coming
back with the ledger that was saved; the zone is the ledger's. -/
def OneLedger (snap : Option UsageLedger × Option ExtensionLedger) (tz : String) :
    Option ChildEnforcer → Option ChildEnforcer → Prop
  | some c, some c' => c.SameLedger c' ∧ c.usage.tz = tz
  | none, none => ∃ l, snap.1 = some l ∧ l.tz = tz
  | _, _ => False

variable {snap : Option UsageLedger × Option ExtensionLedger} {tz : String}
  {o o' : Option ChildEnforcer}

variable (cal) in
/-- An entry sets a policy over the ledger that is there. -/
theorem OneLedger.synced (h : OneLedger snap tz o o') (deviceTz : String) (now : Int)
    (p p' : EffectivePolicy) :
    ∃ d d' : ChildEnforcer, d.SameLedger d' ∧ d.usage.tz = tz ∧
      ChildEnforcer.synced cal deviceTz now snap p o = d.relimit p ∧
      ChildEnforcer.synced cal deviceTz now snap p' o' = d'.relimit p' := by
  cases o with
  | some c =>
    cases o' with
    | none => exact h.elim
    | some c' => exact ⟨c, c', h.1, h.2, rfl, rfl⟩
  | none =>
    cases o' with
    | some c' => exact h.elim
    | none =>
      obtain ⟨l, hl, htz⟩ := h
      have husage : ∀ p, ((new cal deviceTz p now).restore snap).usage = l.restored := by
        intro p
        unfold ChildEnforcer.restore
        dsimp only
        rw [hl]
        rfl
      refine ⟨_, _, ⟨(husage p).trans (husage p').symm, rfl, rfl⟩, ?_, rfl, rfl⟩
      rw [husage p]
      exact htz

variable (cal) in
/-- The policies of the entries before do not show. -/
theorem OneLedger.foldl (h : OneLedger snap tz o o') (deviceTz : String) (now : Int)
    (codec : ClauseCodec) (rs : List ClauseReading) :
    OneLedger snap tz
      ((rs.map (·.entry codec ClauseReading.found)).foldl
        (fun c e => some (ChildEnforcer.synced cal deviceTz now snap e.2 c)) o)
      ((rs.map (·.entry codec ClauseReading.intact)).foldl
        (fun c e => some (ChildEnforcer.synced cal deviceTz now snap e.2 c)) o') := by
  induction rs generalizing o o' with
  | nil => exact h
  | cons r rs ih =>
    obtain ⟨d, d', hledger, htz, hd, hd'⟩ := h.synced cal deviceTz now
      (r.policy codec ClauseReading.found) (r.policy codec ClauseReading.intact)
    refine ih ?_
    show OneLedger snap tz (some _) (some _)
    rw [show (r.entry codec ClauseReading.found).2 = r.policy codec ClauseReading.found from rfl,
      show (r.entry codec ClauseReading.intact).2 = r.policy codec ClauseReading.intact from rfl,
      hd, hd']
    exact ⟨⟨hledger.usage, hledger.bucketsTz, hledger.bucketsWeekStart⟩, htz⟩

variable (cal) in
/-- **The last entry makes twins of them**, if it stands in for the clauses. -/
theorem OneLedger.sync (h : OneLedger snap tz o o') (deviceTz : String) (now : Int)
    {codec : ClauseCodec} (rs : List ClauseReading) {r : ClauseReading} (hr : r.Torn codec)
    (hstands : r.StandsIn codec tz) :
    ∃ d d' : ChildEnforcer, d.Twin d' ∧
      ((rs ++ [r]).map (·.entry codec ClauseReading.found)).foldl
        (fun c e => some (ChildEnforcer.synced cal deviceTz now snap e.2 c)) o = some d ∧
      ((rs ++ [r]).map (·.entry codec ClauseReading.intact)).foldl
        (fun c e => some (ChildEnforcer.synced cal deviceTz now snap e.2 c)) o' = some d' := by
  obtain ⟨d, d', hledger, htz, hd, hd'⟩ := (h.foldl cal deviceTz now codec rs).synced
    cal deviceTz now (r.policy codec ClauseReading.found)
    (r.policy codec ClauseReading.intact)
  have hkeys : (withResolvedTz (r.policy codec ClauseReading.found) d.usage.tz).SameKeys
      (withResolvedTz (r.policy codec ClauseReading.intact) d'.usage.tz) := by
    rw [← hledger.usage, htz]
    exact hr.sameKeys hstands
  refine ⟨_, _, .relimit hledger.usage hledger.bucketsTz hledger.bucketsWeekStart hkeys, ?_, ?_⟩
  · rw [List.map_append, List.foldl_append]
    exact congrArg some hd
  · rw [List.map_append, List.foldl_append]
    exact congrArg some hd'

/-- Twins, or nobody on either side. -/
abbrev Twinned : Option ChildEnforcer → Option ChildEnforcer → Prop := Option.Rel Twin

theorem Twinned.refl (o : Option ChildEnforcer) : Twinned o o := by
  cases o with
  | none => exact .none
  | some c => exact .some (.refl c)

theorem Twinned.map (h : Twinned o o') {f f' : ChildEnforcer → ChildEnforcer}
    (hf : ∀ c c' : ChildEnforcer, c.Twin c' → (f c).Twin (f' c')) :
    Twinned (o.map f) (o'.map f') := by
  cases h with
  | none => exact .none
  | some htwin => exact .some (hf _ _ htwin)

/-- A sync with one policy on both sides. -/
theorem Twinned.foldl (h : Twinned o o') (deviceTz : String) (now : Int)
    (entries : List (UInt32 × EffectivePolicy)) :
    Twinned
      (entries.foldl (fun c e => some (ChildEnforcer.synced cal deviceTz now snap e.2 c)) o)
      (entries.foldl (fun c e => some (ChildEnforcer.synced cal deviceTz now snap e.2 c)) o') := by
  induction entries generalizing o o' with
  | nil => exact h
  | cons e entries ih =>
    refine ih ?_
    cases h with
    | none => exact .refl _
    | @some c c' htwin =>
      refine .some (.relimit htwin.usage htwin.bucketsTz htwin.bucketsWeekStart ?_)
      rw [htwin.usage]
      exact .refl _

end ChildEnforcer

/-! ## Two runs -/

/-- What the loop does: it syncs with what it read of every child, or something else. -/
inductive PolicyStep
  | sync (readings : List ClauseReading) (now : Int) (restore : Restore)
  | other (op : ChildOp)

/-- The step on one side. -/
def PolicyStep.op (codec : ClauseCodec) (side : ClauseReading → ChildClauses) :
    PolicyStep → ChildOp
  | sync readings now restore => .sync (readings.map (·.entry codec side)) now restore
  | other op => op

namespace MultiChildEnforcer
variable (cal : Calendar) (deviceTz : String) (codec : ClauseCodec) (m : MultiChildEnforcer)

/-- One step of a run on one side. -/
def policyStep (side : ClauseReading → ChildClauses) (m : MultiChildEnforcer) (s : PolicyStep) :
    MultiChildEnforcer :=
  (m.step cal deviceTz (s.op codec side)).1

/-- A child's totals at an instant. -/
def totals (uid : UInt32) (now : Int) : Option (Nat × Nat) :=
  (m.children uid).map fun c => (c.usage.usedToday cal now, c.usage.usedWeek cal now)

/-- The zone of a child's usage ledger, or of the one that a sync brings back. -/
def ledgerTz (restore : Restore) (uid : UInt32) : Option String :=
  ((m.children uid).map (·.usage.tz)).or ((restore uid).1.map (·.tz))

/-- What is torn of a child stands in for what is not; a child without a ledger is read whole. -/
def StandsIn (uid : UInt32) (m : MultiChildEnforcer) : PolicyStep → Prop
  | .sync readings _ restore =>
    (∀ r ∈ readings, r.uid = uid → r.Torn codec) ∧
      match m.ledgerTz restore uid with
      | some tz => ∀ r, (readings.filter (·.uid = uid)).getLast? = some r → r.StandsIn codec tz
      | none => ∀ r ∈ readings, r.uid = uid → r.found = r.intact
  | .other _ => True

/-- Two enforcers with twins of one child. -/
structure Twins (uid : UInt32) (m m' : MultiChildEnforcer) : Prop where
  child : ChildEnforcer.Twinned (m.children uid) (m'.children uid)
  clockTrusted : m.clockTrusted = m'.clockTrusted

variable {cal deviceTz codec m} {m' : MultiChildEnforcer} {uid : UInt32}

theorem Twins.modify (h : m.Twins uid m') (u : UInt32) {f f' : ChildEnforcer → ChildEnforcer}
    (hf : ∀ c c' : ChildEnforcer, c.Twin c' → (f c).Twin (f' c')) :
    (m.modify u f).Twins uid (m'.modify u f') := by
  refine ⟨?_, h.clockTrusted⟩
  unfold MultiChildEnforcer.modify
  dsimp only
  split
  · exact h.child.map hf
  · exact h.child

theorem Twins.adjust (h : m.Twins uid m') (u : UInt32) {f : ChildEnforcer → Bool × ChildEnforcer}
    (hf : ∀ c c' : ChildEnforcer, c.Twin c' → (f c).2.Twin (f c').2) :
    (m.adjust u f).2.Twins uid (m'.adjust u f).2 :=
  h.modify u hf

/-- The entries of a child, among those that were read. -/
theorem filter_entries (side : ClauseReading → ChildClauses) (readings : List ClauseReading) :
    (readings.map (·.entry codec side)).filter (·.1 = uid) =
      (readings.filter (·.uid = uid)).map (·.entry codec side) :=
  List.filter_map

theorem Twins.syncTorn (h : m.Twins uid m') {readings : List ClauseReading} {now : Int}
    {restore : Restore} (hstands : m.StandsIn codec uid (.sync readings now restore)) :
    (m.sync cal deviceTz (readings.map (·.entry codec ClauseReading.found)) now restore).Twins uid
      (m'.sync cal deviceTz (readings.map (·.entry codec ClauseReading.intact)) now restore) := by
  obtain ⟨htorn, hlast⟩ := hstands
  have hnames : ∀ side : ClauseReading → ChildClauses,
      (readings.map (·.entry codec side)).map Prod.fst = readings.map ClauseReading.uid := by
    intro side
    rw [List.map_map]
    rfl
  refine ⟨?_, ?_⟩
  rotate_left
  · rw [sync_clockTrusted, sync_clockTrusted, h.clockTrusted]
  rw [sync_children, sync_children, filter_entries, filter_entries, hnames, hnames]
  rcases List.eq_nil_or_concat' (readings.filter (·.uid = uid)) with hnil | ⟨before, r, hr⟩
  · rw [hnil]
    show ChildEnforcer.Twinned _ _
    split
    · exact h.child
    · exact .none
  have hmem : r ∈ readings ∧ r.uid = uid := by
    have hfilter : r ∈ readings.filter (·.uid = uid) := by
      rw [hr]
      simp
    simpa using List.mem_filter.mp hfilter
  have hin : uid ∈ readings.map ClauseReading.uid := List.mem_map.mpr ⟨r, hmem⟩
  have hchild := h.child
  rw [if_pos hin, if_pos hin]
  cases htz : m.ledgerTz restore uid with
  | some tz =>
    rw [htz] at hlast
    have hledger : ChildEnforcer.OneLedger (restore uid) tz (m.children uid) (m'.children uid) := by
      unfold ledgerTz at htz
      generalize m.children uid = o at hchild htz
      generalize m'.children uid = o' at hchild
      cases hchild with
      | none =>
        obtain ⟨l, hl, rfl⟩ := Option.map_eq_some_iff.mp htz
        exact ⟨l, hl, rfl⟩
      | @some c c' htwin =>
        exact ⟨⟨htwin.usage, htwin.bucketsTz, htwin.bucketsWeekStart⟩, Option.some.inj htz⟩
    obtain ⟨d, d', htwin, hd, hd'⟩ := hledger.sync cal deviceTz now before
      (htorn r hmem.1 hmem.2) (hlast r (by rw [hr]; simp))
    rw [hr, hd, hd']
    exact .some htwin
  | none =>
    rw [htz] at hlast
    have hsame : (readings.filter (·.uid = uid)).map (·.entry codec ClauseReading.found) =
        (readings.filter (·.uid = uid)).map (·.entry codec ClauseReading.intact) := by
      refine List.map_congr_left fun r hr => ?_
      obtain ⟨hr, huid⟩ := List.mem_filter.mp hr
      unfold ClauseReading.entry ClauseReading.policy
      rw [hlast r hr (of_decide_eq_true huid)]
    rw [hsame]
    exact ChildEnforcer.Twinned.foldl hchild deviceTz now _

/-- **Step lemma.** -/
theorem Twins.step (h : m.Twins uid m') {s : PolicyStep} (hs : m.StandsIn codec uid s) :
    (policyStep cal deviceTz codec ClauseReading.found m s).Twins uid
      (policyStep cal deviceTz codec ClauseReading.intact m' s) := by
  cases s with
  | sync readings now restore => exact h.syncTorn hs
  | other op =>
    cases op with
    | sync configs now restore =>
      refine ⟨?_, ?_⟩
      · show ChildEnforcer.Twinned ((m.sync cal deviceTz configs now restore).children uid)
          ((m'.sync cal deviceTz configs now restore).children uid)
        rw [sync_children, sync_children]
        refine ChildEnforcer.Twinned.foldl ?_ deviceTz now _
        split
        · exact h.child
        · exact .none
      · show (m.sync cal deviceTz configs now restore).clockTrusted =
          (m'.sync cal deviceTz configs now restore).clockTrusted
        rw [sync_clockTrusted, sync_clockTrusted, h.clockTrusted]
    | tick activeUid fg t =>
      refine ⟨?_, h.clockTrusted⟩
      show ChildEnforcer.Twinned ((m.tick cal activeUid fg t).1.children uid)
        ((m'.tick cal activeUid fg t).1.children uid)
      rw [tick_children, tick_children, h.clockTrusted]
      exact h.child.map fun _ _ htwin => htwin.tick _ _ _ _
    | setClockTrusted trusted => exact ⟨h.child, rfl⟩
    | setBucketsPolicy u tz weekStart =>
      exact h.modify u fun _ _ htwin =>
        ⟨htwin.usage, rfl, rfl, htwin.budget, htwin.zone, htwin.learning⟩
    | applyExtension u => exact h.adjust u fun _ _ htwin => htwin.extended _ _
    | deductExtension u => exact h.adjust u fun _ _ htwin => htwin.extended _ _
    | applyBucketExtension u => exact h.adjust u fun _ _ htwin => htwin.extended _ _
    | applyTimeExtension u => exact h.adjust u fun _ _ htwin => htwin.extended _ _
    | burnTimePool u => exact h.modify u fun _ _ htwin => htwin.extended _ _
    | setConsolidated u =>
      exact h.modify u fun _ _ htwin => ⟨htwin.usage, htwin.bucketsTz, htwin.bucketsWeekStart,
        htwin.budget, htwin.zone, htwin.learning⟩
    | setStandDown u =>
      exact h.modify u fun _ _ htwin => ⟨htwin.usage, htwin.bucketsTz, htwin.bucketsWeekStart,
        htwin.budget, htwin.zone, htwin.learning⟩
    | setUsageUnsaved u =>
      exact h.modify u fun _ _ htwin => ⟨htwin.usage, htwin.bucketsTz, htwin.bucketsWeekStart,
        htwin.budget, htwin.zone, htwin.learning⟩

/-- **Run lemma.** -/
theorem Twins.run (h : m.Twins uid m') {steps : List PolicyStep}
    (hsteps : GuardedRun.Obeys (policyStep cal deviceTz codec ClauseReading.found)
      (fun m s => m.StandsIn codec uid s) m steps) :
    (steps.foldl (policyStep cal deviceTz codec ClauseReading.found) m).Twins uid
      (steps.foldl (policyStep cal deviceTz codec ClauseReading.intact) m') := by
  induction steps generalizing m m' with
  | nil => exact h
  | cons s steps ih => exact ih (h.step hsteps.1) hsteps.2

theorem Twins.totals (h : m.Twins uid m') (now : Int) :
    m.totals cal uid now = m'.totals cal uid now := by
  have hchild := h.child
  unfold MultiChildEnforcer.totals
  generalize m.children uid = o at hchild
  generalize m'.children uid = o' at hchild
  cases hchild with
  | none => rfl
  | @some c c' htwin => rw [Option.map_some, Option.map_some, htwin.usage]

/-- **A torn time clause and the totals.**  A sync moves no total of a child that it keeps.  In a
run in which every torn slot is stood in for by a substitute with the zone, the week start and
the time model of the clause, the totals are at every step those of the run in which nothing is
torn. -/
theorem torn_clauses (cal : Calendar) (deviceTz : String) (codec : ClauseCodec)
    (m : MultiChildEnforcer) (uid : UInt32) :
    (∀ readings now restore c, m.children uid = some c → uid ∈ readings.map ClauseReading.uid →
      ∀ t, (policyStep cal deviceTz codec ClauseReading.found m
        (.sync readings now restore)).totals cal uid t = m.totals cal uid t) ∧
    ∀ steps, GuardedRun.Obeys (policyStep cal deviceTz codec ClauseReading.found)
        (fun m s => m.StandsIn codec uid s) m steps →
      ∀ t, (steps.foldl (policyStep cal deviceTz codec ClauseReading.found) m).totals cal uid t =
        (steps.foldl (policyStep cal deviceTz codec ClauseReading.intact) m).totals cal uid t := by
  refine ⟨fun readings now restore c hc hin t => ?_, fun steps hsteps t => ?_⟩
  · obtain ⟨d, husage, hd⟩ := ChildEnforcer.foldl_synced_usage cal deviceTz now
      (restore uid) ((readings.filter (·.uid = uid)).map (·.entry codec ClauseReading.found)) c
    have hnames : (readings.map (·.entry codec ClauseReading.found)).map Prod.fst =
        readings.map ClauseReading.uid := by
      rw [List.map_map]
      rfl
    have hsync : (policyStep cal deviceTz codec ClauseReading.found m
        (.sync readings now restore)).children uid = some d := by
      show (m.sync cal deviceTz _ now restore).children uid = some d
      rw [sync_children, filter_entries, hnames, if_pos hin, hc]
      exact hd
    unfold MultiChildEnforcer.totals
    rw [hsync, hc, Option.map_some, Option.map_some, husage]
  · exact Twins.totals (Twins.run ⟨.refl _, rfl⟩ hsteps) t

/-! A family with one budget, which is torn for a night. -/

/-- A budget of an hour a day. -/
def hourBudget (weekStart : WeekStart) : GrantBudget where
  v := 1
  tz := "UTC"
  dailyMinutes := some 60
  weeklyMinutes := none
  weekStart := some weekStart
  paused := none
  revoked := none
  model := none
  issuedAt := 0

/-- The bodies of the family's budgets. -/
def hourCodec : ClauseCodec where
  schedule _ := none
  budget body := if body = "sun" then some (hourBudget .sun) else
    if body = "mon" then some (hourBudget .mon) else none
  learning _ := none

/-- A reading of a child whose budget is there. -/
def budgetWhole (body : String) : ClauseReading :=
  let cc : ChildClauses := ⟨[(ClauseKind.budget.storeKey, body)], []⟩
  ⟨1, cc, cc, none, none⟩

/-- A reading of a child whose budget would not read. -/
def budgetTorn (body : String) : ClauseReading :=
  { budgetWhole body with found := ⟨[], [ClauseKind.budget.storeKey]⟩ }

/-- An hour at the screen at noon, a torn budget until the next noon, and the budget again. -/
def tornNight (body : String) (noon : Int) : List PolicyStep :=
  let restore : Restore := fun _ => (none, none)
  [.sync [budgetWhole body] noon restore,
    .other (.tick (some 1) ⟨.active, .screen, none, false⟩ ⟨noon, 3600⟩),
    .sync [budgetTorn body] (noon + 60) restore,
    .other (.tick none ⟨.idle, .screen, none, false⟩ ⟨noon + 60, 60⟩),
    .other (.tick (some 1) ⟨.idle, .screen, none, false⟩ ⟨noon + 86400, 60⟩),
    .sync [budgetWhole body] (noon + 86460) restore,
    .other (.tick none ⟨.idle, .screen, none, false⟩ ⟨noon + 86460, 60⟩)]

/-- The totals of the night when it is over. -/
def totalsAfter (body : String) (noon : Int) (side : ClauseReading → ChildClauses) :
    Option (Nat × Nat) :=
  ((tornNight body noon).foldl (policyStep UsageLedger.utcCalendar "UTC" hourCodec side) new).totals
    UsageLedger.utcCalendar 1 (noon + 86460)

theorem torn_budgetWhole (weekStart : WeekStart) {body : String}
    (h : (budgetWhole body).found.budgetSlot hourCodec = .held (hourBudget weekStart)) :
    (budgetWhole body).Torn hourCodec := by
  refine ⟨.same .absent nofun, ?_, rfl, rfl⟩
  show Slot.Torn ((budgetWhole body).found.budgetSlot hourCodec)
    ((budgetWhole body).found.budgetSlot hourCodec)
  rw [h]
  exact .same _ nofun

theorem torn_budgetTorn (weekStart : WeekStart) {body : String}
    (h : (budgetTorn body).intact.budgetSlot hourCodec = .held (hourBudget weekStart)) :
    (budgetTorn body).Torn hourCodec := by
  refine ⟨.same .absent nofun, ?_, rfl, rfl⟩
  rw [h]
  exact .torn _

/-- A substitute in UTC stands in for the budget whose weeks begin on Mondays. -/
theorem budgetTorn_standsIn : (budgetTorn "mon").StandsIn hourCodec "UTC" := by
  refine ⟨fun b _ hb => ?_, fun s hs => ?_⟩
  · have hslot : (budgetTorn "mon").intact.budgetSlot hourCodec = .held (hourBudget .mon) := rfl
    rw [hslot] at hb
    cases hb
    decide
  · have hslot : (budgetTorn "mon").found.scheduleSlot hourCodec = .absent := rfl
    rw [hslot] at hs
    cases hs

theorem standsIn_sync {codec : ClauseCodec} {m : MultiChildEnforcer} {restore : Restore}
    {tz : String} {r : ClauseReading} (htz : m.ledgerTz restore r.uid = some tz)
    (hr : r.Torn codec) (hstands : r.StandsIn codec tz) (now : Int) :
    m.StandsIn codec r.uid (.sync [r] now restore) := by
  refine ⟨fun r' hr' _ => ?_, ?_⟩
  · rw [List.mem_singleton.mp hr']
    exact hr
  · rw [htz]
    intro r' hlast
    have hmine : [r].filter (·.uid = r.uid) = [r] := by simp
    rw [hmine, List.getLast?_singleton, Option.some.injEq] at hlast
    rw [← hlast]
    exact hstands

/-- From a Monday to a Tuesday, in a week that begins on Mondays. -/
theorem torn_clauses_mondayWeek :
    totalsAfter "mon" 1782734400 ClauseReading.found =
        totalsAfter "mon" 1782734400 ClauseReading.intact ∧
      totalsAfter "mon" 1782734400 ClauseReading.intact = some (0, 3600) := by
  refine ⟨?_, by decide +kernel⟩
  refine (torn_clauses UsageLedger.utcCalendar "UTC" hourCodec new 1).2
    (tornNight "mon" 1782734400) ?_ _
  have hwhole : (budgetWhole "mon").Torn hourCodec := torn_budgetWhole .mon rfl
  refine ⟨⟨?_, ?_⟩, trivial, ?_, trivial, trivial, ?_, trivial, trivial⟩
  · intro r hr _
    rw [List.mem_singleton.mp hr]
    exact hwhole
  · intro r hr _
    rw [List.mem_singleton.mp hr]
    rfl
  · exact standsIn_sync (r := budgetTorn "mon") (by decide +kernel) (torn_budgetTorn .mon rfl)
      budgetTorn_standsIn _
  · exact @standsIn_sync hourCodec _ _ "UTC" (budgetWhole "mon") (by decide +kernel) hwhole
      (ClauseReading.standsIn_of_eq rfl) _

/-- **A week that begins on a Sunday is begun again on the Monday.**  The budget that comes back
is the one that was torn, and the Sunday's hour is gone from the week. -/
theorem torn_clauses_sundayWeek :
    (budgetWhole "sun").Torn hourCodec ∧ (budgetTorn "sun").Torn hourCodec ∧
      totalsAfter "sun" 1782648000 ClauseReading.found = some (0, 0) ∧
        totalsAfter "sun" 1782648000 ClauseReading.intact = some (0, 3600) := by
  refine ⟨torn_budgetWhole .sun rfl, torn_budgetTorn .sun rfl, ?_⟩
  decide +kernel

end MultiChildEnforcer
end Kintrinsic
