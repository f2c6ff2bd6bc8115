import Kintrinsic.SplitPolicy
import Kintrinsic.WireTypes

/-! # What a save signs for each device

A save carries some of the dimensions and, of the overrides, those of the same dimensions.  Each
device is sent its own effective policy of it, one clause for every dimension that is there. -/
namespace Kintrinsic

open RecordMaps

namespace PolicyDimension

/-- The order of `policyToClauses`. -/
def all : List PolicyDimension :=
  [times, schedule, budget, web, apps, learning, tethering, connections, lifeline, buckets, listening,
    alwaysAvailable]

def kind : PolicyDimension → ClauseKind
  | times => .times
  | schedule => .schedule
  | budget => .budget
  | web => .content
  | apps => .apps
  | learning => .learning
  | tethering => .tethering
  | connections => .connections
  | lifeline => .lifeline
  | buckets => .buckets
  | listening => .listening
  | alwaysAvailable => .alwaysAvailable

theorem mem_all (d : PolicyDimension) : d ∈ all := by cases d <;> decide

end PolicyDimension

/-- The wire form of every dimension; some throw on a value that a device would refuse. -/
structure WireForms (Other : PolicyDimension → Type) where
  Body : PolicyDimension → Type
  toGrant : (d : PolicyDimension) → DimensionValue Other d → Nat → Except String (Body d)

/-- `ClausePayload`, before it is wrapped. -/
structure SignedClause {Other : PolicyDimension → Type} (forms : WireForms Other) where
  v : Nat
  dimension : PolicyDimension
  issuedAt : Nat
  subject : Option String
  body : forms.Body dimension

def SignedClause.kind {Other : PolicyDimension → Type} {forms : WireForms Other}
    (c : SignedClause forms) : ClauseKind := c.dimension.kind

section
variable {Other : PolicyDimension → Type} (forms : WireForms Other) (subject : Option String)
  (issuedAt : Nat)

/-- A lifeline without numbers signs nothing. -/
def signs : (d : PolicyDimension) → DimensionValue Other d → Bool
  | .lifeline, lifeline => !lifeline.numbers.isEmpty
  | _, _ => true

/-- The clause of one dimension, if there is one. -/
def clauseOf (base : (d : PolicyDimension) → Option (DimensionValue Other d)) (d : PolicyDimension) :
    Except String (Option (SignedClause forms)) :=
  match (base d).filter (signs d) with
  | none => .ok none
  | some value => do
    let body ← forms.toGrant d value issuedAt
    return some ⟨1, d, issuedAt, subject.filter (· ≠ ""), body⟩

/-- The clauses of some dimensions, one after the other. -/
def clausesOf (base : (d : PolicyDimension) → Option (DimensionValue Other d)) :
    List PolicyDimension → Except String (List (SignedClause forms))
  | [] => .ok []
  | d :: ds => do
    let clause ← clauseOf forms subject issuedAt base d
    let rest ← clausesOf base ds
    return clause.toList ++ rest

/-- `policyToClauses`. -/
def policyToClauses (p : Policy Other) : Except String (List (SignedClause forms)) :=
  if p.scope ≠ .device then .ok []
  else clausesOf forms subject issuedAt p.base PolicyDimension.all

/-- What `savePolicy` signs: the dimensions that it is given, and of the overrides those of them. -/
def toSign (scope : Scope) (next : (d : PolicyDimension) → Option (DimensionValue Other d))
    (overrides : Option (AList fun _ : String => PolicyOverride Other)) : Policy Other :=
  ⟨scope, next, Policy.pickOverrides overrides
    (SplittableControl.all.filter fun c => (next c.dimension).isSome)⟩

/-- What `signClause` sends one device. -/
def clausesForDevice (deviceId : String) (p : Policy Other) :
    Except String (List (SignedClause forms)) :=
  policyToClauses forms subject issuedAt (p.effectivePolicyForDevice deviceId)

end

/-! ## What is picked of the overrides -/

section
variable {Other : PolicyDimension → Type} {controls : List SplittableControl} {c : SplittableControl}

/-- A device has of a picked map what it had, of the controls that are picked. -/
theorem own_pickOverrides (scope : Scope) (base : (d : PolicyDimension) → Option (DimensionValue Other d))
    (overrides : Option (AList fun _ : String => PolicyOverride Other)) (deviceId : String) :
    (Policy.mk scope base (Policy.pickOverrides overrides controls)).own deviceId c =
      if c ∈ controls then (Policy.mk scope base overrides).own deviceId c else none := by
  unfold Policy.pickOverrides
  cases overrides with
  | none =>
    have hnone : (Policy.mk scope base none).own deviceId c = none := rfl
    dsimp only
    rw [hnone, ite_self]
  | some o =>
    dsimp only
    -- a kept entry says what it said of the controls that are picked
    have hpicked : ∀ mine : PolicyOverride Other,
        ((if PolicyOverride.hasKeys (fun c => if c ∈ controls ∧ (mine.get c).isSome then mine c
          else none) then some (fun c => if c ∈ controls ∧ (mine.get c).isSome then mine c else none)
            else none : Option (PolicyOverride Other)).bind (·.get c)) =
              if c ∈ controls then mine.get c else none := by
      intro mine
      have hget : PolicyOverride.get (fun c => if c ∈ controls ∧ (mine.get c).isSome then mine c
          else none) c = if c ∈ controls then mine.get c else none := by
        unfold PolicyOverride.get
        dsimp only
        by_cases hc : c ∈ controls
        · by_cases hsome : ((mine c).join).isSome = true
          · rw [if_pos ⟨hc, hsome⟩, if_pos hc]
          · rw [if_neg fun hboth => hsome hboth.2, if_pos hc]
            exact (Option.not_isSome_iff_eq_none.mp hsome).symm
        · rw [if_neg fun hboth => hc hboth.1, if_neg hc]
          rfl
      split
      · exact hget
      · rename_i hkeys
        rw [← hget, PolicyOverride.get_of_hasKeys (Bool.eq_false_iff.mpr hkeys)]
        rfl
    have hown : (Policy.mk scope base (some o)).own deviceId c =
        (o.lookup deviceId).bind (·.get c) := rfl
    have hread : ∀ out : AList fun _ : String => PolicyOverride Other,
        (Policy.mk scope base (if out.entries.isEmpty then none else some out)).own deviceId c =
          (out.lookup deviceId).bind (·.get c) := by
      intro out
      split
      · rename_i hempty
        rw [lookup_of_isEmpty hempty]
        rfl
      · rfl
    rw [hown, hread, lookup_mapKept]
    cases o.lookup deviceId with
    | none =>
      simp only [Option.bind_none, ite_self]
    | some mine =>
      rw [Option.bind_some, Option.bind_some]
      exact hpicked mine

/-- **What a save signs for a device** are its effective values of the dimensions of the save. -/
theorem effective_toSign (scope : Scope) (next : (d : PolicyDimension) → Option (DimensionValue Other d))
    (overrides : Option (AList fun _ : String => PolicyOverride Other)) (deviceId : String)
    (d : PolicyDimension) : (toSign scope next overrides).effective deviceId d =
      if (next d).isSome then (Policy.mk scope next overrides).effective deviceId d else none := by
  rw [Policy.effective_eq, Policy.effective_eq]
  show overlay ((toSign scope next overrides).own deviceId) next d = if (next d).isSome then
    overlay ((Policy.mk scope next overrides).own deviceId) next d else none
  obtain ⟨c, rfl⟩ | hshared := dimension_cases Other d
  · have hall : c ∈ SplittableControl.all := by cases c <;> decide
    have hpicked : (toSign scope next overrides).own deviceId c =
        if (next c.dimension).isSome then (Policy.mk scope next overrides).own deviceId c
        else none := by
      unfold toSign
      rw [own_pickOverrides]
      simp only [List.mem_filter, hall, true_and]
    rw [overlay_dimension, overlay_dimension, hpicked]
    cases hnext : next c.dimension with
    | none => rfl
    | some value => rfl
  · rw [hshared, hshared]
    cases next d <;> rfl

end

/-! ## The clauses -/

section
variable {Other : PolicyDimension → Type} {forms : WireForms Other} {subject : Option String}
  {issuedAt : Nat} {base : (d : PolicyDimension) → Option (DimensionValue Other d)}

/-- A clause carries the wire form of its dimension's value. -/
structure SignedClause.Carries (c : SignedClause forms) (subject : Option String) (issuedAt : Nat)
    (base : (d : PolicyDimension) → Option (DimensionValue Other d)) : Prop where
  version : c.v = 1
  issued : c.issuedAt = issuedAt
  addressed : c.subject = subject.filter (· ≠ "")
  carried : ∃ value, base c.dimension = some value ∧ signs c.dimension value = true ∧
    forms.toGrant c.dimension value issuedAt = .ok c.body

variable (forms subject issuedAt base)

/-- The clause of a dimension, where it has one. -/
theorem clauseOf_cases (d : PolicyDimension) :
    ((base d).filter (signs d) = none ∧ clauseOf forms subject issuedAt base d = .ok none) ∨
    (∃ value e, base d = some value ∧ signs d value = true ∧
      forms.toGrant d value issuedAt = .error e ∧
        clauseOf forms subject issuedAt base d = .error e) ∨
    ∃ c : SignedClause forms, (base d).filter (signs d) ≠ none ∧ c.dimension = d ∧
      c.Carries subject issuedAt base ∧ clauseOf forms subject issuedAt base d = .ok (some c) := by
  unfold clauseOf
  cases hfilter : (base d).filter (signs d) with
  | none => exact .inl ⟨rfl, rfl⟩
  | some value =>
    obtain ⟨hvalue, hsigns⟩ := Option.filter_eq_some_iff.mp hfilter
    right
    dsimp only
    cases hgrant : forms.toGrant d value issuedAt with
    | error e => exact .inl ⟨value, e, hvalue, hsigns, hgrant, rfl⟩
    | ok body =>
      exact .inr ⟨_, by simp, rfl, ⟨rfl, rfl, rfl, value, hvalue, hsigns, hgrant⟩, rfl⟩

/-- **The clauses of some dimensions** are one for each that signs, in their order, or the first
error of a wire form. -/
theorem clausesOf_spec (ds : List PolicyDimension) :
    (∀ out, clausesOf forms subject issuedAt base ds = .ok out →
      (∀ c ∈ out, c.Carries subject issuedAt base) ∧
        out.map SignedClause.dimension =
          ds.filter fun d => ((base d).filter (signs d)).isSome) ∧
    (∀ e, clausesOf forms subject issuedAt base ds = .error e →
      ∃ d ∈ ds, ∃ value, base d = some value ∧ signs d value = true ∧
        forms.toGrant d value issuedAt = .error e) := by
  induction ds with
  | nil =>
    refine ⟨?_, ?_⟩
    · rintro out ⟨⟩
      exact ⟨fun c hc => absurd hc List.not_mem_nil, rfl⟩
    · rintro e ⟨⟩
  | cons d ds ih =>
    obtain ⟨ihok, iherror⟩ := ih
    unfold clausesOf
    obtain ⟨hnone, hclause⟩ | ⟨value, e, hvalue, hsigns, hgrant, hclause⟩ |
      ⟨c, hsome, rfl, hcarries, hclause⟩ :=
        clauseOf_cases forms subject issuedAt base d
    · -- nothing of this dimension
      rw [hclause]
      have hskip : (d :: ds).filter (fun d => ((base d).filter (signs d)).isSome) =
          ds.filter fun d => ((base d).filter (signs d)).isSome :=
        List.filter_cons_of_neg (by rw [hnone]; simp)
      cases hrest : clausesOf forms subject issuedAt base ds with
      | error e =>
        refine ⟨fun out hout => ?_, ?_⟩
        · cases hout
        · rintro e' ⟨⟩
          obtain ⟨d', hd', hcause⟩ := iherror e hrest
          exact ⟨d', List.mem_cons_of_mem d hd', hcause⟩
      | ok rest =>
        refine ⟨?_, fun e he => ?_⟩
        · rintro out ⟨⟩
          rw [hskip]
          exact ihok rest hrest
        · cases he
    · -- the first error of a wire form ends it
      rw [hclause]
      refine ⟨fun out hout => ?_, ?_⟩
      · cases hout
      · rintro e' ⟨⟩
        exact ⟨d, List.mem_cons_self, value, hvalue, hsigns, hgrant⟩
    · rw [hclause]
      have htake : (c.dimension :: ds).filter (fun d => ((base d).filter (signs d)).isSome) =
          c.dimension :: ds.filter fun d => ((base d).filter (signs d)).isSome :=
        List.filter_cons_of_pos (Option.isSome_iff_ne_none.mpr hsome)
      cases hrest : clausesOf forms subject issuedAt base ds with
      | error e =>
        refine ⟨fun out hout => ?_, ?_⟩
        · cases hout
        · rintro e' ⟨⟩
          obtain ⟨d', hd', hcause⟩ := iherror e hrest
          exact ⟨d', List.mem_cons_of_mem _ hd', hcause⟩
      | ok rest =>
        refine ⟨?_, fun e he => ?_⟩
        · rintro out ⟨⟩
          obtain ⟨hcarry, horder⟩ := ihok rest hrest
          rw [htake]
          refine ⟨fun c' hc' => ?_, congrArg (List.cons c.dimension) horder⟩
          rcases List.mem_cons.mp hc' with rfl | hc'
          · exact hcarries
          · exact hcarry c' hc'
        · cases he

end

/-! ## The algebra -/

section
variable {Other : PolicyDimension → Type}

/-- **One charter, split and joined.**  Splitting changes nothing that any device is sent.  A value
set for one device, by an edit or by a hold on its own apps, is that device's, of that dimension, and
nobody else's.  Sharing again gives every device the base.  No sequence of edits reaches a dimension
that it does not name.  And a save signs for each device one clause of every dimension of the save
that says something, in the order of the dimensions, which carries that device's effective value. -/
theorem split_law (forms : WireForms Other) :
    (∀ (p : Policy Other) (c : SplittableControl) (deviceIds : List String) (id : String),
      (p.setControlSplit c deviceIds).effectivePolicyForDevice id = p.effectivePolicyForDevice id) ∧
    (∀ (p : Policy Other) (c : SplittableControl) (id : String)
      (value : Option (DimensionValue Other c.dimension)),
      let q := p.setDeviceControl c id value
      q.effective id c.dimension = value.or (p.base c.dimension) ∧
      (∀ d, d ≠ c.dimension → q.effective id d = p.effective id d) ∧
      ∀ other, other ≠ id → q.effectivePolicyForDevice other = p.effectivePolicyForDevice other) ∧
    (∀ (p : Policy Other) (apps own : AppsPolicy) (id pkg : String) (state : HoldState)
      (untilUnix now : Int), p.base .apps = some apps → id ≠ "" → p.own id .apps = some own →
      let q := p.edit (.hold (some id) pkg state untilUnix now)
      q.effective id .apps = some (own.putHold pkg now state (some untilUnix)) ∧
      (∀ d, d ≠ .apps → q.effective id d = p.effective id d) ∧
      ∀ other, other ≠ id → q.effectivePolicyForDevice other = p.effectivePolicyForDevice other) ∧
    (∀ (p : Policy Other) (c : SplittableControl) (id : String),
      (p.setControlShared c).effective id c.dimension = p.base c.dimension ∧
      ∀ d, d ≠ c.dimension → (p.setControlShared c).effective id d = p.effective id d) ∧
    (∀ (p : Policy Other) (edits : List (PolicyEdit Other)) (d : PolicyDimension),
      (∀ e ∈ edits, d ≠ e.control.dimension) →
        ∀ id, (edits.foldl Policy.edit p).effective id d = p.effective id d) ∧
    ∀ (next : (d : PolicyDimension) → Option (DimensionValue Other d))
      (overrides : Option (AList fun _ : String => PolicyOverride Other)) (subject : Option String)
      (issuedAt : Nat) (id : String),
      let sent := fun d =>
        if (next d).isSome then (Policy.mk .device next overrides).effective id d else none
      let clauses := clausesForDevice forms subject issuedAt id (toSign .device next overrides)
      (∀ out, clauses = .ok out → (∀ c ∈ out, c.Carries subject issuedAt sent) ∧
        out.map SignedClause.dimension =
          PolicyDimension.all.filter fun d => ((sent d).filter (signs d)).isSome) ∧
      ∀ e, clauses = .error e → ∃ d value, sent d = some value ∧ signs d value = true ∧
        forms.toGrant d value issuedAt = .error e := by
  have hset : ∀ (p : Policy Other) (c : SplittableControl) (id : String)
      (value : Option (DimensionValue Other c.dimension)),
      (p.setDeviceControl c id value).effective id c.dimension = value.or (p.base c.dimension) ∧
      (∀ d, d ≠ c.dimension → (p.setDeviceControl c id value).effective id d = p.effective id d) ∧
      ∀ other, other ≠ id → (p.setDeviceControl c id value).effectivePolicyForDevice other =
        p.effectivePolicyForDevice other := by
    intro p c id value
    obtain ⟨hown, hrest⟩ := Policy.effective_setDeviceControl p c id value
    exact ⟨hown, hrest, fun other hne => Policy.effectivePolicy_setDeviceControl_of_ne value hne⟩
  refine ⟨Policy.effectivePolicy_setControlSplit, hset, ?_, Policy.effective_setControlShared,
    fun p edits d hd => Policy.effective_edits p edits hd, ?_⟩
  · intro p apps own id pkg state untilUnix now happs hid hown
    have hedit : p.edit (.hold (some id) pkg state untilUnix now) =
        p.setDeviceControl .apps id (some (own.putHold pkg now state (some untilUnix))) := by
      unfold Policy.edit
      dsimp only
      rw [happs]
      exact Policy.composeDeviceHold_own happs hid hown
    dsimp only
    rw [hedit]
    exact hset p .apps id _
  · intro next overrides subject issuedAt id
    dsimp only
    have hclauses : clausesForDevice forms subject issuedAt id (toSign .device next overrides) =
        clausesOf forms subject issuedAt (fun d => if (next d).isSome then
          (Policy.mk .device next overrides).effective id d else none) PolicyDimension.all := by
      have hscope : ((toSign .device next overrides).effectivePolicyForDevice id).scope = .device := by
        rw [Policy.effectivePolicy_eq]
        rfl
      unfold clausesForDevice policyToClauses
      rw [if_neg (not_not_intro hscope)]
      exact congrArg (fun base => clausesOf forms subject issuedAt base PolicyDimension.all)
        (funext fun d => effective_toSign .device next overrides id d)
    rw [hclauses]
    obtain ⟨hok, herror⟩ := clausesOf_spec forms subject issuedAt (fun d =>
      if (next d).isSome then (Policy.mk .device next overrides).effective id d else none)
      PolicyDimension.all
    refine ⟨hok, fun e he => ?_⟩
    obtain ⟨d, -, hcause⟩ := herror e he
    exact ⟨d, hcause⟩

end

/-! ## A lifeline without numbers -/

/-- Wire forms that never refuse a value. -/
def plainForms : WireForms fun _ => Unit where
  Body := DimensionValue fun _ => Unit
  toGrant _ value _ := .ok value

/-- **Where a save signs no clause** of a dimension that it carries: the lifeline has no numbers. -/
theorem not_clause_of_each :
    ¬∀ (next : (d : PolicyDimension) → Option (DimensionValue (fun _ => Unit) d)) (id : String)
      (out : List (SignedClause plainForms)),
      clausesForDevice plainForms none 0 id (toSign .device next none) = .ok out →
        ∀ d, ((Policy.mk .device next none).effective id d).isSome = true →
          ∃ c ∈ out, c.dimension = d := by
  intro hall
  let next : (d : PolicyDimension) → Option (DimensionValue (fun _ => Unit) d)
    | .lifeline => some ⟨[], ()⟩
    | _ => none
  obtain ⟨c, hc, -⟩ := hall next "laptop" [] rfl .lifeline rfl
  cases hc

end Kintrinsic
