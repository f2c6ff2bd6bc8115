import Kintrinsic.GuardianApps
import Kintrinsic.Records
import Mathlib.Logic.Function.Basic

/-! # One charter, split where it fits the child

A child's policy has one base value of every dimension, and some of them can be set for a device on
its own.  What a device is sent is the base with its own values laid over it. -/
namespace Kintrinsic

open RecordMaps

/-! ## Dimensions -/

/-- The dimensions of a device-scope policy, in the order their clauses are sent in. -/
inductive PolicyDimension
  | times | schedule | budget | web | apps | learning | tethering | connections | lifeline | buckets
  | listening | alwaysAvailable
deriving DecidableEq

/-- `SPLITTABLE_CONTROLS`. -/
inductive SplittableControl
  | schedule | budget | web | apps | learning
deriving DecidableEq

namespace SplittableControl

def all : List SplittableControl := [schedule, budget, web, apps, learning]

def dimension : SplittableControl → PolicyDimension
  | schedule => .schedule
  | budget => .budget
  | web => .web
  | apps => .apps
  | learning => .learning

end SplittableControl

/-- `LifelineNumber`. -/
structure LifelineNumber where
  label : String
  number : String
deriving DecidableEq

/-- `Lifeline`: its numbers, and settings that no function here reads. -/
structure Lifeline (Settings : Type) where
  numbers : List LifelineNumber
  settings : Settings

/-- The values of a dimension; those that no function here looks into are of any type. -/
abbrev DimensionValue (Other : PolicyDimension → Type) : PolicyDimension → Type
  | .times => List TimeSel
  | .schedule => Schedule
  | .apps => AppsPolicy
  | .lifeline => Lifeline (Other .lifeline)
  | .budget => Other .budget
  | .web => Other .web
  | .learning => Other .learning
  | .tethering => Other .tethering
  | .connections => Other .connections
  | .buckets => Other .buckets
  | .listening => Other .listening
  | .alwaysAvailable => Other .alwaysAvailable

variable {Other : PolicyDimension → Type}

/-- `PolicyOverride`: under a control nothing, an undefined value, or a value. -/
abbrev PolicyOverride (Other : PolicyDimension → Type) : Type :=
  (c : SplittableControl) → Option (Option (DimensionValue Other c.dimension))

inductive Scope
  | device
  | app (appId : String) (label : String)
deriving DecidableEq

structure Policy (Other : PolicyDimension → Type) where
  scope : Scope
  base : (d : PolicyDimension) → Option (DimensionValue Other d)
  deviceOverrides : Option (AList fun _ : String => PolicyOverride Other)

namespace PolicyOverride

/-- No key at all. -/
def blank : PolicyOverride Other := fun _ => none

/-- What is read of a control. -/
def get (o : PolicyOverride Other) (c : SplittableControl) : Option (DimensionValue Other c.dimension) :=
  (o c).join

/-- `{ ...o, [control]: value }`. -/
def set (o : PolicyOverride Other) (c : SplittableControl)
    (value : Option (DimensionValue Other c.dimension)) : PolicyOverride Other :=
  Function.update o c (some value)

/-- `delete o[control]`. -/
def without (o : PolicyOverride Other) (c : SplittableControl) : PolicyOverride Other :=
  Function.update o c none

/-- `Object.keys(o).length > 0`. -/
def hasKeys (o : PolicyOverride Other) : Bool := SplittableControl.all.any fun c => (o c).isSome

end PolicyOverride

/-- The values of a device laid over the base. -/
def overlay (mine : (c : SplittableControl) → Option (DimensionValue Other c.dimension))
    (base : (d : PolicyDimension) → Option (DimensionValue Other d)) : (d : PolicyDimension) → Option (DimensionValue Other d)
  | .schedule => (mine .schedule).or (base .schedule)
  | .budget => (mine .budget).or (base .budget)
  | .web => (mine .web).or (base .web)
  | .apps => (mine .apps).or (base .apps)
  | .learning => (mine .learning).or (base .learning)
  | d => base d

/-- `ComposedHold`. -/
structure ComposedHold (Other : PolicyDimension → Type) where
  apps : AppsPolicy
  deviceOverrides : Option (AList fun _ : String => PolicyOverride Other)

/-- `composeDeviceHold`: into the device's own apps if it has some, else into the base. -/
def composeDeviceHold (apps : AppsPolicy)
    (deviceOverrides : Option (AList fun _ : String => PolicyOverride Other))
    (deviceId : Option String) (pkg : String) (state : HoldState) (untilUnix now : Int) :
    ComposedHold Other :=
  let own := do
    let id ← deviceId.filter (· ≠ "")
    let mine ← (deviceOverrides.getD ∅).lookup id
    let splitApps ← mine.get .apps
    return (id, mine, splitApps)
  match own with
  | some (id, mine, splitApps) =>
    ⟨apps, some ((deviceOverrides.getD ∅).insert id (mine.set .apps
      (some (AppsPolicy.putHold splitApps pkg now state (some untilUnix)))))⟩
  | none => ⟨AppsPolicy.putHold apps pkg now state (some untilUnix), deviceOverrides⟩

namespace Policy
variable (p : Policy Other) (c : SplittableControl)

/-- The override map, or an empty one. -/
def overrides : AList fun _ : String => PolicyOverride Other := p.deviceOverrides.getD ∅

/-- `deviceOverrides?.[deviceId]`. -/
def overrideOf (deviceId : String) : Option (PolicyOverride Other) :=
  p.deviceOverrides.bind (·.lookup deviceId)

/-- `effectivePolicyForDevice`: the map itself is never sent. -/
def effectivePolicyForDevice (deviceId : String) : Policy Other :=
  match p.overrideOf deviceId with
  | none => { p with deviceOverrides := none }
  | some mine => { p with deviceOverrides := none, base := overlay mine.get p.base }

/-- `isControlSplit`. -/
def isControlSplit : Bool :=
  p.deviceOverrides.any fun o => o.entries.any fun e => (e.2.get c).isSome

/-- One device seeded with what it already had. -/
def seedControl (p : Policy Other) (c : SplittableControl)
    (overrides : AList fun _ : String => PolicyOverride Other) (deviceId : String) :
    AList fun _ : String => PolicyOverride Other :=
  let mine := (overrides.lookup deviceId).getD .blank
  overrides.insert deviceId (mine.set c ((mine.get c).or (p.base c.dimension)))

/-- `setControlSplit`. -/
def setControlSplit (deviceIds : List String) : Policy Other :=
  { p with deviceOverrides := some (deviceIds.foldl (p.seedControl c) p.overrides) }

/-- `setControlShared`. -/
def setControlShared : Policy Other :=
  match p.deviceOverrides with
  | none => p
  | some o =>
    let next := mapKept (fun mine => if (mine.without c).hasKeys then some (mine.without c) else none) o
    if next.entries.isEmpty then { p with deviceOverrides := none }
    else { p with deviceOverrides := some next }

/-- `setDeviceControl`. -/
def setDeviceControl (deviceId : String) (value : Option (DimensionValue Other c.dimension)) : Policy Other :=
  let mine := (p.overrides.lookup deviceId).getD .blank
  { p with deviceOverrides := some (p.overrides.insert deviceId (mine.set c value)) }

/-- `pickOverrides`. -/
def pickOverrides (overrides : Option (AList fun _ : String => PolicyOverride Other))
    (controls : List SplittableControl) : Option (AList fun _ : String => PolicyOverride Other) :=
  match overrides with
  | none => none
  | some o =>
    let out := mapKept (fun mine =>
      let kept : PolicyOverride Other := fun c =>
        if c ∈ controls ∧ (mine.get c).isSome then mine c else none
      if kept.hasKeys then some kept else none) o
    if out.entries.isEmpty then none else some out

/-- A composed hold saved: what it does not carry stays as it was. -/
def saveHold (h : ComposedHold Other) : Policy Other :=
  { p with
    base := Function.update p.base .apps (some h.apps)
    deviceOverrides := h.deviceOverrides.or p.deviceOverrides }

end Policy

/-! ## Edits -/

/-- An edit of a child's policy; a hold is asked for by a device or by none. -/
inductive PolicyEdit (Other : PolicyDimension → Type)
  | split (c : SplittableControl) (deviceIds : List String)
  | shared (c : SplittableControl)
  | device (deviceId : String) (c : SplittableControl) (value : Option (DimensionValue Other c.dimension))
  | hold (deviceId : Option String) (pkg : String) (state : HoldState) (untilUnix now : Int)

/-- The dimension that an edit names. -/
def PolicyEdit.control : PolicyEdit Other → SplittableControl
  | split c _ | shared c | device _ c _ => c
  | hold _ _ _ _ _ => .apps

/-- One edit; a hold is refused while the child has no app rules. -/
def Policy.edit (p : Policy Other) : PolicyEdit Other → Policy Other
  | .split c deviceIds => p.setControlSplit c deviceIds
  | .shared c => p.setControlShared c
  | .device deviceId c value => p.setDeviceControl c deviceId value
  | .hold deviceId pkg state untilUnix now =>
    match p.base .apps with
    | none => p
    | some apps =>
      p.saveHold (composeDeviceHold apps p.deviceOverrides deviceId pkg state untilUnix now)

/-! ## What a device reads -/

namespace PolicyOverride
variable {o : PolicyOverride Other} {c c' : SplittableControl}

@[simp] theorem get_blank : (blank : PolicyOverride Other).get c = none := rfl

@[simp] theorem get_set (value : Option (DimensionValue Other c.dimension)) : (o.set c value).get c = value := by
  unfold set get
  rw [Function.update_self]
  rfl

@[simp] theorem get_set_of_ne (h : c' ≠ c) (value : Option (DimensionValue Other c.dimension)) :
    (o.set c value).get c' = o.get c' := by
  unfold set get
  rw [Function.update_of_ne h]

@[simp] theorem get_without : (o.without c).get c = none := by
  unfold without get
  rw [Function.update_self]
  rfl

@[simp] theorem get_without_of_ne (h : c' ≠ c) : (o.without c).get c' = o.get c' := by
  unfold without get
  rw [Function.update_of_ne h]

/-- Without keys nothing is read. -/
theorem get_of_hasKeys (h : o.hasKeys = false) : o.get c = none := by
  unfold hasKeys at h
  have hc : (o c).isSome = false := by
    have hall := List.any_eq_false.mp h
    cases c <;> exact Bool.eq_false_iff.mpr (hall _ (by decide))
  unfold get
  rw [Option.not_isSome_iff_eq_none.mp (Bool.eq_false_iff.mp hc)]
  rfl

end PolicyOverride

namespace Policy
variable {p : Policy Other} {c : SplittableControl}

/-- What a device has of its own. -/
def own (p : Policy Other) (deviceId : String) (c : SplittableControl) :
    Option (DimensionValue Other c.dimension) := (p.overrideOf deviceId).bind (·.get c)

/-- The effective value of a dimension on a device. -/
def effective (p : Policy Other) (deviceId : String) : (d : PolicyDimension) → Option (DimensionValue Other d) :=
  (p.effectivePolicyForDevice deviceId).base

/-- **What a device is sent**: the base, and over it what the device has of its own. -/
theorem effectivePolicy_eq (p : Policy Other) (deviceId : String) :
    p.effectivePolicyForDevice deviceId = ⟨p.scope, overlay (p.own deviceId) p.base, none⟩ := by
  have hbase : overlay (fun _ => none) p.base = p.base := by
    funext d
    cases d <;> rfl
  unfold effectivePolicyForDevice own
  cases p.overrideOf deviceId with
  | none =>
    dsimp only [Option.bind_none]
    rw [hbase]
  | some mine => rfl

theorem effective_eq (p : Policy Other) (deviceId : String) :
    p.effective deviceId = overlay (p.own deviceId) p.base := by
  unfold effective
  rw [effectivePolicy_eq]

end Policy

section
variable {f g : (c : SplittableControl) → Option (DimensionValue Other c.dimension)}
  {base : (d : PolicyDimension) → Option (DimensionValue Other d)} {d : PolicyDimension} {c : SplittableControl}

theorem overlay_dimension : overlay f base c.dimension = (f c).or (base c.dimension) := by
  cases c <;> rfl

/-- The effective value of a control: the device's own, or else the base. -/
theorem Policy.effective_control (p : Policy Other) (deviceId : String) (c : SplittableControl) :
    p.effective deviceId c.dimension = (p.own deviceId c).or (p.base c.dimension) := by
  rw [Policy.effective_eq, overlay_dimension]

/-- A dimension is that of a control, or nothing is laid over it. -/
theorem dimension_cases (Other : PolicyDimension → Type) (d : PolicyDimension) :
    (∃ c : SplittableControl, d = c.dimension) ∨
      ∀ (f : (c : SplittableControl) → Option (DimensionValue Other c.dimension))
        (base : (d : PolicyDimension) → Option (DimensionValue Other d)), overlay f base d = base d := by
  cases d with
  | schedule => exact .inl ⟨.schedule, rfl⟩
  | budget => exact .inl ⟨.budget, rfl⟩
  | web => exact .inl ⟨.web, rfl⟩
  | apps => exact .inl ⟨.apps, rfl⟩
  | learning => exact .inl ⟨.learning, rfl⟩
  | _ => exact .inr fun _ _ => rfl

/-- What is laid over the base is alike where every value is. -/
theorem overlay_congr (h : ∀ c, (f c).or (base c.dimension) = (g c).or (base c.dimension)) :
    overlay f base = overlay g base := by
  funext d
  obtain ⟨c, rfl⟩ | hshared := dimension_cases Other d
  · rw [overlay_dimension, overlay_dimension, h]
  · rw [hshared, hshared]

/-- A control is laid over no dimension but its own. -/
theorem overlay_frame (hne : d ≠ c.dimension) (h : ∀ c', c' ≠ c → f c' = g c') :
    overlay f base d = overlay g base d := by
  obtain ⟨c', rfl⟩ | hshared := dimension_cases Other d
  · have hc' : c' ≠ c := by
      rintro rfl
      exact hne rfl
    rw [overlay_dimension, overlay_dimension, h c' hc']
  · rw [hshared, hshared]

/-- A value of the base is that of its own dimension only. -/
theorem overlay_update {d' : PolicyDimension} (hne : d ≠ d')
    (value : Option (DimensionValue Other d')) :
    overlay f (Function.update base d' value) d = overlay f base d := by
  obtain ⟨c, rfl⟩ | hshared := dimension_cases Other d
  · rw [overlay_dimension, overlay_dimension, Function.update_of_ne hne]
  · rw [hshared, hshared, Function.update_of_ne hne]

end

/-! ## What the edits do to it -/

namespace Policy
variable {p : Policy Other} {c : SplittableControl} {deviceId other : String}

/-- What a map has of a device. -/
def ownIn (overrides : AList fun _ : String => PolicyOverride Other) (deviceId : String)
    (c : SplittableControl) : Option (DimensionValue Other c.dimension) :=
  (overrides.lookup deviceId).bind (·.get c)

theorem own_eq (p : Policy Other) (deviceId : String) (c : SplittableControl) :
    p.own deviceId c = ownIn p.overrides deviceId c := by
  unfold own ownIn overrideOf overrides
  cases p.deviceOverrides <;> rfl

/-- What is read of a device, or of one without an entry. -/
theorem get_lookup (overrides : AList fun _ : String => PolicyOverride Other) (deviceId : String)
    (c : SplittableControl) :
    ((overrides.lookup deviceId).getD .blank).get c = ownIn overrides deviceId c := by
  unfold ownIn
  cases overrides.lookup deviceId <;> rfl

section
variable (overrides : AList fun _ : String => PolicyOverride Other)
  (value : Option (DimensionValue Other c.dimension))

/-- **One control of one device written**: it alone is read anew. -/
theorem ownIn_insert : ownIn (overrides.insert deviceId
    (((overrides.lookup deviceId).getD .blank).set c value)) deviceId c = value := by
  unfold ownIn
  rw [AList.lookup_insert, Option.bind_some, PolicyOverride.get_set]

theorem ownIn_insert_of_ne {c' : SplittableControl} (h : other ≠ deviceId ∨ c' ≠ c) :
    ownIn (overrides.insert deviceId (((overrides.lookup deviceId).getD .blank).set c value))
      other c' = ownIn overrides other c' := by
  by_cases hsame : other = deviceId
  · subst hsame
    rw [← get_lookup overrides]
    unfold ownIn
    rw [AList.lookup_insert, Option.bind_some,
      PolicyOverride.get_set_of_ne (h.resolve_left fun hne => hne rfl)]
  · unfold ownIn
    rw [AList.lookup_insert_ne hsame]

end

/-- **Splitting changes nothing**: every device is seeded with what it had. -/
theorem effectivePolicy_setControlSplit (p : Policy Other) (c : SplittableControl)
    (deviceIds : List String) (deviceId : String) :
    (p.setControlSplit c deviceIds).effectivePolicyForDevice deviceId =
      p.effectivePolicyForDevice deviceId := by
  have hseeds : ∀ (ids : List String) (o : AList fun _ : String => PolicyOverride Other) (c' : _),
      (ownIn (ids.foldl (p.seedControl c) o) deviceId c').or (p.base c'.dimension) =
        (ownIn o deviceId c').or (p.base c'.dimension) := by
    intro ids
    induction ids with
    | nil => exact fun o c' => rfl
    | cons id ids ih =>
      intro o c'
      rw [List.foldl_cons, ih]
      unfold seedControl
      by_cases hsame : deviceId = id ∧ c' = c
      · obtain ⟨rfl, rfl⟩ := hsame
        dsimp only
        rw [ownIn_insert, get_lookup]
        cases ownIn o deviceId c' <;> cases p.base c'.dimension <;> rfl
      · rw [ownIn_insert_of_ne o _ (not_and_or.mp hsame)]
  rw [effectivePolicy_eq, effectivePolicy_eq]
  have hlaid : overlay ((p.setControlSplit c deviceIds).own deviceId) p.base =
      overlay (p.own deviceId) p.base := by
    refine overlay_congr fun c' => ?_
    rw [own_eq, own_eq]
    exact hseeds deviceIds p.overrides c'
  exact congrArg (Policy.mk p.scope · none) hlaid

/-- **One device's value set** is read by that device alone, … -/
theorem effectivePolicy_setDeviceControl_of_ne (value : Option (DimensionValue Other c.dimension))
    (h : other ≠ deviceId) :
    (p.setDeviceControl c deviceId value).effectivePolicyForDevice other =
      p.effectivePolicyForDevice other := by
  rw [effectivePolicy_eq, effectivePolicy_eq]
  have hown : (p.setDeviceControl c deviceId value).own other = p.own other := by
    funext c'
    rw [own_eq, own_eq]
    exact ownIn_insert_of_ne p.overrides value (.inl h)
  rw [hown]
  rfl

/-- … and of that dimension alone. -/
theorem effective_setDeviceControl (p : Policy Other) (c : SplittableControl) (deviceId : String)
    (value : Option (DimensionValue Other c.dimension)) :
    (p.setDeviceControl c deviceId value).effective deviceId c.dimension =
        value.or (p.base c.dimension) ∧
      ∀ d, d ≠ c.dimension → (p.setDeviceControl c deviceId value).effective deviceId d =
        p.effective deviceId d := by
  refine ⟨?_, fun d hd => ?_⟩
  · have hown : (p.setDeviceControl c deviceId value).own deviceId c = value := by
      rw [own_eq]
      exact ownIn_insert p.overrides value
    rw [effective_control, hown]
    rfl
  · rw [effective_eq, effective_eq]
    refine overlay_frame hd fun c' hc' => ?_
    rw [own_eq, own_eq]
    exact ownIn_insert_of_ne p.overrides value (.inr hc')

/-- What a device has of its own once a control is shared again. -/
theorem own_setControlShared (p : Policy Other) (c : SplittableControl) (deviceId : String) :
    (p.setControlShared c).own deviceId c = none ∧
      ∀ c', c' ≠ c → (p.setControlShared c).own deviceId c' = p.own deviceId c' := by
  unfold setControlShared
  cases ho : p.deviceOverrides with
  | none =>
    have hnone : ∀ c', p.own deviceId c' = none := by
      intro c'
      unfold own overrideOf
      rw [ho]
      rfl
    exact ⟨hnone c, fun _ _ => rfl⟩
  | some o =>
    -- without its keys an entry says what it said, whether it is kept or not
    have hkept : ∀ c', ownIn (mapKept (fun mine : PolicyOverride Other =>
        if (mine.without c).hasKeys then some (mine.without c) else none) o) deviceId c' =
          (o.lookup deviceId).bind fun mine => (mine.without c).get c' := by
      intro c'
      unfold ownIn
      rw [lookup_mapKept]
      cases o.lookup deviceId with
      | none => rfl
      | some mine =>
        rw [Option.bind_some, Option.bind_some]
        cases hkeys : (mine.without c).hasKeys with
        | true => rfl
        | false => rw [PolicyOverride.get_of_hasKeys hkeys]; rfl
    have hown : ∀ c', p.own deviceId c' = (o.lookup deviceId).bind (·.get c') := by
      intro c'
      unfold own overrideOf
      rw [ho]
      rfl
    -- an empty map is dropped
    have hread : ∀ (next : AList fun _ : String => PolicyOverride Other) (c' : SplittableControl),
        (if next.entries.isEmpty then { p with deviceOverrides := none }
          else { p with deviceOverrides := some next } : Policy Other).own deviceId c' =
            ownIn next deviceId c' := by
      intro next c'
      split
      · rename_i hempty
        unfold ownIn
        rw [lookup_of_isEmpty hempty]
        rfl
      · rfl
    dsimp only
    refine ⟨?_, fun c' hc' => ?_⟩
    · rw [hread, hkept]
      cases o.lookup deviceId with
      | none => rfl
      | some mine => exact PolicyOverride.get_without
    · rw [hread, hkept, hown]
      cases o.lookup deviceId with
      | none => rfl
      | some mine => exact PolicyOverride.get_without_of_ne hc'

/-- What sharing keeps of a policy. -/
theorem setControlShared_base (p : Policy Other) (c : SplittableControl) :
    (p.setControlShared c).base = p.base ∧ (p.setControlShared c).scope = p.scope := by
  unfold setControlShared
  cases p.deviceOverrides with
  | none => exact ⟨rfl, rfl⟩
  | some o =>
    dsimp only
    split <;> exact ⟨rfl, rfl⟩

/-- **Sharing again gives every device the base**, and changes no other dimension. -/
theorem effective_setControlShared (p : Policy Other) (c : SplittableControl) (deviceId : String) :
    (p.setControlShared c).effective deviceId c.dimension = p.base c.dimension ∧
      ∀ d, d ≠ c.dimension → (p.setControlShared c).effective deviceId d =
        p.effective deviceId d := by
  obtain ⟨hnone, hsame⟩ := own_setControlShared p c deviceId
  obtain ⟨hbase, -⟩ := setControlShared_base p c
  refine ⟨?_, fun d hd => ?_⟩
  · rw [effective_control, hnone, hbase, Option.none_or]
  · rw [effective_eq, effective_eq, hbase]
    exact overlay_frame hd hsame

/-! ## Holds -/

variable {apps : AppsPolicy} {pkg : String} {state : HoldState} {untilUnix now : Int}

/-- **A hold of a device that has its own apps** is put on these: it is that device's value set. -/
theorem composeDeviceHold_own {own : AppsPolicy} (happs : p.base .apps = some apps)
    (hid : deviceId ≠ "") (hown : p.own deviceId .apps = some own) :
    p.saveHold (composeDeviceHold apps p.deviceOverrides (some deviceId) pkg state untilUnix now) =
      p.setDeviceControl .apps deviceId
        (some (AppsPolicy.putHold own pkg now state (some untilUnix))) := by
  rw [own_eq] at hown
  obtain ⟨mine, hmine, hget⟩ := Option.bind_eq_some_iff.mp hown
  have hbase : Function.update p.base .apps (some apps) = p.base := by
    rw [← happs, Function.update_eq_self]
  have hlookup : (p.deviceOverrides.getD ∅).lookup deviceId = some mine := hmine
  have hcompose : composeDeviceHold apps p.deviceOverrides (some deviceId) pkg state untilUnix now =
      ⟨apps, some ((p.deviceOverrides.getD ∅).insert deviceId (mine.set .apps
        (some (AppsPolicy.putHold own pkg now state (some untilUnix)))))⟩ := by
    unfold composeDeviceHold
    rw [Option.filter_some, if_pos (by simpa using hid)]
    simp only [Option.bind_eq_bind, Option.bind_some, hlookup, hget]
    rfl
  unfold saveHold setDeviceControl overrides
  rw [hcompose, hlookup, hbase]
  rfl

/-- A hold of any other device is put on the base. -/
theorem composeDeviceHold_base (id : Option String)
    (h : ∀ deviceId, id = some deviceId → deviceId ≠ "" → p.own deviceId .apps = none) :
    p.saveHold (composeDeviceHold apps p.deviceOverrides id pkg state untilUnix now) =
      { p with
        base := Function.update p.base .apps
          (some (AppsPolicy.putHold apps pkg now state (some untilUnix))) } := by
  have hcompose : composeDeviceHold apps p.deviceOverrides id pkg state untilUnix now =
      ⟨AppsPolicy.putHold apps pkg now state (some untilUnix), p.deviceOverrides⟩ := by
    unfold composeDeviceHold
    cases id with
    | none => rfl
    | some deviceId =>
      by_cases hid : deviceId = ""
      · rw [Option.filter_some, if_neg (by simpa using hid)]
        rfl
      · have hnone := h deviceId rfl hid
        rw [own_eq] at hnone
        rw [Option.filter_some, if_pos (by simpa using hid)]
        unfold ownIn overrides at hnone
        cases hlookup : (p.deviceOverrides.getD ∅).lookup deviceId with
        | none =>
          simp only [Option.bind_eq_bind, Option.bind_some, hlookup, Option.bind_none]
        | some mine =>
          rw [hlookup, Option.bind_some] at hnone
          simp only [Option.bind_eq_bind, Option.bind_some, hlookup, hnone, Option.bind_none]
  unfold saveHold
  rw [hcompose]
  dsimp only
  rw [Option.or_self]

/-- A hold is put on a device's own apps or on the base. -/
theorem hold_cases (p : Policy Other) (id : Option String) :
    (∃ deviceId own, id = some deviceId ∧ deviceId ≠ "" ∧ p.own deviceId .apps = some own) ∨
      ∀ deviceId, id = some deviceId → deviceId ≠ "" → p.own deviceId .apps = none := by
  by_contra hneither
  push Not at hneither
  obtain ⟨hown, deviceId, hid, hne, hsome⟩ := hneither
  obtain ⟨own, hsome⟩ := Option.ne_none_iff_exists'.mp hsome
  exact hown deviceId own hid hne hsome

/-! ## Any number of edits -/

/-- **An edit leaves every dimension that it does not name**, on every device. -/
theorem effective_edit (p : Policy Other) (e : PolicyEdit Other) {d : PolicyDimension}
    (hd : d ≠ e.control.dimension) (deviceId : String) :
    (p.edit e).effective deviceId d = p.effective deviceId d := by
  have hset : ∀ (id : String) (c : SplittableControl) (value : Option (DimensionValue Other c.dimension)),
      d ≠ c.dimension →
        (p.setDeviceControl c id value).effective deviceId d = p.effective deviceId d := by
    intro id c value hne
    by_cases hsame : deviceId = id
    · subst hsame
      exact (effective_setDeviceControl p c deviceId value).2 d hne
    · unfold effective
      rw [effectivePolicy_setDeviceControl_of_ne value hsame]
  cases e with
  | split c deviceIds =>
    unfold effective
    exact congrArg (fun q => q.base d) (effectivePolicy_setControlSplit p c deviceIds deviceId)
  | shared c => exact (effective_setControlShared p c deviceId).2 d hd
  | device id c value => exact hset id c value hd
  | hold id pkg state untilUnix now =>
    unfold edit
    dsimp only
    cases happs : p.base .apps with
    | none => rfl
    | some apps =>
      dsimp only
      obtain ⟨asking, own, rfl, hne, hown⟩ | hbase := hold_cases p id
      · rw [composeDeviceHold_own happs hne hown]
        exact hset asking .apps _ hd
      · rw [composeDeviceHold_base id hbase, effective_eq, effective_eq]
        exact overlay_update hd _

/-- **Any sequence of edits leaves the dimensions that none of them names.** -/
theorem effective_edits (p : Policy Other) (edits : List (PolicyEdit Other)) {d : PolicyDimension}
    (hd : ∀ e ∈ edits, d ≠ e.control.dimension) (deviceId : String) :
    (edits.foldl edit p).effective deviceId d = p.effective deviceId d := by
  induction edits generalizing p with
  | nil => rfl
  | cons e edits ih =>
    rw [List.foldl_cons, ih _ fun e' he' => hd e' (List.mem_cons_of_mem _ he'),
      effective_edit p e (hd e List.mem_cons_self)]

end Policy
end Kintrinsic
