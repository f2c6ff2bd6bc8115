import Kintrinsic.DeviceStatus
import Mathlib.Data.List.Induction

/-! # The order of statuses, end to end

Devices emit numbered statuses, a network of relays delivers them in any order and any number of
times, and the guardian merges what arrives.  What is stored for a device is the last that it
emitted among those that came. -/
namespace Kintrinsic

open MachineWord

/-- A device after a run. -/
def wardOf (runs : PubKey → List WardStep) (machine : PubKey) : Ward :=
  (Ward.new machine).run (runs machine)

theorem wardOf_valid (runs : PubKey → List WardStep) (machine : PubKey) :
    (wardOf runs machine).Valid := (Ward.valid_new machine).run _

/-- A status that arrives, and the guardian's clock then. -/
abbrev Delivery := StatusPayload × Int

def deliver (m : DeviceStatuses) (d : Delivery) : DeviceStatuses :=
  setDeviceStatus m (parseStatus d.1) d.2

def deliverAll (ds : List Delivery) : DeviceStatuses := ds.foldl deliver fun _ => none

/-- What relays may deliver: what a device emitted, and readings of a time before it counted. -/
def Deliverable (runs : PubKey → List WardStep) (s : StatusPayload) : Prop :=
  s ∈ (wardOf runs s.machine).emitted ∨ s.seq = none

/-- No reading without a number is stamped far ahead of one with a number. -/
def UpgradeInTime (machine : PubKey) (ds : List Delivery) : Prop :=
  ∀ d ∈ ds, ∀ e ∈ ds, d.1.machine = machine → e.1.machine = machine →
    d.1.seq = none → e.1.seq ≠ none →
      ((parseStatus d.1).ts : Int) - upgradeTsToleranceSecs ≤ (parseStatus e.1).ts

/-- The last that a device emitted, of what was delivered of it with a number. -/
def LatestDelivered (runs : PubKey → List WardStep) (ds : List Delivery) (s : StatusPayload) :
    Prop :=
  (∃ now, (s, now) ∈ ds) ∧ s.seq ≠ none ∧
    ∀ d ∈ ds, d.1.machine = s.machine → d.1.seq ≠ none →
      d.1 = s ∨ List.Sublist [d.1, s] (wardOf runs s.machine).emitted

section
variable {runs : PubKey → List WardStep} {machine : PubKey}

theorem emittedBefore_of_sublist {a b : StatusPayload}
    (h : List.Sublist [a, b] (wardOf runs machine).emitted) : Ward.EmittedBefore a b :=
  List.rel_of_pairwise_cons ((wardOf_valid runs machine).ordered.sublist h) (by simp)

/-- **An earlier status never displaces a later one.** -/
theorem mergeDeviceStatus_earlier {cur : LiveDeviceStatus} {s c : StatusPayload} (nowMs : Int)
    (hcur : cur.Of (parseStatus c)) (h : List.Sublist [s, c] (wardOf runs machine).emitted) :
    mergeDeviceStatus (some cur) (parseStatus s) nowMs = none := by
  obtain ⟨n, m, hn, hm, habove⟩ := emittedBefore_of_sublist h
  have hseq : cur.seq = some (Binary64.ofNat m) := by
    rw [hcur.seq_eq]
    exact congrArg (Option.map Binary64.ofNat) hm
  have hs : (parseStatus s).seq = some (Binary64.ofNat n) :=
    congrArg (Option.map Binary64.ofNat) hn
  cases hmerge : mergeDeviceStatus (some cur) (parseStatus s) nowMs with
  | none => rfl
  | some l =>
    obtain ⟨k, hk, hlt⟩ := mergeDeviceStatus_replaces hseq hmerge
    rw [hs] at hk
    have hle : Binary64.ofNat n ≤ Binary64.ofNat m := Binary64.ofNat_mono habove.le
    rw [Option.some.inj hk] at hle
    exact absurd hlt (Nat.not_lt.mpr hle)

end

/-! ## What is stored after some deliveries -/

/-- What is stored for a device is one of its statuses that came, and none came with a higher
number. -/
def HoldsLatest (machine : PubKey) (ds : List Delivery) : Option LiveDeviceStatus → Prop
  | none => ∀ d ∈ ds, d.1.machine ≠ machine
  | some l =>
    (∃ d ∈ ds, d.1.machine = machine ∧ l.Of (parseStatus d.1)) ∧
      ∀ d ∈ ds, d.1.machine = machine → ∀ n, (parseStatus d.1).seq = some n →
        ∃ k, l.seq = some k ∧ n ≤ k

section
variable {machine : PubKey} {ds : List Delivery} {d : Delivery}

/-- A delivery of another device changes nothing here. -/
theorem deliver_of_ne (m : DeviceStatuses) (h : d.1.machine ≠ machine) :
    deliver m d machine = m machine := by
  unfold deliver setDeviceStatus
  cases mergeDeviceStatus (m (parseStatus d.1).machine) (parseStatus d.1) d.2 with
  | none => rfl
  | some l => exact Function.update_of_ne (Ne.symm h) _ _

theorem deliver_same (m : DeviceStatuses) (h : d.1.machine = machine) :
    deliver m d machine =
      (mergeDeviceStatus (m machine) (parseStatus d.1) d.2).or (m machine) := by
  subst h
  have hmachine : (parseStatus d.1).machine = d.1.machine := rfl
  unfold deliver setDeviceStatus
  rw [hmachine]
  cases mergeDeviceStatus (m d.1.machine) (parseStatus d.1) d.2 with
  | none => rfl
  | some l => exact Function.update_self _ _ _

theorem HoldsLatest.append_of_ne {stored : Option LiveDeviceStatus}
    (h : HoldsLatest machine ds stored) (hne : d.1.machine ≠ machine) :
    HoldsLatest machine (ds ++ [d]) stored := by
  cases stored with
  | none =>
    intro e he
    rcases List.mem_append.mp he with he | he
    · exact h e he
    · exact List.mem_singleton.mp he ▸ hne
  | some l =>
    obtain ⟨⟨e, he, hmachine, hof⟩, hmax⟩ := h
    refine ⟨⟨e, List.mem_append_left _ he, hmachine, hof⟩, fun e he hm => ?_⟩
    rcases List.mem_append.mp he with he | he
    · exact hmax e he hm
    · exact absurd (List.mem_singleton.mp he ▸ hm) hne

/-- What is kept still has the highest number. -/
theorem HoldsLatest.kept {l : LiveDeviceStatus} (h : HoldsLatest machine ds (some l))
    (hmachine : d.1.machine = machine) (hup : UpgradeInTime machine (ds ++ [d]))
    (hmerge : mergeDeviceStatus (some l) (parseStatus d.1) d.2 = none) :
    HoldsLatest machine (ds ++ [d]) (some l) := by
  obtain ⟨⟨e, he, hm, hof⟩, hmax⟩ := h
  refine ⟨⟨e, List.mem_append_left _ he, hm, hof⟩, fun e' he' hm' n hn => ?_⟩
  rcases List.mem_append.mp he' with he' | he'
  · exact hmax e' he' hm' n hn
  · rw [List.mem_singleton.mp he'] at hn
    cases hl : l.seq with
    | some k =>
      refine ⟨k, rfl, ?_⟩
      by_contra hlt
      have hsome := mergeDeviceStatus_isSome d.2 hl hn (Nat.not_le.mp hlt)
      rw [hmerge] at hsome
      cases hsome
    | none =>
      -- the stored one was of a device that did not count yet
      have hnone : e.1.seq = none := by
        have hseq : (parseStatus e.1).seq = none := hof.seq_eq ▸ hl
        exact Option.map_eq_none_iff.mp hseq
      have hsome' : d.1.seq ≠ none := by
        intro hd
        have hseq : (parseStatus d.1).seq = none := congrArg (Option.map Binary64.ofNat) hd
        rw [hseq] at hn
        cases hn
      have htime := hup e (List.mem_append_left _ he) d (by simp) hm hmachine hnone hsome'
      rw [← hof.ts_eq] at htime
      have hsome := mergeDeviceStatus_upgrade d.2 hl hn htime
      rw [hmerge] at hsome
      cases hsome

/-- What replaces it has the highest number. -/
theorem HoldsLatest.replaced {stored : Option LiveDeviceStatus} {l : LiveDeviceStatus}
    (h : HoldsLatest machine ds stored) (hmachine : d.1.machine = machine)
    (hmerge : mergeDeviceStatus stored (parseStatus d.1) d.2 = some l) :
    HoldsLatest machine (ds ++ [d]) (some l) := by
  have hof := mergeDeviceStatus_of hmerge
  refine ⟨⟨d, by simp, hmachine, hof⟩, fun e he hm n hn => ?_⟩
  rcases List.mem_append.mp he with he | he
  · cases stored with
    | none => exact absurd hm (h e he)
    | some cur =>
      obtain ⟨k, hk, hle⟩ := h.2 e he hm n hn
      obtain ⟨n', hn', hlt⟩ := mergeDeviceStatus_replaces hk hmerge
      exact ⟨n', hof.seq_eq.trans hn', hle.trans hlt.le⟩
  · rw [List.mem_singleton.mp he] at hn
    exact ⟨n, hof.seq_eq.trans hn, le_rfl⟩

/-- One delivery. -/
theorem HoldsLatest.deliver {m : DeviceStatuses} (h : HoldsLatest machine ds (m machine))
    (hup : UpgradeInTime machine (ds ++ [d])) :
    HoldsLatest machine (ds ++ [d]) (Kintrinsic.deliver m d machine) := by
  by_cases hmachine : d.1.machine = machine
  · rw [deliver_same m hmachine]
    cases hmerge : mergeDeviceStatus (m machine) (parseStatus d.1) d.2 with
    | some l => exact h.replaced hmachine hmerge
    | none =>
      rw [Option.none_or]
      cases hstored : m machine with
      | none =>
        rw [hstored] at hmerge
        cases hmerge
      | some l =>
        rw [hstored] at hmerge h
        exact h.kept hmachine hup hmerge
  · rw [deliver_of_ne m hmachine]
    exact h.append_of_ne hmachine

theorem UpgradeInTime.of_append {es : List Delivery} (h : UpgradeInTime machine (ds ++ es)) :
    UpgradeInTime machine ds := fun d hd e he =>
  h d (List.mem_append_left _ hd) e (List.mem_append_left _ he)

/-- **After any deliveries** the stored number is the highest that came. -/
theorem holdsLatest_deliverAll (hup : UpgradeInTime machine ds) :
    HoldsLatest machine ds (deliverAll ds machine) := by
  induction ds using List.reverseRecOn with
  | nil => exact fun _ h => nomatch h
  | append_singleton ds d ih =>
    unfold deliverAll
    rw [List.foldl_append, List.foldl_cons, List.foldl_nil]
    exact HoldsLatest.deliver (ih hup.of_append) hup

end
/-! ## The law -/

/-- The order of statuses, whatever the network does. -/
structure StatusOrder (runs : PubKey → List WardStep) : Prop where
  /-- A status of a device never displaces one it emitted later, nor does one without a number. -/
  never_earlier : ∀ machine, ∀ c ∈ (wardOf runs machine).emitted, ∀ cur : LiveDeviceStatus,
    cur.Of (parseStatus c) → ∀ s nowMs,
      s.seq = none ∨ List.Sublist [s, c] (wardOf runs machine).emitted →
        mergeDeviceStatus (some cur) (parseStatus s) nowMs = none
  /-- A delivery that changes nothing returns what there is. -/
  unchanged : ∀ cur s nowMs l, mergeDeviceStatus cur s nowMs = some l → cur ≠ some l
  /-- What is stored for a device is the last that it emitted among what came of it. -/
  latest : ∀ ds, (∀ d ∈ ds, Deliverable runs d.1) → ∀ s, UpgradeInTime s.machine ds →
    (∀ t ∈ (wardOf runs s.machine).emitted, ∀ n, t.seq = some n → n ≤ 2 ^ 53) →
      LatestDelivered runs ds s →
        ∃ l, deliverAll ds s.machine = some l ∧ l.Of (parseStatus s)

/-- **Status order end to end**, one reading to a device. -/
theorem status_order (runs : PubKey → List WardStep) : StatusOrder runs where
  never_earlier := by
    rintro machine c hc cur hcur s nowMs (hs | hs)
    · obtain ⟨-, n, hn, -⟩ := (wardOf_valid runs machine).durable c hc
      have hseq : cur.seq = some (Binary64.ofNat n) := by
        rw [hcur.seq_eq]
        exact congrArg (Option.map Binary64.ofNat) hn
      cases hmerge : mergeDeviceStatus (some cur) (parseStatus s) nowMs with
      | none => rfl
      | some l =>
        obtain ⟨k, hk, -⟩ := mergeDeviceStatus_replaces hseq hmerge
        rw [parseStatus, hs] at hk
        cases hk
    · exact mergeDeviceStatus_earlier nowMs hcur hs
  unchanged := fun _ _ _ _ h => mergeDeviceStatus_ne h
  latest := by
    rintro ds hdeliverable s hup hexact ⟨⟨now, hmem⟩, hseq, hlatest⟩
    have hemitted : ∀ d ∈ ds, d.1.machine = s.machine → d.1.seq ≠ none →
        d.1 ∈ (wardOf runs s.machine).emitted := fun d hd hm hne =>
      hm ▸ (hdeliverable d hd).resolve_right hne
    have hread : ∀ t ∈ (wardOf runs s.machine).emitted, ∀ n, t.seq = some n →
        (parseStatus t).seq = some n := by
      intro t ht n hn
      have hmap : (parseStatus t).seq = some (Binary64.ofNat n) :=
        congrArg (Option.map Binary64.ofNat) hn
      rw [hmap, Binary64.ofNat_of_le (hexact t ht n hn)]
    have hs : s ∈ (wardOf runs s.machine).emitted := hemitted (s, now) hmem rfl hseq
    obtain ⟨n, hn⟩ := Option.ne_none_iff_exists'.mp hseq
    have hholds := holdsLatest_deliverAll hup
    cases hstored : deliverAll ds s.machine with
    | none =>
      rw [hstored] at hholds
      exact absurd rfl (hholds (s, now) hmem)
    | some l =>
      rw [hstored] at hholds
      obtain ⟨⟨d, hd, hm, hof⟩, hmax⟩ := hholds
      obtain ⟨k, hk, hle⟩ := hmax (s, now) hmem rfl n (hread s hs n hn)
      have hdseq : d.1.seq ≠ none := by
        intro hnone
        have hnone' : (parseStatus d.1).seq = none := congrArg (Option.map Binary64.ofNat) hnone
        rw [hof.seq_eq, hnone'] at hk
        cases hk
      rcases hlatest d hd hm hdseq with rfl | hbefore
      · exact ⟨l, rfl, hof⟩
      · -- an earlier one that is stored would have a lower number
        obtain ⟨a, b, ha, hb, habove⟩ := emittedBefore_of_sublist hbefore
        have hka := hof.seq_eq.symm.trans hk
        rw [hread d.1 (hemitted d hd hm hdseq) a ha] at hka
        cases Option.some.inj hka
        cases Option.some.inj (hn.symm.trans hb)
        have hbound := hexact s hs n hn
        unfold Ward.Above u64Max at habove
        omega

/-- A laptop that two children use. -/
def laptop : PubKey := ⟨1⟩

def reportOf (subject : BitVec 256) (report : Value) : StatusPayload :=
  ⟨⟨subject⟩, laptop, 1000, none, none, report⟩

/-- A run that emits one status of each child. -/
def twoReports (nowUnixMs : UInt64) : List WardStep :=
  [.start nowUnixMs, .advance, .store, .stamp (reportOf 2 "first"), .advance, .store,
    .stamp (reportOf 3 "second")]

/-- **Not for each child, nor at any clock.**  The reading of one child displaces that of the other;
and numbers past `2 ^ 53`, of a clock set there, are one number to the guardian. -/
theorem status_order_not_always :
    (∃ a b, ((Ward.new laptop).run (twoReports 1790000000000)).emitted = [a, b] ∧
      a.subject ≠ b.subject ∧
      (deliverAll [(a, 0), (b, 0)] laptop).map (·.subject) = some b.subject) ∧
    ∃ a b, ((Ward.new laptop).run (twoReports 9007199254740991)).emitted = [a, b] ∧
      a.report ≠ b.report ∧
      (deliverAll [(a, 0), (b, 0)] laptop).map (·.report) = some a.report := by
  refine ⟨⟨{ reportOf 2 "first" with seq := some 1790000000001 },
    { reportOf 3 "second" with seq := some 1790000000002 }, ?_, ?_, ?_⟩,
    ⟨{ reportOf 2 "first" with seq := some 9007199254740992 },
      { reportOf 3 "second" with seq := some 9007199254740993 }, ?_, ?_, ?_⟩⟩
  all_goals decide +kernel

end Kintrinsic
