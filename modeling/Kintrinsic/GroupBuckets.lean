import Kintrinsic.AppBuckets
import Kintrinsic.NamedGroups
import Kintrinsic.SextetGroups

/-! # From the groups editor to the device's buckets

The counted groups that the editor accepts go on the wire as a buckets clause, which drops what the
device would refuse; the device reads the clause, checks it once more, and caps each group's apps. -/
namespace Kintrinsic

/-! ## The wire -/

/-- `GrantBuckets`, as the app writes it. -/
structure BucketsClause where
  v : UInt32
  buckets : List AppBucketRule
  tz : String
  issuedAt : UInt64
  weekStart : Option WeekStart
  paused : Option Bool

/-- Whether a number passes the test `n < 1 || n > cap`. -/
def JsNumber.withinCap (cap : Nat) : JsNumber → Bool
  | .finite q => decide (1 ≤ q ∧ q ≤ cap)
  | .nan => true
  | .infinite _ => false

/-- The pattern of a bucket's id. -/
def isWireBucketId (s : String) : Bool :=
  decide (1 ≤ s.toList.length) && decide (s.toList.length ≤ 40) && s.toList.all isIdChar

/-- `validBucket`. -/
def validBucket (b : AppBucketRule) : Bool :=
  isWireBucketId b.id && (decide (b.label ≠ "") && decide (JsMinutes.jsLength b.label ≤ 32)) &&
    !b.apps.isEmpty && (b.dailyMinutes.isSome || b.weeklyMinutes.isSome) &&
    b.dailyMinutes.all (JsNumber.withinCap maxBucketMinutes) &&
    b.weeklyMinutes.all (JsNumber.withinCap maxBucketWeekMinutes)

/-- A rule with its texts trimmed. -/
def AppBucketRule.trimmed (b : AppBucketRule) : AppBucketRule :=
  { b with label := jsTrim b.label, apps := trimTexts b.apps }

/-- `bucketsToGrant`. -/
def bucketsToGrant (policy : BucketsPolicy) (issuedAt : UInt64) : BucketsClause :=
  let buckets := (policy.buckets.map AppBucketRule.trimmed).filter validBucket
  { v := if buckets.all (·.dailyMinutes.isSome) then 1 else 2
    buckets := buckets
    tz := policy.tz
    issuedAt := issuedAt
    weekStart := policy.weekStart
    paused := if policy.enabled then none else some true }

/-! ## The device -/

/-- A `u16` of a body. -/
def readU16 (q : ℚ) : Option UInt16 :=
  if q.den = 1 ∧ 0 ≤ q.num ∧ q.num < 65536 then some (UInt16.ofNat q.num.toNat) else none

/-- An optional `u16` of a body: what is no number in JSON is written as `null`. -/
def readMinutes : Option JsNumber → Option (Option UInt16)
  | some (.finite q) => (readU16 q).map some
  | _ => some none

def readBucket (b : AppBucketRule) : Option AppBucket :=
  (readMinutes b.dailyMinutes).bind fun daily =>
    (readMinutes b.weeklyMinutes).map fun weekly => ⟨b.id, b.label, b.apps, daily, weekly⟩

/-- The clause as the device reads it. -/
def BucketsClause.read (c : BucketsClause) : Option GrantBuckets :=
  (c.buckets.mapM readBucket).map fun buckets => ⟨c.v, buckets, c.paused⟩

/-! ## Ids -/

theorem idChar_cases {c : Char} (h : isIdChar c = true) :
    c.toNat ≤ 127 ∧ (c.isLower || c.isDigit || c == '-') = true := by
  unfold isIdChar Text.isAsciiLower Text.isAsciiDigit at h
  rw [Bool.or_eq_true, Bool.or_eq_true, decide_eq_true_iff, decide_eq_true_iff, beq_iff_eq] at h
  rcases h with (⟨hlo, hhi⟩ | ⟨hlo, hhi⟩) | rfl
  · have hle : c.toNat ≤ 122 := Char.le_def.mp hhi
    refine ⟨by omega, ?_⟩
    have hlower : c.isLower = true := by
      unfold Char.isLower
      rw [Bool.and_eq_true, decide_eq_true_iff, decide_eq_true_iff]
      exact ⟨hlo, hhi⟩
    rw [hlower]
    rfl
  · have hle : c.toNat ≤ 57 := Char.le_def.mp hhi
    have hge : 48 ≤ c.toNat := Char.le_def.mp hlo
    refine ⟨by omega, ?_⟩
    rw [Char.isDigit_iff_toNat.mpr ⟨hge, hle⟩, Bool.or_true]
    rfl
  · decide

/-- An id's length in bytes is its length. -/
theorem byteLen_of_idChars {s : List Char} (h : ∀ c ∈ s, isIdChar c = true) :
    byteLen s = s.length := by
  have hone : ∀ c ∈ s, c.utf8Size = 1 := fun c hc =>
    Char.utf8Size_eq_one_iff.mpr (idChar_cases (h c hc)).1
  unfold byteLen
  rw [List.map_congr_left hone, List.map_const', List.sum_replicate, smul_eq_mul, mul_one]

/-- An id that the wire takes is one that the device takes. -/
theorem validBucketId_of_wire {s : String} (h : isWireBucketId s = true) :
    validBucketId s = true := by
  unfold isWireBucketId at h
  rw [Bool.and_eq_true, Bool.and_eq_true, decide_eq_true_iff, decide_eq_true_iff,
    List.all_eq_true] at h
  obtain ⟨⟨hlo, hhi⟩, hchars⟩ := h
  have hbytes : byteLen s.toList = s.toList.length := byteLen_of_idChars hchars
  have hall : s.toList.all (fun c => c.isLower || c.isDigit || c == '-') = true :=
    List.all_eq_true.mpr fun c hc => (idChar_cases (hchars c hc)).2
  have hsome : s.toList.isEmpty = false := by
    rw [List.isEmpty_eq_false_iff, ← List.length_pos_iff]
    exact hlo
  unfold validBucketId
  rw [hall, hbytes, hsome, decide_eq_true hhi]
  rfl

/-! ## Groups that nothing on the way refuses -/

/-- Whole minutes of a cap. -/
def WholeMinutes (cap : Nat) (m : JsNumber) : Prop :=
  ∃ n : Nat, 1 ≤ n ∧ n ≤ cap ∧ m = .finite n

/-- A group with an id of the wire, whole minutes of its caps, and no text that only the device
reads as blank. -/
structure NamedGroup.Sound (g : NamedGroup) : Prop where
  id : isWireBucketId g.id = true
  daily : ∀ m ∈ g.dailyMinutes, WholeMinutes maxBucketMinutes m
  weekly : ∀ m ∈ g.weeklyMinutes, WholeMinutes maxBucketWeekMinutes m
  label : isBlank (jsTrim g.label) = false
  apps : ∀ a ∈ cleanTexts g.apps, isBlank a = false

/-- What the wire carries of a counted group. -/
def NamedGroup.sent (g : NamedGroup) : AppBucketRule :=
  ⟨g.id, jsTrim g.label, cleanTexts g.apps, g.dailyMinutes, g.weeklyMinutes⟩

/-- Whether a group's allowance is used up on either axis. -/
def NamedGroup.UsedUp (g : NamedGroup) (s : BucketSpent) : Prop :=
  (∃ n : Nat, g.dailyMinutes = some (.finite n) ∧ n * 60 ≤ s.daySecs) ∨
    ∃ n : Nat, g.weeklyMinutes = some (.finite n) ∧ n * 60 ≤ s.weekSecs

/-- The counted groups with an app. -/
def NamedTimesDraft.caps (draft : NamedTimesDraft) : List NamedGroup :=
  (draft.ofPolicy .counted).filter fun g => !(cleanTexts g.apps).isEmpty

/-- A draft whose counted groups with an app are sound, and of different ids. -/
structure NamedTimesDraft.Sound (draft : NamedTimesDraft) : Prop where
  groups : ∀ g ∈ draft.caps, g.Sound
  distinct : (draft.caps.map (·.id)).Nodup

theorem WholeMinutes.withinCap {cap : Nat} {m : JsNumber} (h : WholeMinutes cap m) :
    m.withinCap cap = true := by
  obtain ⟨n, hlo, hhi, rfl⟩ := h
  refine decide_eq_true ⟨?_, ?_⟩
  · exact_mod_cast hlo
  · exact_mod_cast hhi

theorem readMinutes_finite (q : ℚ) : readMinutes (some (.finite q)) = (readU16 q).map some := rfl

/-- Whole minutes are read as they are. -/
theorem readMinutes_whole {n : Nat} (h : n < 65536) :
    readMinutes (some (.finite n)) = some (some (UInt16.ofNat n)) := by
  have hread : (n : ℚ).den = 1 ∧ 0 ≤ (n : ℚ).num ∧ (n : ℚ).num < 65536 := by
    rw [Rat.den_natCast, Rat.num_natCast]
    omega
  have hint : readU16 n = some (UInt16.ofNat n) := by
    unfold readU16
    rw [if_pos hread, Rat.num_natCast, Int.toNat_natCast]
  rw [readMinutes_finite, hint, Option.map_some]

/-- An axis of whole minutes is read, and used up when it was. -/
theorem readMinutes_axis {cap : Nat} (hcap : cap < 65536) {axis : Option JsNumber}
    (h : ∀ m ∈ axis, WholeMinutes cap m) :
    ∃ read, readMinutes axis = some read ∧ read.isSome = axis.isSome ∧
      read.all (fun m => decide (m ≠ 0 ∧ m.toNat ≤ cap)) = true ∧
      ∀ secs, read.any (fun m => decide (capSecs m ≤ secs)) = true ↔
        ∃ n : Nat, axis = some (.finite n) ∧ n * 60 ≤ secs := by
  cases axis with
  | none => exact ⟨none, rfl, rfl, rfl, fun secs => by simp⟩
  | some m =>
    obtain ⟨n, hlo, hhi, rfl⟩ := h m rfl
    have hsize : (UInt16.ofNat n).toNat = n := by
      rw [UInt16.toNat_ofNat']
      omega
    refine ⟨some (UInt16.ofNat n), readMinutes_whole (by omega), rfl, ?_, fun secs => ?_⟩
    · rw [Option.all_some, decide_eq_true_iff, hsize]
      refine ⟨fun hzero => ?_, hhi⟩
      rw [hzero] at hsize
      exact absurd hsize (by simpa using (by omega : (0 : Nat) ≠ n))
    · rw [Option.any_some, decide_eq_true_iff, capSecs, hsize]
      constructor
      · exact fun hle => ⟨n, rfl, hle⟩
      · rintro ⟨n', hn, hle⟩
        have hsame : (n : ℚ) = n' := JsNumber.finite.inj (Option.some.inj hn)
        have hcast : n = n' := by exact_mod_cast hsame
        rw [hcast]
        exact hle

/-! ## The clause that is sent -/

namespace NamedTimesDraft
variable {draft : NamedTimesDraft}

theorem mem_caps {g : NamedGroup} :
    g ∈ draft.caps ↔ g ∈ draft.groups ∧ g.policy = .counted ∧ cleanTexts g.apps ≠ [] := by
  unfold caps ofPolicy
  rw [List.mem_filter, List.mem_filter, decide_eq_true_iff, Bool.not_eq_true',
    List.isEmpty_eq_false_iff, and_assoc]

theorem length_caps_le (h : AcceptedGroups draft.groups) : draft.caps.length ≤ maxGroupBuckets :=
  (List.length_filter_le ..).trans h.few

/-- An accepted group is sent whole. -/
theorem trimmed_toRule (h : AcceptedGroups draft.groups) {g : NamedGroup}
    (hg : g ∈ draft.groups) : g.toRule.trimmed = g.sent := by
  have hfits : (cleanTexts g.apps).take maxGroupApps = cleanTexts g.apps :=
    List.take_of_length_le ((length_cleanTexts_le g.apps).trans (h.fits g hg))
  unfold NamedGroup.toRule AppBucketRule.trimmed NamedGroup.sent
  rw [hfits, trimTexts_cleanTexts]

/-- Of the accepted counted groups the wire keeps the sound ones with an app. -/
theorem validBucket_sent (h : AcceptedGroups draft.groups) {g : NamedGroup}
    (hg : g ∈ draft.groups) (hcounted : g.policy = .counted)
    (hsound : cleanTexts g.apps ≠ [] → g.Sound) :
    validBucket g.sent = !(cleanTexts g.apps).isEmpty := by
  have hshort : JsMinutes.jsLength (jsTrim g.label) ≤ 32 := h.short g hg hcounted
  unfold validBucket NamedGroup.sent
  dsimp only
  cases hempty : (cleanTexts g.apps).isEmpty with
  | true => simp
  | false =>
    obtain ⟨hid, hdaily, hweekly, -, -⟩ := hsound (List.isEmpty_eq_false_iff.mp hempty)
    have hday : g.dailyMinutes.all (JsNumber.withinCap maxBucketMinutes) = true :=
      (Option.all_eq_true ..).mpr fun m hm => (hdaily m hm).withinCap
    have hweek : g.weeklyMinutes.all (JsNumber.withinCap maxBucketWeekMinutes) = true :=
      (Option.all_eq_true ..).mpr fun m hm => (hweekly m hm).withinCap
    have haxis : (g.dailyMinutes.isSome || g.weeklyMinutes.isSome) = true :=
      Bool.or_eq_true _ _ ▸ h.capped g hg hcounted
    rw [hid, decide_eq_true (h.named g hg), decide_eq_true hshort, hday, hweek, haxis]
    rfl

theorem sent_buckets (h : AcceptedGroups draft.groups) (hsound : draft.Sound)
    (hostname : UrlHost) (prior : PriorClauseState) (issuedAt : UInt64) :
    (bucketsToGrant (groupsToClauses hostname draft prior).buckets issuedAt).buckets =
      draft.caps.map NamedGroup.sent := by
  have hall : (draft.ofPolicy .counted).take maxGroupBuckets = draft.ofPolicy .counted :=
    List.take_of_length_le h.few
  have hmem : ∀ g ∈ draft.ofPolicy .counted, g ∈ draft.groups ∧ g.policy = .counted := by
    intro g hg
    obtain ⟨hg, hpolicy⟩ := List.mem_filter.mp hg
    exact ⟨hg, of_decide_eq_true hpolicy⟩
  show ((draft.bucketRules.map AppBucketRule.trimmed).filter validBucket) = _
  have hsent : draft.bucketRules.map AppBucketRule.trimmed =
      (draft.ofPolicy .counted).map NamedGroup.sent := by
    unfold bucketRules
    rw [hall, List.map_map]
    exact List.map_congr_left fun g hg => trimmed_toRule h (hmem g hg).1
  rw [hsent, List.filter_map, caps]
  congr 1
  refine List.filter_congr fun g hg => ?_
  obtain ⟨hg, hcounted⟩ := hmem g hg
  exact validBucket_sent h hg hcounted fun happs => hsound.groups g (mem_caps.mpr
    ⟨hg, hcounted, happs⟩)

end NamedTimesDraft

/-! ## The clause that is read -/

/-- The ids seen so far stay apart from those to come. -/
theorem validBuckets_of {seen : List String} {bs : List AppBucket}
    (hvalid : ∀ b ∈ bs, b.isValid = true) (hnodup : (bs.map (·.id)).Nodup)
    (hapart : ∀ b ∈ bs, b.id ∉ seen) : validBuckets seen bs = true := by
  induction bs generalizing seen with
  | nil => rfl
  | cons b bs ih =>
    obtain ⟨hfirst, hrest⟩ := List.nodup_cons.mp hnodup
    rw [validBuckets, Bool.and_eq_true, Bool.and_eq_true]
    refine ⟨⟨?_, hvalid b List.mem_cons_self⟩, ih (fun c hc => hvalid c (List.mem_cons_of_mem _ hc))
      hrest fun c hc => ?_⟩
    · rw [Bool.not_eq_true', decide_eq_false_iff_not]
      exact hapart b List.mem_cons_self
    · rw [List.mem_cons, not_or]
      refine ⟨fun hsame => hfirst ?_, hapart c (List.mem_cons_of_mem _ hc)⟩
      have hid : c.id ∈ bs.map (·.id) := List.mem_map_of_mem hc
      rw [hsame] at hid
      exact hid

theorem length_le_jsLength (s : String) : s.length ≤ JsMinutes.jsLength s := by
  unfold JsMinutes.jsLength
  rw [← String.length_toList]
  induction s.toList with
  | nil => exact le_rfl
  | cons c cs ih =>
    rw [List.map_cons, List.sum_cons, List.length_cons]
    split <;> omega

/-- A bucket of the device that carries a group. -/
structure Carries (g : NamedGroup) (b : AppBucket) : Prop where
  id : b.id = g.id
  apps : b.apps = cleanTexts g.apps
  valid : b.isValid = true
  gone : ∀ s, b.gone s = true ↔ g.UsedUp s

/-- The device reads a sound group that was accepted, and takes it. -/
theorem NamedGroup.carried {draft : NamedTimesDraft} (h : AcceptedGroups draft.groups)
    {g : NamedGroup} (hg : g ∈ draft.caps) (hsound : g.Sound) :
    ∃ b, readBucket g.sent = some b ∧ Carries g b := by
  obtain ⟨hmem, hcounted, happs⟩ := NamedTimesDraft.mem_caps.mp hg
  obtain ⟨hid, hdaily, hweekly, hlabel, hseen⟩ := hsound
  obtain ⟨daily, hday, hdaySome, hdayValid, hdayGone⟩ := readMinutes_axis (by decide) hdaily
  obtain ⟨weekly, hweek, hweekSome, hweekValid, hweekGone⟩ := readMinutes_axis (by decide) hweekly
  refine ⟨⟨g.id, jsTrim g.label, cleanTexts g.apps, daily, weekly⟩, ?_, rfl, rfl, ?_, ?_⟩
  · show (readMinutes g.dailyMinutes).bind _ = _
    rw [hday, Option.bind_some]
    show (readMinutes g.weeklyMinutes).map _ = _
    rw [hweek, Option.map_some]
    rfl
  · have hlength : (jsTrim g.label).length ≤ 32 :=
      (length_le_jsLength _).trans (h.short g hmem hcounted)
    have hfits : (cleanTexts g.apps).length ≤ maxBucketApps :=
      (length_cleanTexts_le _).trans (h.fits g hmem)
    have hsome : (cleanTexts g.apps).isEmpty = false := List.isEmpty_eq_false_iff.mpr happs
    have hplain : (cleanTexts g.apps).any isBlank = false := by
      rw [List.any_eq_false]
      exact fun a ha => Bool.not_eq_true _ ▸ hseen a ha
    have haxis : (daily.isSome || weekly.isSome) = true := by
      rw [hdaySome, hweekSome, Bool.or_eq_true]
      exact h.capped g hmem hcounted
    unfold AppBucket.isValid
    dsimp only
    rw [validBucketId_of_wire hid, hlabel, decide_eq_true hlength, hsome, decide_eq_true hfits,
      hplain, haxis, hdayValid, hweekValid]
    rfl
  · intro s
    unfold AppBucket.gone NamedGroup.UsedUp
    rw [Bool.or_eq_true, hdayGone, hweekGone]

/-- The groups' buckets are valid, of the groups' ids, and gone when the groups are used up. -/
theorem carried_all {gs : List NamedGroup} {bs : List AppBucket}
    (h : List.Forall₂ Carries gs bs) :
    (∀ b ∈ bs, b.isValid = true) ∧ bs.map (·.id) = gs.map (·.id) ∧
      ∀ (spent : String → BucketSpent) (app : String),
        (∃ b ∈ bs, app ∈ b.apps ∧ b.gone (spent b.id) = true) ↔
          ∃ g ∈ gs, app ∈ cleanTexts g.apps ∧ g.UsedUp (spent g.id) := by
  induction h with
  | nil => simp
  | @cons g b gs bs hcarries _ ih =>
    obtain ⟨hvalid, hids, hgone⟩ := ih
    obtain ⟨hid, happs, hfirst, hused⟩ := hcarries
    refine ⟨?_, ?_, ?_⟩
    · simpa [hfirst] using hvalid
    · rw [List.map_cons, List.map_cons, hid, hids]
    · intro spent app
      rw [List.exists_mem_cons_iff, List.exists_mem_cons_iff, hgone, hused, hid, happs]

/-- What of a draft reaches the device: the clause that is sent, and what the device makes of it. -/
structure ReachesDevice (draft : NamedTimesDraft) (clause : BucketsClause) : Prop where
  survives : clause.buckets = draft.caps.map NamedGroup.sent
  taken : ∃ body, clause.read = some body ∧ body.isValid = true ∧
    (draft.bucketsEnabled = true → ∀ spent app, app ∈ spentBucketApps body spent ↔
      ∃ g ∈ draft.caps, app ∈ cleanTexts g.apps ∧ g.UsedUp (spent g.id))

/-- One counted group, with counted times on or off. -/
def playDraft (bucketsEnabled : Bool) : NamedTimesDraft :=
  ⟨[⟨"play", "Play", ["com.mojang.minecraftpe"], .counted, some (.finite (60 : Nat)), none⟩], true,
    bucketsEnabled⟩

theorem playDraft_accepted (on : Bool) : namedTimesError (playDraft on).groups = none := by
  cases on <;> decide +kernel

theorem playDraft_sound (on : Bool) : (playDraft on).Sound := by
  have hcaps : (playDraft on).caps = (playDraft on).groups := by
    cases on <;> exact List.filter_eq_self.mpr (by decide +kernel)
  constructor
  · intro g hg
    rw [hcaps] at hg
    obtain rfl := List.mem_singleton.mp hg
    refine ⟨by decide +kernel, ?_, nofun, by decide +kernel, by decide +kernel⟩
    rintro m hm
    exact ⟨60, by decide, by decide, (Option.some.inj hm).symm⟩
  · rw [hcaps]
    exact List.nodup_singleton _

end Kintrinsic
