import Kintrinsic.ClauseFloor
import Kintrinsic.EffectRun
import Kintrinsic.FirstSeen
import Kintrinsic.MachineWord
import Kintrinsic.Remaining

/-! # The grace of a stand-down

A device starts the grace of a stand-down when it first sees the id that stands, and pins that
instant in a slot of the clause store, whose floor a new pin has to clear.  The slot holds one
pin, of the id seen last: an id that comes back after another is a first sight again. -/
namespace Kintrinsic

open MachineWord EffectRun FirstSight

/-! ## The clause -/

structure StandDownBody where
  v : Nat
  issuedAt : Nat
  id : String
  expiresAt : Nat
  graceSecs : Nat
deriving DecidableEq

/-- A minute, where the guardian names no warning. -/
def defaultStanddownGraceSecs : Nat := 60

def maxStanddownGraceSecs : Nat := 600

/-- A day and a half: nothing honest stands longer than the rest of a day. -/
def maxStanddownLifeSecs : Nat := 36 * 60 * 60

namespace StandDownBody

/-- `stands`. -/
def stands (b : StandDownBody) (now : Nat) : Bool :=
  if b.v ≠ clauseVersion then false
  else if b.id = "" then false
  -- a lift, by the guardian's own clock
  else if b.expiresAt ≤ b.issuedAt then false
  else if maxStanddownLifeSecs < b.expiresAt - b.issuedAt then false
  else if b.expiresAt ≤ now then false
  else true

/-- The warning owed: the method `grace_secs`. -/
def grace (b : StandDownBody) : Nat :=
  if b.graceSecs = 0 then defaultStanddownGraceSecs else min b.graceSecs maxStanddownGraceSecs

end StandDownBody

/-- The JSON of a stand-down and of a pin.  A pin's `id` is read where it is a string and its
`startedAt` where it is a `u64`; what was written is read back. -/
structure GraceCodec where
  body : String → Option StandDownBody
  pin : String → Option (Option String × Option Nat)
  pinJson : String → Nat → String
  pin_pinJson : ∀ id t, t < 2 ^ 64 → pin (pinJson id t) = some (some id, some t)

/-! ## The slot -/

/-- `STANDDOWN_GRACE_STORE_KEY`. -/
def pinKey : Nat := 101

/-- `clause_key`. -/
def clauseKey : Nat := ClauseKind.standDown.storeKey

variable (codec : GraceCodec) (slot : ClauseSlot) (files : ClauseFiles)

def clauseJson : Option String := (files.get slot clauseKey).toOption.join

def pinJson : Option String := (files.get slot pinKey).toOption.join

/-- `pin_floor`; reading a floor may write a lagging sidecar. -/
def pinFloor (io : Option SysError) : Nat × ClauseFiles :=
  let r := files.highestIssuedAt io slot pinKey
  (r.1.toOption.join.getD 0, r.2)

/-- `put_pin`, with the answer that the source drops. -/
def putPin (issuedAt : Nat) (json : String) : Except SysError Bool × ClauseFiles :=
  files.put .ok slot pinKey issuedAt json

/-- The pinned instant, where the pin is of this id. -/
def pinnedAt (id : String) : Option Nat :=
  match (pinJson slot files).bind codec.pin with
  | some (pinId, startedAt) => if pinId = some id then startedAt else none
  | none => none

/-- A pin write. -/
structure GracePin where
  id : String
  startedAt : Nat
  answer : Except SysError Bool
deriving DecidableEq

/-- `grace_started_at`, with the pin it writes. -/
def graceStartedAt (io : Option SysError) (id : String) (now : Nat) :
    Nat × ClauseFiles × Option GracePin :=
  match pinnedAt codec slot files id with
  | some startedAt => (startedAt, files, none)
  | none =>
    let floor := pinFloor slot files io
    let stamp := max now (addU64 floor.1 1)
    let r := putPin slot floor.2 stamp (codec.pinJson id now)
    (now, r.2, some ⟨id, now, r.1⟩)

/-- The clause that stands. -/
def standing (now : Nat) : Option StandDownBody :=
  ((clauseJson slot files).bind codec.body).filter (·.stands now)

/-- `stand_down_now`, with the pin it writes. -/
def standDownNow (io : Option SysError) (now : Nat) :
    Option StandDown × ClauseFiles × Option GracePin :=
  match standing codec slot files now with
  | none => (none, files, none)
  | some body =>
    let r := graceStartedAt codec slot files io body.id now
    (some ⟨((body.grace - (now - r.1) : Nat) : Int)⟩, r.2)

/-! ## Runs -/

/-- What happens to a device: a look at the stand-down, a delivery, a usage view, a restart of
the process, which keeps nothing but the stores. -/
inductive GraceAction
  | look (now : Nat) (io : Option SysError)
  | deliver (event : NostrEvent) (io : IntakeIo)
  | usageSync (event : NostrEvent) (io : IntakeIo)
  | restart

/-- What is seen of it. -/
inductive GraceEvent
  | pinned (pin : GracePin)
  | stood (body : StandDownBody) (now : Nat) (sd : StandDown)
deriving DecidableEq

variable (crypto : Crypto) (standingCodec : StandingCodec) (link : Link)

/-- One step. -/
def graceStep (files : ClauseFiles) : GraceAction → ClauseFiles × List GraceEvent
  | .look now io =>
    let r := standDownNow codec slot files io now
    let stood := (standing codec slot files now).bind fun b => r.1.map fun sd => .stood b now sd
    (r.2.1, (r.2.2.map GraceEvent.pinned).toList ++ stood.toList)
  | .deliver event io => ((clauseDisposition crypto standingCodec link io files event).2, [])
  | .usageSync event io => ((usageSyncResult crypto standingCodec link io files event).2, [])
  | .restart => (files, [])

/-- The instants at which a run looks. -/
def looksOf (as : List GraceAction) : List Nat :=
  as.filterMap fun
    | .look now _ => some now
    | _ => none

/-- What was seen to stand, and when. -/
def sightings (events : List GraceEvent) : List (String × Nat) :=
  events.filterMap fun
    | .stood b now _ => some (b.id, now)
    | _ => none

def pins (events : List GraceEvent) : List GracePin :=
  events.filterMap fun
    | .pinned p => some p
    | _ => none

/-! ## The pin slot -/

/-- What the pin slot holds after looks at `looks`: nothing, or the last pin under a stamp that
passes no look by more than their number. -/
inductive PinHeld (looks : List Nat) : SlotFiles → Option (String × Nat) → Prop
  | empty : PinHeld looks .empty none
  | pin (id : String) (t stamp : Nat) (ht : t < 2 ^ 64)
      (hstamp : ∃ n ∈ looks, stamp ≤ n + looks.length) :
      PinHeld looks ⟨.ok (some ⟨stamp, codec.pinJson id t⟩), .ok (some stamp)⟩ (some (id, t))

variable {codec slot files} {looks : List Nat} {p : Option (String × Nat)}

theorem PinHeld.look {f : SlotFiles} (h : PinHeld codec looks f p) (now : Nat) :
    PinHeld codec (looks ++ [now]) f p := by
  cases h with
  | empty => exact .empty
  | pin id t stamp ht hstamp =>
    obtain ⟨n, hn, hle⟩ := hstamp
    refine .pin id t stamp ht ⟨n, List.mem_append_left _ hn, ?_⟩
    rw [List.length_append]
    omega

/-- What is pinned is read back for its own id, and nothing for another. -/
theorem PinHeld.pinnedAt (h : PinHeld codec looks (files slot pinKey) p) (id : String) :
    pinnedAt codec slot files id = (p.filter fun q => q.1 = id).map Prod.snd := by
  unfold Kintrinsic.pinnedAt pinJson ClauseFiles.get
  generalize files slot pinKey = f at h
  cases h with
  | empty => rfl
  | pin id' t stamp ht hstamp =>
    change (match codec.pin (codec.pinJson id' t) with
      | some (pinId, startedAt) => if pinId = some id then startedAt else none
      | none => none) = _
    rw [codec.pin_pinJson id' t ht]
    by_cases hid : id' = id
    · simp [hid]
    · simp [hid]

/-- The floor of the pin slot is its stamp, and reading it changes nothing. -/
theorem PinHeld.pinFloor (h : PinHeld codec looks (files slot pinKey) p) (io : Option SysError) :
    (pinFloor slot files io).2 = files ∧
      ((pinFloor slot files io).1 = 0 ∨
        ∃ n ∈ looks, (pinFloor slot files io).1 ≤ n + looks.length) ∧
      ∀ stamp json, (pinFloor slot files io).1 < stamp →
        putPin slot files stamp json =
          (.ok true, files.set slot pinKey ⟨.ok (some ⟨stamp, json⟩), .ok (some stamp)⟩) := by
  have hset : ∀ f, files slot pinKey = f → files.set slot pinKey f = files := by
    rintro f rfl
    exact ClauseFiles.set_same slot pinKey
  unfold Kintrinsic.pinFloor putPin ClauseFiles.highestIssuedAt ClauseFiles.put
  generalize files slot pinKey = f at h hset
  cases h with
  | empty => exact ⟨hset _ rfl, Or.inl rfl, fun stamp json _ => rfl⟩
  | pin id t n ht hstamp =>
    have hfloor : ∀ io, (SlotFiles.mk (.ok (some ⟨n, codec.pinJson id t⟩)) (.ok (some n))).floorOf io =
        (.ok (some (.record n)), ⟨.ok (some ⟨n, codec.pinJson id t⟩), .ok (some n)⟩) := by
      intro io
      simp [SlotFiles.floorOf]
    refine ⟨?_, ?_, ?_⟩
    · unfold SlotFiles.highestIssuedAt
      rw [hfloor]
      exact hset _ rfl
    · unfold SlotFiles.highestIssuedAt
      rw [hfloor]
      exact Or.inr hstamp
    · intro stamp json hlt
      unfold SlotFiles.highestIssuedAt at hlt
      rw [hfloor] at hlt
      have hadmits : (ReplayFloor.record n).admits stamp = true :=
        (ReplayFloor.admits_record n stamp).mpr hlt
      unfold SlotFiles.put
      rw [hfloor]
      simp [SlotFiles.putRec, hadmits, SlotIo.ok]

/-- What a look at a standing id does: nothing, where the pin is of it, or a new pin that the
store takes. -/
inductive GraceCase (codec : GraceCodec) (slot : ClauseSlot) (files : ClauseFiles)
    (looks : List Nat) (p : Option (String × Nat)) (id : String) (now : Nat) :
    Nat × ClauseFiles × Option GracePin → Prop
  | again (t : Nat) (hp : p = some (id, t)) : GraceCase codec slot files looks p id now (t, files, none)
  | first (f : SlotFiles) (hp : ∀ q ∈ p, q.1 ≠ id)
      (hheld : PinHeld codec (looks ++ [now]) f (some (id, now))) :
      GraceCase codec slot files looks p id now
        (now, files.set slot pinKey f, some ⟨id, now, .ok true⟩)

theorem graceStartedAt_cases (h : PinHeld codec looks (files slot pinKey) p) {now : Nat}
    (hnow : ∀ n ∈ looks ++ [now], n + (looks ++ [now]).length < 2 ^ 64) (io : Option SysError)
    (id : String) :
    GraceCase codec slot files looks p id now (graceStartedAt codec slot files io id now) := by
  have hpinned := h.pinnedAt id
  obtain ⟨hfiles, hbound, hput⟩ := h.pinFloor io
  unfold graceStartedAt
  by_cases hid : ∃ q ∈ p, q.1 = id
  · obtain ⟨⟨id', t⟩, rfl, rfl⟩ := hid
    rw [hpinned]
    simp only [Option.filter_some, decide_true, if_true, Option.map_some]
    exact .again t rfl
  · push Not at hid
    have hnone : p.filter (fun q => q.1 = id) = none := by
      rw [Option.filter_eq_none_iff]
      intro q hq
      simpa using hid q hq
    rw [hpinned, hnone]
    dsimp only [Option.map_none]
    have hlast := hnow now (by simp)
    rw [List.length_append, List.length_singleton] at hlast
    -- the floor has room for a stamp above it
    have hroom : (Kintrinsic.pinFloor slot files io).1 + 1 ≤ u64Max := by
      unfold u64Max
      rcases hbound with h0 | ⟨n, hn, hle⟩
      · omega
      · have hn := hnow n (List.mem_append_left _ hn)
        rw [List.length_append, List.length_singleton] at hn
        omega
    rw [hfiles, addU64_of_le hroom, hput _ _ (Nat.lt_of_lt_of_le (Nat.lt_succ_self _)
      (Nat.le_max_right _ _))]
    refine .first _ hid (.pin id now _ (by omega) ?_)
    rw [List.length_append, List.length_singleton]
    rcases hbound with h0 | ⟨n, hn, hle⟩
    · exact ⟨now, by simp, by omega⟩
    · by_cases hmax : (Kintrinsic.pinFloor slot files io).1 + 1 ≤ now
      · exact ⟨now, by simp, by omega⟩
      · exact ⟨n, List.mem_append_left _ hn, by omega⟩

/-! ## What a delivery leaves alone -/

theorem storeKey_ne_pinKey (kind : ClauseKind) : pinKey ≠ kind.storeKey := by
  cases kind <;> decide

variable {crypto standingCodec link}

theorem clauseDisposition_pinSlot (io : IntakeIo) (files : ClauseFiles) (event : NostrEvent)
    (slot : ClauseSlot) :
    (clauseDisposition crypto standingCodec link io files event).2 slot pinKey =
      files slot pinKey := by
  unfold clauseDisposition
  split
  · rfl
  rename_i payload _
  have hne := storeKey_ne_pinKey payload.kind
  have hread := files.replayFloor_of_key_ne hne io.read (payload.slot link) slot
  dsimp only
  split
  · rename_i hres
    rw [hres] at hread
    exact hread
  · rename_i floor files' hres
    rw [hres] at hread
    split
    · rename_i vc _
      have hput := files'.put_of_key_ne hne io.put (payload.slot link) vc.issuedAt vc.body slot
      split <;> rename_i hres <;> rw [hres] at hput <;> exact hput.trans hread
    · exact hread
    · exact hread

theorem usageSyncResult_pinSlot (io : IntakeIo) (files : ClauseFiles) (event : NostrEvent)
    (slot : ClauseSlot) :
    (usageSyncResult crypto standingCodec link io files event).2 slot pinKey =
      files slot pinKey := by
  have hne : pinKey ≠ usageSyncStoreKey := by decide
  unfold usageSyncResult
  split
  · rfl
  rename_i payload _
  have hread := files.highestIssuedAt_of_key_ne hne io.read (.child payload.subject) slot
  split
  · rename_i hres
    rw [hres] at hread
    split <;> exact hread
  · rename_i prev files' hres
    rw [hres] at hread
    split
    · rename_i vs _
      have hput := files'.put_of_key_ne hne io.put (.child payload.subject) vs.ts
        (standingCodec.usageSyncJson vs.payload) slot
      split <;> rename_i hres <;> rw [hres] at hput <;> exact hput.trans hread
    · exact hread
    · exact hread

/-! ## The invariant -/

/-- What is pinned is what was first seen of the last stretch, and every pin was taken. -/
structure GraceInv (codec : GraceCodec) (slot : ClauseSlot) (files : ClauseFiles)
    (as : List GraceAction) (events : List GraceEvent) : Prop where
  held : PinHeld codec (looksOf as) (files slot pinKey) (firsts (sightings events)).getLast?
  taken : pins events = (firsts (sightings events)).map fun s => ⟨s.1, s.2, .ok true⟩

variable {as : List GraceAction} {events : List GraceEvent}

theorem sightings_append (xs ys : List GraceEvent) :
    sightings (xs ++ ys) = sightings xs ++ sightings ys := List.filterMap_append

theorem pins_append (xs ys : List GraceEvent) : pins (xs ++ ys) = pins xs ++ pins ys :=
  List.filterMap_append

theorem looksOf_append (as bs : List GraceAction) : looksOf (as ++ bs) = looksOf as ++ looksOf bs :=
  List.filterMap_append

/-- Nothing is seen, and the pin slot is left alone. -/
theorem GraceInv.stay (h : GraceInv codec slot files as events) {a : GraceAction}
    {files' : ClauseFiles} (hfiles : files' slot pinKey = files slot pinKey) :
    GraceInv codec slot files' (as ++ [a]) (events ++ []) := by
  refine ⟨?_, by rw [List.append_nil]; exact h.taken⟩
  rw [List.append_nil, hfiles, looksOf_append]
  cases a with
  | look now io => exact h.held.look now
  | _ =>
    change PinHeld codec (looksOf as ++ []) _ _
    rw [List.append_nil]
    exact h.held

theorem standDownNow_of_standing {now : Nat} {b : StandDownBody}
    (hstands : standing codec slot files now = some b) (io : Option SysError) :
    standDownNow codec slot files io now =
      (some ⟨((b.grace - (now - (graceStartedAt codec slot files io b.id now).1) : Nat) : Int)⟩,
        (graceStartedAt codec slot files io b.id now).2) := by
  unfold standDownNow
  rw [hstands]

/-- The events of a look at what stands. -/
def lookEvents (b : StandDownBody) (now : Nat) (r : Nat × ClauseFiles × Option GracePin) :
    List GraceEvent :=
  (r.2.2.map GraceEvent.pinned).toList ++ [.stood b now ⟨((b.grace - (now - r.1) : Nat) : Int)⟩]

theorem graceStep_of_standing {now : Nat} {b : StandDownBody}
    (hstands : standing codec slot files now = some b) (io : Option SysError) :
    graceStep codec slot crypto standingCodec link files (.look now io) =
      ((graceStartedAt codec slot files io b.id now).2.1,
        lookEvents b now (graceStartedAt codec slot files io b.id now)) := by
  unfold graceStep
  dsimp only
  rw [standDownNow_of_standing hstands, hstands]
  rfl

theorem sightings_lookEvents (b : StandDownBody) (now : Nat)
    (r : Nat × ClauseFiles × Option GracePin) : sightings (lookEvents b now r) = [(b.id, now)] := by
  unfold lookEvents
  rw [sightings_append]
  cases r.2.2 <;> rfl

/-- **A look at what stands** keeps the pin slot, and starts from the first sight of its stretch. -/
theorem GraceInv.sight (h : GraceInv codec slot files as events) {now : Nat} (io : Option SysError)
    {b : StandDownBody} {r : Nat × ClauseFiles × Option GracePin}
    (hcases : GraceCase codec slot files (looksOf as) (firsts (sightings events)).getLast? b.id now r) :
    GraceInv codec slot r.2.1 (as ++ [.look now io]) (events ++ lookEvents b now r) ∧
      (firsts (sightings (events ++ lookEvents b now r))).getLast? = some (b.id, r.1) := by
  have hlooks : looksOf (as ++ [.look now io]) = looksOf as ++ [now] := looksOf_append _ _
  have hsight := firsts_snoc (sightings events) (b.id, now)
  have hevents := sightings_append events (lookEvents b now r)
  rw [sightings_lookEvents] at hevents
  rw [← hevents] at hsight
  cases hcases with
  | again t hp =>
    -- the last first is of this id
    have hsame : firsts (sightings (events ++ lookEvents b now (t, files, none))) =
        firsts (sightings events) := by
      rw [hsight, see, hp]
      exact if_pos (decide_eq_true rfl)
    refine ⟨⟨?_, ?_⟩, by rw [hsame, hp]⟩
    · rw [hlooks, hsame]
      exact h.held.look now
    · rw [pins_append, hsame, h.taken]
      exact List.append_nil _
  | first f hp hheld =>
    have hnew : firsts (sightings (events ++ lookEvents b now
        (now, files.set slot pinKey f, some ⟨b.id, now, .ok true⟩))) =
          firsts (sightings events) ++ [(b.id, now)] := by
      rw [hsight, see]
      refine if_neg ?_
      intro hany
      cases hlast : (firsts (sightings events)).getLast? with
      | none =>
        rw [hlast] at hany
        cases hany
      | some q =>
        rw [hlast] at hany
        exact hp q hlast (of_decide_eq_true hany)
    refine ⟨⟨?_, ?_⟩, by rw [hnew, List.getLast?_concat]⟩
    · rw [hlooks, hnew, List.getLast?_concat]
      change PinHeld codec _ (files.set slot pinKey f slot pinKey) _
      rw [ClauseFiles.set_self]
      exact hheld
    · rw [pins_append, hnew, List.map_append, h.taken]
      rfl

/-- What stamps need: no look is so late that their number passes the range. -/
def Room (as : List GraceAction) : Prop := ∀ n ∈ looksOf as, n + (looksOf as).length < 2 ^ 64

instance (as : List GraceAction) : Decidable (Room as) :=
  inferInstanceAs (Decidable (∀ n ∈ looksOf as, n + (looksOf as).length < 2 ^ 64))

theorem Room.prefix {bs : List GraceAction} (h : Room (as ++ bs)) : Room as := by
  intro n hn
  have hn' := h n (by rw [looksOf_append]; exact List.mem_append_left _ hn)
  rw [looksOf_append, List.length_append] at hn'
  omega

variable (crypto standingCodec link) in
/-- **Step lemma.** -/
theorem GraceInv.step (h : GraceInv codec slot files as events) {a : GraceAction}
    (hroom : Room (as ++ [a])) :
    GraceInv codec slot (graceStep codec slot crypto standingCodec link files a).1 (as ++ [a])
      (events ++ (graceStep codec slot crypto standingCodec link files a).2) := by
  cases a with
  | look now io =>
    cases hstands : standing codec slot files now with
    | none =>
      have hnone : graceStep codec slot crypto standingCodec link files (.look now io) =
          (files, []) := by
        unfold graceStep standDownNow
        dsimp only
        rw [hstands]
        rfl
      rw [hnone]
      exact h.stay rfl
    | some b =>
      rw [graceStep_of_standing hstands]
      have hlooks : looksOf (as ++ [.look now io]) = looksOf as ++ [now] := looksOf_append _ _
      unfold Room at hroom
      rw [hlooks] at hroom
      exact (h.sight io (graceStartedAt_cases h.held hroom io b.id)).1
  | deliver event io => exact h.stay (clauseDisposition_pinSlot io files event slot)
  | usageSync event io => exact h.stay (usageSyncResult_pinSlot io files event slot)
  | restart => exact h.stay rfl

theorem graceInv_initial (hempty : files slot pinKey = .empty) :
    GraceInv codec slot files [] [] := by
  refine ⟨?_, rfl⟩
  rw [hempty]
  exact .empty

variable (codec crypto standingCodec link) in
/-- **Run lemma.** -/
theorem graceInv_run (hempty : files slot pinKey = .empty) (as : List GraceAction)
    (hroom : Room as) :
    GraceInv codec slot (run (graceStep codec slot crypto standingCodec link) files as).1 as
      (effects (graceStep codec slot crypto standingCodec link) files as) := by
  induction as using List.reverseRecOn with
  | nil => exact graceInv_initial hempty
  | append_singleton as a ih =>
    rw [run_append_singleton, effects_append]
    have hstep := (ih hroom.prefix).step crypto standingCodec link hroom
    rwa [effects_cons, effects_nil, List.append_nil]

/-! ## Runs of a device -/

/-- What was sighted was looked at. -/
theorem looked_of_sighted {s : String × Nat}
    (h : s ∈ sightings (effects (graceStep codec slot crypto standingCodec link) files as)) :
    s.2 ∈ looksOf as := by
  obtain ⟨e, he, hs⟩ := List.mem_filterMap.mp h
  cases e with
  | pinned p => cases hs
  | stood b now sd =>
    obtain rfl := Option.some.inj hs
    obtain ⟨bs, a, cs, rfl, ha⟩ := mem_effects he
    have hnow : now ∈ looksOf [a] := by
      cases a with
      | look now' io =>
        rcases List.mem_append.mp ha with ha | ha
        · obtain ⟨p, -, hp⟩ := Option.map_eq_some_iff.mp (Option.mem_toList.mp ha)
          cases hp
        · obtain ⟨b', -, hb'⟩ := Option.bind_eq_some_iff.mp (Option.mem_toList.mp ha)
          obtain ⟨sd', -, hsd'⟩ := Option.map_eq_some_iff.mp hb'
          cases hsd'
          exact List.mem_singleton_self _
      | _ => cases ha
    rw [← List.singleton_append, looksOf_append, looksOf_append]
    exact List.mem_append_right _ (List.mem_append_left _ hnow)

variable (codec slot crypto standingCodec link) in
/-- What a run keeps of the grace. -/
structure GraceKept (files : ClauseFiles) (as : List GraceAction) : Prop where
  /-- The pins are the first sights of the stretches of one id, and the store took them all. -/
  pinned : Room as →
    pins (effects (graceStep codec slot crypto standingCodec link) files as) =
      (firsts (sightings (effects (graceStep codec slot crypto standingCodec link) files as))).map
        fun s => ⟨s.1, s.2, .ok true⟩
  /-- A look at what stands counts down from the first sight of its stretch. -/
  counted : Room as → (looksOf as).Pairwise (· ≤ ·) →
    ∀ bs now io cs b, as = bs ++ .look now io :: cs →
      let before := run (graceStep codec slot crypto standingCodec link) files bs
      standing codec slot before.1 now = some b →
        ∃ t, SeenSince (sightings (effects (graceStep codec slot crypto standingCodec link) files bs)
            ++ [(b.id, now)]) b.id t ∧
          (standDownNow codec slot before.1 io now).1 = some ⟨max 0 (b.grace - (now - t) : Int)⟩
  /-- Whatever the clock does, no look reports more than the grace. -/
  bounded : ∀ bs now io cs sd, as = bs ++ .look now io :: cs →
    let before := run (graceStep codec slot crypto standingCodec link) files bs
    (standDownNow codec slot before.1 io now).1 = some sd →
      ∃ b, standing codec slot before.1 now = some b ∧ sd.secsUntilLock ≤ b.grace

/-- **The grace of a stand-down.**  In every run of looks, deliveries, usage views and restarts
over a store whose pin slot was empty, an id is pinned when it is first seen since another stood,
the store takes the pin, and every look counts from it. -/
theorem graceKept (files : ClauseFiles) (as : List GraceAction)
    (hempty : files slot pinKey = .empty) :
    GraceKept codec slot crypto standingCodec link files as := by
  refine ⟨fun hroom => (graceInv_run codec crypto standingCodec link hempty as hroom).taken, ?_, ?_⟩
  · rintro hroom hforward bs now io cs b rfl before hstands
    rw [looksOf_append] at hforward
    have hroom' : Room (bs ++ [.look now io]) := by
      rw [← List.singleton_append, ← List.append_assoc] at hroom
      exact hroom.prefix
    have hinv := graceInv_run codec crypto standingCodec link hempty bs hroom'.prefix
    have hlooks : looksOf (bs ++ [.look now io]) = looksOf bs ++ [now] := looksOf_append _ _
    unfold Room at hroom'
    rw [hlooks] at hroom'
    have hlast := (hinv.sight io (graceStartedAt_cases hinv.held hroom' io b.id)).2
    rw [sightings_append, sightings_lookEvents] at hlast
    have hsince := seenSince_of_getLast? hlast
    refine ⟨_, hsince, ?_⟩
    -- the first sight is no later than the look
    have hle : (graceStartedAt codec slot before.1 io b.id now).1 ≤ now := by
      obtain ⟨hs, ts, hsplit, -, -⟩ := hsince
      have hmem : (b.id, (graceStartedAt codec slot before.1 io b.id now).1) ∈
          sightings (effects (graceStep codec slot crypto standingCodec link) files bs) ++
            [(b.id, now)] := by
        rw [hsplit]
        exact List.mem_append_right _ List.mem_cons_self
      rcases List.mem_append.mp hmem with hmem | hmem
      · obtain ⟨-, -, hcross⟩ := List.pairwise_append.mp hforward
        exact hcross _ (looked_of_sighted hmem) now (by simp [looksOf])
      · exact (congrArg Prod.snd (List.mem_singleton.mp hmem)).le
    rw [standDownNow_of_standing hstands]
    generalize (graceStartedAt codec slot before.1 io b.id now).1 = t at hle
    have hcount : ((b.grace - (now - t) : Nat) : Int) = max 0 (b.grace - (now - t) : Int) := by
      omega
    rw [hcount]
  · rintro bs now io cs sd rfl before hsd
    cases hstands : standing codec slot before.1 now with
    | none =>
      unfold standDownNow at hsd
      rw [hstands] at hsd
      cases hsd
    | some b =>
      rw [standDownNow_of_standing hstands] at hsd
      obtain rfl := Option.some.inj hsd
      refine ⟨b, rfl, ?_⟩
      dsimp only
      omega

/-! ## An id that comes back -/

/-- A pin as it is written; the ids at hand need no escapes. -/
def pinText (id : String) (startedAt : Nat) : String :=
  String.ofList ("\x7b\"id\":\"".toList ++ id.toList ++ "\",\"startedAt\":".toList ++
    Nat.toDigits 10 startedAt ++ ['\x7d'])

/-- What such a text says, read from its end. -/
def readPin (s : String) : Option (Option String × Option Nat) :=
  let back := s.toList.reverse.tail
  let id := ((back.dropWhile Char.isDigit).drop 14).reverse.drop 7
  some (some (String.ofList id), some (Nat.ofDigitChars 10 (back.takeWhile Char.isDigit).reverse 0))

theorem readPin_pinText (id : String) (t : Nat) : readPin (pinText id t) = some (some id, some t) := by
  have hdigits : ∀ c ∈ (Nat.toDigits 10 t).reverse, c.isDigit = true := by
    intro c hc
    exact Nat.isDigit_of_mem_toDigits (b := 10) (by decide) (by decide) (List.mem_reverse.mp hc)
  have hback : (pinText id t).toList.reverse.tail = (Nat.toDigits 10 t).reverse ++
      ("\",\"startedAt\":".toList.reverse ++ (id.toList.reverse ++ "\x7b\"id\":\"".toList.reverse)) := by
    unfold pinText
    rw [String.toList_ofList, List.reverse_append, List.reverse_append, List.reverse_append,
      List.reverse_append]
    rfl
  have hskip : ∀ l, (("\",\"startedAt\":".toList.reverse ++ l).dropWhile Char.isDigit).drop 14 = l := by
    intro l
    rfl
  have hstop : ∀ l, ("\",\"startedAt\":".toList.reverse ++ l).takeWhile Char.isDigit = [] := by
    intro l
    rfl
  have hhead : (id.toList.reverse ++ "\x7b\"id\":\"".toList.reverse).reverse.drop 7 = id.toList := by
    rw [← List.reverse_append, List.reverse_reverse]
    rfl
  unfold readPin
  dsimp only
  rw [hback, List.takeWhile_append_of_pos hdigits, List.dropWhile_append_of_pos hdigits, hskip,
    hstop, hhead, List.append_nil, List.reverse_reverse, String.ofList_toList,
    Nat.ofDigitChars_toDigits (by decide) (by decide)]

/-- The body of a stand-down with a minute of grace. -/
def callBody (id : String) (issuedAt expiresAt : Nat) : String :=
  "\x7b\"v\":1,\"issuedAt\":" ++ toString issuedAt ++ ",\"id\":\"" ++ id ++ "\",\"expiresAt\":" ++
    toString expiresAt ++ ",\"graceSecs\":60\x7d"

def callText (id : String) (issuedAt expiresAt : Nat) : String :=
  "\x7b\"v\":1,\"kind\":\"standdown\",\"issuedAt\":" ++ toString issuedAt ++ ",\"body\":" ++
    callBody id issuedAt expiresAt ++ "\x7d"

/-- The calls of the guardian: a first, a second and the first again, and three at the end of the
range of instants. -/
def calls : List (String × Nat × Nat) :=
  [("sd-1", 1000, 5000), ("sd-2", 1010, 5000), ("sd-1", 1020, 5000),
    ("sd-7", 2 ^ 64 - 9, 2 ^ 64 - 1), ("sd-8", 2 ^ 64 - 8, 2 ^ 64 - 1),
    ("sd-9", 2 ^ 64 - 7, 2 ^ 64 - 1)]

def callCodec : StandingCodec where
  clause s :=
    match calls.find? fun c => callText c.1 c.2.1 c.2.2 = s with
    | some c => .ok ⟨1, .standDown, none, c.2.1, callBody c.1 c.2.1 c.2.2⟩
    | none => .error "missing field"
  usageSync _ := .error "missing field"
  release _ := .error "missing field"
  usageSyncJson _ := "\x7b\x7d"
  value s := some s

def callGrace : GraceCodec where
  body s := (calls.find? fun c => callBody c.1 c.2.1 c.2.2 = s).map fun c =>
    ⟨1, c.2.1, c.1, c.2.2, 60⟩
  pin := readPin
  pinJson := pinText
  pin_pinJson id t _ := readPin_pinText id t

/-- The delivery of a call. -/
def called (id : String) (issuedAt expiresAt : Nat) : GraceAction :=
  .deliver ⟨⟨1⟩, ⟨7⟩, 1000, Kinds.charterDeviceClause, [], callText id issuedAt expiresAt, ⟨0⟩⟩ .ok

/-- Looks before and after a restart, and one with the clock set back. -/
def callAndLook : List GraceAction :=
  [called "sd-1" 1000 5000, .look 1001 none, .restart, .look 1031 none, called "sd-2" 1010 5000,
    .look 1031 none, .look 900 none]

theorem graceKept_two_calls :
    GraceKept callGrace (.child ⟨8⟩) genuineCrypto callCodec deviceLink .empty callAndLook ∧
      pins (effects (graceStep callGrace (.child ⟨8⟩) genuineCrypto callCodec deviceLink) .empty
        callAndLook) = [⟨"sd-1", 1001, .ok true⟩, ⟨"sd-2", 1031, .ok true⟩] :=
  ⟨graceKept _ _ rfl, by decide +kernel⟩

/-- **An id that comes back gets its grace again**: seen first at 1001, replaced by another, and
issued once more, it is pinned a second time and the whole minute is owed.  At the end of the
range the stamp cannot pass the floor, and the pin is refused. -/
theorem grace_again :
    let step := graceStep callGrace (.child ⟨8⟩) genuineCrypto callCodec deviceLink
    let again : List GraceAction := [called "sd-1" 1000 5000, .look 1001 none,
      called "sd-2" 1010 5000, .look 1011 none, called "sd-1" 1020 5000]
    let late : List GraceAction := [called "sd-7" (2 ^ 64 - 9) (2 ^ 64 - 1),
      .look (2 ^ 64 - 2) none, called "sd-8" (2 ^ 64 - 8) (2 ^ 64 - 1), .look (2 ^ 64 - 2) none,
      called "sd-9" (2 ^ 64 - 7) (2 ^ 64 - 1), .look (2 ^ 64 - 2) none]
    (pins (effects step .empty (again ++ [.look 1061 none]))).map GracePin.id =
        ["sd-1", "sd-2", "sd-1"] ∧
      (standDownNow callGrace (.child ⟨8⟩) (run step .empty again).1 none 1061).1 = some ⟨60⟩ ∧
      (pins (effects step .empty late)).map GracePin.answer = [.ok true, .ok true, .ok false] := by
  decide +kernel

end Kintrinsic
