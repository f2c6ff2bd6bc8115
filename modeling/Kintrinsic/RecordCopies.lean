import Kintrinsic.Broker

/-! # Two copies of the records

The requests are kept in memory and on disk.  Ageing out and pruning go through both, and through
the disk as far as it lets them: a file that would not be written or removed stays as it was.
What goes from memory is decided in memory alone. -/
namespace Kintrinsic

open MachineWord

/-! ## The oldest terminal records -/

namespace Records
variable {m : Records}

/-- The terminal records, oldest first. -/
def terminalByAge (m : Records) : List RequestRecord :=
  (m.entries.filter fun r => r.state.isTerminal).insertionSort fun a b => olderFirst a b = true

instance : Std.Total fun a b : RequestRecord => olderFirst a b = true where
  total a b := by
    simp only [olderFirst, Bool.or_eq_true, Bool.and_eq_true, decide_eq_true_eq, beq_iff_eq]
    omega

instance : IsTrans RequestRecord fun a b => olderFirst a b = true where
  trans a b c := by
    simp only [olderFirst, Bool.or_eq_true, Bool.and_eq_true, decide_eq_true_eq, beq_iff_eq]
    omega

theorem terminalByAge_perm (m : Records) :
    m.terminalByAge.Perm (m.entries.filter fun r => r.state.isTerminal) :=
  List.perm_insertionSort _ _

theorem mem_terminalByAge {r : RequestRecord} :
    r ∈ m.terminalByAge ↔ r ∈ m.entries ∧ r.state.isTerminal = true := by
  rw [m.terminalByAge_perm.mem_iff, List.mem_filter]

theorem excess_eq (m : Records) (max : Nat) : m.excess max =
    (m.terminalByAge.take (m.count (·.state.isTerminal) - max)).map RequestRecord.reqId := rfl

theorem nodup_excess (m : Records) (max : Nat) : (m.excess max).Nodup := by
  have hids : (m.terminalByAge.map RequestRecord.reqId).Nodup :=
    (m.terminalByAge_perm.map _).nodup_iff.mpr (m.nodup.sublist (List.filter_sublist.map _))
  exact hids.sublist ((List.take_sublist _ _).map _)

/-- An id in excess is that of a terminal record. -/
theorem exists_of_mem_excess {max : Nat} {id : ReqId} (h : id ∈ m.excess max) :
    ∃ r ∈ m.entries, r.reqId = id ∧ r.state.isTerminal = true := by
  obtain ⟨r, hr, rfl⟩ := List.mem_map.mp h
  obtain ⟨hmem, hterminal⟩ := mem_terminalByAge.mp (List.mem_of_mem_take hr)
  exact ⟨r, hmem, rfl, hterminal⟩

/-- **What is left of the terminal records is no more than the cap**, and all of them if they are
no more. -/
theorem count_removeAll_excess (m : Records) (max : Nat) :
    (m.removeAll (m.excess max)).count (·.state.isTerminal) =
      min (m.count (·.state.isTerminal)) max := by
  have h := @Registry.count_filter_notMem _ _ _ _ m (·.state.isTerminal) _
    (m.nodup_excess max) fun _ hid => exists_of_mem_excess hid
  have hlength : (m.excess max).length = m.count (·.state.isTerminal) - max := by
    have hall : m.terminalByAge.length = m.count (·.state.isTerminal) :=
      m.terminalByAge_perm.length_eq
    rw [excess_eq, List.length_map, List.length_take, hall]
    omega
  rw [hlength] at h
  unfold removeAll
  omega

/-- **What goes is older than what stays.** -/
theorem olderFirst_of_excess {max : Nat} {r r' : RequestRecord} (hr : r ∈ m.entries)
    (hterminal : r.state.isTerminal = true) (hkept : r.reqId ∉ m.excess max)
    (hr' : r' ∈ m.entries) (hgone : r'.reqId ∈ m.excess max) : olderFirst r' r = true := by
  have hsorted : m.terminalByAge.Pairwise fun a b => olderFirst a b = true :=
    List.pairwise_insertionSort _ _
  have hdrop : r ∈ m.terminalByAge.drop (m.count (·.state.isTerminal) - max) := by
    have hall : r ∈ m.terminalByAge := mem_terminalByAge.mpr ⟨hr, hterminal⟩
    rw [← List.take_append_drop (m.count (·.state.isTerminal) - max) m.terminalByAge] at hall
    refine (List.mem_append.mp hall).resolve_left fun htake => hkept ?_
    exact List.mem_map_of_mem htake
  obtain ⟨a, ha, hid⟩ := List.mem_map.mp hgone
  have hmem := (mem_terminalByAge.mp (List.mem_of_mem_take ha)).1
  obtain rfl : a = r' := List.inj_on_of_nodup_map m.nodup hmem hr' hid
  exact hsorted.rel_of_mem_take_of_mem_drop ha hdrop

/-- Removing one by one. -/
theorem foldl_remove (m : Records) (ids : List ReqId) :
    ids.foldl (fun m id => m.remove id) m = m.removeAll ids := by
  induction ids generalizing m with
  | nil =>
    unfold removeAll Registry.filter
    simp
  | cons id ids ih =>
    rw [List.foldl_cons, ih]
    unfold removeAll Registry.remove Registry.filter
    congr 1
    rw [List.filter_filter]
    refine List.filter_congr fun r _ => ?_
    simp only [List.mem_cons, not_or, Bool.decide_and, ne_eq]
    exact Bool.and_comm _ _

end Records

/-! ## The copies -/

/-- The records in memory, and those on disk. -/
structure RecordCopies where
  memory : Records
  disk : Records

/-- The ids whose file would not be written, and those whose file would not be removed. -/
structure DiskFaults where
  put : ReqId → Bool
  remove : ReqId → Bool

def DiskFaults.none : DiskFaults := ⟨fun _ => false, fun _ => false⟩

namespace RecordCopies

/-- One round of the loop of `prune_terminal_records`. -/
def evict (faults : DiskFaults) (c : RecordCopies) (id : ReqId) : RecordCopies where
  memory := c.memory.remove id
  disk := if faults.remove id then c.disk else c.disk.remove id

/-- `prune_terminal_records`. -/
def pruneTerminalRecords (max : Nat) (faults : DiskFaults) (c : RecordCopies) : RecordCopies :=
  (c.memory.excess max).foldl (evict faults) c

/-- What `expire_stale_pending` does with one record that aged out. -/
def persist (faults : DiskFaults) (c : RecordCopies) (r : RequestRecord) : RecordCopies where
  memory := c.memory
  disk := if faults.put r.reqId then c.disk else c.disk.put r

/-- `expire_stale_pending`, before it prunes. -/
def expireStale (now : Nat) (faults : DiskFaults) (c : RecordCopies) : RecordCopies :=
  (c.memory.expired now).entries.foldl (persist faults) { c with memory := c.memory.age now }

/-- `expire_stale_pending`; it prunes only where something aged out. -/
def expireStalePending (now : Nat) (faults : DiskFaults) (c : RecordCopies) : RecordCopies :=
  if (c.memory.expired now).entries = [] then c
  else (c.expireStale now faults).pruneTerminalRecords maxTerminalRecords faults

/-- Memory and disk hold the same records. -/
def InStep (c : RecordCopies) : Prop := ∀ id, c.memory.get? id = c.disk.get? id

variable {c : RecordCopies} {faults : DiskFaults} {now : Nat}

theorem foldl_evict (faults : DiskFaults) (c : RecordCopies) (ids : List ReqId) :
    ids.foldl (evict faults) c =
      ⟨c.memory.removeAll ids, c.disk.removeAll (ids.filter fun id => !faults.remove id)⟩ := by
  rw [← Records.foldl_remove, ← Records.foldl_remove]
  induction ids generalizing c with
  | nil => rfl
  | cons id ids ih =>
    rw [List.foldl_cons, ih, List.filter_cons]
    cases h : faults.remove id <;> simp [evict, h]

theorem foldl_persist_memory (faults : DiskFaults) (c : RecordCopies) (l : List RequestRecord) :
    (l.foldl (persist faults) c).memory = c.memory := by
  induction l generalizing c with
  | nil => rfl
  | cons r l ih => exact ih _

theorem foldl_persist_disk (faults : DiskFaults) (c : RecordCopies) (l : List RequestRecord) :
    (l.foldl (persist faults) c).disk =
      (l.filter fun r => !faults.put r.reqId).foldl Registry.put c.disk := by
  induction l generalizing c with
  | nil => rfl
  | cons r l ih =>
    rw [List.foldl_cons, ih, List.filter_cons]
    cases h : faults.put r.reqId <;> simp [persist, h]

/-- With a disk that obeys, this is what the broker does. -/
theorem pruneTerminal_eq (s : Device) :
    (⟨s.pruneTerminal.broker.requests, s.pruneTerminal.disk.pending⟩ : RecordCopies) =
      (⟨s.broker.requests, s.disk.pending⟩ : RecordCopies).pruneTerminalRecords
        maxTerminalRecords .none := by
  rw [pruneTerminalRecords, foldl_evict]
  simp [Device.pruneTerminal, DiskFaults.none]

theorem expireStale_eq (c : RecordCopies) (now : Nat) (faults : DiskFaults) :
    c.expireStale now faults = ⟨c.memory.age now,
      c.disk.putAll ((c.memory.expired now).filter fun r => !faults.put r.reqId)⟩ := by
  have hmemory := foldl_persist_memory faults { c with memory := c.memory.age now }
    (c.memory.expired now).entries
  have hdisk := foldl_persist_disk faults { c with memory := c.memory.age now }
    (c.memory.expired now).entries
  calc c.expireStale now faults
      = ⟨(c.expireStale now faults).memory, (c.expireStale now faults).disk⟩ := rfl
    _ = _ := by
      unfold expireStale
      rw [hmemory, hdisk]
      rfl

theorem expireStalePending_eq (s : Device) (now : Nat) :
    (⟨(s.expireStalePending now).1.broker.requests,
        (s.expireStalePending now).1.disk.pending⟩ : RecordCopies) =
      (⟨s.broker.requests, s.disk.pending⟩ : RecordCopies).expireStalePending now .none := by
  have hall : ∀ m : Records, (m.filter fun r => !DiskFaults.none.put r.reqId) = m := by
    intro m
    unfold Registry.filter DiskFaults.none
    simp
  unfold Device.expireStalePending expireStalePending
  dsimp only
  split
  · rfl
  · rw [pruneTerminal_eq, expireStale_eq, hall]

/-! ## What a step does to both -/

/-- Whether a step has changed the record under an id. -/
def Touches (c c' : RecordCopies) (id : ReqId) : Prop := c'.memory.get? id ≠ c.memory.get? id

/-- The disk follows the memory where its file accesses succeed, and is left alone elsewhere. -/
def Follows (fails : ReqId → Bool) (c c' : RecordCopies) : Prop :=
  (∀ id, c.Touches c' id → fails id = false → c'.disk.get? id = c'.memory.get? id) ∧
    ∀ id, ¬(c.Touches c' id ∧ fails id = false) → c'.disk.get? id = c.disk.get? id

/-- Ageing out: exactly the pending records that are past their time. -/
structure AgesOut (now : Nat) (faults : DiskFaults) (c c' : RecordCopies) : Prop where
  memory : ∀ id, c'.memory.get? id = (c.memory.get? id).map fun r =>
    if r.state = .pending ∧ addU64 r.createdAt pendingTtlSecs ≤ now then
      { r with state := .expired }
    else r
  disk : c.Follows faults.put c'

/-- Pruning: the oldest of the terminal records, until the cap is met. -/
structure Prunes (max : Nat) (faults : DiskFaults) (c c' : RecordCopies) : Prop where
  gone : ∀ id, c.Touches c' id → c'.memory.get? id = none
  live : ∀ id r, c.memory.get? id = some r → r.state.isTerminal = false →
    c'.memory.get? id = some r
  count : c'.memory.count (fun r => r.state.isTerminal) =
    min (c.memory.count fun r => r.state.isTerminal) max
  newest : ∀ r r', c'.memory.get? r.reqId = some r → r.state.isTerminal = true →
    c.memory.get? r'.reqId = some r' → c'.memory.get? r'.reqId = none →
    Records.olderFirst r' r = true
  disk : c.Follows faults.remove c'

/-- Two copies in step are apart after it exactly where the disk did not follow. -/
theorem Follows.agree_iff {fails : ReqId → Bool} {c' : RecordCopies} (h : c.Follows fails c')
    (hc : c.InStep) (id : ReqId) :
    c'.memory.get? id = c'.disk.get? id ↔ ¬(c.Touches c' id ∧ fails id = true) := by
  by_cases htouch : c.Touches c' id
  · cases hfails : fails id with
    | false => simp [h.1 id htouch hfails]
    | true =>
      have hdisk : c'.disk.get? id = c.memory.get? id :=
        (h.2 id (by simp [hfails])).trans (hc id).symm
      rw [hdisk]
      exact iff_of_false htouch (by simp [htouch])
  · have hdisk : c'.disk.get? id = c.memory.get? id :=
      (h.2 id (by simp [htouch])).trans (hc id).symm
    rw [hdisk]
    exact iff_of_true (not_not.mp htouch) (by simp [htouch])

theorem agesOut_expireStale (c : RecordCopies) (now : Nat) (faults : DiskFaults) :
    c.AgesOut now faults (c.expireStale now faults) := by
  have haged : ∀ r : RequestRecord, r.aged now =
      if r.state = .pending ∧ addU64 r.createdAt pendingTtlSecs ≤ now then
        { r with state := .expired } else r := by
    intro r
    unfold RequestRecord.aged RequestRecord.isStale
    simp only [Bool.and_eq_true, beq_iff_eq, decide_eq_true_eq]
    split
    · rename_i h
      simp [RequestRecord.after, transition, h.1]
    · rfl
  have htouch : ∀ id, c.Touches (c.expireStale now faults) id ↔
      ∃ r, c.memory.get? id = some r ∧ r.isStale now = true := by
    intro id
    unfold Touches
    rw [expireStale_eq]
    dsimp only
    rw [Records.get?_age]
    cases hr : c.memory.get? id with
    | none => simp
    | some r =>
      rw [Option.map_some, ne_eq, Option.some.injEq]
      unfold RequestRecord.aged
      by_cases hstale : r.isStale now = true
      · have hpending : r.state = .pending := by
          unfold RequestRecord.isStale at hstale
          simp only [Bool.and_eq_true, beq_iff_eq] at hstale
          exact hstale.1
        have hexpired : (r.after .expire).state = .expired := by
          simp [RequestRecord.after, transition, hpending]
        rw [if_pos hstale]
        refine iff_of_true (fun heq => ?_) ⟨r, rfl, hstale⟩
        rw [heq, hpending] at hexpired
        cases hexpired
      · simp [hstale]
  have hdisk : ∀ id, (c.expireStale now faults).disk.get? id =
      ((((c.memory.get? id).filter (·.isStale now)).map (·.after .expire)).filter
        fun r => !faults.put r.reqId).or (c.disk.get? id) := by
    intro id
    rw [expireStale_eq]
    dsimp only
    rw [Registry.get?_putAll, Registry.get?_filter, Records.get?_expired]
  refine ⟨fun id => ?_, fun id hid hput => ?_, fun id hid => ?_⟩
  · rw [expireStale_eq]
    dsimp only
    rw [Records.get?_age]
    exact congrArg (fun f => (c.memory.get? id).map f) (funext haged)
  · obtain ⟨r, hr, hstale⟩ := (htouch id).mp hid
    have hkey : r.reqId = id := Registry.key_of_get? hr
    rw [hdisk, expireStale_eq]
    dsimp only
    rw [Records.get?_age, hr]
    simp [hstale, RequestRecord.aged, hkey, hput]
  · rw [hdisk]
    cases hr : c.memory.get? id with
    | none => rfl
    | some r =>
      have hkey : r.reqId = id := Registry.key_of_get? hr
      by_cases hstale : r.isStale now = true
      · have hput : faults.put id = true := by
          by_contra hput
          exact hid ⟨(htouch id).mpr ⟨r, hr, hstale⟩, by simpa using hput⟩
        have hkept : (!faults.put (r.after .expire).reqId) = false := by
          simp [hkey, hput]
        rw [Option.filter_some_pos hstale, Option.map_some,
          Option.filter_some_neg (p := fun r : RequestRecord => !faults.put r.reqId) hkept]
        rfl
      · rw [Option.filter_some_neg (by simpa using hstale)]
        rfl

theorem prunes_pruneTerminalRecords (c : RecordCopies) (max : Nat) (faults : DiskFaults) :
    c.Prunes max faults (c.pruneTerminalRecords max faults) := by
  have hmemory : ∀ id, (c.pruneTerminalRecords max faults).memory.get? id =
      if id ∈ c.memory.excess max then none else c.memory.get? id := by
    intro id
    rw [pruneTerminalRecords, foldl_evict]
    exact Records.get?_removeAll _
  have hdisk : ∀ id, (c.pruneTerminalRecords max faults).disk.get? id =
      if id ∈ c.memory.excess max ∧ faults.remove id = false then none else c.disk.get? id := by
    intro id
    rw [pruneTerminalRecords, foldl_evict]
    dsimp only
    rw [Records.get?_removeAll]
    simp only [List.mem_filter, Bool.not_eq_true']
  have hexcess : ∀ id, id ∈ c.memory.excess max →
      ∃ r, c.memory.get? id = some r ∧ r.state.isTerminal = true := by
    intro id hid
    obtain ⟨r, hr, hkey, hterminal⟩ := Records.exists_of_mem_excess hid
    exact ⟨r, Registry.get?_eq_some.mpr ⟨hr, hkey⟩, hterminal⟩
  have htouch : ∀ id, c.Touches (c.pruneTerminalRecords max faults) id ↔
      id ∈ c.memory.excess max := by
    intro id
    unfold Touches
    rw [hmemory]
    by_cases hid : id ∈ c.memory.excess max
    · obtain ⟨r, hr, -⟩ := hexcess id hid
      rw [if_pos hid, hr]
      exact iff_of_true (Option.some_ne_none r).symm hid
    · rw [if_neg hid]
      exact iff_of_false (fun h => h rfl) hid
  refine ⟨fun id hid => ?_, fun id r hr hlive => ?_, ?_, fun r r' hr hterminal hr' hgone => ?_,
    fun id hid hremove => ?_, fun id hid => ?_⟩
  · rw [hmemory, if_pos ((htouch id).mp hid)]
  · rw [hmemory, if_neg, hr]
    intro hid
    rw [Records.terminal_of_mem_excess hid hr] at hlive
    cases hlive
  · rw [pruneTerminalRecords, foldl_evict]
    exact Records.count_removeAll_excess c.memory max
  · rw [hmemory] at hr hgone
    split at hr
    · cases hr
    rename_i hkept
    have hout : r'.reqId ∈ c.memory.excess max := by
      by_contra hin
      rw [if_neg hin, hr'] at hgone
      cases hgone
    exact Records.olderFirst_of_excess (Registry.get?_eq_some.mp hr).1 hterminal hkept
      (Registry.get?_eq_some.mp hr').1 hout
  · have hin := (htouch id).mp hid
    rw [hdisk, hmemory, if_pos hin, if_pos ⟨hin, hremove⟩]
  · rw [hdisk, if_neg]
    rintro ⟨hin, hremove⟩
    exact hid ⟨(htouch id).mpr hin, hremove⟩

/-- **Ageing out, pruning and the two copies.**  Exactly the pending records past their time are
turned to expired; what is pruned are the oldest terminal records past the cap; and the disk
follows, so that copies that were in step are apart only where a file access failed. -/
theorem records_agreement (c : RecordCopies) (now max : Nat) (faults : DiskFaults) :
    c.AgesOut now faults (c.expireStale now faults) ∧
      c.Prunes max faults (c.pruneTerminalRecords max faults) ∧
      (c.InStep →
        (∀ id, (c.expireStale now faults).memory.get? id = (c.expireStale now faults).disk.get? id ↔
          ¬(c.Touches (c.expireStale now faults) id ∧ faults.put id = true)) ∧
        (∀ id, (c.pruneTerminalRecords max faults).memory.get? id =
            (c.pruneTerminalRecords max faults).disk.get? id ↔
          ¬(c.Touches (c.pruneTerminalRecords max faults) id ∧ faults.remove id = true)) ∧
        (c.expireStalePending now .none).InStep) := by
  have hages := agesOut_expireStale c now faults
  have hprunes := prunes_pruneTerminalRecords c max faults
  refine ⟨hages, hprunes, fun hc => ⟨hages.disk.agree_iff hc, hprunes.disk.agree_iff hc, ?_⟩⟩
  unfold expireStalePending
  split
  · exact hc
  · have hmid : (c.expireStale now .none).InStep := fun id =>
      ((agesOut_expireStale c now .none).disk.agree_iff hc id).mpr (by simp [DiskFaults.none])
    exact fun id => ((prunes_pruneTerminalRecords _ _ .none).disk.agree_iff hmid id).mpr
      (by simp [DiskFaults.none])

/-! Records on a disk that fails. -/

/-- A record of an ask. -/
def ask (id : Nat) (state : RequestState) (createdAt : Nat) : RequestRecord where
  reqId := ⟨BitVec.ofNat 256 id⟩
  nonce := ⟨0⟩
  op := .timeExtend
  state := state
  createdAt := createdAt
  detail := none
  sourcePath := none
  callerUid := none

/-- As many answered asks as are kept, and one more. -/
def answered : List RequestRecord := (List.range 257).map (ask · .denied 0)

theorem nodup_answered : (answered.map RequestRecord.reqId).Nodup := by
  have hids : answered.map RequestRecord.reqId =
      (List.range 257).map fun i => (⟨BitVec.ofNat 256 i⟩ : ReqId) := List.map_map
  rw [hids]
  refine List.nodup_range.map_on fun i hi j hj heq => ?_
  rw [List.mem_range] at hi hj
  have hnat := congrArg (fun id : ReqId => id.bytes.toNat) heq
  simp only [BitVec.toNat_ofNat] at hnat
  omega

/-- Two copies of the answered asks. -/
def answeredCopies : RecordCopies := ⟨⟨answered, nodup_answered⟩, ⟨answered, nodup_answered⟩⟩

/-- Two copies of one ask that waits. -/
def askedCopies (createdAt : Nat) : RecordCopies :=
  let m : Records := ⟨[ask 0 .pending createdAt], List.nodup_singleton _⟩
  ⟨m, m⟩

/-- What memory and disk say of the first ask. -/
def states (c : RecordCopies) : Option RequestState × Option RequestState :=
  ((c.memory.get? ⟨0⟩).map (·.state), (c.disk.get? ⟨0⟩).map (·.state))

/-- One file too many, and it would not be removed: the copies agree on the ask that is kept. -/
theorem records_agreement_answered :
    answeredCopies.Prunes 256 ⟨fun _ => false, fun _ => true⟩
        (answeredCopies.pruneTerminalRecords 256 ⟨fun _ => false, fun _ => true⟩) ∧
      ((answeredCopies.pruneTerminalRecords 256 ⟨fun _ => false, fun _ => true⟩).memory.get? ⟨1⟩ =
        (answeredCopies.pruneTerminalRecords 256
          ⟨fun _ => false, fun _ => true⟩).disk.get? ⟨1⟩) := by
  obtain ⟨-, hprunes, hagree⟩ :=
    records_agreement answeredCopies 0 256 ⟨fun _ => false, fun _ => true⟩
  refine ⟨hprunes, ((hagree fun _ => rfl).2.1 ⟨1⟩).mpr fun h => h.1 ?_⟩
  decide +kernel

/-- **On a disk that fails**, what aged out still waits there, and what was pruned is still there.
At the last instant of the clock an ask has aged out when it is made. -/
theorem records_agreement_exceptions :
    (askedCopies 0).InStep ∧ answeredCopies.InStep ∧
      states ((askedCopies 0).expireStalePending 86400 ⟨fun _ => true, fun _ => false⟩) =
        (some .expired, some .pending) ∧
      states (answeredCopies.pruneTerminalRecords maxTerminalRecords
        ⟨fun _ => false, fun _ => true⟩) = (none, some .denied) ∧
      states ((askedCopies u64Max).expireStalePending u64Max .none) =
        (some .expired, some .expired) := by
  refine ⟨fun _ => rfl, fun _ => rfl, ?_⟩
  decide +kernel

end RecordCopies

end Kintrinsic
