import Kintrinsic.ConsumedIds

/-! # The clause stores

One slot is two files, the record and beside it the replay floor, written in the order floor,
record.  Reading them back goes through the recovery branches of `floor_of`.  What reading a
file gives is the file: nothing, a value, or an error where it is torn. -/
namespace Kintrinsic

/-- The stored clause of a slot. -/
structure ClauseRec where
  issuedAt : Nat
  json : String
deriving DecidableEq

/-- A slot's replay floor and where it came from. -/
inductive ReplayFloor
  | record (n : Nat)
  | sidecar (n : Nat)
deriving DecidableEq

namespace ReplayFloor

def issuedAt : ReplayFloor → Nat
  | record n => n
  | sidecar n => n

/-- What a new clause must be strictly above; `checked_sub` of one under a sidecar. -/
def verifyBound : ReplayFloor → Option Nat
  | record n => some n
  | sidecar n => if n = 0 then none else some (n - 1)

def admits (f : ReplayFloor) (issuedAt : Nat) : Bool :=
  match f.verifyBound with
  | none => true
  | some b => decide (b < issuedAt)

theorem admits_record (n m : Nat) : (record n).admits m = true ↔ n < m := decide_eq_true_iff

/-- A sidecar lets the clause that raised it in again. -/
theorem admits_sidecar (n m : Nat) : (sidecar n).admits m = true ↔ n ≤ m := by
  unfold admits verifyBound
  by_cases h : n = 0
  · simp [h]
  · simp only [if_neg h, decide_eq_true_eq]
    omega

/-- Nothing below a floor is admitted. -/
theorem le_of_admits {f : ReplayFloor} {m : Nat} (h : f.admits m = true) : f.issuedAt ≤ m := by
  cases f with
  | record n => exact ((admits_record n m).mp h).le
  | sidecar n => exact (admits_sidecar n m).mp h

end ReplayFloor

/-- The two files of a slot, as they read. -/
structure SlotFiles where
  record : Except SysError (Option ClauseRec)
  floor : Except SysError (Option Nat)
deriving DecidableEq

/-- What the writes of one call meet; a crash is a write that fails with all after it. -/
structure SlotIo where
  backfill : Option SysError
  floor : Option SysError
  record : Option SysError
deriving DecidableEq

/-- Every write lands. -/
def SlotIo.ok : SlotIo := ⟨none, none, none⟩

namespace SlotFiles

def empty : SlotFiles := ⟨.ok none, .ok none⟩

variable (f : SlotFiles)

/-- Write the floor from the record, where that succeeds. -/
def backfill (n : Nat) : Option SysError → SlotFiles
  | none => { f with floor := .ok (some n) }
  | some _ => f

/-- `floor_of`: the higher of record and sidecar; a sidecar that is missing, unreadable or too
low is written from the record. -/
def floorOf (io : Option SysError) : Except SysError (Option ReplayFloor) × SlotFiles :=
  match f.record with
  | .ok (some r) =>
    match f.floor with
    | .ok (some n) =>
      if r.issuedAt < n then (.ok (some (.sidecar n)), f)
      else if n = r.issuedAt then (.ok (some (.record n)), f)
      else (.ok (some (.record r.issuedAt)), f.backfill r.issuedAt io)
    | _ => (.ok (some (.record r.issuedAt)), f.backfill r.issuedAt io)
  | .ok none => (.ok none, f)
  | .error e =>
    match f.floor with
    | .ok (some n) => (.ok (some (.sidecar n)), f)
    | _ => (.error e, f)

/-- `put_rec`: the floor is raised before the record is written. -/
def putRec (io : SlotIo) (floor : Option ReplayFloor) (issuedAt : Nat) (json : String) :
    Except SysError Bool × SlotFiles :=
  if floor.any fun fl => !fl.admits issuedAt then (.ok false, f)
  else
    match io.floor with
    | some e => (.error e, f)
    | none =>
      match io.record with
      | some e => (.error e, { f with floor := .ok (some issuedAt) })
      | none => (.ok true, ⟨.ok (some ⟨issuedAt, json⟩), .ok (some issuedAt)⟩)

/-- `put_clause` and `put_child_clause`. -/
def put (io : SlotIo) (issuedAt : Nat) (json : String) : Except SysError Bool × SlotFiles :=
  match f.floorOf io.backfill with
  | (.error e, f) => (.error e, f)
  | (.ok floor, f) => f.putRec io floor issuedAt json

/-- `get_clause` and `get_child_clause`. -/
def get : Except SysError (Option String) := f.record.map fun r => r.map (·.json)

/-- `replay_floor`. -/
def replayFloor (io : Option SysError) : Except SysError (Option ReplayFloor) × SlotFiles :=
  f.floorOf io

/-- `highest_issued_at`. -/
def highestIssuedAt (io : Option SysError) : Except SysError (Option Nat) × SlotFiles :=
  match f.floorOf io with
  | (.error e, f) => (.error e, f)
  | (.ok floor, f) => (.ok (floor.map (·.issuedAt)), f)

end SlotFiles

/-- A child's slots, or the machine-wide ones. -/
inductive ClauseSlot
  | child (subject : PubKey)
  | machine
deriving DecidableEq

/-- Every slot of both stores, by owner and store key. -/
abbrev ClauseFiles := ClauseSlot → Nat → SlotFiles

namespace ClauseFiles

def empty : ClauseFiles := fun _ _ => .empty

variable (files : ClauseFiles)

/-- The stores with one slot's files replaced. -/
def set (slot : ClauseSlot) (key : Nat) (f : SlotFiles) : ClauseFiles :=
  fun s k => if s = slot ∧ k = key then f else files s k

def put (io : SlotIo) (slot : ClauseSlot) (key issuedAt : Nat) (json : String) :
    Except SysError Bool × ClauseFiles :=
  let r := (files slot key).put io issuedAt json
  (r.1, files.set slot key r.2)

def get (slot : ClauseSlot) (key : Nat) : Except SysError (Option String) := (files slot key).get

def replayFloor (io : Option SysError) (slot : ClauseSlot) (key : Nat) :
    Except SysError (Option ReplayFloor) × ClauseFiles :=
  let r := (files slot key).replayFloor io
  (r.1, files.set slot key r.2)

def highestIssuedAt (io : Option SysError) (slot : ClauseSlot) (key : Nat) :
    Except SysError (Option Nat) × ClauseFiles :=
  let r := (files slot key).highestIssuedAt io
  (r.1, files.set slot key r.2)

/-- `clear_for`: a child's whole directory goes, floors and all. -/
def clearFor (subject : PubKey) : ClauseFiles :=
  fun s k => if s = .child subject then .empty else files s k

@[simp] theorem set_self (slot : ClauseSlot) (key : Nat) (f : SlotFiles) :
    files.set slot key f slot key = f := if_pos ⟨rfl, rfl⟩

theorem set_of_ne {files : ClauseFiles} {slot s : ClauseSlot} {key k : Nat} {f : SlotFiles}
    (h : ¬(s = slot ∧ k = key)) : files.set slot key f s k = files s k := if_neg h

/-- A call leaves every slot under another key alone. -/
theorem put_of_key_ne {key k : Nat} (h : k ≠ key) (io : SlotIo) (slot : ClauseSlot) (n : Nat)
    (json : String) (s : ClauseSlot) : (files.put io slot key n json).2 s k = files s k :=
  set_of_ne fun hs => h hs.2

theorem replayFloor_of_key_ne {key k : Nat} (h : k ≠ key) (io : Option SysError)
    (slot s : ClauseSlot) : (files.replayFloor io slot key).2 s k = files s k :=
  set_of_ne fun hs => h hs.2

theorem highestIssuedAt_of_key_ne {key k : Nat} (h : k ≠ key) (io : Option SysError)
    (slot s : ClauseSlot) : (files.highestIssuedAt io slot key).2 s k = files s k :=
  set_of_ne fun hs => h hs.2

end ClauseFiles

/-! ## What a call does to its slot -/

namespace SlotFiles
variable {f f' : SlotFiles} {io : SlotIo} {issuedAt : Nat} {json : String}

/-- **Specification of `floor_of`.**  The record stays as it is, and the sidecar too unless it
is written from the record. -/
theorem floorOf_files (io : Option SysError) : (f.floorOf io).2 = f ∨
    ∃ r, f.record = .ok (some r) ∧ (∀ n, f.floor = .ok (some n) → n < r.issuedAt) ∧
      (f.floorOf io).1 = .ok (some (.record r.issuedAt)) ∧
      (f.floorOf io).2 = { f with floor := .ok (some r.issuedAt) } := by
  unfold floorOf
  split
  · rename_i r hr
    split
    · rename_i n hn
      split
      · exact Or.inl rfl
      split
      · exact Or.inl rfl
      · rename_i hle hne
        cases io with
        | some e => exact Or.inl rfl
        | none =>
          refine Or.inr ⟨r, hr, ?_, rfl, rfl⟩
          intro m hm
          rw [hn] at hm
          cases hm
          omega
    · rename_i hn
      cases io with
      | some e => exact Or.inl rfl
      | none => exact Or.inr ⟨r, hr, fun m hm => absurd hm (hn m), rfl, rfl⟩
  · exact Or.inl rfl
  · split <;> exact Or.inl rfl

theorem floorOf_record (io : Option SysError) : (f.floorOf io).2.record = f.record := by
  rcases f.floorOf_files io with h | ⟨r, -, -, -, h⟩ <;> rw [h]

/-- **A floor is a bound from both files**: no readable record and no readable sidecar is above
it, and a record floor is the record's own. -/
theorem floorOf_bounds {io : Option SysError} {fl : ReplayFloor}
    (h : (f.floorOf io).1 = .ok (some fl)) :
    (∀ r, f.record = .ok (some r) → r.issuedAt ≤ fl.issuedAt ∧
      (fl.issuedAt = r.issuedAt → fl = .record r.issuedAt)) ∧
    (∀ n, f.floor = .ok (some n) → n ≤ fl.issuedAt) ∧ f.record ≠ .ok none := by
  unfold floorOf at h
  split at h
  · rename_i r hr
    rw [hr]
    split at h
    · rename_i n hn
      rw [hn]
      split at h
      · cases h
        simp only [ReplayFloor.issuedAt]
        grind
      split at h
      · cases h
        simp only [ReplayFloor.issuedAt]
        grind
      · cases h
        simp only [ReplayFloor.issuedAt]
        grind
    · rename_i hn
      cases h
      simp only [ReplayFloor.issuedAt]
      grind
  · cases h
  · rename_i e he
    rw [he]
    split at h
    · rename_i n hn
      rw [hn]
      cases h
      simp only [ReplayFloor.issuedAt]
      grind
    · cases h

end SlotFiles
end Kintrinsic
