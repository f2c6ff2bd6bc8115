import Mathlib.Data.List.Basic

/-! # A file written from a staged snapshot

The caller stages a snapshot under the lock that guards what it was taken from and writes it later.
One writer at a time, and a write takes the newest snapshot, so that an older one never lands after
a newer one.  A crash leaves what has landed. -/

/-- What is on disk, the newest snapshot not yet taken, the one being written, and whether nothing
is written any more. -/
structure StagedFile (T : Type) where
  disk : T
  pending : Option T
  writing : Option T
  closed : Bool

namespace StagedFile
variable {T : Type} (f : StagedFile T)

/-- A file as it is found. -/
def load (disk : T) : StagedFile T := ⟨disk, none, none, false⟩

def stage (v : T) : StagedFile T := { f with pending := some v }

/-- A flush takes the newest snapshot, when it is its turn to write. -/
def take : StagedFile T :=
  if f.closed || f.writing.isSome then f else { f with pending := none, writing := f.pending }

/-- The write in flight lands. -/
def land : StagedFile T :=
  match f.writing with
  | some v => { f with disk := v, writing := none }
  | none => f

/-- Write what is staged and refuse every later write, once no other write is in flight. -/
def close : StagedFile T :=
  if f.closed || f.writing.isSome then f else ⟨f.pending.getD f.disk, none, none, true⟩

/-- A whole flush, with nothing between. -/
def flush : StagedFile T := f.take.land

/-- The newest snapshot: what the file holds once every write has landed. -/
def newest : T := f.pending.getD (f.writing.getD f.disk)

/-- Every snapshot there is, on disk or on its way. -/
structure All (P : T → Prop) : Prop where
  disk : P f.disk
  pending : ∀ v ∈ f.pending, P v
  writing : ∀ v ∈ f.writing, P v

@[simp] theorem newest_stage (v : T) : (f.stage v).newest = v := rfl

@[simp] theorem newest_take : f.take.newest = f.newest := by
  unfold take
  split
  · rfl
  · rename_i h
    have hidle : f.writing = none := by
      simpa using (not_or.mp (mt (Bool.or_eq_true _ _).mpr h)).2
    unfold newest
    rw [hidle]
    rfl

@[simp] theorem newest_land : f.land.newest = f.newest := by
  unfold land
  split
  · rename_i v hv
    unfold newest
    rw [hv]
    rfl
  · rfl

@[simp] theorem newest_close : f.close.newest = f.newest := by
  unfold close
  split
  · rfl
  · rename_i h
    have hidle : f.writing = none := by
      simpa using (not_or.mp (mt (Bool.or_eq_true _ _).mpr h)).2
    unfold newest
    rw [hidle]
    rfl

variable {f} {P : T → Prop}

theorem All.load {disk : T} (h : P disk) : (load disk).All P :=
  ⟨h, fun _ hv => (nomatch hv), fun _ hv => (nomatch hv)⟩

theorem All.stage (h : f.All P) {v : T} (hv : P v) : (f.stage v).All P := by
  refine ⟨h.disk, ?_, h.writing⟩
  intro u hu
  cases hu
  exact hv

theorem All.take (h : f.All P) : f.take.All P := by
  unfold StagedFile.take
  split
  · exact h
  · exact ⟨h.disk, fun _ hv => (nomatch hv), h.pending⟩

theorem All.land (h : f.All P) : f.land.All P := by
  unfold StagedFile.land
  split
  · rename_i v hv
    exact ⟨h.writing v hv, h.pending, fun _ hv => (nomatch hv)⟩
  · exact h

theorem All.close (h : f.All P) : f.close.All P := by
  unfold StagedFile.close
  split
  · exact h
  · refine ⟨?_, fun _ hv => (nomatch hv), fun _ hv => (nomatch hv)⟩
    cases hp : f.pending with
    | none => exact h.disk
    | some v => exact h.pending v hp

/-! ## What stays once it is written -/

/-- What the file holds once the write in flight has landed. -/
def taken (f : StagedFile T) : T := f.writing.getD f.disk

/-- What a snapshot has, every later one has. -/
structure Climbs (f : StagedFile T) (P : T → Prop) : Prop where
  taken : P f.disk → P f.taken
  newest : P f.taken → P f.newest

theorem Climbs.load {disk : T} : (load disk).Climbs P := ⟨id, id⟩

theorem Climbs.stage (h : f.Climbs P) {v : T} (hv : P f.newest → P v) : (f.stage v).Climbs P :=
  ⟨h.taken, fun htaken => hv (h.newest htaken)⟩

theorem take_of_refused (h : f.closed || f.writing.isSome) : f.take = f := by
  unfold take
  rw [if_pos h]

theorem disk_take : f.take.disk = f.disk := by
  unfold take
  split
  · rfl
  · rfl

/-- A flush that is allowed to take leaves nothing newer behind. -/
theorem taken_take (hopen : f.closed = false) (hidle : f.writing = none) :
    f.take.taken = f.newest := by
  unfold take taken newest
  rw [hopen, hidle]
  rfl

theorem Climbs.take (h : f.Climbs P) : f.take.Climbs P := by
  by_cases hrefused : f.closed || f.writing.isSome
  · rwa [take_of_refused hrefused]
  · obtain ⟨hopen, hidle⟩ := not_or.mp (mt (Bool.or_eq_true _ _).mpr hrefused)
    have htaken := taken_take (Bool.eq_false_iff.mpr hopen) (by simpa using hidle)
    refine ⟨fun hdisk => ?_, fun hnow => ?_⟩
    · rw [disk_take] at hdisk
      rw [htaken]
      exact h.newest (h.taken hdisk)
    · rw [newest_take, ← htaken]
      exact hnow

/-- With no write in flight. -/
theorem taken_of_idle (h : f.writing = none) : f.taken = f.disk := by
  unfold taken
  rw [h]
  rfl

theorem Climbs.taken_take (h : f.Climbs P) (htaken : P f.taken) : P f.take.taken := by
  by_cases hrefused : f.closed || f.writing.isSome
  · rwa [take_of_refused hrefused]
  · obtain ⟨hopen, hidle⟩ := not_or.mp (mt (Bool.or_eq_true _ _).mpr hrefused)
    rw [StagedFile.taken_take (Bool.eq_false_iff.mpr hopen) (by simpa using hidle)]
    exact h.newest htaken

theorem disk_land : f.land.disk = f.taken := by
  unfold land taken
  split
  · rename_i v hv
    rw [hv]
    rfl
  · rename_i hv
    rw [hv]
    rfl

theorem taken_land : f.land.taken = f.taken := by
  unfold land taken
  split
  · rename_i v hv
    rw [hv]
    rfl
  · rfl

theorem Climbs.land (h : f.Climbs P) : f.land.Climbs P := by
  refine ⟨fun hdisk => ?_, fun htaken => ?_⟩
  · rw [disk_land] at hdisk
    rwa [taken_land]
  · rw [taken_land] at htaken
    rw [newest_land]
    exact h.newest htaken

theorem Climbs.close (h : f.Climbs P) : f.close.Climbs P := by
  unfold StagedFile.close
  split
  · exact h
  · exact ⟨id, id⟩

theorem Climbs.disk_close (h : f.Climbs P) (hdisk : P f.disk) : P f.close.disk := by
  have hnewest := h.newest (h.taken hdisk)
  unfold StagedFile.close
  split
  · exact hdisk
  · rename_i hopen
    have hidle : f.writing = none := by
      simpa using (not_or.mp (mt (Bool.or_eq_true _ _).mpr hopen)).2
    unfold StagedFile.newest at hnewest
    rw [hidle] at hnewest
    exact hnewest

theorem Climbs.taken_close (h : f.Climbs P) (htaken : P f.taken) : P f.close.taken := by
  have hnewest := h.newest htaken
  rw [← newest_close] at hnewest
  unfold StagedFile.close at hnewest ⊢
  split
  · exact htaken
  · rename_i hopen
    rw [if_neg hopen] at hnewest
    exact hnewest

end StagedFile
