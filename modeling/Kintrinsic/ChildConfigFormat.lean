import Kintrinsic.ChildConfigFile
import Kintrinsic.LinkProofs
import Kintrinsic.WireTypes

/-! # Writing a child's config

A config is written as an object of the parts that it has.  What is read back has the same subject,
whatever becomes of the rest. -/
namespace Kintrinsic

/-- `to_lowercase`, of a subject. -/
def lowerSubject (s : String) : String := String.ofList (s.toList.map Char.toLower)

theorem boundSubject_eq_self {s : String} (h : boundSubject s = some s) :
    validSubjectHex s = true ∧ lowerSubject s = s := by
  unfold boundSubject at h
  obtain ⟨t, ht, hlower⟩ := Option.map_eq_some_iff.mp h
  obtain ⟨hs, hvalid⟩ := Option.filter_eq_some_iff.mp ht
  obtain rfl := Option.some.inj hs
  exact ⟨hvalid, hlower⟩

/-- A digit of a subject. -/
def subjectChar (c : Char) : Bool :=
  c.isDigit || ('a' ≤ c && c ≤ 'f') || ('A' ≤ c && c ≤ 'F')

theorem subjectChar_ascii {c : Char} (h : subjectChar c = true) : c.toNat < 128 := by
  unfold subjectChar at h
  simp only [Bool.or_eq_true, Bool.and_eq_true, decide_eq_true_eq, Char.isDigit, Char.le_def,
    UInt32.le_iff_toNat_le] at h
  show c.val.toNat < 128
  rcases h with (⟨-, h⟩ | ⟨-, h⟩) | ⟨-, h⟩
  · exact lt_of_le_of_lt h (by decide)
  · exact lt_of_le_of_lt h (by decide)
  · exact lt_of_le_of_lt h (by decide)

/-- A digit is a byte, in either case. -/
theorem subjectChar_toLower {c : Char} (h : subjectChar c = true) :
    c.utf8Size = 1 ∧ subjectChar c.toLower = true ∧ c.toLower.toLower = c.toLower := by
  have hall : ∀ n < 128, subjectChar (Char.ofNat n) = true →
      (Char.ofNat n).utf8Size = 1 ∧ subjectChar (Char.ofNat n).toLower = true ∧
        (Char.ofNat n).toLower.toLower = (Char.ofNat n).toLower := by
    decide +kernel
  have hc := hall c.toNat (subjectChar_ascii h)
  rw [Char.ofNat_toNat] at hc
  exact hc h

/-- A text is a subject when it is of sixty-four digits. -/
theorem validSubjectHex_iff (s : String) :
    validSubjectHex s = true ↔ s.toList.length = 64 ∧ ∀ c ∈ s.toList, subjectChar c = true := by
  unfold validSubjectHex
  rw [Bool.and_eq_true, decide_eq_true_eq, List.all_eq_true]
  have hlen : (∀ c ∈ s.toList, subjectChar c = true) → byteLen s.toList = s.toList.length := by
    intro hall
    unfold byteLen
    rw [List.map_congr_left fun c hc => (subjectChar_toLower (hall c hc)).1, List.map_const',
      List.sum_replicate, smul_eq_mul, mul_one]
  constructor
  · rintro ⟨hbytes, hall⟩
    exact ⟨hlen hall ▸ hbytes, hall⟩
  · rintro ⟨hcount, hall⟩
    exact ⟨(hlen hall).trans hcount, hall⟩

/-- What is bound is bound as itself. -/
theorem boundSubject_of_lower {s : String} (hvalid : validSubjectHex s = true)
    (hlower : lowerSubject s = s) : boundSubject s = some s := by
  unfold boundSubject
  rw [Option.filter_some_pos hvalid, Option.map_some]
  exact congrArg some hlower

theorem boundSubject_idem {t s : String} (h : boundSubject t = some s) :
    boundSubject s = some s := by
  unfold boundSubject at h
  obtain ⟨t', ht, rfl⟩ := Option.map_eq_some_iff.mp h
  obtain ⟨-, hvalid⟩ := Option.filter_eq_some_iff.mp ht
  obtain ⟨hlen, hall⟩ := (validSubjectHex_iff t').mp hvalid
  refine boundSubject_of_lower ((validSubjectHex_iff _).mpr ⟨?_, ?_⟩) ?_
  · rw [String.toList_ofList, List.length_map, hlen]
  · rw [String.toList_ofList, List.forall_mem_map]
    exact fun c hc => (subjectChar_toLower (hall c hc)).2.1
  · unfold lowerSubject
    rw [String.toList_ofList, List.map_map]
    exact congrArg String.ofList
      (List.map_congr_left fun c hc => (subjectChar_toLower (hall c hc)).2.2)

/-- The subject that is minted is bound as it is. -/
theorem boundSubject_hex32 (b : BitVec 256) : boundSubject (hex32 b) = some (hex32 b) := by
  have heach : ∀ k < 16, subjectChar (Hex.digit k) = true ∧
      (Hex.digit k).toLower = Hex.digit k := by decide
  have hspec : ∀ c ∈ Hex.digits 64 b.toNat, subjectChar c = true ∧ c.toLower = c := by
    intro c hc
    by_contra hnone
    refine Hex.notMem_digits (fun k hk heq => hnone ?_) 64 b.toNat hc
    exact heq ▸ heach k hk
  refine boundSubject_of_lower ((validSubjectHex_iff _).mpr ⟨?_, ?_⟩) ?_
  · unfold hex32
    rw [String.toList_ofList, Hex.length_digits]
  · unfold hex32
    rw [String.toList_ofList]
    exact fun c hc => (hspec c hc).1
  · unfold lowerSubject hex32
    rw [String.toList_ofList, List.map_congr_left fun c hc => (hspec c hc).2, List.map_id']

/-- `parse_child_config` and the printing of a config, with what a commit relies on: what is read is
valid, and a valid subject is read back. -/
structure ConfigFormat (Text : Type) where
  read : Text → Option ChildConfig
  write : ChildConfig → Text
  subject_bound : ∀ t c, read t = some c → ∀ s ∈ c.subject, boundSubject s = some s
  limits_valid : ∀ t c, read t = some c → ∀ l ∈ c.limits, l.validate.isOk = true
  read_write : ∀ c, (∀ s ∈ c.subject, boundSubject s = some s) →
    (read (write c)).bind ChildConfig.subject = c.subject

/-! ## The object of a config -/

/-- A `DayWindow` as it is written. -/
def DayWindow.toJson (w : DayWindow) : Json :=
  .obj [("wake", .str w.wake), ("bedtime", .str w.bedtime)]

/-- A `DeviceLimits` as it is written, its last field left off where there is none. -/
def DeviceLimits.toJson (l : DeviceLimits) : Json :=
  .obj ([("tz", .str l.tz), ("wake", .str l.wake), ("bedtime", .str l.bedtime),
    ("dailyMinutes", .int l.dailyMinutes.toNat)] ++
      l.weekend.toList.map fun w => ("weekend", w.toJson))

namespace ChildConfig
variable (learningTo : GrantLearning → Json) (c : ChildConfig)

/-- The parts that there are, each under its key. -/
def fields : List (String × Json) :=
  (c.subject.toList.map fun s => ("subject", Json.str s)) ++
    (c.limits.toList.map fun l => ("limits", l.toJson)) ++
      c.learning.toList.map fun l => ("learning", learningTo l)

theorem nodup_fields : ((c.fields learningTo).map Prod.fst).Nodup := by
  unfold fields
  rcases c with ⟨_ | _, _ | _, _ | _⟩ <;> simp

/-- A config as it is written. -/
def toObject : JsonObject := ⟨c.fields learningTo, c.nodup_fields learningTo⟩

theorem get_subject : (c.toObject learningTo).get "subject" = c.subject.map Json.str := by
  unfold toObject JsonObject.get fields
  rcases c with ⟨_ | _, _ | _, _ | _⟩ <;> simp

/-- The subject is read back. -/
theorem subject_toObject (learningOf : Json → Option GrantLearning)
    (h : ∀ s ∈ c.subject, boundSubject s = some s) :
    (((c.toObject learningTo).parseChildConfig learningOf).bind ChildConfig.subject) =
      c.subject := by
  have hparts : (((c.toObject learningTo).parseChildConfig learningOf).bind
      ChildConfig.subject) =
      (JsonObject.parts ((c.toObject learningTo).parseChildConfig learningOf)).subject := by
    unfold JsonObject.parts
    cases (c.toObject learningTo).parseChildConfig learningOf <;> rfl
  have htext : (c.toObject learningTo).SubjectIsText := by
    unfold JsonObject.SubjectIsText
    rw [get_subject]
    cases c.subject with
    | none => rintro v ⟨⟩
    | some s =>
      rintro v hv
      obtain rfl := Option.some.inj hv
      rfl
  rw [hparts, JsonObject.parts_of_text htext]
  unfold JsonObject.ownParts JsonObject.isStructured JsonObject.ownSubject
  rw [get_subject]
  cases hs : c.subject with
  | none => split_ifs <;> rfl
  | some s => exact h s hs

end ChildConfig

namespace JsonObject
variable (learningOf : Json → Option GrantLearning)

/-- The subject of a config is bound, and its limits are usable. -/
theorem parseChildConfig_sound {o : JsonObject} {c : ChildConfig}
    (h : o.parseChildConfig learningOf = some c) :
    (∀ s ∈ c.subject, boundSubject s = some s) ∧
      ∀ l ∈ c.limits, ∃ l', DeviceLimits.usable l' = some l := by
  have hflat : ∀ c, o.parseFlat = some c → (∀ s ∈ c.subject, boundSubject s = some s) ∧
      ∀ l ∈ c.limits, ∃ l', DeviceLimits.usable l' = some l := by
    intro c hc
    unfold parseFlat flatLimits at hc
    obtain ⟨l, hl, rfl⟩ := Option.map_eq_some_iff.mp hc
    obtain ⟨l', -, hl'⟩ := Option.bind_eq_some_iff.mp hl
    refine ⟨by rintro s ⟨⟩, ?_⟩
    rintro k hk
    obtain rfl := Option.some.inj hk
    exact ⟨l', hl'⟩
  unfold parseChildConfig at h
  split at h
  · exact hflat c h
  · rename_i subject hsubject
    split at h
    · dsimp only at h
      split at h
      · cases h
      · obtain rfl := Option.some.inj h
        constructor
        · intro s hs
          obtain ⟨t, -, ht⟩ := Option.bind_eq_some_iff.mp hs
          exact boundSubject_idem ht
        · intro l hl
          unfold nestedLimits at hl
          obtain ⟨l', -, hl'⟩ := Option.bind_eq_some_iff.mp hl
          exact ⟨l', hl'⟩
    · exact hflat c h

end JsonObject

/-- What a file's text is worth: nothing where it is no object. -/
def readChildConfig (learningOf : Json → Option GrantLearning) (text : Option JsonObject) :
    Option ChildConfig :=
  text.bind (JsonObject.parseChildConfig learningOf)

section Format
variable (learningOf : Json → Option GrantLearning) (learningTo : GrantLearning → Json)

theorem readChildConfig_subject (t : Option JsonObject) (c : ChildConfig)
    (h : readChildConfig learningOf t = some c) : ∀ s ∈ c.subject, boundSubject s = some s := by
  obtain ⟨o, -, ho⟩ := Option.bind_eq_some_iff.mp h
  exact (JsonObject.parseChildConfig_sound learningOf ho).1

theorem readChildConfig_limits (t : Option JsonObject) (c : ChildConfig)
    (h : readChildConfig learningOf t = some c) : ∀ l ∈ c.limits, l.validate.isOk = true := by
  obtain ⟨o, -, ho⟩ := Option.bind_eq_some_iff.mp h
  intro l hl
  obtain ⟨l', hl'⟩ := (JsonObject.parseChildConfig_sound learningOf ho).2 l hl
  exact (Option.filter_eq_some_iff.mp hl').2

theorem readChildConfig_toObject (c : ChildConfig)
    (h : ∀ s ∈ c.subject, boundSubject s = some s) :
    (readChildConfig learningOf (some (c.toObject learningTo))).bind ChildConfig.subject =
      c.subject :=
  c.subject_toObject learningTo learningOf h

/-- The format of the files. -/
def jsonFormat : ConfigFormat (Option JsonObject) where
  read := readChildConfig learningOf
  write c := some (c.toObject learningTo)
  subject_bound := readChildConfig_subject learningOf
  limits_valid := readChildConfig_limits learningOf
  read_write := readChildConfig_toObject learningOf learningTo

end Format

end Kintrinsic
