import Kintrinsic.LocalLimits

/-! # A child's config file

The subject, the limits and the learning part of a file are recovered each on its own, except
that the three keys are first read as one object: a subject that is of no text type fails that
read, and the file is then taken for the flat one of an older version. -/
namespace Kintrinsic

/-- A JSON value; an object's keys are distinct. -/
inductive Json
  | null
  | bool (b : Bool)
  | int (n : Int)
  | float (text : String)
  | str (s : String)
  | arr (elems : List Json)
  | obj (fields : List (String × Json))

namespace Json

def asString : Json → Option String
  | .str s => some s
  | _ => none

def asBool : Json → Option Bool
  | .bool b => some b
  | _ => none

def asU32 : Json → Option UInt32
  | .int n => if 0 ≤ n ∧ n < 2 ^ 32 then some (UInt32.ofNat n.toNat) else none
  | _ => none

/-- A value that is there and not `null`. -/
def nonNull : Option Json → Option Json
  | none => none
  | some .null => none
  | some v => some v

/-- A field of an `Option` type: what is not there or `null` decodes to `none`. -/
def optional {α : Type} (decode : Json → Option α) (v : Option Json) : Option (Option α) :=
  match nonNull v with
  | none => some none
  | some v => (decode v).map some

end Json

/-- The text of a file: one object. -/
structure JsonObject where
  fields : List (String × Json)
  nodup : (fields.map Prod.fst).Nodup

def JsonObject.get (o : JsonObject) (key : String) : Option Json := o.fields.lookup key

/-- What serde reads a `DayWindow` from: an object, or its fields in order. -/
def DayWindow.ofJson : Json → Option DayWindow
  | .obj fields => do
    let wake ← (← fields.lookup "wake").asString
    let bedtime ← (← fields.lookup "bedtime").asString
    some ⟨wake, bedtime⟩
  | .arr [wake, bedtime] => do
    let wake ← wake.asString
    let bedtime ← bedtime.asString
    some ⟨wake, bedtime⟩
  | _ => none

namespace DeviceLimits

/-- A `DeviceLimits` from the values of its fields. -/
def ofValues (tz wake bedtime dailyMinutes : Json) (weekend : Option Json) :
    Option DeviceLimits := do
  let tz ← tz.asString
  let wake ← wake.asString
  let bedtime ← bedtime.asString
  let dailyMinutes ← dailyMinutes.asU32
  let weekend ← Json.optional DayWindow.ofJson weekend
  some ⟨tz, wake, bedtime, dailyMinutes, weekend⟩

def ofFields (fields : List (String × Json)) : Option DeviceLimits := do
  let tz ← fields.lookup "tz"
  let wake ← fields.lookup "wake"
  let bedtime ← fields.lookup "bedtime"
  let dailyMinutes ← fields.lookup "dailyMinutes"
  ofValues tz wake bedtime dailyMinutes (fields.lookup "weekend")

/-- What serde reads a `DeviceLimits` from; the last field may be left off. -/
def ofJson : Json → Option DeviceLimits
  | .obj fields => ofFields fields
  | .arr [tz, wake, bedtime, dailyMinutes] => ofValues tz wake bedtime dailyMinutes none
  | .arr [tz, wake, bedtime, dailyMinutes, weekend] =>
    ofValues tz wake bedtime dailyMinutes (some weekend)
  | _ => none

/-- `repaired`, and kept if valid. -/
def usable (d : DeviceLimits) : Option DeviceLimits :=
  (some d.dropInvertedWindows.1).filter fun d => d.validate.isOk

end DeviceLimits

structure ChildConfig where
  subject : Option String
  limits : Option DeviceLimits
  learning : Option GrantLearning
deriving DecidableEq

def ChildConfig.empty : ChildConfig := ⟨none, none, none⟩

/-- `valid_subject_hex`. -/
def validSubjectHex (s : String) : Bool :=
  decide (byteLen s.toList = 64) && s.toList.all fun c =>
    c.isDigit || ('a' ≤ c && c ≤ 'f') || ('A' ≤ c && c ≤ 'F')

/-- A subject that is kept. -/
def boundSubject (s : String) : Option String :=
  ((some s).filter validSubjectHex).map fun s => String.ofList (s.toList.map Char.toLower)

namespace JsonObject
variable (learningOf : Json → Option GrantLearning) (o : JsonObject)

/-- The document as a flat `DeviceLimits`. -/
def flatLimits : Option DeviceLimits := (DeviceLimits.ofFields o.fields).bind DeviceLimits.usable

/-- The limits under their key. -/
def nestedLimits : Option DeviceLimits :=
  ((Json.nonNull (o.get "limits")).bind DeviceLimits.ofJson).bind DeviceLimits.usable

def nestedLearning : Option GrantLearning := (Json.nonNull (o.get "learning")).bind learningOf

/-- The legacy flat document. -/
def parseFlat : Option ChildConfig := o.flatLimits.map fun d => ⟨none, some d, none⟩

/-- `parse_child_config`.  Of the three keys only the subject has a type to fail. -/
def parseChildConfig : Option ChildConfig :=
  match Json.optional Json.asString (o.get "subject") with
  | none => o.parseFlat
  | some subject =>
    if subject.isSome || (Json.nonNull (o.get "limits")).isSome ||
        (Json.nonNull (o.get "learning")).isSome then
      let subject := subject.bind boundSubject
      let limits := o.nestedLimits
      let learning := o.nestedLearning learningOf
      if subject.isNone && limits.isNone && learning.isNone then none
      else some ⟨subject, limits, learning⟩
    else o.parseFlat

/-! ## Each part by itself -/

/-- Whether the document has one of the three keys. -/
def isStructured : Bool :=
  (Json.nonNull (o.get "subject")).isSome || (Json.nonNull (o.get "limits")).isSome ||
    (Json.nonNull (o.get "learning")).isSome

/-- The subject as its own value has it. -/
def ownSubject : Option String :=
  ((Json.nonNull (o.get "subject")).bind Json.asString).bind boundSubject

/-- **What each part is worth by its own value**: under its key in a structured document, and in a
flat one the limits that the document is. -/
def ownParts : ChildConfig :=
  if o.isStructured then ⟨o.ownSubject, o.nestedLimits, o.nestedLearning learningOf⟩
  else ⟨none, o.flatLimits, none⟩

/-- The subject is not there, `null` or a text, good or bad. -/
def SubjectIsText : Prop := ∀ v ∈ Json.nonNull (o.get "subject"), v.asString.isSome = true

/-- The parts of a result; a file that holds nothing usable has none. -/
def parts (config : Option ChildConfig) : ChildConfig := config.getD .empty

variable {learningOf o}

theorem parts_parseFlat : parts o.parseFlat = ⟨none, o.flatLimits, none⟩ := by
  unfold parseFlat parts
  cases o.flatLimits <;> rfl

/-- A result of no parts is no result. -/
theorem parts_unless_empty (subject : Option String) (limits : Option DeviceLimits)
    (learning : Option GrantLearning) :
    parts (if subject.isNone && limits.isNone && learning.isNone then none
      else some ⟨subject, limits, learning⟩) = ⟨subject, limits, learning⟩ := by
  cases subject <;> cases limits <;> cases learning <;> rfl

/-- A subject that is a text, or none, lets every part through by itself. -/
theorem parts_of_text (h : o.SubjectIsText) :
    parts (o.parseChildConfig learningOf) = o.ownParts learningOf := by
  unfold SubjectIsText at h
  unfold parseChildConfig ownParts isStructured ownSubject Json.optional
  cases hs : Json.nonNull (o.get "subject") with
  | none =>
    dsimp only [Option.isSome_none, Bool.false_or, Option.bind_none]
    split
    · exact parts_unless_empty _ _ _
    · exact parts_parseFlat
  | some v =>
    obtain ⟨s, hv⟩ := Option.isSome_iff_exists.mp (h v hs)
    dsimp only [Option.bind_some]
    rw [hv]
    exact parts_unless_empty _ _ _

/-- Any other subject has the file read as a flat one. -/
theorem parts_of_not_text (h : ¬ o.SubjectIsText) :
    parts (o.parseChildConfig learningOf) = ⟨none, o.flatLimits, none⟩ ∧
      o.ownParts learningOf = ⟨none, o.nestedLimits, o.nestedLearning learningOf⟩ := by
  unfold SubjectIsText at h
  rw [not_forall] at h
  obtain ⟨v, hv⟩ := h
  rw [Classical.not_imp] at hv
  obtain ⟨hs, hnot⟩ := hv
  have hnone : v.asString = none := by simpa using hnot
  rw [Option.mem_def] at hs
  unfold parseChildConfig ownParts isStructured ownSubject Json.optional
  rw [hs]
  dsimp only [Option.bind_some]
  rw [hnone]
  exact ⟨parts_parseFlat, rfl⟩

theorem nodup_subject_limits (subject limits : Json) :
    ([("subject", subject), ("limits", limits)].map Prod.fst).Nodup := by simp

/-- A file of a subject and of an hour a day. -/
def hourADay (subject : Json) : JsonObject where
  fields := [("subject", subject), ("limits", .obj [("tz", .str "UTC"), ("wake", .str "07:00"),
    ("bedtime", .str "20:00"), ("dailyMinutes", .int 60)])]
  nodup := nodup_subject_limits _ _

end JsonObject
end Kintrinsic
