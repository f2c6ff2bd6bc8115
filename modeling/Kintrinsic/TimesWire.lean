import Kintrinsic.Binary64
import Kintrinsic.JsonText
import Kintrinsic.LearningClause

/-! # Named times on the wire

The guardian checks a set of named times before it is sent, and again when it reads one back; the
device checks what it reads, and one fault drops the whole clause.  The two readings are written
apart, over trimmed texts and over raw ones. -/
namespace Kintrinsic

/-! ## The device's reading -/

def TimePosture.named : String → Option TimePosture
  | "everythingExcept" => some .everythingExcept
  | "onlyThese" => some .onlyThese
  | _ => none

/-- What serde reads a posture from: its name, or its name as the key of a `null`. -/
def TimePosture.ofJson : Json → Option TimePosture
  | .str s => TimePosture.named s
  | .obj [(s, .null)] => TimePosture.named s
  | _ => none

/-- A list that may be left out. -/
def textsOr (v : Option Json) : Option (List String) := v.elim (some []) Json.asTexts

/-- The fields of a time; the ones behind the posture may be left out. -/
def NamedTime.ofFields (id label posture : Json)
    (blockApps unblockApps denySites undenySites apps sites counts : Option Json) :
    Option NamedTime := do
  some ⟨← id.asString, ← label.asString, ← TimePosture.ofJson posture, ← textsOr blockApps,
    ← textsOr unblockApps, ← textsOr denySites, ← textsOr undenySites, ← textsOr apps,
    ← sites.elim (some []) fun v => v.asArray.bind (·.mapM LearningApp.ofJson),
    ← Json.optional Json.asBool counts⟩

/-- What serde reads a time from: an object, or its fields in order. -/
def NamedTime.ofJson : Json → Option NamedTime
  | .obj fields => do
    NamedTime.ofFields (← fields.lookup "id") (← fields.lookup "label") (← fields.lookup "posture")
      (fields.lookup "blockApps") (fields.lookup "unblockApps") (fields.lookup "denySites")
      (fields.lookup "undenySites") (fields.lookup "apps") (fields.lookup "sites")
      (fields.lookup "countsAgainstBudget")
  | .arr (id :: label :: posture :: rest) =>
    if rest.length ≤ 7 then
      NamedTime.ofFields id label posture rest[0]? rest[1]? rest[2]? rest[3]? rest[4]? rest[5]?
        rest[6]?
    else none
  | _ => none

/-- Why a clause is refused. -/
inductive TimesError
  | badShape
  | badVersion (v : Nat)
  | tooMany (n : Nat)
  | badId (id : String)
  | reservedId
  | duplicateId (id : String)
  | badLabel (id : String)
  | notSite (id site : String)
  | badSite (fault : AppFault)
deriving DecidableEq

/-- `valid_time_id`: its length is counted in bytes. -/
def validTimeId (id : String) : Bool :=
  !id.toList.isEmpty && decide (byteLen id.toList ≤ 32) && id.toList.all isIdChar

/-- The sites of one time, up to the first that is refused. -/
def validateSites (id : String) : List LearningApp → Except TimesError Unit
  | [] => .ok ()
  | site :: rest =>
    if site.kind ≠ .site then .error (.notSite id site.id)
    else
      match site.validate with
      | .error fault => .error (.badSite fault)
      | .ok () => validateSites id rest

/-- The checks of one time but its place among the others: of the sites, only those in force. -/
def NamedTime.validate (t : NamedTime) : Except TimesError Unit :=
  if t.label.toList.length = 0 ∨ maxTimeLabelLen < t.label.toList.length then
    .error (.badLabel t.id)
  else if t.posture = .onlyThese then validateSites t.id t.sites
  else .ok ()

/-- The loop of `validate`, over the ids seen so far. -/
def validateTimes : List String → List NamedTime → Except TimesError Unit
  | _, [] => .ok ()
  | seen, t :: ts =>
    if validTimeId t.id = false then .error (.badId t.id)
    else if t.id = freeTimeId then .error .reservedId
    else if t.id ∈ seen then .error (.duplicateId t.id)
    else
      match t.validate with
      | .error fault => .error fault
      | .ok () => validateTimes (t.id :: seen) ts

namespace GrantTimes

def ofFields (v times issuedAt : Json) : Option GrantTimes := do
  some ⟨← Json.asBelow (2 ^ 32) v, ← (← times.asArray).mapM NamedTime.ofJson, ← issuedAt.asU64⟩

def ofJson : Json → Option GrantTimes
  | .obj fields => do
    ofFields (← fields.lookup "v") (← fields.lookup "times") (← fields.lookup "issuedAt")
  | .arr [v, times, issuedAt] => ofFields v times issuedAt
  | _ => none

/-- `validate`. -/
def validate (g : GrantTimes) : Except TimesError Unit :=
  if maxNamedTimes < g.times.length then .error (.tooMany g.times.length)
  else validateTimes [] g.times

/-- `from_value`. -/
def fromValue (body : Json) : Except TimesError GrantTimes :=
  match ofJson body with
  | none => .error .badShape
  | some g =>
    if g.v ≠ 1 then .error (.badVersion g.v)
    else
      match g.validate with
      | .error fault => .error fault
      | .ok () => .ok g

/-- `parse_or_absent`: what does not parse or is refused is absent. -/
def parseOrAbsent (parse : String → Option Json) (json : String) : Option GrantTimes :=
  (parse json).bind fun v => (fromValue v).toOption

end GrantTimes

/-! ## The guardian's reading -/

/-- A list that is text throughout, or not there. -/
def readTexts (v : Option Json) : Option (Option (List String)) :=
  v.elim (some none) fun v => (Json.asTexts v).map some

/-- What `siteFault` asks of the shape of a site. -/
def readSite : Json → Option LearningAppSel
  | .obj fields => do
    let kind ← (← fields.lookup "kind").asString
    let id ← (← fields.lookup "id").asString
    let label ← (← fields.lookup "label").asString
    let url ← (← fields.lookup "url").asString
    let domains ← Json.asTexts (← fields.lookup "domains")
    if kind = "site" then some ⟨id, label, .site, some domains, some url, none, none, none⟩
    else none
  | _ => none

/-- Of the sites only those of the posture in force are looked at. -/
def readSites (posture : TimePosture) (v : Option Json) : Option (Option (List LearningAppSel)) :=
  v.elim (some none) fun v => v.asArray.bind fun elems =>
    if posture = .onlyThese then (elems.mapM readSite).map some else some (some [])

/-- What `namedTimeFault` asks of the shape of a time. -/
def readTime : Json → Option TimeSel
  | .obj fields => do
    let id ← (← fields.lookup "id").asString
    let label ← (← fields.lookup "label").asString
    let posture ← TimePosture.named (← (← fields.lookup "posture").asString)
    some ⟨id, label, posture, ← readTexts (fields.lookup "blockApps"),
      ← readTexts (fields.lookup "unblockApps"), ← readTexts (fields.lookup "denySites"),
      ← readTexts (fields.lookup "undenySites"), ← readTexts (fields.lookup "apps"),
      ← readSites posture (fields.lookup "sites"),
      ← (fields.lookup "countsAgainstBudget").elim (some none) fun v => v.asBool.map some⟩
  | _ => none

section
variable (whole : String → Option Int)

/-- `Number.isInteger`, of a number as `JSON.parse` reads it; one with a fraction or an exponent may
be one too. -/
def readInteger : Json → Option Int
  | .int n =>
    if Binary64.ofNat n.natAbs < 2 ^ 1024 then some (n.sign * Binary64.ofNat n.natAbs) else none
  | .float text => whole text
  | _ => none

/-- `parseGrantTimes`. -/
def parseGrantTimes : Json → Option GrantTimes
  | .obj fields => do
    let v ← readInteger whole (← fields.lookup "v")
    let issuedAt ← readInteger whole (← fields.lookup "issuedAt")
    let times ← (← (← fields.lookup "times").asArray).mapM readTime
    if v ≠ 1 ∨ issuedAt < 0 ∨ timesFault times ≠ none then none
    else some ⟨1, times.map normaliseNamedTime, issuedAt.toNat⟩
  | _ => none

end

/-! ## The guardian's writing -/

/-- The fields that are there. -/
def present (fields : List (String × Option Json)) : List (String × Json) :=
  fields.filterMap fun f => f.2.map (f.1, ·)

def textsJson (list : List String) : Json := .arr (list.map .str)

/-- An empty list is left out. -/
def listField (list : List String) : Option Json :=
  if list = [] then none else some (textsJson list)

def TimePosture.text : TimePosture → String
  | everythingExcept => "everythingExcept"
  | onlyThese => "onlyThese"

def siteJson (a : LearningApp) : Json :=
  .obj [("id", .str a.id), ("label", .str a.label), ("kind", .str "site"),
    ("domains", textsJson a.domains), ("url", .str (a.url.getD ""))]

def NamedTime.fields (t : NamedTime) : List (String × Option Json) :=
  [("id", some (.str t.id)), ("label", some (.str t.label)),
    ("posture", some (.str t.posture.text)), ("blockApps", listField t.blockApps),
    ("unblockApps", listField t.unblockApps), ("denySites", listField t.denySites),
    ("undenySites", listField t.undenySites), ("apps", listField t.apps),
    ("sites", if t.sites = [] then none else some (.arr (t.sites.map siteJson))),
    ("countsAgainstBudget", t.countsAgainstBudget.map Json.bool)]

def NamedTime.toJson (t : NamedTime) : Json := .obj (present t.fields)

def GrantTimes.toJson (g : GrantTimes) : Json :=
  .obj [("v", .int g.v), ("times", .arr (g.times.map NamedTime.toJson)),
    ("issuedAt", .int g.issuedAt)]

end Kintrinsic
