import Kintrinsic.FrameCodec
import Kintrinsic.GuardianTimes

/-! # The learning clause

The sites and programs that a guardian has named for one child, as they are read from a clause body
and checked, and which of them are in force. -/
namespace Kintrinsic

/-! ## Checks -/

/-- `valid_id`. -/
def validId (id : String) : Bool := !id.toList.isEmpty && id.toList.all isIdChar

/-- `valid_learning_url`. -/
def validLearningUrl (url : String) : Bool :=
  "https://".toList.isPrefixOf url.toList && !url.toList.any fun c => Text.isWhiteSpace c || c == ','

/-- Why an entry is refused. -/
inductive AppFault
  | badId (id : String)
  | siteIncomplete (id : String)
  | badUrl (id url : String)
  | badDomain (id domain : String)
  | nativeIncomplete (id : String)
deriving DecidableEq

/-- A domain of letters, digits, dots and hyphens that is one once it is normalized. -/
def validSiteDomain (d : String) : Bool := d.toList.all isHostChar && (parseDomain d).isSome

/-- `validate_app`. -/
def LearningApp.validate (app : LearningApp) : Except AppFault Unit :=
  if !validId app.id then .error (.badId app.id)
  else match app.kind with
    | .site =>
      let url := app.url.getD ""
      if url = "" ∨ app.domains = [] then .error (.siteIncomplete app.id)
      else if !validLearningUrl url then .error (.badUrl app.id url)
      else match app.domains.find? fun d => !validSiteDomain d with
        | some d => .error (.badDomain app.id d)
        | none => .ok ()
    | .native => if app.exec.getD "" = "" then .error (.nativeIncomplete app.id) else .ok ()

/-- The entries in their order, up to the first that is refused. -/
def validateAll : List LearningApp → Except AppFault Unit
  | [] => .ok ()
  | app :: apps =>
    match app.validate with
    | .error fault => .error fault
    | .ok () => validateAll apps

theorem validateAll_ok {apps : List LearningApp} :
    validateAll apps = .ok () ↔ ∀ app ∈ apps, app.validate = .ok () := by
  induction apps with
  | nil => exact ⟨fun _ app happ => absurd happ List.not_mem_nil, fun _ => rfl⟩
  | cons app apps ih =>
    unfold validateAll
    rw [List.forall_mem_cons]
    cases app.validate with
    | error fault => exact ⟨nofun, fun h => nomatch h.1⟩
    | ok u => exact ⟨fun h => ⟨rfl, ih.mp h⟩, fun h => ih.mpr h.2⟩

/-- `is_free`: an entry that does not say is free. -/
def LearningApp.isFree (a : LearningApp) : Bool := a.free.getD true

/-! ## Reading a body -/

/-- What serde reads the kind from: its name, or its name as the key of a `null`. -/
def LearningAppKind.ofJson : Json → Option LearningAppKind
  | .str "site" => some .site
  | .str "native" => some .native
  | .obj [("site", .null)] => some .site
  | .obj [("native", .null)] => some .native
  | _ => none

/-- A list of texts. -/
def Json.asTexts (v : Json) : Option (List String) := v.asArray.bind (·.mapM Json.asString)

/-- The fields of an entry; the ones behind the kind may be left out. -/
def LearningApp.ofFields (id label kind : Json) (domains url exec trusted free : Option Json) :
    Option LearningApp := do
  some ⟨← id.asString, ← label.asString, ← LearningAppKind.ofJson kind,
    ← domains.elim (some []) Json.asTexts, ← Json.optional Json.asString url,
    ← Json.optional Json.asString exec, ← trusted.elim (some false) Json.asBool,
    ← Json.optional Json.asBool free⟩

/-- What serde reads an entry from: an object, or its fields in order. -/
def LearningApp.ofJson : Json → Option LearningApp
  | .obj fields => do
    LearningApp.ofFields (← fields.lookup "id") (← fields.lookup "label") (← fields.lookup "kind")
      (fields.lookup "domains") (fields.lookup "url") (fields.lookup "exec")
      (fields.lookup "trusted") (fields.lookup "free")
  | .arr (id :: label :: kind :: rest) =>
    if rest.length ≤ 5 then
      LearningApp.ofFields id label kind rest[0]? rest[1]? rest[2]? rest[3]? rest[4]?
    else none
  | _ => none

/-- Why a body is refused: its shape, its version, or one of its entries. -/
inductive ClauseFault
  | badShape
  | badVersion (v : UInt32)
  | badApp (fault : AppFault)
deriving DecidableEq

namespace GrantLearning

def ofFields (v apps : Json) (capMinutes paused : Option Json) (issuedAt : Json) :
    Option GrantLearning := do
  some ⟨← v.asU32, ← (← apps.asArray).mapM LearningApp.ofJson, ← Json.optional Json.asU32 capMinutes,
    ← Json.optional Json.asBool paused, ← issuedAt.asU64⟩

def ofJson : Json → Option GrantLearning
  | .obj fields => do
    ofFields (← fields.lookup "v") (← fields.lookup "apps") (fields.lookup "capMinutes")
      (fields.lookup "paused") (← fields.lookup "issuedAt")
  | .arr [v, apps, capMinutes, paused, issuedAt] =>
    ofFields v apps (some capMinutes) (some paused) issuedAt
  | _ => none

/-- `from_value`. -/
def fromValue (body : Json) : Except ClauseFault GrantLearning :=
  match ofJson body with
  | none => .error .badShape
  | some g =>
    if g.v ≠ 1 then .error (.badVersion g.v)
    else match validateAll g.apps with
      | .error fault => .error (.badApp fault)
      | .ok () => .ok g

/-- `defined_apps`: a clause that is paused still defines the windows that cost time. -/
def definedApps (g : GrantLearning) : List LearningApp :=
  if g.paused.getD false then g.apps.filter fun a => !a.isFree else g.apps

end GrantLearning

end Kintrinsic
