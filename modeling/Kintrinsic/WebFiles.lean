import Kintrinsic.ChildConfigFile
import Kintrinsic.WebPolicy
import Mathlib.Data.Finset.Sort
import Mathlib.Data.String.Basic

/-! # The two documents of a web policy

A policy is rendered as a document for the browser and a plan for the resolver.  Both carry a
fingerprint, by which a later run knows its own handwriting from what somebody else put there. -/
namespace Kintrinsic

namespace Json

/-- `get`: the value under a key of an object. -/
def get : Json → String → Option Json
  | .obj fields, key => fields.lookup key
  | _, _ => none

/-- A key that is there and `true`. -/
def isTrue (v : Json) (key : String) : Bool := (v.get key).bind asBool == some true

/-- A key that is there and `false`. -/
def isFalse (v : Json) (key : String) : Bool := (v.get key).bind asBool == some false

def strings (ss : List String) : Json := .arr (ss.map .str)

end Json

/-! ## Fingerprints -/

/-- What a file holds: the JSON value of its text, or a text that is no JSON. -/
inductive FileText
  | json (v : Json)
  | other (text : String)

/-- `read_to_string(..).unwrap_or_default()`: a missing file reads as empty. -/
def readBack (file : Option FileText) : FileText := file.getD (.other "")

/-- `KINTRINSIC_MARKER_KEY`. -/
def kintrinsicMarkerKey : String := "_kintrinsic"

/-- The explicit marker. -/
def Json.isManaged (v : Json) : Bool := (v.get kintrinsicMarkerKey).any (·.isTrue "managed")

/-- `LEGACY_DNS_PLAN_COMMENT_HEADER`: no text that starts so is JSON. -/
def legacyDnsPlanCommentHeader : String :=
  "// kintrinsic-managed: charterd owns this file, do not edit it by hand"

/-- `firefox_policies_is_ours`. -/
def firefoxPoliciesIsOurs : FileText → Bool
  | .other _ => false
  | .json doc =>
    match doc.get "policies" with
    | none => false
    | some policies =>
      policies.isManaged ||
        (policies.isTrue "BlockAboutConfig" && policies.isTrue "DisablePrivateBrowsing" &&
          policies.isTrue "DisableDeveloperTools" && policies.isTrue "DisableSafeMode" &&
          policies.isTrue "DisableTelemetry" && policies.isTrue "DisableFirefoxStudies" &&
          policies.isTrue "DisableEncryptedClientHello" &&
          (policies.get "DNSOverHTTPS").any (·.isFalse "Enabled") &&
          (policies.get "DNSOverHTTPS").any (·.isTrue "Locked"))

/-- The fields of a plan. -/
def dnsPlanFields : List String :=
  ["mode", "allowDomains", "blockDomains", "blockCategories", "allowExceptions", "safeSearch",
    "youtubeRestrict", "rewrites"]

/-- `dns_plan_is_ours`. -/
def dnsPlanIsOurs : FileText → Bool
  | .other text => legacyDnsPlanCommentHeader.toList.isPrefixOf text.toList
  | .json (.obj fields) =>
    (Json.obj fields).isManaged || dnsPlanFields.all fun k => (fields.lookup k).isSome
  | .json _ => false

/-- A file that is missing is nobody's. -/
theorem firefoxPoliciesIsOurs_missing : firefoxPoliciesIsOurs (readBack none) = false := rfl

theorem dnsPlanIsOurs_missing : dnsPlanIsOurs (readBack none) = false := rfl

/-! ## Renderings -/

/-- The domains of a set in the order it is walked in. -/
def inOrder (domains : Finset String) : List String := domains.sort (· ≤ ·)

/-- `host_patterns` of every domain. -/
def patternList (domains : Finset String) : List String :=
  (inOrder domains).flatMap fun d => ["*://" ++ d ++ "/*", "*://*." ++ d ++ "/*"]

/-- The website filter, as JSON; a policy of no posture has none. -/
def websiteFilterJson (policy : EffectiveWebPolicy) : Option Json :=
  if policy.locked then some (.obj [("Block", .strings [allUrls])])
  else
    match policy.posture with
    | some .allowlist => some (.obj [("Block", .strings [allUrls]),
        ("Exceptions", .strings (patternList policy.allowDomains))])
    | some .blocklist => some (.obj [("Block", .strings (patternList policy.blockDomains))])
    | none => none

/-- The static hardening, applied in every state. -/
def hardening : List (String × Json) :=
  [("BlockAboutConfig", .bool true), ("DisablePrivateBrowsing", .bool true),
    ("DisableDeveloperTools", .bool true), ("DisableSafeMode", .bool true),
    ("DisableTelemetry", .bool true), ("DisableFirefoxStudies", .bool true),
    ("DNSOverHTTPS", .obj [("Enabled", .bool false), ("Locked", .bool true)]),
    ("DisableEncryptedClientHello", .bool true),
    ("Preferences", .obj [
      ("network.http.http3.enabled", .obj [("Value", .bool false), ("Status", .str "locked")]),
      ("network.trr.mode", .obj [("Value", .int 5), ("Status", .str "locked")])])]

/-- The marker that is stamped into both documents. -/
def managedMarker : String × Json := (kintrinsicMarkerKey, .obj [("managed", .bool true)])

/-- The browser document that is written for a policy. -/
def policiesDoc (policy : EffectiveWebPolicy) : Json :=
  .obj [("policies", .obj (hardening ++
    (websiteFilterJson policy).toList.map (Prod.mk "WebsiteFilter") ++ [managedMarker]))]

def DnsMode.text : DnsMode → String
  | allowlist => "allowlist"
  | blocklist => "blocklist"
  | unrestricted => "unrestricted"
  | locked => "locked"

def YoutubeRestrict.text : YoutubeRestrict → String
  | off => "off"
  | moderate => "moderate"
  | strict => "strict"

/-- The blocked domains of a plan, the canary last where the policy does not block it itself. -/
def planBlockDomains (policy : EffectiveWebPolicy) : List String :=
  inOrder policy.blockDomains ++ if dohCanary ∈ policy.blockDomains then [] else [dohCanary]

/-- The resolver document that is written for a policy. -/
def planDoc (policy : EffectiveWebPolicy) : Json :=
  let plan := renderDnsFilter policy
  .obj [("mode", .str plan.mode.text), ("allowDomains", .strings (inOrder plan.allowDomains)),
    ("blockDomains", .strings (planBlockDomains policy)),
    ("blockCategories", .strings (inOrder plan.blockCategories)),
    ("allowExceptions", .strings (inOrder plan.allowExceptions)),
    ("safeSearch", .bool plan.safeSearch), ("youtubeRestrict", .str plan.youtubeRestrict.text),
    ("rewrites", .arr (plan.rewrites.map fun r =>
      .obj [("host", .str r.host), ("answer", .str r.answer)])),
    managedMarker]

variable (policy : EffectiveWebPolicy)

/-- The patterns in the document are those of the browser's filter. -/
theorem mem_patternList {domains : Finset String} {pattern : String} :
    pattern ∈ patternList domains ↔ pattern ∈ domains.biUnion hostPatterns := by
  unfold patternList inOrder hostPatterns
  rw [List.mem_flatMap, Finset.mem_biUnion]
  simp only [Finset.mem_sort, List.mem_cons, List.not_mem_nil, or_false, Finset.mem_insert,
    Finset.mem_singleton]

/-- The document has a filter where the browser has one. -/
theorem websiteFilterJson_isSome :
    (websiteFilterJson policy).isSome = (renderFirefoxPolicies policy).isSome := by
  unfold websiteFilterJson renderFirefoxPolicies
  split
  · rfl
  · rcases policy.posture with - | - | - <;> rfl

/-- The blocked domains in the document are those of the plan. -/
theorem mem_planBlockDomains {d : String} :
    d ∈ planBlockDomains policy ↔ d ∈ (renderDnsFilter policy).blockDomains := by
  unfold planBlockDomains renderDnsFilter inOrder
  rw [Finset.mem_insert, List.mem_append, Finset.mem_sort]
  by_cases hin : dohCanary ∈ policy.blockDomains
  · rw [if_pos hin]
    constructor
    · rintro (h | h)
      · exact .inr h
      · cases h
    · rintro (rfl | h)
      · exact .inl hin
      · exact .inl h
  · rw [if_neg hin, List.mem_singleton, or_comm]

/-- **What is written is known again**, in the browser document … -/
theorem firefoxPoliciesIsOurs_doc : firefoxPoliciesIsOurs (.json (policiesDoc policy)) = true := by
  unfold firefoxPoliciesIsOurs policiesDoc
  cases websiteFilterJson policy with
  | none => rfl
  | some filter => rfl

/-- … and in the plan. -/
theorem dnsPlanIsOurs_doc : dnsPlanIsOurs (.json (planDoc policy)) = true := rfl

end Kintrinsic
