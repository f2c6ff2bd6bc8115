import Kintrinsic.GuardianTexts
import Kintrinsic.UsageHistory

/-! # The guardian's named groups

A named group of apps is free, counted or on request.  One save compiles the groups into three
clauses; reading them back takes the names of the free groups from the guardian's own records. -/
namespace Kintrinsic

/-! ## Domain -/

inductive GroupPolicy
  | free
  | counted
  | onRequest
deriving DecidableEq

/-- A named group as the editor holds it. -/
structure NamedGroup where
  id : String
  label : String
  apps : List String
  policy : GroupPolicy
  dailyMinutes : Option JsNumber
  weeklyMinutes : Option JsNumber

/-- What the guardian keeps of a free group. -/
structure FreeGroupRecord where
  id : String
  label : String
  apps : List String
deriving DecidableEq

structure LearningPolicy where
  enabled : Bool
  apps : List LearningAppSel
  capMinutes : Option JsNumber

structure AppBucketRule where
  id : String
  label : String
  apps : List String
  dailyMinutes : Option JsNumber
  weeklyMinutes : Option JsNumber

structure BucketsPolicy where
  enabled : Bool
  tz : String
  buckets : List AppBucketRule
  weekStart : Option WeekStart

/-- The saved clauses that a save of the groups touches. -/
structure PriorClauseState where
  learning : Option LearningPolicy
  buckets : Option BucketsPolicy
  apps : Option AppsPolicy

/-- The groups and the two switches over whole kinds of them. -/
structure NamedTimesDraft where
  groups : List NamedGroup
  learningEnabled : Bool
  bucketsEnabled : Bool

namespace NamedTimesDraft
variable (draft : NamedTimesDraft)

/-- The groups of one policy, in the editor's order. -/
def ofPolicy (policy : GroupPolicy) : List NamedGroup :=
  draft.groups.filter fun g => decide (g.policy = policy)

end NamedTimesDraft

def maxGroupBuckets : Nat := 12

def maxGroupApps : Nat := 64

def maxBucketLabel : Nat := 32

def reservedFreeId : String := "-free"

def reservedOnRequestId : String := "-on-request"

def onRequestLabel : String := "On request"

/-! ## Identities -/

def isCmdlineIdentity (pkg : String) : Bool := "cmdline:".toList.isPrefixOf pkg.toList

def siteIdPrefix : String := "site:"

/-- `siteIdOf`: the site that an identity names. -/
def siteIdOf (identity : String) : Option String :=
  if siteIdPrefix.toList.isPrefixOf identity.toList then
    let id := jsTrim (String.ofList (identity.toList.drop siteIdPrefix.toList.length))
    if id = "" then none else some id
  else none

/-- `LEARNING_CATALOGUE`. -/
def learningCatalogue : List LearningAppSel :=
  let site := fun (id label url : String) (domains : List String) =>
    (⟨id, label, .site, some domains, some url, none, none, none⟩ : LearningAppSel)
  [site "khan-academy" "Khan Academy" "https://www.khanacademy.org/"
      ["khanacademy.org", "kastatic.org", "kasandbox.org", "youtube-nocookie.com", "ytimg.com",
        "googlevideo.com"],
    site "wikipedia" "Wikipedia" "https://www.wikipedia.org/" ["wikipedia.org", "wikimedia.org"],
    site "bbc-bitesize" "BBC Bitesize" "https://www.bbc.co.uk/bitesize" ["bbc.co.uk", "bbci.co.uk"],
    site "duolingo" "Duolingo" "https://www.duolingo.com/learn"
      ["duolingo.com", "d35aaqx5ub95lt.cloudfront.net", "gstatic.com", "recaptcha.net"]]

/-- What `new URL(u).hostname` is, if it is one. -/
abbrev UrlHost := String → Option String

/-- The host of an address of a scheme, a host and a path. -/
def httpsHost : UrlHost := fun url =>
  (Text.stripPrefix "https://".toList url.toList).map fun rest =>
    String.ofList (rest.takeWhile fun c => decide (c ≠ '/'))

/-- The host of an address, less `www.`. -/
def siteHost (hostname : UrlHost) (url : Option String) : Option String :=
  ((url.filter (· ≠ "")).bind hostname).map fun host =>
    String.ofList ((Text.withoutPrefix "www.".toList host.toList).map Text.asciiLower)

/-- `sameSite`: an entry without a host can only be the catalogue's own. -/
def sameSite (hostname : UrlHost) (a b : LearningAppSel) : Bool :=
  let ha := siteHost hostname a.url
  ha.isNone || decide (ha = siteHost hostname b.url)

/-- What an entry is found by: its id, and a program by its path. -/
def LearningAppSel.keys (a : LearningAppSel) : List String :=
  a.id :: if a.kind = .native then (a.exec.filter (· ≠ "")).toList else []

/-- The pool with one known entry. -/
def noteKnown (m : String → Option LearningAppSel) (a : LearningAppSel) :
    String → Option LearningAppSel :=
  fun id => if id ∈ a.keys then some a else m id

/-- The pool with one entry of the catalogue, which refreshes what is the same site. -/
def noteCatalogue (hostname : UrlHost) (m : String → Option LearningAppSel) (c : LearningAppSel) :
    String → Option LearningAppSel :=
  fun id => if id = c.id ∧ (m c.id).all (sameSite hostname · c) = true then some c else m id

/-- `learningAppPool`. -/
def learningAppPool (hostname : UrlHost) (known : List LearningAppSel) :
    String → Option LearningAppSel :=
  learningCatalogue.foldl (noteCatalogue hostname) (known.foldl noteKnown fun _ => none)

/-- `resolveLearningApp`: what is not known is a plain program. -/
def resolveLearningApp (id : String) (pool : String → Option LearningAppSel) : LearningAppSel :=
  (pool id).getD ⟨id, id, .native, none, none, some id, none, none⟩

/-- `learningMembershipKey`. -/
def learningMembershipKey (a : LearningAppSel) : String :=
  if a.kind = .native then a.exec.getD a.id else a.id

/-- An entry that defines a site and does not make it free. -/
def LearningAppSel.costing (a : LearningAppSel) : LearningAppSel := { a with free := some false }

/-! ## Compiling -/

/-- What a compile produces. -/
structure CompiledClauses where
  learning : LearningPolicy
  buckets : BucketsPolicy
  blockedAdd : List String
  askFirst : List String
  freeGroups : List FreeGroupRecord

/-- One counted group on its way to the clause. -/
def NamedGroup.toRule (g : NamedGroup) : AppBucketRule :=
  ⟨g.id, g.label, (cleanTexts g.apps).take maxGroupApps, g.dailyMinutes, g.weeklyMinutes⟩

def NamedGroup.toRecord (g : NamedGroup) : FreeGroupRecord := ⟨g.id, g.label, cleanTexts g.apps⟩

namespace NamedTimesDraft
variable (draft : NamedTimesDraft)

/-- The counted groups as bucket rules. -/
def bucketRules : List AppBucketRule :=
  ((draft.ofPolicy .counted).take maxGroupBuckets).map NamedGroup.toRule

/-- What the groups of one policy hold, less the launch signatures. -/
def plainApps (policy : GroupPolicy) : List String :=
  (cleanTexts ((draft.ofPolicy policy).flatMap (·.apps))).filter (!isCmdlineIdentity ·)

/-- The sites that cost: those of the rules and of what is on request. -/
def costingSiteIds : List String :=
  cleanTexts ((draft.bucketRules.flatMap (·.apps) ++ draft.plainApps .onRequest).filterMap siteIdOf)

/-- The entries of the learning clause: the free ones, then the sites that cost and are not free
already. -/
def learningApps (pool : String → Option LearningAppSel) : List LearningAppSel :=
  let free := draft.plainApps .free
  free.map (resolveLearningApp · pool) ++
    (draft.costingSiteIds.filter (· ∉ free)).map fun id => (resolveLearningApp id pool).costing

end NamedTimesDraft

/-- `groupsToClauses`. -/
def groupsToClauses (hostname : UrlHost) (draft : NamedTimesDraft) (prior : PriorClauseState) :
    CompiledClauses where
  learning :=
    { enabled := draft.learningEnabled
      apps := draft.learningApps
        (learningAppPool hostname ((prior.learning.map (·.apps)).getD []))
      capMinutes := prior.learning.bind (·.capMinutes) }
  buckets :=
    { enabled := draft.bucketsEnabled
      tz := ((prior.buckets.map (·.tz)).filter (· ≠ "")).getD "UTC"
      buckets := draft.bucketRules
      weekStart := prior.buckets.bind (·.weekStart) }
  blockedAdd := draft.plainApps .onRequest
  askFirst := draft.plainApps .onRequest
  freeGroups := (draft.ofPolicy .free).map NamedGroup.toRecord

/-- `applyAppsFragment`: the fragment over the app policy that others edit. -/
def applyAppsFragment (prior : Option AppsPolicy) (blockedAdd askFirst : List String) :
    AppsPolicy :=
  let priorAskFirst := (prior.bind (·.askFirst)).getD []
  let manualBlocked := ((prior.map (·.blocked)).getD []).filter (· ∉ priorAskFirst)
  { enabled := (prior.map (·.enabled)).getD false || !askFirst.isEmpty
    posture := (prior.map (·.posture)).getD .blocklist
    blocked := cleanTexts (manualBlocked ++ blockedAdd)
    allowed := (prior.map (·.allowed)).getD []
    holds := prior.bind (·.holds)
    askFirst := if askFirst.isEmpty then none else some (cleanTexts askFirst)
    hidden := (prior.bind (·.hidden)).filter (!·.isEmpty) }

/-! ## Reading back -/

def FreeGroupRecord.toGroup (g : FreeGroupRecord) : NamedGroup :=
  ⟨g.id, g.label, g.apps, .free, none, none⟩

def AppBucketRule.toGroup (b : AppBucketRule) : NamedGroup :=
  ⟨b.id, b.label, b.apps, .counted, b.dailyMinutes, b.weeklyMinutes⟩

/-- The saved free groups over what the wire still carries; what no group claims joins the first. -/
def rebuiltFree (saved : List FreeGroupRecord) (wireIds : List String) : List NamedGroup :=
  let rebuilt := saved.map fun g => { g with apps := g.apps.filter (· ∈ wireIds) }
  let leftover := wireIds.filter (· ∉ rebuilt.flatMap (·.apps))
  match rebuilt with
  | [] => []
  | g :: gs => ({ g with apps := g.apps ++ leftover } :: gs).map FreeGroupRecord.toGroup

/-- The free groups of what is saved. -/
def freeGroupsOf (learning : Option LearningPolicy) (saved : Option (List FreeGroupRecord)) :
    List NamedGroup :=
  let wireIds := cleanTexts ((((learning.map (·.apps)).getD []).filter fun a =>
    decide (a.free ≠ some false)).map learningMembershipKey)
  let synthetic := FreeGroupRecord.toGroup ⟨reservedFreeId, "Free time", wireIds⟩
  match saved with
  | some [] => if wireIds = [] then [] else [synthetic]
  | some saved => rebuiltFree saved wireIds
  | none => if learning.isSome then [synthetic] else []

/-- `decompose`. -/
def decompose (clauses : PriorClauseState) (savedFreeGroups : Option (List FreeGroupRecord)) :
    NamedTimesDraft where
  groups :=
    let askFirst := (clauses.apps.bind (·.askFirst)).getD []
    freeGroupsOf clauses.learning savedFreeGroups ++
      ((clauses.buckets.map (·.buckets)).getD []).map AppBucketRule.toGroup ++
      if askFirst = [] then []
      else [⟨reservedOnRequestId, onRequestLabel, askFirst, .onRequest, none, none⟩]
  learningEnabled := (clauses.learning.map (·.enabled)).getD true
  bucketsEnabled := (clauses.buckets.map (·.enabled)).getD true

/-! ## What the editor accepts -/

/-- `namedTimesError`. -/
def namedTimesError (groups : List NamedGroup) : Option String :=
  let counted := groups.filter fun g => decide (g.policy = .counted)
  if groups.any fun g => decide (jsTrim g.label = "") then
    some "Give every named time a name — an unnamed one can’t be sent to the device."
  else
    match counted.find? fun g => decide (maxBucketLabel < JsMinutes.jsLength (jsTrim g.label)) with
    | some longName =>
      some ("“" ++ jsTrim longName.label ++ "” is too long a name — keep it to " ++
        toString maxBucketLabel ++ " characters or it can’t be sent to the device.")
    | none =>
      if maxGroupBuckets < counted.length then
        some ("Up to " ++ toString maxGroupBuckets ++
          " counted named times — combine or remove one before saving.")
      else
        match groups.find? fun g => decide (maxGroupApps < g.apps.length) with
        | some overfull =>
          some ("“" ++ overfull.label ++ "” has more than " ++ toString maxGroupApps ++
            " apps — split it into another named time.")
        | none =>
          (counted.find? fun g => g.dailyMinutes.isNone && g.weeklyMinutes.isNone).map
            fun noAxis => "“" ++ noAxis.label ++
              "” needs a daily or weekly limit — add one, or switch it to Free or On request."

/-- What the editor asks of the groups. -/
structure AcceptedGroups (groups : List NamedGroup) : Prop where
  named : ∀ g ∈ groups, jsTrim g.label ≠ ""
  short : ∀ g ∈ groups, g.policy = .counted → JsMinutes.jsLength (jsTrim g.label) ≤ maxBucketLabel
  few : (groups.filter fun g => decide (g.policy = .counted)).length ≤ maxGroupBuckets
  fits : ∀ g ∈ groups, g.apps.length ≤ maxGroupApps
  capped : ∀ g ∈ groups, g.policy = .counted →
    g.dailyMinutes.isSome = true ∨ g.weeklyMinutes.isSome = true

theorem accepted_of_noError {groups : List NamedGroup} (h : namedTimesError groups = none) :
    AcceptedGroups groups := by
  have hcounted : ∀ g : NamedGroup, g ∈ groups.filter (fun g => decide (g.policy = .counted)) ↔
      g ∈ groups ∧ g.policy = .counted := by
    intro g
    rw [List.mem_filter, decide_eq_true_iff]
  unfold namedTimesError at h
  dsimp only at h
  split at h
  · cases h
  rename_i hnamed
  split at h
  · cases h
  rename_i hshort
  split at h
  · cases h
  rename_i hfew
  split at h
  · cases h
  rename_i hfits
  rw [Option.map_eq_none_iff, List.find?_eq_none] at h
  rw [List.find?_eq_none] at hshort hfits
  refine ⟨?_, ?_, ?_, ?_, ?_⟩
  · intro g hg hblank
    exact hnamed (List.any_eq_true.mpr ⟨g, hg, decide_eq_true hblank⟩)
  · intro g hg hpolicy
    have hlong := hshort g ((hcounted g).mpr ⟨hg, hpolicy⟩)
    rw [decide_eq_true_iff] at hlong
    omega
  · omega
  · intro g hg
    have hfull := hfits g hg
    rw [decide_eq_true_iff] at hfull
    omega
  · intro g hg hpolicy
    have haxis := h g ((hcounted g).mpr ⟨hg, hpolicy⟩)
    cases hd : g.dailyMinutes with
    | some m => exact .inl rfl
    | none =>
      cases hw : g.weeklyMinutes with
      | some m => exact .inr rfl
      | none =>
        rw [hd, hw] at haxis
        exact absurd rfl haxis

end Kintrinsic
