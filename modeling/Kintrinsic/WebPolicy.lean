import Kintrinsic.Text
import Mathlib.Data.Finset.Image
import Mathlib.Data.Finset.Prod

/-! # Web content: the evaluated policy and its two renderings

A content clause and the cached lists of curators are evaluated to one policy, which is rendered
for the browser and for the resolver.  Allowing and denying are set operations on exact names; both
renderings widen every name to all names under it. -/
namespace Kintrinsic

open NameTree

/-! ## Domains -/

/-- `normalize_domain`: a lowercase bare host. -/
def normalizeDomain (raw : String) : String :=
  let s := (Text.trim raw.toList).map Text.asciiLower
  let s := Text.withoutPrefix "https://".toList s
  let s := Text.withoutPrefix "http://".toList s
  let host := s.takeWhile fun c => c ≠ '/' && c ≠ '?' && c ≠ ':'
  String.ofList (Text.withoutPrefix "www.".toList (Text.trimEndBy (· = '.') host))

/-- `is_valid_domain`; all letters are ASCII, so lengths are counted in them. -/
def isValidDomain (host : String) : Bool :=
  !host.toList.isEmpty && decide (host.toList.length ≤ 253) &&
    host.toList.all (fun c => Text.isAsciiLower c || Text.isAsciiDigit c || c = '-' || c = '.') &&
    !(host.toList.splitOn '.').any fun label => label.isEmpty || decide (63 < label.length)

/-- `parse_domain`. -/
def parseDomain (raw : String) : Option String :=
  if isValidDomain (normalizeDomain raw) then some (normalizeDomain raw) else none

theorem isValidDomain_of_parseDomain {raw host : String} (h : parseDomain raw = some host) :
    isValidDomain host = true := by
  unfold parseDomain at h
  split at h
  · rename_i hvalid
    rw [← Option.some.inj h]
    exact hvalid
  · cases h

theorem notMem_star {host : String} (h : isValidDomain host = true) : '*' ∉ host.toList := by
  intro hstar
  unfold isValidDomain at h
  simp only [Bool.and_eq_true] at h
  have hchar := List.all_eq_true.mp h.1.2 '*' hstar
  exact absurd hchar (by decide)

/-- `normalize_curator`: 64 hex digits, in lower case. -/
def normalizeCurator (id : String) : Option String :=
  if id.toList.length = 64 ∧ id.toList.all Text.isAsciiHexDigit then
    some (String.ofList (id.toList.map Text.asciiLower))
  else none

/-! ## The clause -/

inductive Posture
  | allowlist
  | blocklist
deriving DecidableEq

inductive AgeTier
  | young
  | older
deriving DecidableEq

inductive YoutubeRestrict
  | off
  | moderate
  | strict
deriving DecidableEq

def contentVersion : Nat := 1

structure GrantContent where
  v : Nat
  tz : Option String
  posture : Posture
  ageTier : AgeTier
  curators : List String
  quorumN : Option Nat
  blockCategories : List String
  safeSearch : Option Bool
  youtubeRestrict : Option YoutubeRestrict
  parentAllow : List String
  parentDeny : List String
  paused : Option Bool
  revoked : Option Bool
  issuedAt : Nat
deriving DecidableEq

namespace GrantContent
variable (c : GrantContent)

def isSupportedVersion : Bool := decide (c.v ≤ contentVersion)
def effectiveQuorum : Nat := max (c.quorumN.getD 2) 1
def safeSearchOn : Bool := c.safeSearch.getD true
def isPaused : Bool := c.paused.getD false
def isRevoked : Bool := c.revoked.getD false

end GrantContent

/-! ## Curators' lists -/

inductive Rating
  | kidSafe
  | block
  | category (name : String)
deriving DecidableEq

structure CuratorEntry where
  domain : String
  rating : Rating
deriving DecidableEq

structure CuratorList where
  curator : String
  entries : List CuratorEntry
deriving DecidableEq

/-! ## The evaluator -/

structure EffectiveWebPolicy where
  posture : Option Posture
  locked : Bool
  allowDomains : Finset String
  blockDomains : Finset String
  blockCategories : Finset String
  allowExceptions : Finset String
  safeSearch : Bool
  youtubeRestrict : YoutubeRestrict
  rejectedDomains : List String
  rejectedCurators : Nat
deriving DecidableEq

namespace EffectiveWebPolicy

/-- Fail-closed: no web at all. -/
def lockedPolicy : EffectiveWebPolicy := ⟨none, true, ∅, ∅, ∅, ∅, true, .off, [], 0⟩

def unrestricted : EffectiveWebPolicy := ⟨none, false, ∅, ∅, ∅, ∅, false, .off, [], 0⟩

end EffectiveWebPolicy

/-- The parsed entries of a list of domains. -/
def parsedDomains (raw : List String) : Finset String := (raw.filterMap parseDomain).toFinset

theorem mem_parsedDomains {raw : List String} {d : String} :
    d ∈ parsedDomains raw ↔ ∃ e ∈ raw, parseDomain e = some d := by
  rw [parsedDomains, List.mem_toFinset, List.mem_filterMap]

/-- The votes of subscribed curators for a rating, as domain and curator. -/
def votes (subscribed : Finset String) (rating : Rating) (lists : List CuratorList) :
    List (String × String) :=
  lists.flatMap fun l =>
    match normalizeCurator l.curator with
    | none => []
    | some curator =>
      if curator ∈ subscribed then
        l.entries.filterMap fun e =>
          if e.rating = rating then (parseDomain e.domain).map fun d => (d, curator) else none
      else []

/-- The curators who voted for a domain. -/
def votersOf (vs : List (String × String)) (d : String) : Finset String :=
  ((vs.filter fun v => v.1 = d).map Prod.snd).toFinset

/-- The domains that enough distinct curators rated kid-safe. -/
def quorumDomains (clause : GrantContent) (lists : List CuratorList) : Finset String :=
  let subscribed := (clause.curators.filterMap normalizeCurator).toFinset
  let vs := votes subscribed .kidSafe lists
  (vs.map Prod.fst).toFinset.filter fun d => clause.effectiveQuorum ≤ (votersOf vs d).card

/-- `evaluate_content`. -/
def evaluateContent (clause : GrantContent) (lists : List CuratorList) : EffectiveWebPolicy :=
  if !clause.isSupportedVersion then .lockedPolicy
  else if clause.isPaused then .lockedPolicy
  else if clause.isRevoked then .unrestricted
  else
    let parentAllow := parsedDomains clause.parentAllow
    let parentDeny := parsedDomains clause.parentDeny
    let rejectedDomains := (clause.parentAllow ++ clause.parentDeny).filter fun d =>
      (parseDomain d).isNone
    let subscribed := (clause.curators.filterMap normalizeCurator).toFinset
    let rejectedCurators := (clause.curators.filter fun id => (normalizeCurator id).isNone).length
    let allowExceptions := parentAllow \ parentDeny
    match clause.posture with
    | .allowlist =>
      { posture := some .allowlist
        locked := false
        allowDomains := (quorumDomains clause lists ∪ parentAllow) \ parentDeny
        blockDomains := ∅
        blockCategories := ∅
        allowExceptions
        safeSearch := clause.safeSearchOn
        youtubeRestrict := clause.youtubeRestrict.getD .off
        rejectedDomains
        rejectedCurators }
    | .blocklist =>
      { posture := some .blocklist
        locked := false
        allowDomains := ∅
        blockDomains :=
          (((votes subscribed .block lists).map Prod.fst).toFinset \ parentAllow) ∪ parentDeny
        blockCategories := (clause.blockCategories.map fun c =>
          String.ofList (c.toList.map Text.asciiLower)).toFinset
        allowExceptions
        safeSearch := clause.safeSearchOn
        youtubeRestrict := clause.youtubeRestrict.getD .off
        rejectedDomains
        rejectedCurators }

/-! ## The browser -/

/-- The part of the browser policy that depends on the clause: its patterns. -/
structure WebsiteFilter where
  block : Finset String
  exceptions : Finset String

def allUrls : String := "<all_urls>"

/-- `host_patterns`: a bare host and its subdomains. -/
def hostPatterns (domain : String) : Finset String :=
  {"*://" ++ domain ++ "/*", "*://*." ++ domain ++ "/*"}

/-- `render_firefox_policies`: the website filter, beside the static hardening. -/
def renderFirefoxPolicies (policy : EffectiveWebPolicy) : Option WebsiteFilter :=
  if policy.locked then some ⟨{allUrls}, ∅⟩
  else
    match policy.posture with
    | some .allowlist => some ⟨{allUrls}, policy.allowDomains.biUnion hostPatterns⟩
    | some .blocklist => some ⟨policy.blockDomains.biUnion hostPatterns, ∅⟩
    | none => none

/-- What a match pattern matches: everything, one host, or a host with all under it. -/
def PatternMatches (pattern host : String) : Prop :=
  pattern = allUrls ∨ pattern = "*://" ++ host ++ "/*" ∨
    ∃ domain, pattern = "*://*." ++ domain ++ "/*" ∧ Under '.' host.toList domain.toList

/-- The browser does not load a host that a blocking pattern matches and no exception does. -/
def WebsiteFilter.Blocks (w : WebsiteFilter) (host : String) : Prop :=
  (∃ p ∈ w.block, PatternMatches p host) ∧ ∀ p ∈ w.exceptions, ¬PatternMatches p host

/-! ## The resolver -/

structure DnsRewrite where
  host : String
  answer : String
deriving DecidableEq

inductive DnsMode
  | allowlist
  | blocklist
  | unrestricted
  | locked
deriving DecidableEq

structure DnsFilterPlan where
  mode : DnsMode
  allowDomains : Finset String
  blockDomains : Finset String
  blockCategories : Finset String
  allowExceptions : Finset String
  safeSearch : Bool
  youtubeRestrict : YoutubeRestrict
  rewrites : List DnsRewrite

/-- `safesearch_rewrites`. -/
def safesearchRewrites (youtube : YoutubeRestrict) : List DnsRewrite :=
  let target : Option String := match youtube with
    | .off => none
    | .moderate => some "restrictmoderate.youtube.com"
    | .strict => some "restrict.youtube.com"
  [⟨"www.google.com", "forcesafesearch.google.com"⟩, ⟨"www.bing.com", "strict.bing.com"⟩,
      ⟨"duckduckgo.com", "safe.duckduckgo.com"⟩] ++
    target.elim [] fun t =>
      ["www.youtube.com", "m.youtube.com", "youtubei.googleapis.com", "youtube.googleapis.com",
        "www.youtube-nocookie.com"].map fun host => ⟨host, t⟩

/-- The name whose refusal keeps browsers on the system resolver. -/
def dohCanary : String := "use-application-dns.net"

/-- `render_dns_filter`. -/
def renderDnsFilter (policy : EffectiveWebPolicy) : DnsFilterPlan :=
  { mode := if policy.locked then .locked
      else match policy.posture with
        | some .allowlist => .allowlist
        | some .blocklist => .blocklist
        | none => .unrestricted
    allowDomains := policy.allowDomains
    blockDomains := insert dohCanary policy.blockDomains
    blockCategories := policy.blockCategories
    allowExceptions := policy.allowExceptions
    safeSearch := policy.safeSearch
    youtubeRestrict := policy.youtubeRestrict
    rewrites := if policy.safeSearch && !policy.locked && policy.posture.isSome then
      safesearchRewrites policy.youtubeRestrict else [] }

/-- A plan that lets a host, or a name above it, through blocks it as well. -/
def DnsFilterPlan.Shuts (plan : DnsFilterPlan) (host : String) : Prop :=
  (∃ d ∈ plan.allowDomains ∪ plan.allowExceptions, Under '.' host.toList d.toList) →
    ∃ d ∈ plan.blockDomains, Under '.' host.toList d.toList

end Kintrinsic
