import Kintrinsic.LearningClause
import Kintrinsic.UsageLedger
import Mathlib.Data.List.Sort
import Mathlib.Data.String.Basic

/-! # Site windows

A site of the learning clause runs in a browser window that is pinned to its domains.  One predicate
on the whole command line says which windows these are; the meter and the sweep both ask it. -/
namespace Kintrinsic

open Text

/-! ## Launches -/

/-- `KNOWN_RUNTIMES`. -/
def knownRuntimes : List String :=
  ["/usr/bin/chromium", "/usr/bin/chromium-browser", "/usr/bin/google-chrome-stable"]

/-- `profile_dir`. -/
def profileDir (home id : String) : String :=
  String.ofList (trimEndBy (· == '/') home.toList) ++ "/.local/share/charter/learn/" ++ id

/-- `resolver_pin`. -/
def resolverPin (domains : List String) : String :=
  domains.foldl (fun pin d => pin ++ ", EXCLUDE " ++ d ++ ", EXCLUDE *." ++ d) "MAP * ~NOTFOUND"

/-- `class_marker`. -/
def classMarker (id : String) : String := "--class=charter-" ++ id

/-- `fixed_flags`. -/
def LearningApp.fixedFlags (app : LearningApp) : List String :=
  ["--app=" ++ app.url.getD "", classMarker app.id,
    "--host-resolver-rules=" ++ resolverPin app.domains]

def profileFlag : String := "--user-data-dir="

def isProfileFlag (t : String) : Bool := profileFlag.toList.isPrefixOf t.toList

/-- `sanctioned_argv`. -/
def sanctionedArgv (runtime : String) (app : LearningApp) (home : String) : List String :=
  [runtime] ++ app.fixedFlags ++ [profileFlag ++ profileDir home app.id]

/-- `sanctioned_app_id`. -/
def sanctionedAppId (cmdline : List String) (exeUid : Option UInt32) (apps : List LearningApp) :
    Option String :=
  match cmdline with
  | [] => none
  | argv0 :: rest =>
    if argv0 ∉ knownRuntimes then none
    else if exeUid ≠ some 0 then none
    else if rest.countP isProfileFlag ≠ 1 then none
    else
      let got := (rest.filter fun t => !isProfileFlag t).insertionSort (· ≤ ·)
      ((apps.filter (·.kind = .site)).find? fun app =>
        got = app.fixedFlags.insertionSort (· ≤ ·)).map (·.id)

/-- `is_sanctioned`. -/
def isSanctioned (cmdline : List String) (exeUid : Option UInt32) (apps : List LearningApp) : Bool :=
  (sanctionedAppId cmdline exeUid apps).isSome

/-! ## The meter -/

/-- What a process is matched by. -/
structure FocusedProcess where
  cmdline : List String
  exe : Option String
  exeUid : Option UInt32
  cgroup : Option String
  pid : UInt32
deriving DecidableEq

/-- `str::contains`. -/
def containsText (needle : List Char) (s : String) : Bool := decide (needle <:+: s.toList)

/-- `str::ends_with`. -/
def endsWith (suffix : String) (s : String) : Bool := suffix.toList.isSuffixOf s.toList

def isCmdlineId (pkg : String) : Bool := "cmdline:".toList.isPrefixOf pkg.toList

/-- `cmdline_needle`. -/
def cmdlineNeedle (pkg : String) : Option (List Char) :=
  (stripPrefix "cmdline:".toList pkg.toList).bind fun rest =>
    if byteLen (trim rest) < 8 then none else some (trim rest)

/-- Whether a process is an instance of an entry, and whether the entry is one of those that the child
may have installed; of an inventory that is not known it may. -/
def LearningApp.hits (app : LearningApp) (p : FocusedProcess)
    (userInstalled : Option (Finset String)) : Bool × Bool :=
  match app.kind with
  | .site => (false, false)
  | .native =>
    match app.exec with
    | none => (false, false)
    | some exec =>
      if exec.toList.head? = some '/' then
        (decide (p.exe = some exec) || app.trusted && decide (exec ∈ p.cmdline), false)
      else if isCmdlineId exec then
        ((cmdlineNeedle exec).any fun needle =>
          p.cmdline.any (containsText needle) || containsText needle (" ".intercalate p.cmdline),
          false)
      else
        (p.exe.any (fun e => endsWith "bwrap" e || endsWith "flatpak" e) && decide (exec ∈ p.cmdline),
          userInstalled.all fun set => exec ∈ set)

/-- The gate of a free match. -/
def LearningApp.credits (app : LearningApp) (p : FocusedProcess)
    (userInstalled : Option (Finset String)) : Bool :=
  (app.hits p userInstalled).1 &&
    (app.trusted || decide (p.exeUid = some 0) && !(app.hits p userInstalled).2)

/-- `classify`. -/
def classify (p : FocusedProcess) (apps : List LearningApp)
    (userInstalled : Option (Finset String)) : Bucket :=
  match sanctionedAppId p.cmdline p.exeUid apps with
  | some id => if (apps.find? (·.id = id)).any LearningApp.isFree then .learning else .screen
  | none => if apps.any (·.credits p userInstalled) then .learning else .screen

/-! ## The sweep -/

/-- `is_runtime_process`. -/
def isRuntimeProcess (cmdline : List String) (exe : Option String) : Bool :=
  cmdline.head?.any (fun a => a ∈ knownRuntimes) ||
    exe.any fun e => e ∈ knownRuntimes || e == "/opt/google/chrome/chrome" || endsWith "/chromium" e

def lockdownReason : String := "site-app runtime (unsanctioned)"

/-- `sweep_decision`. -/
def sweepDecision (sanctioned sitesInForce isRuntime : Bool) (blockedHit : Option String) :
    Option String :=
  if sanctioned then none
  else if sitesInForce && isRuntime then some lockdownReason
  else blockedHit

/-- The sites in force of a child: of its learning clause, and of the time that is on. -/
def sitesInForce (apps timeSites : List LearningApp) : Option (List LearningApp) :=
  let sites := apps.filter (·.kind = .site) ++ timeSites
  if sites = [] then none else some sites

/-- What the sweep decides on a process of a child, given its ancestors and the blocked identity that
it is an instance of. -/
def sweepOf (sites : Option (List LearningApp)) (ancestors : List FocusedProcess)
    (blockedHit : Option String) (p : FocusedProcess) : Option String :=
  let sanctioned := sites.any fun apps =>
    isSanctioned p.cmdline p.exeUid apps || ancestors.any fun a => isSanctioned a.cmdline a.exeUid apps
  sweepDecision sanctioned sites.isSome (isRuntimeProcess p.cmdline p.exe) blockedHit

end Kintrinsic
