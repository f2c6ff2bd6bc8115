import Kintrinsic.ClauseShapes
import Kintrinsic.WebPolicy

/-! # Named times

A child's named times and how one of them departs from Free time's web clause. -/
namespace Kintrinsic

inductive TimePosture
  | everythingExcept
  | onlyThese
deriving DecidableEq

structure NamedTime where
  id : String
  label : String
  posture : TimePosture
  blockApps : List String
  unblockApps : List String
  denySites : List String
  undenySites : List String
  apps : List String
  sites : List LearningApp
  countsAgainstBudget : Option Bool
deriving DecidableEq

/-- `dedup_by_key`: the first of equal keys stays. -/
def dedupByKey (key : String → String) (items : List String) : List String :=
  (items.foldl (fun (r : List String × List String) s =>
    if key s ∈ r.1 then r else (key s :: r.1, s :: r.2)) ([], [])).2.reverse

namespace NamedTime
variable (t : NamedTime)

/-- Whether usage in this time is charged; absent means it is not. -/
def counts : Bool := t.countsAgainstBudget.getD false

/-- `site_domains`. -/
def siteDomains : List String := dedupByKey normalizeDomain (t.sites.flatMap (·.domains))

end NamedTime

/-- `synthetic_content`. -/
def syntheticContent (posture : Posture) : GrantContent :=
  ⟨contentVersion, none, posture, .young, [], none, [], none, none, [], [], none, none, 0⟩

/-- `compose_content`: Free time's web clause as a time modifies it. -/
def composeContent (free : Option GrantContent) (t : NamedTime) : Option GrantContent :=
  match t.posture with
  | .everythingExcept =>
    if t.denySites = [] ∧ t.undenySites = [] then free
    else
      let base : Option GrantContent := match free with
        | some f =>
          if f.isSupportedVersion && f.isRevoked && !f.isPaused && !t.denySites.isEmpty then
            some (syntheticContent .blocklist)
          else some f
        | none => if t.denySites = [] then none else some (syntheticContent .blocklist)
      base.map fun out =>
        let undeny := t.undenySites.map normalizeDomain
        { out with
          parentDeny := dedupByKey normalizeDomain
            ((out.parentDeny ++ t.denySites).filter fun d => normalizeDomain d ∉ undeny)
          parentAllow := dedupByKey normalizeDomain (out.parentAllow ++ t.undenySites) }
  | .onlyThese =>
    if t.sites = [] then free
    else
      let out := free.getD { syntheticContent .allowlist with safeSearch := some true }
      let listed := t.siteDomains
      let keys := listed.map normalizeDomain
      some { out with
        posture := .allowlist
        curators := []
        revoked := none
        parentDeny := out.parentDeny.filter fun d => normalizeDomain d ∉ keys
        parentAllow := listed }

end Kintrinsic
