import Kintrinsic.WebFiles
import Kintrinsic.WebReconcile

/-! # What the web enforcer remembers, and what is on disk

The enforcer writes the browser document first and the plan after it.  One remembered policy stands
for both: it is set when both writes have succeeded, cleared when both documents are gone, and left
as it was by a failure. -/
namespace Kintrinsic

open GuardedRun

/-- What the enforcer remembers, its durable marker and the two documents. -/
structure WebDisk where
  lastApplied : Option EffectiveWebPolicy
  retracted : Bool
  marker : Bool
  policies : Option FileText
  plan : Option FileText

/-- What moves the enforcer: a reconcile with what it reads, a forced lock, and a restart. -/
inductive WebMove
  | reconcile (lists : List CuratorList) (ports : WebPorts) (time : Option NamedTime)
      (stored : Except SysError (Option String))
  | forceLock (ports : WebPorts)
  | restart

namespace WebDisk
variable (w : WebDisk) (ports : WebPorts) (policy : EffectiveWebPolicy)

/-- `on_disk_fingerprints`, for the browser document. -/
def policiesOurs : Bool := firefoxPoliciesIsOurs (readBack w.policies)

/-- `on_disk_fingerprints`, for the plan. -/
def planOurs : Bool := dnsPlanIsOurs (readBack w.plan)

/-- `materialize_to`, of both documents. -/
def materialize : WebReconcile × WebDisk :=
  if !ports.writePolicies then (.failed, w)
  else
    let w := { w with policies := some (.json (policiesDoc policy)) }
    if !ports.applyPlan then (.failed, w)
    else
      (.enacted policy.locked,
        { w with
          plan := some (.json (planDoc policy))
          lastApplied := some policy
          retracted := false
          marker := w.marker || ports.writeMarker })

/-- `retract`. -/
def retract : WebReconcile × WebDisk :=
  if w.retracted then (.absent, w)
  else
    let live := w.lastApplied.isSome || w.marker
    if !live && !(w.policiesOurs || w.planOurs) then (.absent, w)
    else
      let backfilled := if live then w else { w with marker := ports.writeMarker }
      if w.policiesOurs && !ports.clearPolicies then (.failed, backfilled)
      else
        let cleared := if w.policiesOurs then { backfilled with policies := none } else backfilled
        if w.planOurs && !ports.clearPlan then (.failed, cleared)
        else
          let cleared := if w.planOurs then { cleared with plan := none } else cleared
          (.retracted,
            { cleared with
              marker := cleared.marker && !ports.removeMarker
              lastApplied := none
              retracted := true })

variable (parse : String → Option GrantContent)

/-- One move, with its answer; a restart has none. -/
def answer : WebMove → Option WebReconcile × WebDisk
  | .reconcile lists ports time stored =>
    match webDirective parse lists time stored with
    | .policy p =>
      if w.lastApplied = some p then (some .unchanged, w)
      else ((w.materialize ports p).map some id)
    | .retract => (w.retract ports).map some id
    | .unavailable => (some .unavailable, w)
  | .forceLock ports => (w.materialize ports .lockedPolicy).map some id
  | .restart => (none, { w with lastApplied := none, retracted := false })

def next (move : WebMove) : WebDisk := (w.answer parse move).2

/-- Both documents are the rendering of a policy. -/
def Holds : Prop :=
  w.policies = some (.json (policiesDoc policy)) ∧ w.plan = some (.json (planDoc policy))

/-- None of the enforcer's documents is there. -/
def Clear : Prop := w.policiesOurs = false ∧ w.planOurs = false

/-- Each document is as it was, or was the enforcer's and is gone. -/
def OnlyOursGone (w' : WebDisk) : Prop :=
  (w'.policies = w.policies ∨ w.policiesOurs = true ∧ w'.policies = none) ∧
    (w'.plan = w.plan ∨ w.planOurs = true ∧ w'.plan = none)

/-- **The truth about the disk**, told by one move. -/
def Truthful (move : WebMove) : Prop :=
  ((w.answer parse move).1 = some .unchanged →
    ∃ lists ports time stored p, move = .reconcile lists ports time stored ∧
      webDirective parse lists time stored = .policy p ∧ (w.next parse move).Holds p) ∧
  ∀ lists ports time stored, move = .reconcile lists ports time stored →
    (webDirective parse lists time stored = .retract →
      w.OnlyOursGone (w.next parse move) ∧
      ((w.answer parse move).1 = some .retracted ∨ (w.answer parse move).1 = some .absent →
        (w.next parse move).Clear)) ∧
    ∀ e, stored = .error e → (w.answer parse move).1 = some .unavailable ∧
      (w.next parse move).policies = w.policies ∧ (w.next parse move).plan = w.plan

/-- A policy is written as a whole: the plan follows the browser document, unless nothing is
remembered that the browser document could belie. -/
def WritesWhole : Prop :=
  ports.writePolicies = true → ports.applyPlan = true ∨
    w.retracted = false ∧ ∀ p, w.lastApplied = some p → policiesDoc p = policiesDoc policy

/-- Both documents are taken off, unless no policy is remembered. -/
def ClearsWhole : Prop :=
  w.policiesOurs = true → w.planOurs = true → ports.clearPolicies = true →
    ports.clearPlan = true ∨ w.lastApplied = none

/-- No move fails between the two documents while the memory stands for both. -/
def Whole : WebMove → Prop
  | .reconcile lists ports time stored =>
    match webDirective parse lists time stored with
    | .policy p => w.lastApplied = some p ∨ w.WritesWhole ports p
    | .retract => w.retracted = true ∨ w.ClearsWhole ports
    | .unavailable => True
  | .forceLock ports => w.WritesWhole ports .lockedPolicy
  | .restart => True

/-- The memory and the disk agree. -/
structure Agrees : Prop where
  applied : ∀ p, w.lastApplied = some p → w.retracted = false ∧ w.Holds p
  gone : w.retracted = true → w.Clear

/-! ## One move -/

variable {w ports policy parse} {lists : List CuratorList} {time : Option NamedTime}
  {stored : Except SysError (Option String)}

theorem answer_unavailable (hd : webDirective parse lists time stored = .unavailable) :
    w.answer parse (.reconcile lists ports time stored) = (some .unavailable, w) := by
  unfold answer
  dsimp only
  rw [hd]

theorem answer_retract (hd : webDirective parse lists time stored = .retract) :
    w.answer parse (.reconcile lists ports time stored) = (w.retract ports).map some id := by
  unfold answer
  dsimp only
  rw [hd]

theorem answer_policy (hd : webDirective parse lists time stored = .policy policy) :
    w.answer parse (.reconcile lists ports time stored) =
      if w.lastApplied = some policy then (some .unchanged, w)
      else (w.materialize ports policy).map some id := by
  unfold answer
  dsimp only
  rw [hd]

/-- A document that is written is the enforcer's. -/
theorem policiesOurs_of_doc (h : w.policies = some (.json (policiesDoc policy))) :
    w.policiesOurs = true := by
  unfold policiesOurs
  rw [h]
  exact firefoxPoliciesIsOurs_doc policy

theorem planOurs_of_doc (h : w.plan = some (.json (planDoc policy))) : w.planOurs = true := by
  unfold planOurs
  rw [h]
  exact dnsPlanIsOurs_doc policy

/-- **A policy that is written as a whole** leaves the memory in agreement with the disk. -/
theorem Agrees.materialize (h : w.Agrees) (hwhole : w.WritesWhole ports policy) :
    (w.materialize ports policy).2.Agrees := by
  unfold WebDisk.materialize
  cases hwrite : ports.writePolicies with
  | false => exact h
  | true =>
    cases happly : ports.applyPlan with
    | true =>
      refine ⟨?_, ?_⟩
      · intro p hp
        obtain rfl : policy = p := Option.some.inj hp
        exact ⟨rfl, rfl, rfl⟩
      · intro hretracted
        cases hretracted
    | false =>
      -- only the browser document has changed, and it is what it was
      obtain hplan | ⟨hretracted, hsame⟩ := hwhole hwrite
      · rw [happly] at hplan
        cases hplan
      · refine ⟨?_, ?_⟩
        · intro p hp
          obtain ⟨-, -, hplan⟩ := h.applied p hp
          refine ⟨hretracted, ?_, hplan⟩
          show some (FileText.json (policiesDoc policy)) = _
          rw [hsame p hp]
        · intro hgone
          exact absurd (hgone.symm.trans hretracted) (by decide)

/-- Materializing never answers that nothing changed. -/
theorem materialize_answer : (w.materialize ports policy).1 ≠ .unchanged := by
  unfold WebDisk.materialize
  cases ports.writePolicies <;> cases ports.applyPlan <;> simp

/-- **What a retraction does.**  It answers that there is nothing to take off and does nothing, or
it takes off what is the enforcer's, or it fails: then the plan stands, and the browser document is
gone only if the removal of the plan is what failed. -/
theorem retract_cases (w : WebDisk) (ports : WebPorts) :
    ((w.retract ports).1 = .absent ∧ (w.retract ports).2 = w ∧ (w.retracted = true ∨ w.Clear)) ∨
    ((w.retract ports).1 = .retracted ∧ (w.retract ports).2.lastApplied = none ∧
      w.OnlyOursGone (w.retract ports).2 ∧ (w.retract ports).2.Clear) ∨
    ((w.retract ports).1 = .failed ∧ (w.retract ports).2.lastApplied = w.lastApplied ∧
      w.retracted = false ∧ (w.retract ports).2.retracted = false ∧
      (w.retract ports).2.plan = w.plan ∧
      ((w.retract ports).2.policies = w.policies ∨
        w.policiesOurs = true ∧ w.planOurs = true ∧ ports.clearPolicies = true ∧
          ports.clearPlan = false ∧ (w.retract ports).2.policies = none)) := by
  unfold WebDisk.retract
  by_cases hretracted : w.retracted = true
  · rw [if_pos hretracted]
    exact .inl ⟨rfl, rfl, .inl hretracted⟩
  · rw [if_neg hretracted]
    have hnot := Bool.eq_false_iff.mpr hretracted
    dsimp only
    split
    · rename_i hnever
      have hclear : w.Clear := by
        unfold Clear
        simp only [Bool.and_eq_true, Bool.not_eq_true', Bool.or_eq_false_iff] at hnever
        exact hnever.2
      exact .inl ⟨rfl, rfl, .inr hclear⟩
    · -- the marker is no document
      generalize hb : (if (w.lastApplied.isSome || w.marker) = true then w
        else { w with marker := ports.writeMarker }) = b
      have hsame : b.lastApplied = w.lastApplied ∧ b.retracted = false ∧
          b.policies = w.policies ∧ b.plan = w.plan := by
        rw [← hb]
        split <;> exact ⟨rfl, hnot, rfl, rfl⟩
      right
      -- by whose the documents are and which removals fail
      cases hp : w.policiesOurs <;> cases hq : w.planOurs <;> cases ports.clearPolicies <;>
        cases ports.clearPlan <;> unfold policiesOurs at hp <;> unfold planOurs at hq <;>
        simp [OnlyOursGone, Clear, policiesOurs, planOurs, hsame, hnot, hp, hq,
          firefoxPoliciesIsOurs_missing, dnsPlanIsOurs_missing]

/-- A retraction leaves each document or takes it off, and takes off the enforcer's only. -/
theorem retract_onlyOursGone (w : WebDisk) (ports : WebPorts) :
    w.OnlyOursGone (w.retract ports).2 := by
  obtain ⟨-, hsame, -⟩ | ⟨-, -, hgone, -⟩ | ⟨-, -, -, -, hplan, hpolicies⟩ := retract_cases w ports
  · rw [hsame]
    exact ⟨.inl rfl, .inl rfl⟩
  · exact hgone
  · refine ⟨?_, .inl hplan⟩
    obtain hstays | ⟨hours, -, -, -, hgone⟩ := hpolicies
    · exact .inl hstays
    · exact .inr ⟨hours, hgone⟩

/-- Where the memory agrees with the disk, a retraction that answers success leaves nothing. -/
theorem Agrees.retract_clear (h : w.Agrees)
    (hsuccess : (w.retract ports).1 = .retracted ∨ (w.retract ports).1 = .absent) :
    (w.retract ports).2.Clear := by
  obtain ⟨-, hsame, hclear⟩ | ⟨-, -, -, hclear⟩ | ⟨hfailed, -⟩ := retract_cases w ports
  · rw [hsame]
    exact hclear.elim h.gone id
  · exact hclear
  · rw [hfailed] at hsuccess
    obtain hno | hno := hsuccess <;> cases hno

/-- **A retraction that takes off both documents or neither** leaves the memory in agreement. -/
theorem Agrees.retract (h : w.Agrees) (hwhole : w.retracted = true ∨ w.ClearsWhole ports) :
    (w.retract ports).2.Agrees := by
  obtain ⟨-, hsame, -⟩ | ⟨-, hnone, -, hclear⟩ | ⟨-, hmem, hretracted, hnot, hplan, hpolicies⟩ :=
    retract_cases w ports
  · rw [hsame]
    exact h
  · refine ⟨?_, fun _ => hclear⟩
    intro p hp
    rw [hnone] at hp
    cases hp
  · refine ⟨?_, ?_⟩
    · intro p hp
      rw [hmem] at hp
      obtain ⟨-, hbrowser, hresolver⟩ := h.applied p hp
      refine ⟨hnot, ?_, hplan.trans hresolver⟩
      obtain hstays | ⟨hours, hplanours, hclears, hfails, -⟩ := hpolicies
      · exact hstays.trans hbrowser
      · -- the removal of the plan cannot have failed
        rw [hretracted] at hwhole
        obtain hboth | hforgot := (hwhole.resolve_left (by decide)) hours hplanours hclears
        · rw [hfails] at hboth
          cases hboth
        · rw [hforgot] at hp
          cases hp
    · intro hgone
      rw [hnot] at hgone
      cases hgone

/-- **Every move tells the truth** where the memory agrees with the disk. -/
theorem Agrees.truthful (h : w.Agrees) (move : WebMove) : w.Truthful parse move := by
  refine ⟨?_, ?_⟩
  · intro hunchanged
    cases move with
    | restart => cases hunchanged
    | forceLock ports => exact absurd (Option.some.inj hunchanged) materialize_answer
    | reconcile lists ports time stored =>
      refine ⟨lists, ports, time, stored, ?_⟩
      unfold WebDisk.next
      cases hd : webDirective parse lists time stored with
      | unavailable =>
        rw [answer_unavailable hd] at hunchanged
        cases hunchanged
      | retract =>
        rw [answer_retract hd] at hunchanged
        have hanswer : (w.retract ports).1 = .unchanged := Option.some.inj hunchanged
        obtain ⟨habsent, -⟩ | ⟨hretracted, -⟩ | ⟨hfailed, -⟩ := retract_cases w ports
        · rw [habsent] at hanswer
          cases hanswer
        · rw [hretracted] at hanswer
          cases hanswer
        · rw [hfailed] at hanswer
          cases hanswer
      | policy p =>
        rw [answer_policy hd] at hunchanged ⊢
        by_cases hp : w.lastApplied = some p
        · rw [if_pos hp]
          exact ⟨p, rfl, rfl, (h.applied p hp).2⟩
        · rw [if_neg hp] at hunchanged
          exact absurd (Option.some.inj hunchanged) materialize_answer
  · rintro lists ports time stored rfl
    refine ⟨?_, ?_⟩
    · intro hd
      unfold WebDisk.next
      rw [answer_retract hd]
      refine ⟨retract_onlyOursGone w ports, ?_⟩
      intro hsuccess
      exact h.retract_clear (hsuccess.imp Option.some.inj Option.some.inj)
    · rintro e rfl
      have hd : webDirective parse lists time (.error e) = .unavailable := by
        unfold webDirective
        split <;> rfl
      unfold WebDisk.next
      rw [answer_unavailable hd]
      exact ⟨rfl, rfl, rfl⟩

/-- A move that is whole keeps the agreement. -/
theorem Agrees.next (h : w.Agrees) {move : WebMove} (hwhole : w.Whole parse move) :
    (w.next parse move).Agrees := by
  cases move with
  | restart =>
    refine ⟨?_, ?_⟩
    · intro p hp
      cases hp
    · intro hgone
      cases hgone
  | forceLock ports => exact h.materialize hwhole
  | reconcile lists ports time stored =>
    unfold Whole at hwhole
    dsimp only at hwhole
    unfold WebDisk.next
    cases hd : webDirective parse lists time stored with
    | unavailable =>
      rw [answer_unavailable hd]
      exact h
    | retract =>
      rw [answer_retract hd]
      rw [hd] at hwhole
      exact h.retract hwhole
    | policy p =>
      rw [answer_policy hd]
      rw [hd] at hwhole
      by_cases hp : w.lastApplied = some p
      · rw [if_pos hp]
        exact h
      · rw [if_neg hp]
        exact h.materialize (hwhole.resolve_left hp)

/-- With a plan that can be written and removed every reconcile is whole. -/
theorem whole_of_plan (happly : ports.applyPlan = true) (hclear : ports.clearPlan = true) :
    w.Whole parse (.reconcile lists ports time stored) := by
  unfold Whole
  dsimp only
  split
  · exact .inr fun _ => .inl happly
  · exact .inr fun _ _ _ => .inl hclear
  · trivial

/-- What the memory takes for done: the remembered policy, or the retraction. -/
def remembered (w : WebDisk) : WebDirective :=
  match w.lastApplied with
  | some p => .policy p
  | none => .retract

/-- A browser document written alone belies the memory. -/
theorem Agrees.torn_write (h : w.Agrees) (htorn : ¬w.WritesWhole ports policy)
    (hd : webDirective parse lists time stored = w.remembered) (ports' : WebPorts) :
    ¬(w.materialize ports policy).2.Truthful parse (.reconcile lists ports' time stored) := by
  unfold WritesWhole at htorn
  push Not at htorn
  obtain ⟨hwrite, hfails, hbelies⟩ := htorn
  have hafter : (w.materialize ports policy).2 =
      { w with policies := some (.json (policiesDoc policy)) } := by
    unfold WebDisk.materialize
    rw [hwrite, Bool.eq_false_iff.mpr hfails]
    rfl
  rw [hafter]
  rintro ⟨hunchanged, hdecides⟩
  unfold remembered at hd
  cases happlied : w.lastApplied with
  | some p =>
    rw [happlied] at hd
    obtain ⟨q, hq, hdiffers⟩ := hbelies (h.applied p happlied).1
    obtain rfl : p = q := Option.some.inj (happlied.symm.trans hq)
    have htold : WebDisk.answer { w with policies := some (.json (policiesDoc policy)) } parse
        (.reconcile lists ports' time stored) =
          (some .unchanged, { w with policies := some (.json (policiesDoc policy)) }) := by
      rw [answer_policy hd, if_pos happlied]
    obtain ⟨_, _, _, _, p', hmove, hd', hholds, -⟩ := hunchanged (congrArg Prod.fst htold)
    cases hmove
    obtain rfl : p = p' := WebDirective.policy.inj (hd.symm.trans hd')
    unfold WebDisk.next at hholds
    rw [htold] at hholds
    exact hdiffers (FileText.json.inj (Option.some.inj hholds)).symm
  | none =>
    rw [happlied] at hd
    have hretracted : w.retracted = true := by
      by_contra hnot
      obtain ⟨q, hq, -⟩ := hbelies (Bool.eq_false_iff.mpr hnot)
      rw [happlied] at hq
      cases hq
    have htold : WebDisk.answer { w with policies := some (.json (policiesDoc policy)) } parse
        (.reconcile lists ports' time stored) =
          (some .absent, { w with policies := some (.json (policiesDoc policy)) }) := by
      rw [answer_retract hd]
      unfold WebDisk.retract
      rw [if_pos hretracted]
      rfl
    have hclear := ((hdecides _ _ _ _ rfl).1 hd).2 (.inr (congrArg Prod.fst htold))
    unfold WebDisk.next at hclear
    rw [htold] at hclear
    exact absurd ((policiesOurs_of_doc rfl).symm.trans hclear.1) (by decide)

/-- A browser document taken off alone belies the memory. -/
theorem torn_clear (htorn : ¬(w.retracted = true ∨ w.ClearsWhole ports))
    (hd : webDirective parse lists time stored = w.remembered) (ports' : WebPorts) :
    ¬(w.retract ports).2.Truthful parse (.reconcile lists ports' time stored) := by
  push Not at htorn
  obtain ⟨hnot, htorn⟩ := htorn
  unfold ClearsWhole at htorn
  push Not at htorn
  obtain ⟨hours, hplan, hclears, hfails, hsome⟩ := htorn
  obtain ⟨p, happlied⟩ := Option.ne_none_iff_exists'.mp hsome
  have hgone : (w.retract ports).2.policies = none ∧
      (w.retract ports).2.lastApplied = some p := by
    unfold WebDisk.retract
    rw [if_neg hnot]
    simp [hours, hplan, hclears, hfails, happlied]
  rintro ⟨hunchanged, -⟩
  unfold remembered at hd
  rw [happlied] at hd
  have htold : (w.retract ports).2.answer parse (.reconcile lists ports' time stored) =
      (some .unchanged, (w.retract ports).2) := by
    rw [answer_policy hd, if_pos hgone.2]
  obtain ⟨_, _, _, _, p', hmove, -, hholds, -⟩ := hunchanged (congrArg Prod.fst htold)
  unfold WebDisk.next at hholds
  rw [htold, hgone.1] at hholds
  cases hholds

/-- **A move that is not whole is found out**: the next reconcile that decides what the memory takes
for done tells an untruth. -/
theorem Agrees.torn (h : w.Agrees) {move : WebMove} (htorn : ¬w.Whole parse move)
    (hd : webDirective parse lists time stored = w.remembered) :
    ¬(w.next parse move).Truthful parse (.reconcile lists ports time stored) := by
  cases move with
  | restart => exact absurd trivial htorn
  | forceLock ports' => exact h.torn_write htorn hd ports
  | reconcile lists' ports' time' stored' =>
    unfold Whole at htorn
    dsimp only at htorn
    unfold WebDisk.next
    cases hd' : webDirective parse lists' time' stored' with
    | unavailable =>
      rw [hd'] at htorn
      exact absurd trivial htorn
    | retract =>
      rw [answer_retract hd']
      rw [hd'] at htorn
      exact torn_clear htorn hd ports
    | policy p =>
      rw [answer_policy hd']
      rw [hd'] at htorn
      push Not at htorn
      rw [if_neg htorn.1]
      exact h.torn_write htorn.2 hd ports

/-! ## Runs -/

/-- An enforcer that has just started, with whatever it finds on disk. -/
def started (marker : Bool) (policies plan : Option FileText) : WebDisk :=
  ⟨none, false, marker, policies, plan⟩

theorem agrees_started (marker : Bool) (policies plan : Option FileText) :
    (started marker policies plan).Agrees := by
  refine ⟨?_, ?_⟩
  · intro p hp
    cases hp
  · intro hgone
    cases hgone

/-- **The enforcer tells the truth about the disk**, in every run whose moves are whole: it answers
that nothing changed only with both documents those of the policy in force, a retraction takes off
its own documents only and leaves none where it succeeds, and a read error touches neither.  And a
move that is not whole ends in an untruth. -/
theorem web_memory_law (parse : String → Option GrantContent) (marker : Bool)
    (policies plan : Option FileText) (moves : List WebMove)
    (h : Obeys (fun w m => w.next parse m) (fun w m => w.Whole parse m)
      (started marker policies plan) moves) :
    Obeys (fun w m => w.next parse m) (fun w m => w.Truthful parse m)
        (started marker policies plan) moves ∧
      ∀ w, moves.foldl (fun w m => w.next parse m) (started marker policies plan) = w →
        ∀ move, ¬w.Whole parse move → ∀ lists ports time stored,
          webDirective parse lists time stored = w.remembered →
            ¬(w.next parse move).Truthful parse (.reconcile lists ports time stored) := by
  have hkeeps : ∀ (w : WebDisk) (m : WebMove), w.Agrees → w.Whole parse m →
      (w.next parse m).Agrees := fun w m hagrees hwhole => hagrees.next hwhole
  have hstart := agrees_started marker policies plan
  refine ⟨?_, ?_⟩
  · exact (h.with_invariant hkeeps hstart).mono fun w m hboth => hboth.1.truthful m
  · rintro w rfl move htorn lists ports time stored hd
    exact (h.invariant hkeeps hstart).torn htorn hd

/-! ## The enforcer that knows no texts -/

/-- A file is what a document without its text says. -/
def FileShows (ours : FileText → Bool) (doc : EffectiveWebPolicy → Json) :
    Option FileText → WebDocument → Prop
  | none, .absent => True
  | some file, .foreign => ours file = false
  | some file, .ours p => file = .json (doc p)
  | _, _ => False

/-- The fingerprint is that of the document. -/
theorem FileShows.ours_eq {ours : FileText → Bool} {doc : EffectiveWebPolicy → Json}
    (hmissing : ours (readBack none) = false) (hdoc : ∀ p, ours (.json (doc p)) = true)
    {file : Option FileText} {d : WebDocument} (h : FileShows ours doc file d) :
    ours (readBack file) = d.isOurs := by
  rcases file with - | file <;> cases d with
  | absent => first | exact hmissing | exact h.elim
  | foreign => first | exact h | exact h.elim
  | ours p =>
    first
    | exact h.elim
    | (rw [show file = .json (doc p) from h]
       exact hdoc p)

/-- The two states say the same. -/
structure Shows (w : WebDisk) (web : WebContentEnforcer) : Prop where
  lastApplied : w.lastApplied = web.lastApplied
  retracted : w.retracted = web.retracted
  marker : w.marker = web.marker
  policies : FileShows firefoxPoliciesIsOurs policiesDoc w.policies web.policies
  plan : FileShows dnsPlanIsOurs planDoc w.plan web.plan

variable {web : WebContentEnforcer}

/-- Materializing refines that of the enforcer that knows no texts, … -/
theorem Shows.materialize (h : Shows w web) (ports : WebPorts) (policy : EffectiveWebPolicy) :
    (w.materialize ports policy).1 = (web.materialize ports policy).1 ∧
      Shows (w.materialize ports policy).2 (web.materialize ports policy).2 := by
  unfold WebDisk.materialize WebContentEnforcer.materialize
  cases ports.writePolicies with
  | false => exact ⟨rfl, h⟩
  | true =>
    cases ports.applyPlan with
    | false => exact ⟨rfl, h.lastApplied, h.retracted, h.marker, rfl, h.plan⟩
    | true => exact ⟨rfl, rfl, rfl, congrArg (· || ports.writeMarker) h.marker, rfl, rfl⟩

/-- … and so does a retraction. -/
theorem Shows.retract (h : Shows w web) (ports : WebPorts) :
    (w.retract ports).1 = (web.retract ports).1 ∧
      Shows (w.retract ports).2 (web.retract ports).2 := by
  have hp : w.policiesOurs = web.policies.isOurs :=
    h.policies.ours_eq firefoxPoliciesIsOurs_missing firefoxPoliciesIsOurs_doc
  have hq : w.planOurs = web.plan.isOurs :=
    h.plan.ours_eq dnsPlanIsOurs_missing dnsPlanIsOurs_doc
  obtain ⟨hlast, hretracted, hmarker, hpolicies, hplan⟩ := h
  unfold WebDisk.retract WebContentEnforcer.retract
  rw [hp, hq, hretracted, hlast, hmarker]
  by_cases hr : web.retracted = true
  · rw [if_pos hr, if_pos hr]
    exact ⟨rfl, hlast, hretracted, hmarker, hpolicies, hplan⟩
  · rw [if_neg hr, if_neg hr]
    dsimp only
    split
    · exact ⟨rfl, hlast, hretracted, hmarker, hpolicies, hplan⟩
    · -- by whose the documents are and which removals fail
      cases web.lastApplied.isSome || web.marker <;>
        simp only [Bool.false_eq_true, reduceIte] <;> cases web.policies.isOurs <;>
        cases web.plan.isOurs <;> cases ports.clearPolicies <;> cases ports.clearPlan <;>
        refine ⟨rfl, ?_⟩ <;> constructor <;>
        first | assumption | rfl | trivial | exact congrArg (· && !ports.removeMarker) hmarker

/-! ## A policy that flips back -/

/-- The body of a clause that was revoked; nothing else can be read. -/
def revokedParse (s : String) : Option GrantContent :=
  if s = "\x7b\"revoked\":true\x7d" then some { syntheticContent .blocklist with revoked := some true }
  else none

def reconcileText (ports : WebPorts) (text : String) : WebMove :=
  .reconcile [] ports none (.ok (some text))

/-- Every write fails from the plan's on. -/
def planFails : WebPorts := { WebBox.openPorts with applyPlan := false }

/-- The filter of a browser document. -/
def websiteFilterOf : FileText → Option Json
  | .json doc => (doc.get "policies").bind (·.get "WebsiteFilter")
  | .other _ => none

def allFail : WebPorts := ⟨false, false, false, false, false, false⟩

/-- A policy, a lock and the policy again, with every write succeeding. -/
theorem web_memory_law_open :
    Obeys (fun w m => WebDisk.next w revokedParse m) (fun w m => WebDisk.Truthful w revokedParse m)
      (started false none none)
      [reconcileText WebBox.openPorts "\x7b\"revoked\":true\x7d", .forceLock WebBox.openPorts,
        reconcileText WebBox.openPorts "\x7b\"revoked\":true\x7d"] := by
  have hwhole : Obeys (fun w m => WebDisk.next w revokedParse m)
      (fun w m => WebDisk.Whole w revokedParse m) (started false none none)
      [reconcileText WebBox.openPorts "\x7b\"revoked\":true\x7d", .forceLock WebBox.openPorts,
        reconcileText WebBox.openPorts "\x7b\"revoked\":true\x7d"] :=
    ⟨whole_of_plan rfl rfl, fun _ => .inl rfl, whole_of_plan rfl rfl, trivial⟩
  exact (web_memory_law revokedParse false none none _ hwhole).1

/-- **Where the enforcer does not tell the truth**: a lock that reached the browser only, and a
policy that flips back. -/
theorem not_truthful_flipped_back :
    ¬∀ (parse : String → Option GrantContent) (marker : Bool) (policies plan : Option FileText)
      (moves : List WebMove),
      Obeys (fun w m => WebDisk.next w parse m) (fun w m => WebDisk.Truthful w parse m)
        (started marker policies plan) moves := by
  intro hall
  obtain ⟨-, -, -, ⟨hunchanged, -⟩, -⟩ := hall revokedParse false none none
    [reconcileText WebBox.openPorts "\x7b\"revoked\":true\x7d", reconcileText planFails "\x7b",
      .forceLock allFail, reconcileText WebBox.openPorts "\x7b\"revoked\":true\x7d"]
  obtain ⟨_, _, _, _, p, hmove, hd, hpolicies, -⟩ := hunchanged (by decide +kernel)
  cases hmove
  have hp : webDirective revokedParse [] none (.ok (some "\x7b\"revoked\":true\x7d")) =
      .policy .unrestricted := by decide +kernel
  obtain rfl : EffectiveWebPolicy.unrestricted = p := WebDirective.policy.inj (hp.symm.trans hd)
  -- the browser document has a filter, and that of the policy has none
  have hfilter := congrArg (fun file => (websiteFilterOf (readBack file)).isSome) hpolicies
  exact absurd hfilter (by decide +kernel)

end WebDisk
end Kintrinsic
