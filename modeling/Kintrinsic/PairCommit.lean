import Kintrinsic.ChildConfigFormat
import Kintrinsic.PinLink
import Kintrinsic.Registry
import Mathlib.Data.List.Sort

/-! # Committing a pin

A child is bound to a new subject, the guardian is pinned and the token is spent, one file after the
other.  One step on the file system may fail; a failed write of the pin takes the binding back. -/
namespace Kintrinsic

/-! ## The files -/

/-- Which pass over the child's file a step belongs to. -/
inductive PinPhase
  | commit
  | bind
  | rollback
deriving DecidableEq

/-- A step on the file system. -/
inductive PinStep
  | listDir (phase : PinPhase)
  | listEntry (phase : PinPhase) (user : String)
  | readConfig (phase : PinPhase) (user : String)
  | probePairing
  | readOwn (phase : PinPhase)
  | makeLimitsDir (phase : PinPhase)
  | writeConfig (phase : PinPhase)
  | renameConfig (phase : PinPhase)
  | makePairingDir
  | writePairing
  | chmodPairing
  | renamePairing
  | removeToken
  | purgeStore
deriving DecidableEq

/-- `<user>.json`. -/
structure ConfigFile (Text : Type) where
  user : String
  text : Text

/-- What is in the pairing file: a pairing, or any other text. -/
inductive PairingFile
  | pairing (p : PinnedPairing)
  | other (text : String)
deriving DecidableEq

/-- The files that a commit touches, and the subjects with a store of clauses. -/
structure PinDisk (Text : Type) where
  limits : Registry (@ConfigFile.user Text)
  limitsTmp : Option Text
  pairing : Option PairingFile
  pairingTmp : Option PairingFile
  token : Option String
  stores : List String

/-! ## A child's file -/

inductive LinkError
  | badUsername (user : String)
  | badSubject
  | alreadyBound (other : String)
  | limits
  | io (step : PinStep)
deriving DecidableEq

/-- `valid_username`. -/
def validUsername (s : String) : Bool :=
  let start (c : Char) : Bool := Text.isAsciiLower c || c = '_'
  s.toList.head?.any start && decide (s.toList.length ≤ 32) &&
    s.toList.all fun c => start c || Text.isAsciiDigit c || c = '-'

namespace PinDisk
variable {Text : Type} (format : ConfigFormat Text) (fault : Option PinStep)

/-- `load_child_configs`: what cannot be listed, read or parsed is left out. -/
def loadChildConfigs (phase : PinPhase) (d : PinDisk Text) : List (String × ChildConfig) :=
  if fault = some (.listDir phase) then []
  else
    (d.limits.entries.filterMap fun f =>
      if fault = some (.listEntry phase f.user) ∨ fault = some (.readConfig phase f.user) then none
      else (format.read f.text).map fun c => (f.user, c)).mergeSort fun a b => a.1 ≤ b.1

/-- `save_child_config`. -/
def saveChildConfig (phase : PinPhase) (user : String) (c : ChildConfig) (d : PinDisk Text) :
    Except LinkError Unit × PinDisk Text :=
  if c.limits.any fun l => !l.validate.isOk then (.error .limits, d)
  else if fault = some (.makeLimitsDir phase) then (.error (.io (.makeLimitsDir phase)), d)
  else if fault = some (.writeConfig phase) then (.error (.io (.writeConfig phase)), d)
  else if fault = some (.renameConfig phase) then
    (.error (.io (.renameConfig phase)), { d with limitsTmp := some (format.write c) })
  else (.ok (), { d with limits := d.limits.put ⟨user, format.write c⟩, limitsTmp := none })

/-- The config that a change starts from: the empty one where none can be read. -/
def ownConfig (phase : PinPhase) (user : String) (d : PinDisk Text) : ChildConfig :=
  let text := if fault = some (.readOwn phase) then none
    else (d.limits.get? user).map ConfigFile.text
  (text.bind format.read).getD .empty

/-- `set_child_subject`. -/
def setChildSubject (phase : PinPhase) (user : String) (subject : Option String)
    (d : PinDisk Text) : Except LinkError Unit × PinDisk Text :=
  if !validUsername user then (.error (.badUsername user), d)
  else if subject.any fun s => !validSubjectHex s then (.error .badSubject, d)
  else
    let wanted := subject.map lowerSubject
    match wanted.bind fun w => (loadChildConfigs format fault phase d).find? fun other =>
        other.1 ≠ user && decide (other.2.subject = some w) with
    | some other => (.error (.alreadyBound other.1), d)
    | none =>
      saveChildConfig format fault phase user
        { ownConfig format fault phase user d with subject := wanted } d

/-! ## The commit -/

inductive PinError
  | noChild
  | severalChildren
  | badSubject
  | badOffer
  | link (user : String) (why : LinkError)
  | io (step : PinStep)
deriving DecidableEq

/-- The pin is written beside its file and moved over it. -/
def writePin (p : PinnedPairing) (d : PinDisk Text) : Except PinError Unit × PinDisk Text :=
  if fault = some .makePairingDir then (.error (.io .makePairingDir), d)
  else if fault = some .writePairing then (.error (.io .writePairing), d)
  else
    let written := { d with pairingTmp := some (.pairing p) }
    if fault = some .chmodPairing then (.error (.io .chmodPairing), written)
    else if fault = some .renamePairing then (.error (.io .renamePairing), written)
    else (.ok (), { d with pairing := some (.pairing p), pairingTmp := none })

/-- `consume`: a token that is not there is spent. -/
def consumeToken (d : PinDisk Text) : Except PinError Unit × PinDisk Text :=
  match d.token with
  | none => (.ok (), d)
  | some _ =>
    if fault = some .removeToken then (.error (.io .removeToken), d)
    else (.ok (), { d with token := none })

/-- `purge_subject_store`, whose failure is not the commit's. -/
def purgeStore (subject : String) (d : PinDisk Text) : PinDisk Text :=
  if decide (boundSubject subject = some subject) && !decide (fault = some .purgeStore) then
    { d with stores := d.stores.filter (· ≠ subject) }
  else d

/-- `commit_pin`. -/
def commitPin (guardian : PubKey) (relays : List String) (machine : PubKey)
    (subjectRandom : BitVec 256) (now : Nat) (d : PinDisk Text) :
    Except PinError Unit × PinDisk Text :=
  match loadChildConfigs format fault .commit d with
  | [] => (.error .noChild, d)
  | [(child, config)] =>
    let subjectHex := hex32 subjectRandom
    match PubKey.fromHex subjectHex with
    | none => (.error .badSubject, d)
    | some subject =>
      match PinLink.buildPairing (PinLink.offerLink guardian relays) machine subject now with
      | .error _ => (.error .badOffer, d)
      | .ok pin =>
        let pairingExisted := d.pairing.isSome && !decide (fault = some .probePairing)
        match setChildSubject format fault .bind child (some subjectHex) d with
        | (.error e, d) => (.error (.link child e), d)
        | (.ok (), d) =>
          match writePin fault pin d with
          | (.error e, d) =>
            (.error e, (setChildSubject format fault .rollback child config.subject d).2)
          | (.ok (), d) =>
            match consumeToken fault d with
            | (.error e, d) => (.error e, d)
            | (.ok (), d) =>
              match config.subject with
              | some previous =>
                if pairingExisted && lowerSubject previous ≠ subjectHex then
                  (.ok (), purgeStore fault previous d)
                else (.ok (), d)
              | none => (.ok (), d)
  | _ => (.error .severalChildren, d)

/-! ## What is pinned and bound -/

/-- The subject a child is bound to. -/
def binding (d : PinDisk Text) (user : String) : Option String :=
  ((d.limits.get? user).bind fun f => format.read f.text).bind ChildConfig.subject

/-- Pinned, bound and spendable as before. -/
structure Unchanged (d d' : PinDisk Text) : Prop where
  pairing : d'.pairing = d.pairing
  token : d'.token = d.token
  bound : ∀ user, binding format d' user = binding format d user

/-- The guardian is pinned, one child and no other is bound to the subject, and there is no token. -/
structure Committed (guardian : PubKey) (subjectRandom : BitVec 256) (d d' : PinDisk Text) :
    Prop where
  pinned : ∃ p, d'.pairing = some (.pairing p) ∧ p.guardianPubkey = guardian ∧
    p.subjectPubkey = ⟨subjectRandom⟩
  bound : ∃ child ∈ d.limits.entries.map ConfigFile.user,
    binding format d' child = some (hex32 subjectRandom) ∧
    ∀ user, user ≠ child → binding format d' user = binding format d user
  spent : d'.token = none

variable {format fault} {phase : PinPhase} {d : PinDisk Text}

/-! ## Loading -/

/-- What is loaded was there. -/
theorem mem_loadChildConfigs {x : String × ChildConfig}
    (h : x ∈ loadChildConfigs format fault phase d) :
    ∃ f ∈ d.limits.entries, f.user = x.1 ∧ format.read f.text = some x.2 := by
  unfold loadChildConfigs at h
  split at h
  · cases h
  · rw [List.mem_mergeSort, List.mem_filterMap] at h
    obtain ⟨f, hf, hx⟩ := h
    split at hx
    · cases hx
    · obtain ⟨c, hc, rfl⟩ := Option.map_eq_some_iff.mp hx
      exact ⟨f, hf, rfl, hc⟩

/-- A step of loading. -/
def Loads (phase : PinPhase) : PinStep → Prop
  | .listDir p | .listEntry p _ | .readConfig p _ => p = phase
  | _ => False

/-- Where no step of loading fails, what can be read is loaded. -/
theorem mem_loadChildConfigs_of {f : ConfigFile Text} {c : ChildConfig}
    (hfault : ∀ step ∈ fault, ¬Loads phase step) (hf : f ∈ d.limits.entries)
    (hc : format.read f.text = some c) : (f.user, c) ∈ loadChildConfigs format fault phase d := by
  have hnot : ∀ step, Loads phase step → fault ≠ some step := fun step hstep heq =>
    hfault step heq hstep
  unfold loadChildConfigs
  rw [if_neg (hnot (.listDir phase) rfl), List.mem_mergeSort, List.mem_filterMap]
  refine ⟨f, hf, ?_⟩
  rw [if_neg, hc]
  · rfl
  · rintro (hentry | hread)
    · exact hnot (.listEntry phase f.user) rfl hentry
    · exact hnot (.readConfig phase f.user) rfl hread

/-- A file is the one under its user's name. -/
theorem binding_of_mem {f : ConfigFile Text} {c : ChildConfig} (hf : f ∈ d.limits.entries)
    (hc : format.read f.text = some c) : binding format d f.user = c.subject := by
  unfold binding
  rw [Registry.get?_eq_some.mpr ⟨hf, rfl⟩, Option.bind_some, hc]
  rfl

theorem binding_put {user : String} {c : ChildConfig}
    (hbound : ∀ s ∈ c.subject, boundSubject s = some s) (user' : String) {d' : PinDisk Text}
    (hd' : d'.limits = d.limits.put ⟨user, format.write c⟩) :
    binding format d' user' = if user' = user then c.subject else binding format d user' := by
  unfold binding
  rw [hd', Registry.get?_put]
  split
  · rw [Option.bind_some]
    exact format.read_write c hbound
  · rfl

/-! ## A child's file -/

/-- A step of saving. -/
def Saves (phase : PinPhase) : PinStep → Prop
  | .makeLimitsDir p | .writeConfig p | .renameConfig p => p = phase
  | _ => False

/-- What a change of a child's file leaves: nothing that is read, or the file anew. -/
structure Refused (d : PinDisk Text) (r : Except LinkError Unit × PinDisk Text) : Prop where
  error : ∃ e, r.1 = .error e
  limits : r.2.limits = d.limits
  pairing : r.2.pairing = d.pairing
  token : r.2.token = d.token

structure Saved (format : ConfigFormat Text) (user : String) (subject : Option String)
    (d : PinDisk Text) (r : Except LinkError Unit × PinDisk Text) : Prop where
  ok : r.1 = .ok ()
  limits : ∃ c : ChildConfig, c.subject = subject ∧
    r.2.limits = d.limits.put ⟨user, format.write c⟩
  pairing : r.2.pairing = d.pairing
  token : r.2.token = d.token

theorem refused_same (e : LinkError) : Refused d (.error e, d) := ⟨⟨e, rfl⟩, rfl, rfl, rfl⟩

theorem saveChildConfig_spec (user : String) (c : ChildConfig) :
    Refused d (saveChildConfig format fault phase user c d) ∨
      Saved format user c.subject d (saveChildConfig format fault phase user c d) := by
  unfold saveChildConfig
  split_ifs
  · exact .inl (refused_same _)
  · exact .inl (refused_same _)
  · exact .inl (refused_same _)
  · exact .inl ⟨⟨_, rfl⟩, rfl, rfl, rfl⟩
  · exact .inr ⟨rfl, ⟨c, rfl, rfl⟩, rfl, rfl⟩

/-- **What setting a subject does.** -/
theorem setChildSubject_spec (user : String) (subject : Option String) :
    Refused d (setChildSubject format fault phase user subject d) ∨
      validUsername user = true ∧ Saved format user (subject.map lowerSubject) d
        (setChildSubject format fault phase user subject d) := by
  unfold setChildSubject
  split_ifs with hname hsubject
  · exact .inl (refused_same _)
  · exact .inl (refused_same _)
  · dsimp only
    split
    · exact .inl (refused_same _)
    · obtain hrefused | hsaved := @saveChildConfig_spec _ format fault
        phase d user
        { ownConfig format fault phase user d with subject := subject.map lowerSubject }
      · exact .inl hrefused
      · exact .inr ⟨by simpa using hname, hsaved⟩

/-- The limits that a change starts from are valid. -/
theorem ownConfig_limits (user : String) :
    ∀ l ∈ (ownConfig format fault phase user d).limits, l.validate.isOk = true := by
  intro l hl
  unfold ownConfig at hl
  dsimp only at hl
  generalize (if fault = some (.readOwn phase) then none
    else (d.limits.get? user).map ConfigFile.text) = text at hl
  cases hread : text.bind format.read with
  | none =>
    rw [hread] at hl
    cases hl
  | some c =>
    rw [hread] at hl
    obtain ⟨t, -, hc⟩ := Option.bind_eq_some_iff.mp hread
    exact format.limits_valid t c hc l hl

/-- **A subject is set** where the child has a good name, nobody else is loaded and no step of
saving fails. -/
theorem setChildSubject_ok {user : String} {subject : Option String}
    (hname : validUsername user = true) (hvalid : ∀ s ∈ subject, validSubjectHex s = true)
    (hother : ∀ x ∈ loadChildConfigs format fault phase d, x.1 = user)
    (hfault : ∀ step ∈ fault, ¬Saves phase step) :
    (setChildSubject format fault phase user subject d).1 = .ok () := by
  have hnot : ∀ step, Saves phase step → fault ≠ some step := fun step hstep heq =>
    hfault step heq hstep
  have hsubject : (subject.any fun s => !validSubjectHex s) = false := by
    cases subject with
    | none => rfl
    | some s => simp [hvalid s rfl]
  have hnone : ((subject.map lowerSubject).bind fun w =>
      (loadChildConfigs format fault phase d).find? fun other =>
        other.1 ≠ user && decide (other.2.subject = some w)) = none := by
    cases subject with
    | none => rfl
    | some s =>
      rw [Option.map_some, Option.bind_some, List.find?_eq_none]
      intro x hx
      simp [hother x hx]
  have hlimits : ((ownConfig format fault phase user d).limits.any fun l =>
      !l.validate.isOk) = false := by
    have hall := @ownConfig_limits _ format fault phase d user
    cases hl : (ownConfig format fault phase user d).limits with
    | none => rfl
    | some l => simp [hall l hl]
  unfold setChildSubject
  rw [hname, hsubject]
  dsimp only
  rw [hnone]
  unfold saveChildConfig
  dsimp only
  rw [hlimits]
  simp only [Bool.not_true, Bool.false_eq_true, if_false, hnot (.makeLimitsDir phase) rfl,
    hnot (.writeConfig phase) rfl, hnot (.renameConfig phase) rfl]

/-! ## The commit, step by step -/

theorem unchanged_refl (d : PinDisk Text) : Unchanged format d d := ⟨rfl, rfl, fun _ => rfl⟩

/-- Bindings are those of the limits. -/
theorem binding_congr {d' : PinDisk Text} (h : d'.limits = d.limits) (user : String) :
    binding format d' user = binding format d user := by
  unfold binding
  rw [h]

/-- What writing the pin does. -/
theorem writePin_spec (p : PinnedPairing) :
    (writePin fault p d).2.limits = d.limits ∧ (writePin fault p d).2.token = d.token ∧
      ((writePin fault p d).1 = .ok () ∧ (writePin fault p d).2.pairing = some (.pairing p) ∨
        (∃ e, (writePin fault p d).1 = .error e) ∧ (writePin fault p d).2.pairing = d.pairing ∧
          ∃ step ∈ fault, step ∈
            [PinStep.makePairingDir, .writePairing, .chmodPairing, .renamePairing]) := by
  unfold writePin
  split_ifs with hdir hwrite hmode hrename
  · exact ⟨rfl, rfl, .inr ⟨⟨_, rfl⟩, rfl, _, hdir, by simp⟩⟩
  · exact ⟨rfl, rfl, .inr ⟨⟨_, rfl⟩, rfl, _, hwrite, by simp⟩⟩
  · exact ⟨rfl, rfl, .inr ⟨⟨_, rfl⟩, rfl, _, hmode, by simp⟩⟩
  · exact ⟨rfl, rfl, .inr ⟨⟨_, rfl⟩, rfl, _, hrename, by simp⟩⟩
  · exact ⟨rfl, rfl, .inl ⟨rfl, rfl⟩⟩

/-- What spending the token does. -/
theorem consumeToken_spec :
    (consumeToken fault d).2.limits = d.limits ∧ (consumeToken fault d).2.pairing = d.pairing ∧
      ((consumeToken fault d).1 = .ok () ∧ (consumeToken fault d).2.token = none ∧
          ¬(fault = some .removeToken ∧ d.token ≠ none) ∨
        (∃ e, (consumeToken fault d).1 = .error e) ∧ (consumeToken fault d).2.token = d.token ∧
          fault = some .removeToken ∧ d.token ≠ none) := by
  unfold consumeToken
  split
  · rename_i hnone
    exact ⟨rfl, rfl, .inl ⟨rfl, hnone, fun h => h.2 hnone⟩⟩
  · rename_i token htoken
    have hsome : d.token ≠ none := by
      rw [htoken]
      exact Option.some_ne_none token
    split_ifs with hfault
    · exact ⟨rfl, rfl, .inr ⟨⟨_, rfl⟩, rfl, hfault, hsome⟩⟩
    · exact ⟨rfl, rfl, .inl ⟨rfl, rfl, fun h => hfault h.1⟩⟩

/-- The binding goes back to what it was, when writing the pin has failed. -/
theorem rollback_binding {d₁ d₂ : PinDisk Text} {child : String} {config c : ChildConfig}
    (hload : loadChildConfigs format fault .commit d = [(child, config)])
    (hname : validUsername child = true)
    (hlimits : d₂.limits = d.limits.put ⟨child, format.write c⟩)
    (hstep : ∃ step ∈ fault, step ∈
      [PinStep.makePairingDir, .writePairing, .chmodPairing, .renamePairing])
    (hd₁ : d₁ = (setChildSubject format fault .rollback child config.subject d₂).2) :
    d₁.pairing = d₂.pairing ∧ d₁.token = d₂.token ∧
      ∀ user, binding format d₁ user = binding format d user := by
  obtain ⟨step, hstep, hwrite⟩ := hstep
  rw [Option.mem_def] at hstep
  have hloads : ∀ phase, ∀ s ∈ fault, ¬Loads phase s := by
    rintro phase s hs
    obtain rfl := Option.some.inj (hs.symm.trans hstep)
    simp only [List.mem_cons, List.not_mem_nil, or_false] at hwrite
    rcases hwrite with rfl | rfl | rfl | rfl <;> exact fun h => h
  have hsaves : ∀ s ∈ fault, ¬Saves .rollback s := by
    rintro s hs
    obtain rfl := Option.some.inj (hs.symm.trans hstep)
    simp only [List.mem_cons, List.not_mem_nil, or_false] at hwrite
    rcases hwrite with rfl | rfl | rfl | rfl <;> exact fun h => h
  -- the file of the child is the only one that can be read
  obtain ⟨f, hf, hfuser, hfread⟩ : ∃ f ∈ d.limits.entries, f.user = child ∧
      format.read f.text = some config :=
    mem_loadChildConfigs (x := (child, config)) (by rw [hload]; exact List.mem_singleton_self _)
  have hothers : ∀ x ∈ loadChildConfigs format fault .rollback d₂, x.1 = child := by
    intro x hx
    obtain ⟨g, hg, hguser, hgread⟩ := mem_loadChildConfigs hx
    rw [hlimits] at hg
    rcases List.mem_cons.mp hg with rfl | hg
    · exact hguser.symm
    · have hmem := mem_loadChildConfigs_of (hloads .commit) (List.mem_of_mem_filter hg) hgread
      rw [hload, List.mem_singleton] at hmem
      rw [← hguser]
      exact congrArg Prod.fst hmem
  have hbound : ∀ s ∈ config.subject, boundSubject s = some s :=
    format.subject_bound f.text config hfread
  have hok := @setChildSubject_ok _ _ _ .rollback d₂ _ config.subject hname
    (fun s hs => (boundSubject_eq_self (hbound s hs)).1) hothers hsaves
  obtain ⟨⟨e, he⟩, -⟩ | ⟨-, hsaved⟩ := @setChildSubject_spec _ format fault
    .rollback d₂ child config.subject
  · rw [hok] at he
    cases he
  · obtain ⟨-, ⟨c', hc', hput⟩, hpairing, htoken⟩ := hsaved
    have hlower : config.subject.map lowerSubject = config.subject := by
      cases hs : config.subject with
      | none => rfl
      | some s => rw [Option.map_some, (boundSubject_eq_self (hbound s hs)).2]
    rw [hlower] at hc'
    rw [hd₁]
    refine ⟨hpairing, htoken, fun user => ?_⟩
    rw [binding_put (d := d₂) (hc' ▸ hbound) user hput]
    split_ifs with huser
    · rw [huser, hc', ← hfuser, binding_of_mem hf hfread]
    · unfold binding
      rw [hlimits, Registry.get?_put_of_ne huser]

/-! ## All or nothing -/

/-- An error leaves all as it was, and success has done all. -/
def AllOrNothing (format : ConfigFormat Text) (guardian : PubKey) (subjectRandom : BitVec 256)
    (d : PinDisk Text) (r : Except PinError Unit × PinDisk Text) : Prop :=
  match r.1 with
  | .error _ => Unchanged format d r.2
  | .ok () => Committed format guardian subjectRandom d r.2

/-- The token is there and cannot be removed, and the commit comes that far: one child is loaded, by
a good name, and the offer can be pinned, as something new. -/
structure TokenStays (format : ConfigFormat Text) (fault : Option PinStep) (guardian : PubKey)
    (relays : List String) (machine : PubKey) (subjectRandom : BitVec 256) (now : Nat)
    (d : PinDisk Text) : Prop where
  failing : fault = some .removeToken
  token : d.token ≠ none
  reached : ∃ child config pin, loadChildConfigs format fault .commit d = [(child, config)] ∧
    validUsername child = true ∧
    PinLink.buildPairing (PinLink.offerLink guardian relays) machine ⟨subjectRandom⟩ now =
      .ok pin ∧
    ¬(d.pairing = some (.pairing pin) ∧ config.subject = some (hex32 subjectRandom))

/-- With nothing failing before the token, the child can be bound. -/
theorem bind_ok {child : String} {config : ChildConfig} (subjectRandom : BitVec 256)
    (hfault : fault = some .removeToken)
    (hload : loadChildConfigs format fault .commit d = [(child, config)])
    (hname : validUsername child = true) :
    (setChildSubject format fault .bind child (some (hex32 subjectRandom)) d).1 = .ok () := by
  have hloads : ∀ phase, ∀ s ∈ fault, ¬Loads phase s := by
    rintro phase s hs
    obtain rfl := Option.some.inj (hs.symm.trans hfault)
    exact fun h => h
  refine setChildSubject_ok hname ?_ ?_ ?_
  · rintro s hs
    obtain rfl := Option.some.inj hs
    exact (boundSubject_eq_self (boundSubject_hex32 subjectRandom)).1
  · intro x hx
    obtain ⟨f, hf, huser, hread⟩ := mem_loadChildConfigs hx
    have hmem := mem_loadChildConfigs_of (hloads .commit) hf hread
    rw [hload, List.mem_singleton] at hmem
    rw [← huser]
    exact congrArg Prod.fst hmem
  · rintro s hs
    obtain rfl := Option.some.inj (hs.symm.trans hfault)
    exact fun h => h

/-- The subject that is minted is a key. -/
theorem fromHex_hex32 (b : BitVec 256) : PubKey.fromHex (hex32 b) = some ⟨b⟩ :=
  PubKey.fromHex_toHex ⟨b⟩

/-- A purge is of stores only. -/
theorem purgeStore_spec (subject : String) :
    (purgeStore fault subject d).limits = d.limits ∧
      (purgeStore fault subject d).pairing = d.pairing ∧
      (purgeStore fault subject d).token = d.token := by
  unfold purgeStore
  split_ifs
  · exact ⟨rfl, rfl, rfl⟩
  · exact ⟨rfl, rfl, rfl⟩

/-- How far a commit that has bound the child comes, by what each step leaves. -/
theorem committed_of {p : PinnedPairing} {guardian : PubKey} {subjectRandom : BitVec 256}
    {child : String} {c : ChildConfig} {d' : PinDisk Text}
    (hchild : child ∈ d.limits.entries.map ConfigFile.user)
    (hp : p.guardianPubkey = guardian ∧ p.subjectPubkey = ⟨subjectRandom⟩)
    (hc : c.subject = some (hex32 subjectRandom))
    (hlimits : d'.limits = d.limits.put ⟨child, format.write c⟩)
    (hpairing : d'.pairing = some (.pairing p)) (htoken : d'.token = none) :
    Committed format guardian subjectRandom d d' := by
  have hbound : ∀ s ∈ c.subject, boundSubject s = some s := by
    intro s hs
    obtain rfl := Option.some.inj (hc.symm.trans hs)
    exact boundSubject_hex32 subjectRandom
  refine ⟨⟨p, hpairing, hp⟩, ⟨child, hchild, ?_, ?_⟩, htoken⟩
  · rw [binding_put hbound child hlimits, if_pos rfl, hc]
  · intro user huser
    rw [binding_put hbound user hlimits, if_neg huser]

/-- The step of the commit that binds the child, seen from its result. -/
theorem boundChild_spec {child : String} {subjectRandom : BitVec 256}
    (r : Except LinkError Unit × PinDisk Text)
    (hr : r = setChildSubject format fault .bind child (some (hex32 subjectRandom)) d) :
    Refused d r ∨ validUsername child = true ∧ Saved format child (some (hex32 subjectRandom)) d r := by
  have hlower : (some (hex32 subjectRandom)).map lowerSubject = some (hex32 subjectRandom) :=
    congrArg some (boundSubject_eq_self (boundSubject_hex32 subjectRandom)).2
  have hspec := @setChildSubject_spec _ format fault .bind
    d child (some (hex32 subjectRandom))
  rw [hlower, ← hr] at hspec
  exact hspec

theorem nodup_oneChild :
    ([(⟨"tommy", some (JsonObject.hourADay .null)⟩ : ConfigFile (Option JsonObject))].map
      ConfigFile.user).Nodup := List.nodup_singleton _

/-- A computer with one child, who is bound to nobody, and a token on show. -/
def oneChild : PinDisk (Option JsonObject) where
  limits := ⟨_, nodup_oneChild⟩
  limitsTmp := none
  pairing := none
  pairingTmp := none
  token := some "0a1b2c3d4e5f60718293a4b5c6d7e8f9"
  stores := []

end PinDisk

end Kintrinsic
