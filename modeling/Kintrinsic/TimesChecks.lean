import Kintrinsic.DomainNames
import Kintrinsic.GroupBuckets
import Kintrinsic.GuardianTexts
import Kintrinsic.MinuteCodec
import Kintrinsic.TimesWire

/-! # Two checks of a set of times

The guardian's check and the device's, each as what it asks.  They ask the same of a domain and of
an id, and of a site's address they ask the same but for two characters that one of the two alone
takes for white space. -/
namespace Kintrinsic

/-! ## Domains -/

theorem toNat_lt_of_isHostChar {c : Char} (h : isHostChar c = true) : c.toNat < 128 := by
  unfold isHostChar Char.isAlpha at h
  simp only [Bool.or_eq_true, beq_iff_eq] at h
  rcases h with (((hupper | hlower) | hdigit) | rfl) | rfl
  · exact (MinuteSet.toNat_le_of_isUpper hupper).trans_lt (by decide)
  · exact (MinuteSet.toNat_le_of_isLower hlower).trans_lt (by decide)
  · exact (Char.isDigit_iff_toNat.mp hdigit).2.trans_lt (by decide)
  · decide
  · decide

/-- A letter of a domain stands in a host once it is in lower case. -/
theorem isHostChar_lower {c : Char} (h : isHostChar c = true) :
    Text.isHostChar (Text.asciiLower c) = true := by
  have hall : ∀ n < 128, isHostChar (Char.ofNat n) = true →
      Text.isHostChar (Text.asciiLower (Char.ofNat n)) = true := by decide
  have hc := hall c.toNat (toNat_lt_of_isHostChar h)
  rw [Char.ofNat_toNat] at hc
  exact hc h

/-- What is left when an end and a front are taken off a text was in it. -/
theorem mem_of_host {pre s : List Char} {c : Char}
    (h : c ∈ Text.withoutPrefix pre (Text.trimEndBy (· = '.') s)) : c ∈ s := by
  have htrim : c ∈ Text.trimEndBy (· = '.') s := by
    unfold Text.withoutPrefix at h
    split at h
    · exact List.mem_of_mem_drop h
    · exact h
  exact (trimEndBy_eq _ s ▸ List.rdropWhile_prefix _ s).subset htrim

/-- The host in a text of such letters: the text in lower case, without the dots at its end. -/
theorem hostText_of_all {d : String} (h : ∀ c ∈ d.toList, isHostChar c = true) :
    hostText d = Text.trimEndBy (· = '.') (d.toList.map Text.asciiLower) := by
  have hlower : ∀ c ∈ d.toList.map Text.asciiLower, Text.isHostChar c = true := by
    intro c hc
    obtain ⟨raw, hraw, rfl⟩ := List.mem_map.mp hc
    exact isHostChar_lower (h raw hraw)
  have hspec := fun c hc => Text.isHostChar_spec (hlower c hc)
  have hspace : ∀ c ∈ d.toList.map Text.asciiLower, Text.isWhiteSpace c = false :=
    fun c hc => (hspec c hc).2.1
  let spelling : Spelling (d.toList.map Text.asciiLower) :=
    { scheme := []
      name := d.toList
      dots := 0
      port := []
      path := []
      scheme_lower := List.mem_cons_self
      name_lower := rfl
      bare := ⟨fun c hc => by simp [endsHost, (hspec c hc).2.2],
        Text.dropWhile_eq_self hspace, Text.trimEndBy_eq_self hspace⟩
      port_digits := .inl rfl
      path_head := fun c hc => absurd hc (Option.not_mem_none c) }
  have htext : String.ofList spelling.text = d := by
    rw [← String.toList_inj, String.toList_ofList]
    show [] ++ (d.toList ++ ([] ++ ([] ++ []))) = d.toList
    simp
  rw [← spelling.hostText_text, htext]

/-- What both ask of the host in a domain. -/
def GoodHost (host : List Char) : Prop :=
  host ≠ [] ∧ host.length ≤ 253 ∧ ∀ l ∈ host.splitOn '.', l ≠ [] ∧ l.length ≤ 63

theorem validSiteDomain_iff {d : String} (h : ∀ c ∈ d.toList, isHostChar c = true) :
    validSiteDomain d = true ↔ GoodHost (Text.withoutPrefix "www.".toList (hostText d)) := by
  have hletters : ∀ c ∈ Text.withoutPrefix "www.".toList (hostText d),
      Text.isHostChar c = true := by
    intro c hc
    rw [hostText_of_all h] at hc
    obtain ⟨raw, hraw, rfl⟩ := List.mem_map.mp (mem_of_host hc)
    exact isHostChar_lower (h raw hraw)
  have hparse : (parseDomain d).isSome = true ↔
      isValidDomain (String.ofList (Text.withoutPrefix "www.".toList (hostText d))) = true := by
    rw [Option.isSome_iff_exists, ← normalizeDomain_eq]
    constructor
    · rintro ⟨host, hhost⟩
      obtain ⟨rfl, hvalid⟩ := parseDomain_eq_some.mp hhost
      exact hvalid
    · intro hvalid
      exact ⟨_, parseDomain_eq_some.mpr ⟨rfl, hvalid⟩⟩
  unfold validSiteDomain
  rw [List.all_eq_true.mpr h, Bool.true_and, hparse, isValidDomain_iff]
  constructor
  · rintro ⟨hne, hlength, -, hlabels⟩
    exact ⟨hne, hlength, hlabels⟩
  · rintro ⟨hne, hlength, hlabels⟩
    exact ⟨hne, hlength, hletters, hlabels⟩

theorem domainFault_iff {d : String} (h : ∀ c ∈ d.toList, isHostChar c = true) :
    domainFault d = false ↔ GoodHost (Text.withoutPrefix "www.".toList (hostText d)) := by
  unfold domainFault
  by_cases hempty : d.toList = []
  · rw [hostText_of_all h, hempty]
    simp [GoodHost, Text.trimEndBy, Text.withoutPrefix]
  · have hletters : d.toList.all isHostChar = true := List.all_eq_true.mpr h
    rw [hostText_of_all h]
    dsimp only
    rw [if_neg (by simp [hempty, hletters])]
    show (_ || _ || _) = false ↔ _
    simp only [GoodHost, Bool.or_eq_false_iff, List.isEmpty_eq_false_iff, decide_eq_false_iff_not,
      Nat.not_lt, List.any_eq_false, Bool.or_eq_true, List.isEmpty_iff, decide_eq_true_eq, not_or,
      and_assoc, ne_eq]
    rfl

/-- **One answer about a domain.** -/
theorem domainFault_eq_false_iff (d : String) :
    domainFault d = false ↔ validSiteDomain d = true := by
  by_cases hletters : d.toList.all isHostChar = true
  · have hall := List.all_eq_true.mp hletters
    rw [domainFault_iff hall, validSiteDomain_iff hall]
  · have hfault : domainFault d = true := by simp [domainFault, hletters]
    have hvalid : validSiteDomain d = false := by simp [validSiteDomain, hletters]
    rw [hfault, hvalid]
    simp

/-! ## Sites -/

theorem ite_some_eq_none {α : Type} {p : Prop} [Decidable p] {x : α} {rest : Option α} :
    (if p then some x else rest) = none ↔ ¬p ∧ rest = none := by
  by_cases hp : p
  · simp [hp]
  · simp [hp]

theorem ite_error_eq_ok {ε : Type} {p : Prop} [Decidable p] {e : ε} {rest : Except ε Unit} :
    (if p then .error e else rest) = .ok () ↔ ¬p ∧ rest = .ok () := by
  by_cases hp : p
  · simp [hp]
  · simp [hp]

/-- What both ask of a site's id, its address and its domains, where `space` is white space. -/
structure Launch (space : Char → Bool) (id url : String) (domains : List String) : Prop where
  slug : validId id = true
  url_ne : url ≠ ""
  https : "https://".toList.isPrefixOf url.toList = true
  bare : ∀ c ∈ url.toList, space c = false ∧ c ≠ ','
  domains_ne : domains ≠ []
  domains_valid : ∀ d ∈ domains, validSiteDomain d = true

theorem bare_iff {space : Char → Bool} {s : List Char} :
    (s.any fun c => space c || c == ',') = false ↔ ∀ c ∈ s, space c = false ∧ c ≠ ',' := by
  rw [List.any_eq_false]
  refine forall₂_congr fun c _ => ?_
  rw [Bool.not_eq_true, Bool.or_eq_false_iff, beq_eq_false_iff_ne]

/-- The guardian's check of a site. -/
theorem siteFault_eq_none (a : LearningAppSel) : siteFault a = none ↔
    a.kind = .site ∧ jsTrim a.label ≠ "" ∧
      Launch isJsSpace a.id (a.url.getD "") (a.domains.getD []) := by
  have hdomains : (a.domains.getD []).any domainFault = false ↔
      ∀ d ∈ a.domains.getD [], validSiteDomain d = true := by
    rw [List.any_eq_false]
    refine forall₂_congr fun d _ => ?_
    rw [Bool.not_eq_true, domainFault_eq_false_iff]
  unfold siteFault
  simp only [ite_some_eq_none, ne_eq, not_not, Bool.not_eq_true, Bool.or_eq_false_iff, bare_iff,
    hdomains, Bool.not_eq_false', and_true]
  constructor
  · rintro ⟨hkind, ⟨hne, hslug⟩, hlabel, hurl, ⟨hhttps, hbare⟩, hnil, hall⟩
    refine ⟨hkind, hlabel, ?_, hurl, hhttps, hbare, hnil, hall⟩
    unfold validId
    rw [hne, hslug]
    rfl
  · rintro ⟨hkind, hlabel, hslug, hurl, hhttps, hbare, hnil, hall⟩
    unfold validId at hslug
    rw [Bool.and_eq_true, Bool.not_eq_true'] at hslug
    exact ⟨hkind, hslug, hlabel, hurl, ⟨hhttps, hbare⟩, hnil, hall⟩

/-- The device's check of a site. -/
theorem validate_site_iff {a : LearningApp} (hkind : a.kind = .site) : a.validate = .ok () ↔
    Launch Text.isWhiteSpace a.id (a.url.getD "") a.domains := by
  have hdomains : a.domains.find? (fun d => !validSiteDomain d) = none ↔
      ∀ d ∈ a.domains, validSiteDomain d = true := by
    rw [List.find?_eq_none]
    refine forall₂_congr fun d _ => ?_
    rw [Bool.not_eq_true, Bool.not_eq_false']
  have hurl : validLearningUrl (a.url.getD "") = true ↔
      "https://".toList.isPrefixOf (a.url.getD "").toList = true ∧
        ∀ c ∈ (a.url.getD "").toList, Text.isWhiteSpace c = false ∧ c ≠ ',' := by
    unfold validLearningUrl
    rw [Bool.and_eq_true, Bool.not_eq_true', bare_iff]
  unfold LearningApp.validate
  rw [hkind]
  simp only [ite_error_eq_ok, Bool.not_eq_true', Bool.not_eq_false, not_or, hurl]
  constructor
  · rintro ⟨hslug, ⟨hne, hnil⟩, ⟨hhttps, hbare⟩, hfind⟩
    refine ⟨hslug, hne, hhttps, hbare, hnil, hdomains.mp ?_⟩
    cases hcase : a.domains.find? fun d => !validSiteDomain d with
    | none => rfl
    | some d => simp [hcase] at hfind
  · rintro ⟨hslug, hne, hhttps, hbare, hnil, hall⟩
    refine ⟨hslug, ⟨hne, hnil⟩, ⟨hhttps, hbare⟩, ?_⟩
    rw [hdomains.mpr hall]

/-- U+0085, a line break of old, is white space to the device alone. -/
def nextLine : Char := Char.ofNat 0x85

/-- U+FEFF, the mark of a byte order, is white space to the guardian alone. -/
def byteOrderMark : Char := Char.ofNat 0xfeff

theorem isWhiteSpace_of_isJsSpace {c : Char} (h : isJsSpace c = false) (hc : c ≠ nextLine) :
    Text.isWhiteSpace c = false := by
  have hne : c.toNat ≠ 0x85 := fun heq => hc (Char.toNat_inj.mp heq)
  unfold isJsSpace at h
  unfold Text.isWhiteSpace
  rw [decide_eq_false_iff_not] at h ⊢
  omega

theorem isJsSpace_of_isWhiteSpace {c : Char} (h : Text.isWhiteSpace c = false)
    (hc : c ≠ byteOrderMark) : isJsSpace c = false := by
  have hne : c.toNat ≠ 0xfeff := fun heq => hc (Char.toNat_inj.mp heq)
  unfold isJsSpace
  unfold Text.isWhiteSpace at h
  rw [decide_eq_false_iff_not] at h ⊢
  omega

/-- A site that one of the two lets through is let through where every character of its address
that is not white space to the one is none to the other. -/
theorem Launch.mono {space space' : Char → Bool} {id url : String} {domains : List String}
    (h : Launch space id url domains)
    (hspace : ∀ c ∈ url.toList, space c = false → space' c = false) :
    Launch space' id url domains :=
  ⟨h.slug, h.url_ne, h.https, fun c hc => ⟨hspace c hc (h.bare c hc).1, (h.bare c hc).2⟩,
    h.domains_ne, h.domains_valid⟩

/-! ## Ids -/

/-- **One answer about an id**, but that the device refuses the reserved one apart. -/
theorem isValidTimeId_iff (id : String) :
    isValidTimeId id = true ↔ validTimeId id = true ∧ id ≠ freeTimeId := by
  have hne : id.toList ≠ [] ↔ 1 ≤ id.toList.length := List.length_pos_iff.symm
  unfold isValidTimeId validTimeId
  simp only [Bool.and_eq_true, decide_eq_true_eq, bne_iff_ne, Bool.not_eq_true',
    List.isEmpty_eq_false_iff, List.all_eq_true, hne]
  refine and_congr_left fun _ => and_congr_left fun hchars => ?_
  rw [byteLen_of_idChars hchars]

/-! ## Times -/

/-- The guardian's check of a time. -/
theorem namedTimeFault_eq_none (t : TimeSel) : namedTimeFault t = none ↔
    isValidTimeId t.id = true ∧ 1 ≤ t.label.toList.length ∧
      t.label.toList.length ≤ maxTimeLabelLen ∧
      (t.posture = .onlyThese → ∀ a ∈ t.sites.getD [], siteFault a = none) := by
  unfold namedTimeFault
  simp only [ite_some_eq_none, Bool.not_eq_true', Bool.not_eq_false, not_or, Nat.not_lt, and_assoc]
  refine and_congr_right fun _ => and_congr_right fun _ => and_congr_right fun _ => ?_
  by_cases hposture : t.posture = .onlyThese
  · simp [hposture, List.findSome?_eq_none_iff]
  · simp [hposture]

/-- One round of a loop over the ids seen so far. -/
theorem fresh_cons {α : Type} {key : α → String} {p : α → Prop} {seen : List String} {a : α}
    {l : List α} :
    (key a ∉ seen ∧ (∀ b ∈ l, p b ∧ key b ∉ key a :: seen) ∧ (l.map key).Nodup) ↔
      (key a ∉ seen ∧ ∀ b ∈ l, p b ∧ key b ∉ seen) ∧ ((a :: l).map key).Nodup := by
  simp only [List.mem_cons, not_or, List.map_cons, List.nodup_cons]
  constructor
  · rintro ⟨ha, hl, hnodup⟩
    refine ⟨⟨ha, fun b hb => ⟨(hl b hb).1, (hl b hb).2.2⟩⟩, fun hmem => ?_, hnodup⟩
    obtain ⟨b, hb, heq⟩ := List.mem_map.mp hmem
    exact (hl b hb).2.1 heq
  · rintro ⟨⟨ha, hl⟩, hfirst, hnodup⟩
    refine ⟨ha, fun b hb => ⟨(hl b hb).1, fun heq => ?_, (hl b hb).2⟩, hnodup⟩
    exact hfirst (heq ▸ List.mem_map_of_mem hb)

theorem faultAmong_eq_none {seen : List String} {times : List TimeSel} :
    faultAmong seen times = none ↔ (∀ t ∈ times, namedTimeFault t = none ∧ t.id ∉ seen) ∧
      (times.map (·.id)).Nodup := by
  induction times generalizing seen with
  | nil => simp [faultAmong]
  | cons t times ih =>
    unfold faultAmong
    cases hfault : namedTimeFault t with
    | some fault => simp [hfault]
    | none =>
      show (if t.id ∈ seen then _ else _) = none ↔ _
      rw [ite_some_eq_none, ih, @fresh_cons _ TimeSel.id, List.forall_mem_cons, hfault]
      simp

/-- **What the guardian lets through.** -/
theorem timesFault_eq_none {times : List TimeSel} : timesFault times = none ↔
    times.length ≤ maxNamedTimes ∧ (∀ t ∈ times, namedTimeFault t = none) ∧
      (times.map (·.id)).Nodup := by
  unfold timesFault
  rw [ite_some_eq_none, faultAmong_eq_none, Nat.not_lt]
  simp

theorem validateSites_ok {id : String} {sites : List LearningApp} :
    validateSites id sites = .ok () ↔ ∀ a ∈ sites, a.kind = .site ∧ a.validate = .ok () := by
  induction sites with
  | nil => simp [validateSites]
  | cons a sites ih =>
    unfold validateSites
    rw [ite_error_eq_ok, List.forall_mem_cons, ← ih, not_not, and_assoc]
    refine and_congr_right fun _ => ?_
    cases a.validate with
    | error fault => simp
    | ok u => simp

/-- The device's check of a time. -/
theorem NamedTime.validate_ok {t : NamedTime} : t.validate = .ok () ↔
    1 ≤ t.label.toList.length ∧ t.label.toList.length ≤ maxTimeLabelLen ∧
      (t.posture = .onlyThese → ∀ a ∈ t.sites, a.kind = .site ∧ a.validate = .ok ()) := by
  unfold NamedTime.validate
  rw [ite_error_eq_ok, not_or, Nat.not_lt, and_assoc, ← Ne.eq_def, ← Nat.one_le_iff_ne_zero]
  refine and_congr_right fun _ => and_congr_right fun _ => ?_
  by_cases hposture : t.posture = .onlyThese
  · simp [hposture, validateSites_ok]
  · simp [hposture]

theorem validateTimes_ok {seen : List String} {times : List NamedTime} :
    validateTimes seen times = .ok () ↔
      (∀ t ∈ times, (validTimeId t.id = true ∧ t.id ≠ freeTimeId ∧ t.validate = .ok ()) ∧
        t.id ∉ seen) ∧ (times.map (·.id)).Nodup := by
  induction times generalizing seen with
  | nil => simp [validateTimes]
  | cons t times ih =>
    unfold validateTimes
    simp only [ite_error_eq_ok, Bool.not_eq_false]
    cases hvalid : t.validate with
    | error fault => simp [hvalid]
    | ok u =>
      show _ ∧ _ ∧ t.id ∉ seen ∧ validateTimes (t.id :: seen) times = .ok () ↔ _
      rw [ih, @fresh_cons _ NamedTime.id, List.forall_mem_cons, hvalid]
      simp only [and_assoc, true_and]

/-- **What the device lets through.** -/
theorem GrantTimes.validate_ok {g : GrantTimes} : g.validate = .ok () ↔
    g.times.length ≤ maxNamedTimes ∧
      (∀ t ∈ g.times, validTimeId t.id = true ∧ t.id ≠ freeTimeId ∧ t.validate = .ok ()) ∧
      (g.times.map (·.id)).Nodup := by
  unfold GrantTimes.validate
  rw [ite_error_eq_ok, validateTimes_ok, Nat.not_lt]
  simp

end Kintrinsic
