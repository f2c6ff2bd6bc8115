import Kintrinsic.TimesChecks

/-! # What the device reads of the guardian's times

What the guardian writes of a set that it lets through is trimmed already, and the device reads it
back as it was written. -/
namespace Kintrinsic

/-! ## What is written and read back -/

/-- A field that is left out is not there. -/
theorem lookup_present {fields : List (String × Option Json)} (h : (fields.map Prod.fst).Nodup)
    (k : String) : (present fields).lookup k = (fields.lookup k).join := by
  induction fields with
  | nil => rfl
  | cons f fields ih =>
    obtain ⟨key, v⟩ := f
    rw [List.map_cons, List.nodup_cons] at h
    have hrest := ih h.2
    by_cases hkey : k = key
    · subst hkey
      rw [List.lookup_cons_self]
      cases v with
      | some v => exact List.lookup_cons_self
      | none =>
        have hnone : fields.lookup k = none := by
          rw [List.lookup_eq_none_iff]
          intro f hf
          rw [bne_iff_ne]
          rintro rfl
          exact h.1 (List.mem_map.mpr ⟨f, hf, rfl⟩)
        rw [hnone] at hrest
        exact hrest
    · have hbeq : (k == key) = false := beq_eq_false_iff_ne.mpr hkey
      rw [List.lookup_cons, hbeq, ← hrest]
      cases v with
      | none => rfl
      | some v =>
        show List.lookup k ((key, v) :: present fields) = _
        rw [List.lookup_cons, hbeq]

theorem NamedTime.nodup_fields (t : NamedTime) : (t.fields.map Prod.fst).Nodup := by
  unfold NamedTime.fields
  simp

theorem asTexts_textsJson (list : List String) : Json.asTexts (textsJson list) = some list := by
  show (list.map Json.str).mapM Json.asString = some list
  rw [SextetGroups.mapM_eq_some_iff, List.forall₂_map_left_iff, List.forall₂_same]
  exact fun _ _ => rfl

theorem textsOr_listField (list : List String) : textsOr (listField list) = some list := by
  unfold listField
  by_cases hnil : list = []
  · rw [if_pos hnil, hnil]
    rfl
  · rw [if_neg hnil]
    exact asTexts_textsJson list

/-- A site as it is sent. -/
structure LearningApp.Sent (a : LearningApp) : Prop where
  kind : a.kind = .site
  url : ∃ url, a.url = some url
  bare : a.exec = none ∧ a.trusted = false ∧ a.free = none

theorem ofJson_siteJson {a : LearningApp} (h : a.Sent) :
    LearningApp.ofJson (siteJson a) = some a := by
  obtain ⟨id, label, kind, domains, url, exec, trusted, free⟩ := a
  obtain ⟨hkind, ⟨url', hurl⟩, hexec, htrusted, hfree⟩ := h
  obtain rfl : kind = .site := hkind
  obtain rfl : url = some url' := hurl
  obtain rfl : exec = none := hexec
  obtain rfl : trusted = false := htrusted
  obtain rfl : free = none := hfree
  show (do
    let domains ← Json.asTexts (textsJson domains)
    some (⟨id, label, .site, domains, some url', none, false, none⟩ : LearningApp)) = _
  rw [asTexts_textsJson]
  rfl

/-- **The device reads back a time that is written.** -/
theorem ofJson_toJson {t : NamedTime} (hsites : ∀ a ∈ t.sites, a.Sent) :
    NamedTime.ofJson t.toJson = some t := by
  have hposture : TimePosture.ofJson (.str t.posture.text) = some t.posture := by
    cases t.posture with
    | everythingExcept => rfl
    | onlyThese => rfl
  have hlist : (if t.sites = [] then none else some (.arr (t.sites.map siteJson))).elim (some [])
      (fun v : Json => v.asArray.bind (·.mapM LearningApp.ofJson)) = some t.sites := by
    by_cases hnil : t.sites = []
    · rw [if_pos hnil, hnil]
      rfl
    · rw [if_neg hnil]
      show (t.sites.map siteJson).mapM LearningApp.ofJson = some t.sites
      rw [SextetGroups.mapM_eq_some_iff, List.forall₂_map_left_iff, List.forall₂_same]
      exact fun a ha => ofJson_siteJson (hsites a ha)
  have hcounts : Json.optional Json.asBool (t.countsAgainstBudget.map Json.bool) =
      some t.countsAgainstBudget := by
    cases t.countsAgainstBudget with
    | none => rfl
    | some b => rfl
  unfold NamedTime.toJson NamedTime.ofJson
  simp only [lookup_present t.nodup_fields]
  show NamedTime.ofFields (.str t.id) (.str t.label) (.str t.posture.text) (listField t.blockApps)
    (listField t.unblockApps) (listField t.denySites) (listField t.undenySites) (listField t.apps)
    (if t.sites = [] then none else some (.arr (t.sites.map siteJson)))
    (t.countsAgainstBudget.map Json.bool) = some t
  unfold NamedTime.ofFields
  rw [hposture, textsOr_listField, textsOr_listField, textsOr_listField, textsOr_listField,
    textsOr_listField, hlist, hcounts]
  rfl

theorem GrantTimes.fromValue_eq_ok {body : Json} {g : GrantTimes} :
    GrantTimes.fromValue body = .ok g ↔
      GrantTimes.ofJson body = some g ∧ g.v = 1 ∧ g.validate = .ok () := by
  unfold GrantTimes.fromValue
  constructor
  · intro h
    split at h
    · cases h
    · rename_i g' hread
      split at h
      · cases h
      · rename_i hv
        split at h
        · cases h
        · rename_i hvalid
          obtain rfl := Except.ok.inj h
          exact ⟨hread, not_not.mp hv, hvalid⟩
  · rintro ⟨hread, hv, hvalid⟩
    rw [hread]
    dsimp only
    rw [if_neg (not_not.mpr hv), hvalid]

theorem GrantTimes.ofJson_obj {fields : List (String × Json)} {v times issuedAt : Json}
    (hv : fields.lookup "v" = some v) (htimes : fields.lookup "times" = some times)
    (hissued : fields.lookup "issuedAt" = some issuedAt) :
    GrantTimes.ofJson (.obj fields) = GrantTimes.ofFields v times issuedAt := by
  unfold GrantTimes.ofJson
  simp only [hv, htimes, hissued, Option.bind_eq_bind, Option.bind_some]

/-- A clause is read when each of its fields is. -/
theorem GrantTimes.ofFields_eq_some {v times issuedAt : Json} {g : GrantTimes} :
    GrantTimes.ofFields v times issuedAt = some g ↔
      Json.asBelow (2 ^ 32) v = some g.v ∧
        (∃ elems, times.asArray = some elems ∧ elems.mapM NamedTime.ofJson = some g.times) ∧
        issuedAt.asU64 = some g.issuedAt := by
  unfold GrantTimes.ofFields
  simp only [Option.bind_eq_bind, Option.bind_eq_some_iff, Option.some.injEq]
  constructor
  · rintro ⟨v', hv, elems, helems, times', htimes, stamp, hstamp, rfl⟩
    exact ⟨hv, ⟨elems, helems, htimes⟩, hstamp⟩
  · rintro ⟨hv, ⟨elems, helems, htimes⟩, hstamp⟩
    exact ⟨g.v, hv, elems, helems, g.times, htimes, g.issuedAt, hstamp, rfl⟩

/-- **The device reads back a clause that is written**, if it lets it through. -/
theorem fromValue_toJson {g : GrantTimes} (hv : g.v = 1) (hissued : g.issuedAt < 2 ^ 64)
    (hsites : ∀ t ∈ g.times, ∀ a ∈ t.sites, a.Sent) (hvalid : g.validate = .ok ()) :
    GrantTimes.fromValue g.toJson = .ok g := by
  have htimes : (g.times.map NamedTime.toJson).mapM NamedTime.ofJson = some g.times := by
    rw [SextetGroups.mapM_eq_some_iff, List.forall₂_map_left_iff, List.forall₂_same]
    exact fun t ht => ofJson_toJson (hsites t ht)
  have hversion : Json.asBelow (2 ^ 32) (.int g.v) = some g.v :=
    Json.asBelow_int (by rw [hv]; norm_num)
  have hfields : GrantTimes.ofFields (.int g.v) (.arr (g.times.map NamedTime.toJson))
      (.int g.issuedAt) = some g :=
    GrantTimes.ofFields_eq_some.mpr ⟨hversion, ⟨_, rfl, htimes⟩, Json.asU64_int hissued⟩
  refine GrantTimes.fromValue_eq_ok.mpr ⟨?_, hv, hvalid⟩
  unfold GrantTimes.toJson
  rw [GrantTimes.ofJson_obj (by rfl) (by rfl) (by rfl)]
  exact hfields

/-! ## What is sent -/

/-- The sites that the posture of a time looks at. -/
def TimeSel.sitesInForce (t : TimeSel) : List LearningAppSel :=
  if t.posture = .onlyThese then t.sites.getD [] else []

def NamedTime.sitesInForce (t : NamedTime) : List LearningApp :=
  if t.posture = .onlyThese then t.sites else []

theorem TimeSel.mem_sitesInForce {t : TimeSel} {a : LearningAppSel} :
    a ∈ t.sitesInForce ↔ t.posture = .onlyThese ∧ a ∈ t.sites.getD [] := by
  unfold TimeSel.sitesInForce
  by_cases honly : t.posture = .onlyThese
  · simp [honly]
  · simp [honly]

theorem NamedTime.mem_sitesInForce {t : NamedTime} {a : LearningApp} :
    a ∈ t.sitesInForce ↔ t.posture = .onlyThese ∧ a ∈ t.sites := by
  unfold NamedTime.sitesInForce
  by_cases honly : t.posture = .onlyThese
  · simp [honly]
  · simp [honly]

theorem jsTrim_of_bare {s : String} (h : ∀ c ∈ s.toList, isJsSpace c = false) : jsTrim s = s := by
  unfold jsTrim
  rw [Text.dropWhile_eq_self h, Text.trimEndBy_eq_self h, String.ofList_toList]

/-- A good domain is not empty, and nothing of it is trimmed off. -/
theorem trimmed_of_valid {d : String} (h : validSiteDomain d = true) : jsTrim d = d ∧ d ≠ "" := by
  have hletters : d.toList.all isHostChar = true := by
    unfold validSiteDomain at h
    exact (Bool.and_eq_true_iff.mp h).1
  have hall := List.all_eq_true.mp hletters
  have hspace : ∀ n < 128, isHostChar (Char.ofNat n) = true → isJsSpace (Char.ofNat n) = false := by
    decide
  refine ⟨jsTrim_of_bare fun c hc => ?_, ?_⟩
  · have hchar := hspace c.toNat (toNat_lt_of_isHostChar (hall c hc))
    rw [Char.ofNat_toNat] at hchar
    exact hchar (hall c hc)
  · rintro rfl
    exact ((validSiteDomain_iff hall).mp h).1 (by rw [hostText_of_all hall]; rfl)

/-- A site that the guardian lets through is let through in its wire form. -/
theorem Launch.clean {id url : String} {domains : List String}
    (h : Launch isJsSpace id url domains) :
    Launch isJsSpace id (jsTrim url) (cleanTexts domains) := by
  have hurl : jsTrim url = url := jsTrim_of_bare fun c hc => (h.bare c hc).1
  rw [hurl]
  refine ⟨h.slug, h.url_ne, h.https, h.bare, ?_, ?_⟩
  · obtain ⟨d, hd⟩ := List.exists_mem_of_ne_nil domains h.domains_ne
    obtain ⟨htrim, hne⟩ := trimmed_of_valid (h.domains_valid d hd)
    exact List.ne_nil_of_mem (mem_cleanTexts.mpr ⟨⟨d, hd, htrim⟩, hne⟩)
  · intro x hx
    obtain ⟨⟨d, hd, rfl⟩, -⟩ := mem_cleanTexts.mp hx
    rw [(trimmed_of_valid (h.domains_valid d hd)).1]
    exact h.domains_valid d hd

theorem normaliseNamedTime_id (t : TimeSel) : (normaliseNamedTime t).id = t.id := by
  unfold normaliseNamedTime
  cases t.posture with
  | everythingExcept => rfl
  | onlyThese => rfl

theorem normaliseNamedTime_label (t : TimeSel) : (normaliseNamedTime t).label = jsTrim t.label := by
  unfold normaliseNamedTime
  cases t.posture with
  | everythingExcept => rfl
  | onlyThese => rfl

theorem normaliseNamedTime_posture (t : TimeSel) : (normaliseNamedTime t).posture = t.posture := by
  unfold normaliseNamedTime
  cases t.posture with
  | everythingExcept => rfl
  | onlyThese => rfl

theorem normaliseNamedTime_counts (t : TimeSel) : (normaliseNamedTime t).countsAgainstBudget =
    if t.countsAgainstBudget = some true then some true else none := by
  unfold normaliseNamedTime
  cases t.posture with
  | everythingExcept => rfl
  | onlyThese => rfl

theorem normaliseNamedTime_sites (t : TimeSel) :
    (normaliseNamedTime t).sites = t.sitesInForce.map cleanSite := by
  unfold normaliseNamedTime TimeSel.sitesInForce
  cases t.posture with
  | everythingExcept => rfl
  | onlyThese => rfl

theorem normaliseNamedTime_sitesInForce (t : TimeSel) :
    (normaliseNamedTime t).sitesInForce = t.sitesInForce.map cleanSite := by
  unfold NamedTime.sitesInForce
  rw [normaliseNamedTime_posture, normaliseNamedTime_sites]
  unfold TimeSel.sitesInForce
  by_cases honly : t.posture = .onlyThese
  · simp only [if_pos honly]
  · simp only [if_neg honly, List.map_nil]

theorem sent_cleanSite (a : LearningAppSel) : (cleanSite a).Sent :=
  ⟨rfl, ⟨_, rfl⟩, rfl, rfl, rfl⟩

/-- The device lets through the wire form of a time that the guardian lets through, if no address
of its sites has a U+0085. -/
theorem validate_normalise {t : TimeSel} (hfault : namedTimeFault t = none)
    (htrim : jsTrim t.label = t.label)
    (hline : ∀ a ∈ t.sitesInForce, nextLine ∉ (a.url.getD "").toList) :
    (normaliseNamedTime t).validate = .ok () := by
  obtain ⟨-, hlo, hhi, hsites⟩ := (namedTimeFault_eq_none t).mp hfault
  rw [NamedTime.validate_ok, normaliseNamedTime_label, htrim, normaliseNamedTime_posture,
    normaliseNamedTime_sites]
  refine ⟨hlo, hhi, fun hposture b hb => ?_⟩
  obtain ⟨a, ha, rfl⟩ := List.mem_map.mp hb
  obtain ⟨-, hmem⟩ := TimeSel.mem_sitesInForce.mp ha
  obtain ⟨-, -, hlaunch⟩ := (siteFault_eq_none a).mp (hsites hposture a hmem)
  refine ⟨rfl, (validate_site_iff rfl).mpr ?_⟩
  refine hlaunch.clean.mono fun c hc hspace => isWhiteSpace_of_isJsSpace hspace ?_
  rintro rfl
  have hurl : jsTrim (a.url.getD "") = a.url.getD "" :=
    jsTrim_of_bare fun c hc => (hlaunch.bare c hc).1
  rw [hurl] at hc
  exact hline a ha hc

theorem trim_url (a : LearningAppSel) : (a.url.map jsTrim).getD "" = jsTrim (a.url.getD "") := by
  cases a.url with
  | none => rfl
  | some url => rfl

theorem url_of_cleanTime {t : TimeSel} {b : LearningAppSel} (h : b ∈ (cleanTime t).sitesInForce) :
    ∃ a ∈ t.sitesInForce, b.url.getD "" = jsTrim (a.url.getD "") := by
  have hposture : (cleanTime t).posture = t.posture := rfl
  unfold TimeSel.sitesInForce at h ⊢
  rw [hposture] at h
  by_cases honly : t.posture = .onlyThese
  · rw [if_pos honly] at h ⊢
    unfold cleanTime at h
    cases hsites : t.sites with
    | none =>
      rw [hsites] at h
      cases h
    | some sites =>
      rw [hsites] at h
      obtain ⟨a, ha, rfl⟩ := List.mem_map.mp h
      exact ⟨a, ha, trim_url a⟩
  · rw [if_neg honly] at h
    cases h

/-- Trimming before the check does not change the wire form. -/
theorem normaliseNamedTime_cleanTime (t : TimeSel) :
    normaliseNamedTime (cleanTime t) = normaliseNamedTime t := by
  have hsite : ∀ a : LearningAppSel,
      cleanSite { a with url := a.url.map jsTrim, domains := a.domains.map (·.map jsTrim) } =
        cleanSite a := by
    intro a
    have hurl : jsTrim ((a.url.map jsTrim).getD "") = jsTrim (a.url.getD "") := by
      rw [trim_url, jsTrim_jsTrim]
    have hdomains : cleanTexts ((a.domains.map (·.map jsTrim)).getD []) =
        cleanTexts (a.domains.getD []) := by
      cases a.domains with
      | none => rfl
      | some domains =>
        show cleanTexts (domains.map jsTrim) = cleanTexts domains
        have hcomp : jsTrim ∘ jsTrim = jsTrim := funext jsTrim_jsTrim
        unfold cleanTexts
        rw [List.map_map, hcomp]
    unfold cleanSite
    rw [hurl, hdomains]
  have hsites : ((cleanTime t).sites.getD []).map cleanSite =
      (t.sites.getD []).map cleanSite := by
    unfold cleanTime
    cases t.sites with
    | none => rfl
    | some sites =>
      show (sites.map _).map cleanSite = sites.map cleanSite
      rw [List.map_map]
      exact List.map_congr_left fun a _ => hsite a
  have hlabel : jsTrim (cleanTime t).label = jsTrim t.label := jsTrim_jsTrim t.label
  unfold normaliseNamedTime
  rw [hsites, hlabel]
  rfl

/-- The device lets through the wire form of a set that the guardian lets through. -/
theorem validate_sent {times : List TimeSel} {v issuedAt : Nat} (hfault : timesFault times = none)
    (htrim : ∀ t ∈ times, jsTrim t.label = t.label)
    (hline : ∀ t ∈ times, ∀ a ∈ t.sitesInForce, nextLine ∉ (a.url.getD "").toList) :
    GrantTimes.validate ⟨v, times.map normaliseNamedTime, issuedAt⟩ = .ok () := by
  obtain ⟨hlength, hall, hnodup⟩ := timesFault_eq_none.mp hfault
  have hids : (times.map normaliseNamedTime).map (·.id) = times.map (·.id) := by
    rw [List.map_map]
    exact List.map_congr_left fun t _ => normaliseNamedTime_id t
  rw [GrantTimes.validate_ok, hids, List.length_map]
  refine ⟨hlength, fun u hu => ?_, hnodup⟩
  obtain ⟨t, ht, rfl⟩ := List.mem_map.mp hu
  obtain ⟨hid, -⟩ := (namedTimeFault_eq_none t).mp (hall t ht)
  obtain ⟨hvalid, hfree⟩ := (isValidTimeId_iff t.id).mp hid
  rw [normaliseNamedTime_id]
  exact ⟨hvalid, hfree, validate_normalise (hall t ht) (htrim t ht) (hline t ht)⟩

/-- **What is sent is read.** -/
theorem parseOrAbsent_sent {parse : String → Option Json} {times : List TimeSel} {issuedAt : Nat}
    {g : GrantTimes} (hsend : timesToGrant times issuedAt = .ok g) (hissued : issuedAt < 2 ^ 64)
    (hparse : parse g.toJson.text = some g.toJson)
    (hline : ∀ t ∈ times, ∀ a ∈ t.sitesInForce, nextLine ∉ (jsTrim (a.url.getD "")).toList) :
    GrantTimes.parseOrAbsent parse g.toJson.text = some g ∧
      g.times = times.map normaliseNamedTime := by
  have hline' : ∀ t ∈ times.map cleanTime, ∀ a ∈ t.sitesInForce,
      nextLine ∉ (a.url.getD "").toList := by
    intro t' ht'
    obtain ⟨t, ht, rfl⟩ := List.mem_map.mp ht'
    intro a' ha'
    obtain ⟨a, ha, hurl⟩ := url_of_cleanTime ha'
    rw [hurl]
    exact hline t ht a ha
  unfold timesToGrant at hsend
  dsimp only at hsend
  cases hfault : timesFault (times.map cleanTime) with
  | some fault =>
    rw [hfault] at hsend
    cases hsend
  | none =>
    rw [hfault] at hsend
    obtain rfl := Except.ok.inj hsend
    have htimes : (times.map cleanTime).map normaliseNamedTime = times.map normaliseNamedTime := by
      rw [List.map_map]
      exact List.map_congr_left fun t _ => normaliseNamedTime_cleanTime t
    have htrim : ∀ t ∈ times.map cleanTime, jsTrim t.label = t.label := by
      intro t' ht'
      obtain ⟨t, -, rfl⟩ := List.mem_map.mp ht'
      exact jsTrim_jsTrim t.label
    have hsent : ∀ t ∈ (times.map cleanTime).map normaliseNamedTime, ∀ a ∈ t.sites, a.Sent := by
      intro u hu a ha
      obtain ⟨t, -, rfl⟩ := List.mem_map.mp hu
      rw [normaliseNamedTime_sites] at ha
      obtain ⟨raw, -, rfl⟩ := List.mem_map.mp ha
      exact sent_cleanSite raw
    have hread := @fromValue_toJson ⟨1, (times.map cleanTime).map normaliseNamedTime, issuedAt⟩
      rfl hissued hsent (validate_sent hfault htrim hline')
    refine ⟨?_, htimes⟩
    unfold GrantTimes.parseOrAbsent
    rw [hparse, Option.bind_some, hread]
    rfl

end Kintrinsic
