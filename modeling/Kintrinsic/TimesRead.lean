import Kintrinsic.Binary64
import Kintrinsic.TimesSent

/-! # What the guardian reads of the device's times

Of a body of the shape that the guardian writes, the guardian reads whatever the device does: the
same times, the lists of the posture in force trimmed and without repeats. -/
namespace Kintrinsic

/-! ## What the guardian reads back -/

/-- A site of the shape that the guardian knows. -/
def PlainSite (v : Json) : Prop :=
  ∃ fields kind, v = .obj fields ∧ fields.lookup "kind" = some (.str kind)

/-- A time of the shape that the guardian knows: an object, the posture a text, no `null` for the
flag, and the sites in force of that shape. -/
def PlainTime (v : Json) : Prop :=
  ∃ fields posture, v = .obj fields ∧ fields.lookup "posture" = some (.str posture) ∧
    fields.lookup "countsAgainstBudget" ≠ some .null ∧
    (posture = "onlyThese" → ∀ sites, fields.lookup "sites" = some (.arr sites) →
      ∀ site ∈ sites, PlainSite site)

/-- A body of the shape that the guardian knows. -/
def PlainBody (v : Json) : Prop :=
  ∃ fields, v = .obj fields ∧
    ∀ times, fields.lookup "times" = some (.arr times) → ∀ t ∈ times, PlainTime t

/-- A site as the guardian reads one that the device has read. -/
structure SiteAlike (device guardian : LearningApp) : Prop where
  id : guardian.id = device.id
  label : guardian.label = jsTrim device.label
  kind : guardian.kind = device.kind
  url : guardian.url = device.url
  domains : guardian.domains = cleanTexts device.domains

/-- A time as the guardian reads one that the device has read: the lists in force trimmed and
without repeats, all else that counts the same. -/
structure ReadAlike (device guardian : NamedTime) : Prop where
  id : guardian.id = device.id
  label : guardian.label = jsTrim device.label
  posture : guardian.posture = device.posture
  counts : guardian.counts = device.counts
  departures : device.posture = .everythingExcept →
    guardian.blockApps = cleanTexts device.blockApps ∧
    guardian.unblockApps = cleanTexts device.unblockApps ∧
    guardian.denySites = cleanTexts device.denySites ∧
    guardian.undenySites = cleanTexts device.undenySites
  apps : device.posture = .onlyThese → guardian.apps = cleanTexts device.apps
  sites : List.Forall₂ SiteAlike device.sitesInForce guardian.sitesInForce

theorem str_of_asString {v : Json} {s : String} (h : v.asString = some s) : v = .str s := by
  cases v with
  | str text => rw [← Option.some.inj h]
  | null => cases h
  | bool b => cases h
  | int n => cases h
  | float text => cases h
  | arr elems => cases h
  | obj fields => cases h

theorem arr_of_asArray {v : Json} {elems : List Json} (h : v.asArray = some elems) :
    v = .arr elems := by
  cases v with
  | arr l => rw [← Option.some.inj h]
  | null => cases h
  | bool b => cases h
  | int n => cases h
  | float text => cases h
  | str s => cases h
  | obj fields => cases h

/-- A site of the clause, as the guardian reads its fields. -/
def LearningApp.sel (a : LearningApp) : LearningAppSel :=
  ⟨a.id, a.label, .site, some a.domains, some (a.url.getD ""), none, none, none⟩

/-- What the fields of a site are that the device has read. -/
theorem LearningApp.fields_of_ofJson {fields : List (String × Json)} {a : LearningApp}
    (h : LearningApp.ofJson (.obj fields) = some a) :
    fields.lookup "id" = some (.str a.id) ∧ fields.lookup "label" = some (.str a.label) ∧
      (∃ kind, fields.lookup "kind" = some kind ∧ LearningAppKind.ofJson kind = some a.kind) ∧
      (fields.lookup "domains").elim (some []) Json.asTexts = some a.domains ∧
      Json.optional Json.asString (fields.lookup "url") = some a.url := by
  unfold LearningApp.ofJson LearningApp.ofFields at h
  simp only [Option.bind_eq_bind, Option.bind_eq_some_iff, Option.some.injEq] at h
  obtain ⟨id, hid, label, hlabel, kind, hkind, id', hid', label', hlabel', kind', hkind', domains,
    hdomains, url, hurl, exec, -, trusted, -, free, -, rfl⟩ := h
  rw [str_of_asString hid'] at hid
  rw [str_of_asString hlabel'] at hlabel
  exact ⟨hid, hlabel, ⟨kind, hkind, hkind'⟩, hdomains, hurl⟩

/-- A field that is read as something is there. -/
theorem lookup_of_optional {v : Option Json} {s : Option String}
    (h : Json.optional Json.asString v = some s) (hne : s.getD "" ≠ "") :
    ∃ text, v = some (.str text) ∧ s = some text := by
  cases v with
  | none =>
    obtain rfl := Option.some.inj h
    exact absurd rfl hne
  | some v =>
    cases v with
    | str text =>
      obtain rfl := Option.some.inj h
      exact ⟨text, rfl, rfl⟩
    | null =>
      obtain rfl := Option.some.inj h
      exact absurd rfl hne
    | bool b => cases h
    | int n => cases h
    | float text => cases h
    | arr elems => cases h
    | obj fields => cases h

theorem kind_eq_site {kind : String} (h : LearningAppKind.ofJson (.str kind) = some .site) :
    kind = "site" := by
  unfold LearningAppKind.ofJson at h
  split at h
  · rename_i heq
    injection heq
  · cases h
  · rename_i heq
    cases heq
  · cases h
  · cases h

/-- **A site that the device reads and lets through is read by the guardian.** -/
theorem readSite_of_ofJson {v : Json} {a : LearningApp} (h : LearningApp.ofJson v = some a)
    (hplain : PlainSite v) (hkind : a.kind = .site) (hurl : a.url.getD "" ≠ "")
    (hdomains : a.domains ≠ []) : readSite v = some a.sel := by
  obtain ⟨fields, kind, rfl, hkey⟩ := hplain
  obtain ⟨hid, hlabel, ⟨kind', hkind', hread⟩, hlist, htext⟩ := LearningApp.fields_of_ofJson h
  obtain rfl : kind' = .str kind := Option.some.inj (hkind'.symm.trans hkey)
  rw [hkind] at hread
  obtain rfl := kind_eq_site hread
  obtain ⟨url, hfield, hsome⟩ := lookup_of_optional htext hurl
  obtain ⟨list, hdomain, htexts⟩ : ∃ list, fields.lookup "domains" = some list ∧
      Json.asTexts list = some a.domains := by
    cases hfield : fields.lookup "domains" with
    | none =>
      rw [hfield] at hlist
      exact absurd (Option.some.inj hlist).symm hdomains
    | some list =>
      rw [hfield] at hlist
      exact ⟨list, rfl, hlist⟩
  unfold readSite LearningApp.sel
  simp only [hid, hlabel, hkey, hfield, hdomain, htexts, hsome, Json.asString_str,
    Option.bind_eq_bind, Option.bind_some, Option.getD_some, if_true]

/-- What the fields of a time are that the device has read. -/
theorem NamedTime.fields_of_ofJson {fields : List (String × Json)} {t : NamedTime}
    (h : NamedTime.ofJson (.obj fields) = some t) :
    (fields.lookup "id" = some (.str t.id) ∧ fields.lookup "label" = some (.str t.label) ∧
      ∃ posture, fields.lookup "posture" = some posture ∧
        TimePosture.ofJson posture = some t.posture) ∧
      (textsOr (fields.lookup "blockApps") = some t.blockApps ∧
        textsOr (fields.lookup "unblockApps") = some t.unblockApps ∧
        textsOr (fields.lookup "denySites") = some t.denySites ∧
        textsOr (fields.lookup "undenySites") = some t.undenySites ∧
        textsOr (fields.lookup "apps") = some t.apps) ∧
      (fields.lookup "sites").elim (some [])
        (fun v => v.asArray.bind (·.mapM LearningApp.ofJson)) = some t.sites ∧
      Json.optional Json.asBool (fields.lookup "countsAgainstBudget") =
        some t.countsAgainstBudget := by
  obtain ⟨id, hid, h⟩ := Option.bind_eq_some_iff.mp h
  obtain ⟨label, hlabel, h⟩ := Option.bind_eq_some_iff.mp h
  obtain ⟨posture, hposture, h⟩ := Option.bind_eq_some_iff.mp h
  obtain ⟨id', hid', h⟩ := Option.bind_eq_some_iff.mp h
  obtain ⟨label', hlabel', h⟩ := Option.bind_eq_some_iff.mp h
  obtain ⟨posture', hposture', h⟩ := Option.bind_eq_some_iff.mp h
  obtain ⟨block, hblock, h⟩ := Option.bind_eq_some_iff.mp h
  obtain ⟨unblock, hunblock, h⟩ := Option.bind_eq_some_iff.mp h
  obtain ⟨deny, hdeny, h⟩ := Option.bind_eq_some_iff.mp h
  obtain ⟨undeny, hundeny, h⟩ := Option.bind_eq_some_iff.mp h
  obtain ⟨apps, happs, h⟩ := Option.bind_eq_some_iff.mp h
  obtain ⟨sites, hsites, h⟩ := Option.bind_eq_some_iff.mp h
  obtain ⟨counts, hcounts, h⟩ := Option.bind_eq_some_iff.mp h
  obtain rfl := Option.some.inj h
  rw [str_of_asString hid'] at hid
  rw [str_of_asString hlabel'] at hlabel
  exact ⟨⟨hid, hlabel, posture, hposture, hposture'⟩, ⟨hblock, hunblock, hdeny, hundeny, happs⟩,
    hsites, hcounts⟩

/-- A list that the device reads is read by the guardian. -/
theorem readTexts_of_textsOr {v : Option Json} {list : List String} (h : textsOr v = some list) :
    ∃ read, readTexts v = some read ∧ read.getD [] = list := by
  cases v with
  | none => exact ⟨none, rfl, Option.some.inj h⟩
  | some v =>
    have htexts : Json.asTexts v = some list := h
    refine ⟨some list, ?_, rfl⟩
    show (Json.asTexts v).map some = _
    rw [htexts]
    rfl

/-- A flag that the device reads is read by the guardian, unless it is `null`. -/
theorem flag_of_optional {v : Option Json} {b : Option Bool}
    (h : Json.optional Json.asBool v = some b) (hnull : v ≠ some .null) :
    v.elim (some none) (fun v => v.asBool.map some) = some b := by
  cases v with
  | none => exact h
  | some v =>
    cases v with
    | null => exact absurd rfl hnull
    | bool b' => exact h
    | int n => cases h
    | float text => cases h
    | str s => cases h
    | arr elems => cases h
    | obj fields => cases h

/-- The sites of a time that the device lets through are read by the guardian. -/
theorem readSites_of_ofJson {posture : TimePosture} {v : Option Json} {sites : List LearningApp}
    (h : v.elim (some []) (fun v => v.asArray.bind (·.mapM LearningApp.ofJson)) = some sites)
    (hplain : posture = .onlyThese → ∀ elems, v = some (.arr elems) → ∀ e ∈ elems, PlainSite e)
    (hvalid : posture = .onlyThese → ∀ a ∈ sites, a.kind = .site ∧ a.validate = .ok ()) :
    ∃ read, readSites posture v = some read ∧
      (posture = .onlyThese → read.getD [] = sites.map LearningApp.sel) := by
  cases v with
  | none =>
    obtain rfl := Option.some.inj h
    exact ⟨none, rfl, fun _ => rfl⟩
  | some v =>
    obtain ⟨elems, harr, hread⟩ := Option.bind_eq_some_iff.mp h
    obtain rfl := arr_of_asArray harr
    by_cases honly : posture = .onlyThese
    · obtain ⟨read, hsites, hsel⟩ := @SextetGroups.exists_mapM _ _ _ _ readSite
        (fun a s => s = a.sel) _ _ hread (by
          intro e he a ha hea
          obtain ⟨hkind, hcheck⟩ := hvalid honly a ha
          have hlaunch := (validate_site_iff hkind).mp hcheck
          exact ⟨a.sel, readSite_of_ofJson hea (hplain honly elems rfl e he) hkind hlaunch.url_ne
            hlaunch.domains_ne, rfl⟩)
      refine ⟨some read, ?_, fun _ => ?_⟩
      · show (if posture = .onlyThese then (elems.mapM readSite).map some else some (some [])) = _
        rw [if_pos honly, hsites]
        rfl
      · rw [Option.getD_some, ← List.forall₂_eq_eq_eq, List.forall₂_map_right_iff]
        exact hsel.flip
    · refine ⟨some [], ?_, fun h => absurd h honly⟩
      show (if posture = .onlyThese then (elems.mapM readSite).map some else some (some [])) = _
      rw [if_neg honly]

/-- A time as the guardian's reading has it, beside the device's. -/
structure ReadsAs (s : TimeSel) (t : NamedTime) : Prop where
  id : s.id = t.id
  label : s.label = t.label
  posture : s.posture = t.posture
  lists : s.blockApps.getD [] = t.blockApps ∧ s.unblockApps.getD [] = t.unblockApps ∧
    s.denySites.getD [] = t.denySites ∧ s.undenySites.getD [] = t.undenySites ∧
    s.apps.getD [] = t.apps
  sites : s.sitesInForce = t.sitesInForce.map LearningApp.sel
  counts : s.countsAgainstBudget = t.countsAgainstBudget

theorem named_onlyThese {posture : String} (h : TimePosture.named posture = some .onlyThese) :
    posture = "onlyThese" := by
  unfold TimePosture.named at h
  split at h
  · cases h
  · rfl
  · cases h

/-- **A time that the device reads and lets through is read by the guardian.** -/
theorem readTime_of_ofJson {v : Json} {t : NamedTime} (h : NamedTime.ofJson v = some t)
    (hplain : PlainTime v) (hvalid : t.validate = .ok ()) :
    ∃ s, readTime v = some s ∧ ReadsAs s t := by
  obtain ⟨fields, posture, rfl, hkey, hnull, hshape⟩ := hplain
  obtain ⟨⟨hid, hlabel, posture', hposture', hread⟩, ⟨hblock, hunblock, hdeny, hundeny, happs⟩,
    hsites, hcounts⟩ := NamedTime.fields_of_ofJson h
  obtain rfl : posture' = .str posture := Option.some.inj (hposture'.symm.trans hkey)
  have hnamed : TimePosture.named posture = some t.posture := hread
  obtain ⟨-, -, hforce⟩ := NamedTime.validate_ok.mp hvalid
  obtain ⟨block, hblock, hblock'⟩ := readTexts_of_textsOr hblock
  obtain ⟨unblock, hunblock, hunblock'⟩ := readTexts_of_textsOr hunblock
  obtain ⟨deny, hdeny, hdeny'⟩ := readTexts_of_textsOr hdeny
  obtain ⟨undeny, hundeny, hundeny'⟩ := readTexts_of_textsOr hundeny
  obtain ⟨apps, happs, happs'⟩ := readTexts_of_textsOr happs
  obtain ⟨sites, hsites, hsites'⟩ := @readSites_of_ofJson t.posture _ _ hsites
    (fun honly => hshape (named_onlyThese (hnamed.trans (congrArg some honly)))) hforce
  refine ⟨⟨t.id, t.label, t.posture, block, unblock, deny, undeny, apps, sites,
    t.countsAgainstBudget⟩, ?_, rfl, rfl, rfl, ⟨hblock', hunblock', hdeny', hundeny', happs'⟩, ?_,
    rfl⟩
  · unfold readTime
    simp only [hid, hlabel, hkey, hnamed, hblock, hunblock, hdeny, hundeny, happs, hsites,
      flag_of_optional hcounts hnull, Json.asString_str, Option.bind_eq_bind, Option.bind_some]
  · unfold TimeSel.sitesInForce NamedTime.sitesInForce
    dsimp only
    by_cases honly : t.posture = .onlyThese
    · rw [if_pos honly, if_pos honly, hsites' honly]
    · rw [if_neg honly, if_neg honly]
      rfl

variable {s : TimeSel} {t : NamedTime}

/-- What the device lets through the guardian lets through, if no label of its sites is blank and
no address of theirs has a U+FEFF. -/
theorem ReadsAs.namedTimeFault_eq_none (h : ReadsAs s t) (hid : isValidTimeId t.id = true)
    (hvalid : t.validate = .ok ())
    (hsites : ∀ a ∈ t.sitesInForce, jsTrim a.label ≠ "" ∧ byteOrderMark ∉ (a.url.getD "").toList) :
    namedTimeFault s = none := by
  obtain ⟨hlo, hhi, hforce⟩ := NamedTime.validate_ok.mp hvalid
  rw [Kintrinsic.namedTimeFault_eq_none, h.id, h.label, h.posture]
  refine ⟨hid, hlo, hhi, fun honly b hb => ?_⟩
  have hmem : b ∈ s.sitesInForce := TimeSel.mem_sitesInForce.mpr ⟨h.posture.trans honly, hb⟩
  rw [h.sites] at hmem
  obtain ⟨a, ha, rfl⟩ := List.mem_map.mp hmem
  obtain ⟨hlabel, hmark⟩ := hsites a ha
  obtain ⟨-, hsite⟩ := NamedTime.mem_sitesInForce.mp ha
  obtain ⟨hkind, hcheck⟩ := hforce honly a hsite
  have hlaunch := (validate_site_iff hkind).mp hcheck
  refine (siteFault_eq_none _).mpr ⟨rfl, hlabel, hlaunch.mono fun c hc hspace => ?_⟩
  refine isJsSpace_of_isWhiteSpace hspace ?_
  rintro rfl
  exact hmark hc

/-- What the device has read the guardian's reading has alike. -/
theorem ReadsAs.readAlike (h : ReadsAs s t) (hvalid : t.validate = .ok ())
    (hmark : ∀ a ∈ t.sitesInForce, byteOrderMark ∉ (a.url.getD "").toList) :
    ReadAlike t (normaliseNamedTime s) := by
  obtain ⟨hblock, hunblock, hdeny, hundeny, happs⟩ := h.lists
  have hcounts : (normaliseNamedTime s).countsAgainstBudget =
      if t.countsAgainstBudget = some true then some true else none := by
    rw [normaliseNamedTime_counts, h.counts]
  have hforce : (normaliseNamedTime s).sitesInForce = t.sitesInForce.map (cleanSite ·.sel) := by
    rw [normaliseNamedTime_sitesInForce, h.sites, List.map_map]
    rfl
  refine ⟨?_, ?_, ?_, ?_, fun hposture => ?_, fun hposture => ?_, ?_⟩
  · rw [normaliseNamedTime_id, h.id]
  · rw [normaliseNamedTime_label, h.label]
  · rw [normaliseNamedTime_posture, h.posture]
  · unfold NamedTime.counts
    rw [hcounts]
    rcases t.countsAgainstBudget with _ | _ | _
    · rfl
    · rfl
    · rfl
  · unfold normaliseNamedTime cleanList
    rw [h.posture, hposture, hblock, hunblock, hdeny, hundeny]
    exact ⟨rfl, rfl, rfl, rfl⟩
  · unfold normaliseNamedTime cleanList
    rw [h.posture, hposture, happs]
  · rw [hforce, List.forall₂_map_right_iff, List.forall₂_same]
    intro a ha
    obtain ⟨honly, hsite⟩ := NamedTime.mem_sitesInForce.mp ha
    obtain ⟨-, -, hcheck⟩ := NamedTime.validate_ok.mp hvalid
    obtain ⟨hkind, hlaunch⟩ := hcheck honly a hsite
    have hlaunch := (validate_site_iff hkind).mp hlaunch
    have hbare : ∀ c ∈ (a.url.getD "").toList, isJsSpace c = false := by
      intro c hc
      refine isJsSpace_of_isWhiteSpace (hlaunch.bare c hc).1 ?_
      rintro rfl
      exact hmark a ha hc
    refine ⟨rfl, rfl, hkind.symm, ?_, rfl⟩
    show some (jsTrim (a.url.getD "")) = a.url
    rw [jsTrim_of_bare hbare]
    cases hurl : a.url with
    | none => exact absurd (by rw [hurl]; rfl) hlaunch.url_ne
    | some url => rfl

theorem int_of_asBelow {bound n : Nat} {v : Json} (h : Json.asBelow bound v = some n) :
    v = .int n ∧ n < bound := by
  cases v with
  | int m =>
    unfold Json.asBelow at h
    dsimp only at h
    split at h
    · rename_i hm
      obtain rfl := Option.some.inj h
      rw [Int.toNat_of_nonneg hm.1]
      exact ⟨rfl, by omega⟩
    · cases h
  | null => cases h
  | bool b => cases h
  | float text => cases h
  | str s => cases h
  | arr elems => cases h
  | obj fields => cases h

/-- An integer that the device takes is one to the guardian, if not always the same one. -/
theorem readInteger_int {whole : String → Option Int} {n : Nat} (h : n < 2 ^ 64) :
    readInteger whole (.int n) = some (Binary64.ofNat n : Int) := by
  have hbound : ∀ k, 64 < k → Binary64.ofNat n < 2 ^ k := by
    intro k hk
    calc Binary64.ofNat n ≤ Binary64.ofNat (2 ^ 64) := Binary64.ofNat_mono h.le
      _ = 2 ^ 64 := by decide +kernel
      _ < 2 ^ k := Nat.pow_lt_pow_right (by decide) hk
  unfold readInteger
  dsimp only
  rw [Int.natAbs_natCast, if_pos (hbound 1024 (by decide))]
  rcases Nat.eq_zero_or_pos n with rfl | hpos
  · rfl
  · rw [Int.sign_eq_one_of_pos (Int.natCast_pos.mpr hpos), one_mul]

/-- **What the device reads the guardian reads.** -/
theorem parseGrantTimes_read {whole : String → Option Int} {body : Json} {g : GrantTimes}
    (h : GrantTimes.fromValue body = .ok g) (hplain : PlainBody body)
    (hsites : ∀ t ∈ g.times, ∀ a ∈ t.sitesInForce,
      jsTrim a.label ≠ "" ∧ byteOrderMark ∉ (a.url.getD "").toList) :
    ∃ r, parseGrantTimes whole body = some r ∧ List.Forall₂ ReadAlike g.times r.times := by
  obtain ⟨hread, hv, hvalid⟩ := GrantTimes.fromValue_eq_ok.mp h
  obtain ⟨hlength, hall, hnodup⟩ := GrantTimes.validate_ok.mp hvalid
  obtain ⟨fields, rfl, htimesPlain⟩ := hplain
  obtain ⟨v, hvfield, hread⟩ := Option.bind_eq_some_iff.mp hread
  obtain ⟨times, htimes, hread⟩ := Option.bind_eq_some_iff.mp hread
  obtain ⟨issuedAt, hissued, hread⟩ := Option.bind_eq_some_iff.mp hread
  obtain ⟨hversion, ⟨elems, harr, helems⟩, hstamp⟩ := GrantTimes.ofFields_eq_some.mp hread
  obtain rfl := arr_of_asArray harr
  obtain ⟨sels, hsels, hrel⟩ := @SextetGroups.exists_mapM _ _ _ _ readTime
    (fun t s => t.validate = .ok () ∧ namedTimeFault s = none ∧ ReadAlike t (normaliseNamedTime s))
    _ _ helems (by
      intro e he t ht het
      obtain ⟨hid, hfree, hcheck⟩ := hall t ht
      obtain ⟨s, hs, hreads⟩ := readTime_of_ofJson het (htimesPlain elems htimes e he) hcheck
      exact ⟨s, hs, hcheck,
        hreads.namedTimeFault_eq_none ((isValidTimeId_iff t.id).mpr ⟨hid, hfree⟩) hcheck
          (hsites t ht),
        hreads.readAlike hcheck fun a ha => (hsites t ht a ha).2⟩)
  have hfault : timesFault sels = none := by
    have hids : g.times.map (·.id) = sels.map (·.id) := by
      rw [← List.forall₂_eq_eq_eq, List.forall₂_map_left_iff, List.forall₂_map_right_iff]
      refine hrel.imp fun t s hts => ?_
      rw [← normaliseNamedTime_id s, hts.2.2.id]
    rw [timesFault_eq_none, ← hrel.length_eq, ← hids]
    refine ⟨hlength, fun s hs => ?_, hnodup⟩
    obtain ⟨t, -, hts⟩ := SextetGroups.exists_of_forall₂ hrel hs
    exact hts.2.1
  obtain ⟨rfl, hvlt⟩ := int_of_asBelow hversion
  obtain ⟨rfl, hstamplt⟩ := int_of_asBelow hstamp
  refine ⟨⟨1, sels.map normaliseNamedTime, Binary64.ofNat g.issuedAt⟩, ?_, ?_⟩
  · unfold parseGrantTimes
    have hone : Binary64.ofNat g.v = 1 := by
      rw [hv]
      decide
    simp only [hvfield, htimes, hissued, readInteger_int hstamplt,
      readInteger_int (hvlt.trans (by norm_num)), hone, Option.bind_eq_bind, Option.bind_some,
      Json.asArray, hsels, hfault]
    simp
  · rw [List.forall₂_map_right_iff]
    exact hrel.imp fun _ _ h => h.2.2

/-- What is written has the shape that the guardian knows. -/
theorem plainBody_toJson (g : GrantTimes) : PlainBody g.toJson := by
  refine ⟨_, rfl, fun times htimes v hv => ?_⟩
  have hwritten : g.times.map NamedTime.toJson = times := by
    have hfield : some (Json.arr (g.times.map NamedTime.toJson)) = some (.arr times) := htimes
    injection hfield with hfield
    injection hfield
  rw [← hwritten] at hv
  obtain ⟨t, -, rfl⟩ := List.mem_map.mp hv
  refine ⟨_, t.posture.text, rfl, ?_, ?_, fun _ sites hsites v hv => ?_⟩
  · rw [lookup_present t.nodup_fields]
    rfl
  · rw [lookup_present t.nodup_fields]
    show (t.countsAgainstBudget.map Json.bool) ≠ some .null
    cases t.countsAgainstBudget with
    | none => simp
    | some b => simp
  · rw [lookup_present t.nodup_fields] at hsites
    have hfield : (if t.sites = [] then none else some (.arr (t.sites.map siteJson))) =
        some (Json.arr sites) := hsites
    by_cases hnil : t.sites = []
    · rw [if_pos hnil] at hfield
      cases hfield
    · rw [if_neg hnil] at hfield
      injection hfield with hfield
      injection hfield with hfield
      rw [← hfield] at hv
      obtain ⟨a, -, rfl⟩ := List.mem_map.mp hv
      exact ⟨_, "site", rfl, rfl⟩

/-! ## Both ways -/

/-- **What is sent is read, and what is read is read alike.**  The device reads the normalised times
of every set that is sent, if no address of the sites in force has a U+0085.  What the device reads
of a body of the known shape, the guardian reads too, the lists trimmed and without repeats, if no
label of the sites in force is blank and no address of theirs has a U+FEFF. -/
theorem times_cross_wire (parse : String → Option Json) (whole : String → Option Int) :
    (∀ times issuedAt g, timesToGrant times issuedAt = .ok g → issuedAt ≤ 2 ^ 53 →
      parse g.toJson.text = some g.toJson →
      (∀ t ∈ times, ∀ a ∈ t.sitesInForce, nextLine ∉ (jsTrim (a.url.getD "")).toList) →
      GrantTimes.parseOrAbsent parse g.toJson.text = some g ∧
        g.times = times.map normaliseNamedTime) ∧
    ∀ body g, GrantTimes.fromValue body = .ok g → PlainBody body →
      (∀ t ∈ g.times, ∀ a ∈ t.sitesInForce,
        jsTrim a.label ≠ "" ∧ byteOrderMark ∉ (a.url.getD "").toList) →
      ∃ r, parseGrantTimes whole body = some r ∧ List.Forall₂ ReadAlike g.times r.times := by
  constructor
  · intro times issuedAt g hsend hissued hparse hline
    exact parseOrAbsent_sent hsend (hissued.trans_lt (by norm_num)) hparse hline
  · intro body g hread hplain hsites
    exact parseGrantTimes_read hread hplain hsites

/-- An hour of lessons on one site. -/
def lessonTime (url : String) : TimeSel where
  id := "lessons"
  label := " Lessons "
  posture := .onlyThese
  blockApps := none
  unblockApps := none
  denySites := none
  undenySites := none
  apps := some [" gcompris "]
  sites := some [⟨"khan", "Khan", .site, some ["www.Khan.org."], some url, none, none, none⟩]
  countsAgainstBudget := some true

/-- The clause that is sent for it. -/
def lessonGrant (url : String) : GrantTimes := ⟨1, [normaliseNamedTime (lessonTime url)], 0⟩

/-- A reader that knows one text. -/
def readerOf (v : Json) (text : String) : Option Json := if text = v.text then some v else none

theorem readerOf_text (v : Json) : readerOf v v.text = some v := if_pos rfl

theorem timesToGrant_lesson :
    timesToGrant [lessonTime "https://khan.org/"] 0 = .ok (lessonGrant "https://khan.org/") := by
  decide +kernel

theorem fromValue_lesson : GrantTimes.fromValue (lessonGrant "https://khan.org/").toJson =
    .ok (lessonGrant "https://khan.org/") := by
  decide +kernel

/-- The lessons are read as they are sent, and read back. -/
theorem times_cross_wire_lessons :
    GrantTimes.parseOrAbsent (readerOf (lessonGrant "https://khan.org/").toJson)
        (lessonGrant "https://khan.org/").toJson.text = some (lessonGrant "https://khan.org/") ∧
      ∃ r, parseGrantTimes (fun _ => none) (lessonGrant "https://khan.org/").toJson = some r ∧
        List.Forall₂ ReadAlike (lessonGrant "https://khan.org/").times r.times := by
  obtain ⟨hsent, hread⟩ := times_cross_wire (readerOf (lessonGrant "https://khan.org/").toJson)
    (fun _ => none)
  refine ⟨(hsent _ 0 _ timesToGrant_lesson (by norm_num) (readerOf_text _) ?_).1,
    hread _ _ fromValue_lesson ?_ ?_⟩
  · decide +kernel
  · exact plainBody_toJson _
  · decide +kernel

/-- A body with one time, beside the fields that every time has. -/
def playBody (more : List (String × Json)) : Json :=
  .obj [("v", .int 1), ("times", .arr [.obj ([("id", .str "play"), ("label", .str "Play"),
    ("posture", .str "everythingExcept")] ++ more)]), ("issuedAt", .int 0)]

/-- **An old line break, lists as they were typed, and a `null`**: an address with a U+0085 is sent
and not read, a list that is not trimmed is read by the device as it stands, and a `null` for the
flag is read by the device alone. -/
theorem not_times_cross_wire :
    (∃ times g, timesToGrant times 0 = .ok g ∧
      ∀ parse : String → Option Json, parse g.toJson.text = some g.toJson →
        GrantTimes.parseOrAbsent parse g.toJson.text = none) ∧
    (∃ body g r, GrantTimes.fromValue body = .ok g ∧
      parseGrantTimes (fun _ => none) body = some r ∧
      g.times.map (·.blockApps) = [[" org.game"]] ∧ r.times.map (·.blockApps) = [["org.game"]]) ∧
    ∃ body g, GrantTimes.fromValue body = .ok g ∧ parseGrantTimes (fun _ => none) body = none := by
  refine ⟨⟨[lessonTime (String.ofList ("https://khan.org/".toList ++ [nextLine]))],
    lessonGrant (String.ofList ("https://khan.org/".toList ++ [nextLine])), by decide +kernel,
    fun parse hparse => ?_⟩, ?_, ?_⟩
  · have hrefused : (GrantTimes.fromValue (lessonGrant (String.ofList
        ("https://khan.org/".toList ++ [nextLine]))).toJson).toOption = none := by decide +kernel
    unfold GrantTimes.parseOrAbsent
    rw [hparse, Option.bind_some, hrefused]
  · refine ⟨playBody [("blockApps", textsJson [" org.game"])],
      ⟨1, [⟨"play", "Play", .everythingExcept, [" org.game"], [], [], [], [], [], none⟩], 0⟩,
      ⟨1, [⟨"play", "Play", .everythingExcept, ["org.game"], [], [], [], [], [], none⟩], 0⟩,
      by decide +kernel, by decide +kernel, rfl, rfl⟩
  · refine ⟨playBody [("countsAgainstBudget", .null)],
      ⟨1, [⟨"play", "Play", .everythingExcept, [], [], [], [], [], [], none⟩], 0⟩,
      by decide +kernel, by decide +kernel⟩

end Kintrinsic
