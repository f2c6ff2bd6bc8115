import Kintrinsic.RelayConfig
import Mathlib.Tactic.NormNum

/-! # The law of signed relay codes

A code that is refused changes nothing.  One that is taken was signed by the pairing's guardian for
this machine, is stamped later than every one before it, and leaves between two and ten different
endpoints that validate to themselves; no migration and no restart moves the stamp back. -/
namespace Kintrinsic.Relays

open EffectRun GuardedRun

/-! ## Endpoints -/

section
variable {urls : UrlParser}

/-- An endpoint as it is kept of a secure URL. -/
def Canonical (urls : UrlParser) (r : String) : Prop :=
  ∃ s u, urls.parse s = some u ∧ u.Secure ∧ u.endpoint = r

/-- An endpoint reads back as the URL that it was kept of. -/
theorem Canonical.parse {r : String} (h : Canonical urls r) :
    ∃ u, urls.parse (trimmed r) = some u ∧ u.Secure ∧ u.endpoint = r := by
  obtain ⟨s, u, hparse, hsecure, rfl⟩ := h
  refine ⟨u, ?_, hsecure, rfl⟩
  unfold Url.endpoint
  by_cases hbare : u.Bare
  · rw [if_pos hbare, urls.trim_popped hparse hsecure hbare]
    exact urls.parse_popped hparse hsecure hbare
  · rw [if_neg hbare, urls.trim_text hparse hsecure]
    exact urls.parse_text hparse hsecure

/-- What validation accepts: at least two different endpoints, no more than were given. -/
theorem validateFrom_spec {relays out kept : List String}
    (h : validateFrom urls out relays = .ok kept) (hnodup : out.Nodup)
    (hcanonical : ∀ r ∈ out, Canonical urls r) :
    kept.Nodup ∧ (∀ r ∈ kept, Canonical urls r) ∧ 2 ≤ kept.length ∧
      kept.length ≤ out.length + relays.length := by
  induction relays generalizing out with
  | nil =>
    unfold validateFrom at h
    split at h
    · cases h
    · rename_i htwo
      cases h
      exact ⟨hnodup, hcanonical, by omega, by simp⟩
  | cons relay rest ih =>
    unfold validateFrom at h
    split at h
    · cases h
    · rename_i url hparse
      split at h
      · rename_i hsecure
        have hendpoint : Canonical urls url.endpoint := ⟨_, url, hparse, hsecure, rfl⟩
        by_cases hin : url.endpoint ∈ out
        · rw [if_pos hin] at h
          obtain ⟨hkept, hall, htwo, hle⟩ := ih h hnodup hcanonical
          refine ⟨hkept, hall, htwo, ?_⟩
          rw [List.length_cons]
          omega
        · rw [if_neg hin] at h
          obtain ⟨hkept, hall, htwo, hle⟩ := ih h
            (List.nodup_append.mpr ⟨hnodup, List.nodup_singleton _, fun a ha b hb heq => by
              rw [List.mem_singleton.mp hb] at heq
              exact hin (heq ▸ ha)⟩)
            (fun r hr => by
              rcases List.mem_append.mp hr with hr | hr
              · exact hcanonical r hr
              · rw [List.mem_singleton.mp hr]
                exact hendpoint)
          refine ⟨hkept, hall, htwo, ?_⟩
          rw [List.length_append, List.length_singleton] at hle
          rw [List.length_cons]
          omega
      · cases h

/-- Different endpoints validate to themselves. -/
theorem validateFrom_canonical {relays out : List String}
    (hnodup : (out ++ relays).Nodup) (hcanonical : ∀ r ∈ relays, Canonical urls r)
    (htwo : 2 ≤ (out ++ relays).length) : validateFrom urls out relays = .ok (out ++ relays) := by
  induction relays generalizing out with
  | nil =>
    rw [List.append_nil] at htwo ⊢
    unfold validateFrom
    rw [if_neg (by omega)]
  | cons relay rest ih =>
    obtain ⟨u, hparse, hsecure, hself⟩ := (hcanonical relay List.mem_cons_self).parse
    have hnot : relay ∉ out := fun hin =>
      (List.nodup_append.mp hnodup).2.2 relay hin relay List.mem_cons_self rfl
    unfold validateFrom
    rw [hparse]
    dsimp only
    rw [if_pos hsecure, hself, if_neg hnot]
    have hsplit : out ++ relay :: rest = (out ++ [relay]) ++ rest := by simp
    rw [hsplit] at hnodup htwo ⊢
    exact ih hnodup (fun r hr => hcanonical r (List.mem_cons_of_mem _ hr)) htwo

/-- A list that a code can leave behind. -/
structure WellChosen (urls : UrlParser) (relays : List String) : Prop where
  two : 2 ≤ relays.length
  ten : relays.length ≤ 10
  nodup : relays.Nodup
  canonical : ∀ r ∈ relays, Canonical urls r

/-- Validating such a list again changes nothing. -/
theorem WellChosen.validate {relays : List String} (h : WellChosen urls relays) :
    validateRelays urls relays = .ok relays := by
  unfold validateRelays
  rw [if_neg (Nat.not_lt.mpr h.ten)]
  exact validateFrom_canonical (show ([] ++ relays).Nodup from h.nodup) h.canonical h.two

theorem wellChosen_of_validate {relays kept : List String}
    (h : validateRelays urls relays = .ok kept) : WellChosen urls kept := by
  unfold validateRelays at h
  split at h
  · cases h
  · rename_i hten
    obtain ⟨hnodup, hcanonical, htwo, hle⟩ := validateFrom_spec h List.nodup_nil
      (fun r hr => absurd hr List.not_mem_nil)
    rw [List.length_nil] at hle
    exact ⟨htwo, by omega, hnodup, hcanonical⟩

end

/-- What the parser of URLs makes of the default relays, with or without the last slash. -/
def defaultUrls : UrlParser :=
  let urlOf (relay : String) : Url :=
    ⟨"wss", some (String.ofList (relay.toList.drop 6)), "", none, "/", none, none,
      String.ofList (relay.toList ++ ['/'])⟩
  let parse (s : String) : Option Url :=
    (defaultRelays.find? fun relay => s = relay ∨ s = (urlOf relay).text).map urlOf
  have hparse : ∀ {s : String} {u : Url}, parse s = some u → ∃ relay ∈ defaultRelays, u = urlOf relay := by
    intro s u h
    obtain ⟨relay, hfound, hu⟩ := Option.map_eq_some_iff.mp h
    exact ⟨relay, List.mem_of_find?_eq_some hfound, hu.symm⟩
  have hall : ∀ relay ∈ defaultRelays, parse (urlOf relay).text = some (urlOf relay) ∧
      trimmed (urlOf relay).text = (urlOf relay).text ∧
      parse (popped (urlOf relay).text) = some (urlOf relay) ∧
      trimmed (popped (urlOf relay).text) = popped (urlOf relay).text := by decide
  { parse := parse
    parse_text := by rintro s u h -; obtain ⟨r, hr, rfl⟩ := hparse h; exact (hall r hr).1
    trim_text := by rintro s u h -; obtain ⟨r, hr, rfl⟩ := hparse h; exact (hall r hr).2.1
    parse_popped := by rintro s u h - -; obtain ⟨r, hr, rfl⟩ := hparse h; exact (hall r hr).2.2.1
    trim_popped := by rintro s u h - -; obtain ⟨r, hr, rfl⟩ := hparse h; exact (hall r hr).2.2.2 }

example : validateRelays defaultUrls defaultRelays = .ok defaultRelays := by decide

/-! ## Records -/

theorem asBelow_int_cases (bound n : Nat) :
    Json.asBelow bound (.int n) = some n ∨ ¬n < bound ∧ Json.asBelow bound (.int n) = none := by
  by_cases h : n < bound
  · exact .inl (Json.asBelow_int h)
  · refine .inr ⟨h, ?_⟩
    unfold Json.asBelow
    exact if_neg fun hlt => h (Int.ofNat_lt.mp hlt.2)

/-- A small number does not leave the type. -/
theorem asU64_int_cases (n : Nat) :
    Json.asU64 (.int n) = some n ∨ 600 < n ∧ Json.asU64 (.int n) = none := by
  rcases asBelow_int_cases (2 ^ 64) n with h | ⟨hlarge, h⟩
  · exact .inl h
  · have hbound : 600 < 2 ^ 64 := by norm_num
    exact .inr ⟨hbound.trans_le (Nat.le_of_not_lt hlarge), h⟩

theorem BatterySettings.ofValues_eq (screenOff ordinary boost : Json) (request opening : Bool) :
    BatterySettings.ofValues screenOff ordinary (.bool request) (.bool opening) boost =
      screenOff.asU64.bind fun s => ordinary.asU64.bind fun o => boost.asU64.bind fun b =>
        some ⟨s, o, request, opening, b⟩ := rfl

theorem BatterySettings.ofJson_obj (screenOff ordinary request opening boost : Json) :
    BatterySettings.ofJson (.obj [("screenOffSecs", screenOff), ("ordinarySecs", ordinary),
      ("requestBoost", request), ("openingBoost", opening), ("boostSecs", boost)]) =
        BatterySettings.ofValues screenOff ordinary request opening boost := by
  unfold ofJson
  simp only [List.all_cons, List.all_nil, List.contains_cons, String.reduceBEq, Bool.true_or,
    Bool.false_or, Bool.and_true, if_true, List.lookup, Option.bind_eq_bind, Option.bind_some]

/-- The settings, read back, are what they were; or one of the numbers leaves its type. -/
theorem BatterySettings.ofJson_toJson (b : BatterySettings) :
    BatterySettings.ofJson b.toJson = some b ∨
      b.valid = false ∧ BatterySettings.ofJson b.toJson = none := by
  have hread : BatterySettings.ofJson b.toJson = BatterySettings.ofValues (.int b.screenOffSecs)
      (.int b.ordinarySecs) (.bool b.requestBoost) (.bool b.openingBoost) (.int b.boostSecs) :=
    ofJson_obj ..
  have hvalid : b.valid = true →
      b.screenOffSecs ≤ 600 ∧ b.ordinarySecs ≤ 120 ∧ b.boostSecs ≤ 180 := by
    intro h
    unfold valid at h
    simp only [Bool.and_eq_true, decide_eq_true_iff, List.mem_cons, List.not_mem_nil, or_false] at h
    omega
  have hinvalid : ¬(b.screenOffSecs ≤ 600 ∧ b.ordinarySecs ≤ 120 ∧ b.boostSecs ≤ 180) →
      b.valid = false := fun hnot => Bool.eq_false_iff.mpr fun h => hnot (hvalid h)
  rw [hread, ofValues_eq]
  rcases asU64_int_cases b.screenOffSecs with hscreen | ⟨hlarge, hscreen⟩
  · rcases asU64_int_cases b.ordinarySecs with hordinary | ⟨hlarge, hordinary⟩
    · rcases asU64_int_cases b.boostSecs with hboost | ⟨hlarge, hboost⟩
      · left
        rw [hscreen, hordinary, hboost, Option.bind_some, Option.bind_some, Option.bind_some]
      · right
        rw [hscreen, hordinary, hboost, Option.bind_some, Option.bind_some, Option.bind_none]
        exact ⟨hinvalid (by omega), rfl⟩
    · right
      rw [hscreen, hordinary, Option.bind_some, Option.bind_none]
      exact ⟨hinvalid (by omega), rfl⟩
  · right
    rw [hscreen, Option.bind_none]
    exact ⟨hinvalid (by omega), rfl⟩

/-- A stored record keeps what is valid of the settings. -/
theorem Pairing.storedBattery_toJson (b : BatterySettings) :
    storedBattery b.toJson = (some b).filter (·.valid) := by
  unfold storedBattery
  rcases b.ofJson_toJson with h | ⟨hinvalid, h⟩
  · rw [h]
  · rw [h, Option.filter_some, hinvalid]
    rfl

theorem Pairing.pubKeyOfJson_toHex (k : PubKey) : pubKeyOfJson (.str k.toHex) = some k := by
  have hread : unhex32 k.toHex = some k.bytes := unhex32_hex32 k.bytes
  unfold pubKeyOfJson
  rw [Json.asString_str, Option.bind_some, hread, Option.map_some]

theorem Pairing.u64OfJson_int (t : UInt64) : u64OfJson (.int t.toNat) = some t := by
  unfold u64OfJson
  rw [Json.asU64_int t.toNat_lt, Option.map_some, UInt64.ofNat_toNat]

theorem mapM_asString (l : List String) : (l.map Json.str).mapM Json.asString = some l := by
  induction l with
  | nil => rfl
  | cons s l ih =>
    rw [List.map_cons, List.mapM_cons, ih]
    rfl

/-- **A pairing is read back from what it is stored as**, less settings that are not valid. -/
theorem Pairing.ofJson_toJson (p : Pairing) :
    Pairing.ofJson p.toJson = some { p with battery := p.battery.filter (·.valid) } := by
  have hstamp : Json.optional u64OfJson
      (some ((p.relaysUpdatedAt.map fun t => Json.int t.toNat).getD .null)) =
        some p.relaysUpdatedAt := by
    cases p.relaysUpdatedAt with
    | none => rfl
    | some t =>
      show (u64OfJson (.int t.toNat)).map some = _
      rw [u64OfJson_int]
      rfl
  have hread : Pairing.ofJson p.toJson = ofValues (.str p.guardianPubkey.toHex)
      (.arr (p.relays.map Json.str)) (.str p.machine.toHex) (.str p.subjectPubkey.toHex)
      (.bool p.auditTransparency) (.int p.pairedAt.toNat)
      (some ((p.relaysUpdatedAt.map fun t => Json.int t.toNat).getD .null))
      (p.battery.map BatterySettings.toJson) := by
    unfold ofJson toJson
    cases p.battery <;>
      simp only [List.cons_append, List.nil_append, Option.map_none, Option.map_some,
        Option.toList_none, Option.toList_some, List.lookup, String.reduceBEq,
        Option.bind_eq_bind, Option.bind_some]
  rw [hread]
  unfold ofValues
  simp only [pubKeyOfJson_toHex, u64OfJson_int, hstamp, Json.asArray, Json.asBool, mapM_asString,
    Option.bind_eq_bind, Option.bind_some]
  have hbattery : (p.battery.map BatterySettings.toJson).bind storedBattery =
      p.battery.filter (·.valid) := by
    cases p.battery with
    | none => rfl
    | some b => rw [Option.map_some, Option.bind_some, storedBattery_toJson]
  rw [hbattery]

/-! ## One move -/

section
variable (ck : Checker)

/-- A code is refused, and nothing changes; or it is this guardian's, fresh, and carries a list that
validates. -/
theorem applySignedConfig_cases (p : Pairing) (json : String) (now : UInt64) :
    (∃ e, applySignedConfig ck p json now = (.error e, p)) ∨
      ∃ ev config relays, (ck.fromStr json).bind NostrEvent.ofJson = some ev ∧
        signedFor ck p ev = true ∧ Fresh p ev now.toNat ∧
        validateRelays ck.urls (RelayConfig.relays config) = .ok relays ∧
        applySignedConfig ck p json now = (.ok (), { p with
          battery := config.battery.or p.battery
          relays := relays
          relaysUpdatedAt := some (UInt64.ofNat ev.createdAt) }) := by
  unfold applySignedConfig
  by_cases hlong : 16384 < byteLen json.toList
  · rw [if_pos hlong]
    exact .inl ⟨_, rfl⟩
  rw [if_neg hlong]
  cases hevent : (ck.fromStr json).bind NostrEvent.ofJson with
  | none => exact .inl ⟨_, rfl⟩
  | some ev =>
    dsimp only
    by_cases hsigned : signedFor ck p ev = true
    · rw [hsigned, Bool.not_true, if_neg Bool.false_ne_true]
      by_cases hfresh : Fresh p ev now.toNat
      · rw [if_neg (not_not_intro hfresh)]
        cases hconfig : (ck.fromStr ev.content).bind RelayConfig.ofJson with
        | none => exact .inl ⟨_, rfl⟩
        | some config =>
          dsimp only
          by_cases hmachine : config.machine = p.machine
          · rw [if_neg (not_not_intro hmachine)]
            cases hrelays : validateRelays ck.urls config.relays with
            | error e => exact .inl ⟨_, rfl⟩
            | ok relays =>
              dsimp only
              by_cases hbattery : config.battery.any (fun b => !b.valid) = true
              · rw [if_pos hbattery]
                exact .inl ⟨_, rfl⟩
              · rw [if_neg hbattery]
                exact .inr ⟨ev, config, relays, rfl, hsigned, hfresh, hrelays, rfl⟩
          · rw [if_pos hmachine]
            exact .inl ⟨_, rfl⟩
      · rw [if_pos hfresh]
        exact .inl ⟨_, rfl⟩
    · rw [Bool.not_eq_true] at hsigned
      rw [hsigned, Bool.not_false, if_pos rfl]
      exact .inl ⟨_, rfl⟩

/-- The stamp of a change is the event's. -/
theorem stamp_of_fresh {p : Pairing} {ev : NostrEvent} {now : UInt64} (h : Fresh p ev now.toNat) :
    (UInt64.ofNat ev.createdAt).toNat = ev.createdAt :=
  UInt64.toNat_ofNat_of_lt' (Nat.lt_of_le_of_lt h.1 now.toNat_lt)

/-- Two pairings of the same parties. -/
structure SameParties (p q : Pairing) : Prop where
  guardian : q.guardianPubkey = p.guardianPubkey
  machine : q.machine = p.machine
  subject : q.subjectPubkey = p.subjectPubkey

theorem SameParties.signedFor_eq {p q : Pairing} (h : SameParties p q) (ev : NostrEvent) :
    signedFor ck q ev = signedFor ck p ev := by
  unfold signedFor
  rw [h.guardian, h.machine]

/-- A list that a code has left behind, and that no migration expands. -/
def Pairing.Chosen (urls : UrlParser) (p : Pairing) : Prop :=
  p.relaysUpdatedAt.isSome = true ∧ WellChosen urls p.relays

/-- **What a move can do.**  It keeps the parties and the stamp and makes no event take effect; or one
event takes effect, the guardian's and stamped later, and leaves a list that is well chosen.  A list
that was chosen stays so. -/
theorem step_spec (p : Pairing) (m : Move) :
    SameParties p (step ck p m).1 ∧
      ((step ck p m).2 = [] ∧ (step ck p m).1.stamp = p.stamp ∧
          (p.Chosen ck.urls → (step ck p m).1.Chosen ck.urls) ∨
        ∃ ev, (step ck p m).2 = [ev] ∧ signedFor ck p ev = true ∧ p.stamp < ev.createdAt ∧
          (step ck p m).1.stamp = ev.createdAt ∧ (step ck p m).1.Chosen ck.urls) := by
  cases m with
  | code json now =>
    rcases applySignedConfig_cases ck p json now with
      ⟨e, h⟩ | ⟨ev, config, relays, hevent, hsigned, hfresh, hrelays, h⟩
    · have hmove : step ck p (.code json now) = (p, []) := by
        unfold step
        dsimp only
        rw [h]
      rw [hmove]
      exact ⟨⟨rfl, rfl, rfl⟩, .inl ⟨rfl, rfl, id⟩⟩
    · have hmove : step ck p (.code json now) = ({ p with
          battery := config.battery.or p.battery
          relays := relays
          relaysUpdatedAt := some (UInt64.ofNat ev.createdAt) }, [ev]) := by
        unfold step
        dsimp only
        rw [h, hevent]
        rfl
      rw [hmove]
      refine ⟨⟨rfl, rfl, rfl⟩, .inr ⟨ev, rfl, hsigned, hfresh.2.2.2, stamp_of_fresh hfresh, rfl, ?_⟩⟩
      exact wellChosen_of_validate hrelays
  | migrate =>
    have hmove : step ck p .migrate = ((migrateLegacyRelays ck.urls p).2, []) := rfl
    rw [hmove]
    unfold migrateLegacyRelays
    by_cases hstamped : p.relaysUpdatedAt.isSome = true
    · rw [if_pos hstamped]
      exact ⟨⟨rfl, rfl, rfl⟩, .inl ⟨rfl, rfl, id⟩⟩
    · rw [if_neg hstamped]
      have hzero : p.stamp = 0 := by
        unfold Pairing.stamp
        rw [Option.not_isSome_iff_eq_none.mp hstamped]
        rfl
      split
      · exact ⟨⟨rfl, rfl, rfl⟩, .inl ⟨rfl, hzero.symm, fun h => absurd h.1 hstamped⟩⟩
      · exact ⟨⟨rfl, rfl, rfl⟩, .inl ⟨rfl, rfl, id⟩⟩
  | restart =>
    have hmove : step ck p .restart = ((Pairing.ofJson p.toJson).getD p, []) := rfl
    rw [hmove, Pairing.ofJson_toJson, Option.getD_some]
    exact ⟨⟨rfl, rfl, rfl⟩, .inl ⟨rfl, rfl, id⟩⟩

end

/-! ## Runs -/

/-- What an observer of rising stamps has seen. -/
theorem rising_of_obeys {ε : Type} {stamp : ε → Nat} {P : ε → Prop} {t : Nat} {es : List ε}
    (h : Obeys (fun _ e => stamp e) (fun t e => t < stamp e ∧ P e) t es) :
    (es.Pairwise fun e e' => stamp e < stamp e') ∧
      (∀ e ∈ es, t < stamp e ∧ P e ∧ stamp e ≤ es.foldl (fun _ e => stamp e) t) ∧
      t ≤ es.foldl (fun _ e => stamp e) t := by
  induction es generalizing t with
  | nil => exact ⟨List.Pairwise.nil, fun e he => absurd he List.not_mem_nil, le_rfl⟩
  | cons e es ih =>
    obtain ⟨⟨hlater, hP⟩, hrest⟩ := h
    obtain ⟨hpairs, hall, hend⟩ := ih hrest
    refine ⟨List.pairwise_cons.mpr ⟨fun e' he' => (hall e' he').1, hpairs⟩, fun e' he' => ?_,
      hlater.le.trans hend⟩
    rcases List.mem_cons.mp he' with rfl | he'
    · exact ⟨hlater, hP, hend⟩
    · exact ⟨hlater.trans (hall e' he').1, (hall e' he').2⟩

/-- **The law of signed relay codes.**  Along any run of codes, migrations and restarts the events
that take effect are the guardian's, for this machine, and each is stamped later than the one before:
none takes effect twice.  The parties stay, the stamp never falls, and once a code was taken the list
is well chosen.  A code that comes then is refused and leaves the pairing as it is, or moves the stamp
on and leaves two to ten different endpoints that validate to themselves. -/
theorem relay_config_law (ck : Checker) (p : Pairing) (moves : List Move) :
    let q := (run (step ck) p moves).1
    let taken := effects (step ck) p moves
    (taken.Pairwise fun ev ev' => ev.createdAt < ev'.createdAt) ∧ taken.Nodup ∧
    (∀ ev ∈ taken, signedFor ck p ev = true ∧ p.stamp < ev.createdAt ∧ ev.createdAt ≤ q.stamp) ∧
    SameParties p q ∧ p.stamp ≤ q.stamp ∧ (taken ≠ [] → WellChosen ck.urls q.relays) ∧
    ∀ (json : String) (now : UInt64),
      let answer := applySignedConfig ck q json now
      (∀ e, answer.1 = .error e → answer.2 = q) ∧
      (answer.2.relays ≠ q.relays → q.stamp < answer.2.stamp) ∧
      (answer.1 = .ok () → q.stamp < answer.2.stamp ∧ SameParties q answer.2 ∧
        WellChosen ck.urls answer.2.relays ∧
        validateRelays ck.urls answer.2.relays = .ok answer.2.relays) := by
  dsimp only
  have hstep : ∀ (r : Pairing) (t : Nat) (m : Move), SameParties p r ∧ t = r.stamp →
      Obeys (fun _ ev => ev.createdAt) (fun t ev => t < ev.createdAt ∧ signedFor ck p ev = true) t
        (step ck r m).2 ∧
      (SameParties p (step ck r m).1 ∧
        (step ck r m).2.foldl (fun _ ev => ev.createdAt) t = (step ck r m).1.stamp) := by
    rintro r t m ⟨hparties, rfl⟩
    obtain ⟨hsame, hquiet | ⟨ev, htaken, hsigned, hlater, hstamp, -⟩⟩ := step_spec ck r m
    · obtain ⟨hnone, hstamp, -⟩ := hquiet
      rw [hnone]
      exact ⟨trivial, ⟨hsame.guardian.trans hparties.guardian, hsame.machine.trans hparties.machine,
        hsame.subject.trans hparties.subject⟩, hstamp.symm⟩
    · rw [htaken]
      exact ⟨⟨⟨hlater, SameParties.signedFor_eq ck hparties ev ▸ hsigned⟩, trivial⟩,
        ⟨hsame.guardian.trans hparties.guardian, hsame.machine.trans hparties.machine,
          hsame.subject.trans hparties.subject⟩, hstamp.symm⟩
  have hobeys := effects_obey (R := fun r t => SameParties p r ∧ t = r.stamp)
    hstep ⟨⟨rfl, rfl, rfl⟩, rfl⟩ moves
  obtain ⟨hpairs, hall, hend⟩ := rising_of_obeys hobeys
  have hlast : SameParties p (run (step ck) p moves).1 ∧
      (effects (step ck) p moves).foldl (fun _ ev => ev.createdAt) p.stamp =
        (run (step ck) p moves).1.stamp :=
    effects_related_of (R := fun r t => SameParties p r ∧ t = r.stamp)
      (K := fun _ _ => True) (fun r t m _ h => (hstep r t m h).2) ⟨⟨rfl, rfl, rfl⟩, rfl⟩
      (obeys_true moves)
  obtain ⟨hparties, hstamp⟩ := hlast
  rw [hstamp] at hall hend
  -- what was chosen stays chosen, whatever comes after it
  have hchosen : (effects (step ck) p moves).foldl (fun _ _ => true) false = true →
      (run (step ck) p moves).1.Chosen ck.urls := by
    refine effects_related_of (R := fun (r : Pairing) (seen : Bool) =>
        seen = true → r.Chosen ck.urls) (K := fun _ _ => True)
      (fun r seen m _ hseen => ?_) (fun h => Bool.noConfusion h) (obeys_true moves)
    obtain ⟨-, ⟨hnone, -, hkeeps⟩ | ⟨ev, htaken, -, -, -, hnew⟩⟩ := step_spec ck r m
    · rw [hnone]
      exact fun h => hkeeps (hseen h)
    · exact fun _ => hnew
  refine ⟨hpairs, hpairs.imp fun hlt heq => (heq ▸ hlt).false, fun ev hev => ?_, hparties, hend,
    fun hsome => (hchosen ?_).2, fun json now => ?_⟩
  · obtain ⟨hlater, hsigned, hle⟩ := hall ev hev
    exact ⟨hsigned, hlater, hle⟩
  · cases htaken : effects (step ck) p moves with
    | nil => exact absurd htaken hsome
    | cons ev rest =>
      rw [List.foldl_cons]
      exact foldl_invariant (I := fun seen => seen = true) (fun _ _ _ => rfl) rest rfl
  · generalize (run (step ck) p moves).1 = q
    rcases applySignedConfig_cases ck q json now with
      ⟨e, h⟩ | ⟨ev, config, relays, -, -, hfresh, hrelays, h⟩
    · rw [h]
      exact ⟨fun _ _ => rfl, fun hne => absurd rfl hne, by rintro ⟨⟩⟩
    · rw [h]
      have hlater : q.stamp < (UInt64.ofNat ev.createdAt).toNat := by
        rw [stamp_of_fresh hfresh]
        exact hfresh.2.2.2
      have hgood := wellChosen_of_validate hrelays
      refine ⟨?_, fun _ => hlater, fun _ => ⟨hlater, ⟨rfl, rfl, rfl⟩, hgood, hgood.validate⟩⟩
      rintro e ⟨⟩

end Kintrinsic.Relays
