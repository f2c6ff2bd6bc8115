import Kintrinsic.WebPolicy
import Mathlib.Data.List.TakeWhile

/-! # Reading a domain again

A text is read as the host in it, with one `www.` taken off.  What is read is a plain DNS host, and
is read again as itself unless a second `www.` was under the first. -/

namespace Text
variable {p : Char → Bool} {xs ys : List Char}

theorem dropWhile_eq_self (h : ∀ c ∈ xs, p c = false) : xs.dropWhile p = xs := by
  cases xs with
  | nil => rfl
  | cons c cs =>
    rw [List.dropWhile_cons_of_neg]
    rw [h c List.mem_cons_self]
    exact Bool.false_ne_true

theorem trimEndBy_eq_self (h : ∀ c ∈ xs, p c = false) : trimEndBy p xs = xs := by
  unfold trimEndBy
  rw [dropWhile_eq_self fun c hc => h c (List.mem_reverse.mp hc), List.reverse_reverse]

theorem trim_eq_self (h : ∀ c ∈ xs, isWhiteSpace c = false) : trim xs = xs := by
  unfold trim
  rw [dropWhile_eq_self h, trimEndBy_eq_self h]

theorem dropWhile_append (hx : xs.dropWhile p = xs) (hy : ys.dropWhile p = ys) :
    (xs ++ ys).dropWhile p = xs ++ ys := by
  cases xs with
  | nil => exact hy
  | cons c cs =>
    by_cases hc : p c = true
    · rw [List.dropWhile_cons_of_pos hc] at hx
      have hlength := congrArg List.length hx
      have hle := (List.dropWhile_suffix (l := cs) p).length_le
      rw [List.length_cons] at hlength
      omega
    · exact List.dropWhile_cons_of_neg hc

theorem trimEndBy_append (hx : trimEndBy p xs = xs) :
    trimEndBy p (xs ++ ys) = xs ++ trimEndBy p ys := by
  have hrev : xs.reverse.dropWhile p = xs.reverse := by
    rw [← List.reverse_inj, List.reverse_reverse]
    exact hx
  unfold trimEndBy
  rw [List.reverse_append, List.dropWhile_append]
  split
  · rename_i hempty
    rw [List.isEmpty_iff.mp hempty, hrev, List.reverse_reverse, List.reverse_nil, List.append_nil]
  · rw [List.reverse_append, List.reverse_reverse]

theorem trimEndBy_append_of_all (h : ∀ c ∈ ys, p c = true) :
    trimEndBy p (xs ++ ys) = trimEndBy p xs := by
  unfold trimEndBy
  rw [List.reverse_append, List.dropWhile_append_of_pos]
  intro c hc
  exact h c (List.mem_reverse.mp hc)

/-- A text that begins with what is not trimmed still does. -/
theorem trimEndBy_cons {c : Char} (hc : p c = false) :
    trimEndBy p (c :: xs) = c :: trimEndBy p xs :=
  @trimEndBy_append _ [c] _ (trimEndBy_eq_self (by simpa using hc))

theorem isWhiteSpace_asciiLower (c : Char) : isWhiteSpace (asciiLower c) = isWhiteSpace c := by
  unfold asciiLower
  split
  · rename_i hupper
    rw [Char.le_def, Char.le_def, UInt32.le_iff_toNat_le, UInt32.le_iff_toNat_le] at hupper
    have hrange : 65 ≤ c.toNat ∧ c.toNat ≤ 90 := hupper
    have hlower : (Char.ofNat (c.toNat + 32)).toNat = c.toNat + 32 := by
      have hvalid : (c.toNat + 32).isValidChar := .inl (by omega)
      unfold Char.ofNat
      rw [dif_pos hvalid]
      rfl
    unfold isWhiteSpace
    rw [hlower]
    simp only [decide_eq_decide]
    omega
  · rfl

/-- Trimming does not look at the case of letters. -/
theorem map_asciiLower_trim (s : List Char) :
    (trim s).map asciiLower = trim (s.map asciiLower) := by
  have hcomp : isWhiteSpace ∘ asciiLower = isWhiteSpace := funext isWhiteSpace_asciiLower
  unfold trim trimEndBy
  rw [List.dropWhile_map, hcomp, ← List.map_reverse, List.dropWhile_map, hcomp, ← List.map_reverse]

theorem withoutPrefix_append (pre s : List Char) : withoutPrefix pre (pre ++ s) = s := by
  unfold withoutPrefix
  rw [if_pos (List.isPrefixOf_iff_prefix.mpr (List.prefix_append pre s)), List.drop_left]

theorem withoutPrefix_of_not {pre s : List Char} (h : ¬pre <+: s) : withoutPrefix pre s = s :=
  if_neg fun hpre => h (List.isPrefixOf_iff_prefix.mp hpre)

/-- A letter, as it stands in a lowercase host. -/
def isHostChar (c : Char) : Bool := isAsciiLower c || isAsciiDigit c || c = '-' || c = '.'

theorem isHostChar_spec {c : Char} (h : isHostChar c = true) :
    asciiLower c = c ∧ isWhiteSpace c = false ∧ c ≠ '/' ∧ c ≠ '?' ∧ c ≠ ':' := by
  unfold isHostChar isAsciiLower isAsciiDigit at h
  simp only [Bool.or_eq_true, decide_eq_true_eq, Char.le_def, UInt32.le_iff_toNat_le] at h
  have hvalue : c.toNat = c.val.toNat := rfl
  have hrange : 97 ≤ c.toNat ∧ c.toNat ≤ 122 ∨ 48 ≤ c.toNat ∧ c.toNat ≤ 57 ∨
      c.toNat = 45 ∨ c.toNat = 46 := by
    rcases h with ((⟨hlo, hhi⟩ | ⟨hlo, hhi⟩) | rfl) | rfl
    · exact .inl ⟨hlo, hhi⟩
    · exact .inr (.inl ⟨hlo, hhi⟩)
    · exact .inr (.inr (.inl rfl))
    · exact .inr (.inr (.inr rfl))
  refine ⟨?_, ?_, ?_, ?_, ?_⟩
  · apply if_neg
    rw [Char.le_def, Char.le_def, UInt32.le_iff_toNat_le, UInt32.le_iff_toNat_le]
    show ¬(65 ≤ c.toNat ∧ c.toNat ≤ 90)
    omega
  · unfold isWhiteSpace
    rw [decide_eq_false_iff_not]
    omega
  · rintro rfl
    exact absurd hrange (by decide)
  · rintro rfl
    exact absurd hrange (by decide)
  · rintro rfl
    exact absurd hrange (by decide)

theorem notMem_of_splitOn {sep : Char} {l : List Char} (h : l ∈ xs.splitOn sep) : sep ∉ l := by
  induction xs generalizing l with
  | nil =>
    rw [List.splitOn_nil, List.mem_singleton] at h
    rw [h]
    exact List.not_mem_nil
  | cons x xs ih =>
    rw [List.splitOn_cons_eq_if_modifyHead] at h
    split at h
    · rcases List.mem_cons.mp h with rfl | h
      · exact List.not_mem_nil
      · exact ih h
    · rename_i hne
      obtain ⟨first, rest, hsplit⟩ := List.exists_cons_of_ne_nil (List.splitOn_ne_nil sep xs)
      rw [hsplit, List.modifyHead_cons] at h
      rcases List.mem_cons.mp h with rfl | h
      · intro hmem
        rcases List.mem_cons.mp hmem with rfl | hmem
        · simp at hne
        · exact ih (hsplit ▸ List.mem_cons_self) hmem
      · exact ih (hsplit ▸ List.mem_cons_of_mem _ h)

theorem mem_of_splitOn {sep c : Char} {l : List Char} (h : l ∈ xs.splitOn sep) (hc : c ∈ l) :
    c ∈ xs := by
  induction xs generalizing l with
  | nil =>
    rw [List.splitOn_nil, List.mem_singleton] at h
    rw [h] at hc
    cases hc
  | cons x xs ih =>
    rw [List.splitOn_cons_eq_if_modifyHead] at h
    split at h
    · rcases List.mem_cons.mp h with rfl | h
      · cases hc
      · exact List.mem_cons_of_mem _ (ih h hc)
    · obtain ⟨first, rest, hsplit⟩ := List.exists_cons_of_ne_nil (List.splitOn_ne_nil sep xs)
      rw [hsplit, List.modifyHead_cons] at h
      rcases List.mem_cons.mp h with rfl | h
      · rcases List.mem_cons.mp hc with rfl | hc
        · exact List.mem_cons_self
        · exact List.mem_cons_of_mem _ (ih (hsplit ▸ List.mem_cons_self) hc)
      · exact List.mem_cons_of_mem _ (ih (hsplit ▸ List.mem_cons_of_mem _ h) hc)

end Text

namespace Kintrinsic

open Text

/-! ## What is valid -/

/-- A plain DNS host in lower case: labels of letters, digits and hyphens, none of them empty or
longer than 63, and no more than 253 in all. -/
structure IsDnsHost (host : List Char) : Prop where
  length_le : host.length ≤ 253
  labels : ∃ ls : List (List Char), ls ≠ [] ∧ host = ['.'].intercalate ls ∧
    ∀ l ∈ ls, l ≠ [] ∧ l.length ≤ 63 ∧
      ∀ c ∈ l, isAsciiLower c = true ∨ isAsciiDigit c = true ∨ c = '-'

theorem isValidDomain_iff {host : List Char} : isValidDomain (String.ofList host) = true ↔
    host ≠ [] ∧ host.length ≤ 253 ∧ (∀ c ∈ host, isHostChar c = true) ∧
      ∀ l ∈ host.splitOn '.', l ≠ [] ∧ l.length ≤ 63 := by
  unfold isValidDomain isHostChar
  rw [String.toList_ofList]
  simp only [Bool.and_eq_true, Bool.not_eq_true', List.isEmpty_eq_false_iff, decide_eq_true_eq,
    List.all_eq_true, List.any_eq_false, Bool.or_eq_true, List.isEmpty_iff, not_or, Nat.not_lt,
    ne_eq, and_assoc]

/-- The check lets plain DNS hosts through. -/
theorem isDnsHost_of_valid {host : List Char} (h : isValidDomain (String.ofList host) = true) :
    IsDnsHost host := by
  obtain ⟨-, hlength, hchars, hlabels⟩ := isValidDomain_iff.mp h
  refine ⟨hlength, host.splitOn '.', List.splitOn_ne_nil _ _,
    (List.intercalate_splitOn '.').symm, fun l hl => ?_⟩
  obtain ⟨hne, hshort⟩ := hlabels l hl
  refine ⟨hne, hshort, fun c hc => ?_⟩
  have hchar := hchars c (mem_of_splitOn hl hc)
  have hdot : c ≠ '.' := fun heq => notMem_of_splitOn hl (heq ▸ hc)
  unfold isHostChar at hchar
  simpa [hdot, or_assoc] using hchar

/-! ## Reading -/

/-- The host in a text, before a `www.` is taken off. -/
def hostText (raw : String) : List Char :=
  let s := (trim raw.toList).map asciiLower
  let s := withoutPrefix "https://".toList s
  let s := withoutPrefix "http://".toList s
  trimEndBy (· = '.') (s.takeWhile fun c => c ≠ '/' && c ≠ '?' && c ≠ ':')

theorem normalizeDomain_eq (raw : String) :
    normalizeDomain raw = String.ofList (withoutPrefix "www.".toList (hostText raw)) := rfl

/-- A valid host does not end with a dot. -/
theorem trimEndBy_of_valid {host : List Char} (h : isValidDomain (String.ofList host) = true) :
    trimEndBy (· = '.') host = host := by
  obtain ⟨-, -, -, hlabels⟩ := isValidDomain_iff.mp h
  rcases List.eq_nil_or_concat' host with rfl | ⟨init, c, rfl⟩
  · rfl
  · have hdot : c ≠ '.' := by
      rintro rfl
      have hlast : [] ∈ (init ++ ['.']).splitOn '.' := by
        rw [List.splitOn_append_cons_self, List.splitOn_nil]
        exact List.mem_append_right _ (List.mem_singleton_self _)
      exact (hlabels [] hlast).1 rfl
    unfold trimEndBy
    rw [List.reverse_append, List.reverse_singleton, List.singleton_append,
      List.dropWhile_cons_of_neg (by simpa using hdot), List.reverse_cons, List.reverse_reverse]

/-- **A valid host is the host in itself.** -/
theorem hostText_of_valid {host : List Char} (h : isValidDomain (String.ofList host) = true) :
    hostText (String.ofList host) = host := by
  obtain ⟨-, -, hchars, -⟩ := isValidDomain_iff.mp h
  have hspec := fun c hc => isHostChar_spec (hchars c hc)
  have htrim : trim host = host := trim_eq_self fun c hc => (hspec c hc).2.1
  have hlower : host.map asciiLower = host := by
    conv_rhs => rw [← List.map_id host]
    exact List.map_congr_left fun c hc => (hspec c hc).1
  have hcolon : ':' ∉ host := fun hc => (hspec ':' hc).2.2.2.2 rfl
  have hscheme : ∀ {pre : List Char}, ':' ∈ pre → withoutPrefix pre host = host := by
    intro pre hpre
    exact withoutPrefix_of_not fun hstart => hcolon (hstart.subset hpre)
  have hcut : host.takeWhile (fun c => c ≠ '/' && c ≠ '?' && c ≠ ':') = host := by
    rw [List.takeWhile_eq_self_iff]
    intro c hc
    obtain ⟨-, -, hslash, hquery, hc⟩ := hspec c hc
    simp [hslash, hquery, hc]
  unfold hostText
  rw [String.toList_ofList, htrim, hlower]
  dsimp only
  rw [hscheme (by decide), hscheme (by decide), hcut, trimEndBy_of_valid h]

theorem normalizeDomain_of_valid {host : List Char}
    (h : isValidDomain (String.ofList host) = true) :
    normalizeDomain (String.ofList host) = String.ofList (withoutPrefix "www.".toList host) := by
  rw [normalizeDomain_eq, hostText_of_valid h]

theorem parseDomain_eq_some {raw host : String} : parseDomain raw = some host ↔
    normalizeDomain raw = host ∧ isValidDomain host = true := by
  unfold parseDomain
  constructor
  · intro h
    split at h
    · rename_i hvalid
      obtain rfl := Option.some.inj h
      exact ⟨rfl, hvalid⟩
    · cases h
  · rintro ⟨rfl, hvalid⟩
    exact if_pos hvalid

/-- A valid host is read as itself unless it begins with `www.`. -/
theorem parseDomain_of_valid_iff {host : List Char}
    (h : isValidDomain (String.ofList host) = true) :
    parseDomain (String.ofList host) = some (String.ofList host) ↔ ¬"www.".toList <+: host := by
  rw [parseDomain_eq_some, normalizeDomain_of_valid h, and_iff_left h]
  constructor
  · rintro heq ⟨rest, rfl⟩
    rw [withoutPrefix_append, String.ofList_inj] at heq
    have hlength := congrArg List.length heq
    rw [List.length_append] at hlength
    have hfour : "www.".toList.length = 4 := by decide
    omega
  · intro hwww
    rw [withoutPrefix_of_not hwww]

/-! ## Reading again -/

/-- What a text is read as is a plain DNS host, and is read again as itself. -/
def ReadOnce (raw : String) : Prop :=
  ∀ host, parseDomain raw = some host →
    IsDnsHost host.toList ∧ parseDomain host = some host

/-- **Reading is a projection but for a second `www.`**: what is read is read again as itself
exactly when the host in the text does not begin with `www.www.`, or is not valid. -/
theorem readOnce_iff (raw : String) :
    ReadOnce raw ↔ ¬∃ rest, hostText raw = "www.www.".toList ++ rest ∧
      isValidDomain (String.ofList ("www.".toList ++ rest)) = true := by
  have hsplit : "www.www.".toList = "www.".toList ++ "www.".toList := by decide
  constructor
  · rintro honce ⟨rest, htext, hvalid⟩
    have hread : parseDomain raw = some (String.ofList ("www.".toList ++ rest)) := by
      rw [parseDomain_eq_some, normalizeDomain_eq, htext, hsplit, List.append_assoc,
        withoutPrefix_append]
      exact ⟨rfl, hvalid⟩
    exact (parseDomain_of_valid_iff hvalid).mp (honce _ hread).2 (List.prefix_append _ _)
  · intro hno host hread
    obtain ⟨rfl, hvalid⟩ := parseDomain_eq_some.mp hread
    rw [normalizeDomain_eq] at hvalid ⊢
    rw [String.toList_ofList]
    refine ⟨isDnsHost_of_valid hvalid, (parseDomain_of_valid_iff hvalid).mpr ?_⟩
    rintro ⟨rest, hrest⟩
    by_cases hwww : "www.".toList <+: hostText raw
    · obtain ⟨host, hhost⟩ := hwww
      rw [← hhost, withoutPrefix_append] at hrest hvalid
      refine hno ⟨rest, ?_, ?_⟩
      · rw [← hhost, ← hrest, hsplit, List.append_assoc]
      · rw [hrest]
        exact hvalid
    · rw [withoutPrefix_of_not hwww] at hrest
      exact hwww ⟨rest, hrest⟩

/-- **Two at once**: `www.www.example.com` is read as a host that is itself read as another. -/
theorem not_readOnce_wwwTwice :
    ¬ReadOnce "www.www.example.com" ∧
      parseDomain "www.www.example.com" = some "www.example.com" ∧
      parseDomain "www.example.com" = some "example.com" := by
  have hfirst : parseDomain "www.www.example.com" = some "www.example.com" := by decide +kernel
  have hagain : parseDomain "www.example.com" = some "example.com" := by decide +kernel
  refine ⟨fun honce => ?_, hfirst, hagain⟩
  have hsame := (honce _ hfirst).2
  rw [hagain] at hsame
  exact absurd hsame (by decide)

/-! ## Spellings -/

/-- What ends a host: a path, a query or a port. -/
def endsHost (c : Char) : Bool := c = '/' || c = '?' || c = ':'

/-- A text that spells a host: in any letters, under a scheme or none, and with root dots, a port
and a path or without. -/
structure Spelling (host : List Char) where
  scheme : List Char
  name : List Char
  dots : Nat
  port : List Char
  path : List Char
  scheme_lower : scheme.map asciiLower ∈ [[], "http://".toList, "https://".toList]
  name_lower : name.map asciiLower = host
  bare : (∀ c ∈ host, endsHost c = false) ∧ host.dropWhile isWhiteSpace = host ∧
    trimEndBy isWhiteSpace host = host
  port_digits : port = [] ∨ ∃ d ds, port = ':' :: d :: ds ∧ ∀ c ∈ d :: ds, isAsciiDigit c = true
  path_head : ∀ c ∈ path.head?, c = '/' ∨ c = '?'

def Spelling.text {host : List Char} (s : Spelling host) : List Char :=
  s.scheme ++ (s.name ++ (List.replicate s.dots '.' ++ (s.port ++ s.path)))

/-- A text of a host, and what ends it. -/
theorem takeWhile_host {host rest : List Char} (hhost : ∀ c ∈ host, endsHost c = false)
    (hrest : ∀ c ∈ rest.head?, endsHost c = true) :
    (host ++ rest).takeWhile (fun c => c ≠ '/' && c ≠ '?' && c ≠ ':') = host := by
  have hneg : ∀ c, (decide (c ≠ '/') && decide (c ≠ '?') && decide (c ≠ ':')) = !endsHost c := by
    intro c
    simp [endsHost]
  rw [List.takeWhile_append_of_pos]
  · cases rest with
    | nil => rw [List.takeWhile_nil, List.append_nil]
    | cons c cs =>
      rw [List.takeWhile_cons_of_neg, List.append_nil]
      rw [hneg, hrest c rfl]
      exact Bool.false_ne_true
  · intro c hc
    rw [hneg, hhost c hc]
    rfl

namespace Spelling
variable {host : List Char} (s : Spelling host)

/-- What follows the host and its dots, once trimmed and in lower case. -/
def tail : List Char := s.port.map asciiLower ++ trimEndBy isWhiteSpace (s.path.map asciiLower)

theorem port_lower : s.port.map asciiLower = [] ∨
    ∃ d ds, s.port.map asciiLower = ':' :: d :: ds ∧
      ∀ c ∈ d :: ds, isWhiteSpace c = false ∧ c ≠ '/' := by
  have hdigit : ∀ c, isAsciiDigit c = true →
      isWhiteSpace (asciiLower c) = false ∧ asciiLower c ≠ '/' := by
    intro c hc
    obtain ⟨hlower, hspace, hslash, -⟩ := isHostChar_spec (c := c) (by simp [isHostChar, hc])
    rw [hlower]
    exact ⟨hspace, hslash⟩
  obtain hnone | ⟨d, ds, hport, hdigits⟩ := s.port_digits
  · exact .inl (by rw [hnone, List.map_nil])
  · refine .inr ⟨asciiLower d, ds.map asciiLower, by rw [hport]; rfl, fun c hc => ?_⟩
    rw [← List.map_cons] at hc
    obtain ⟨raw, hraw, rfl⟩ := List.mem_map.mp hc
    exact hdigit raw (hdigits raw hraw)

/-- A path is trimmed at its end only. -/
theorem path_lower : trimEndBy isWhiteSpace (s.path.map asciiLower) = [] ∨
    ∃ c cs, trimEndBy isWhiteSpace (s.path.map asciiLower) = c :: cs ∧ (c = '/' ∨ c = '?') := by
  cases hpath : s.path with
  | nil => exact .inl rfl
  | cons c cs =>
    have hhead := s.path_head c (by rw [hpath]; rfl)
    have hlower : asciiLower c = c ∧ isWhiteSpace c = false := by
      rcases hhead with rfl | rfl <;> decide
    refine .inr ⟨c, trimEndBy isWhiteSpace (cs.map asciiLower), ?_, hhead⟩
    rw [List.map_cons, hlower.1, trimEndBy_cons hlower.2]

theorem tail_head : ∀ c ∈ s.tail.head?, endsHost c = true := by
  intro c hc
  unfold tail at hc
  obtain hport | ⟨d, ds, hport, -⟩ := s.port_lower
  · rw [hport, List.nil_append] at hc
    obtain hpath | ⟨q, qs, hpath, hq⟩ := s.path_lower
    · rw [hpath] at hc
      cases hc
    · rw [hpath] at hc
      obtain rfl := Option.some.inj hc
      rcases hq with rfl | rfl <;> rfl
  · rw [hport] at hc
    obtain rfl := Option.some.inj hc
    rfl

/-- No scheme begins after the host. -/
theorem tail_ne (rest : List Char) : s.tail ≠ "://".toList ++ rest := by
  intro heq
  unfold tail at heq
  obtain hport | ⟨d, ds, hport, hd⟩ := s.port_lower
  · rw [hport, List.nil_append] at heq
    obtain hpath | ⟨q, qs, hpath, hq⟩ := s.path_lower
    · rw [hpath] at heq
      cases heq
    · rw [hpath] at heq
      obtain rfl : q = ':' := List.head_eq_of_cons_eq heq
      rcases hq with hq | hq <;> exact absurd hq (by decide)
  · rw [hport] at heq
    have hslash : d = '/' := List.head_eq_of_cons_eq (List.tail_eq_of_cons_eq heq)
    exact (hd d List.mem_cons_self).2 hslash

/-- The host of a spelling, with its root dots. -/
def dotted : List Char := host ++ List.replicate s.dots '.'

theorem dotted_bare : ∀ c ∈ s.dotted, endsHost c = false := by
  intro c hc
  rcases List.mem_append.mp hc with hc | hc
  · exact s.bare.1 c hc
  · rw [List.eq_of_mem_replicate hc]
    rfl

/-- A spelling, trimmed and in lower case. -/
theorem trim_text : (trim s.text).map asciiLower =
    s.scheme.map asciiLower ++ (s.dotted ++ s.tail) := by
  have hdots : ∀ c ∈ List.replicate s.dots '.', isWhiteSpace c = false := by
    intro c hc
    rw [List.eq_of_mem_replicate hc]
    rfl
  have hdotsLower : (List.replicate s.dots '.').map asciiLower = List.replicate s.dots '.' := by
    rw [List.map_replicate]
    rfl
  have hport : ∀ c ∈ s.port.map asciiLower, isWhiteSpace c = false := by
    obtain hport | ⟨d, ds, hport, hd⟩ := s.port_lower
    · rw [hport]
      exact fun c hc => absurd hc List.not_mem_nil
    · rw [hport]
      intro c hc
      rcases List.mem_cons.mp hc with rfl | hc
      · rfl
      · exact (hd c hc).1
  have hscheme : (s.scheme.map asciiLower).dropWhile isWhiteSpace = s.scheme.map asciiLower ∧
      trimEndBy isWhiteSpace (s.scheme.map asciiLower) = s.scheme.map asciiLower := by
    have hmem := s.scheme_lower
    generalize s.scheme.map asciiLower = scheme at hmem
    simp only [List.mem_cons, List.not_mem_nil, or_false] at hmem
    rcases hmem with rfl | rfl | rfl <;> exact ⟨by decide, by decide⟩
  have hpath : (s.path.map asciiLower).dropWhile isWhiteSpace = s.path.map asciiLower := by
    cases hpath : s.path with
    | nil => rfl
    | cons c cs =>
      have hhead := s.path_head c (by rw [hpath]; rfl)
      rw [List.map_cons, List.dropWhile_cons_of_neg]
      rcases hhead with rfl | rfl <;> decide
  rw [map_asciiLower_trim]
  unfold text dotted tail
  rw [List.map_append, List.map_append, List.map_append, List.map_append, s.name_lower, hdotsLower]
  unfold trim
  rw [dropWhile_append hscheme.1 (dropWhile_append s.bare.2.1
      (dropWhile_append (dropWhile_eq_self hdots) (dropWhile_append (dropWhile_eq_self hport)
        hpath))),
    trimEndBy_append hscheme.2, trimEndBy_append s.bare.2.2,
    trimEndBy_append (trimEndBy_eq_self hdots), trimEndBy_append (trimEndBy_eq_self hport),
    List.append_assoc]

/-- No letter of a text ends a host. -/
theorem bare_of_all {w : List Char} (h : (w.all fun c => !endsHost c) = true) :
    ∀ c ∈ w, endsHost c = false := by
  intro c hc
  have hletter := List.all_eq_true.mp h c hc
  rwa [Bool.not_eq_true'] at hletter

/-- A scheme's letters do not begin a host that no scheme was put before. -/
theorem not_prefix {w : List Char} (hw : ∀ c ∈ w, endsHost c = false) :
    ¬(w ++ "://".toList) <+: s.dotted ++ s.tail := by
  rintro ⟨rest, heq⟩
  rw [List.append_assoc] at heq
  have hleft := @takeWhile_host _ ("://".toList ++ rest) hw (by
    intro c hc
    obtain rfl := Option.some.inj hc
    rfl)
  rw [heq, takeWhile_host s.dotted_bare s.tail_head] at hleft
  rw [hleft] at heq
  exact s.tail_ne rest (List.append_cancel_left heq).symm

/-- **A spelling's host**: its letters in lower case, whatever it is spelled with. -/
theorem hostText_text : hostText (String.ofList s.text) = trimEndBy (· = '.') host := by
  have hhttp : ¬"http://".toList <+: s.dotted ++ s.tail :=
    s.not_prefix (w := "http".toList) (bare_of_all (by decide))
  have hhttps : ¬"https://".toList <+: s.dotted ++ s.tail :=
    s.not_prefix (w := "https".toList) (bare_of_all (by decide))
  have hlower := s.trim_text
  have hmem := s.scheme_lower
  generalize s.scheme.map asciiLower = scheme at hlower hmem
  have hstrip : withoutPrefix "http://".toList (withoutPrefix "https://".toList
      (scheme ++ (s.dotted ++ s.tail))) = s.dotted ++ s.tail := by
    simp only [List.mem_cons, List.not_mem_nil, or_false] at hmem
    rcases hmem with rfl | rfl | rfl
    · rw [List.nil_append, withoutPrefix_of_not hhttps, withoutPrefix_of_not hhttp]
    · rw [@withoutPrefix_of_not "https://".toList, withoutPrefix_append]
      rintro ⟨rest, heq⟩
      have hchar : some 's' = some ':' := congrArg (·[4]?) heq
      exact absurd hchar (by decide)
    · rw [withoutPrefix_append, withoutPrefix_of_not hhttp]
  unfold hostText
  rw [String.toList_ofList, hlower]
  dsimp only
  rw [hstrip, takeWhile_host s.dotted_bare s.tail_head]
  exact trimEndBy_append_of_all fun c hc => by simp [List.eq_of_mem_replicate hc]

end Spelling

/-- Two texts that spell one host. -/
def SameHost (a b : String) : Prop :=
  a = b ∨ ∃ host, ∃ s t : Spelling host, a = String.ofList s.text ∧ b = String.ofList t.text

/-- **Spellings are read alike.** -/
theorem SameHost.parseDomain_eq {a b : String} (h : SameHost a b) :
    parseDomain a = parseDomain b := by
  obtain rfl | ⟨host, s, t, rfl, rfl⟩ := h
  · rfl
  · unfold parseDomain
    rw [normalizeDomain_eq, normalizeDomain_eq, s.hostText_text, t.hostText_text]

theorem SameHost.symm {a b : String} (h : SameHost a b) : SameHost b a := by
  obtain rfl | ⟨host, s, t, ha, hb⟩ := h
  · exact .inl rfl
  · exact .inr ⟨host, t, s, hb, ha⟩

end Kintrinsic
