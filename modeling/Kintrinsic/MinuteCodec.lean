import Kintrinsic.Minutes
import Kintrinsic.SextetGroups
import Mathlib.Data.Nat.Bitwise

/-! # A day's minutes as text

The 1440 bits are 180 bytes, the first minute in the lowest bit, and the bytes are 240
characters.  The text of a set is read back as that set, and a text that is read is the text
of what it was read as: there is one text to a set. -/
namespace Kintrinsic
namespace MinuteSet

open SextetGroups

variable {s t : MinuteSet}

def contains (s : MinuteSet) (minute : Nat) : Bool :=
  if h : minute < 1440 then decide (⟨minute, h⟩ ∈ s.bits) else false

/-- A byte of the bitmap. -/
def byteOf (s : MinuteSet) (i : Nat) : Nat := Nat.ofBits fun k : Fin 8 => s.contains (8 * i + k)

/-- The alphabet. -/
def alphabet : List Char :=
  "ABCDEFGHIJKLMNOPQRSTUVWXYZabcdefghijklmnopqrstuvwxyz0123456789-_".toList

def letter (v : Nat) : Char := alphabet.getD v 'A'

/-- `to_b64url`: three bytes of the bitmap to four characters. -/
def toB64url (s : MinuteSet) : String :=
  String.ofList <| (List.range 60).flatMap fun q =>
    let n := s.byteOf (3 * q) * 2 ^ 16 + s.byteOf (3 * q + 1) * 2 ^ 8 + s.byteOf (3 * q + 2)
    [letter (n / 2 ^ 18 % 64), letter (n / 2 ^ 12 % 64), letter (n / 2 ^ 6 % 64), letter (n % 64)]

/-! ## The alphabet -/

/-- Every sextet has a character, of one byte, which is read back as it. -/
theorem letter_spec {v : Nat} (h : v < 64) :
    sextet (letter v) = some v ∧ (letter v).toNat < 128 := by
  interval_cases v <;> decide

theorem toNat_le_of_isUpper {c : Char} (h : c.isUpper = true) : c.toNat ≤ 90 :=
  UInt32.le_iff_toNat_le.mp (of_decide_eq_true h).2

theorem toNat_le_of_isLower {c : Char} (h : c.isLower = true) : c.toNat ≤ 122 := by
  unfold Char.isLower at h
  rw [Bool.and_eq_true, decide_eq_true_iff, decide_eq_true_iff] at h
  exact UInt32.le_iff_toNat_le.mp h.2

theorem toNat_lt_of_sextet {c : Char} {v : Nat} (h : sextet c = some v) : c.toNat < 128 := by
  unfold sextet at h
  by_cases hupper : c.isUpper = true
  · exact (toNat_le_of_isUpper hupper).trans_lt (by decide)
  by_cases hlower : c.isLower = true
  · exact (toNat_le_of_isLower hlower).trans_lt (by decide)
  by_cases hdigit : c.isDigit = true
  · exact (Char.isDigit_iff_toNat.mp hdigit).2.trans_lt (by decide)
  rw [if_neg hupper, if_neg hlower, if_neg hdigit] at h
  split at h
  · subst_vars
    decide
  · split at h
    · subst_vars
      decide
    · cases h

/-- A character that is read is the character of its sextet. -/
theorem letter_of_sextet {c : Char} {v : Nat} (h : sextet c = some v) : v < 64 ∧ letter v = c := by
  have hletters : ∀ n < 128, ∀ u ∈ sextet (Char.ofNat n), u < 64 ∧ letter u = Char.ofNat n := by
    decide +kernel
  have hchar := hletters c.toNat (toNat_lt_of_sextet h) v
  rw [Char.ofNat_toNat] at hchar
  exact hchar h

/-- A text of one-byte characters is as long as their number. -/
theorem utf8ByteSize_of_ascii {cs : List Char} (h : ∀ c ∈ cs, c.toNat < 128) :
    (String.ofList cs).utf8ByteSize = cs.length := by
  induction cs with
  | nil => rfl
  | cons c cs ih =>
    have hone : c.utf8Size = 1 := Char.utf8Size_eq_one_iff.mpr (by
      change c.toNat ≤ 127
      exact Nat.le_of_lt_succ (h c List.mem_cons_self))
    have hcons : String.ofList (c :: cs) = String.ofList [c] ++ String.ofList cs := by
      rw [← String.ofList_append]
      rfl
    have hsingle : (String.ofList [c]).utf8ByteSize = 1 := by simp [hone]
    rw [hcons, String.utf8ByteSize_append, hsingle, ih fun c hc => h c (List.mem_cons_of_mem _ hc),
      List.length_cons, Nat.add_comm]

/-! ## The bitmap -/

theorem byteOf_lt (s : MinuteSet) (i : Nat) : s.byteOf i < 256 := Nat.ofBits_lt_two_pow _

theorem testBit_byteOf (s : MinuteSet) (i : Nat) {k : Nat} (hk : k < 8) :
    (s.byteOf i).testBit k = s.contains (8 * i + k) :=
  Nat.testBit_ofBits_lt _ k hk

/-- The number of a group of three bytes. -/
def groupOf (s : MinuteSet) (q : Nat) : Nat := ofOctets fun r => s.byteOf (3 * q + r)

theorem groupOf_lt (s : MinuteSet) (q : Nat) : s.groupOf q < 2 ^ 24 :=
  ofOctets_lt fun _ _ => s.byteOf_lt _

/-- The sextets of a bitmap. -/
def sextets (s : MinuteSet) : List Nat := quads 60 fun q r => sextetAt (s.groupOf q) r

theorem toB64url_eq (s : MinuteSet) : s.toB64url = String.ofList (s.sextets.map letter) := by
  have hgroup : ∀ q, [letter (s.groupOf q / 2 ^ 18 % 64), letter (s.groupOf q / 2 ^ 12 % 64),
      letter (s.groupOf q / 2 ^ 6 % 64), letter (s.groupOf q % 64)] =
      [letter (sextetAt (s.groupOf q) 0), letter (sextetAt (s.groupOf q) 1),
        letter (sextetAt (s.groupOf q) 2), letter (sextetAt (s.groupOf q) 3)] := by
    intro q
    simp [sextetAt]
  rw [sextets, map_quads]
  exact congrArg String.ofList (List.flatMap_congr fun q _ => hgroup q)

theorem lt_of_mem_sextets {v : Nat} (h : v ∈ s.sextets) : v < 64 := by
  obtain ⟨q, -, hv⟩ := List.mem_flatMap.mp h
  simp only [List.mem_cons, List.not_mem_nil, or_false] at hv
  rcases hv with rfl | rfl | rfl | rfl <;> exact sextetAt_lt _ _

/-- The bytes that a list of sextets is read as. -/
theorem byteAt_eq (vals : List Nat) {q r : Nat} (hr : r < 3) :
    byteAt vals (3 * q + r) = octet (ofSextets fun k => vals.getD (4 * q + k) 0) r := by
  have hdiv : (3 * q + r) / 3 = q := by omega
  have hmod : (3 * q + r) % 3 = r := by omega
  simp only [byteAt, hdiv, hmod, octet, ofSextets, Nat.add_zero]

theorem byteAt_lt (vals : List Nat) (j : Nat) : byteAt vals j < 256 := Nat.mod_lt _ (by decide)

/-- The bytes of a bitmap are read back from its sextets. -/
theorem byteAt_sextets (s : MinuteSet) {j : Nat} (hj : j < 180) :
    byteAt s.sextets j = s.byteOf j := by
  obtain ⟨q, r, hq, hr, rfl⟩ : ∃ q r, q < 60 ∧ r < 3 ∧ j = 3 * q + r :=
    ⟨j / 3, j % 3, by omega, by omega, by omega⟩
  have hvals : ∀ k < 4, s.sextets.getD (4 * q + k) 0 = sextetAt (s.groupOf q) k :=
    fun k hk => getD_quads _ hq hk 0
  have hgroup : (ofSextets fun k => s.sextets.getD (4 * q + k) 0) = s.groupOf q := by
    rw [← ofSextets_sextetAt (s.groupOf_lt q)]
    simp only [ofSextets]
    rw [hvals 0 (by decide), hvals 1 (by decide), hvals 2 (by decide), hvals 3 (by decide)]
  rw [byteAt_eq _ hr, hgroup]
  exact octet_ofOctets (fun _ _ => s.byteOf_lt _) hr

/-! ## The two directions -/

/-- **A set is read back from its text.** -/
theorem fromB64url_toB64url (s : MinuteSet) : fromB64url s.toB64url = some s := by
  have hascii : ∀ c ∈ s.sextets.map letter, c.toNat < 128 := by
    intro c hc
    obtain ⟨v, hv, rfl⟩ := List.mem_map.mp hc
    exact (letter_spec (lt_of_mem_sextets hv)).2
  have hsize : (String.ofList (s.sextets.map letter)).utf8ByteSize = 240 := by
    rw [utf8ByteSize_of_ascii hascii, List.length_map, sextets, length_quads]
  have hread : (s.sextets.map letter).mapM sextet = some s.sextets := by
    rw [mapM_eq_some_iff, List.forall₂_map_left_iff, List.forall₂_same]
    exact fun v hv => (letter_spec (lt_of_mem_sextets hv)).1
  have hnot : (s.sextets.map letter).any (fun c => decide (128 ≤ c.toNat)) = false :=
    List.any_eq_false.mpr fun c hc => by
      rw [decide_eq_true_iff]
      exact Nat.not_le.mpr (hascii c hc)
  rw [toB64url_eq, fromB64url, String.toList_ofList, hsize, hnot, if_neg (by decide), hread,
    Option.map_some, Option.some.injEq]
  refine congrArg MinuteSet.mk (Finset.ext fun i => ?_)
  have hi := i.isLt
  rw [Finset.mem_filter, byteAt_sextets s (by omega), testBit_byteOf s _ (Nat.mod_lt _ (by decide)),
    Nat.div_add_mod]
  simp [contains]

/-- The text that was read, as the characters of its sextets. -/
theorem fromB64url_spec {text : String} (h : fromB64url text = some s) :
    ∃ vals : List Nat, vals.length = 240 ∧ (∀ v ∈ vals, v < 64) ∧
      text = String.ofList (vals.map letter) ∧
      ∀ i : Fin 1440, i ∈ s.bits ↔ (byteAt vals (i.val / 8)).testBit (i.val % 8) = true := by
  unfold fromB64url at h
  split at h
  · cases h
  rename_i hchars
  rw [not_or, not_not, Bool.not_eq_true, List.any_eq_false] at hchars
  obtain ⟨hsize, hascii⟩ := hchars
  obtain ⟨vals, hvals, rfl⟩ := Option.map_eq_some_iff.mp h
  rw [mapM_eq_some_iff] at hvals
  have hlen : text.toList.length = 240 := by
    rw [← @utf8ByteSize_of_ascii text.toList, String.ofList_toList, hsize]
    intro c hc
    have hlt := hascii c hc
    rw [decide_eq_true_iff] at hlt
    omega
  refine ⟨vals, hvals.length_eq.symm.trans hlen, ?_, ?_, ?_⟩
  · intro v hv
    obtain ⟨c, -, hc⟩ := exists_of_forall₂ hvals hv
    exact (letter_of_sextet hc).1
  · have hmap : vals.map letter = text.toList := by
      refine List.forall₂_eq_eq_eq ▸ ?_
      rw [List.forall₂_map_left_iff]
      exact hvals.flip.imp fun _ _ hc => (letter_of_sextet hc).2
    rw [hmap, String.ofList_toList]
  · intro i
    simp

/-- The set of some bytes has those bytes. -/
theorem byteOf_of_bits {vals : List Nat} {j : Nat} (hbits : ∀ i : Fin 1440, i ∈ s.bits ↔
    (byteAt vals (i.val / 8)).testBit (i.val % 8) = true) (hj : j < 180) :
    s.byteOf j = byteAt vals j := by
  have hbit : ∀ k : Fin 8, s.contains (8 * j + k) = (byteAt vals j).testBit k := by
    intro k
    have hk := k.isLt
    have hmem := hbits ⟨8 * j + k, by omega⟩
    have hdiv : (8 * j + k.val) / 8 = j := by omega
    have hmod : (8 * j + k.val) % 8 = k := by omega
    rw [hdiv, hmod] at hmem
    rw [contains, dif_pos (by omega), Bool.eq_iff_iff, decide_eq_true_iff]
    exact hmem
  rw [byteOf, funext hbit, Nat.ofBits_testBit]
  exact Nat.mod_eq_of_lt (byteAt_lt vals j)

/-- **A text that is read is the text of its set.** -/
theorem toB64url_fromB64url {text : String} (h : fromB64url text = some s) :
    s.toB64url = text := by
  obtain ⟨vals, hlen, hlt, rfl, hbits⟩ := fromB64url_spec h
  have hvalue : ∀ i, vals.getD i 0 < 64 := by
    intro i
    rcases Nat.lt_or_ge i vals.length with hi | hi
    · rw [List.getD_eq_getElem _ _ hi]
      exact hlt _ (List.getElem_mem hi)
    · rw [List.getD_eq_default _ _ hi]
      decide
  have hbyte : ∀ j < 180, s.byteOf j = byteAt vals j := fun j hj => byteOf_of_bits hbits hj
  have hgroup : ∀ q < 60, s.groupOf q = ofSextets fun k => vals.getD (4 * q + k) 0 := by
    intro q hq
    have hoctets : ∀ r < 3, s.byteOf (3 * q + r) =
        octet (ofSextets fun k => vals.getD (4 * q + k) 0) r := fun r hr => by
      rw [hbyte _ (by omega), byteAt_eq vals hr]
    rw [← ofOctets_octet (ofSextets_lt (v := fun k => vals.getD (4 * q + k) 0) fun r _ => hvalue _)]
    simp only [groupOf, ofOctets]
    rw [hoctets 0 (by decide), hoctets 1 (by decide), hoctets 2 (by decide)]
  have hsextets : s.sextets = vals := by
    rw [eq_quads (m := 60) hlen 0, sextets]
    refine quads_congr fun q hq r hr => ?_
    rw [hgroup q hq]
    exact sextetAt_ofSextets (fun k _ => hvalue _) hr
  rw [toB64url_eq, hsextets]

end MinuteSet
end Kintrinsic
