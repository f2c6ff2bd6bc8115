import Kintrinsic.MinuteCodec

/-! # The minutes of a day in the guardian's app

A hundred and eighty bytes, in whose bits the minutes stand as they do on the device: each side's
texts are the other's, and read as the same set. -/
namespace Kintrinsic
namespace JsMinutes

open MinuteSet SextetGroups

def emptyMinutes : List Nat := List.replicate 180 0

def hasMinute (bits : List Nat) (minute : Nat) : Bool :=
  decide (minute < 1440) && (bits.getD (minute >>> 3) 0 &&& 1 <<< (minute &&& 7)) != 0

def unionMinutes (a b : List Nat) : List Nat :=
  (List.range 180).map fun i => a.getD i 0 ||| b.getD i 0

/-- `encodeMinutes`: three bytes to four characters. -/
def encodeMinutes (bits : List Nat) : String :=
  String.ofList <| (List.range 60).flatMap fun q =>
    let n := bits.getD (3 * q) 0 <<< 16 ||| bits.getD (3 * q + 1) 0 <<< 8 ||| bits.getD (3 * q + 2) 0
    [letter (n >>> 18 &&& 63), letter (n >>> 12 &&& 63), letter (n >>> 6 &&& 63), letter (n &&& 63)]

/-- The length of a text of the app, which counts a character beyond the first plane twice. -/
def jsLength (s : String) : Nat := (s.toList.map fun c => if c.toNat < 65536 then 1 else 2).sum

/-- `decodeMinutes`: exactly 240 characters of the alphabet. -/
def decodeMinutes (s : String) : Option (List Nat) :=
  if jsLength s ≠ 240 then none
  else
    (s.toList.mapM fun c => alphabet.idxOf? c).map fun vals =>
      (List.range 60).flatMap fun q =>
        let n := vals.getD (4 * q) 0 <<< 18 ||| vals.getD (4 * q + 1) 0 <<< 12 |||
          vals.getD (4 * q + 2) 0 <<< 6 ||| vals.getD (4 * q + 3) 0
        [n >>> 16 &&& 255, n >>> 8 &&& 255, n &&& 255]

/-- The bytes of a set. -/
def bytesOf (s : MinuteSet) : List Nat := (List.range 180).map s.byteOf

variable {s t : MinuteSet}

theorem getD_bytesOf {i : Nat} (hi : i < 180) : (bytesOf s).getD i 0 = s.byteOf i := by
  rw [bytesOf, List.getD_eq_getElem _ _ (by simpa using hi), List.getElem_map, List.getElem_range]

/-- The bytes tell the set. -/
theorem bytesOf_inj (h : bytesOf s = bytesOf t) : s = t := by
  have hbyte : ∀ i < 180, s.byteOf i = t.byteOf i := fun i hi => by
    rw [← getD_bytesOf hi, h, getD_bytesOf hi]
  have hcontains : ∀ m < 1440, s.contains m = t.contains m := by
    intro m hm
    have hbit : (s.byteOf (m / 8)).testBit (m % 8) = (t.byteOf (m / 8)).testBit (m % 8) := by
      rw [hbyte (m / 8) (by omega)]
    rwa [testBit_byteOf s _ (Nat.mod_lt _ (by decide)), testBit_byteOf t _ (Nat.mod_lt _ (by decide)),
      Nat.div_add_mod] at hbit
  obtain ⟨bits⟩ := s
  obtain ⟨bits'⟩ := t
  refine congrArg MinuteSet.mk (Finset.ext fun i => ?_)
  have hbit := hcontains i i.isLt
  simpa [contains] using hbit

/-! ## Bits as sums -/

theorem or_octets {a b c : Nat} (hb : b < 256) (hc : c < 256) :
    a <<< 16 ||| b <<< 8 ||| c = a * 2 ^ 16 + b * 2 ^ 8 + c := by
  have hlow : b <<< 8 ||| c = b <<< 8 + c := (Nat.shiftLeft_add_eq_or_of_lt hc b).symm
  have hlt : b <<< 8 + c < 2 ^ 16 := by
    rw [Nat.shiftLeft_eq]
    omega
  rw [Nat.or_assoc, hlow, ← Nat.shiftLeft_add_eq_or_of_lt hlt, Nat.shiftLeft_eq, Nat.shiftLeft_eq,
    add_assoc]

theorem or_sextets {a b c d : Nat} (hb : b < 64) (hc : c < 64) (hd : d < 64) :
    a <<< 18 ||| b <<< 12 ||| c <<< 6 ||| d = a * 2 ^ 18 + b * 2 ^ 12 + c * 2 ^ 6 + d := by
  have hlow : c <<< 6 ||| d = c <<< 6 + d := (Nat.shiftLeft_add_eq_or_of_lt hd c).symm
  have hlt : c <<< 6 + d < 2 ^ 12 := by
    rw [Nat.shiftLeft_eq]
    omega
  have hmid : b <<< 12 ||| (c <<< 6 + d) = b <<< 12 + (c <<< 6 + d) :=
    (Nat.shiftLeft_add_eq_or_of_lt hlt b).symm
  have hlt' : b <<< 12 + (c <<< 6 + d) < 2 ^ 18 := by
    rw [Nat.shiftLeft_eq, Nat.shiftLeft_eq]
    omega
  rw [Nat.or_assoc, Nat.or_assoc, hlow, hmid, ← Nat.shiftLeft_add_eq_or_of_lt hlt',
    Nat.shiftLeft_eq, Nat.shiftLeft_eq, Nat.shiftLeft_eq, add_assoc, add_assoc]

theorem shiftRight_and_ones (n k w : Nat) : n >>> k &&& (2 ^ w - 1) = n / 2 ^ k % 2 ^ w := by
  rw [Nat.and_two_pow_sub_one_eq_mod, Nat.shiftRight_eq_div_pow]

theorem and_ones (n w : Nat) : n &&& (2 ^ w - 1) = n % 2 ^ w := Nat.and_two_pow_sub_one_eq_mod n w

/-! ## Both sides beside each other -/

/-- A position in the alphabet is the value of the character there. -/
theorem idxOf_alphabet (c : Char) : alphabet.idxOf? c = sextet c := by
  cases hc : sextet c with
  | some v =>
    obtain ⟨hlt, rfl⟩ := letter_of_sextet hc
    interval_cases v <;> decide
  | none =>
    rw [List.idxOf?_eq_none_iff]
    intro hmem
    have hall : alphabet.all (fun c => (sextet c).isSome) = true := by decide
    have hsome := List.all_eq_true.mp hall c hmem
    rw [hc] at hsome
    cases hsome

/-- **A set is written as the device writes it.** -/
theorem encodeMinutes_bytesOf (s : MinuteSet) : encodeMinutes (bytesOf s) = s.toB64url := by
  refine congrArg String.ofList (List.flatMap_congr fun q hq => ?_)
  have hq := List.mem_range.mp hq
  have hand : ∀ n k, n >>> k &&& 63 = n / 2 ^ k % 64 := fun n k => shiftRight_and_ones n k 6
  have hlast : ∀ n, n &&& 63 = n % 64 := fun n => and_ones n 6
  dsimp only
  rw [getD_bytesOf (by omega), getD_bytesOf (by omega), getD_bytesOf (by omega),
    or_octets (s.byteOf_lt _) (s.byteOf_lt _), hand, hand, hand, hlast]

theorem triples_range {α : Type} (f : Nat → α) (m : Nat) :
    (List.range m).flatMap (fun q => [f (3 * q), f (3 * q + 1), f (3 * q + 2)]) =
      (List.range (3 * m)).map f := by
  induction m with
  | zero => rfl
  | succ m ih =>
    rw [List.range_succ, List.flatMap_append, ih, Nat.mul_succ, List.range_succ, List.range_succ,
      List.range_succ]
    simp

/-- **A text is read as the device reads it.** -/
theorem decodeMinutes_eq (text : String) : decodeMinutes text = (fromB64url text).map bytesOf := by
  unfold decodeMinutes fromB64url
  rw [funext idxOf_alphabet]
  cases hvals : text.toList.mapM sextet with
  | none => simp
  | some vals =>
    -- only characters of the alphabet: each is one byte there and one unit here
    rw [mapM_eq_some_iff] at hvals
    have hascii : ∀ c ∈ text.toList, c.toNat < 128 := by
      intro c hc
      obtain ⟨v, -, hv⟩ := exists_of_forall₂ hvals.flip hc
      exact toNat_lt_of_sextet hv
    have hlt : ∀ i, vals.getD i 0 < 64 := by
      intro i
      rcases Nat.lt_or_ge i vals.length with hi | hi
      · rw [List.getD_eq_getElem _ _ hi]
        obtain ⟨c, -, hc⟩ := exists_of_forall₂ hvals (List.getElem_mem hi)
        exact (letter_of_sextet hc).1
      · rw [List.getD_eq_default _ _ hi]
        decide
    have hjs : jsLength text = text.toList.length := by
      unfold jsLength
      have hunits : (text.toList.map fun c => if c.toNat < 65536 then 1 else 2) =
          text.toList.map fun _ => 1 :=
        List.map_congr_left fun c hc => if_pos ((hascii c hc).trans (by decide))
      rw [hunits]
      simp
    have hbytes : text.utf8ByteSize = text.toList.length := by
      have hsize := utf8ByteSize_of_ascii hascii
      rwa [String.ofList_toList] at hsize
    have hany : text.toList.any (fun c => decide (128 ≤ c.toNat)) = false :=
      List.any_eq_false.mpr fun c hc => by
        rw [decide_eq_true_iff]
        exact Nat.not_le.mpr (hascii c hc)
    rw [hjs, hbytes, hany]
    by_cases hlen : text.toList.length = 240
    · rw [if_neg (by simp [hlen]), if_neg (by simp [hlen]), Option.map_some, Option.map_some,
        Option.map_some, Option.some_inj]
      have hbyte : bytesOf ⟨Finset.univ.filter fun i : Fin 1440 =>
          (byteAt vals (i.val / 8)).testBit (i.val % 8)⟩ = (List.range 180).map (byteAt vals) := by
        refine List.map_congr_left fun j hj => byteOf_of_bits (fun i => ?_) (List.mem_range.mp hj)
        simp
      rw [hbyte, ← triples_range (byteAt vals) 60]
      refine List.flatMap_congr fun q _ => ?_
      have hoctet : ∀ n k, n >>> k &&& 255 = n / 2 ^ k % 256 := fun n k => shiftRight_and_ones n k 8
      have hlast : ∀ n, n &&& 255 = n / 2 ^ 0 % 256 := fun n => by
        rw [pow_zero, Nat.div_one]
        exact and_ones n 8
      have hread : ∀ r < 3, byteAt vals (3 * q + r) =
          (vals.getD (4 * q) 0 * 2 ^ 18 + vals.getD (4 * q + 1) 0 * 2 ^ 12 +
            vals.getD (4 * q + 2) 0 * 2 ^ 6 + vals.getD (4 * q + 3) 0) / 2 ^ (16 - 8 * r) % 256 :=
        fun r hr => byteAt_eq vals hr
      have hfirst := hread 0 (by decide)
      rw [Nat.add_zero] at hfirst
      dsimp only
      rw [or_sextets (hlt _) (hlt _) (hlt _), hoctet, hoctet, hlast, hfirst, hread 1 (by decide),
        hread 2 (by decide)]
    · rw [if_pos hlen, if_pos (.inl hlen)]
      rfl

theorem bytesOf_empty : bytesOf empty = emptyMinutes := by decide +kernel

/-- **A union is that of the sets.** -/
theorem unionMinutes_bytesOf (s t : MinuteSet) :
    unionMinutes (bytesOf s) (bytesOf t) = bytesOf (s.union t) := by
  refine List.map_congr_left fun i hi => ?_
  have hi := List.mem_range.mp hi
  rw [getD_bytesOf hi, getD_bytesOf hi]
  refine Nat.eq_of_testBit_eq fun k => ?_
  rw [Nat.testBit_or]
  rcases Nat.lt_or_ge k 8 with hk | hk
  · rw [testBit_byteOf _ _ hk, testBit_byteOf _ _ hk, testBit_byteOf _ _ hk]
    unfold contains
    split
    · simp [union]
    · rfl
  · have hhigh : ∀ u : MinuteSet, (u.byteOf i).testBit k = false := fun u =>
      Nat.testBit_lt_two_pow ((u.byteOf_lt i).trans_le (Nat.pow_le_pow_right (n := 2) (by decide) hk))
    rw [hhigh, hhigh, hhigh]
    rfl

/-- The bytes have the minutes of the set. -/
theorem hasMinute_bytesOf (s : MinuteSet) (minute : Nat) :
    hasMinute (bytesOf s) minute = s.contains minute := by
  unfold hasMinute
  by_cases hm : minute < 1440
  · have hbyte : minute >>> 3 = minute / 8 := Nat.shiftRight_eq_div_pow minute 3
    have hbit : minute &&& 7 = minute % 8 := and_ones minute 3
    rw [decide_eq_true hm, Bool.true_and, hbyte, hbit, getD_bytesOf (by omega), Nat.one_shiftLeft,
      Nat.and_two_pow, testBit_byteOf s _ (Nat.mod_lt _ (by decide)), Nat.div_add_mod]
    cases s.contains minute with
    | false => simp
    | true => simp
  · rw [decide_eq_false hm, Bool.false_and, contains, dif_neg hm]

end JsMinutes
end Kintrinsic
