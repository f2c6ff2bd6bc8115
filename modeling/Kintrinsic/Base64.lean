import Kintrinsic.SextetGroups

/-! # Base 64, with its padding

Three bytes to four characters of the standard alphabet, and what is left of the bytes padded to
four.  A text is read only if it is written so: the padding is there, and no bit is set past the
last byte. -/
namespace Base64

open SextetGroups (octet sextetAt ofSextets)

/-! ## The alphabet -/

def alphabet : List Char :=
  "ABCDEFGHIJKLMNOPQRSTUVWXYZabcdefghijklmnopqrstuvwxyz0123456789+/".toList

def digit (v : Nat) : Char := alphabet.getD v 'A'

def value (c : Char) : Option Nat := alphabet.idxOf? c

/-- What a short group is filled up with. -/
def padding : Char := '='

theorem digit_spec {v : Nat} (h : v < 64) :
    value (digit v) = some v ∧ digit v ≠ padding ∧ digit v ∈ alphabet := by
  interval_cases v <;> decide

/-! ## Writing -/

/-- Three bytes as one number. -/
def whole (a b c : UInt8) : Nat := a.toNat * 2 ^ 16 + b.toNat * 2 ^ 8 + c.toNat

/-- The character of a sextet of the number. -/
def charAt (n r : Nat) : Char := digit (sextetAt n r)

def encode : List UInt8 → List Char
  | a :: b :: c :: rest =>
    let n := whole a b c
    charAt n 0 :: charAt n 1 :: charAt n 2 :: charAt n 3 :: encode rest
  | [a, b] =>
    let n := whole a b 0
    [charAt n 0, charAt n 1, charAt n 2, padding]
  | [a] =>
    let n := whole a 0 0
    [charAt n 0, charAt n 1, padding, padding]
  | [] => []

/-! ## Reading -/

/-- A byte of the number. -/
def byteAt (n r : Nat) : UInt8 := UInt8.ofNat (octet n r)

/-- The number of four characters. -/
def number (a b c d : Char) : Option Nat := do
  let va ← value a
  let vb ← value b
  let vc ← value c
  let vd ← value d
  some (va * 2 ^ 18 + vb * 2 ^ 12 + vc * 2 ^ 6 + vd)

def decodeGroup (a b c d : Char) : Option (List UInt8) :=
  (number a b c d).map fun n => [byteAt n 0, byteAt n 1, byteAt n 2]

/-- The last group may be padded; a bit past its last byte is refused. -/
def decodeLast (a b c d : Char) : Option (List UInt8) :=
  if d = padding then
    if c = padding then
      (number a b 'A' 'A').bind fun n => if n % 2 ^ 16 = 0 then some [byteAt n 0] else none
    else
      (number a b c 'A').bind fun n =>
        if n % 2 ^ 8 = 0 then some [byteAt n 0, byteAt n 1] else none
  else decodeGroup a b c d

def decode : List Char → Option (List UInt8)
  | [] => some []
  | a :: b :: c :: d :: rest =>
    if rest = [] then decodeLast a b c d
    else do
      let bytes ← decodeGroup a b c d
      some (bytes ++ (← decode rest))
  | _ => none

/-! ## What was written is read -/

theorem charAt_spec (n r : Nat) :
    value (charAt n r) = some (sextetAt n r) ∧ charAt n r ≠ padding ∧ charAt n r ∈ alphabet :=
  digit_spec (SextetGroups.sextetAt_lt n r)

theorem value_zero : value 'A' = some 0 := by decide

theorem whole_lt (a b c : UInt8) : whole a b c < 2 ^ 24 := by
  have ha := a.toNat_lt
  have hb := b.toNat_lt
  have hc := c.toNat_lt
  unfold whole
  omega

/-- A number is read from the characters of its sextets. -/
theorem number_charAt {n : Nat} (h : n < 2 ^ 24) :
    number (charAt n 0) (charAt n 1) (charAt n 2) (charAt n 3) = some n := by
  unfold number
  rw [(charAt_spec n 0).1, (charAt_spec n 1).1, (charAt_spec n 2).1, (charAt_spec n 3).1]
  exact congrArg some (SextetGroups.ofSextets_sextetAt h)

/-- A sextet that is nought may be left out. -/
theorem number_padded {n : Nat} (h : n < 2 ^ 24) (c d : Char) (hc : value c = some (sextetAt n 2))
    (hd : value d = some (sextetAt n 3)) : number (charAt n 0) (charAt n 1) c d = some n := by
  unfold number
  rw [(charAt_spec n 0).1, (charAt_spec n 1).1, hc, hd]
  exact congrArg some (SextetGroups.ofSextets_sextetAt h)

theorem byteAt_whole (a b c : UInt8) :
    byteAt (whole a b c) 0 = a ∧ byteAt (whole a b c) 1 = b ∧ byteAt (whole a b c) 2 = c := by
  have ha := a.toNat_lt
  have hb := b.toNat_lt
  have hc := c.toNat_lt
  have h0 : octet (whole a b c) 0 = a.toNat := by
    simp only [octet, whole]
    omega
  have h1 : octet (whole a b c) 1 = b.toNat := by
    simp only [octet, whole]
    omega
  have h2 : octet (whole a b c) 2 = c.toNat := by
    simp only [octet, whole]
    omega
  unfold byteAt
  rw [h0, h1, h2]
  exact ⟨UInt8.ofNat_toNat, UInt8.ofNat_toNat, UInt8.ofNat_toNat⟩

theorem decodeGroup_whole (a b c : UInt8) :
    decodeGroup (charAt (whole a b c) 0) (charAt (whole a b c) 1) (charAt (whole a b c) 2)
      (charAt (whole a b c) 3) = some [a, b, c] := by
  obtain ⟨h0, h1, h2⟩ := byteAt_whole a b c
  unfold decodeGroup
  rw [number_charAt (whole_lt a b c), Option.map_some, h0, h1, h2]

theorem decodeLast_two (a b : UInt8) :
    decodeLast (charAt (whole a b 0) 0) (charAt (whole a b 0) 1) (charAt (whole a b 0) 2)
      padding = some [a, b] := by
  have hlast : sextetAt (whole a b 0) 3 = 0 := by
    simp only [sextetAt, whole, UInt8.toNat_zero]
    omega
  have hnumber : number (charAt (whole a b 0) 0) (charAt (whole a b 0) 1) (charAt (whole a b 0) 2)
      'A' = some (whole a b 0) := by
    refine number_padded (whole_lt a b 0) _ _ (charAt_spec _ 2).1 ?_
    rw [hlast, value_zero]
  have hrest : whole a b 0 % 2 ^ 8 = 0 := by
    simp only [whole, UInt8.toNat_zero]
    omega
  obtain ⟨h0, h1, -⟩ := byteAt_whole a b 0
  unfold decodeLast
  rw [if_pos rfl, if_neg (charAt_spec _ 2).2.1, hnumber, Option.bind_some, if_pos hrest, h0, h1]

theorem decodeLast_one (a : UInt8) :
    decodeLast (charAt (whole a 0 0) 0) (charAt (whole a 0 0) 1) padding padding = some [a] := by
  have hthird : sextetAt (whole a 0 0) 2 = 0 := by
    simp only [sextetAt, whole, UInt8.toNat_zero]
    omega
  have hlast : sextetAt (whole a 0 0) 3 = 0 := by
    simp only [sextetAt, whole, UInt8.toNat_zero]
    omega
  have hnumber : number (charAt (whole a 0 0) 0) (charAt (whole a 0 0) 1) 'A' 'A' =
      some (whole a 0 0) := by
    refine number_padded (whole_lt a 0 0) _ _ ?_ ?_
    · rw [hthird, value_zero]
    · rw [hlast, value_zero]
  have hrest : whole a 0 0 % 2 ^ 16 = 0 := by
    simp only [whole, UInt8.toNat_zero]
    omega
  unfold decodeLast
  rw [if_pos rfl, if_pos rfl, hnumber, Option.bind_some, if_pos hrest, (byteAt_whole a 0 0).1]

/-- **Bytes are read from what they are written as.** -/
theorem decode_encode (bytes : List UInt8) : decode (encode bytes) = some bytes := by
  induction bytes using encode.induct with
  | case1 a b c rest ih =>
    rw [encode, decode]
    by_cases hnil : encode rest = []
    · rw [hnil] at ih
      obtain rfl : [] = rest := Option.some.inj ih
      rw [if_pos hnil, decodeLast, if_neg (charAt_spec _ 3).2.1]
      exact decodeGroup_whole a b c
    · rw [if_neg hnil, decodeGroup_whole, ih]
      rfl
  | case2 a b =>
    rw [encode, decode, if_pos rfl]
    exact decodeLast_two a b
  | case3 a =>
    rw [encode, decode, if_pos rfl]
    exact decodeLast_one a
  | case4 => rfl

/-- Four characters for every three bytes begun. -/
theorem length_encode (bytes : List UInt8) :
    (encode bytes).length = 4 * ((bytes.length + 2) / 3) := by
  induction bytes using encode.induct with
  | case1 a b c rest ih =>
    rw [encode]
    simp only [List.length_cons, ih]
    omega
  | case2 a b =>
    simp [encode]
  | case3 a =>
    simp [encode]
  | case4 => rfl

/-- What is written is of the alphabet, or padding. -/
theorem mem_encode (bytes : List UInt8) : ∀ c ∈ encode bytes, c ∈ alphabet ∨ c = padding := by
  induction bytes using encode.induct with
  | case1 a b c rest ih =>
    intro ch hch
    rw [encode] at hch
    simp only [List.mem_cons] at hch
    obtain rfl | rfl | rfl | rfl | hrest := hch
    · exact .inl (charAt_spec ..).2.2
    · exact .inl (charAt_spec ..).2.2
    · exact .inl (charAt_spec ..).2.2
    · exact .inl (charAt_spec ..).2.2
    · exact ih ch hrest
  | case2 a b =>
    intro ch hch
    rw [encode] at hch
    simp only [List.mem_cons, List.not_mem_nil, or_false] at hch
    obtain rfl | rfl | rfl | rfl := hch
    · exact .inl (charAt_spec ..).2.2
    · exact .inl (charAt_spec ..).2.2
    · exact .inl (charAt_spec ..).2.2
    · exact .inr rfl
  | case3 a =>
    intro ch hch
    rw [encode] at hch
    simp only [List.mem_cons, List.not_mem_nil, or_false] at hch
    obtain rfl | rfl | rfl | rfl := hch
    · exact .inl (charAt_spec ..).2.2
    · exact .inl (charAt_spec ..).2.2
    · exact .inr rfl
    · exact .inr rfl
  | case4 => exact fun ch hch => absurd hch List.not_mem_nil

end Base64
