import Kintrinsic.Base64
import Kintrinsic.FrameCodec
import Mathlib.Data.Nat.Log
import Mathlib.Data.List.GetD

/-! # NIP-44: one text under a shared key

A text of 1 to 65535 bytes is padded, put under a key stream, and sent with its nonce and a MAC in
base 64.  The hash functions and the cipher are parameters; the cipher adds its key stream byte by
byte. -/
namespace Kintrinsic

/-! ## Blocks -/

/-- An array of `n` bytes. -/
structure Block (n : Nat) where
  bytes : List UInt8
  size : bytes.length = n
deriving DecidableEq

/-- The first `n` bytes of enough. -/
def Block.front (n : Nat) (l : List UInt8) (h : n ≤ l.length) : Block n :=
  ⟨l.take n, List.length_take_of_le h⟩

theorem Block.front_append {n : Nat} (b : Block n) (rest : List UInt8)
    (h : n ≤ (b.bytes ++ rest).length) : Block.front n (b.bytes ++ rest) h = b := by
  obtain ⟨bytes, rfl⟩ := b
  unfold front
  congr 1
  exact List.take_left

/-- A number as `n` bytes, the highest first. -/
def Block.ofNat (n v : Nat) : Block n where
  bytes := (List.range n).map fun i => UInt8.ofNat (v / 256 ^ (n - 1 - i))
  size := by rw [List.length_map, List.length_range]

/-- The bytes of a text. -/
def utf8Bytes (s : String) : List UInt8 := s.toByteArray.data.toList

theorem length_utf8Bytes (s : String) : (utf8Bytes s).length = s.utf8ByteSize := rfl

/-- `String::from_utf8`. -/
def fromUtf8 (bytes : List UInt8) : Option String := String.fromUTF8? ⟨bytes.toArray⟩

theorem fromUtf8_utf8Bytes (s : String) : fromUtf8 (utf8Bytes s) = some s := by
  have hbytes : (⟨(utf8Bytes s).toArray⟩ : ByteArray) = s.toByteArray := rfl
  unfold fromUtf8 String.fromUTF8?
  rw [hbytes, dif_pos s.isValidUTF8]
  rfl

namespace Nip44

/-! ## The format -/

inductive Nip44Error
  | notBase64
  | badVersion
  | badLength
  | badMac
  | badPadding
  | badUtf8
  | badKey
deriving DecidableEq

/-- HKDF and HMAC over SHA-256, and the key stream of ChaCha20. -/
structure Primitives where
  extract : List UInt8 → Block 32 → Block 32
  expand : Block 32 → Block 32 → Block 76
  keystream : Block 32 → Block 12 → Nat → UInt8
  hmac : Block 32 → List UInt8 → Block 32

def version : UInt8 := 2
def minPlaintext : Nat := 1
def maxPlaintext : Nat := 65535

/-- What a message is ciphered and authenticated with. -/
structure MessageKeys where
  chachaKey : Block 32
  chachaNonce : Block 12
  hmacKey : Block 32

def messageKeys (p : Primitives) (conversationKey nonce : Block 32) : MessageKeys :=
  let okm := p.expand conversationKey nonce
  have hokm := okm.size
  ⟨.front 32 okm.bytes (by omega), .front 12 (okm.bytes.drop 32) (by rw [List.length_drop]; omega),
    .front 32 (okm.bytes.drop 44) (by rw [List.length_drop]; omega)⟩

/-- `calc_padded_len`: the next power of two is one past the highest bit of the length less one. -/
def calcPaddedLen (unpadded : Nat) : Nat :=
  if unpadded ≤ 32 then 32
  else
    let nextPower := 2 ^ (Nat.log2 (unpadded - 1) + 1)
    let chunk := if nextPower ≤ 256 then 32 else nextPower / 8
    chunk * ((unpadded - 1) / chunk + 1)

/-- `Vec::resize`, with noughts. -/
def resize (l : List UInt8) (n : Nat) : List UInt8 :=
  l.take n ++ List.replicate (n - l.length) 0

/-- The length of the data as a `u16`, the data, and noughts. -/
def pad (data : List UInt8) : List UInt8 :=
  let unpadded := data.length % 2 ^ 16
  resize (UInt8.ofNat (unpadded / 256) :: UInt8.ofNat (unpadded % 256) :: data)
    (2 + calcPaddedLen data.length)

def applyKeystream (p : Primitives) (keys : MessageKeys) (buf : List UInt8) : List UInt8 :=
  buf.mapIdx fun i b => b ^^^ p.keystream keys.chachaKey keys.chachaNonce i

def mac (p : Primitives) (keys : MessageKeys) (nonce : Block 32) (ciphertext : List UInt8) :
    Block 32 :=
  p.hmac keys.hmacKey (nonce.bytes ++ ciphertext)

def encrypt (p : Primitives) (plaintext : String) (conversationKey nonce : Block 32) :
    Except Nip44Error String :=
  let bytes := utf8Bytes plaintext
  if bytes.length < minPlaintext ∨ maxPlaintext < bytes.length then .error .badLength
  else
    let keys := messageKeys p conversationKey nonce
    let buf := applyKeystream p keys (pad bytes)
    .ok <| String.ofList <| Base64.encode <|
      version :: nonce.bytes ++ buf ++ (mac p keys nonce buf).bytes

/-- `constant_time_eq`. -/
def constantTimeEq (a b : List UInt8) : Bool :=
  if a.length ≠ b.length then false
  else (a.zip b).foldl (fun diff xy => diff ||| xy.1 ^^^ xy.2) 0 == 0

/-- What is left of `decrypt` once the key stream is off: the length prefix and the padding. -/
def unpad (buf : List UInt8) : Except Nip44Error String :=
  if buf.length < 2 then .error .badPadding
  else
    let unpaddedLen := (buf.getD 0 0).toNat * 256 + (buf.getD 1 0).toNat
    if unpaddedLen < minPlaintext ∨ buf.length - 2 < unpaddedLen ∨
        buf.length ≠ 2 + calcPaddedLen unpaddedLen then .error .badPadding
    else (fromUtf8 ((buf.drop 2).take unpaddedLen)).elim (.error .badUtf8) .ok

/-- The payload, out of base 64. -/
def openRaw (p : Primitives) (raw : List UInt8) (conversationKey : Block 32) :
    Except Nip44Error String :=
  if h : raw.length < 99 ∨ 65603 < raw.length then .error .badLength
  else if raw.head? ≠ some version then .error .badVersion
  else
    let nonce := Block.front 32 (raw.drop 1) (by rw [List.length_drop]; omega)
    let ctEnd := raw.length - 32
    let ciphertext := (raw.take ctEnd).drop 33
    let keys := messageKeys p conversationKey nonce
    if constantTimeEq (mac p keys nonce ciphertext).bytes (raw.drop ctEnd) = false then
      .error .badMac
    else unpad (applyKeystream p keys ciphertext)

def decrypt (p : Primitives) (payload : String) (conversationKey : Block 32) :
    Except Nip44Error String :=
  if payload.toList.head? = some '#' then .error .badVersion
  else
    (Base64.decode payload.toList).elim (.error .notBase64) fun raw =>
      openRaw p raw conversationKey

/-! ## How far a text is padded -/

/-- **The padded length** holds what is padded, and a power of two holds both. -/
theorem calcPaddedLen_spec {n k : Nat} (hk : 5 ≤ k) (h : n ≤ 2 ^ k) :
    n ≤ calcPaddedLen n ∧ 32 ≤ calcPaddedLen n ∧ calcPaddedLen n ≤ 2 ^ k := by
  have h32 : 2 ^ 5 ≤ 2 ^ k := Nat.pow_le_pow_right (by decide) hk
  unfold calcPaddedLen
  by_cases hsmall : n ≤ 32
  · rw [if_pos hsmall]
    exact ⟨hsmall, le_rfl, h32⟩
  rw [if_neg hsmall]
  dsimp only
  generalize hx : n - 1 = x
  generalize hchunk : (if 2 ^ (Nat.log2 x + 1) ≤ 256 then 32 else 2 ^ (Nat.log2 x + 1) / 8) = chunk
  have hlog : 5 ≤ Nat.log2 x := (Nat.le_log2 (by omega)).mpr (by omega)
  have hpower : x < 2 ^ (Nat.log2 x + 1) := Nat.lt_log2_self
  have hle : 2 ^ (Nat.log2 x + 1) ≤ 2 ^ k := by
    refine Nat.pow_le_pow_right (by decide) (Nat.succ_le_of_lt ?_)
    exact (Nat.log2_lt (by omega)).mpr (by omega)
  -- the chunk divides the power
  have hdvd : chunk ∣ 2 ^ (Nat.log2 x + 1) := by
    rw [← hchunk]
    split
    · exact pow_dvd_pow 2 (m := 5) (by omega)
    · exact Nat.div_dvd_of_dvd (pow_dvd_pow 2 (m := 3) (by omega))
  have hpos : 0 < chunk := Nat.pos_of_dvd_of_pos hdvd (by positivity)
  have hlt : x < chunk * (x / chunk + 1) := Nat.lt_mul_div_succ x hpos
  have hfits : chunk * (x / chunk + 1) ≤ 2 ^ (Nat.log2 x + 1) := by
    obtain ⟨q, hq⟩ := hdvd
    rw [hq] at hpower ⊢
    exact Nat.mul_le_mul_left chunk (Nat.div_lt_of_lt_mul hpower)
  omega

theorem calcPaddedLen_bounds {n : Nat} (h : n ≤ maxPlaintext) :
    n ≤ calcPaddedLen n ∧ 32 ≤ calcPaddedLen n ∧ calcPaddedLen n ≤ 65536 :=
  calcPaddedLen_spec (k := 16) (by decide) (h.trans (by decide))

/-- Past the power of two that is half the largest, an eighth of the largest is added at a time. -/
theorem calcPaddedLen_large {n : Nat} (hmin : 32768 < n) (hmax : n ≤ maxPlaintext) :
    calcPaddedLen n = 8192 * ((n - 1) / 8192 + 1) := by
  have hcap : maxPlaintext = 65535 := rfl
  have hlog : Nat.log2 (n - 1) = 15 := by
    rw [Nat.log2_eq_iff (by omega)]
    omega
  unfold calcPaddedLen
  rw [if_neg (by omega), hlog]
  rfl

/-! ## What was encrypted is decrypted -/

theorem length_pad {data : List UInt8} (h : data.length ≤ maxPlaintext) :
    (pad data).length = 2 + calcPaddedLen data.length := by
  have hle := (calcPaddedLen_bounds h).1
  unfold pad resize
  rw [List.length_append, List.length_take, List.length_replicate, List.length_cons,
    List.length_cons]
  omega

/-- The padding is behind the length and the data. -/
theorem pad_eq {data : List UInt8} (h : data.length ≤ maxPlaintext) :
    ∃ noughts, pad data =
      UInt8.ofNat (data.length / 256) :: UInt8.ofNat (data.length % 256) :: data ++ noughts := by
  have hle := (calcPaddedLen_bounds h).1
  have hlen : data.length % 2 ^ 16 = data.length :=
    Nat.mod_eq_of_lt (h.trans_lt (by decide))
  unfold pad resize
  dsimp only
  rw [hlen, List.take_of_length_le (by rw [List.length_cons, List.length_cons]; omega)]
  exact ⟨_, rfl⟩

@[simp] theorem length_applyKeystream (p : Primitives) (keys : MessageKeys) (buf : List UInt8) :
    (applyKeystream p keys buf).length = buf.length := List.length_mapIdx

/-- **The cipher is its own inverse.** -/
theorem applyKeystream_applyKeystream (p : Primitives) (keys : MessageKeys) (buf : List UInt8) :
    applyKeystream p keys (applyKeystream p keys buf) = buf := by
  unfold applyKeystream
  rw [List.mapIdx_mapIdx]
  refine List.ext_getElem (List.length_mapIdx ..) fun i hi hi' => ?_
  rw [List.getElem_mapIdx]
  show buf[i] ^^^ _ ^^^ _ = buf[i]
  rw [UInt8.xor_assoc, UInt8.xor_self, UInt8.xor_zero]

/-- A buffer compares equal to itself. -/
theorem constantTimeEq_refl (a : List UInt8) : constantTimeEq a a = true := by
  have hfold : ∀ l : List UInt8,
      (l.zip l).foldl (fun diff xy => diff ||| xy.1 ^^^ xy.2) (0 : UInt8) = 0 := by
    intro l
    induction l with
    | nil => rfl
    | cons x l ih =>
      rw [List.zip_cons_cons, List.foldl_cons, UInt8.xor_self, UInt8.or_zero]
      exact ih
  unfold constantTimeEq
  rw [if_neg (not_not.mpr rfl), hfold]
  rfl

/-- The length is read from its two bytes. -/
theorem readLength {n : Nat} (h : n ≤ maxPlaintext) :
    (UInt8.ofNat (n / 256)).toNat * 256 + (UInt8.ofNat (n % 256)).toNat = n := by
  have hmax : maxPlaintext = 65535 := rfl
  have hhigh : (UInt8.ofNat (n / 256)).toNat = n / 256 := by
    rw [UInt8.toNat_ofNat']
    exact Nat.mod_eq_of_lt (by omega)
  have hlow : (UInt8.ofNat (n % 256)).toNat = n % 256 := by
    rw [UInt8.toNat_ofNat']
    exact Nat.mod_eq_of_lt (Nat.mod_lt n (by decide))
  omega

theorem unpad_pad {text : String} (hmin : minPlaintext ≤ (utf8Bytes text).length)
    (hmax : (utf8Bytes text).length ≤ maxPlaintext) : unpad (pad (utf8Bytes text)) = .ok text := by
  have hlen := length_pad hmax
  have hle := (calcPaddedLen_bounds hmax).1
  obtain ⟨noughts, hpad⟩ := pad_eq hmax
  have hread : ((pad (utf8Bytes text)).getD 0 0).toNat * 256 +
      ((pad (utf8Bytes text)).getD 1 0).toNat = (utf8Bytes text).length := by
    rw [hpad]
    exact readLength hmax
  have hdata : ((pad (utf8Bytes text)).drop 2).take (utf8Bytes text).length = utf8Bytes text := by
    rw [hpad]
    exact List.take_left
  unfold unpad
  rw [if_neg (by omega)]
  dsimp only
  rw [hread, if_neg (by omega), hdata, fromUtf8_utf8Bytes]
  rfl

/-- **A payload is opened** that was put together under the same keys. -/
theorem openRaw_of_eq (p : Primitives) (ck nonce : Block 32) {buf : List UInt8}
    (hmin : 34 ≤ buf.length) (hmax : buf.length ≤ 65538) :
    openRaw p (version :: nonce.bytes ++ buf ++ (mac p (messageKeys p ck nonce) nonce buf).bytes)
      ck = unpad (applyKeystream p (messageKeys p ck nonce) buf) := by
  have hnonce := nonce.size
  have hmac := (mac p (messageKeys p ck nonce) nonce buf).size
  generalize htag : (mac p (messageKeys p ck nonce) nonce buf).bytes = tag at hmac ⊢
  have hlen : (version :: nonce.bytes ++ buf ++ tag).length = 65 + buf.length := by
    rw [List.length_append, List.length_append, List.length_cons]
    omega
  have hfront : ∀ h, Block.front 32 ((version :: nonce.bytes ++ buf ++ tag).drop 1) h = nonce := by
    rw [List.cons_append, List.cons_append, List.drop_succ_cons, List.drop_zero, List.append_assoc]
    exact nonce.front_append (buf ++ tag)
  have hsplit : (version :: nonce.bytes ++ buf).length = 33 + buf.length := by
    rw [List.length_append, List.length_cons]
    omega
  have hciphertext : ((version :: nonce.bytes ++ buf ++ tag).take (33 + buf.length)).drop 33 =
      buf := by
    rw [← hsplit, List.take_left]
    exact List.drop_left' (by rw [List.length_cons, hnonce])
  have hclaimed : (version :: nonce.bytes ++ buf ++ tag).drop (33 + buf.length) = tag := by
    rw [← hsplit]
    exact List.drop_left
  have hversion : (version :: nonce.bytes ++ buf ++ tag).head? = some version := rfl
  have hend : (version :: nonce.bytes ++ buf ++ tag).length - 32 = 33 + buf.length := by omega
  unfold openRaw
  rw [dif_neg (by omega), if_neg (not_not.mpr hversion)]
  dsimp only
  rw [hfront, hend, hciphertext, hclaimed, htag, constantTimeEq_refl, if_neg Bool.noConfusion]

/-- **Decryption undoes encryption**, for every text that may be encrypted. -/
theorem decrypt_encrypt (p : Primitives) {text : String} (ck nonce : Block 32)
    (hmin : minPlaintext ≤ text.utf8ByteSize) (hmax : text.utf8ByteSize ≤ maxPlaintext) :
    ∃ raw, encrypt p text ck nonce = .ok (String.ofList (Base64.encode raw)) ∧
      raw.length = 1 + 32 + (2 + calcPaddedLen text.utf8ByteSize) + 32 ∧
      decrypt p (String.ofList (Base64.encode raw)) ck = .ok text := by
  rw [← length_utf8Bytes] at hmin hmax ⊢
  obtain ⟨-, hfloor, hcap⟩ := calcPaddedLen_bounds hmax
  have hlen := length_pad hmax
  have hnonce := nonce.size
  refine ⟨_, if_neg (by omega), ?_⟩
  generalize hbuf : applyKeystream p (messageKeys p ck nonce) (pad (utf8Bytes text)) = buf
  have hbufLen : buf.length = 2 + calcPaddedLen (utf8Bytes text).length := by
    rw [← hbuf, length_applyKeystream, hlen]
  have hmac := (mac p (messageKeys p ck nonce) nonce buf).size
  constructor
  · rw [List.length_append, List.length_append, List.length_cons]
    omega
  unfold decrypt
  rw [String.toList_ofList, if_neg, Base64.decode_encode]
  · show openRaw p _ ck = _
    rw [openRaw_of_eq p ck nonce (by omega) (by omega), ← hbuf, applyKeystream_applyKeystream]
    exact unpad_pad hmin hmax
  · intro hhash
    rcases Base64.mem_encode _ _ (List.mem_of_mem_head? hhash) with hmem | hpadding
    · exact absurd hmem (by decide)
    · exact absurd hpadding (by decide)

theorem encrypt_eq_error {p : Primitives} {text : String} {ck nonce : Block 32}
    (h : text.utf8ByteSize < minPlaintext ∨ maxPlaintext < text.utf8ByteSize) :
    encrypt p text ck nonce = .error .badLength := if_pos h

end Nip44

end Kintrinsic
