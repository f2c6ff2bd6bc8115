import Kintrinsic.Nip44
import Kintrinsic.JsonText

/-! # NIP-59: a rumor in a seal in a wrap

A rumor is sealed to its recipient under the author's key, and the seal is wrapped under a key made
for the one wrap.  What is opened is checked layer by layer: the wrap's kind, its stamp and its
signature, the seal's kind and its signature, and last that the rumor is its signer's. -/
namespace Kintrinsic

def Kinds.seal : Nat := 13

namespace Nip59

open Nip44

/-! ## The three events -/

/-- The innermost event: a signed one keeps its id and signature, another has neither. -/
structure Rumor where
  id : Option EventId
  pubkey : PubKey
  createdAt : UInt64
  kind : UInt16
  tags : List (List String)
  content : String
  sig : Option Sig
deriving DecidableEq

def tagsJson (tags : List (List String)) : Json := .arr (tags.map fun t => .arr (t.map Json.str))

/-- The fields of an event in the order they are declared. -/
def eventJson (e : NostrEvent) : Json :=
  .obj [("id", .str (hex32 e.id.bytes)), ("pubkey", .str e.pubkey.toHex),
    ("created_at", .int e.createdAt), ("kind", .int e.kind), ("tags", tagsJson e.tags),
    ("content", .str e.content), ("sig", .str e.sig.toHex)]

namespace Rumor

def fields (r : Rumor) : List (String × Json) :=
  (r.id.map fun id => ("id", .str (hex32 id.bytes))).toList ++
    ([("pubkey", .str r.pubkey.toHex), ("created_at", .int r.createdAt.toNat),
      ("kind", .int r.kind.toNat), ("tags", tagsJson r.tags), ("content", .str r.content)] ++
    (r.sig.map fun sig => ("sig", .str sig.toHex)).toList)

/-- An id or a signature that is not there is not written. -/
def toJson (r : Rumor) : Json := .obj r.fields

def ofValues (id : Option Json) (pubkey createdAt kind tags content : Json) (sig : Option Json) :
    Option Rumor := do
  let id ← Json.optional (fun v => do unhex32 (← v.asString)) id
  let pubkey ← unhex32 (← pubkey.asString)
  let createdAt ← createdAt.asU64
  let kind ← kind.asU16
  let tags ← tagsOfJson tags
  let content ← content.asString
  let sig ← Json.optional (fun v => do Sig.fromHex (← v.asString)) sig
  some ⟨id.map EventId.mk, ⟨pubkey⟩, UInt64.ofNat createdAt, UInt16.ofNat kind, tags, content, sig⟩

/-- What serde reads a rumor from: an object, or its fields in order. -/
def ofJson : Json → Option Rumor
  | .obj fields => do
    let pubkey ← fields.lookup "pubkey"
    let createdAt ← fields.lookup "created_at"
    let kind ← fields.lookup "kind"
    let tags ← fields.lookup "tags"
    let content ← fields.lookup "content"
    ofValues (fields.lookup "id") pubkey createdAt kind tags content (fields.lookup "sig")
  | .arr [id, pubkey, createdAt, kind, tags, content] =>
    ofValues id pubkey createdAt kind tags content none
  | .arr [id, pubkey, createdAt, kind, tags, content, sig] =>
    ofValues id pubkey createdAt kind tags content sig
  | _ => none

end Rumor

/-- The NIP-01 serialization that an event's id is the hash of. -/
def canonicalEventString (e : NostrEvent) : String :=
  (Json.arr [.int 0, .str e.pubkey.toHex, .int e.createdAt, .int e.kind, tagsJson e.tags,
    .str e.content]).text

inductive Nip59Error
  | wrongWrapKind
  | wrongSealKind
  | badWrapSignature
  | badSealSignature
  | authorMismatch
  | jitterTooLarge
  | decrypt (e : Nip44Error)
  | json
  | badKey
deriving DecidableEq

/-! ## Keys -/

/-- `charter_crypto`, and what NIP-44 is built on. -/
structure Backend where
  nip44 : Primitives
  sha256 : String → EventId
  xonlyPubkey : Block 32 → Option PubKey
  ecdhX : Block 32 → PubKey → Option (Block 32)
  schnorrSign : Block 32 → EventId → Option Sig
  schnorrVerify : PubKey → EventId → Sig → Bool

namespace Backend
variable (b : Backend)

def conversationKey (secret : Block 32) (pubkey : PubKey) : Except Nip59Error (Block 32) :=
  (b.ecdhX secret pubkey).elim (.error (.decrypt .badKey)) fun x =>
    .ok (b.nip44.extract (utf8Bytes "nip44-v2") x)

/-- `sign_event_raw`: the id is that of the event before it has one. -/
def signEventRaw (secret : Block 32) (kind : Nat) (createdAt : UInt64) (tags : List (List String))
    (content : String) : Except Nip59Error NostrEvent :=
  (b.xonlyPubkey secret).elim (.error .badKey) fun pk =>
    let ev : NostrEvent := ⟨⟨0⟩, pk, createdAt.toNat, kind, tags, content, ⟨0⟩⟩
    let id := b.sha256 (canonicalEventString ev)
    (b.schnorrSign secret id).elim (.error .badKey) fun sig => .ok { ev with id := id, sig := sig }

def sigValid (ev : NostrEvent) : Bool :=
  let id := b.sha256 (canonicalEventString ev)
  if id ≠ ev.id then false else b.schnorrVerify ev.pubkey id ev.sig

/-- What a text is under the conversation key of two parties. -/
def encryptFor (text : String) (secret : Block 32) (pubkey : PubKey) (nonce : Block 32) :
    Except Nip59Error String := do
  let ck ← b.conversationKey secret pubkey
  (encrypt b.nip44 text ck nonce).mapError .decrypt

def decryptFrom (payload : String) (secret : Block 32) (pubkey : PubKey) :
    Except Nip59Error String := do
  let ck ← b.conversationKey secret pubkey
  (decrypt b.nip44 payload ck).mapError .decrypt

end Backend

/-! ## Wrapping -/

structure WrapRandomness where
  ephemeralSecret : Block 32
  sealNonce : Block 32
  wrapNonce : Block 32
  sealCreatedAt : UInt64
  wrapCreatedAt : UInt64

section
variable (b : Backend) (parse : String → Option Json)

/-- The seal: the rumor for the recipient, under the author's key. -/
def sealRumor (rumor : Rumor) (authorSk : Block 32) (recipientPk : PubKey) (r : WrapRandomness) :
    Except Nip59Error NostrEvent := do
  let content ← b.encryptFor rumor.toJson.text authorSk recipientPk r.sealNonce
  b.signEventRaw authorSk Kinds.seal r.sealCreatedAt [] content

/-- The wrap: the seal for the recipient, under the key of this one wrap. -/
def wrapSeal (sealed : NostrEvent) (recipientPk : PubKey) (r : WrapRandomness) :
    Except Nip59Error NostrEvent := do
  let content ← b.encryptFor (eventJson sealed).text r.ephemeralSecret recipientPk r.wrapNonce
  b.signEventRaw r.ephemeralSecret Kinds.giftWrap r.wrapCreatedAt [["p", recipientPk.toHex]] content

def wrap (rumor : Rumor) (authorSk : Block 32) (recipientPk : PubKey) (r : WrapRandomness) :
    Except Nip59Error NostrEvent := do
  let sealed ← sealRumor b rumor authorSk recipientPk r
  wrapSeal b sealed recipientPk r

/-! ## Unwrapping -/

/-- `u64::abs_diff`. -/
def absDiff (a c : Nat) : Nat := (a - c) + (c - a)

/-- The first half of `unwrap_with_author`: the seal out of a wrap. -/
def openWrap (wrap : NostrEvent) (recipientSk : Block 32) (now : UInt64) (maxJitterSecs : UInt64) :
    Except Nip59Error NostrEvent :=
  if wrap.kind ≠ Kinds.giftWrap then .error .wrongWrapKind
  else if maxJitterSecs.toNat < absDiff now.toNat wrap.createdAt then .error .jitterTooLarge
  else if b.sigValid wrap = false then .error .badWrapSignature
  else do
    let sealJson ← b.decryptFrom wrap.content recipientSk wrap.pubkey
    ((parse sealJson).bind NostrEvent.ofJson).elim (.error .json) .ok

/-- The rumor that a text is, if it is the signer's. -/
def readRumor (rumorJson : String) (signer : PubKey) : Except Nip59Error (Rumor × PubKey) :=
  ((parse rumorJson).bind Rumor.ofJson).elim (.error .json) fun rumor =>
    if rumor.pubkey ≠ signer then .error .authorMismatch else .ok (rumor, signer)

/-- The second half: the rumor out of the seal, and who sealed it. -/
def openSeal (sealed : NostrEvent) (recipientSk : Block 32) : Except Nip59Error (Rumor × PubKey) :=
  if sealed.kind ≠ Kinds.seal then .error .wrongSealKind
  else if b.sigValid sealed = false then .error .badSealSignature
  else do
    let rumorJson ← b.decryptFrom sealed.content recipientSk sealed.pubkey
    readRumor parse rumorJson sealed.pubkey

def unwrapWithAuthor (wrap : NostrEvent) (recipientSk : Block 32) (now : UInt64)
    (maxJitterSecs : UInt64) : Except Nip59Error (Rumor × PubKey) := do
  let sealed ← openWrap b parse wrap recipientSk now maxJitterSecs
  openSeal b parse sealed recipientSk

end

/-! ## What is written is read back -/

/-- **An event is read back from what it is written as**, in whichever order. -/
theorem ofJson_eventJson {e : NostrEvent} (hcreated : e.createdAt < 2 ^ 64)
    (hkind : e.kind < 2 ^ 16) : NostrEvent.ofJson (eventJson e) = some e := by
  have hpubkey : unhex32 e.pubkey.toHex = some e.pubkey.bytes := unhex32_hex32 e.pubkey.bytes
  have htags : tagsOfJson (tagsJson e.tags) = some e.tags := tagsOfJson_map e.tags
  unfold NostrEvent.ofJson eventJson
  simp only [List.lookup, String.reduceBEq, Option.bind_eq_bind, Option.bind_some,
    NostrEvent.ofValues, Json.asString_str, unhex32_hex32, hpubkey, Json.asU64_int hcreated,
    Json.asU16_int hkind, htags, Sig.fromHex_toHex]

theorem Rumor.ofJson_toJson (r : Rumor) : Rumor.ofJson r.toJson = some r := by
  obtain ⟨id, pubkey, createdAt, kind, tags, content, sig⟩ := r
  have hpubkey : unhex32 pubkey.toHex = some pubkey.bytes := unhex32_hex32 pubkey.bytes
  have htags : tagsOfJson (tagsJson tags) = some tags := tagsOfJson_map tags
  have hcreated := Json.asU64_int createdAt.toNat_lt
  have hkind := Json.asU16_int kind.toNat_lt
  unfold Rumor.ofJson Rumor.toJson Rumor.fields
  cases id <;> cases sig <;>
    simp [List.lookup, Rumor.ofValues, Json.optional, Json.nonNull, unhex32_hex32, hpubkey, htags,
      hcreated, hkind, Sig.fromHex_toHex]

/-! ## The layers -/

section
variable {b : Backend} {parse : String → Option Json}

/-- A secret that is a key: it has a public key, and what it signs verifies under that. -/
structure Backend.Signer (b : Backend) (secret : Block 32) (pk : PubKey) : Prop where
  xonly : b.xonlyPubkey secret = some pk
  signs : ∀ id, ∃ sig, b.schnorrSign secret id = some sig ∧ b.schnorrVerify pk id sig = true

/-- Two parties come to the same point, each by its secret and the other's public key. -/
def Backend.Share (b : Backend) (secret : Block 32) (pk : PubKey) (secret' : Block 32)
    (pk' : PubKey) : Prop :=
  ∃ x, b.ecdhX secret pk' = some x ∧ b.ecdhX secret' pk = some x

/-- `serde_json` parses what it printed of a value. -/
def ReadsBack (parse : String → Option Json) (v : Json) : Prop := parse v.text = some v

/-- A text that may be encrypted. -/
def Fits (text : String) : Prop := text.utf8ByteSize ≤ maxPlaintext

/-- The most bytes of a rumor whose seal may still be encrypted in its turn. -/
def maxRumor : Nat := 40960

/-- **A key signs** events that verify. -/
theorem Backend.Signer.signEventRaw {secret : Block 32} {pk : PubKey} (h : b.Signer secret pk)
    (kind : Nat) (createdAt : UInt64) (tags : List (List String)) (content : String) :
    ∃ ev, b.signEventRaw secret kind createdAt tags content = .ok ev ∧ b.sigValid ev = true ∧
      ev.pubkey = pk ∧ ev.kind = kind ∧ ev.createdAt = createdAt.toNat ∧ ev.tags = tags ∧
      ev.content = content := by
  obtain ⟨sig, hsign, hverify⟩ := h.signs (b.sha256 (canonicalEventString
    ⟨⟨0⟩, pk, createdAt.toNat, kind, tags, content, ⟨0⟩⟩))
  refine ⟨⟨b.sha256 (canonicalEventString
    ⟨⟨0⟩, pk, createdAt.toNat, kind, tags, content, ⟨0⟩⟩), pk, createdAt.toNat, kind, tags, content,
      sig⟩, ?_, ?_, rfl, rfl, rfl, rfl, rfl⟩
  · unfold Backend.signEventRaw
    rw [h.xonly]
    dsimp only [Option.elim_some]
    rw [hsign]
    rfl
  · exact (if_neg (not_not.mpr rfl)).trans hverify

/-- **What is encrypted for one party** that party decrypts. -/
theorem decryptFrom_encryptFor {secret secret' : Block 32} {pk pk' : PubKey}
    (h : b.Share secret pk secret' pk') (nonce : Block 32) {text : String} (hne : text ≠ "") :
    (Fits text → ∃ raw, b.encryptFor text secret pk' nonce = .ok (.ofList (Base64.encode raw)) ∧
      raw.length = 1 + 32 + (2 + calcPaddedLen text.utf8ByteSize) + 32 ∧
      b.decryptFrom (.ofList (Base64.encode raw)) secret' pk = .ok text) ∧
    (¬Fits text → b.encryptFor text secret pk' nonce = .error (.decrypt .badLength)) := by
  obtain ⟨x, hx, hx'⟩ := h
  have hck : b.conversationKey secret pk' = .ok (b.nip44.extract (utf8Bytes "nip44-v2") x) := by
    unfold Backend.conversationKey
    rw [hx]
    rfl
  have hck' : b.conversationKey secret' pk = .ok (b.nip44.extract (utf8Bytes "nip44-v2") x) := by
    unfold Backend.conversationKey
    rw [hx']
    rfl
  have hmin : minPlaintext ≤ text.utf8ByteSize :=
    Nat.one_le_iff_ne_zero.mpr fun hzero => hne (String.utf8ByteSize_eq_zero_iff.mp hzero)
  constructor
  · intro hfits
    obtain ⟨raw, hencrypt, hlen, hdecrypt⟩ := decrypt_encrypt b.nip44
      (b.nip44.extract (utf8Bytes "nip44-v2") x) nonce hmin hfits
    refine ⟨raw, ?_, hlen, ?_⟩
    · unfold Backend.encryptFor
      rw [hck]
      show (encrypt b.nip44 text _ nonce).mapError Nip59Error.decrypt = _
      rw [hencrypt]
      rfl
    · unfold Backend.decryptFrom
      rw [hck']
      show (decrypt b.nip44 (String.ofList (Base64.encode raw)) _).mapError Nip59Error.decrypt = _
      rw [hdecrypt]
      rfl
  · intro hlong
    unfold Backend.encryptFor
    rw [hck]
    show (encrypt b.nip44 text _ nonce).mapError Nip59Error.decrypt = _
    rw [encrypt_eq_error (.inr (Nat.lt_of_not_le hlong))]
    rfl

theorem text_obj_ne (fields : List (String × Json)) : (Json.obj fields).text ≠ "" := by
  intro hempty
  have hchars := congrArg String.toList hempty
  unfold Json.text at hchars
  rw [String.toList_ofList, Json.chars] at hchars
  exact absurd hchars (List.cons_ne_nil _ _)

end

/-! ## How large a seal is -/

theorem plain_encode (bytes : List UInt8) :
    ∀ c ∈ (String.ofList (Base64.encode bytes)).toList, Json.Plain c := by
  have hplain : (Base64.padding :: Base64.alphabet).all (fun c => decide (Json.Plain c)) = true := by
    decide
  rw [String.toList_ofList]
  intro c hc
  refine of_decide_eq_true (List.all_eq_true.mp hplain c ?_)
  rcases Base64.mem_encode bytes c hc with hmem | rfl
  · exact List.mem_cons_of_mem _ hmem
  · exact List.mem_cons_self

/-- What is written of a seal is its payload, and not much besides. -/
theorem width_eventJson {e : NostrEvent} {raw : List UInt8}
    (hcontent : e.content = .ofList (Base64.encode raw)) (hkind : e.kind = Kinds.seal)
    (htags : e.tags = []) (hcreated : e.createdAt < 2 ^ 64) :
    4 * ((raw.length + 2) / 3) ≤ (eventJson e).text.utf8ByteSize ∧
      (eventJson e).text.utf8ByteSize ≤ 4 * ((raw.length + 2) / 3) + 2000 := by
  have hpayload : Json.width (Json.quoted e.content) = 4 * ((raw.length + 2) / 3) + 2 := by
    rw [hcontent, Json.width_quoted_plain (plain_encode raw), String.toList_ofList,
      Base64.length_encode]
  have hid := (Json.width_quoted (hex32 e.id.bytes)).2
  have hpubkey := (Json.width_quoted e.pubkey.toHex).2
  have hsig := (Json.width_quoted e.sig.toHex).2
  have hstamp := (Json.width_bounds (toString (e.createdAt : Int)).toList).2
  have hdigits : (toString (e.createdAt : Int)).toList.length ≤ 20 := by
    show (Nat.repr e.createdAt).toList.length ≤ 20
    rw [String.length_toList]
    exact (Nat.length_repr_le_iff (by decide)).mpr (hcreated.trans (by decide))
  have hlenId : (hex32 e.id.bytes).toList.length = 64 := by
    unfold hex32
    rw [String.toList_ofList, Hex.length_digits]
  have hlenPubkey : e.pubkey.toHex.toList.length = 64 := by
    unfold PubKey.toHex
    rw [String.toList_ofList, Hex.length_digits]
  have hlenSig : e.sig.toHex.toList.length = 128 := by
    unfold Sig.toHex
    rw [String.toList_ofList, Hex.length_digits]
  have htext : (eventJson e).text.utf8ByteSize = Json.width (Json.quoted (hex32 e.id.bytes)) +
      Json.width (Json.quoted e.pubkey.toHex) + Json.width (toString (e.createdAt : Int)).toList +
      Json.width (Json.quoted e.content) + Json.width (Json.quoted e.sig.toHex) + 69 := by
    have hchar : '\x7b'.utf8Size = 1 ∧ '\x7d'.utf8Size = 1 ∧ ','.utf8Size = 1 ∧ ':'.utf8Size = 1 ∧
        '['.utf8Size = 1 ∧ ']'.utf8Size = 1 := by decide
    have hshort : Json.width (Json.quoted "id") = 4 ∧ Json.width (Json.quoted "pubkey") = 8 ∧
        Json.width (Json.quoted "created_at") = 12 ∧ Json.width (Json.quoted "kind") = 6 := by
      decide
    have hlong : Json.width (Json.quoted "tags") = 6 ∧ Json.width (Json.quoted "content") = 9 ∧
        Json.width (Json.quoted "sig") = 5 := by decide
    have hthirteen : Json.width (toString ((Kinds.seal : Nat) : Int)).toList = 2 := by decide
    obtain ⟨h1, h2, h3, h4, h5, h6⟩ := hchar
    obtain ⟨k1, k2, k3, k4⟩ := hshort
    obtain ⟨k5, k6, k7⟩ := hlong
    unfold Json.text
    rw [Json.utf8ByteSize_ofList]
    unfold eventJson tagsJson
    rw [hkind, htags]
    simp only [Json.chars, Json.fieldChars, Json.elemChars, List.map_nil, Json.width_append,
      Json.width_cons, Json.width_nil, h1, h2, h3, h4, h5, h6, k1, k2, k3, k4, k5, k6, k7,
      hthirteen]
    omega
  omega

/-- **A seal fits** exactly when its rumor is small enough: the padding and base 64 take the rest. -/
theorem fits_eventJson {e : NostrEvent} {raw : List UInt8} {n : Nat} (hn : n ≤ maxPlaintext)
    (hlen : raw.length = 1 + 32 + (2 + calcPaddedLen n) + 32)
    (hcontent : e.content = .ofList (Base64.encode raw)) (hkind : e.kind = Kinds.seal)
    (htags : e.tags = []) (hcreated : e.createdAt < 2 ^ 64) :
    Fits (eventJson e).text ↔ n ≤ maxRumor := by
  obtain ⟨hleast, hmost⟩ := width_eventJson hcontent hkind htags hcreated
  have hmax : maxPlaintext = 65535 := rfl
  have hcap : maxRumor = 40960 := rfl
  unfold Fits
  by_cases hsmall : n ≤ 32768
  · have hpadded := (calcPaddedLen_spec (k := 15) (by decide) hsmall).2.2
    omega
  · have hpadded := calcPaddedLen_large (Nat.lt_of_not_le hsmall) hn
    omega

/-! ## The whole way -/

/-- What a wrap is made with: an author's secret and one for the wrap, and how the recipient shares
a point with each. -/
structure Parties (b : Backend) (authorSk : Block 32) (author : PubKey) (ephemeralSk : Block 32)
    (recipientSk : Block 32) (recipient : PubKey) : Prop where
  signer : b.Signer authorSk author
  shared : b.Share authorSk author recipientSk recipient
  ephemeral : ∃ pk, b.Signer ephemeralSk pk ∧ b.Share ephemeralSk pk recipientSk recipient

section
variable {b : Backend} {parse : String → Option Json} {authorSk recipientSk : Block 32}
  {author recipient : PubKey} {rumor : Rumor} {r : WrapRandomness} {now maxJitterSecs : UInt64}

/-- **The seal**: made of every rumor that fits, and opened to it by the author's word. -/
theorem sealRumor_spec (h : Parties b authorSk author r.ephemeralSecret recipientSk recipient)
    (hback : ReadsBack parse rumor.toJson) :
    (Fits rumor.toJson.text → ∃ sealed, sealRumor b rumor authorSk recipient r = .ok sealed ∧
      sealed.kind = Kinds.seal ∧ sealed.createdAt < 2 ^ 64 ∧
      (Fits (eventJson sealed).text ↔ rumor.toJson.text.utf8ByteSize ≤ maxRumor) ∧
      openSeal b parse sealed recipientSk =
        if rumor.pubkey = author then .ok (rumor, author) else .error .authorMismatch) ∧
    (¬Fits rumor.toJson.text →
      sealRumor b rumor authorSk recipient r = .error (.decrypt .badLength)) := by
  obtain ⟨hencrypts, hlarge⟩ := @decryptFrom_encryptFor b _ _ _ _ h.shared r.sealNonce
    rumor.toJson.text (text_obj_ne _)
  constructor
  · intro hfits
    obtain ⟨raw, hencrypt, hlen, hdecrypt⟩ := hencrypts hfits
    obtain ⟨sealed, hsign, hvalid, hpk, hkind, hcreated, htags, hcontent⟩ :=
      h.signer.signEventRaw Kinds.seal r.sealCreatedAt [] (.ofList (Base64.encode raw))
    have hstamp : sealed.createdAt < 2 ^ 64 := by
      rw [hcreated]
      exact r.sealCreatedAt.toNat_lt
    refine ⟨sealed, ?_, hkind, hstamp, fits_eventJson hfits hlen hcontent hkind htags hstamp, ?_⟩
    · unfold sealRumor
      rw [hencrypt]
      exact hsign
    · have hread : (parse rumor.toJson.text).bind Rumor.ofJson = some rumor := by
        rw [hback, Option.bind_some]
        exact rumor.ofJson_toJson
      unfold openSeal
      rw [if_neg (not_not.mpr hkind), hvalid, if_neg Bool.noConfusion, hcontent, hpk, hdecrypt]
      show readRumor parse rumor.toJson.text author = _
      unfold readRumor
      rw [hread, Option.elim_some, ite_not]
  · intro hnot
    unfold sealRumor
    rw [hlarge hnot]
    rfl

/-- **The wrap**: made of every seal that fits, and opened to it while its stamp is near enough. -/
theorem wrapSeal_spec (h : Parties b authorSk author r.ephemeralSecret recipientSk recipient)
    {sealed : NostrEvent} (hcreated : sealed.createdAt < 2 ^ 64) (hkind : sealed.kind < 2 ^ 16)
    (hback : ReadsBack parse (eventJson sealed)) :
    (Fits (eventJson sealed).text → ∃ wrap, wrapSeal b sealed recipient r = .ok wrap ∧
      ∀ now maxJitterSecs : UInt64,
        absDiff now.toNat r.wrapCreatedAt.toNat ≤ maxJitterSecs.toNat →
          openWrap b parse wrap recipientSk now maxJitterSecs = .ok sealed) ∧
    (¬Fits (eventJson sealed).text →
      wrapSeal b sealed recipient r = .error (.decrypt .badLength)) := by
  obtain ⟨pk, hsigner, hshare⟩ := h.ephemeral
  obtain ⟨hencrypts, hlarge⟩ := @decryptFrom_encryptFor b _ _ _ _ hshare r.wrapNonce
    (eventJson sealed).text (text_obj_ne _)
  constructor
  · intro hfits
    obtain ⟨raw, hencrypt, -, hdecrypt⟩ := hencrypts hfits
    obtain ⟨wrap, hsign, hvalid, hpk, hwrapKind, hstamp, -, hcontent⟩ :=
      hsigner.signEventRaw Kinds.giftWrap r.wrapCreatedAt [["p", recipient.toHex]]
        (.ofList (Base64.encode raw))
    refine ⟨wrap, ?_, fun now maxJitterSecs hnear => ?_⟩
    · unfold wrapSeal
      rw [hencrypt]
      exact hsign
    · have hread : (parse (eventJson sealed).text).bind NostrEvent.ofJson = some sealed := by
        rw [hback, Option.bind_some]
        exact ofJson_eventJson hcreated hkind
      unfold openWrap
      rw [if_neg (not_not.mpr hwrapKind), hstamp, if_neg (Nat.not_lt.mpr hnear), hvalid,
        if_neg Bool.noConfusion, hcontent, hpk, hdecrypt]
      show ((parse (eventJson sealed).text).bind NostrEvent.ofJson).elim _ _ = _
      rw [hread]
      rfl
  · intro hnot
    unfold wrapSeal
    rw [hlarge hnot]
    rfl

/-- **A wrap is made** of every rumor small enough, and opened to it exactly when the rumor is its
author's. -/
theorem unwrap_wrap (h : Parties b authorSk author r.ephemeralSecret recipientSk recipient)
    (hback : ReadsBack parse rumor.toJson)
    (hsealed : ∀ sealed, sealRumor b rumor authorSk recipient r = .ok sealed →
      ReadsBack parse (eventJson sealed)) :
    (rumor.toJson.text.utf8ByteSize ≤ maxRumor → ∃ w, wrap b rumor authorSk recipient r = .ok w ∧
      ∀ now maxJitterSecs : UInt64,
        absDiff now.toNat r.wrapCreatedAt.toNat ≤ maxJitterSecs.toNat →
          unwrapWithAuthor b parse w recipientSk now maxJitterSecs =
            if rumor.pubkey = author then .ok (rumor, author) else .error .authorMismatch) ∧
    (maxRumor < rumor.toJson.text.utf8ByteSize →
      wrap b rumor authorSk recipient r = .error (.decrypt .badLength)) := by
  obtain ⟨hseals, hlarge⟩ := sealRumor_spec h hback
  have hcap : maxRumor ≤ maxPlaintext := by decide
  by_cases hfits : Fits rumor.toJson.text
  · obtain ⟨sealed, hseal, hkind, hcreated, hsmall, hopen⟩ := hseals hfits
    have hwrap : wrap b rumor authorSk recipient r = wrapSeal b sealed recipient r := by
      unfold wrap
      rw [hseal]
      rfl
    have hkindSmall : sealed.kind < 2 ^ 16 := by
      rw [hkind]
      decide
    obtain ⟨hwraps, hlargeSeal⟩ := wrapSeal_spec h hcreated hkindSmall (hsealed sealed hseal)
    rw [hwrap]
    constructor
    · intro hle
      obtain ⟨w, hw, hopens⟩ := hwraps (hsmall.mpr hle)
      refine ⟨w, hw, fun now maxJitterSecs hnear => ?_⟩
      unfold unwrapWithAuthor
      rw [hopens now maxJitterSecs hnear]
      exact hopen
    · exact fun hlt => hlargeSeal fun hseal => absurd (hsmall.mp hseal) (Nat.not_le.mpr hlt)
  · constructor
    · exact fun hle => absurd (hle.trans hcap) hfits
    · intro _
      unfold wrap
      rw [hlarge hfits]
      rfl

/-- **Whatever wrap is opened**, its seal verifies under the key that the rumor names. -/
theorem unwrap_author {w : NostrEvent} {opened : Rumor} {signer : PubKey}
    (h : unwrapWithAuthor b parse w recipientSk now maxJitterSecs = .ok (opened, signer)) :
    ∃ sealed, openWrap b parse w recipientSk now maxJitterSecs = .ok sealed ∧
      sealed.kind = Kinds.seal ∧ b.sigValid sealed = true ∧ sealed.pubkey = signer ∧
      opened.pubkey = signer := by
  unfold unwrapWithAuthor at h
  cases hwrap : openWrap b parse w recipientSk now maxJitterSecs with
  | error e =>
    rw [hwrap] at h
    cases h
  | ok sealed =>
    rw [hwrap] at h
    replace h : openSeal b parse sealed recipientSk = .ok (opened, signer) := h
    unfold openSeal at h
    by_cases hkind : sealed.kind = Kinds.seal
    swap
    · rw [if_pos hkind] at h
      cases h
    rw [if_neg (not_not.mpr hkind)] at h
    by_cases hvalid : b.sigValid sealed = false
    · rw [if_pos hvalid] at h
      cases h
    rw [if_neg hvalid] at h
    cases hdecrypt : b.decryptFrom sealed.content recipientSk sealed.pubkey with
    | error e =>
      rw [hdecrypt] at h
      cases h
    | ok text =>
      rw [hdecrypt] at h
      replace h : readRumor parse text sealed.pubkey = .ok (opened, signer) := h
      unfold readRumor at h
      cases hread : (parse text).bind Rumor.ofJson with
      | none =>
        rw [hread] at h
        cases h
      | some rumor =>
        rw [hread, Option.elim_some] at h
        by_cases hauthor : rumor.pubkey = sealed.pubkey
        · rw [if_neg (not_not.mpr hauthor)] at h
          obtain ⟨rfl, rfl⟩ := Prod.mk.inj (Except.ok.inj h)
          exact ⟨sealed, rfl, hkind, Bool.eq_true_of_not_eq_false hvalid, rfl, hauthor⟩
        · rw [if_pos hauthor] at h
          cases h

end

/-- **Gift wraps**: NIP-44 decrypts what it encrypted, and what it emits is of a length that it
accepts; a rumor small enough is wrapped, and its wrap is opened to it and its author, while its
stamp is near enough, exactly when the rumor is the sealing key's; and no wrap is opened to a rumor
of another key than its seal verifies under. -/
theorem wraps_round_trip (b : Backend) (parse : String → Option Json) :
    (∀ (text : String) (ck nonce : Block 32), 1 ≤ text.utf8ByteSize → text.utf8ByteSize ≤ 65535 →
      ∃ raw, encrypt b.nip44 text ck nonce = .ok (.ofList (Base64.encode raw)) ∧
        99 ≤ raw.length ∧ raw.length ≤ 65603 ∧
        decrypt b.nip44 (.ofList (Base64.encode raw)) ck = .ok text) ∧
    (∀ (rumor : Rumor) (authorSk : Block 32) (author : PubKey) (recipientSk : Block 32)
      (recipient : PubKey) (r : WrapRandomness),
      Parties b authorSk author r.ephemeralSecret recipientSk recipient →
      ReadsBack parse rumor.toJson →
      (∀ sealed, sealRumor b rumor authorSk recipient r = .ok sealed →
        ReadsBack parse (eventJson sealed)) →
      (rumor.toJson.text.utf8ByteSize ≤ maxRumor →
        ∃ w, wrap b rumor authorSk recipient r = .ok w ∧ ∀ now maxJitterSecs : UInt64,
          absDiff now.toNat r.wrapCreatedAt.toNat ≤ maxJitterSecs.toNat →
            unwrapWithAuthor b parse w recipientSk now maxJitterSecs =
              if rumor.pubkey = author then .ok (rumor, author) else .error .authorMismatch) ∧
      (maxRumor < rumor.toJson.text.utf8ByteSize →
        wrap b rumor authorSk recipient r = .error (.decrypt .badLength))) ∧
    ∀ (w : NostrEvent) (recipientSk : Block 32) (now maxJitterSecs : UInt64) (opened : Rumor)
      (signer : PubKey),
      unwrapWithAuthor b parse w recipientSk now maxJitterSecs = .ok (opened, signer) →
        ∃ sealed, openWrap b parse w recipientSk now maxJitterSecs = .ok sealed ∧
          sealed.kind = Kinds.seal ∧ b.sigValid sealed = true ∧ sealed.pubkey = signer ∧
          opened.pubkey = signer := by
  refine ⟨?_, ?_, ?_⟩
  · intro text ck nonce hmin hmax
    obtain ⟨-, hfloor, hcap⟩ := calcPaddedLen_bounds hmax
    obtain ⟨raw, hencrypt, hlen, hdecrypt⟩ := decrypt_encrypt b.nip44 ck nonce hmin hmax
    exact ⟨raw, hencrypt, by omega, by omega, hdecrypt⟩
  · intro rumor authorSk author recipientSk recipient r hparties hback hsealed
    exact unwrap_wrap hparties hback hsealed
  · intro w recipientSk now maxJitterSecs opened signer hopened
    exact unwrap_author hopened

/-! ## One wrap -/

namespace Sample

def authorSk : Block 32 := .ofNat 32 0x22
def recipientSk : Block 32 := .ofNat 32 0x11
def ephemeralSk : Block 32 := .ofNat 32 0x55

def author : PubKey :=
  ⟨0x1be68a5a028f2601d0e80d468c344ba331d611b96c358b6032e8b4da0547fc11⟩
def recipient : PubKey :=
  ⟨0xdefdea4cdb677750a420fee807eacf21eb9898ae79b9768766e4faa04a2d4a34⟩
def ephemeral : PubKey :=
  ⟨0x7962414450c76c1689c7b48f8202ec37fb224cf5ac0bfa1570328a8a3d7c77ab⟩

/-- The points that the recipient shares with the author and with the wrap's key. -/
def sealPoint : Block 32 :=
  .ofNat 32 0x237ce807ca213754d4f7d7419aa20c07a85a9d1eb897de899196848a2cd56b88
def wrapPoint : Block 32 :=
  .ofNat 32 0xa7dcee484d6e99b1b72a80b74de255b1074f47674d3c579904669ca6aad02ebe

/-- The conversation keys. -/
def sealKey : Block 32 :=
  .ofNat 32 0xaaa01efd96983cffdd84daea7ddb88a23b3296f1c9294b08b268b9d1b527ec80
def wrapKey : Block 32 :=
  .ofNat 32 0x568b4d27abb6292c5eaf62af65849be9af9885c016862abb6e148400e8312173

/-- The keys of the two messages. -/
def sealChachaKey : Nat :=
  0xe5cf7327c4b11656eccfee1a2c08f26e51850b43044bb9b62a0bd97feb96ec9f
def sealHmacKey : Nat :=
  0x77d107c251dae83108bd183b1e3ed427aebb62bba8f229eef94285e8a05daf2c
def wrapChachaKey : Nat :=
  0xe61bec34eed0f6ad9ee9bf1c76319c0a8d277bb89b7e23d06278a8bca9037d8e
def wrapHmacKey : Nat :=
  0xc07d5b3ae77bd7b262b73d07a5dc0695ec14da9eb5d5f172767df80e2f913947

/-- Their key streams, forty bytes at a time. -/
def sealStream : List Nat := [
  0xea79dfc91e37c453054030c53903ab822266e0f4e212fcf74ce3b0ea64094c2d788002e35201fe7e,
  0xded1a2beac217cd1fabb951a260f4009be3175dc348f517a7852ba9eaaa6f53cf574a1e92a10fdef,
  0x12a07b8fa993b2ee7f5ada19a687ee525f2c64aab1545780daa5d63ea3bee8bf5f596efc4591c1dc,
  0x0f3abe66f540a88896d7a3559e5edac4fca7e3025e0cc963429e90501d4f4cdfb117402ecb8f4e85,
  0xd22a0000000000000000000000000000000000000000000000000000000000000000000000000000]

def wrapStream : List Nat := [
  0x2797a063d27e0f78c3b100a13339a431aa42570fb477aad772def70f0e399641d17058ca80e658f2,
  0x3b7643839422e3bfa9c4005000289c66c5fb8f1c615a75ea192560ed02d797f3bd145388e7500113,
  0x0276b0575e3ecb5bb9057d039e03418b56e8d7c3fb2140e7a75c125f1430e8de4e6320a66733ef6f,
  0xea53ba7d66e9463a250381c6167d1581c4eb8d5d1474e7ddc2131a3e32e7672b0e0963f28a1d23ed,
  0xa83001fc1b3368b79904a8dd98f1412ef7feb010047a80b4d4698cb69eed13c9183d83f94598a02b,
  0x6c5ff284a44fffc76c871a454b7bf70d03e98725677d3fc83f01d55a5c6a1c796febef444c4ebf02,
  0x0a3652f2b759bdee14916d8cf8d7dcfce813f65d4f8827ffacda5ed07381fe0e4c6708461413dae5,
  0xd84d5711b150d6e11d63eb5f87a9742e482215888909f62e62d2d89eba24b0da6863b91b3f8df007,
  0xe8f31af1ddc6bdfb8cd3ded5cf21c2541a237f570a60f6900cfc735b67cdcf69631cf0effdaffd6f,
  0xd6a604a7e104e18bc68ad8dcee738e636b0ccd0a06376f83a0fd8aad3dac25e2e4dda9ebee313cc2,
  0x8e715cf2ab640d51a3fdcea06cd2d43a7727256f342647349685c1d216f43be024d1b060c83d265f,
  0x8ae5946992cd93ccb3b130b087a290fa73cd0b53e619e70cbb0acc9c917733dbf7008abf39c86420,
  0x5c121be7d05d8fee424e75eb07ce91a25b229ee80be51e88c253a973943097c43ade02da623ecc88,
  0x472dd30e6faf30061712c2cd919343eeb2aa2607e9e371900a4cbae40f596213f74e9c6c6f0b2e8c,
  0xf5de518e168098ea3bca894715adc48564fb3b8b57a3ec94edf4b416c838f18aa21f6c2e48225b5e,
  0x80943e11aecf6a4bb8ab715b1779b7deb3ea6a6df08c111c468eff8116bb97fba2fb510e298db800,
  0x1fbca60b9ba7834f751e6a69d171be9da72977a7703a4bb94a1d1d3d03b0656efacd63220ee9fa98,
  0x32a16cefafd2a76c933ca904ec99f4271a771eb587075d29e2ecd044a352dfc473658e7b253f918d,
  0xf29321b9bdec6de07da7ee3567ca872789bb0af7aa6b02a41e2f8cab81e9e4059c8ae9640edc497e,
  0x686f1393b5a5c790ae81000000000000000000000000000000000000000000000000000000000000]

/-- And their MACs. -/
def sealMac : Block 32 :=
  .ofNat 32 0xe1d7c0d65ceb9ad4e78f04df9b054c09a5d448f60edf4fe3745f3d29ee4e4c85
def wrapMac : Block 32 :=
  .ofNat 32 0x9e4ed67bbba5ac64f2c6b4a8e918f77b00c1385fae392e72703c2e0589908253

def sealId : EventId :=
  ⟨0xd2a960bc204752657a00d12166301c0fb9aad2e39045892307f15a57cc3c2f22⟩
def wrapId : EventId :=
  ⟨0x30d0435fd837563053695251226b9412d22af11b77010c263a1c6cdcc430f566⟩

def sealSig : Sig where
  bytes := 0xd8038bc7781ce2e0098f1d45e9e62fbe92ad41bcafd12a10d0b46c8b6cd4eab4#256 ++
    0xb46c505ed22c550c4ea3ee5fadf59f406e867380eae6b7604da386d3b2589a7c#256
def wrapSig : Sig where
  bytes := 0xbec55d753453cce834f3bc2bf5a9de6c7b2e3aff120bc9902575178cad541023#256 ++
    0xef76b3d9ebb688fa26f662992e43c0c024302bcadfd632665da92be8df3ec64a#256

def streamByte (chunks : List Nat) (i : Nat) : UInt8 :=
  UInt8.ofNat (chunks.getD (i / 40) 0 / 256 ^ (39 - i % 40))

/-- What the libraries make of the two messages; the two texts that are hashed differ in length. -/
def backend : Backend where
  nip44.extract _ x := if x = sealPoint then sealKey else wrapKey
  nip44.expand ck _ :=
    .ofNat 76 <|
      if ck = sealKey then
        sealChachaKey * 256 ^ 44 + 0xeac3c3f305a1f5a4265d02ce * 256 ^ 32 + sealHmacKey
      else wrapChachaKey * 256 ^ 44 + 0x68b572f67cf5ce2a39e9814f * 256 ^ 32 + wrapHmacKey
  nip44.keystream key _ :=
    streamByte (if key = .ofNat 32 sealChachaKey then sealStream else wrapStream)
  nip44.hmac key _ := if key = .ofNat 32 sealHmacKey then sealMac else wrapMac
  sha256 text := if text.utf8ByteSize = 394 then sealId else wrapId
  xonlyPubkey secret :=
    if secret = authorSk then some author
    else if secret = recipientSk then some recipient
    else if secret = ephemeralSk then some ephemeral
    else none
  ecdhX secret pk :=
    if (secret, pk) = (authorSk, recipient) ∨ (secret, pk) = (recipientSk, author) then
      some sealPoint
    else if (secret, pk) = (ephemeralSk, recipient) ∨ (secret, pk) = (recipientSk, ephemeral) then
      some wrapPoint
    else none
  schnorrSign secret _ :=
    if secret = authorSk then some sealSig
    else if secret = ephemeralSk then some wrapSig
    else none
  schnorrVerify pk _ sig :=
    decide ((pk, sig) = (author, sealSig) ∨ (pk, sig) = (ephemeral, wrapSig))

def rumor : Rumor where
  id := none
  pubkey := author
  createdAt := 1700000000
  kind := 31111
  tags := []
  content := "\x7b\"hi\":1\x7d"
  sig := none

def randomness : WrapRandomness where
  ephemeralSecret := ephemeralSk
  sealNonce := ⟨List.replicate 32 1, rfl⟩
  wrapNonce := ⟨List.replicate 32 2, rfl⟩
  sealCreatedAt := 1700000000
  wrapCreatedAt := 1700000000

/-- The texts of the rumor and of its seal, parsed. -/
def parse (text : String) : Option Json :=
  if text = rumor.toJson.text then some rumor.toJson
  else
    (sealRumor backend rumor authorSk recipient randomness).toOption.bind fun sealed =>
      if text = (eventJson sealed).text then some (eventJson sealed) else none

theorem signer_author : backend.Signer authorSk author := by
  refine ⟨by decide, fun id => ⟨sealSig, ?_, ?_⟩⟩
  · dsimp only [backend]
    rw [if_pos rfl]
  · dsimp only [backend]
    rw [decide_eq_true_iff]
    exact .inl rfl

theorem signer_ephemeral : backend.Signer ephemeralSk ephemeral := by
  have hne : ephemeralSk ≠ authorSk := by decide
  refine ⟨by decide, fun id => ⟨wrapSig, ?_, ?_⟩⟩
  · dsimp only [backend]
    rw [if_neg hne, if_pos rfl]
  · dsimp only [backend]
    rw [decide_eq_true_iff]
    exact .inr rfl

theorem parties :
    Parties backend authorSk author randomness.ephemeralSecret recipientSk recipient where
  signer := signer_author
  shared := ⟨sealPoint, by decide, by decide⟩
  ephemeral := ⟨ephemeral, signer_ephemeral, wrapPoint, by decide, by decide⟩

theorem reads_rumor : ReadsBack parse rumor.toJson := if_pos rfl

/-- The text of a seal starts with its id, which the rumor has not. -/
theorem reads_seal : ∀ sealed, sealRumor backend rumor authorSk recipient randomness = .ok sealed →
    ReadsBack parse (eventJson sealed) := by
  intro sealed hsealed
  have hother : (eventJson sealed).text ≠ rumor.toJson.text := by
    intro htexts
    have hchars : (eventJson sealed).chars.getD 2 ' ' = rumor.toJson.chars.getD 2 ' ' := by
      have hlists := congrArg String.toList htexts
      unfold Json.text at hlists
      rw [String.toList_ofList, String.toList_ofList] at hlists
      rw [hlists]
    have hid : (eventJson sealed).chars.getD 2 ' ' = 'i' := rfl
    have hpubkey : rumor.toJson.chars.getD 2 ' ' = 'p' := rfl
    rw [hid, hpubkey] at hchars
    exact absurd hchars (by decide)
  have hmade : (sealRumor backend rumor authorSk recipient randomness).toOption = some sealed := by
    rw [hsealed]
    rfl
  unfold ReadsBack parse
  rw [if_neg hother, hmade, Option.bind_some, if_pos rfl]

/-- The test's rumor, wrapped and opened a minute and a half later. -/
theorem wraps_round_trip_hi : ∃ w, wrap backend rumor authorSk recipient randomness = .ok w ∧
    unwrapWithAuthor backend parse w recipientSk 1700000090 172800 = .ok (rumor, author) := by
  have hsmall : rumor.toJson.text.utf8ByteSize ≤ maxRumor := by decide +kernel
  obtain ⟨w, hw, hopens⟩ := ((wraps_round_trip backend parse).2.1 rumor authorSk author recipientSk
    recipient randomness parties reads_rumor reads_seal).1 hsmall
  exact ⟨w, hw, (hopens 1700000090 172800 (by decide)).trans (if_pos rfl)⟩

/-- A rumor too large to be sealed. -/
def largeRumor : Rumor := { rumor with content := String.ofList (List.replicate 65536 'x') }

theorem not_fits_largeRumor : ¬Fits largeRumor.toJson.text := by
  intro hfits
  have hmem : ("content", Json.str largeRumor.content) ∈ largeRumor.fields :=
    List.mem_append_right _ (List.mem_append_left _ (by simp))
  have hle := Json.length_le_text hmem
  have hlen : largeRumor.content.toList.length = 65536 := by
    show (String.ofList (List.replicate 65536 'x')).toList.length = 65536
    rw [String.toList_ofList, List.length_replicate]
  have hmax : largeRumor.toJson.text.utf8ByteSize ≤ 65535 := hfits
  rw [hlen] at hle
  have hboth : 65536 ≤ 65535 := hle.trans hmax
  omega

/-- It is its author's, and is not even wrapped. -/
theorem not_wraps_round_trip :
    ¬∀ (b : Backend) (parse : String → Option Json) (rumor : Rumor) (authorSk : Block 32)
      (author : PubKey) (recipientSk : Block 32) (recipient : PubKey) (r : WrapRandomness)
      (now maxJitterSecs : UInt64),
      Parties b authorSk author r.ephemeralSecret recipientSk recipient →
      ReadsBack parse rumor.toJson →
      (∀ sealed, sealRumor b rumor authorSk recipient r = .ok sealed →
        ReadsBack parse (eventJson sealed)) →
      absDiff now.toNat r.wrapCreatedAt.toNat ≤ maxJitterSecs.toNat →
      ((∃ w, wrap b rumor authorSk recipient r = .ok w ∧
          unwrapWithAuthor b parse w recipientSk now maxJitterSecs = .ok (rumor, author)) ↔
        rumor.pubkey = author) := by
  intro h
  have hback : ReadsBack (fun text => if text = largeRumor.toJson.text then
      some largeRumor.toJson else none) largeRumor.toJson := if_pos rfl
  have hsealed := (@sealRumor_spec backend _ authorSk recipientSk author recipient largeRumor
    randomness parties hback).2 not_fits_largeRumor
  have hvacuous : ∀ sealed, sealRumor backend largeRumor authorSk recipient randomness = .ok sealed →
      ReadsBack (fun text => if text = largeRumor.toJson.text then
        some largeRumor.toJson else none) (eventJson sealed) := by
    intro sealed hok
    rw [hsealed] at hok
    cases hok
  obtain ⟨w, hw, -⟩ := (h backend _ largeRumor authorSk author recipientSk recipient randomness
    1700000090 172800 parties hback hvacuous (by decide)).mpr rfl
  unfold wrap at hw
  rw [hsealed] at hw
  cases hw

end Sample

end Nip59

end Kintrinsic
