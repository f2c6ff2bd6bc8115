import Kintrinsic.ChildConfigFile
import Kintrinsic.LinkProofs

/-! # The codec of the link's frames

A frame is a JSON array headed by its type, and travels behind the length of its body in four bytes.
Printing and parsing JSON is a `JsonCodec`. -/
namespace Kintrinsic

/-! ## JSON -/

/-- `serde_json`: a value as bytes, and bytes as a value. -/
structure JsonCodec where
  print : Json → List UInt8
  parse : List UInt8 → Option Json

namespace Json

def asObject : Json → Option (List (String × Json))
  | .obj fields => some fields
  | _ => none

def asArray : Json → Option (List Json)
  | .arr elems => some elems
  | _ => none

@[simp] theorem asString_str (s : String) : asString (.str s) = some s := rfl

/-- An integer below a bound. -/
def asBelow (bound : Nat) : Json → Option Nat
  | .int n => if 0 ≤ n ∧ n < bound then some n.toNat else none
  | _ => none

def asU64 : Json → Option Nat := asBelow (2 ^ 64)
def asU16 : Json → Option Nat := asBelow (2 ^ 16)

theorem asBelow_int {bound n : Nat} (h : n < bound) : asBelow bound (.int n) = some n := by
  show (if 0 ≤ (n : Int) ∧ (n : Int) < bound then some (n : Int).toNat else none) = some n
  rw [if_pos ⟨Int.natCast_nonneg n, Int.ofNat_lt.mpr h⟩, Int.toNat_natCast]

theorem asU64_int {n : Nat} (h : n < 2 ^ 64) : asU64 (.int n) = some n := asBelow_int h

theorem asU16_int {n : Nat} (h : n < 2 ^ 16) : asU16 (.int n) = some n := asBelow_int h

end Json

/-! ## Hex -/

/-- As many digits as a quarter of the bits hold it. -/
theorem toNat_lt_hex {n : Nat} (b : BitVec (4 * n)) : b.toNat < 16 ^ n :=
  b.isLt.trans_eq (pow_mul 2 4 n)

def unhex32 (s : String) : Option (BitVec 256) :=
  (Hex.read 64 s.toList).map fun n => BitVec.ofNat 256 n

theorem unhex32_hex32 (b : BitVec 256) : unhex32 (hex32 b) = some b := by
  have hlt : b.toNat < 16 ^ 64 := toNat_lt_hex (n := 64) b
  unfold unhex32 hex32
  rw [String.toList_ofList, Hex.read_digits hlt, Option.map_some, BitVec.ofNat_toNat,
    BitVec.setWidth_eq]

def Sig.toHex (s : Sig) : String := String.ofList (Hex.digits 128 s.bytes.toNat)

def Sig.fromHex (s : String) : Option Sig :=
  (Hex.read 128 s.toList).map fun n => ⟨BitVec.ofNat 512 n⟩

theorem Sig.fromHex_toHex (s : Sig) : Sig.fromHex s.toHex = some s := by
  have hlt : s.bytes.toNat < 16 ^ 128 := toNat_lt_hex (n := 128) s.bytes
  unfold fromHex toHex
  rw [String.toList_ofList, Hex.read_digits hlt, Option.map_some, BitVec.ofNat_toNat,
    BitVec.setWidth_eq]

/-- `AckResult::parse`. -/
def AckResult.parse : String → Option AckResult
  | "applied" => some .applied
  | "unchanged" => some .unchanged
  | "superseded" => some .superseded
  | "expired" => some .expired
  | "refused" => some .refused
  | "failed" => some .failed
  | "ignored" => some .ignored
  | _ => none

theorem AckResult.parse_asStr (r : AckResult) : AckResult.parse r.asStr = some r := by
  cases r <;> rfl

/-! ## Events -/

/-- What serde writes a `NostrEvent` as; a map keeps its keys in order. -/
def NostrEvent.toJson (e : NostrEvent) : Json :=
  .obj [("content", .str e.content), ("created_at", .int e.createdAt),
    ("id", .str (hex32 e.id.bytes)), ("kind", .int e.kind), ("pubkey", .str e.pubkey.toHex),
    ("sig", .str e.sig.toHex), ("tags", .arr (e.tags.map fun t => .arr (t.map Json.str)))]

/-- The tags, each a list of texts. -/
def tagsOfJson (v : Json) : Option (List (List String)) := do
  (← v.asArray).mapM fun t => do (← t.asArray).mapM Json.asString

/-- A `NostrEvent` from the values of its fields. -/
def NostrEvent.ofValues (id pubkey createdAt kind tags content sig : Json) : Option NostrEvent := do
  let id ← unhex32 (← id.asString)
  let pubkey ← unhex32 (← pubkey.asString)
  let createdAt ← createdAt.asU64
  let kind ← kind.asU16
  let tags ← tagsOfJson tags
  let content ← content.asString
  let sig ← Sig.fromHex (← sig.asString)
  some ⟨⟨id⟩, ⟨pubkey⟩, createdAt, kind, tags, content, sig⟩

/-- What serde reads a `NostrEvent` from: an object, or its fields in order. -/
def NostrEvent.ofJson : Json → Option NostrEvent
  | .obj fields => do
    let id ← fields.lookup "id"
    let pubkey ← fields.lookup "pubkey"
    let createdAt ← fields.lookup "created_at"
    let kind ← fields.lookup "kind"
    let tags ← fields.lookup "tags"
    let content ← fields.lookup "content"
    let sig ← fields.lookup "sig"
    ofValues id pubkey createdAt kind tags content sig
  | .arr [id, pubkey, createdAt, kind, tags, content, sig] =>
    ofValues id pubkey createdAt kind tags content sig
  | _ => none

/-! ## Frames -/

inductive FrameError
  | empty
  | tooLarge (n : Nat)
  | json
  | notFrame
  | malformed (name : String)
deriving DecidableEq

def FrameError.text : FrameError → String
  | empty => "empty frame"
  | tooLarge n => "frame of " ++ toString n ++ " bytes exceeds the maximum"
  | json => "frame is not valid JSON"
  | notFrame => "frame is not an array headed by a type string"
  | malformed name => "malformed " ++ name ++ " frame"

/-- `frame_value`. -/
def frameValue : Frame Sig → Json
  | .hello v challenge =>
    .arr [.str "HELLO", .obj [("challenge", .str (hex32 challenge)), ("v", .int v)]]
  | .challenge v guardian challenge sig =>
    .arr [.str "CHALLENGE", .obj [("challenge", .str (hex32 challenge)),
      ("guardian", .str guardian.toHex), ("sig", .str sig.toHex), ("v", .int v)]]
  | .auth machine sig =>
    .arr [.str "AUTH", .obj [("machine", .str machine.toHex), ("sig", .str sig.toHex)]]
  | .ready v => .arr [.str "READY", .obj [("v", .int v)]]
  | .event wrap => .arr [.str "EVENT", wrap.toJson]
  | .ok wrap accepted reason =>
    .arr [.str "OK", .str (hex32 wrap.bytes), .bool accepted, .str reason]
  | .ack a =>
    .arr [.str "ACK", .obj [("result", .str a.result.asStr), ("sig", .str a.sig.toHex),
      ("ts", .int a.ts), ("wrap", .str (hex32 a.wrap.bytes))]]
  | .ping n => .arr [.str "PING", .int n]
  | .pong n => .arr [.str "PONG", .int n]
  | .unknown type => .arr [.str type]

/-- `ok_or`. -/
def orMalformed {α : Type} (name : String) (o : Option α) : Except FrameError α :=
  match o with
  | some a => .ok a
  | none => .error (.malformed name)

/-- `obj`: the one object of a frame. -/
def frameObj (arr : List Json) (name : String) : Except FrameError (List (String × Json)) :=
  match arr with
  | [_, v] => orMalformed name v.asObject
  | _ => .error (.malformed name)

def fieldU64 (o : List (String × Json)) (k name : String) : Except FrameError Nat :=
  orMalformed name ((o.lookup k).bind Json.asU64)

def fieldStr (o : List (String × Json)) (k name : String) : Except FrameError String :=
  orMalformed name ((o.lookup k).bind Json.asString)

def field32 (o : List (String × Json)) (k name : String) : Except FrameError (BitVec 256) := do
  orMalformed name (unhex32 (← fieldStr o k name))

def fieldSig (o : List (String × Json)) (name : String) : Except FrameError Sig := do
  orMalformed name (Sig.fromHex (← fieldStr o "sig" name))

def singleU64 (arr : List Json) (name : String) : Except FrameError Nat :=
  match arr with
  | [_, v] => orMalformed name v.asU64
  | _ => .error (.malformed name)

/-- The `EVENT` arm. -/
def eventOfArray (arr : List Json) : Except FrameError (Frame Sig) :=
  match arr with
  | [_, v] => do return .event (← orMalformed "EVENT" (NostrEvent.ofJson v))
  | _ => .error (.malformed "EVENT")

/-- The `OK` arm. -/
def okOfArray (arr : List Json) : Except FrameError (Frame Sig) :=
  match arr with
  | [_, wrap, accepted, reason] => do
    let wrap ← orMalformed "OK" (wrap.asString.bind unhex32)
    let accepted ← orMalformed "OK" accepted.asBool
    let reason ← orMalformed "OK" reason.asString
    return .ok ⟨wrap⟩ accepted reason
  | _ => .error (.malformed "OK")

/-- The arms of `decode_frame`, by the type of the frame. -/
def frameOfArray (ty : String) (arr : List Json) : Except FrameError (Frame Sig) :=
  match ty with
  | "HELLO" => do
    let o ← frameObj arr "HELLO"
    return .hello (← fieldU64 o "v" "HELLO") (← field32 o "challenge" "HELLO")
  | "CHALLENGE" => do
    let o ← frameObj arr "CHALLENGE"
    return .challenge (← fieldU64 o "v" "CHALLENGE") ⟨← field32 o "guardian" "CHALLENGE"⟩
      (← field32 o "challenge" "CHALLENGE") (← fieldSig o "CHALLENGE")
  | "AUTH" => do
    let o ← frameObj arr "AUTH"
    return .auth ⟨← field32 o "machine" "AUTH"⟩ (← fieldSig o "AUTH")
  | "READY" => do
    let o ← frameObj arr "READY"
    return .ready (← fieldU64 o "v" "READY")
  | "EVENT" => eventOfArray arr
  | "OK" => okOfArray arr
  | "ACK" => do
    let o ← frameObj arr "ACK"
    let result ← orMalformed "ACK" (AckResult.parse (← fieldStr o "result" "ACK"))
    return .ack ⟨⟨← field32 o "wrap" "ACK"⟩, result, ← fieldU64 o "ts" "ACK", ← fieldSig o "ACK"⟩
  | "PING" => do return .ping (← singleU64 arr "PING")
  | "PONG" => do return .pong (← singleU64 arr "PONG")
  | other => .ok (.unknown other)

/-- What `decode_frame` makes of a value. -/
def frameOfValue (v : Json) : Except FrameError (Frame Sig) :=
  match v with
  | .arr (.str ty :: rest) => frameOfArray ty (.str ty :: rest)
  | _ => .error .notFrame

/-! ## Round trips -/

/-- The integers of a frame are those of their types. -/
def Frame.Fits : Frame Sig → Prop
  | .hello v _ | .challenge v _ _ _ | .ready v => v < 2 ^ 64
  | .event wrap => wrap.createdAt < 2 ^ 64 ∧ wrap.kind < 2 ^ 16
  | .ack a => a.ts < 2 ^ 64
  | .ping n | .pong n => n < 2 ^ 64
  | .auth _ _ | .ok _ _ _ | .unknown _ => True

/-- The types that have an arm. -/
def reservedTypes : List String :=
  ["HELLO", "CHALLENGE", "AUTH", "READY", "EVENT", "OK", "ACK", "PING", "PONG"]

/-- An unknown frame under the name of a known one. -/
def Frame.Reserved : Frame Sig → Prop
  | .unknown type => type ∈ reservedTypes
  | _ => False

@[simp] theorem ok_bind {α β : Type} (a : α) (f : α → Except FrameError β) :
    (Except.ok a >>= f) = f a := rfl

@[simp] theorem orMalformed_some {α : Type} (name : String) (a : α) :
    orMalformed name (some a) = .ok a := rfl

theorem tagsOfJson_map (tags : List (List String)) :
    tagsOfJson (.arr (tags.map fun t => .arr (t.map Json.str))) = some tags := by
  have htag : ∀ t : List String, (t.map Json.str).mapM Json.asString = some t := by
    intro t
    induction t with
    | nil => rfl
    | cons s t ih =>
      rw [List.map_cons, List.mapM_cons, ih]
      rfl
  show (tags.map fun t => Json.arr (t.map Json.str)).mapM
    (fun t => (t.asArray).bind fun elems => elems.mapM Json.asString) = some tags
  induction tags with
  | nil => rfl
  | cons t tags ih =>
    rw [List.map_cons, List.mapM_cons, ih]
    show ((t.map Json.str).mapM Json.asString).bind _ = _
    rw [htag t]
    rfl

/-- **An event is read back from what it is written as.** -/
theorem NostrEvent.ofJson_toJson {e : NostrEvent} (hcreated : e.createdAt < 2 ^ 64)
    (hkind : e.kind < 2 ^ 16) : NostrEvent.ofJson e.toJson = some e := by
  have hpubkey : unhex32 e.pubkey.toHex = some e.pubkey.bytes := unhex32_hex32 e.pubkey.bytes
  unfold NostrEvent.ofJson NostrEvent.toJson
  simp only [List.lookup, String.reduceBEq, Option.bind_eq_bind, Option.bind_some,
    NostrEvent.ofValues, Json.asString_str, unhex32_hex32, hpubkey, Json.asU64_int hcreated,
    Json.asU16_int hkind, tagsOfJson_map, Sig.fromHex_toHex]

section Fields
variable {o : List (String × Json)} {k : String}

theorem fieldU64_of_lookup {n : Nat} (h : o.lookup k = some (.int n)) (hn : n < 2 ^ 64)
    (name : String) : fieldU64 o k name = .ok n := by
  unfold fieldU64
  rw [h, Option.bind_some, Json.asU64_int hn, orMalformed_some]

theorem fieldStr_of_lookup {s : String} (h : o.lookup k = some (.str s)) (name : String) :
    fieldStr o k name = .ok s := by
  unfold fieldStr
  rw [h, Option.bind_some, Json.asString_str, orMalformed_some]

theorem field32_of_lookup {b : BitVec 256} (h : o.lookup k = some (.str (hex32 b)))
    (name : String) : field32 o k name = .ok b := by
  unfold field32
  rw [fieldStr_of_lookup h, ok_bind, unhex32_hex32, orMalformed_some]

theorem fieldSig_of_lookup {sig : Sig} (h : o.lookup "sig" = some (.str sig.toHex))
    (name : String) : fieldSig o name = .ok sig := by
  unfold fieldSig
  rw [fieldStr_of_lookup h, ok_bind, Sig.fromHex_toHex, orMalformed_some]

end Fields

/-- An unknown type has no arm. -/
theorem frameOfArray_unknown {ty : String} (h : ty ∉ reservedTypes) (arr : List Json) :
    frameOfArray ty arr = .ok (.unknown ty) := by
  unfold reservedTypes at h
  simp only [List.mem_cons, List.not_mem_nil, or_false, not_or] at h
  obtain ⟨hhello, hchallenge, hauth, hready, hevent, hok, hack, hping, hpong⟩ := h
  unfold frameOfArray
  split
  · exact absurd rfl hhello
  · exact absurd rfl hchallenge
  · exact absurd rfl hauth
  · exact absurd rfl hready
  · exact absurd rfl hevent
  · exact absurd rfl hok
  · exact absurd rfl hack
  · exact absurd rfl hping
  · exact absurd rfl hpong
  · rfl

theorem frameOfValue_arr (ty : String) (rest : List Json) :
    frameOfValue (.arr (.str ty :: rest)) = frameOfArray ty (.str ty :: rest) := rfl

theorem frameObj_obj (head : Json) (fields : List (String × Json)) (name : String) :
    frameObj [head, .obj fields] name = .ok fields := rfl

theorem singleU64_int (head : Json) {n : Nat} (hn : n < 2 ^ 64) (name : String) :
    singleU64 [head, .int n] name = .ok n := by
  unfold singleU64
  dsimp only
  rw [Json.asU64_int hn, orMalformed_some]

theorem frameOfArray_hello (arr : List Json) : frameOfArray "HELLO" arr = (do
    let o ← frameObj arr "HELLO"
    return .hello (← fieldU64 o "v" "HELLO") (← field32 o "challenge" "HELLO")) := rfl

theorem frameOfArray_challenge (arr : List Json) : frameOfArray "CHALLENGE" arr = (do
    let o ← frameObj arr "CHALLENGE"
    return .challenge (← fieldU64 o "v" "CHALLENGE") ⟨← field32 o "guardian" "CHALLENGE"⟩
      (← field32 o "challenge" "CHALLENGE") (← fieldSig o "CHALLENGE")) := rfl

theorem frameOfArray_auth (arr : List Json) : frameOfArray "AUTH" arr = (do
    let o ← frameObj arr "AUTH"
    return .auth ⟨← field32 o "machine" "AUTH"⟩ (← fieldSig o "AUTH")) := rfl

theorem frameOfArray_ready (arr : List Json) : frameOfArray "READY" arr = (do
    let o ← frameObj arr "READY"
    return .ready (← fieldU64 o "v" "READY")) := rfl

theorem frameOfArray_ack (arr : List Json) : frameOfArray "ACK" arr = (do
    let o ← frameObj arr "ACK"
    let result ← orMalformed "ACK" (AckResult.parse (← fieldStr o "result" "ACK"))
    return .ack ⟨⟨← field32 o "wrap" "ACK"⟩, result, ← fieldU64 o "ts" "ACK",
      ← fieldSig o "ACK"⟩) := rfl

theorem frameOfArray_event (arr : List Json) : frameOfArray "EVENT" arr = eventOfArray arr := rfl

theorem frameOfArray_ok (arr : List Json) : frameOfArray "OK" arr = okOfArray arr := rfl

theorem frameOfArray_ping (arr : List Json) :
    frameOfArray "PING" arr = (do return .ping (← singleU64 arr "PING")) := rfl

theorem frameOfArray_pong (arr : List Json) :
    frameOfArray "PONG" arr = (do return .pong (← singleU64 arr "PONG")) := rfl

/-- **A frame is read back from its value**, unless it is unknown under a known name. -/
theorem frameOfValue_frameValue {f : Frame Sig} (hfits : f.Fits) (hreserved : ¬f.Reserved) :
    frameOfValue (frameValue f) = .ok f := by
  cases f with
  | hello v challenge =>
    unfold frameValue
    rw [frameOfValue_arr, frameOfArray_hello, frameObj_obj, ok_bind,
      @fieldU64_of_lookup _ _ v ?_ hfits, ok_bind, @field32_of_lookup _ _ challenge ?_, ok_bind]
    · rfl
    all_goals simp only [List.lookup, String.reduceBEq]
  | challenge v guardian challenge sig =>
    unfold frameValue
    rw [frameOfValue_arr, frameOfArray_challenge, frameObj_obj, ok_bind,
      @fieldU64_of_lookup _ _ v ?_ hfits, ok_bind, @field32_of_lookup _ _ guardian.bytes ?_,
      ok_bind, @field32_of_lookup _ _ challenge ?_, ok_bind, @fieldSig_of_lookup _ sig ?_,
      ok_bind]
    · rfl
    all_goals simp only [List.lookup, String.reduceBEq]
    rfl
  | auth machine sig =>
    unfold frameValue
    rw [frameOfValue_arr, frameOfArray_auth, frameObj_obj, ok_bind,
      @field32_of_lookup _ _ machine.bytes ?_, ok_bind, @fieldSig_of_lookup _ sig ?_,
      ok_bind]
    · rfl
    all_goals simp only [List.lookup, String.reduceBEq]
    rfl
  | ready v =>
    unfold frameValue
    rw [frameOfValue_arr, frameOfArray_ready, frameObj_obj, ok_bind,
      @fieldU64_of_lookup _ _ v ?_ hfits, ok_bind]
    · rfl
    · simp only [List.lookup, String.reduceBEq]
  | event wrap =>
    unfold frameValue
    rw [frameOfValue_arr, frameOfArray_event]
    unfold eventOfArray
    dsimp only
    rw [NostrEvent.ofJson_toJson hfits.1 hfits.2, orMalformed_some, ok_bind]
    rfl
  | ok wrap accepted reason =>
    unfold frameValue
    rw [frameOfValue_arr, frameOfArray_ok]
    unfold okOfArray
    dsimp only
    rw [Json.asString_str, Option.bind_some, unhex32_hex32, orMalformed_some, ok_bind]
    rfl
  | ack a =>
    unfold frameValue
    rw [frameOfValue_arr, frameOfArray_ack, frameObj_obj, ok_bind,
      fieldStr_of_lookup (s := a.result.asStr) ?_, ok_bind, AckResult.parse_asStr, orMalformed_some,
      ok_bind, @field32_of_lookup _ _ a.wrap.bytes ?_, ok_bind,
      @fieldU64_of_lookup _ _ a.ts ?_ hfits, ok_bind, @fieldSig_of_lookup _ a.sig ?_,
      ok_bind]
    · rfl
    all_goals simp only [List.lookup, String.reduceBEq]
  | ping n =>
    unfold frameValue
    rw [frameOfValue_arr, frameOfArray_ping, singleU64_int _ hfits, ok_bind]
    rfl
  | pong n =>
    unfold frameValue
    rw [frameOfValue_arr, frameOfArray_pong, singleU64_int _ hfits, ok_bind]
    rfl
  | unknown type => exact frameOfArray_unknown hreserved _

namespace JsonCodec
variable (json : JsonCodec)

def encodeFrameBody (f : Frame Sig) : List UInt8 := json.print (frameValue f)

/-- The four bytes of a length, most significant first. -/
def bigEndian (n : Nat) : List UInt8 :=
  [UInt8.ofNat (n / 2 ^ 24), UInt8.ofNat (n / 2 ^ 16), UInt8.ofNat (n / 2 ^ 8), UInt8.ofNat n]

/-- `encode_frame`. -/
def encodeFrame (f : Frame Sig) : List UInt8 :=
  bigEndian (json.encodeFrameBody f).length ++ json.encodeFrameBody f

/-- `u32::from_be_bytes`. -/
def fromBigEndian (bytes : List UInt8) : Nat := bytes.foldl (fun n b => n * 256 + b.toNat) 0

/-- `frame_len`. -/
def frameLen (bytes : List UInt8) : Except FrameError Nat :=
  let n := fromBigEndian bytes
  if n = 0 then .error .empty
  else if maxFrame < n then .error (.tooLarge n)
  else .ok n

/-- `decode_frame`. -/
def decodeFrame (body : List UInt8) : Except FrameError (Frame Sig) :=
  if body = [] then .error .empty
  else if maxFrame < body.length then .error (.tooLarge body.length)
  else
    match json.parse body with
    | none => .error .json
    | some v => frameOfValue v

/-- Why reading ends. -/
inductive ReadError
  | io
  | frame (e : FrameError)
deriving DecidableEq

/-- `read_exact`, from a stream that ends. -/
def readExact (n : Nat) (stream : List UInt8) : Except ReadError (List UInt8 × List UInt8) :=
  if n ≤ stream.length then .ok (stream.take n, stream.drop n) else .error .io

/-- `read_frame`: the next frame of a stream, and what follows it. -/
def readFrame (stream : List UInt8) : Except ReadError (Frame Sig × List UInt8) := do
  let (head, rest) ← readExact 4 stream
  let n ← (frameLen head).mapError .frame
  let (body, rest) ← readExact n rest
  let f ← (json.decodeFrame body).mapError .frame
  return (f, rest)

/-- Frames are read until one is not; every frame is some bytes of the stream. -/
def readFrames : Nat → List UInt8 → List (Frame Sig) × ReadError × List UInt8
  | 0, stream => ([], .io, stream)
  | n + 1, stream =>
    match json.readFrame stream with
    | .error e => ([], e, stream)
    | .ok (f, rest) => (f :: (readFrames n rest).1, (readFrames n rest).2)

/-- All frames of a stream, why the reading ended and what was left. -/
def readAll (stream : List UInt8) : List (Frame Sig) × ReadError × List UInt8 :=
  json.readFrames stream.length stream

/-- A wrap that passes its check fits in a frame. -/
theorem validateWrapFor_bodyLen {check : WrapCheck} {wrap : NostrEvent} {recipient : PubKey}
    (h : validateWrapFor check wrap recipient = .ok ()) : check.bodyLen wrap ≤ maxFrame := by
  unfold validateWrapFor at h
  split at h
  · cases h
  · split at h
    · split_ifs at h with hrecipient hid hsig hlarge
      exact Nat.le_of_not_lt hlarge
    · cases h

/-! ## A stream -/

theorem fromBigEndian_bigEndian {n : Nat} (h : n < 2 ^ 32) : fromBigEndian (bigEndian n) = n := by
  unfold fromBigEndian bigEndian
  simp only [List.foldl_cons, List.foldl_nil, UInt8.toNat_ofNat']
  omega

theorem readExact_append {n : Nat} {bytes : List UInt8} (h : bytes.length = n)
    (rest : List UInt8) : readExact n (bytes ++ rest) = .ok (bytes, rest) := by
  unfold readExact
  rw [if_pos (by rw [List.length_append]; omega), ← h, List.take_left, List.drop_left]

theorem frameLen_bigEndian {n : Nat} (hpos : n ≠ 0) (hle : n ≤ maxFrame) :
    frameLen (bigEndian n) = .ok n := by
  have hlt : n < 2 ^ 32 := hle.trans_lt (by decide)
  unfold frameLen
  rw [fromBigEndian_bigEndian hlt, if_neg hpos, if_neg (Nat.not_lt.mpr hle)]

variable {json}

/-- What is printed is parsed back, and nothing is no value. -/
structure Reads (json : JsonCodec) (f : Frame Sig) : Prop where
  nothing : json.parse [] = none
  back : json.parse (json.print (frameValue f)) = some (frameValue f)

theorem Reads.body_ne {f : Frame Sig} (h : json.Reads f) : json.encodeFrameBody f ≠ [] := by
  intro hnil
  have hback := h.back
  unfold encodeFrameBody at hnil
  rw [hnil, h.nothing] at hback
  cases hback

/-- **A body is decoded to its frame.** -/
theorem Reads.decodeFrame_encodeFrameBody {f : Frame Sig} (h : json.Reads f) (hfits : f.Fits)
    (hreserved : ¬f.Reserved) (hle : (json.encodeFrameBody f).length ≤ maxFrame) :
    json.decodeFrame (json.encodeFrameBody f) = .ok f := by
  unfold decodeFrame
  rw [if_neg h.body_ne, if_neg (Nat.not_lt.mpr hle)]
  show (match json.parse (json.print (frameValue f)) with
    | none => Except.error FrameError.json
    | some v => frameOfValue v) = .ok f
  rw [h.back]
  exact frameOfValue_frameValue hfits hreserved

theorem Reads.frameLen_encodeFrame {f : Frame Sig} (h : json.Reads f)
    (hle : (json.encodeFrameBody f).length ≤ maxFrame) :
    frameLen (bigEndian (json.encodeFrameBody f).length) = .ok (json.encodeFrameBody f).length :=
  frameLen_bigEndian (fun hzero => h.body_ne (List.length_eq_zero_iff.mp hzero)) hle

/-- A frame that may travel. -/
structure Travels (json : JsonCodec) (f : Frame Sig) : Prop extends json.Reads f where
  fits : f.Fits
  free : ¬f.Reserved
  short : (json.encodeFrameBody f).length ≤ maxFrame

/-- **One frame** is read off a stream, and what follows it is left. -/
theorem Travels.readFrame_encodeFrame {f : Frame Sig} (h : json.Travels f) (rest : List UInt8) :
    json.readFrame (json.encodeFrame f ++ rest) = .ok (f, rest) := by
  unfold readFrame encodeFrame
  rw [List.append_assoc, readExact_append (n := 4) rfl]
  show (do
    let n ← (frameLen (bigEndian (json.encodeFrameBody f).length)).mapError ReadError.frame
    let (body, rest) ← readExact n (json.encodeFrameBody f ++ rest)
    let f ← (json.decodeFrame body).mapError ReadError.frame
    return (f, rest)) = Except.ok (f, rest)
  rw [h.frameLen_encodeFrame h.short]
  show (do
    let (body, rest) ← readExact (json.encodeFrameBody f).length (json.encodeFrameBody f ++ rest)
    let f ← (json.decodeFrame body).mapError ReadError.frame
    return (f, rest)) = Except.ok (f, rest)
  rw [readExact_append rfl]
  show (do
    let f ← (json.decodeFrame (json.encodeFrameBody f)).mapError ReadError.frame
    return (f, rest)) = Except.ok (f, rest)
  rw [h.decodeFrame_encodeFrameBody h.fits h.free h.short]
  rfl

theorem readFrames_flatMap (frames : List (Frame Sig)) (h : ∀ f ∈ frames, json.Travels f)
    (n : Nat) (rest : List UInt8) :
    json.readFrames (frames.length + n) (frames.flatMap json.encodeFrame ++ rest) =
      (frames ++ (json.readFrames n rest).1, (json.readFrames n rest).2) := by
  induction frames with
  | nil => rw [List.length_nil, Nat.zero_add]; rfl
  | cons f frames ih =>
    have hframe := (h f List.mem_cons_self).readFrame_encodeFrame
      (frames.flatMap json.encodeFrame ++ rest)
    have hrest := ih fun g hg => h g (List.mem_cons_of_mem f hg)
    rw [List.length_cons, Nat.add_right_comm, List.flatMap_cons, List.append_assoc]
    show (match
        json.readFrame (json.encodeFrame f ++ (frames.flatMap json.encodeFrame ++ rest)) with
      | .error e => ([], e, _)
      | .ok (g, left) => (g :: (json.readFrames (frames.length + n) left).1,
        (json.readFrames (frames.length + n) left).2)) = _
    rw [hframe]
    dsimp only
    rw [hrest]
    rfl

/-- There are no more frames than bytes. -/
theorem length_le_flatMap (frames : List (Frame Sig)) :
    frames.length ≤ (frames.flatMap json.encodeFrame).length := by
  induction frames with
  | nil => exact Nat.zero_le _
  | cons f frames ih =>
    have hfour : 4 ≤ (json.encodeFrame f).length := by
      unfold encodeFrame
      rw [List.length_append]
      exact Nat.le_add_right 4 _
    rw [List.flatMap_cons, List.length_append, List.length_cons]
    omega

theorem readFrames_nil (n : Nat) : json.readFrames n [] = ([], .io, []) := by
  cases n with
  | zero => rfl
  | succ n => rfl

/-- A stream of frames is read as them, and to its end. -/
theorem readAll_flatMap (frames : List (Frame Sig)) (h : ∀ f ∈ frames, json.Travels f) :
    json.readAll (frames.flatMap json.encodeFrame) = (frames, .io, []) := by
  have hle := @length_le_flatMap json frames
  have hread := readFrames_flatMap frames h
    ((frames.flatMap json.encodeFrame).length - frames.length) []
  rw [List.append_nil, Nat.add_sub_cancel' hle, readFrames_nil, List.append_nil] at hread
  exact hread

/-- **The codec over a stream**: the frames that may travel are read off the concatenation of their
encodings, all of them and nothing after, whatever follows; and a wrap that passes its check is
encoded to a body that is decoded to it. -/
theorem frames_round_trip (json : JsonCodec) :
    (∀ frames : List (Frame Sig), (∀ f ∈ frames, json.Travels f) →
      json.readAll (frames.flatMap json.encodeFrame) = (frames, .io, []) ∧
      ∀ rest, json.readFrames frames.length (frames.flatMap json.encodeFrame ++ rest) =
        (frames, .io, rest)) ∧
    ∀ (crypto : Crypto) (wrap : NostrEvent) (recipient : PubKey),
      json.Reads (.event wrap) → (Frame.event wrap).Fits →
      validateWrapFor ⟨crypto, fun w => (json.encodeFrameBody (.event w)).length⟩ wrap recipient =
        .ok () →
      frameLen (bigEndian (json.encodeFrameBody (.event wrap)).length) =
          .ok (json.encodeFrameBody (.event wrap)).length ∧
        json.decodeFrame (json.encodeFrameBody (.event wrap)) = .ok (.event wrap) := by
  refine ⟨fun frames h => ⟨readAll_flatMap frames h, fun rest => ?_⟩, ?_⟩
  · have hread := readFrames_flatMap frames h 0 rest
    rw [Nat.add_zero] at hread
    rw [hread]
    exact Prod.ext (List.append_nil frames) rfl
  · intro crypto wrap recipient hreads hfits hvalid
    have hle := validateWrapFor_bodyLen hvalid
    exact ⟨hreads.frameLen_encodeFrame hle,
      hreads.decodeFrame_encodeFrameBody hfits (fun hreserved => hreserved) hle⟩

/-! ### A ping and a wrap -/

def asciiBytes (s : String) : List UInt8 := s.toList.map fun c => UInt8.ofNat c.toNat

/-- The text of a ping. -/
def pingText : List UInt8 := asciiBytes "[\"PING\",3]"

/-- A wrap for the machine of number 5. -/
def sampleWrap : NostrEvent :=
  ⟨⟨1⟩, ⟨7⟩, 100, Kinds.giftWrap, [["p", PubKey.toHex ⟨5⟩]], "", ⟨0⟩⟩

/-- The text of its EVENT frame. -/
def wrapText : List UInt8 := asciiBytes <|
  "[\"EVENT\",\x7b\"content\":\"\",\"created_at\":100,\"id\":\"" ++ hex32 1 ++
    "\",\"kind\":1059,\"pubkey\":\"" ++ hex32 7 ++ "\",\"sig\":\"" ++ Sig.toHex ⟨0⟩ ++
    "\",\"tags\":[[\"p\",\"" ++ hex32 5 ++ "\"]]\x7d]"

section
variable (ping wrap : List UInt8)

/-- The two values, printed as these texts. -/
def printTwo : Json → List UInt8
  | .arr (.str ty :: _) => if ty = "PING" then ping else wrap
  | _ => []

/-- And parsed. -/
def parseTwo (bytes : List UInt8) : Option Json :=
  if bytes = ping then some (frameValue (.ping 3))
  else if bytes = wrap then some (frameValue (.event sampleWrap))
  else none

theorem parseTwo_nil (hping : [] ≠ ping) (hwrap : [] ≠ wrap) : parseTwo ping wrap [] = none := by
  unfold parseTwo
  rw [if_neg hping, if_neg hwrap]

theorem parseTwo_printTwo_ping :
    parseTwo ping wrap (printTwo ping wrap (frameValue (.ping 3))) =
      some (frameValue (.ping 3)) := by
  have hprint : printTwo ping wrap (frameValue (.ping 3)) = ping := by
    unfold frameValue printTwo
    exact if_pos rfl
  rw [hprint]
  exact if_pos rfl

theorem parseTwo_printTwo_event (hother : wrap ≠ ping) :
    parseTwo ping wrap (printTwo ping wrap (frameValue (.event sampleWrap))) =
      some (frameValue (.event sampleWrap)) := by
  have hprint : printTwo ping wrap (frameValue (.event sampleWrap)) = wrap := by
    unfold frameValue printTwo
    exact if_neg (by decide)
  rw [hprint]
  unfold parseTwo
  rw [if_neg hother, if_pos rfl]

end

def sampleJson : JsonCodec := ⟨printTwo pingText wrapText, parseTwo pingText wrapText⟩

theorem sampleJson_nothing : sampleJson.parse [] = none := by
  unfold sampleJson
  dsimp only
  exact parseTwo_nil _ _ (by decide +kernel) (by decide +kernel)

theorem sampleJson_ping : sampleJson.Reads (.ping 3) where
  nothing := sampleJson_nothing
  back := by
    unfold sampleJson
    dsimp only
    exact parseTwo_printTwo_ping pingText wrapText

theorem sampleJson_event : sampleJson.Reads (.event sampleWrap) where
  nothing := sampleJson_nothing
  back := by
    unfold sampleJson
    dsimp only
    exact parseTwo_printTwo_event pingText wrapText (by decide +kernel)

theorem sampleJson_travels : ∀ f ∈ [Frame.ping 3, .event sampleWrap], sampleJson.Travels f := by
  intro f hf
  rcases List.mem_cons.mp hf with rfl | hf
  · exact ⟨sampleJson_ping, by unfold Frame.Fits; omega, fun h => h, by decide +kernel⟩
  · rw [List.mem_singleton.mp hf]
    exact ⟨sampleJson_event, by unfold Frame.Fits; decide, fun h => h, by decide +kernel⟩

/-- **A ping and a wrap**, over one stream. -/
theorem frames_round_trip_two :
    sampleJson.readAll ([Frame.ping 3, .event sampleWrap].flatMap sampleJson.encodeFrame) =
        ([Frame.ping 3, .event sampleWrap], .io, []) ∧
      sampleJson.decodeFrame (sampleJson.encodeFrameBody (.event sampleWrap)) =
        .ok (.event sampleWrap) := by
  refine ⟨((frames_round_trip sampleJson).1 _ sampleJson_travels).1,
    ((frames_round_trip sampleJson).2 ⟨fun wrap => wrap.id, fun _ _ _ => true⟩ sampleWrap ⟨5⟩
      sampleJson_event ?_ ?_).2⟩
  · unfold Frame.Fits
    decide
  · decide +kernel

end JsonCodec

end Kintrinsic
