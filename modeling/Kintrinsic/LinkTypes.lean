import Kintrinsic.Hex
import Kintrinsic.MachineWord
import Kintrinsic.WireTypes

/-! # The local link: keys as hex, wraps and frames

What both ends of the local link share: the wire spelling of keys, the check that a wrap may
travel to a recipient, and the frames.  The codec of JSON is a library's; of it the check takes
the length of an EVENT frame. -/
namespace Kintrinsic

/-! ## Keys as hex -/

def PubKey.toHex (k : PubKey) : String := String.ofList (Hex.digits 64 k.bytes.toNat)

/-- `from_hex`: the exact length, lowercase only. -/
def PubKey.fromHex (s : String) : Option PubKey :=
  (Hex.read 64 s.toList).map fun n => ⟨BitVec.ofNat 256 n⟩

theorem PubKey.fromHex_toHex (k : PubKey) : PubKey.fromHex k.toHex = some k := by
  have hlt : k.bytes.toNat < 16 ^ 64 := lt_of_lt_of_eq k.bytes.isLt (by norm_num)
  unfold fromHex toHex
  rw [String.toList_ofList, Hex.read_digits hlt, Option.map_some, BitVec.ofNat_toNat,
    BitVec.setWidth_eq]

/-! ## Wraps -/

/-- A sealed message to one device. -/
def Kinds.giftWrap : Nat := 1059
def Kinds.charterDeviceStatus : Nat := 31114
def Kinds.charterDeviceAudit : Nat := 31000

/-- Largest frame body, in bytes. -/
def maxFrame : Nat := 262144

/-- What the check of a wrap takes from outside: hashing and signatures, and the length of an
EVENT frame's body. -/
structure WrapCheck where
  crypto : Crypto
  bodyLen : NostrEvent → Nat

/-- Why a wrap may not travel over the link. -/
inductive WrapError
  | kind (kind : Nat)
  | recipientTags
  | wrongRecipient
  | id
  | signature
  | tooLarge
deriving DecidableEq

def WrapError.text : WrapError → String
  | kind k => "not a gift wrap (kind " ++ toString k ++ ")"
  | recipientTags => "wrap must carry exactly one p tag"
  | wrongRecipient => "wrap is addressed to someone else"
  | id => "wrap id does not match its content"
  | signature => "wrap signature is invalid"
  | tooLarge => "wrap does not fit in one frame"

/-- `validate_wrap_for`: shape and integrity, in the order of the source. -/
def validateWrapFor (check : WrapCheck) (wrap : NostrEvent) (recipient : PubKey) :
    Except WrapError Unit :=
  if wrap.kind ≠ Kinds.giftWrap then .error (.kind wrap.kind)
  else
    match wrap.tags.filter (·.head? = some "p") with
    | [p] =>
      if (p[1]?).bind PubKey.fromHex ≠ some recipient then .error .wrongRecipient
      else if !check.crypto.idIsConsistent wrap then .error .id
      else if !check.crypto.signatureIsValid wrap then .error .signature
      else if maxFrame < check.bodyLen wrap then .error .tooLarge
      else .ok ()
    | _ => .error .recipientTags

/-- A wrap is addressed to one device. -/
theorem validateWrapFor_recipient {check : WrapCheck} {wrap : NostrEvent} {m m' : PubKey}
    (h : validateWrapFor check wrap m = .ok ()) (h' : validateWrapFor check wrap m' = .ok ()) :
    m = m' := by
  have hnamed : ∀ {m}, validateWrapFor check wrap m = .ok () →
      ∃ p, wrap.tags.filter (·.head? = some "p") = [p] ∧
        (p[1]?).bind PubKey.fromHex = some m := by
    intro m h
    unfold validateWrapFor at h
    split at h
    · cases h
    split at h
    · rename_i p hp
      split at h
      · cases h
      · rename_i hm
        exact ⟨p, hp, not_not.mp hm⟩
    · cases h
  obtain ⟨p, hp, hm⟩ := hnamed h
  obtain ⟨p', hp', hm'⟩ := hnamed h'
  obtain rfl := (List.cons.inj (hp.symm.trans hp')).1
  exact Option.some.inj (hm.symm.trans hm')

/-! ## Answers -/

/-- The wire spelling, also that of the ACK digest. -/
def AckResult.asStr : AckResult → String
  | applied => "applied"
  | unchanged => "unchanged"
  | superseded => "superseded"
  | expired => "expired"
  | refused => "refused"
  | failed => "failed"
  | ignored => "ignored"

theorem AckResult.asStr_injective : Function.Injective AckResult.asStr := by
  intro r r' h
  cases r <;> cases r' <;> first | rfl | exact absurd h (by decide)

/-- A ward's signed report of what it did with one wrap. -/
structure Ack (σ : Type) where
  wrap : EventId
  result : AckResult
  ts : Nat
  sig : σ

/-! ## Frames -/

def protocolVersion : Nat := 1

/-- One frame, over the signatures `σ`. -/
inductive Frame (σ : Type)
  | hello (v : Nat) (challenge : BitVec 256)
  | challenge (v : Nat) (guardian : PubKey) (challenge : BitVec 256) (sig : σ)
  | auth (machine : PubKey) (sig : σ)
  | ready (v : Nat)
  | event (wrap : NostrEvent)
  | ok (wrap : EventId) (accepted : Bool) (reason : String)
  | ack (ack : Ack σ)
  | ping (n : Nat)
  | pong (n : Nat)
  | unknown (type : String)

end Kintrinsic
