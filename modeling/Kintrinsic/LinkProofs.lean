import Kintrinsic.LinkTypes
import Mathlib.Tactic.Common

/-! # What the keys of the local link sign

The preimages of the two handshake proofs and of an answer, beside the event ids that the same keys
sign.  Hashing and Schnorr signatures are a `LinkCrypto`; what it is relied on for is that it is
ideal. -/
namespace Kintrinsic

/-! ## Preimages -/

def guardianDomain : String := "kintrinsic-local-v1/guardian"
def wardDomain : String := "kintrinsic-local-v1/ward"
def ackDomain : String := "kintrinsic-local-v1/ack"

def hex32 (b : BitVec 256) : String := String.ofList (Hex.digits 64 b.toNat)

/-- The exact text of the guardian proof. -/
def guardianProofPreimage (cw cg : BitVec 256) (guardian : PubKey) : String :=
  "\n".intercalate [guardianDomain, hex32 cw, hex32 cg, guardian.toHex]

/-- The exact text of the ward proof. -/
def wardProofPreimage (cw cg : BitVec 256) (guardian machine : PubKey) : String :=
  "\n".intercalate [wardDomain, hex32 cw, hex32 cg, guardian.toHex, machine.toHex]

/-- The exact text of an answer, its time in decimal. -/
def ackPreimage (guardian machine : PubKey) (wrap : EventId) (result : AckResult) (ts : Nat) :
    String :=
  "\n".intercalate
    [ackDomain, guardian.toHex, machine.toHex, hex32 wrap.bytes, result.asStr, ts.repr]

/-- What a key of the link signs.  An event id is the hash of a JSON array. -/
inductive LinkStatement
  | guardianProof (cw cg : BitVec 256) (guardian : PubKey)
  | wardProof (cw cg : BitVec 256) (guardian machine : PubKey)
  | ack (guardian machine : PubKey) (wrap : EventId) (result : AckResult) (ts : Nat)
  | event (fields : String)
deriving DecidableEq

namespace LinkStatement

def preimage : LinkStatement → String
  | guardianProof cw cg guardian => guardianProofPreimage cw cg guardian
  | wardProof cw cg guardian machine => wardProofPreimage cw cg guardian machine
  | ack guardian machine wrap result ts => ackPreimage guardian machine wrap result ts
  | event fields => "[" ++ fields

/-- The lines of a preimage; an event has none of its own. -/
def lines : LinkStatement → List String
  | guardianProof cw cg guardian => [guardianDomain, hex32 cw, hex32 cg, guardian.toHex]
  | wardProof cw cg guardian machine =>
    [wardDomain, hex32 cw, hex32 cg, guardian.toHex, machine.toHex]
  | ack guardian machine wrap result ts =>
    [ackDomain, guardian.toHex, machine.toHex, hex32 wrap.bytes, result.asStr, ts.repr]
  | event _ => []

end LinkStatement

theorem hex32_injective : Function.Injective hex32 := by
  intro b b' h
  have hlt : ∀ b : BitVec 256, b.toNat < 16 ^ 64 := fun b =>
    lt_of_lt_of_eq b.isLt (by norm_num)
  exact BitVec.eq_of_toNat_eq (Hex.digits_inj (hlt b) (hlt b') (String.ofList_injective h))

theorem PubKey.toHex_injective : Function.Injective PubKey.toHex := by
  intro k k' h
  have hbytes : k.bytes = k'.bytes := hex32_injective h
  cases k
  cases k'
  exact congrArg _ hbytes

theorem EventId.hex32_injective {w w' : EventId} (h : hex32 w.bytes = hex32 w'.bytes) :
    w = w' := by
  have hbytes : w.bytes = w'.bytes := Kintrinsic.hex32_injective h
  cases w
  cases w'
  exact congrArg _ hbytes

theorem repr_injective {m n : Nat} (h : m.repr = n.repr) : m = n := by
  have hdigits := congrArg (fun s : String => Nat.ofDigitChars 10 s.toList 0) h
  simpa only [Nat.toList_repr, Nat.ofDigitChars_ten_toDigits] using hdigits

/-- A text of one line. -/
def OneLine (s : String) : Prop := '\n' ∉ s.toList

theorem oneLine_hex32 (b : BitVec 256) : OneLine (hex32 b) := by
  unfold OneLine hex32
  rw [String.toList_ofList]
  exact Hex.newline_notMem_digits 64 _

theorem oneLine_toHex (k : PubKey) : OneLine k.toHex := oneLine_hex32 k.bytes

theorem oneLine_asStr (r : AckResult) : OneLine r.asStr := by
  unfold OneLine
  cases r <;> decide

theorem oneLine_repr (n : Nat) : OneLine n.repr := by
  intro h
  rw [Nat.toList_repr] at h
  exact absurd (Nat.isDigit_of_mem_toDigits (by omega) (by omega) h) (by decide)

/-- One-line texts are told from their joined text. -/
theorem intercalate_lines_injective {ls ls' : List String} (h : ∀ l ∈ ls, OneLine l)
    (h' : ∀ l ∈ ls', OneLine l) (hne : ls ≠ []) (hne' : ls' ≠ [])
    (heq : "\n".intercalate ls = "\n".intercalate ls') : ls = ls' := by
  have hsplit : ∀ {ls : List String}, (∀ l ∈ ls, OneLine l) → ls ≠ [] →
      ("\n".intercalate ls).toList.splitOn '\n' = ls.map String.toList := by
    intro ls h hne
    rw [String.toList_intercalate]
    refine List.splitOn_intercalate '\n' ?_ (by simpa using hne)
    intro l hl
    obtain ⟨s, hs, rfl⟩ := List.mem_map.mp hl
    exact h s hs
  have hmap : ls.map String.toList = ls'.map String.toList := by
    rw [← hsplit h hne, heq, hsplit h' hne']
  exact List.map_injective_iff.mpr (fun _ _ h => String.toList_injective h) hmap

namespace LinkStatement

theorem oneLine_of_mem_lines (s : LinkStatement) : ∀ l ∈ s.lines, OneLine l := by
  intro l hl
  cases s with
  | guardianProof cw cg guardian =>
    simp only [lines, List.mem_cons, List.not_mem_nil, or_false] at hl
    rcases hl with rfl | rfl | rfl | rfl
    · unfold OneLine; decide
    · exact oneLine_hex32 _
    · exact oneLine_hex32 _
    · exact oneLine_toHex _
  | wardProof cw cg guardian machine =>
    simp only [lines, List.mem_cons, List.not_mem_nil, or_false] at hl
    rcases hl with rfl | rfl | rfl | rfl | rfl
    · unfold OneLine; decide
    · exact oneLine_hex32 _
    · exact oneLine_hex32 _
    · exact oneLine_toHex _
    · exact oneLine_toHex _
  | ack guardian machine wrap result ts =>
    simp only [lines, List.mem_cons, List.not_mem_nil, or_false] at hl
    rcases hl with rfl | rfl | rfl | rfl | rfl | rfl
    · unfold OneLine; decide
    · exact oneLine_toHex _
    · exact oneLine_toHex _
    · exact oneLine_hex32 _
    · exact oneLine_asStr _
    · exact oneLine_repr _
  | event fields => cases hl

/-- A preimage is the event's array or its own lines. -/
theorem preimage_cases (s : LinkStatement) :
    (∃ fields, s = event fields) ∨ s.lines ≠ [] ∧ s.preimage = "\n".intercalate s.lines := by
  cases s with
  | guardianProof => exact Or.inr ⟨List.cons_ne_nil _ _, rfl⟩
  | wardProof => exact Or.inr ⟨List.cons_ne_nil _ _, rfl⟩
  | ack => exact Or.inr ⟨List.cons_ne_nil _ _, rfl⟩
  | event fields => exact Or.inl ⟨fields, rfl⟩

/-- An event's array is no proof and no answer. -/
theorem preimage_ne_event {s : LinkStatement} (hs : s.lines ≠ []) (fields : String) :
    s.preimage ≠ (event fields).preimage := by
  intro h
  have hhead := congrArg (·.toList.head?) h
  have hevent : (event fields).preimage.toList.head? = some '[' := by
    simp only [preimage, String.toList_append]
    rfl
  have hlink : s.preimage.toList.head? = some 'k' := by
    cases s with
    | event => exact absurd rfl hs
    | guardianProof cw cg guardian =>
      simp [preimage, guardianProofPreimage, guardianDomain]
    | wardProof cw cg guardian machine =>
      simp [preimage, wardProofPreimage, wardDomain]
    | ack guardian machine wrap result ts =>
      simp [preimage, ackPreimage, ackDomain]
  rw [hlink, hevent] at hhead
  exact absurd hhead (by decide)

/-- The first line names the type, the others the fields. -/
theorem lines_injective {s s' : LinkStatement} (hs : s.lines ≠ []) (h : s.lines = s'.lines) :
    s = s' := by
  cases s with
  | guardianProof cw cg guardian =>
    cases s' with
    | guardianProof cw' cg' guardian' =>
      simp only [lines, List.cons.injEq, true_and, and_true] at h
      obtain ⟨hcw, hcg, hguardian⟩ := h
      rw [hex32_injective hcw, hex32_injective hcg, PubKey.toHex_injective hguardian]
    | wardProof => exact absurd (List.cons.inj h).1 (by decide)
    | ack => exact absurd (List.cons.inj h).1 (by decide)
    | event => cases h
  | wardProof cw cg guardian machine =>
    cases s' with
    | guardianProof => exact absurd (List.cons.inj h).1 (by decide)
    | wardProof cw' cg' guardian' machine' =>
      simp only [lines, List.cons.injEq, true_and, and_true] at h
      obtain ⟨hcw, hcg, hguardian, hmachine⟩ := h
      rw [hex32_injective hcw, hex32_injective hcg, PubKey.toHex_injective hguardian,
        PubKey.toHex_injective hmachine]
    | ack => exact absurd (List.cons.inj h).1 (by decide)
    | event => cases h
  | ack guardian machine wrap result ts =>
    cases s' with
    | guardianProof => exact absurd (List.cons.inj h).1 (by decide)
    | wardProof => exact absurd (List.cons.inj h).1 (by decide)
    | ack guardian' machine' wrap' result' ts' =>
      simp only [lines, List.cons.injEq, true_and, and_true] at h
      obtain ⟨hguardian, hmachine, hwrap, hresult, hts⟩ := h
      rw [PubKey.toHex_injective hguardian, PubKey.toHex_injective hmachine,
        EventId.hex32_injective hwrap, AckResult.asStr_injective hresult, repr_injective hts]
    | event => cases h
  | event => exact absurd rfl hs

/-- **Every preimage names its type and its fields.** -/
theorem preimage_injective : Function.Injective preimage := by
  intro s s' h
  rcases s.preimage_cases with ⟨fields, rfl⟩ | ⟨hs, hlines⟩
  · rcases s'.preimage_cases with ⟨fields', rfl⟩ | ⟨hs', hlines'⟩
    · exact congrArg event (String.append_right_inj _ |>.mp h)
    · exact absurd h.symm (preimage_ne_event hs' fields)
  · rcases s'.preimage_cases with ⟨fields', rfl⟩ | ⟨hs', hlines'⟩
    · exact absurd h (preimage_ne_event hs fields')
    · rw [hlines, hlines'] at h
      exact lines_injective hs (intercalate_lines_injective s.oneLine_of_mem_lines
        s'.oneLine_of_mem_lines hs hs' h)

end LinkStatement

/-! ## Signatures -/

/-- Hashing and Schnorr signatures, over the digests `δ` and the signatures `σ`. -/
structure LinkCrypto (δ σ : Type) where
  sha256 : String → δ
  xonlyPubkey : BitVec 256 → Option PubKey
  schnorrSign : BitVec 256 → δ → Option σ
  schnorrVerify : PubKey → δ → σ → Bool
  zeroSig : σ

namespace LinkCrypto
variable {δ σ : Type} (c : LinkCrypto δ σ)

def digest (s : LinkStatement) : δ := c.sha256 s.preimage

/-- The guardian's CHALLENGE signature; none only for an invalid secret. -/
def guardianProofSign (guardianSk cw cg : BitVec 256) : Option σ :=
  (c.xonlyPubkey guardianSk).bind fun g =>
    c.schnorrSign guardianSk (c.digest (.guardianProof cw cg g))

def guardianProofVerify (cw cg : BitVec 256) (guardian : PubKey) (sig : σ) : Bool :=
  c.schnorrVerify guardian (c.digest (.guardianProof cw cg guardian)) sig

/-- The ward's AUTH signature; none only for an invalid secret. -/
def wardProofSign (machineSk cw cg : BitVec 256) (guardian : PubKey) : Option σ :=
  (c.xonlyPubkey machineSk).bind fun m =>
    c.schnorrSign machineSk (c.digest (.wardProof cw cg guardian m))

def wardProofVerify (cw cg : BitVec 256) (guardian machine : PubKey) (sig : σ) : Bool :=
  c.schnorrVerify machine (c.digest (.wardProof cw cg guardian machine)) sig

/-- Sign an answer.  An invalid secret leaves the all-zero signature. -/
def signAck (machineSk : BitVec 256) (guardian : PubKey) (wrap : EventId) (result : AckResult)
    (ts : Nat) : Ack σ :=
  ⟨wrap, result, ts,
    ((c.xonlyPubkey machineSk).bind fun m =>
      c.schnorrSign machineSk (c.digest (.ack guardian m wrap result ts))).getD c.zeroSig⟩

/-- Whether an answer is signed by a machine for a session with a guardian. -/
def verifyAck (ack : Ack σ) (guardian machine : PubKey) : Bool :=
  c.schnorrVerify machine (c.digest (.ack guardian machine ack.wrap ack.result ack.ts)) ack.sig

/-- What ideal hashing and signatures are: no two texts share a digest, a valid secret signs, and
a signature verifies for its own key and digest only. -/
structure Ideal : Prop where
  collisionFree : Function.Injective c.sha256
  signs : ∀ {sk k} d, c.xonlyPubkey sk = some k → ∃ sig, c.schnorrSign sk d = some sig
  binds : ∀ {sk d sig k d'}, c.schnorrSign sk d = some sig → c.schnorrVerify k d' sig = true →
    c.xonlyPubkey sk = some k ∧ d' = d

variable {c}

theorem Ideal.digest_injective (h : c.Ideal) : Function.Injective c.digest :=
  h.collisionFree.comp LinkStatement.preimage_injective

/-- **A signature verifies for what it was made for**, under the key it was made with. -/
theorem Ideal.verifies_only (h : c.Ideal) {sk : BitVec 256} {k k' : PubKey} {s s' : LinkStatement}
    {sig : σ} (hkey : c.xonlyPubkey sk = some k) (hsign : c.schnorrSign sk (c.digest s) = some sig)
    (hverify : c.schnorrVerify k' (c.digest s') sig = true) : k' = k ∧ s' = s := by
  obtain ⟨hkey', hdigest⟩ := h.binds hsign hverify
  exact ⟨Option.some.inj (hkey'.symm.trans hkey), h.digest_injective hdigest⟩

/-- An answer is one machine's, to one guardian. -/
theorem Ideal.verifyAck_signAck (h : c.Ideal) {sk : BitVec 256} {m : PubKey}
    (hkey : c.xonlyPubkey sk = some m) {guardian guardian' machine' : PubKey} {wrap : EventId}
    {result : AckResult} {ts : Nat}
    (hverify : c.verifyAck (c.signAck sk guardian wrap result ts) guardian' machine' = true) :
    guardian' = guardian ∧ machine' = m := by
  obtain ⟨sig, hsign⟩ := h.signs (c.digest (.ack guardian m wrap result ts)) hkey
  have hsig : (c.signAck sk guardian wrap result ts).sig = sig := by
    rw [signAck, hkey, Option.bind_some, hsign, Option.getD_some]
  unfold verifyAck at hverify
  rw [hsig] at hverify
  obtain ⟨hmachine, hstatement⟩ := h.verifies_only hkey hsign hverify
  cases hstatement
  exact ⟨rfl, hmachine⟩

end LinkCrypto

end Kintrinsic
