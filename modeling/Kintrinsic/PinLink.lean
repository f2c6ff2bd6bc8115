import Kintrinsic.LinkProofs
import Kintrinsic.ScheduleEval
import Kintrinsic.Text

/-! # The link that a pairing is pinned from

A `bunker://` link names a guardian, relays and a kind.  The one that is built from an accepted offer
pins the guardian who made the offer. -/
namespace Kintrinsic

inductive PairingError
  | notBunkerUri
  | badGuardianPubkey
  | missingRelays
  | nonCharterKind
deriving DecidableEq

/-- A pinned pairing.  A relay is the bytes of its value; where they are no UTF-8 they are replaced
when they are made a text. -/
structure PinnedPairing where
  guardianPubkey : PubKey
  relays : List (List UInt8)
  machine : PubKey
  subjectPubkey : PubKey
  auditTransparency : Bool
  pairedAt : Nat
  relaysUpdatedAt : Option Nat
deriving DecidableEq

namespace PinLink

/-! ## Values -/

def bytesOf (s : List Char) : List UInt8 := (String.ofList s).toUTF8.data.toList

/-- `hex_val`. -/
def hexVal (b : UInt8) : Option UInt8 :=
  if 48 ≤ b ∧ b ≤ 57 then some (b - 48)
  else if 97 ≤ b ∧ b ≤ 102 then some (b - 87)
  else if 65 ≤ b ∧ b ≤ 70 then some (b - 55)
  else none

/-- `percent_decode`: an escape that is none stays as it is. -/
def percentDecode : List UInt8 → List UInt8
  | [] => []
  | b :: hi :: lo :: rest =>
    if b = 37 then
      match hexVal hi, hexVal lo with
      | some h, some l => (h * 16 + l) :: percentDecode rest
      | _, _ => b :: percentDecode (hi :: lo :: rest)
    else b :: percentDecode (hi :: lo :: rest)
  | b :: rest => b :: percentDecode rest

/-- The pairs of a query, each value decoded. -/
def queryPairs (query : List Char) : List (List Char × List UInt8) :=
  ((query.splitOn '&').filter (!·.isEmpty)).map fun pair =>
    let p := (splitOnce '=' pair).getD (pair, [])
    (p.1, percentDecode (bytesOf p.2))

/-! ## Links -/

/-- One pair more: whether there is a relay, and whether the last kind is the right one. -/
def checkPair (seen : Bool × Bool) (pair : List Char × List UInt8) :
    Except PairingError (Bool × Bool) :=
  if pair.1 = "relay".toList then
    if (bytesOf "wss://".toList).isPrefixOf pair.2 then .ok (true, seen.2)
    else .error .missingRelays
  else if pair.1 = "kind".toList then .ok (seen.1, decide (pair.2 = bytesOf "charter".toList))
  else .ok seen

/-- The check of the pairs. -/
def checkQuery (query : List Char) : Except PairingError Unit := do
  let (hasRelay, kindCharter) ← (queryPairs query).foldlM checkPair (false, false)
  if !hasRelay then .error .missingRelays
  else if !kindCharter then .error .nonCharterKind
  else .ok ()

/-- The key and the query of a link. -/
def parts (rest : List Char) : List Char × List Char := (splitOnce '?' rest).getD (rest, [])

/-- A link without the web address that may be around it. -/
def bareLink (link : List Char) : Option (List Char) :=
  match Text.stripPrefix "https://".toList link with
  | some _ => (splitOnce '#' link).map Prod.snd
  | none => some link

/-- `validate_and_normalize`: the bare link, without its scheme. -/
def validateAndNormalize (link : List Char) : Except PairingError (List Char) :=
  match (bareLink link).bind (Text.stripPrefix "bunker://".toList) with
  | none => .error .notBunkerUri
  | some rest =>
    if (PubKey.fromHex (String.ofList (parts rest).1)).isNone then .error .badGuardianPubkey
    else (checkQuery (parts rest).2).map fun _ => rest

/-- The pairing that a valid link is pinned as. -/
def pinned (rest : List Char) (guardian machine subject : PubKey) (now : Nat) : PinnedPairing :=
  let pairs := queryPairs (parts rest).2
  { guardianPubkey := guardian
    relays := (pairs.filter (·.1 = "relay".toList)).map Prod.snd
    machine
    subjectPubkey := subject
    auditTransparency := ((pairs.filter (·.1 = "audit".toList)).getLast?).any fun pair =>
      pair.2 = bytesOf "1".toList || pair.2 = bytesOf "true".toList
    pairedAt := now
    relaysUpdatedAt := some 0 }

/-- `pin_from_connect`. -/
def pinFromConnect (link : List Char) (machine subject : PubKey) (now : Nat) :
    Except PairingError PinnedPairing :=
  match validateAndNormalize link with
  | .error e => .error e
  | .ok rest =>
    match PubKey.fromHex (String.ofList (parts rest).1) with
    | none => .error .badGuardianPubkey
    | some guardian => .ok (pinned rest guardian machine subject now)

/-- `build_pairing_json`, before the pairing is written out. -/
def buildPairing (link : List Char) (machine subject : PubKey) (now : Nat) :
    Except PairingError PinnedPairing :=
  pinFromConnect (Text.trim link) machine subject now

/-- The link of an accepted offer. -/
def offerLink (guardian : PubKey) (relays : List String) : List Char :=
  "bunker://".toList ++ (guardian.toHex.toList ++ ('?' ::
    (['&'].intercalate (relays.map fun r => "relay=".toList ++ r.toList) ++ "&kind=charter".toList)))

/-! ## What is pinned -/

/-- What begins and ends with a letter is not trimmed. -/
theorem trim_of_ends {s init tail : List Char} {first last : Char} (hfirst : s = first :: tail)
    (hlast : s = init ++ [last]) (hspace : Text.isWhiteSpace first = false)
    (hspace' : Text.isWhiteSpace last = false) : Text.trim s = s := by
  have hdrop : s.dropWhile Text.isWhiteSpace = s := by
    rw [hfirst, List.dropWhile_cons_of_neg]
    rw [hspace]
    exact Bool.false_ne_true
  have hrev : s.reverse.dropWhile Text.isWhiteSpace = s.reverse := by
    rw [hlast, List.reverse_append, List.reverse_singleton, List.singleton_append,
      List.dropWhile_cons_of_neg]
    rw [hspace']
    exact Bool.false_ne_true
  unfold Text.trim Text.trimEndBy
  rw [hdrop, hrev, List.reverse_reverse]

theorem trim_offerLink (guardian : PubKey) (relays : List String) :
    Text.trim (offerLink guardian relays) = offerLink guardian relays := by
  have hlast : offerLink guardian relays =
      ("bunker://".toList ++ (guardian.toHex.toList ++ ('?' ::
        (['&'].intercalate (relays.map fun r => "relay=".toList ++ r.toList) ++
          "&kind=charte".toList)))) ++ ['r'] := by
    unfold offerLink
    rw [show "&kind=charter".toList = "&kind=charte".toList ++ ['r'] from rfl]
    simp only [List.append_assoc, List.cons_append]
  exact @trim_of_ends _ _ _ 'b' _ rfl hlast (by decide) (by decide)

theorem stripPrefix_append (pre s : List Char) : Text.stripPrefix pre (pre ++ s) = some s := by
  unfold Text.stripPrefix
  rw [if_pos (List.isPrefixOf_iff_prefix.mpr (List.prefix_append pre s)), List.drop_left]

theorem splitOnce_append {sep : Char} {before : List Char} (h : sep ∉ before) (rest : List Char) :
    splitOnce sep (before ++ sep :: rest) = some (before, rest) := by
  induction before with
  | nil =>
    unfold splitOnce
    exact if_pos rfl
  | cons c before ih =>
    have hne : c ≠ sep := fun heq => h (heq ▸ List.mem_cons_self)
    rw [List.cons_append]
    unfold splitOnce
    rw [if_neg hne, ih fun hmem => h (List.mem_cons_of_mem c hmem)]
    rfl

/-- The key of the offer's link. -/
theorem parts_offerLink (guardian : PubKey) (query : List Char) :
    parts (guardian.toHex.toList ++ '?' :: query) = (guardian.toHex.toList, query) := by
  have hmark : '?' ∉ guardian.toHex.toList := by
    unfold PubKey.toHex
    rw [String.toList_ofList]
    exact Hex.notMem_digits (by decide) 64 _
  unfold parts
  rw [splitOnce_append hmark]
  rfl

/-- A link that passes is what stood behind the scheme. -/
theorem validateAndNormalize_offerLink {guardian : PubKey} {relays : List String}
    {rest : List Char} (h : validateAndNormalize (offerLink guardian relays) = .ok rest) :
    (parts rest).1 = guardian.toHex.toList := by
  have hbare : bareLink (offerLink guardian relays) = some (offerLink guardian relays) := rfl
  unfold validateAndNormalize at h
  rw [hbare, Option.bind_some] at h
  unfold offerLink at h
  rw [stripPrefix_append] at h
  dsimp only at h
  rw [parts_offerLink] at h
  split at h
  · cases h
  · generalize checkQuery _ = checked at h
    cases checked with
    | error e => cases h
    | ok =>
      obtain rfl := Except.ok.inj h
      rw [parts_offerLink]

/-- **The offer's guardian is pinned**, for the machine and the subject. -/
theorem buildPairing_guardian {guardian machine subject : PubKey} {relays : List String} {now : Nat}
    {p : PinnedPairing}
    (h : buildPairing (offerLink guardian relays) machine subject now = .ok p) :
    p.guardianPubkey = guardian ∧ p.machine = machine ∧ p.subjectPubkey = subject := by
  unfold buildPairing at h
  rw [trim_offerLink] at h
  unfold pinFromConnect at h
  split at h
  · cases h
  · rename_i rest hrest
    rw [validateAndNormalize_offerLink hrest, String.ofList_toList, PubKey.fromHex_toHex] at h
    obtain rfl := Except.ok.inj h
    exact ⟨rfl, rfl, rfl⟩

end PinLink

end Kintrinsic
