import Kintrinsic.GiftRuns
import Kintrinsic.IntakeRecords

/-! # Gifts on their way

Every gift travels in one slot of its child, which the tick samples.  A gift that was acknowledged
is paid by the next tick where it is the last of those stored since the tick before; one stored
after it takes its place unread. -/
namespace Kintrinsic

open EffectRun ExtensionLedger GuardedRun

/-- The clause stores, a child's ledger, and the gift clauses stored since the last tick. -/
structure GiftBox where
  files : ClauseFiles
  days : GiftDays
  unread : List String

inductive GiftBoxAction
  | deliver (event : NostrEvent) (io : IntakeIo)
  | tick (t : GiftTick)
  | work (w : LedgerWork)

/-- What is seen: a gift clause acknowledged as stored, and a tick with what it paid. -/
inductive GiftEffect
  | stored (body : String)
  | ticked (t : GiftTick) (paid : List Payment)

variable (zones : Zones) (crypto : Crypto) (codec : StandingCodec) (link : Link)
  (parse : String → Option GiftBody) (subject : PubKey)

/-- The gift a tick finds stored for the child; `parse` reads a gift body. -/
def ClauseFiles.giftRead (files : ClauseFiles) : Option GiftBody :=
  match files.get (.child subject) ClauseKind.gift.storeKey with
  | .ok (some json) => parse json
  | _ => none

namespace GiftBox

def step (box : GiftBox) : GiftBoxAction → GiftBox × List GiftEffect
  | .deliver event io =>
    let stored := storedFor crypto codec link (.child subject) .gift box.files io event
    ({ box with
        files := (clauseDisposition crypto codec link io box.files event).2
        unread := box.unread ++ stored.toList },
      stored.toList.map .stored)
  | .tick t =>
    let r := box.days.step zones (.tick (box.files.giftRead parse subject) t)
    ({ box with days := r.1, unread := [] }, [.ticked t r.2])
  | .work w => ({ box with days := (box.days.step zones (.work w)).1 }, [])

/-- The gift clauses stored since the last tick, and the ids paid so far. -/
def see (seen : List String × List String) : GiftEffect → List String × List String
  | .stored body => (seen.1 ++ [body], seen.2)
  | .ticked _ paid => ([], seen.2 ++ paid.map (·.body.id))

/-- Every gift stored since the last tick, and live at this one, has been paid once by it. -/
def PaysStored (seen : List String × List String) : GiftEffect → Prop
  | .stored _ => True
  | .ticked t paid => ∀ json ∈ seen.1, ∀ g ∈ t.live (parse json),
    (seen.2 ++ paid.map (·.body.id)).count g.1.id = 1

/-- Of the gifts stored since the last tick none is live but the last, and that one was not paid on
a day that is gone. -/
def OneUnread (box : GiftBox) : GiftBoxAction → Prop
  | .tick t => ∀ json ∈ box.unread, ∀ g ∈ t.live (parse json),
    (∃ last ∈ box.unread.getLast?, ∃ g' ∈ t.live (parse last), g'.1.id = g.1.id) ∧
      giftReqId g.1.id ∉ box.days.forget zones (.tick (box.files.giftRead parse subject) t)
  | _ => True

instance (seen : List String × List String) : ∀ e, Decidable (PaysStored parse seen e)
  | .stored _ => inferInstanceAs (Decidable True)
  | .ticked t paid => inferInstanceAs (Decidable (∀ json ∈ seen.1, ∀ g ∈ t.live (parse json),
      (seen.2 ++ paid.map (·.body.id)).count g.1.id = 1))

instance (box : GiftBox) : ∀ a, Decidable (OneUnread zones parse subject box a)
  | .tick t => inferInstanceAs (Decidable (∀ json ∈ box.unread, ∀ g ∈ t.live (parse json),
      (∃ last ∈ box.unread.getLast?, ∃ g' ∈ t.live (parse last), g'.1.id = g.1.id) ∧
        giftReqId g.1.id ∉ box.days.forget zones (.tick (box.files.giftRead parse subject) t)))
  | .deliver _ _ => inferInstanceAs (Decidable True)
  | .work _ => inferInstanceAs (Decidable True)

variable {zones crypto codec link parse subject}

/-- **The invariant**: the gift clause stored last is the one that is read, and the ledger remembers
what was paid. -/
structure Tracks (subject : PubKey) (box : GiftBox) (seen : List String × List String) : Prop where
  unread : seen.1 = box.unread
  read : ∀ last ∈ box.unread.getLast?,
    box.files.get (.child subject) ClauseKind.gift.storeKey = .ok (some last)
  paid : Remembered box.days.ledger.applied box.days.forgotten seen.2

theorem tracks_deliver {box : GiftBox} {seen : List String × List String}
    (h : Tracks subject box seen) (event : NostrEvent) (io : IntakeIo) :
    Tracks subject (step zones crypto codec link parse subject box (.deliver event io)).1
      ((step zones crypto codec link parse subject box (.deliver event io)).2.foldl see seen) := by
  have hget := clauseDisposition_get crypto codec link (.child subject) .gift box.files io event
  unfold step
  dsimp only
  cases hstored : storedFor crypto codec link (.child subject) .gift box.files io event with
  | none =>
    rw [hstored] at hget
    refine ⟨?_, ?_, h.paid⟩
    · rw [Option.toList_none, List.append_nil]
      exact h.unread
    · intro last hlast
      rw [Option.toList_none, List.append_nil] at hlast
      exact hget.trans (h.read last hlast)
  | some body =>
    rw [hstored] at hget
    refine ⟨congrArg (· ++ [body]) h.unread, ?_, h.paid⟩
    intro last hlast
    rw [Option.toList_some, List.getLast?_append, List.getLast?_singleton, Option.some_or] at hlast
    rw [← Option.some.inj hlast]
    exact hget

/-- A live gift that was not paid on a day that is gone has been paid once by the end of a tick that
reads it. -/
theorem count_of_tick {s : GiftDays} {paid : List String}
    (h : Remembered s.ledger.applied s.forgotten paid) {stored : Option GiftBody} {t : GiftTick}
    {body : GiftBody} {minutes : Nat} (hlive : t.live stored = some (body, minutes))
    (hid : giftReqId body.id ∉ s.forget zones (.tick stored t)) :
    (paid ++ s.paysIds zones (.tick stored t)).count body.id = 1 := by
  have hnext : Remembered (giftStep zones s.ledger stored t).2.applied
      (s.forget zones (.tick stored t)) (paid ++ s.paysIds zones (.tick stored t)) :=
    GiftDays.remembered_step zones h (.tick stored t)
  have happlied : giftReqId body.id ∈ (giftStep zones s.ledger stored t).2.applied := by
    rw [(giftStep_pays zones s.ledger hlive).2]
    split
    · assumption
    · exact List.mem_append_right _ (List.mem_singleton_self _)
  have hpos := List.count_pos_iff.mpr happlied
  have honce := hnext.once body.id
  rw [hnext.count, List.count_eq_zero_of_not_mem hid]
  omega

theorem tracks_tick (crypto : Crypto) (codec : StandingCodec) (link : Link) {box : GiftBox}
    {seen : List String × List String}
    (h : Tracks subject box seen) {t : GiftTick} (hone : box.OneUnread zones parse subject (.tick t)) :
    PaysStored parse seen (.ticked t
        (box.days.step zones (.tick (box.files.giftRead parse subject) t)).2) ∧
      Tracks subject (step zones crypto codec link parse subject box (.tick t)).1
        (see seen (.ticked t
          (box.days.step zones (.tick (box.files.giftRead parse subject) t)).2)) := by
  refine ⟨?_, rfl, (fun last hlast => by cases hlast), GiftDays.remembered_step zones h.paid _⟩
  intro json hjson g hg
  rw [h.unread] at hjson
  obtain ⟨⟨last, hlast, g', hlive, hid⟩, hforgotten⟩ := hone json hjson g hg
  have hread : box.files.giftRead parse subject = parse last := by
    unfold ClauseFiles.giftRead
    rw [h.read last hlast]
  rw [hread] at hforgotten ⊢
  rw [← hid] at hforgotten ⊢
  exact count_of_tick h.paid hlive hforgotten

/-- **A stored gift is paid by the next tick**, once, in every run in which no tick finds a second
live gift stored since the one before, nor the id of one paid on a day that is gone. -/
theorem stored_gift_paid (tz : String) (made : Int) (files : ClauseFiles) (as : List GiftBoxAction)
    (h : Obeys (fun b a => (step zones crypto codec link parse subject b a).1)
      (OneUnread zones parse subject) ⟨files, .start zones tz made, []⟩ as) :
    Obeys see (PaysStored parse) ([], [])
      (effects (step zones crypto codec link parse subject) ⟨files, .start zones tz made, []⟩ as) := by
  have hstart : Tracks subject ⟨files, .start zones tz made, []⟩ ([], []) :=
    ⟨rfl, (fun last hlast => by cases hlast), GiftDays.remembered_start zones tz made⟩
  refine effects_obey_of ?_ hstart h
  intro box seen a ha hseen
  cases a with
  | deliver event io =>
    refine ⟨?_, tracks_deliver hseen event io⟩
    unfold step
    dsimp only
    cases storedFor crypto codec link (.child subject) .gift box.files io event with
    | none => trivial
    | some body => exact ⟨trivial, trivial⟩
  | tick t =>
    obtain ⟨hpays, hnext⟩ := tracks_tick crypto codec link hseen ha
    exact ⟨⟨hpays, trivial⟩, hnext⟩
  | work w =>
    refine ⟨trivial, hseen.unread, hseen.read, ?_⟩
    have hnext := GiftDays.remembered_step zones hseen.paid (.work w)
    have hnone : box.days.paysIds zones (.work w) = [] := rfl
    rw [hnone, List.append_nil] at hnext
    exact hnext

/-! ## Two gifts of one morning -/

/-- The body of a gift for Monday, and the clause it arrives in. -/
def giftText (id : String) : String :=
  "\x7b\"v\":1,\"issuedAt\":10,\"id\":\"" ++ id ++ "\",\"minutes\":30,\"expiresAt\":1782777600\x7d"

def giftClause (id : String) (issuedAt : Nat) : String :=
  "\x7b\"v\":1,\"kind\":\"gift\",\"issuedAt\":" ++ toString issuedAt ++ ",\"body\":" ++ giftText id ++
    "\x7d"

/-- The decoders, on the texts at hand. -/
def giftCodec : StandingCodec where
  clause s :=
    if s = giftClause "g1" 10 then .ok ⟨1, .gift, none, 10, giftText "g1"⟩
    else if s = giftClause "g2" 11 then .ok ⟨1, .gift, none, 11, giftText "g2"⟩
    else .error "missing field"
  usageSync _ := .error "missing field"
  release _ := .error "missing field"
  usageSyncJson _ := "\x7b\x7d"
  value s := some s

def giftParse (s : String) : Option GiftBody :=
  if s = giftText "g1" then some halfHour
  else if s = giftText "g2" then some { halfHour with id := "g2" }
  else none

def deliverGift (id : String) (issuedAt : Nat) : GiftBoxAction :=
  .deliver ⟨⟨1⟩, ⟨7⟩, 1000, Kinds.charterDeviceClause, [], giftClause id issuedAt, ⟨0⟩⟩ .ok

def freshGiftBox : GiftBox := ⟨.empty, .start twoZones "UTC" 1782734400, []⟩

def noonTick : GiftTick := quietTick 1782734400 (by decide)

/-- One gift, delivered and found by the next tick. -/
theorem stored_gift_paid_one :
    Obeys see (PaysStored giftParse) ([], [])
      (effects (step twoZones genuineCrypto giftCodec deviceLink giftParse ⟨8⟩) freshGiftBox
        [deliverGift "g1" 10, .tick noonTick]) := by
  exact stored_gift_paid "UTC" 1782734400 .empty _ (by decide +kernel)

/-- **Two gifts before one tick**: both are acknowledged as stored, and the first is never paid. -/
theorem not_stored_gift_paid_two :
    ¬Obeys see (PaysStored giftParse) ([], [])
      (effects (step twoZones genuineCrypto giftCodec deviceLink giftParse ⟨8⟩) freshGiftBox
        [deliverGift "g1" 10, deliverGift "g2" 11, .tick noonTick]) := by
  decide +kernel

end GiftBox
end Kintrinsic
