import Kintrinsic.LinkHandshake

/-! # What the handshakes agree on

Between two states of a run the log grows by at most one event, and every event is written for a
reason the log already holds.  Signatures are ideal and challenges are drawn fresh. -/
namespace Kintrinsic

open GuardedRun

variable {δ σ W G : Type} {c : LinkCrypto δ σ}

/-! ## The attacker -/

def Frame.sig? : Frame σ → Option σ
  | .challenge _ _ _ sig => some sig
  | .auth _ sig => some sig
  | .ack a => some a.sig
  | _ => none

namespace LinkEvent

/-- The challenges an event mentions. -/
def challenges : LinkEvent W G σ → List (BitVec 256)
  | hello _ _ cw => [cw]
  | challenge _ _ cw cg _ => [cw, cg]
  | auth _ _ cw cg _ _ => [cw, cg]
  | session _ _ cw cg _ => [cw, cg]
  | _ => []

/-- The challenges drawn for an event. -/
def draws : LinkEvent W G σ → List (BitVec 256)
  | hello _ _ cw => [cw]
  | challenge _ _ _ cg _ => [cg]
  | _ => []

end LinkEvent

namespace LinkMove

def frame? : LinkMove W G σ → Option (Frame σ)
  | wardReads _ f => some f
  | guardianReads _ f _ => some f
  | _ => none

def draws : LinkMove W G σ → List (BitVec 256)
  | dial _ _ cw => [cw]
  | guardianReads _ _ cg => [cg]
  | _ => []

end LinkMove

section
variable (P : LinkParties c W G) (held : Set PubKey)

/-- What the attacker cannot do: a signature that verifies under a key it does not hold was made
before, and what is drawn was never seen. -/
structure Lawful (net : LinkNet W G σ) (move : LinkMove W G σ) : Prop where
  unforged : ∀ f, move.frame? = some f → ∀ sig, f.sig? = some sig → ∀ k ∉ held, ∀ d,
    c.schnorrVerify k d sig = true →
    ∃ e ∈ net.log, ∃ keys s sig', P.signed e = some (keys, s, sig') ∧ keys.key = k ∧
      c.digest s = d
  fresh : ∀ x ∈ move.draws, ∀ e ∈ net.log, x ∉ e.challenges

/-! ## Reasons -/

/-- What a guardian that takes a connection for a machine's knows. -/
def Vouched (log : List (LinkEvent W G σ)) (j : Nat) (g : G) (cw cg : BitVec 256)
    (machine : PubKey) : Prop :=
  (∃ sig, .challenge j g cw cg sig ∈ log) ∧
    (machine ∉ held → ∃ i w proof sig, (P.ward w).machine = machine ∧
      (P.ward w).guardian = (P.guardian g).key ∧ .auth i w cw cg proof sig ∈ log)

/-- What makes an event genuine: its signature is its keys' own, and AUTH follows a valid proof. -/
structure GenuineEvent (e : LinkEvent W G σ) : Prop where
  made : ∀ keys s sig, P.signed e = some (keys, s, sig) →
    c.schnorrSign keys.sk (c.digest s) = some sig
  checked : ∀ i w cw cg proof sig, e = .auth i w cw cg proof sig →
    c.guardianProofVerify cw cg (P.ward w).guardian proof = true

/-- What a state holds when an event is written over it. -/
def Reason (net : LinkNet W G σ) : LinkEvent W G σ → Prop
  | .auth i w cw cg _ _ =>
    .hello i w cw ∈ net.log ∧
      ((P.ward w).guardian ∉ held → ∃ j g sig, (P.guardian g).key = (P.ward w).guardian ∧
        .challenge j g cw cg sig ∈ net.log)
  | .session j g cw cg machine =>
    machine ∈ (net.listeners g).allowed ∧ Vouched P held net.log j g cw cg machine
  | _ => True

/-- An event that may be written over a state. -/
structure Writable (net : LinkNet W G σ) (e : LinkEvent W G σ) : Prop where
  genuine : GenuineEvent P e
  reason : Reason P held net e
  fresh : ∀ x ∈ e.draws, ∀ e' ∈ net.log, x ∉ e'.challenges

/-- **What one move can do.** -/
structure Progress (net net' : LinkNet W G σ) : Prop where
  greeted : ∀ i w cw, net'.wards i = some (w, .greeted cw) →
    net.wards i = some (w, .greeted cw) ∨ .hello i w cw ∈ net'.log
  challenged : ∀ j g cw cg, net'.guardians j = some (g, .challenged cw cg) →
    net.guardians j = some (g, .challenged cw cg) ∨ ∃ sig, .challenge j g cw cg sig ∈ net'.log
  authenticated : ∀ j g cw cg m, net'.guardians j = some (g, .authenticated cw cg m) →
    net.guardians j = some (g, .authenticated cw cg m) ∨ Vouched P held net'.log j g cw cg m
  log : net'.log = net.log ∨ ∃ e, net'.log = e :: net.log ∧ Writable P held net e

/-- **The invariant of a run.** -/
structure Sincere (net : LinkNet W G σ) : Prop where
  greeted : ∀ i w cw, net.wards i = some (w, .greeted cw) → .hello i w cw ∈ net.log
  challenged : ∀ j g cw cg, net.guardians j = some (g, .challenged cw cg) →
    ∃ sig, .challenge j g cw cg sig ∈ net.log
  authenticated : ∀ j g cw cg m, net.guardians j = some (g, .authenticated cw cg m) →
    Vouched P held net.log j g cw cg m
  genuine : ∀ e ∈ net.log, GenuineEvent P e
  fresh : net.log.Pairwise fun e e' => ∀ x ∈ e.draws, x ∉ e'.challenges

end

variable {P : LinkParties c W G} {held : Set PubKey} {net net' : LinkNet W G σ}

theorem Vouched.mono {log log' : List (LinkEvent W G σ)} (hsub : log ⊆ log') {j : Nat} {g : G}
    {cw cg : BitVec 256} {m : PubKey} (h : Vouched P held log j g cw cg m) :
    Vouched P held log' j g cw cg m := by
  obtain ⟨⟨sig, hsig⟩, hward⟩ := h
  refine ⟨⟨sig, hsub hsig⟩, ?_⟩
  intro hm
  obtain ⟨i, w, proof, sig', hmachine, hguardian, hauth⟩ := hward hm
  exact ⟨i, w, proof, sig', hmachine, hguardian, hsub hauth⟩

theorem Progress.writable {e : LinkEvent W G σ} (hp : Progress P held net net')
    (hlog : net'.log = e :: net.log) : Writable P held net e := by
  rcases hp.log with hsame | ⟨e', hcons, he'⟩
  · exact absurd (hlog.symm.trans hsame) (List.cons_ne_self e net.log)
  · obtain rfl := (List.cons.inj (hlog.symm.trans hcons)).1
    exact he'

theorem Progress.sincere (hp : Progress P held net net') (h : Sincere P held net) :
    Sincere P held net' := by
  have hsub : net.log ⊆ net'.log := by
    rcases hp.log with hlog | ⟨e, hlog, -⟩
    · rw [hlog]
      exact List.Subset.refl _
    · rw [hlog]
      exact List.subset_cons_self _ _
  refine ⟨?_, ?_, ?_, ?_, ?_⟩
  · intro i w cw hi
    rcases hp.greeted i w cw hi with hold | hnew
    · exact hsub (h.greeted i w cw hold)
    · exact hnew
  · intro j g cw cg hj
    rcases hp.challenged j g cw cg hj with hold | hnew
    · obtain ⟨sig, hsig⟩ := h.challenged j g cw cg hold
      exact ⟨sig, hsub hsig⟩
    · exact hnew
  · intro j g cw cg m hj
    rcases hp.authenticated j g cw cg m hj with hold | hnew
    · exact (h.authenticated j g cw cg m hold).mono hsub
    · exact hnew
  · rcases hp.log with hlog | ⟨e, hlog, he⟩
    · rw [hlog]
      exact h.genuine
    · rw [hlog]
      exact List.forall_mem_cons.mpr ⟨he.genuine, h.genuine⟩
  · rcases hp.log with hlog | ⟨e, hlog, he⟩
    · rw [hlog]
      exact h.fresh
    · rw [hlog]
      exact List.pairwise_cons.mpr ⟨fun e' he' x hx => he.fresh x hx e' he', h.fresh⟩

/-! ## What one move can do -/

theorem Sincere.start (listeners : G → GuardianState) :
    Sincere P held (.start listeners) := by
  refine ⟨?_, ?_, ?_, ?_, List.Pairwise.nil⟩
  · intro i w cw hi
    cases hi
  · intro j g cw cg hj
    cases hj
  · intro j g cw cg m hj
    cases hj
  · intro e he
    cases he

theorem Progress.refl (net : LinkNet W G σ) : Progress P held net net :=
  ⟨fun _ _ _ => Or.inl, fun _ _ _ _ => Or.inl, fun _ _ _ _ _ => Or.inl, Or.inl rfl⟩

theorem Progress.wardTo (i : Nat) (w : W) (phase : WardPhase) (events : List (LinkEvent W G σ))
    (hphase : ∀ cw, phase = .greeted cw → .hello i w cw ∈ events)
    (hevents : events = [] ∨ ∃ e, events = [e] ∧ Writable P held net e) :
    Progress P held net (net.wardTo i w phase events) := by
  refine ⟨?_, fun _ _ _ _ => Or.inl, fun _ _ _ _ _ => Or.inl, ?_⟩
  · intro i' w' cw hi'
    change Function.update net.wards i (some (w, phase)) i' = some (w', .greeted cw) at hi'
    by_cases heq : i' = i
    · subst heq
      rw [Function.update_self] at hi'
      obtain ⟨rfl, rfl⟩ := Prod.mk.inj (Option.some.inj hi')
      exact Or.inr (List.mem_append_left _ (hphase cw rfl))
    · rw [Function.update_of_ne heq] at hi'
      exact Or.inl hi'
  · rcases hevents with rfl | ⟨e, rfl, he⟩
    · exact Or.inl rfl
    · exact Or.inr ⟨e, rfl, he⟩

theorem Progress.guardianTo (listeners : G → GuardianState) (j : Nat) (g : G)
    (phase : GuardianPhase) (events : List (LinkEvent W G σ))
    (hchallenged : ∀ cw cg, phase = .challenged cw cg → ∃ sig, .challenge j g cw cg sig ∈ events)
    (hauthenticated : ∀ cw cg m, phase = .authenticated cw cg m →
      Vouched P held net.log j g cw cg m)
    (hevents : events = [] ∨ ∃ e, events = [e] ∧ Writable P held net e) :
    Progress P held net ({ net with listeners := listeners }.guardianTo j g phase events) := by
  have hat : ∀ {j' g' phase'}, Function.update net.guardians j (some (g, phase)) j' =
      some (g', phase') →
      net.guardians j' = some (g', phase') ∨ j' = j ∧ g' = g ∧ phase' = phase := by
    intro j' g' phase' hj'
    by_cases heq : j' = j
    · subst heq
      rw [Function.update_self] at hj'
      obtain ⟨rfl, rfl⟩ := Prod.mk.inj (Option.some.inj hj')
      exact Or.inr ⟨rfl, rfl, rfl⟩
    · rw [Function.update_of_ne heq] at hj'
      exact Or.inl hj'
  refine ⟨fun _ _ _ => Or.inl, ?_, ?_, ?_⟩
  · intro j' g' cw cg hj'
    rcases hat hj' with hold | ⟨rfl, rfl, hphase⟩
    · exact Or.inl hold
    · obtain ⟨sig, hsig⟩ := hchallenged cw cg hphase.symm
      exact Or.inr ⟨sig, List.mem_append_left _ hsig⟩
  · intro j' g' cw cg m hj'
    rcases hat hj' with hold | ⟨rfl, rfl, hphase⟩
    · exact Or.inl hold
    · exact Or.inr ((hauthenticated cw cg m hphase.symm).mono (List.subset_append_right _ _))
  · rcases hevents with rfl | ⟨e, rfl, he⟩
    · exact Or.inl rfl
    · exact Or.inr ⟨e, rfl, he⟩

/-- An event alone. -/
theorem Progress.writes {e : LinkEvent W G σ} (he : Writable P held net e) :
    Progress P held net { net with log := e :: net.log } :=
  ⟨fun _ _ _ => Or.inl, fun _ _ _ _ => Or.inl, fun _ _ _ _ _ => Or.inl, Or.inr ⟨e, rfl, he⟩⟩

/-! ## What the functions of the two ends check -/

theorem KeyPair.guardianProofSign_eq (g : KeyPair c) (cw cg : BitVec 256) :
    c.guardianProofSign g.sk cw cg =
      c.schnorrSign g.sk (c.digest (.guardianProof cw cg g.key)) := by
  rw [LinkCrypto.guardianProofSign, g.derived, Option.bind_some]

theorem WardEnd.wardProofSign_eq (w : WardEnd c) (cw cg : BitVec 256) (guardian : PubKey) :
    c.wardProofSign w.keys.sk cw cg guardian =
      c.schnorrSign w.keys.sk (c.digest (.wardProof cw cg guardian w.machine)) := by
  rw [LinkCrypto.wardProofSign, w.keys.derived, Option.bind_some, machine]

theorem WardEnd.onChallenge_ok {w : WardEnd c} {cw cg : BitVec 256} {f : Frame σ} {proof sw : σ}
    (h : w.onChallenge cw f = .ok (cg, proof, sw)) :
    f.sig? = some proof ∧ c.guardianProofVerify cw cg w.guardian proof = true ∧
      c.wardProofSign w.keys.sk cw cg w.guardian = some sw := by
  cases f with
  | challenge v guardian cg' sig =>
    unfold onChallenge at h
    dsimp only at h
    by_cases hv : v ≠ protocolVersion
    · rw [if_pos hv] at h
      cases h
    rw [if_neg hv] at h
    by_cases hpinned : guardian ≠ w.guardian
    · rw [if_pos hpinned] at h
      cases h
    rw [if_neg hpinned] at h
    obtain rfl := not_not.mp hpinned
    cases hverify : c.guardianProofVerify cw cg' w.guardian sig with
    | false => simp [hverify] at h
    | true =>
      cases hsign : c.wardProofSign w.keys.sk cw cg' w.guardian with
      | none => simp [hverify, hsign] at h
      | some sw' =>
        simp only [hverify, hsign, Bool.not_true, Bool.false_eq_true, if_false, Except.ok.injEq,
          Prod.mk.injEq] at h
        obtain ⟨rfl, rfl, rfl⟩ := h
        exact ⟨rfl, hverify, hsign⟩
  | _ => cases h

theorem KeyPair.onAuth_some {g : KeyPair c} {allowed : Finset PubKey} {cw cg : BitVec 256}
    {f : Frame σ} {machine : PubKey} (h : g.onAuth allowed cw cg f = some machine) :
    ∃ sig, f.sig? = some sig ∧ c.wardProofVerify cw cg g.key machine sig = true := by
  cases f with
  | auth m sig =>
    unfold onAuth at h
    dsimp only at h
    split at h
    · cases h
    · rename_i hnot
      cases h
      refine ⟨sig, rfl, ?_⟩
      simpa using (not_or.mp hnot).2
  | _ => cases h

theorem GuardianState.allowed_of_enter {st st' : GuardianState} {machine : PubKey}
    {localIp : IpAddr} {now started : Nat} {events : List GuardianEvent}
    (h : st.enter machine localIp now started = some (st', events)) : machine ∈ st.allowed := by
  unfold enter at h
  split at h
  · cases h
  · rename_i hbarred
    unfold barred at hbarred
    simp only [Bool.or_eq_true, decide_eq_true_eq, not_or, not_not] at hbarred
    exact hbarred.2

/-! ## Signatures in the log -/

theorem LinkParties.signed_guardianProof {e : LinkEvent W G σ} {keys : KeyPair c}
    {cw cg : BitVec 256} {guardian : PubKey} {sig : σ}
    (h : P.signed e = some (keys, .guardianProof cw cg guardian, sig)) :
    ∃ j g, e = .challenge j g cw cg sig ∧ (P.guardian g).key = guardian := by
  cases e with
  | challenge j g cw' cg' sig' =>
    cases h
    exact ⟨j, g, rfl, rfl⟩
  | _ => cases h

theorem LinkParties.signed_wardProof {e : LinkEvent W G σ} {keys : KeyPair c}
    {cw cg : BitVec 256} {guardian machine : PubKey} {sig : σ}
    (h : P.signed e = some (keys, .wardProof cw cg guardian machine, sig)) :
    ∃ i w proof, e = .auth i w cw cg proof sig ∧ (P.ward w).guardian = guardian ∧
      (P.ward w).machine = machine := by
  cases e with
  | auth i w cw' cg' proof sig' =>
    cases h
    exact ⟨i, w, proof, rfl, rfl, rfl⟩
  | _ => cases h

/-- A guardian proof that verifies under a key of no attacker was written in a CHALLENGE. -/
theorem Lawful.guardianProof (hideal : c.Ideal) {move : LinkMove W G σ}
    (hl : Lawful P held net move) {f : Frame σ} {sig : σ} (hf : move.frame? = some f)
    (hsig : f.sig? = some sig) {cw cg : BitVec 256} {guardian : PubKey} (hkey : guardian ∉ held)
    (hverify : c.guardianProofVerify cw cg guardian sig = true) :
    ∃ j g sig', (P.guardian g).key = guardian ∧ .challenge j g cw cg sig' ∈ net.log := by
  obtain ⟨e, he, keys, s, sig', hsigned, -, hdigest⟩ := hl.unforged f hf sig hsig _ hkey _ hverify
  obtain rfl := hideal.digest_injective hdigest
  obtain ⟨j, g, rfl, hg⟩ := LinkParties.signed_guardianProof hsigned
  exact ⟨j, g, sig', hg, he⟩

/-- A ward proof that verifies under a key of no attacker was written in an AUTH. -/
theorem Lawful.wardProof (hideal : c.Ideal) {move : LinkMove W G σ}
    (hl : Lawful P held net move) {f : Frame σ} {sig : σ} (hf : move.frame? = some f)
    (hsig : f.sig? = some sig) {cw cg : BitVec 256} {guardian machine : PubKey}
    (hkey : machine ∉ held)
    (hverify : c.wardProofVerify cw cg guardian machine sig = true) :
    ∃ i w proof sig', (P.ward w).machine = machine ∧ (P.ward w).guardian = guardian ∧
      .auth i w cw cg proof sig' ∈ net.log := by
  obtain ⟨e, he, keys, s, sig', hsigned, -, hdigest⟩ := hl.unforged f hf sig hsig _ hkey _ hverify
  obtain rfl := hideal.digest_injective hdigest
  obtain ⟨i, w, proof, rfl, hguardian, hmachine⟩ := LinkParties.signed_wardProof hsigned
  exact ⟨i, w, proof, sig', hmachine, hguardian, he⟩

/-! ## The moves -/

section
variable [DecidableEq G]

theorem Sincere.wardReads (hideal : c.Ideal) (h : Sincere P held net) (i : Nat) (f : Frame σ)
    (hl : Lawful P held net (.wardReads i f)) :
    Progress P held net (net.step P (.wardReads i f)) := by
  unfold LinkNet.step
  dsimp only
  split
  · rename_i w cw hi
    split
    · rename_i cg proof sw hok
      obtain ⟨hsig, hverify, hsign⟩ := WardEnd.onChallenge_ok hok
      refine .wardTo i w _ _ (fun _ heq => nomatch heq) (Or.inr ⟨_, rfl, ⟨?_, ?_⟩, ⟨?_, ?_⟩, ?_⟩)
      · intro keys s sig hs
        cases hs
        rwa [← WardEnd.wardProofSign_eq]
      · intro i' w' cw' cg' proof' sig' heq
        cases heq
        exact hverify
      · exact h.greeted i w cw hi
      · intro hkey
        exact hl.guardianProof hideal rfl hsig hkey hverify
      · exact fun x hx => nomatch hx
    · exact .wardTo i w _ _ (fun _ heq => nomatch heq) (Or.inl rfl)
  · split
    · exact .wardTo i _ _ _ (fun _ heq => nomatch heq) (Or.inl rfl)
    · exact .wardTo i _ _ _ (fun _ heq => nomatch heq) (Or.inl rfl)
  · exact .refl net

theorem Sincere.guardianReads (hideal : c.Ideal) (h : Sincere P held net) (j : Nat) (f : Frame σ)
    (cg : BitVec 256) (hl : Lawful P held net (.guardianReads j f cg)) :
    Progress P held net (net.step P (.guardianReads j f cg)) := by
  have hends : ∀ g, Progress P held net (net.guardianTo j g .ended []) := fun g =>
    .guardianTo net.listeners j g _ _ (fun _ _ heq => nomatch heq) (fun _ _ _ heq => nomatch heq)
      (Or.inl rfl)
  unfold LinkNet.step
  dsimp only
  split
  · rename_i g hj
    split
    · rename_i cw hhello
      split
      · rename_i sig hsign
        refine .guardianTo net.listeners j g _ _ ?_ (fun _ _ _ heq => nomatch heq)
          (Or.inr ⟨_, rfl, ⟨?_, ?_⟩, trivial, ?_⟩)
        · intro cw' cg' heq
          cases heq
          exact ⟨sig, List.mem_singleton_self _⟩
        · intro keys s sig' hs
          cases hs
          rwa [← KeyPair.guardianProofSign_eq]
        · exact fun _ _ _ _ _ _ heq => nomatch heq
        · exact hl.fresh
      · exact hends g
    · exact hends g
  · rename_i g cw cg' hj
    split
    · rename_i machine hauth
      obtain ⟨sig, hsig, hverify⟩ := KeyPair.onAuth_some hauth
      refine .guardianTo net.listeners j g _ _ (fun _ _ heq => nomatch heq) ?_ (Or.inl rfl)
      intro cw' cg'' m heq
      cases heq
      refine ⟨h.challenged j g cw cg' hj, ?_⟩
      intro hm
      exact hl.wardProof hideal rfl hsig hm hverify
    · exact hends g
  · exact .refl net

/-- **Step.** -/
theorem Sincere.progress (hideal : c.Ideal) (h : Sincere P held net) (move : LinkMove W G σ)
    (hl : Lawful P held net move) : Progress P held net (net.step P move) := by
  cases move with
  | dial i w cw =>
    unfold LinkNet.step
    dsimp only
    split
    · refine .wardTo i w _ _ ?_ (Or.inr ⟨_, rfl, ⟨?_, ?_⟩, trivial, ?_⟩)
      · intro cw' heq
        cases heq
        exact List.mem_singleton_self _
      · exact fun _ _ _ hs => by cases hs
      · exact fun _ _ _ _ _ _ heq => by cases heq
      · exact hl.fresh
    · exact .refl net
  | wardReads i f => exact h.wardReads hideal i f hl
  | wardEnds i =>
    unfold LinkNet.step
    dsimp only
    split
    · exact .wardTo i _ _ _ (fun _ heq => by cases heq) (Or.inl rfl)
    · exact .refl net
  | accept j g =>
    unfold LinkNet.step
    dsimp only
    split
    · exact .guardianTo net.listeners j g _ _ (fun _ _ heq => by cases heq)
        (fun _ _ _ heq => by cases heq) (Or.inl rfl)
    · exact .refl net
  | guardianReads j f cg => exact h.guardianReads hideal j f cg hl
  | enter j localIp now started =>
    unfold LinkNet.step
    dsimp only
    split
    · rename_i g cw cg machine hj
      split
      · rename_i st events henter
        refine .guardianTo _ j g _ _ (fun _ _ heq => by cases heq) (fun _ _ _ heq => by cases heq)
          (Or.inr ⟨_, rfl, ⟨?_, ?_⟩, ⟨?_, ?_⟩, ?_⟩)
        · exact fun _ _ _ hs => by cases hs
        · exact fun _ _ _ _ _ _ heq => by cases heq
        · exact GuardianState.allowed_of_enter henter
        · exact h.authenticated j g cw cg machine hj
        · exact fun x hx => by cases hx
      · exact .guardianTo net.listeners j g _ _ (fun _ _ heq => by cases heq)
          (fun _ _ _ heq => by cases heq) (Or.inl rfl)
    · exact .refl net
  | guardianEnds j =>
    unfold LinkNet.step
    dsimp only
    split
    · exact .guardianTo net.listeners j _ _ _ (fun _ _ heq => by cases heq)
        (fun _ _ _ heq => by cases heq) (Or.inl rfl)
    · exact .refl net
  | listener g st =>
    exact ⟨fun _ _ _ => Or.inl, fun _ _ _ _ => Or.inl, fun _ _ _ _ _ => Or.inl, Or.inl rfl⟩
  | ack i wrap result ts =>
    unfold LinkNet.step
    dsimp only
    split
    · rename_i w cw cg hi
      refine .writes ⟨⟨?_, ?_⟩, trivial, fun x hx => by cases hx⟩
      · intro keys s sig hs
        cases hs
        obtain ⟨sig, hsig⟩ := hideal.signs
          (c.digest (.ack (P.ward w).guardian (P.ward w).machine wrap result ts))
          (P.ward w).keys.derived
        rw [LinkCrypto.signAck, (P.ward w).keys.derived, Option.bind_some]
        dsimp only
        rw [WardEnd.machine] at hsig ⊢
        rw [hsig, Option.getD_some]
      · exact fun _ _ _ _ _ _ heq => by cases heq
    · exact .refl net
  | event party fields =>
    unfold LinkNet.step
    dsimp only
    split
    · rename_i sig hsign
      refine .writes ⟨⟨?_, ?_⟩, trivial, fun x hx => by cases hx⟩
      · intro keys s sig' hs
        cases hs
        exact hsign
      · exact fun _ _ _ _ _ _ heq => by cases heq
    · exact .refl net

/-- **Run.** -/
theorem Sincere.run (hideal : c.Ideal) {moves : List (LinkMove W G σ)}
    (hmoves : Obeys (LinkNet.step P) (Lawful P held) net moves) (h : Sincere P held net) :
    Sincere P held (moves.foldl (LinkNet.step P) net) :=
  hmoves.invariant (fun _ move hnet hl => (hnet.progress hideal move hl).sincere hnet) h

end

/-! ## Agreement -/

/-- What mentions a challenge was written after it was drawn. -/
theorem Sincere.after_hello (h : Sincere P held net) {i : Nat} {w : W} {cw : BitVec 256}
    (hello : .hello i w cw ∈ net.log) {e : LinkEvent W G σ} (he : e ∈ net.log)
    (hcw : cw ∈ e.challenges) :
    e = .hello i w cw ∨
      ∃ later earlier, net.log = later ++ .hello i w cw :: earlier ∧ e ∈ later := by
  obtain ⟨later, earlier, hlog⟩ := List.append_of_mem hello
  rw [hlog, List.mem_append, List.mem_cons] at he
  rcases he with hlater | rfl | hearlier
  · exact Or.inr ⟨later, earlier, hlog, hlater⟩
  · exact Or.inl rfl
  · have hfresh := h.fresh
    rw [hlog] at hfresh
    have hdrawn := (List.pairwise_cons.mp (List.pairwise_append.mp hfresh).2.1).1 e hearlier
    exact absurd hcw (hdrawn cw (List.mem_singleton_self cw))

/-- A challenge is drawn for one handshake. -/
theorem Sincere.hello_unique (h : Sincere P held net) {i i' : Nat} {w w' : W} {cw : BitVec 256}
    (hello : .hello i w cw ∈ net.log) (hello' : .hello i' w' cw ∈ net.log) : i' = i ∧ w' = w := by
  have hcw : cw ∈ (LinkEvent.hello i' w' cw : LinkEvent W G σ).challenges :=
    List.mem_singleton_self cw
  rcases h.after_hello hello hello' hcw with heq | ⟨later, earlier, hlog, hlater⟩
  · cases heq
    exact ⟨rfl, rfl⟩
  · have hfresh := h.fresh
    rw [hlog] at hfresh
    have hdrawn := (List.pairwise_append.mp hfresh).2.2 _ hlater _ List.mem_cons_self
    exact absurd (List.mem_singleton_self cw) (hdrawn cw (List.mem_singleton_self cw))

section
variable [DecidableEq G] (P) (held)

/-- What the two ends may conclude in a state, whatever comes next. -/
structure MutuallyAuthentic (net : LinkNet W G σ) : Prop where
  /-- A session opens for an allowed machine, whose own ward signed for the same challenges and
  this guardian, over a guardian proof it had checked. -/
  sessions : ∀ move j g cw cg machine, Lawful P held net move →
    (net.step P move).log = .session j g cw cg machine :: net.log →
    machine ∈ (net.listeners g).allowed ∧
      (∃ sig, .challenge j g cw cg sig ∈ net.log) ∧
      (machine ∉ held → ∃ i w proof sig, (P.ward w).machine = machine ∧
        (P.ward w).guardian = (P.guardian g).key ∧ .auth i w cw cg proof sig ∈ net.log ∧
        c.guardianProofVerify cw cg (P.guardian g).key proof = true)
  /-- A ward writes its key over a valid proof by its pinned guardian, made after the ward drew its
  challenge for this handshake and no other. -/
  keys : ∀ move i w cw cg proof sig, Lawful P held net move →
    (net.step P move).log = .auth i w cw cg proof sig :: net.log →
    c.guardianProofVerify cw cg (P.ward w).guardian proof = true ∧
      .hello i w cw ∈ net.log ∧
      (∀ i' w', .hello i' w' cw ∈ net.log → i' = i ∧ w' = w) ∧
      ((P.ward w).guardian ∉ held → ∃ later earlier j g sig',
        net.log = later ++ .hello i w cw :: earlier ∧ .challenge j g cw cg sig' ∈ later ∧
          (P.guardian g).key = (P.ward w).guardian)
  /-- A signature verifies as what it was made as. -/
  signatures : ∀ e ∈ net.log, ∀ keys s sig, P.signed e = some (keys, s, sig) →
    ∀ key s', c.schnorrVerify key (c.digest s') sig = true → key = keys.key ∧ s' = s

variable {P held}

theorem Sincere.mutuallyAuthentic (hideal : c.Ideal) (h : Sincere P held net) :
    MutuallyAuthentic P held net := by
  refine ⟨?_, ?_, ?_⟩
  · intro move j g cw cg machine hl hlog
    obtain ⟨hallowed, hchallenge, hward⟩ := ((h.progress hideal move hl).writable hlog).reason
    refine ⟨hallowed, hchallenge, ?_⟩
    intro hm
    obtain ⟨i, w, proof, sig, hmachine, hguardian, hauth⟩ := hward hm
    have hchecked := (h.genuine _ hauth).checked i w cw cg proof sig rfl
    rw [hguardian] at hchecked
    exact ⟨i, w, proof, sig, hmachine, hguardian, hauth, hchecked⟩
  · intro move i w cw cg proof sig hl hlog
    have hwritable := (h.progress hideal move hl).writable hlog
    obtain ⟨hello, hguardian⟩ := hwritable.reason
    refine ⟨hwritable.genuine.checked i w cw cg proof sig rfl, hello,
      fun i' w' => h.hello_unique hello, ?_⟩
    intro hkey
    obtain ⟨j, g, sig', hg, hchallenge⟩ := hguardian hkey
    rcases h.after_hello hello hchallenge List.mem_cons_self with
      heq | ⟨later, earlier, hsplit, hlater⟩
    · cases heq
    · exact ⟨later, earlier, j, g, sig', hsplit, hlater, hg⟩
  · intro e he keys s sig hs key s' hverify
    exact hideal.verifies_only keys.derived ((h.genuine e he).made keys s sig hs) hverify

/-- **Mutual authentication, in every run.** -/
theorem LinkNet.mutually_authentic (P : LinkParties c W G) (held : Set PubKey) (hideal : c.Ideal)
    (listeners : G → GuardianState) (moves : List (LinkMove W G σ))
    (hmoves : Obeys (LinkNet.step P) (Lawful P held) (.start listeners) moves) :
    MutuallyAuthentic P held (moves.foldl (LinkNet.step P) (.start listeners)) :=
  ((Sincere.start listeners).run hideal hmoves).mutuallyAuthentic hideal

end

/-! ### One handshake -/

namespace OneHandshake

/-- A signature names its key and its digest, a digest is its text, and a secret its own key. -/
def crypto : LinkCrypto String (Option (PubKey × String)) :=
  ⟨id, fun sk => some ⟨sk⟩, fun sk d => some (some (⟨sk⟩, d)),
    fun k d sig => decide (sig = some (k, d)), none⟩

theorem crypto_ideal : crypto.Ideal := by
  refine ⟨Function.injective_id, fun _ _ => ⟨_, rfl⟩, ?_⟩
  intro sk d sig k d' hsign hverify
  obtain rfl := Option.some.inj hsign
  obtain ⟨hk, hd⟩ := Prod.mk.inj (Option.some.inj (of_decide_eq_true hverify))
  exact ⟨congrArg some hk, hd.symm⟩

def parties : LinkParties crypto Unit Unit :=
  ⟨fun _ => ⟨⟨7, ⟨7⟩, rfl⟩, ⟨5⟩⟩, fun _ => ⟨5, ⟨5⟩, rfl⟩⟩

/-- A listener that allows the one machine. -/
def listeners : Unit → GuardianState := fun _ => ⟨false, true, none, {⟨7⟩}, .empty, 1, [], .empty⟩

def proof : Option (PubKey × String) :=
  some (⟨5⟩, crypto.digest (.guardianProof 11 12 ⟨5⟩))

def moves : List (LinkMove Unit Unit (Option (PubKey × String))) :=
  [.dial 0 () 11, .accept 0 (), .guardianReads 0 (.hello 1 11) 12,
    .wardReads 0 (.challenge 1 ⟨5⟩ 12 proof)]

theorem moves_lawful :
    Obeys (LinkNet.step parties) (Lawful parties ∅) (.start listeners) moves := by
  refine ⟨⟨?_, ?_⟩, ⟨?_, ?_⟩, ⟨?_, ?_⟩, ⟨?_, ?_⟩, trivial⟩
  · exact fun _ hf => nomatch hf
  · intro x hx e he
    cases he
  · exact fun _ hf => nomatch hf
  · exact fun _ hx => nomatch hx
  · intro f hf sig hsig
    cases hf
    cases hsig
  · intro x hx e he
    obtain rfl := List.mem_singleton.mp hx
    obtain rfl := List.mem_singleton.mp he
    decide
  · intro f hf sig hsig k _ d hverify
    cases hf
    cases hsig
    obtain ⟨rfl, rfl⟩ := Prod.mk.inj (Option.some.inj (of_decide_eq_true hverify))
    exact ⟨_, List.Mem.head _, _, _, _, rfl, rfl, rfl⟩
  · exact fun _ hx => nomatch hx

end OneHandshake

theorem LinkNet.mutually_authentic_oneHandshake :
    MutuallyAuthentic OneHandshake.parties ∅
      (OneHandshake.moves.foldl (LinkNet.step OneHandshake.parties)
        (.start OneHandshake.listeners)) :=
  LinkNet.mutually_authentic OneHandshake.parties ∅ OneHandshake.crypto_ideal
    OneHandshake.listeners OneHandshake.moves OneHandshake.moves_lawful

end Kintrinsic
