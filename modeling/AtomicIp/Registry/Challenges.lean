import AtomicIp.Lib.Index
import AtomicIp.Registry.Tables

/-!
Challenges to prove that an IP is one's own. A response is checked against the commitment the IP
has when it is verified, and may be replaced at any time; the mark of the verification stays.
-/

set_option autoImplicit false

namespace AtomicIp.IpRegistry

open Function Tx

def getOwnershipChallenge (challengeId : ℕ) (s : State) : Option OwnershipChallenge :=
  s.ownershipChallenge challengeId

def proofOf (crypto : Crypto) (commitmentHash nonce : BytesN 32) : BytesN 32 :=
  crypto.sha256 (commitmentHash.bytes ++ nonce.bytes)

structure Challenges where
  challenge : ℕ → Option OwnershipChallenge
  nextId : ℕ

def State.challenges (s : State) : Challenges where
  challenge := s.ownershipChallenge
  nextId := s.nextChallengeId.getD 1

namespace Challenges

variable (c : Challenges)

def set (id : ℕ) (challenge : OwnershipChallenge) : Challenges :=
  { c with challenge := update c.challenge id (some challenge) }

/-- A new challenge, not answered yet. -/
def issue (ipId : ℕ) (challenger : Address) (nonce : BytesN 32) (timestamp : ℕ) : Challenges where
  challenge := update c.challenge c.nextId
    (some ⟨c.nextId, ipId, challenger, nonce, none, false, timestamp⟩)
  nextId := c.nextId + 1

end Challenges

section Calls

variable {crypto : Crypto} {env : Env} {s s' : State} {act : Act} {u : Unit} {id ipId : ℕ}
  {challenger : Address} {nonce response : BytesN 32}

theorem issueOwnershipChallenge_ok
    (h : issueOwnershipChallenge env ipId challenger nonce s = .ok (id, s')) :
    s'.challenges = s.challenges.issue ipId challenger nonce env.timestamp := by
  simp [issueOwnershipChallenge] at h
  obtain ⟨-, -, -, rfl, rfl⟩ := h
  rfl

theorem respondToOwnershipChallenge_ok
    (h : respondToOwnershipChallenge env id response s = .ok (u, s')) :
    ∃ challenge, s.ownershipChallenge id = some challenge ∧
      s'.challenges = s.challenges.set id { challenge with responseHash := some response } := by
  simp [respondToOwnershipChallenge] at h
  obtain ⟨challenge, hchallenge, -, -, -, rfl⟩ := h
  exact ⟨challenge, hchallenge, rfl⟩

theorem verifyOwnershipChallenge_ok :
    verifyOwnershipChallenge env id s = .ok (true, s') ↔
      ∃ challenge r, s.ownershipChallenge id = some challenge ∧
        s.ipRecord challenge.ipId = some r ∧
        challenge.responseHash = some (proofOf env.crypto r.commitmentHash challenge.nonce) ∧
        s' = s.setOwnershipChallenge id (some { challenge with verified := true }) := by
  simp only [verifyOwnershipChallenge, Tx.bind_ok, requireChallenge_ok]
  constructor
  · intro h
    obtain ⟨challenge, s₁, ⟨hchallenge, rfl⟩, h⟩ := h
    cases hresponse : challenge.responseHash with
    | none => simp [hresponse] at h
    | some response =>
      simp [hresponse] at h
      obtain ⟨r, hr, hset, hvalid⟩ := h
      have hset' := hset.resolve_right fun hfails => hfails.1 hvalid
      refine ⟨challenge, r, hchallenge, hr, ?_, ?_⟩
      · rw [hresponse, hvalid, proofOf]
      · rw [hset'.2, hresponse]
  · intro h
    obtain ⟨challenge, r, hchallenge, hr, hresponse, rfl⟩ := h
    rw [State.ipRecord_ledger] at hr
    refine ⟨challenge, s, ⟨hchallenge, rfl⟩, ?_⟩
    rw [hresponse]
    simp [hr, proofOf]

theorem verifyOwnershipChallenge_failed
    (h : verifyOwnershipChallenge env id s = .ok (false, s')) : s' = s := by
  simp only [verifyOwnershipChallenge, Tx.bind_ok, requireChallenge_ok] at h
  obtain ⟨challenge, s₁, ⟨hchallenge, rfl⟩, h⟩ := h
  cases hresponse : challenge.responseHash with
  | none => simpa [hresponse] using h
  | some response =>
    simp [hresponse] at h
    obtain ⟨r, hr, hset, hinvalid⟩ := h
    exact (hset.resolve_left fun hvalid => hinvalid hvalid.1).2

inductive Challenging (crypto : Crypto) (act : Act) (s s' : State) : Prop where
  | kept (hcall : ∀ id response, act.call ≠ .respondToOwnershipChallenge id response)
      (h : s'.challenges = s.challenges)
  | issued (ipId : ℕ) (challenger : Address) (nonce : BytesN 32)
      (hcall : act.call = .issueOwnershipChallenge ipId challenger nonce)
      (h : s'.challenges = s.challenges.issue ipId challenger nonce act.timestamp)
  | responded (id : ℕ) (response : BytesN 32) (challenge : OwnershipChallenge)
      (hcall : act.call = .respondToOwnershipChallenge id response)
      (hold : s.ownershipChallenge id = some challenge)
      (h : s'.challenges = s.challenges.set id { challenge with responseHash := some response })
  | verified (id : ℕ) (challenge : OwnershipChallenge) (r : IpRecord)
      (hcall : act.call = .verifyOwnershipChallenge id)
      (hvalid : verifyOwnershipChallenge (act.env crypto) id s = .ok (true, s'))
      (hold : s.ownershipChallenge id = some challenge)
      (hr : s.ipRecord challenge.ipId = some r)
      (hresponse : challenge.responseHash =
        some (proofOf crypto r.commitmentHash challenge.nonce))
      (h : s'.challenges = s.challenges.set id { challenge with verified := true })

theorem blind_challenges {t : Table} (h : t ≠ .challenges) : Blind t State.challenges := by
  cases t with
  | challenges => exact absurd rfl h
  | _ => exact ⟨fun _ => rfl⟩

theorem ActStep.challenging (hact : ActStep crypto s act s') : Challenging crypto act s s' := by
  obtain ⟨timestamp, auths, budget, call⟩ := act
  unfold ActStep at hact
  cases call with
  | issueOwnershipChallenge ipId challenger nonce =>
    obtain ⟨id, h⟩ := void_ok.mp hact
    exact .issued ipId challenger nonce rfl (issueOwnershipChallenge_ok h)
  | respondToOwnershipChallenge id response =>
    obtain ⟨challenge, hold, h⟩ := respondToOwnershipChallenge_ok hact
    exact .responded id response challenge rfl hold h
  | verifyOwnershipChallenge id =>
    obtain ⟨valid, h⟩ := void_ok.mp hact
    cases valid with
    | false => exact .kept (by simp) (by rw [verifyOwnershipChallenge_failed h])
    | true =>
      obtain ⟨challenge, r, hold, hr, hresponse, hs'⟩ := verifyOwnershipChallenge_ok.mp h
      exact .verified id challenge r rfl h hold hr hresponse (by rw [hs']; rfl)
  | _ =>
    refine .kept (by simp) (exec_frame State.challenges hact fun t ht => blind_challenges ?_)
    rintro rfl
    simp [Call.writes] at ht

end Calls

section Proofs

variable {crypto : Crypto} {s s' : State} {act : Act} {id : ℕ} {response : BytesN 32}
  {challenge : OwnershipChallenge} {tr : List (Act × State)}

/-- Ids are given out once, and a challenge stays the same question. -/
structure ChallengesLast (tr : List (Act × State)) (s : State) : Prop where
  numbered : ∀ id challenge, s.ownershipChallenge id = some challenge → id < s.challenges.nextId
  lasting : ∀ past a act b, (past, a, act, b) ∈ steps State.empty tr → ∀ id challenge,
    a.ownershipChallenge id = some challenge → ∃ later, s.ownershipChallenge id = some later ∧
      later.ipId = challenge.ipId ∧ later.nonce = challenge.nonce

/-- Where a stored challenge comes from: the state before, or the call. -/
inductive ChallengeSource (crypto : Crypto) (act : Act) (s s' : State) (id : ℕ)
    (challenge : OwnershipChallenge) : Prop where
  | kept (hold : s.ownershipChallenge id = some challenge)
  | issued (hid : id = s.challenges.nextId) (hnext : s.challenges.nextId < s'.challenges.nextId)
      (hopen : challenge.verified = false)
  | responded (response : BytesN 32) (old : OwnershipChallenge)
      (hcall : act.call = .respondToOwnershipChallenge id response)
      (hold : s.ownershipChallenge id = some old)
      (h : challenge = { old with responseHash := some response })
  | verified (old : OwnershipChallenge) (r : IpRecord)
      (hcall : act.call = .verifyOwnershipChallenge id)
      (hvalid : verifyOwnershipChallenge (act.env crypto) id s = .ok (true, s'))
      (hold : s.ownershipChallenge id = some old) (hr : s.ipRecord old.ipId = some r)
      (hresponse : old.responseHash = some (proofOf crypto r.commitmentHash old.nonce))
      (h : challenge = { old with verified := true })

theorem Challenging.source (h : Challenging crypto act s s')
    (hlater : s'.ownershipChallenge id = some challenge) :
    ChallengeSource crypto act s s' id challenge := by
  have hentry : s'.challenges.challenge id = some challenge := hlater
  cases h with
  | kept _ h =>
    rw [h] at hentry
    exact .kept hentry
  | issued ipId challenger nonce _ h =>
    have hnext : s.challenges.nextId < s'.challenges.nextId := by
      rw [h]
      exact Nat.lt_succ_self _
    rw [h] at hentry
    rcases update_eq_some hentry with ⟨hid, rfl⟩ | ⟨-, hold⟩
    · exact .issued hid hnext rfl
    · exact .kept hold
  | responded id' response old hcall hold h =>
    rw [h] at hentry
    rcases update_eq_some hentry with ⟨rfl, rfl⟩ | ⟨-, hkept⟩
    · exact .responded response old hcall hold rfl
    · exact .kept hkept
  | verified id' old r hcall hvalid hold hr hresponse h =>
    rw [h] at hentry
    rcases update_eq_some hentry with ⟨rfl, rfl⟩ | ⟨-, hkept⟩
    · exact .verified old r hcall hvalid hold hr hresponse rfl
    · exact .kept hkept

theorem Challenging.nextId_le (h : Challenging crypto act s s') :
    s.challenges.nextId ≤ s'.challenges.nextId := by
  cases h with
  | issued _ _ _ _ h =>
    rw [h]
    exact Nat.le_succ _
  | kept _ h | responded _ _ _ _ _ h | verified _ _ _ _ _ _ _ _ h =>
    exact Nat.le_of_eq (congrArg (·.nextId) h).symm

theorem challenge_rewritten {old rewritten : OwnershipChallenge} {id' : ℕ}
    (h : s'.challenges = s.challenges.set id' rewritten)
    (hold : s.ownershipChallenge id' = some old) (hipId : rewritten.ipId = old.ipId)
    (hnonce : rewritten.nonce = old.nonce) (hthere : s.ownershipChallenge id = some challenge) :
    ∃ later, s'.ownershipChallenge id = some later ∧ later.ipId = challenge.ipId ∧
      later.nonce = challenge.nonce := by
  have hset : s'.ownershipChallenge = update s.ownershipChallenge id' (some rewritten) :=
    congrArg Challenges.challenge h
  rw [hset]
  by_cases hid : id = id'
  · subst hid
    obtain rfl := Option.some.inj (hold.symm.trans hthere)
    exact ⟨rewritten, update_self .., hipId, hnonce⟩
  · exact ⟨challenge, (update_of_ne hid _ _).trans hthere, rfl, rfl⟩

theorem Challenging.lasts (h : Challenging crypto act s s') (hid : id < s.challenges.nextId)
    (hthere : s.ownershipChallenge id = some challenge) :
    ∃ later, s'.ownershipChallenge id = some later ∧ later.ipId = challenge.ipId ∧
      later.nonce = challenge.nonce := by
  cases h with
  | kept _ h =>
    have hsame : s'.ownershipChallenge = s.ownershipChallenge := congrArg Challenges.challenge h
    exact ⟨challenge, by rw [hsame, hthere], rfl, rfl⟩
  | issued ipId challenger nonce _ h =>
    have hset : s'.ownershipChallenge = update s.ownershipChallenge s.challenges.nextId _ :=
      congrArg Challenges.challenge h
    refine ⟨challenge, ?_, rfl, rfl⟩
    rw [hset, update_of_ne (Nat.ne_of_lt hid), hthere]
  | responded id' response old _ hold h => exact challenge_rewritten h hold rfl rfl hthere
  | verified id' old r _ _ hold _ _ h => exact challenge_rewritten h hold rfl rfl hthere

theorem ChallengesLast.empty : ChallengesLast [] State.empty where
  numbered id challenge h := by simp [State.empty] at h
  lasting past a act b h := by simp [steps] at h

theorem ChallengesLast.step (h : ChallengesLast tr s) (hnow : now State.empty tr = s)
    (hact : ActStep crypto s act s') : ChallengesLast ((act, s') :: tr) s' where
  numbered id challenge hthere := by
    have hle := hact.challenging.nextId_le
    cases hact.challenging.source hthere with
    | kept hold => exact Nat.lt_of_lt_of_le (h.numbered id challenge hold) hle
    | issued hid hnext _ => exact hid ▸ hnext
    | responded response old _ hold _ => exact Nat.lt_of_lt_of_le (h.numbered id old hold) hle
    | verified old r _ _ hold _ _ _ => exact Nat.lt_of_lt_of_le (h.numbered id old hold) hle
  lasting past a act' b hmem id challenge hthere := by
    simp only [steps, hnow, List.mem_cons, Prod.mk.injEq] at hmem
    rcases hmem with ⟨-, rfl, -, -⟩ | hearlier
    · exact hact.challenging.lasts (h.numbered id challenge hthere) hthere
    · obtain ⟨later, hlater, hipId, hnonce⟩ := h.lasting past a act' b hearlier id challenge hthere
      obtain ⟨last, hlast, hipId', hnonce'⟩ :=
        hact.challenging.lasts (h.numbered id later hlater) hlater
      exact ⟨last, hlast, hipId'.trans hipId, hnonce'.trans hnonce⟩

/-- The challenge was verified by its proof for the commitment its IP had at the time. -/
def VerifiedBy (crypto : Crypto) (tr : List (Act × State)) (id : ℕ)
    (challenge : OwnershipChallenge) (commitmentHash : BytesN 32) : Prop :=
  Happened (fun a act b => act.call = .verifyOwnershipChallenge id ∧
    verifyOwnershipChallenge (act.env crypto) id a = .ok (true, b) ∧
      ∃ r, a.ipRecord challenge.ipId = some r ∧ r.commitmentHash = commitmentHash) State.empty tr

/-- The response of a verified challenge proves a commitment the IP had when it was verified. -/
def VerifiedResponses (crypto : Crypto) (tr : List (Act × State)) (s : State) : Prop :=
  ∀ id challenge, getOwnershipChallenge id s = some challenge → challenge.verified = true →
    ∃ commitmentHash, challenge.responseHash =
      some (crypto.sha256 (commitmentHash.bytes ++ challenge.nonce.bytes)) ∧
        VerifiedBy crypto tr id challenge commitmentHash

/-- The challenge was verified while this was its response. -/
def Accepted (crypto : Crypto) (tr : List (Act × State)) (id : ℕ) (response : BytesN 32) : Prop :=
  Happened (fun a act b => act.call = .verifyOwnershipChallenge id ∧
    verifyOwnershipChallenge (act.env crypto) id a = .ok (true, b) ∧
      ∃ challenge, a.ownershipChallenge id = some challenge ∧
        challenge.responseHash = some response) State.empty tr

/-- A verified challenge gets no response but one it was verified with. -/
def RespondsAsVerified (crypto : Crypto) (tr : List (Act × State)) (s : State) (act : Act) : Prop :=
  ∀ id response challenge, act.call = .respondToOwnershipChallenge id response →
    s.ownershipChallenge id = some challenge → challenge.verified = true →
      Accepted crypto tr id response

theorem accepted_iff (hlast : ChallengesLast tr s)
    (hthere : s.ownershipChallenge id = some challenge) :
    Accepted crypto tr id response ↔ ∃ commitmentHash,
      response = crypto.sha256 (commitmentHash.bytes ++ challenge.nonce.bytes) ∧
        VerifiedBy crypto tr id challenge commitmentHash := by
  constructor
  · intro h
    obtain ⟨past, a, act, b, hmem, hcall, hvalid, old, hold, hresponse⟩ := h
    obtain ⟨old', r, hold', hr, hproof, -⟩ := verifyOwnershipChallenge_ok.mp hvalid
    obtain rfl := Option.some.inj (hold.symm.trans hold')
    obtain ⟨later, hlater, hipId, hnonce⟩ := hlast.lasting past a act b hmem id old hold
    obtain rfl := Option.some.inj (hlater.symm.trans hthere)
    rw [← hipId] at hr
    refine ⟨r.commitmentHash, ?_, past, a, act, b, hmem, hcall, hvalid, r, hr, rfl⟩
    rw [hresponse, ← hnonce] at hproof
    exact Option.some.inj hproof
  · intro h
    obtain ⟨commitmentHash, rfl, past, a, act, b, hmem, hcall, hvalid, r, hr, rfl⟩ := h
    obtain ⟨old, r', hold, hr', hproof, -⟩ := verifyOwnershipChallenge_ok.mp hvalid
    obtain ⟨later, hlater, hipId, hnonce⟩ := hlast.lasting past a act b hmem id old hold
    obtain rfl := Option.some.inj (hlater.symm.trans hthere)
    rw [hipId] at hr
    obtain rfl := Option.some.inj (hr.symm.trans hr')
    refine ⟨past, a, act, b, hmem, hcall, hvalid, old, hold, ?_⟩
    rw [hproof, hnonce]
    rfl

theorem VerifiedResponses.step (hlast : ChallengesLast tr s) (hnow : now State.empty tr = s)
    (h : VerifiedResponses crypto tr s) (hact : ActStep crypto s act s') :
    VerifiedResponses crypto ((act, s') :: tr) s' ↔ RespondsAsVerified crypto tr s act := by
  constructor
  · intro hafter id response challenge hcall hthere hverified
    cases hact.challenging with
    | kept hother => exact absurd hcall (hother id response)
    | issued ipId challenger nonce hissue => simp [hcall] at hissue
    | verified id' old r hverify => simp [hcall] at hverify
    | responded id' response' old hrespond hold hset =>
      rw [hcall] at hrespond
      cases hrespond
      obtain rfl := Option.some.inj (hold.symm.trans hthere)
      have hstored : s'.ownershipChallenge id =
          some { old with responseHash := some response } := by
        have hset' : s'.ownershipChallenge = update s.ownershipChallenge id _ :=
          congrArg Challenges.challenge hset
        rw [hset', update_self]
      obtain ⟨commitmentHash, hproof, hby⟩ := hafter id _ hstored hverified
      refine (accepted_iff hlast hthere).mpr ⟨commitmentHash, Option.some.inj hproof, ?_⟩
      rcases happened_cons.mp hby with ⟨hverify, -⟩ | hearlier
      · simp [hcall] at hverify
      · exact hearlier
  · intro hresponds id challenge hthere hverified
    cases hact.challenging.source hthere with
    | kept hold =>
      obtain ⟨commitmentHash, hproof, hby⟩ := h id challenge hold hverified
      exact ⟨commitmentHash, hproof, happened_cons.mpr (.inr hby)⟩
    | issued _ _ hopen =>
      rw [hopen] at hverified
      cases hverified
    | responded response old hcall hold hnew =>
      subst hnew
      have haccepted := hresponds id response old hcall hold hverified
      obtain ⟨commitmentHash, rfl, hby⟩ := (accepted_iff hlast hold).mp haccepted
      exact ⟨commitmentHash, rfl, happened_cons.mpr (.inr hby)⟩
    | verified old r hcall hvalid hold hr hresponse hnew =>
      subst hnew
      refine ⟨r.commitmentHash, hresponse, happened_cons.mpr (.inl ?_)⟩
      rw [hnow]
      exact ⟨hcall, hvalid, r, hr, rfl⟩

/-- Verified challenges keep a proof as their response as long as none is rewritten to something
it was never verified with. -/
theorem verified_responses_iff (hrun : Run (ActStep crypto) State.empty tr s) :
    (∀ past a act b, (past, a, act, b) ∈ steps State.empty tr →
      VerifiedResponses crypto ((act, b) :: past) b) ↔
      ∀ past a act b, (past, a, act, b) ∈ steps State.empty tr →
        RespondsAsVerified crypto past a act := by
  refine hrun.traced_iff_steps (J := fun tr s => ChallengesLast tr s ∧ now State.empty tr = s)
    ?_ ⟨.empty, rfl⟩ ?_ ?_
  · intro id challenge hthere
    cases hthere
  · intro tr s act s' hJ hact
    exact ⟨hJ.1.step hJ.2 hact, rfl⟩
  · intro tr s act s' hJ h hact
    exact h.step hJ.1 hJ.2 hact

end Proofs

section Questions

open Scenario

def inventorProof : BytesN 32 := proofOf crypto design secret

def commits : Act := act 5 inventor (.commitIp inventor design 0)

def asks : Act := act 6 rival (.issueOwnershipChallenge 1 rival secret)

def answers : Act := act 7 inventor (.respondToOwnershipChallenge 1 inventorProof)

def verifies : Act := act 8 rival (.verifyOwnershipChallenge 1)

theorem inventor_verified : ∃ tr s challenge, Run (ActStep crypto) State.empty tr s ∧
    getOwnershipChallenge 1 s = some challenge ∧ challenge.verified = true ∧
    VerifiedResponses crypto tr s := by
  have hplayed : endsIn perform [commits] State.empty (fun a => endsIn perform [asks] a fun b =>
      decide ((b.ownershipChallenge 1).any fun challenge => !challenge.verified) &&
        endsIn perform [answers] b fun c => endsIn perform [verifies] c fun d =>
          (d.ownershipChallenge 1).any fun challenge => challenge.verified) = true := by decide
  obtain ⟨a, hcommits, hlater⟩ := endsIn_one hplayed
  obtain ⟨b, hasks, hlater⟩ := endsIn_one hlater
  simp only [Bool.and_eq_true, Option.any_eq_true, decide_eq_true_eq] at hlater
  obtain ⟨⟨asked, hasked, hopen⟩, hlater⟩ := hlater
  obtain ⟨c, hanswers, hlater⟩ := endsIn_one hlater
  obtain ⟨d, hverifies, hseen⟩ := endsIn_one hlater
  obtain ⟨challenge, hchallenge, hverified⟩ := (Option.any_eq_true _ _).mp hseen
  have hrun : Run (ActStep crypto) State.empty
      [(verifies, d), (answers, c), (asks, b), (commits, a)] d :=
    (((Run.start.next hcommits).next hasks).next hanswers).next hverifies
  have hcond : ∀ past s act s', (past, s, act, s') ∈ steps State.empty
      [(verifies, d), (answers, c), (asks, b), (commits, a)] →
        RespondsAsVerified crypto past s act := by
    intro past s act s' hmem id response question hcall hthere hmarked
    simp only [steps, now, List.mem_cons, Prod.mk.injEq, List.not_mem_nil, or_false] at hmem
    rcases hmem with ⟨-, -, rfl, -⟩ | ⟨-, rfl, rfl, -⟩ | ⟨-, -, rfl, -⟩ | ⟨-, -, rfl, -⟩
    · cases hcall
    · cases hcall
      obtain rfl := Option.some.inj (hasked.symm.trans hthere)
      simp [hmarked] at hopen
    · cases hcall
    · cases hcall
  refine ⟨_, d, challenge, hrun, hchallenge, hverified, ?_⟩
  exact (verified_responses_iff hrun).mpr hcond _ c verifies d List.mem_cons_self

/-- The inventor replaces his answer after it was verified. -/
theorem answer_replaced : ∃ tr s challenge, Run (ActStep crypto) State.empty tr s ∧
    getOwnershipChallenge 1 s = some challenge ∧ challenge.verified = true ∧
    challenge.responseHash = some laterDesign ∧ ¬ VerifiedResponses crypto tr s := by
  obtain ⟨tr, s, hrun, -, hseen⟩ := played State.empty
    [commits, asks, answers, verifies,
      act 9 inventor (.respondToOwnershipChallenge 1 laterDesign)]
    (fun s => (s.ownershipChallenge 1).any fun challenge : OwnershipChallenge =>
      decide (challenge.verified = true ∧ challenge.responseHash = some laterDesign)) (by decide)
  simp only [Option.any_eq_true, decide_eq_true_eq] at hseen
  obtain ⟨challenge, hchallenge, hverified, hresponse⟩ := hseen
  refine ⟨tr, s, challenge, hrun, hchallenge, hverified, hresponse, ?_⟩
  intro h
  obtain ⟨commitmentHash, hproof, -⟩ := h 1 challenge hchallenge hverified
  rw [hresponse] at hproof
  have hhash : laterDesign = if commitmentHash.bytes ++ challenge.nonce.bytes =
      secret.bytes ++ secret.bytes then design else .zero 32 := Option.some.inj hproof
  split_ifs at hhash
  · exact absurd hhash (by decide)
  · exact absurd hhash (by decide)

end Questions

end AtomicIp.IpRegistry
