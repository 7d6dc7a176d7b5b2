import AtomicIp.Registry.Verdicts
import AtomicIp.Registry.Wellformed
import Mathlib.Data.Finset.Card
import Mathlib.Data.Finset.Dedup

/-!
Arbitration cases and the votes in them. A case freezes the pool of arbitrators; it counts the
votes and does not remember who voted.
-/

set_option autoImplicit false

namespace AtomicIp.IpRegistry

open Function Tx

structure Arbitrations where
  cases : ℕ → Option ArbitrationRecord
  nextId : Option ℕ
  pool : Option (List Address)

def State.arbitrations (s : State) : Arbitrations where
  cases := s.arbitrationCase
  nextId := s.nextArbitrationId
  pool := s.arbitratorPool

def ArbitrationRecord.voted (case : ArbitrationRecord) (forOwner : Bool) : ArbitrationRecord :=
  { case with
    votesOwner := if forOwner then case.votesOwner + 1 else case.votesOwner
    votesChallenger := if forOwner then case.votesChallenger else case.votesChallenger + 1 }

def ArbitrationRecord.wonBy (case : ArbitrationRecord) (winner : Address) : ArbitrationRecord :=
  { case with finalized := true, winner := some winner }

namespace Arbitrations

variable (a : Arbitrations)

def count : ℕ := a.nextId.getD 1

def nominees : List Address := a.pool.getD []

def nominate (arbitrator : Address) : Arbitrations :=
  { a with pool := some (a.nominees ++ [arbitrator]) }

def openCase (disputeId : ℕ) : Arbitrations :=
  { a with
    cases := update a.cases a.count (some ⟨a.count, disputeId, a.nominees, 0, 0, false, none⟩)
    nextId := some (a.count + 1) }

def rewrite (id : ℕ) (case : ArbitrationRecord) : Arbitrations :=
  { a with cases := update a.cases id (some case) }

end Arbitrations

section Calls

variable {env : Env} {s s' : State} {u : Unit} {id disputeId : ℕ} {arbitrator voter : Address}
  {forOwner : Bool} {crypto : Crypto} {act : Act}

theorem nominateArbitrator_ok :
    nominateArbitrator env arbitrator s = .ok (u, s') ↔
      ∃ admin, (s.admin = some admin ∧ admin ∈ env.auths) ∧
        (arbitrator ∉ s.arbitrations.nominees ∧
          s' = (s.setArbitratorPool (some (s.arbitrations.nominees ++ [arbitrator]))).published
            ⟨"arb_nom", .arbitratorNominated admin arbitrator⟩ ∨
          arbitrator ∈ s.arbitrations.nominees ∧ s' = s) := by
  simp only [nominateArbitrator, Tx.bind_ok, requireStoredAdmin_ok, Tx.load_ok, Tx.onlyIf_ok,
    Tx.store_ok, publish_ok, not_not]
  constructor
  · intro h
    obtain ⟨admin, _, ⟨hadmin, rfl⟩, _, _, ⟨rfl, rfl⟩, ⟨hnew, _, _, rfl, rfl⟩ | ⟨hold, rfl⟩⟩ := h
    · exact ⟨admin, hadmin, .inl ⟨hnew, rfl⟩⟩
    · exact ⟨admin, hadmin, .inr ⟨hold, rfl⟩⟩
  · intro h
    obtain ⟨admin, hadmin, ⟨hnew, rfl⟩ | ⟨hold, rfl⟩⟩ := h
    · exact ⟨admin, s, ⟨hadmin, rfl⟩, _, s, ⟨rfl, rfl⟩, .inl ⟨hnew, (), _, rfl, rfl⟩⟩
    · exact ⟨admin, s', ⟨hadmin, rfl⟩, _, s', ⟨rfl, rfl⟩, .inr ⟨hold, rfl⟩⟩

theorem openArbitration_ok :
    openArbitration env disputeId s = .ok (id, s') ↔
      (∃ admin, s.admin = some admin ∧ admin ∈ env.auths) ∧
        (∃ dispute, s.ipDisputes disputeId = some dispute) ∧ id = s.arbitrations.count ∧
          id + 1 < 2 ^ 64 ∧ s' = (s.setArbitrationCase id
            (some ⟨id, disputeId, s.arbitrations.nominees, 0, 0, false, none⟩)).setNextArbitrationId
              (some (id + 1)) := by
  simp only [openArbitration, Tx.bind_ok, requireStoredAdmin_ok, requireDispute_ok, Tx.load_ok,
    Tx.store_ok, u64_ok, Tx.pure_ok]
  constructor
  · intro h
    obtain ⟨admin, _, ⟨hadmin, rfl⟩, dispute, _, ⟨hdispute, rfl⟩, _, _, ⟨rfl, rfl⟩, _, _,
      ⟨rfl, rfl⟩, _, _, rfl, _, _, ⟨hfits, rfl, rfl⟩, _, _, rfl, rfl, rfl⟩ := h
    exact ⟨⟨admin, hadmin⟩, ⟨dispute, hdispute⟩, rfl, hfits, rfl⟩
  · intro h
    obtain ⟨⟨admin, hadmin⟩, ⟨dispute, hdispute⟩, rfl, hfits, rfl⟩ := h
    exact ⟨admin, s, ⟨hadmin, rfl⟩, dispute, s, ⟨hdispute, rfl⟩, _, s, ⟨rfl, rfl⟩, _, s,
      ⟨rfl, rfl⟩, (), _, rfl, _, _, ⟨hfits, rfl, rfl⟩, (), _, rfl, rfl, rfl⟩

theorem voteOnDispute_ok (h : voteOnDispute env id voter forOwner s = .ok (u, s')) :
    voter ∈ env.auths ∧ ∃ case, s.arbitrationCase id = some case ∧ case.finalized = false ∧
      voter ∈ case.arbitrators ∧
      s' = (s.setArbitrationCase id (some (case.voted forOwner))).published
        ⟨"arb_vote", .arbitrationVote voter id forOwner⟩ := by
  simp only [voteOnDispute, Tx.bind_ok, requireAuth_ok, requireOpenCase_ok, require_ok] at h
  obtain ⟨_, _, ⟨hauth, rfl⟩, case, _, ⟨⟨hcase, hopen⟩, rfl⟩, _, _, ⟨hmember, rfl⟩, h⟩ := h
  refine ⟨hauth, case, hcase, hopen, hmember, ?_⟩
  cases forOwner with
  | true =>
    simp only [if_true, Tx.bind_ok, u32_ok, Tx.pure_ok, Tx.store_ok, publish_ok] at h
    obtain ⟨_, _, ⟨-, rfl, rfl⟩, _, _, ⟨rfl, rfl⟩, _, _, rfl, rfl⟩ := h
    rfl
  | false =>
    simp only [Bool.false_eq_true, if_false, Tx.bind_ok, u32_ok, Tx.pure_ok, Tx.store_ok,
      publish_ok] at h
    obtain ⟨_, _, ⟨rfl, rfl⟩, _, _, ⟨-, rfl, rfl⟩, _, _, rfl, rfl⟩ := h
    rfl

theorem blind_arbitrations {t : Table} (h : t ≠ .arbitrations) : Blind t State.arbitrations := by
  cases t with
  | arbitrations => exact absurd rfl h
  | _ => exact ⟨fun _ => rfl⟩

def Call.ballot (id : ℕ) : Call → Option (Address × Bool)
  | .voteOnDispute other voter forOwner => if other = id then some (voter, forOwner) else none
  | _ => none

inductive Arbitrating (act : Act) (s s' : State) : Prop where
  | kept (hcall : ∀ id, act.call.ballot id = none) (h : s'.arbitrations = s.arbitrations)
  | nominated (arbitrator : Address) (hcall : act.call = .nominateArbitrator arbitrator)
      (hnew : arbitrator ∉ s.arbitrations.nominees)
      (h : s'.arbitrations = s.arbitrations.nominate arbitrator)
  | opened (disputeId : ℕ) (hcall : act.call = .openArbitration disputeId)
      (h : s'.arbitrations = s.arbitrations.openCase disputeId)
  | voted (id : ℕ) (voter : Address) (forOwner : Bool) (case : ArbitrationRecord)
      (hcall : act.call = .voteOnDispute id voter forOwner) (hauth : voter ∈ act.auths)
      (hcase : s.arbitrations.cases id = some case) (hmember : voter ∈ case.arbitrators)
      (h : s'.arbitrations = s.arbitrations.rewrite id (case.voted forOwner))
  | ended (id : ℕ) (case : ArbitrationRecord) (winner : Address)
      (hcall : act.call = .finalizeArbitration id) (hcase : s.arbitrations.cases id = some case)
      (h : s'.arbitrations = s.arbitrations.rewrite id (case.wonBy winner))

theorem ActStep.arbitrating (hact : ActStep crypto s act s') : Arbitrating act s s' := by
  obtain ⟨timestamp, auths, budget, call⟩ := act
  unfold ActStep at hact
  cases call with
  | nominateArbitrator arbitrator =>
    obtain ⟨admin, -, ⟨hnew, hs'⟩ | ⟨-, hs'⟩⟩ := nominateArbitrator_ok.mp hact
    · exact .nominated arbitrator rfl hnew (congrArg State.arbitrations hs')
    · exact .kept (fun _ => rfl) (congrArg State.arbitrations hs')
  | openArbitration disputeId =>
    obtain ⟨id, hact⟩ := Tx.void_ok.mp hact
    obtain ⟨-, -, rfl, -, hs'⟩ := openArbitration_ok.mp hact
    exact .opened disputeId rfl (congrArg State.arbitrations hs')
  | voteOnDispute id voter forOwner =>
    obtain ⟨hauth, case, hcase, -, hmember, hs'⟩ := voteOnDispute_ok hact
    exact .voted id voter forOwner case rfl hauth hcase hmember (congrArg State.arbitrations hs')
  | finalizeArbitration id =>
    obtain ⟨-, case, dispute, record, hcase, -, -, -, hs'⟩ := finalizeArbitration_ok.mp hact
    exact .ended id case _ rfl hcase (congrArg State.arbitrations hs')
  | _ =>
    refine .kept (fun _ => rfl) (exec_frame State.arbitrations hact fun t ht =>
      blind_arbitrations ?_)
    rintro rfl
    simp [Call.writes] at ht

end Calls

section Ballots

variable {crypto : Crypto} {tr past : List (Act × State)} {s s' : State} {act : Act} {id : ℕ}
  {voter : Address} {forOwner : Bool} {case : ArbitrationRecord}

def ballots (id : ℕ) (tr : List (Act × State)) : List (Address × Bool) :=
  tr.filterMap fun p => p.1.call.ballot id

def votersFor (id : ℕ) (forOwner : Bool) (tr : List (Act × State)) : Finset Address :=
  (((ballots id tr).filter fun ballot => ballot.2 = forOwner).map Prod.fst).toFinset

def State.votesIn (s : State) (id : ℕ) : ℕ :=
  ((s.arbitrationCase id).map fun case => case.votesOwner + case.votesChallenger).getD 0

def contributed (id : ℕ) (voter : Address) : List (Act × State) → ℕ
  | [] => 0
  | (act, s) :: tr => contributed id voter tr +
      if (act.call.ballot id).map Prod.fst = some voter
      then s.votesIn id - (now State.empty tr).votesIn id else 0

theorem ballots_cons_none (h : act.call.ballot id = none) :
    ballots id ((act, s) :: tr) = ballots id tr := List.filterMap_cons_none h

theorem ballots_cons_some {ballot : Address × Bool} (h : act.call.ballot id = some ballot) :
    ballots id ((act, s) :: tr) = ballot :: ballots id tr := List.filterMap_cons_some h

theorem ballots_suffix (h : past <:+ tr) : ballots id past <:+ ballots id tr := h.filterMap _

/-- The record of a case agrees with the votes given in it. -/
structure Tallied (ballots : List (Address × Bool)) (case : ArbitrationRecord) : Prop where
  members : ∀ ballot ∈ ballots, ballot.1 ∈ case.arbitrators
  votesOwner : case.votesOwner = (ballots.filter fun ballot => ballot.2 = true).length
  votesChallenger : case.votesChallenger = (ballots.filter fun ballot => ballot.2 = false).length

namespace Tallied

variable {votes : List (Address × Bool)}

theorem voted (h : Tallied votes case) (hmember : voter ∈ case.arbitrators) :
    Tallied ((voter, forOwner) :: votes) (case.voted forOwner) where
  members := List.forall_mem_cons.mpr ⟨hmember, h.members⟩
  votesOwner := by
    cases forOwner <;> simp [ArbitrationRecord.voted, h.votesOwner]
  votesChallenger := by
    cases forOwner <;> simp [ArbitrationRecord.voted, h.votesChallenger]

theorem wonBy {winner : Address} (h : Tallied votes case) : Tallied votes (case.wonBy winner) :=
  ⟨h.members, h.votesOwner, h.votesChallenger⟩

theorem votes_eq (h : Tallied votes case) :
    case.votesOwner + case.votesChallenger = votes.length := by
  rw [h.votesOwner, h.votesChallenger]
  have hsplit := List.length_eq_length_filter_add (l := votes) fun ballot => ballot.2 = true
  simpa using hsplit.symm

theorem votes_le (h : Tallied votes case) (honce : (votes.map Prod.fst).Nodup) :
    case.votesOwner + case.votesChallenger ≤ case.arbitrators.toFinset.card := by
  have hcard := List.toFinset_card_of_nodup honce
  rw [List.length_map] at hcard
  rw [h.votes_eq, ← hcard]
  refine Finset.card_le_card ?_
  intro voter hvoter
  obtain ⟨ballot, hballot, rfl⟩ := List.mem_map.mp (List.mem_toFinset.mp hvoter)
  exact List.mem_toFinset.mpr (h.members ballot hballot)

end Tallied

theorem card_votersFor (honce : ((ballots id tr).map Prod.fst).Nodup) :
    (votersFor id forOwner tr).card =
      ((ballots id tr).filter fun ballot => ballot.2 = forOwner).length := by
  have hnodup : (((ballots id tr).filter fun ballot => ballot.2 = forOwner).map Prod.fst).Nodup :=
    honce.sublist (List.filter_sublist.map Prod.fst)
  rw [votersFor, List.toFinset_card_of_nodup hnodup, List.length_map]

/-- Every case agrees with its votes, and there are none in a case not opened yet. -/
structure AllTallied (tr : List (Act × State)) (a : Arbitrations) : Prop where
  counted : ∀ id case, a.cases id = some case → id < a.count
  unopened : ∀ id, a.cases id = none → ballots id tr = []
  tallied : ∀ id case, a.cases id = some case → Tallied (ballots id tr) case

namespace AllTallied

variable {a : Arbitrations}

theorem empty : AllTallied [] State.empty.arbitrations where
  counted id case hcase := by cases hcase
  unopened id _ := rfl
  tallied id case hcase := by cases hcase

theorem kept (h : AllTallied tr a) (hcall : ∀ id, act.call.ballot id = none) :
    AllTallied ((act, s) :: tr) a where
  counted := h.counted
  unopened id hnone := by
    rw [ballots_cons_none (hcall id)]
    exact h.unopened id hnone
  tallied id case hcase := by
    rw [ballots_cons_none (hcall id)]
    exact h.tallied id case hcase

theorem openCase (h : AllTallied tr a) (disputeId : ℕ) : AllTallied tr (a.openCase disputeId) where
  counted id case hcase := by
    have hnext : (a.openCase disputeId).count = a.count + 1 := rfl
    rw [hnext]
    rcases update_eq_some hcase with ⟨rfl, -⟩ | ⟨-, hold⟩
    · exact Nat.lt_succ_self _
    · exact Nat.lt_succ_of_lt (h.counted id case hold)
  unopened id hnone := by
    by_cases hid : id = a.count
    · rw [hid] at hnone
      exact absurd ((update_self ..).symm.trans hnone) (by simp)
    · exact h.unopened id ((update_of_ne hid _ _).symm.trans hnone)
  tallied id case hcase := by
    rcases update_eq_some hcase with ⟨rfl, rfl⟩ | ⟨-, hold⟩
    · have hfresh : a.cases a.count = none := by
        cases hcount : a.cases a.count with
        | none => rfl
        | some case => exact absurd (h.counted _ _ hcount) (Nat.lt_irrefl _)
      rw [h.unopened a.count hfresh]
      exact ⟨by simp, rfl, rfl⟩
    · exact h.tallied id case hold

theorem rewrite (h : AllTallied tr a) {written : ArbitrationRecord} (hcase : a.cases id = some case)
    (hother : ∀ other, other ≠ id → act.call.ballot other = none)
    (htallied : Tallied (ballots id ((act, s) :: tr)) written) :
    AllTallied ((act, s) :: tr) (a.rewrite id written) where
  counted other case' hcase' := by
    have hsame : (a.rewrite id written).count = a.count := rfl
    rw [hsame]
    rcases update_eq_some hcase' with ⟨rfl, -⟩ | ⟨-, hold⟩
    · exact h.counted _ _ hcase
    · exact h.counted other case' hold
  unopened other hnone := by
    by_cases hid : other = id
    · rw [hid] at hnone
      exact absurd ((update_self ..).symm.trans hnone) (by simp)
    · rw [ballots_cons_none (hother other hid)]
      exact h.unopened other ((update_of_ne hid _ _).symm.trans hnone)
  tallied other case' hcase' := by
    rcases update_eq_some hcase' with ⟨rfl, rfl⟩ | ⟨hid, hold⟩
    · exact htallied
    · rw [ballots_cons_none (hother other hid)]
      exact h.tallied other case' hold

theorem step (h : AllTallied tr s.arbitrations) (hact : ActStep crypto s act s') :
    AllTallied ((act, s') :: tr) s'.arbitrations := by
  cases hact.arbitrating with
  | kept hcall hsame =>
    rw [hsame]
    exact h.kept hcall
  | nominated arbitrator hcall _ hset =>
    have hquiet : ∀ id, act.call.ballot id = none := by simp [hcall, Call.ballot]
    have hkept := h.kept (s := s') hquiet
    rw [hset]
    exact ⟨hkept.counted, hkept.unopened, hkept.tallied⟩
  | opened disputeId hcall hset =>
    have hquiet : ∀ id, act.call.ballot id = none := by simp [hcall, Call.ballot]
    rw [hset]
    exact (h.kept hquiet).openCase disputeId
  | voted id voter forOwner case hcall _ hcase hmember hset =>
    rw [hset]
    have hballot : act.call.ballot id = some (voter, forOwner) := by simp [hcall, Call.ballot]
    refine h.rewrite hcase ?_ ?_
    · intro other hother
      simp [hcall, Call.ballot, Ne.symm hother]
    · rw [ballots_cons_some hballot]
      exact (h.tallied id case hcase).voted hmember
  | ended id case winner hcall hcase hset =>
    rw [hset]
    have hquiet : ∀ id, act.call.ballot id = none := by simp [hcall, Call.ballot]
    refine h.rewrite hcase (fun other _ => hquiet other) ?_
    rw [ballots_cons_none (hquiet id)]
    exact (h.tallied id case hcase).wonBy

end AllTallied

theorem contributed_eq (hrun : Run (ActStep crypto) State.empty tr s) :
    contributed id voter tr = ((ballots id tr).map Prod.fst).count voter := by
  induction hrun with
  | start => rfl
  | @next past a b act hprev hact ih =>
    cases hballot : act.call.ballot id with
    | none =>
      rw [ballots_cons_none hballot, ← ih]
      simp [contributed, hballot]
    | some ballot =>
      obtain ⟨other, forOwner⟩ := ballot
      have hone : b.votesIn id = a.votesIn id + 1 := by
        cases hact.arbitrating with
        | kept hcall => simp [hcall] at hballot
        | nominated _ hcall | opened _ hcall | ended _ _ _ hcall =>
          simp [hcall, Call.ballot] at hballot
        | voted id' voter' forOwner' case hcall _ hcase _ hset =>
          have hid : id' = id := by
            by_contra hne
            simp [hcall, Call.ballot, hne] at hballot
          subst hid
          have hbefore : a.arbitrationCase id' = some case := hcase
          have hafter : b.arbitrationCase id' = some (case.voted forOwner') := by
            change b.arbitrations.cases id' = _
            rw [hset]
            exact update_self ..
          cases forOwner' <;>
            simp [State.votesIn, hbefore, hafter, ArbitrationRecord.voted] <;> omega
      rw [ballots_cons_some hballot, List.map_cons, List.count_cons, ← ih]
      by_cases hvoter : other = voter
      · simp [contributed, hballot, hvoter, hprev.now_eq, hone]
      · simp [contributed, hballot, hvoter]

end Ballots

section Majorities

variable {crypto : Crypto} {tr : List (Act × State)} {s : State}

/-- The case ends for the challenger, who is not the owner of the IP. -/
def EndsForChallenger (id : ℕ) (a : State) (act : Act) (b : State) : Prop :=
  ∃ case dispute record, act.call = .finalizeArbitration id ∧ b.arbitrationCase id = some case ∧
    a.ipDisputes case.disputeId = some dispute ∧ a.ipRecord dispute.ipId = some record ∧
      dispute.challenger ≠ record.owner ∧ case.winner = some dispute.challenger

/-- Every arbitrator has one vote in the case, and the challenger wins it only by a majority of
them. -/
structure OneVoteEach (tr : List (Act × State)) (id : ℕ) (case : ArbitrationRecord) : Prop where
  bounded : case.votesOwner + case.votesChallenger ≤ case.arbitrators.toFinset.card
  once : ∀ voter, contributed id voter tr ≤ 1
  majority : ∀ past a act b, (past, a, act, b) ∈ steps State.empty tr →
    EndsForChallenger id a act b → (votersFor id true past).card < (votersFor id false past).card

theorem EndsForChallenger.outvoted {a b : State} {act : Act} {id : ℕ}
    (h : EndsForChallenger id a act b) (hact : ActStep crypto a act b)
    (htallied : AllTallied tr a.arbitrations) :
    ((ballots id tr).filter fun ballot => ballot.2 = true).length <
      ((ballots id tr).filter fun ballot => ballot.2 = false).length := by
  obtain ⟨timestamp, auths, budget, call⟩ := act
  obtain ⟨ended, dispute, record, rfl, hended, hdispute, hrecord, hother, hwinner⟩ := h
  obtain ⟨-, case, dispute', record', hcase, -, hdispute', hrecord', rfl⟩ :=
    finalizeArbitration_ok.mp hact
  have hset := update_self id (some (case.wonBy (case.favours dispute' record'))) a.arbitrationCase
  obtain rfl := Option.some.inj (hset.symm.trans hended)
  obtain rfl := Option.some.inj (hdispute'.symm.trans hdispute)
  obtain rfl := Option.some.inj (hrecord'.symm.trans hrecord)
  have hfavours : case.favours dispute' record' = dispute'.challenger := Option.some.inj hwinner
  have hcounted := htallied.tallied id case hcase
  rw [← hcounted.votesOwner, ← hcounted.votesChallenger]
  by_contra hnot
  rw [ArbitrationRecord.favours, if_neg hnot] at hfavours
  exact hother hfavours.symm

theorem run_tallied (hrun : Run (ActStep crypto) State.empty tr s) :
    AllTallied tr s.arbitrations ∧ ∀ past a act b, (past, a, act, b) ∈ steps State.empty tr →
      ∀ id, EndsForChallenger id a act b →
        ((ballots id past).filter fun ballot => ballot.2 = true).length <
          ((ballots id past).filter fun ballot => ballot.2 = false).length :=
  hrun.forall_steps (I := fun tr s => AllTallied tr s.arbitrations)
    (Q := fun past a act b => ∀ id, EndsForChallenger id a act b →
      ((ballots id past).filter fun ballot => ballot.2 = true).length <
        ((ballots id past).filter fun ballot => ballot.2 = false).length)
    .empty fun _ _ _ _ h hact => ⟨h.step hact, fun _ hends => hends.outvoted hact h⟩

/-- Every arbitrator has one vote in each case exactly when nobody votes twice in one. -/
theorem one_vote_each_iff (hrun : Run (ActStep crypto) State.empty tr s) :
    (∀ id case, s.arbitrationCase id = some case → OneVoteEach tr id case) ↔
      ∀ id, ((ballots id tr).map Prod.fst).Nodup := by
  obtain ⟨htallied, hmajority⟩ := run_tallied hrun
  constructor
  · intro h id
    cases hcase : s.arbitrations.cases id with
    | none =>
      rw [htallied.unopened id hcase]
      exact List.nodup_nil
    | some case =>
      rw [List.nodup_iff_count_le_one]
      intro voter
      rw [← contributed_eq hrun]
      exact (h id case hcase).once voter
  · intro honce id case hcase
    refine ⟨(htallied.tallied id case hcase).votes_le (honce id), ?_, ?_⟩
    · intro voter
      rw [contributed_eq hrun]
      exact List.nodup_iff_count_le_one.mp (honce id) voter
    · intro past a act b hmem hends
      have hpast : ((ballots id past).map Prod.fst).Nodup :=
        (honce id).sublist ((ballots_suffix (suffix_of_mem_steps hmem)).map Prod.fst).sublist
      rw [card_votersFor hpast, card_votersFor hpast]
      exact hmajority past a act b hmem id hends

end Majorities

section Cases

open Scenario

theorem rival_votes_once : ∃ tr s case, Run (ActStep crypto) State.empty tr s ∧
    s.arbitrationCase 1 = some case ∧ case.votesChallenger = 1 ∧ OneVoteEach tr 1 case := by
  have hplayed : endsIn perform contested State.empty (fun s =>
      (s.arbitrationCase 1).any fun case => case.votesChallenger = 1) = true := by decide +kernel
  obtain ⟨tr, s, hrun, hacts, hseen⟩ := played State.empty _ _ hplayed
  simp only [Option.any_eq_true, decide_eq_true_eq] at hseen
  obtain ⟨case, hcase, hvotes⟩ := hseen
  have honce : ∀ id, ((ballots id tr).map Prod.fst).Nodup := by
    intro id
    have hballots : ballots id tr =
        (contested.reverse.filterMap fun act => act.call.ballot id) := by
      rw [← hacts, List.filterMap_map]
      rfl
    rw [hballots]
    by_cases hid : 1 = id <;> simp [contested, act, Call.ballot, hid]
  exact ⟨tr, s, case, hrun, hcase, hvotes, (one_vote_each_iff hrun).mpr honce 1 case hcase⟩

/-- The rival votes once more in the same case, of which he is the only arbitrator. -/
theorem rival_votes_twice : ∃ tr s case, Run (ActStep crypto) State.empty tr s ∧
    s.arbitrationCase 1 = some case ∧ case.arbitrators = [rival] ∧ ¬ OneVoteEach tr 1 case := by
  have hplayed : endsIn perform (contested ++ [act 10 rival (.voteOnDispute 1 rival false)])
      State.empty (fun s => (s.arbitrationCase 1).any fun case =>
        case.arbitrators = [rival] ∧ case.votesChallenger = 2) = true := by decide +kernel
  obtain ⟨tr, s, hrun, -, hseen⟩ := played State.empty _ _ hplayed
  simp only [Option.any_eq_true, decide_eq_true_eq] at hseen
  obtain ⟨case, hcase, harbitrators, hvotes⟩ := hseen
  refine ⟨tr, s, case, hrun, hcase, harbitrators, ?_⟩
  intro h
  have hbounded := h.bounded
  rw [harbitrators, hvotes, List.toFinset_cons, List.toFinset_nil] at hbounded
  simp at hbounded

end Cases

end AtomicIp.IpRegistry
