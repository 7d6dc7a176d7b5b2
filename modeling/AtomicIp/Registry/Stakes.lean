import AtomicIp.Registry.Tables
import Mathlib.Data.Finset.Card

set_option autoImplicit false

namespace AtomicIp.IpRegistry

open Function Tx

def getStake (ipId : ℕ) (s : State) : Option StakeRecord := s.ipStake ipId

def getReputation (owner : Address) (s : State) : ReputationRecord :=
  (s.ownerReputation owner).getD ⟨owner, 0, 0, 0⟩

def ReputationRecord.rescored (r : ReputationRecord) (delta : ℤ) : ReputationRecord :=
  { r with score := saturatingI64 (r.score + delta) }

def ReputationRecord.slashed (r : ReputationRecord) : ReputationRecord :=
  { r with score := saturatingI64 (r.score - 10), disputesLost := r.disputesLost + 1 }

def StakeRecord.slash (r : StakeRecord) : StakeRecord := { r with slashed := true }

section Calls

variable {env : Env} {s s' : State} {u : Unit} {ipId i : ℕ} {owner x : Address} {crypto : Crypto}
  {act : Act} {tr : List (Act × State)}

def AdminSigned (s : State) (auths : List Address) : Prop := ∃ admin ∈ auths, s.admin = some admin

inductive Staking (auths : List Address) (s s' : State) : Prop where
  | kept (hstakes : s'.ipStake = s.ipStake) (hreputations : s'.ownerReputation = s.ownerReputation)
  | staked (i : ℕ) (record : IpRecord) (amount : ℤ) (hr : s.ipRecord i = some record)
      (hauth : record.owner ∈ auths) (hfree : s.ipStake i = none)
      (hstakes : s'.ipStake = update s.ipStake i (some ⟨i, record.owner, amount, false⟩))
      (hreputations : s'.ownerReputation = s.ownerReputation)
  | slashed (i : ℕ) (stake : StakeRecord) (hadmin : AdminSigned s auths)
      (hstake : s.ipStake i = some stake) (hopen : stake.slashed = false)
      (hstakes : s'.ipStake = update s.ipStake i (some stake.slash))
      (hreputations : s'.ownerReputation =
        update s.ownerReputation stake.owner (some (getReputation stake.owner s).slashed))
  | unstaked (i : ℕ) (stake : StakeRecord) (hstake : s.ipStake i = some stake)
      (hauth : stake.owner ∈ auths) (hopen : stake.slashed = false)
      (hstakes : s'.ipStake = update s.ipStake i none)
      (hreputations : s'.ownerReputation = s.ownerReputation)
  | rescored (owner : Address) (delta : ℤ) (hadmin : AdminSigned s auths)
      (hstakes : s'.ipStake = s.ipStake)
      (hreputations : s'.ownerReputation =
        update s.ownerReputation owner (some ((getReputation owner s).rescored delta)))

theorem stakeCommitment_staking {amount : ℤ} (h : stakeCommitment env ipId amount s = .ok (u, s')) :
    Staking env.auths s s' := by
  simp [stakeCommitment] at h
  obtain ⟨record, hr, hauth, hfree, rfl⟩ := h
  exact .staked ipId record amount hr hauth hfree rfl rfl

theorem slashStake_staking (h : slashStake env ipId s = .ok (u, s')) :
    Staking env.auths s s' := by
  simp [slashStake, requireStake, reputationOf] at h
  obtain ⟨⟨admin, hadmin, hauth⟩, stake, hstake, hopen, -, rfl⟩ := h
  exact .slashed ipId stake ⟨admin, hauth, hadmin⟩ hstake hopen rfl rfl

theorem unstake_staking (h : unstake env ipId s = .ok (u, s')) : Staking env.auths s s' := by
  simp [unstake, requireStake] at h
  obtain ⟨stake, hstake, hauth, hopen, rfl⟩ := h
  exact .unstaked ipId stake hstake hauth hopen rfl rfl

theorem updateReputation_staking {delta : ℤ}
    (h : updateReputation env owner delta s = .ok (u, s')) :
    Staking env.auths s s' := by
  simp [updateReputation, reputationOf] at h
  obtain ⟨⟨admin, hadmin, hauth⟩, rfl⟩ := h
  exact .rescored owner delta ⟨admin, hauth, hadmin⟩ rfl rfl

theorem blind_stakes {t : Table} (hs : t ≠ .stakes) (hr : t ≠ .reputations) :
    Blind t fun s => (s.ipStake, s.ownerReputation) := by
  cases t with
  | stakes => exact absurd rfl hs
  | reputations => exact absurd rfl hr
  | _ => exact ⟨fun _ => rfl⟩

theorem ActStep.staking (hact : ActStep crypto s act s') : Staking act.auths s s' := by
  obtain ⟨timestamp, auths, budget, call⟩ := act
  unfold ActStep at hact
  cases call with
  | stakeCommitment => exact stakeCommitment_staking hact
  | slashStake => exact slashStake_staking hact
  | unstake => exact unstake_staking hact
  | updateReputation => exact updateReputation_staking hact
  | _ =>
    have hsame := exec_frame (fun s => (s.ipStake, s.ownerReputation)) hact fun t ht => by
      refine blind_stakes ?_ ?_ <;> rintro rfl <;> simp [Call.writes] at ht
    exact .kept (congrArg Prod.fst hsame) (congrArg Prod.snd hsame)

end Calls

section Counts

variable {s s' : State} {auths : List Address} {x : Address} {crypto : Crypto} {i : ℕ}
  {tr : List (Act × State)}

def Lost (x : Address) (stake : Option StakeRecord) : Prop :=
  ∃ r, stake = some r ∧ r.slashed = true ∧ r.owner = x

theorem not_lost_none : ¬ Lost x none := by simp [Lost]

theorem not_lost_open {r : StakeRecord} (h : r.slashed = false) : ¬ Lost x (some r) := by
  rintro ⟨r', hr', hslashed, -⟩
  cases hr'
  rw [h] at hslashed
  cases hslashed

/-- A reputation is its owner's, nobody counts commitments, and the score is an `i64`. -/
structure ReputationRecord.Sound (x : Address) (r : ReputationRecord) : Prop where
  owner : r.owner = x
  commitments : r.commitments = 0
  low : -2 ^ 63 ≤ r.score
  high : r.score ≤ 2 ^ 63 - 1

theorem saturatingI64_bounds (z : ℤ) :
    -2 ^ 63 ≤ saturatingI64 z ∧ saturatingI64 z ≤ 2 ^ 63 - 1 := by
  unfold saturatingI64 saturate
  omega

structure Scored (s : State) : Prop where
  lost : ∀ x, ∃ ids : Finset ℕ, (∀ i, i ∈ ids ↔ Lost x (s.ipStake i)) ∧
    (getReputation x s).disputesLost = ids.card
  sound : ∀ x, (getReputation x s).Sound x

theorem Scored.empty : Scored State.empty := by
  refine ⟨fun x => ⟨∅, fun i => ?_, rfl⟩, fun x => ?_⟩
  · exact iff_of_false (Finset.notMem_empty i) not_lost_none
  · refine ⟨rfl, rfl, ?_, ?_⟩ <;> simp [getReputation, State.empty]

theorem getReputation_update (r : ReputationRecord) (y : Address)
    (h : s'.ownerReputation = update s.ownerReputation y (some r)) :
    getReputation x s' = if x = y then r else getReputation x s := by
  unfold getReputation
  rw [h]
  by_cases hx : x = y
  · subst hx
    simp
  · simp [hx]

theorem Scored.step (h : Scored s) (hstep : Staking auths s s') : Scored s' := by
  cases hstep with
  | kept hstakes hreputations =>
    have hsame : ∀ x, getReputation x s' = getReputation x s := fun x => by
      rw [getReputation, hreputations, getReputation]
    refine ⟨fun x => ?_, fun x => by rw [hsame]; exact h.sound x⟩
    rw [hstakes, hsame]
    exact h.lost x
  | staked j record amount hr hauth hfree hstakes hreputations =>
    have hsame : ∀ x, getReputation x s' = getReputation x s := fun x => by
      rw [getReputation, hreputations, getReputation]
    refine ⟨fun x => ?_, fun x => by rw [hsame]; exact h.sound x⟩
    obtain ⟨ids, hids, hcount⟩ := h.lost x
    refine ⟨ids, fun i => ?_, by rw [hsame, hcount]⟩
    rw [hids, hstakes]
    by_cases hi : i = j
    · subst hi
      rw [hfree, update_self]
      exact iff_of_false not_lost_none (not_lost_open rfl)
    · rw [update_of_ne hi]
  | slashed j stake hadmin hstake hopen hstakes hreputations =>
    constructor
    · intro x
      obtain ⟨ids, hids, hcount⟩ := h.lost x
      have hnew : j ∉ ids := by
        rw [hids, hstake]
        exact not_lost_open hopen
      rw [getReputation_update _ _ hreputations, hstakes]
      by_cases hx : x = stake.owner
      · subst hx
        refine ⟨insert j ids, fun i => ?_, ?_⟩
        · by_cases hi : i = j
          · subst hi
            simp [Lost, StakeRecord.slash]
          · simp [hi, hids]
        · rw [if_pos rfl, Finset.card_insert_of_notMem hnew, ← hcount]
          rfl
      · refine ⟨ids, fun i => ?_, by rw [if_neg hx, hcount]⟩
        by_cases hi : i = j
        · subst hi
          rw [update_self]
          refine iff_of_false hnew ?_
          rintro ⟨r, hr, -, howner⟩
          cases hr
          exact hx howner.symm
        · rw [update_of_ne hi]
          exact hids i
    · intro x
      rw [getReputation_update _ _ hreputations]
      split_ifs with hx
      · subst hx
        have hsound := h.sound stake.owner
        obtain ⟨hlow, hhigh⟩ := saturatingI64_bounds ((getReputation stake.owner s).score - 10)
        exact ⟨hsound.owner, hsound.commitments, hlow, hhigh⟩
      · exact h.sound x
  | unstaked j stake hstake hauth hopen hstakes hreputations =>
    have hsame : ∀ x, getReputation x s' = getReputation x s := fun x => by
      rw [getReputation, hreputations, getReputation]
    refine ⟨fun x => ?_, fun x => by rw [hsame]; exact h.sound x⟩
    obtain ⟨ids, hids, hcount⟩ := h.lost x
    refine ⟨ids, fun i => ?_, by rw [hsame, hcount]⟩
    rw [hids, hstakes]
    by_cases hi : i = j
    · subst hi
      rw [hstake, update_self]
      exact iff_of_false (not_lost_open hopen) not_lost_none
    · rw [update_of_ne hi]
  | rescored owner delta hadmin hstakes hreputations =>
    constructor
    · intro x
      obtain ⟨ids, hids, hcount⟩ := h.lost x
      refine ⟨ids, fun i => by rw [hids, hstakes], ?_⟩
      rw [getReputation_update _ _ hreputations, ← hcount]
      split_ifs with hx
      · rw [hx]
        rfl
      · rfl
    · intro x
      rw [getReputation_update _ _ hreputations]
      split_ifs with hx
      · subst hx
        have hsound := h.sound x
        obtain ⟨hlow, hhigh⟩ := saturatingI64_bounds ((getReputation x s).score + delta)
        exact ⟨hsound.owner, hsound.commitments, hlow, hhigh⟩
      · exact h.sound x

/-- What becomes of the stake on one IP in one step. -/
structure StakeStep (auths : List Address) (a b : State) (i : ℕ) : Prop where
  placed : ∀ stake, getStake i a = none → getStake i b = some stake →
    stake.slashed = false ∧ stake.owner ∈ auths ∧
      ∃ record, a.ipRecord i = some record ∧ record.owner = stake.owner
  held : ∀ stake, getStake i a = some stake → getStake i b = some stake ∨ stake.slashed = false ∧
    (getStake i b = none ∧ stake.owner ∈ auths ∨
      getStake i b = some stake.slash ∧ AdminSigned a auths)

theorem StakeStep.same (h : s'.ipStake i = s.ipStake i) : StakeStep auths s s' i := by
  refine ⟨fun stake hnone hsome => ?_, fun stake hstake => .inl (h.trans hstake)⟩
  cases hnone.symm.trans (h.symm.trans hsome)

theorem StakeStep.updated {j : ℕ} {stake : Option StakeRecord}
    (h : s'.ipStake = update s.ipStake j stake)
    (hj : s'.ipStake j = stake → StakeStep auths s s' j) : StakeStep auths s s' i := by
  by_cases hi : i = j
  · subst hi
    exact hj (by rw [h, update_self])
  · exact .same (by rw [h, update_of_ne hi])

theorem Staking.stakeStep (h : Staking auths s s') (i : ℕ) : StakeStep auths s s' i := by
  cases h with
  | kept hstakes => exact .same (congrFun hstakes i)
  | rescored owner delta hadmin hstakes => exact .same (congrFun hstakes i)
  | staked j record amount hr hauth hfree hstakes =>
    refine .updated hstakes fun hnew => ⟨fun stake _ hsome => ?_, fun stake hold => ?_⟩
    · obtain rfl := Option.some.inj (hnew.symm.trans hsome)
      exact ⟨rfl, hauth, record, hr, rfl⟩
    · cases hfree.symm.trans hold
  | slashed j stake hadmin hstake hopen hstakes =>
    refine .updated hstakes fun hnew => ⟨fun _ hnone _ => ?_, fun stake' hold => ?_⟩
    · cases hstake.symm.trans hnone
    · obtain rfl := Option.some.inj (hstake.symm.trans hold)
      exact .inr ⟨hopen, .inr ⟨hnew, hadmin⟩⟩
  | unstaked j stake hstake hauth hopen hstakes =>
    refine .updated hstakes fun hnew => ⟨fun _ hnone _ => ?_, fun stake' hold => ?_⟩
    · cases hstake.symm.trans hnone
    · obtain rfl := Option.some.inj (hstake.symm.trans hold)
      exact .inr ⟨hopen, .inl ⟨hnew, hauth⟩⟩

/-- In every run each lost dispute of an owner is one of his stakes that was slashed, a stake is put
up and taken back by its owner alone, slashed by the admin alone, and a slashed stake stays. -/
theorem slashes_counted (hrun : Run (ActStep crypto) State.empty tr s) :
    Scored s ∧ ∀ past a act b, (past, a, act, b) ∈ steps State.empty tr →
      ∀ i, StakeStep act.auths a b i :=
  ⟨hrun.invariant .empty fun _ _ _ h hact => h.step hact.staking,
    fun _ _ _ _ hmem i => (hrun.step_of_mem hmem).staking.stakeStep i⟩

end Counts

section Designs

open Scenario

/-- The inventor's stake is slashed by the contract, its own admin since the first commitment. -/
theorem design_slashed : ∃ (tr : List (Act × State)) (s : State),
    Run (ActStep Scenario.crypto) State.empty tr s ∧
      (s.ipStake 1).map StakeRecord.slashed = some true ∧ Scored s := by
  obtain ⟨tr, s, hrun, -, hseen⟩ := played State.empty
    [act 5 inventor (.commitIp inventor design 0), act 6 inventor (.stakeCommitment 1 100),
      act 7 currentContractAddress (.slashStake 1)]
    (fun s => (s.ipStake 1).map StakeRecord.slashed = some true) (by decide +kernel)
  exact ⟨tr, s, hrun, of_decide_eq_true hseen, (slashes_counted hrun).1⟩

end Designs

end AtomicIp.IpRegistry
