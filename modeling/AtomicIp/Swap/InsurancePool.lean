import AtomicIp.Swap.Accounts

/-!
The insurance pool under rollbacks of the admin. A rollback pays the premium back out of the
escrow and leaves the pool as it was, also for a swap whose premium was never collected.
-/

set_option autoImplicit false

namespace AtomicIp.AtomicSwap

open Function

def Call.rollsBack : Call → List ℕ
  | .adminRollbackSwap i _ _ => [i]
  | .batchRollbackSwaps ids _ _ => ids
  | _ => []

/-- None of the swaps is held with a premium. -/
def Uninsured (swap : ℕ → Option SwapRecord) (ids : List ℕ) : Prop :=
  ∀ i ∈ ids, ∀ r, swap i = some r → r.status = .accepted ∨ r.status = .disputed →
    r.insurancePremium ≤ 0

def Call.KeepsAccounts : Call → Prop
  | .arbitrateSwap .. | .batchRevealKeys .. | .validateAndRollbackSwap ..
  | .makeScheduledPayment .. | .finalizeAuction .. => False
  | _ => True

/-- No swap held with a premium is rolled back by the admin. -/
def SparesPool (s : State) (env : Env) (call : Call) : Prop :=
  env.Hosted ∧ call.KeepsAccounts ∧ Uninsured s.swap call.rollsBack

section Steps

variable {env : Env} {call : Call} {c c' : Escrow} {m : Move} {s s' : State} {act : Act}

theorem Call.KeepsAccounts.backs (h : call.KeepsAccounts) (hm : call.yields m)
    (hids : Uninsured c.swap call.rollsBack) : c.Backs m := by
  cases m with
  | scheduled =>
    obtain ⟨index, rfl⟩ := Call.yields_source hm
    exact h
  | rolledBack =>
    obtain rfl := Call.yields_source hm
    exact h
  | released i w =>
    cases w with
    | arbitration =>
      obtain ⟨a, rfl⟩ := Call.yields_source hm
      exact h
    | batchKey k =>
      obtain ⟨ids, secrets, blindingFactors, seller, -, -, rfl⟩ := Call.yields_source hm
      exact h
    | _ => trivial
  | refunded i w =>
    cases w with
    | arbitration =>
      obtain ⟨a, rfl⟩ := Call.yields_source hm
      exact h
    | _ => trivial
  | adminRolledBack i =>
    intro r hr hlive
    rcases Call.yields_source hm with ⟨caller, reason, rfl⟩ | ⟨ids, caller, reason, hi, rfl⟩
    · exact hids i (by simp [Call.rollsBack]) r hr hlive
    · exact hids i hi r hr hlive
  | _ => trivial

theorem Call.KeepsAccounts.not_finalized (h : call.KeepsAccounts) (hm : call.yields m) (j : ℕ) :
    m ≠ .finalized j := by
  intro heq
  subst heq
  obtain rfl := Call.yields_source hm
  exact h

theorem Uninsured.step {ids : List ℕ} (h : Uninsured c.swap ids) (hstep : Step env c m c')
    (hm : ids ≠ [] → ∃ i, m = .adminRolledBack i) : Uninsured c'.swap ids := by
  intro j hj r hr hlive
  obtain ⟨i, rfl⟩ := hm (List.ne_nil_of_mem hj)
  cases hstep.rewrites with
  | same hswap => exact h j hj r (hswap ▸ hr) hlive
  | moved k r₀ r' hk hr₀ hswap hmoved =>
    by_cases hjk : j = k
    · obtain rfl : r' = r := by simpa [hswap, hjk] using hr
      have hst : r'.status = .cancelled := hmoved.status
      rw [hst] at hlive
      simp at hlive
    · exact h j hj r (by simpa [hswap, hjk] using hr) hlive
  | added r' haims => simp [Move.aims] at haims

structure Funded (c : Escrow) : Prop where
  covers : Covered c
  accounts : Accounted c

theorem Step.funded (hstep : Step env c m c') (h : Funded c) (henv : env.Hosted)
    (hm : c.Backs m) (hsale : ∀ j, m ≠ .finalized j) : Funded c' where
  covers := ⟨hstep.wf h.covers.wf, hstep.covered h.covers hm (hstep.payer henv)⟩
  accounts := hstep.accounted h.covers.wf h.accounts hm (hstep.payer henv) hsale

theorem Call.rollsBack_yields (hm : call.yields m) (hids : call.rollsBack ≠ []) :
    ∃ i, m = .adminRolledBack i := by
  cases call with
  | adminRollbackSwap i => exact ⟨i, hm⟩
  | batchRollbackSwaps =>
    obtain ⟨i, -, rfl⟩ := hm
    exact ⟨i, rfl⟩
  | _ => exact absurd rfl hids

theorem ActStep.funded (hact : ActStep s act s') (hcond : OnCalls SparesPool s act)
    (h : Funded s.escrow) : Funded s'.escrow := by
  obtain ⟨q, hmoves⟩ := hact.answers
  cases hcall : act.call with
  | none =>
    refine hmoves.invariant ?_ h
    intro c m c' hm hc hstep
    obtain rfl : m = .received := by simpa [Act.yields, hcall] using hm.1
    refine ⟨⟨hstep.wf hc.covers.wf, hstep.covered hc.covers trivial (by simp [Escrow.payer?])⟩, ?_⟩
    exact hstep.accounted hc.covers.wf hc.accounts trivial (by simp [Escrow.payer?]) (by simp)
  | some call =>
    obtain ⟨henv, hkeeps, hids⟩ := hcond call hcall
    have hall : Funded s'.escrow ∧ Uninsured s'.escrow.swap call.rollsBack := by
      refine hmoves.invariant (I := fun c => Funded c ∧ Uninsured c.swap call.rollsBack) ?_
        ⟨h, hids⟩
      intro c m c' hm hc hstep
      have hyields : call.yields m := by simpa [Act.yields, hcall] using hm.1
      exact ⟨hstep.funded hc.1 henv (hkeeps.backs hyields hc.2) (hkeeps.not_finalized hyields),
        hc.2.step hstep (Call.rollsBack_yields hyields)⟩
    exact hall.1

theorem Funded.empty {balance : Address → Address → ℤ}
    (hbalance : ∀ t, 0 ≤ balance t currentContractAddress) :
    Funded (State.empty balance).escrow where
  covers := (Solvent.empty hbalance).covers
  accounts := ⟨by simp [State.escrow, State.empty], .empty balance⟩

end Steps

/-- Rollbacks of swaps without a premium leave the pool, the prices and the collateral covered,
and refund what was collected for the swap. -/
theorem pool_funded {tr : List (Act × State)} {s : State}
    (h : Reaches (OnCalls SparesPool) tr s) :
    (∀ t, s.escrow.obligations t ≤ s.balance t currentContractAddress) ∧
    ∀ i r, s.swap i = some r → paidOutFor i s.transfers ≤ collectedFrom r.buyer i s.transfers := by
  obtain ⟨balance, hbalance, hrun⟩ := h
  have hfunded := hrun.invariant (I := fun s => Funded s.escrow) (.empty hbalance)
    fun _ _ _ hs hact => hact.1.funded hact.2 hs
  refine ⟨hfunded.covers.covered, ?_⟩
  intro i r hr
  have hwf := hfunded.covers.wf
  have hcovered := hfunded.accounts.covered i r hr
  have hdue := due_nonneg (hwf.stored i r hr).2
  have hheld : 0 ≤ (s.escrow.swapCollateral i).getD 0 := by
    cases hx : s.escrow.swapCollateral i with
    | none => simp
    | some x =>
      obtain ⟨r₁, -, hpos, rfl⟩ := hwf.collateral i x hx
      exact hpos.le
  change paidOutFor i s.escrow.transfers ≤ collectedFrom r.buyer i s.escrow.transfers
  omega

section Runs

open Scenario

def saleWithAdmin (insured : Bool) : List (Env × Call) :=
  [(env [] 0, .initializeContract registry),
    (env [seller] 1, .initiateSwap token 1 seller 1000 buyer 0 none 100 insured),
    (env [buyer] 2, .acceptSwap 0), (env [stranger] 3, .setAdmin stranger)]

theorem uninsured_sale_funded : ∃ tr s r, Reaches (OnCalls SparesPool) tr s ∧
    s.swap 0 = some r ∧ r.status = .cancelled ∧
    s.escrow.obligations token ≤ s.balance token currentContractAddress := by
  obtain ⟨tr, s₁, s₂, hrun, hexec, hseen⟩ := watched (OnCalls SparesPool) funds
    (saleWithAdmin false) (env [stranger] 4) (.adminRollbackSwap 0 stranger [])
    (fun s s' => (s.swap 0).all (fun r => r.insurancePremium ≤ 0) ∧
      (s'.swap 0).any fun r => r.status = .cancelled) (by decide)
    (by simp [saleWithAdmin, OnCalls, SparesPool, Env.Hosted, Call.KeepsAccounts, Uninsured,
      Call.rollsBack, env, currentContractAddress, seller, buyer, stranger])
  simp only [decide_eq_true_eq, Option.all_eq_true, Option.any_eq_true] at hseen
  obtain ⟨hpremium, r, hr, hst⟩ := hseen
  have hspares : SparesPool s₁ (env [stranger] 4) (.adminRollbackSwap 0 stranger []) := by
    refine ⟨by simp [Env.Hosted, env, currentContractAddress, stranger], trivial, ?_⟩
    intro i hi r hr _
    obtain rfl : i = 0 := by simpa [Call.rollsBack] using hi
    exact hpremium r hr
  have hreach : Reaches (OnCalls SparesPool) _ s₂ := ⟨funds, funds_contract,
    hrun.next (k := ⟨env [stranger] 4, some (.adminRollbackSwap 0 stranger [])⟩)
      ⟨.call hexec, by simpa [OnCalls] using hspares⟩⟩
  exact ⟨_, s₂, r, hreach, hr, hst, (pool_funded hreach).1 token⟩

/-- The premium of an insured sale goes back to the buyer, and the pool still counts it. -/
theorem pool_left_unfunded : ∃ tr s,
    Reaches (OnCalls fun _ env call => env.Hosted ∧ call.KeepsAccounts) tr s ∧
    s.balance token currentContractAddress = 0 ∧ s.escrow.pool token = 20 ∧
    ¬ s.escrow.obligations token ≤ s.balance token currentContractAddress := by
  obtain ⟨tr, s₁, s₂, hrun, hexec, hseen⟩ := watched
    (OnCalls fun _ env call => env.Hosted ∧ call.KeepsAccounts) funds (saleWithAdmin true)
    (env [stranger] 4) (.adminRollbackSwap 0 stranger [])
    (fun _ s => s.balance token currentContractAddress = 0 ∧ s.escrow.pool token = 20 ∧
      ¬ s.escrow.obligations token ≤ s.balance token currentContractAddress) (by decide)
    (by simp [saleWithAdmin, OnCalls, Env.Hosted, Call.KeepsAccounts, env, currentContractAddress,
      seller, buyer, stranger])
  have hreach := hrun.next (k := ⟨env [stranger] 4, some (.adminRollbackSwap 0 stranger [])⟩)
    ⟨.call hexec, by simp [OnCalls, Env.Hosted, Call.KeepsAccounts, env, currentContractAddress,
      stranger]⟩
  exact ⟨_, s₂, ⟨funds, funds_contract, hreach⟩, of_decide_eq_true hseen⟩

end Runs

end AtomicIp.AtomicSwap
