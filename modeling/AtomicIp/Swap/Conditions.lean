import AtomicIp.Swap.AuditTrail

set_option autoImplicit false

namespace AtomicIp.AtomicSwap

open Function Tx

/-- What is stored with a swap holds now, and nothing is stored before the swap is accepted. -/
structure Meets (env : Env) (r : SwapRecord) : Prop where
  holds : ∀ condition ∈ r.conditions, condition.holds env r
  none_yet : r.status = .pending → r.conditions = []

def AllMeet (env : Env) (c : Escrow) : Prop := ∀ i r, c.swap i = some r → Meets env r

section Records

variable {env env' : Env} {c c' : Escrow} {i : ℕ} {r r' : SwapRecord} {q : SwapStatus}

theorem Meets.later (h : Meets env r) (htime : env.timestamp ≤ env'.timestamp) : Meets env' r where
  holds condition hmem := by
    have hnow := h.holds condition hmem
    cases condition with
    | keyValid => trivial
    | priceBelow threshold => exact hnow
    | timeAfter ts => exact Nat.le_trans hnow htime
  none_yet := h.none_yet

theorem AllMeet.later (h : AllMeet env c) (htime : env.timestamp ≤ env'.timestamp) :
    AllMeet env' c := fun i r hr => (h i r hr).later htime

theorem meets_of_none (h : r.conditions = []) : Meets env r := ⟨by simp [h], fun _ => h⟩

theorem Meets.settled (h : Meets env r) (hconditions : r'.conditions = r.conditions)
    (hprice : r'.price = r.price) (hstatus : r'.status ≠ .pending) : Meets env r' where
  holds condition hmem := by
    have hold := h.holds condition (hconditions ▸ hmem)
    cases condition with
    | keyValid => trivial
    | priceBelow threshold =>
      change r'.price < threshold
      rw [hprice]
      exact hold
    | timeAfter ts => exact hold
  none_yet hpending := absurd hpending hstatus

theorem Meets.amended (h : Meets env r) (hfrom : r.status = .pending)
    (hconditions : r'.conditions = r.conditions) : Meets env r' :=
  meets_of_none (hconditions.trans (h.none_yet hfrom))

theorem AllMeet.moved (h : AllMeet env c) (hr : c.swap i = some r)
    (hswap : ∀ j, c'.swap j = if j = i then some r' else c.swap j)
    (hmeets : Meets env r → Meets env r') : AllMeet env c' := by
  intro j rj hj
  by_cases hji : j = i
  · obtain rfl : r' = rj := by simpa [hswap, hji] using hj
    exact hmeets (h i r hr)
  · exact h j rj (by simpa [hswap, hji] using hj)

end Records

section Moves

def Move.rewrites : Move → Bool
  | .initiated _ | .finalized _ | .accepted _ | .installment .. | .scheduled .. => true
  | _ => false

def Call.rewrites : Call → Bool
  | .initiateSwap .. | .initiateSwapWithOraclePrice .. | .batchInitiateSwap ..
  | .batchInitiateSwapWithInsurance .. | .initiateSwapWithSchedule .. | .initiateEscrowSwap ..
  | .batchInitiateEscrow .. | .initiateSwapWithSigners .. | .acceptSwap _
  | .acceptSwapConditional .. | .acceptSwapPartial .. | .batchAcceptSwaps .. | .escrowDeposit _
  | .batchEscrowDeposit .. | .makeScheduledPayment .. | .submitInstallmentPayment ..
  | .finalizeAuction _ => true
  | _ => false

variable {env : Env} {c c' : Escrow} {m : Move} {call : Call}

theorem Call.yields_rewrites (hcall : call.rewrites = false) (hm : call.yields m) :
    m.rewrites = false := by
  cases call with
  | initializeContract | setAdmin | renegotiateSwap | acceptRenegotiation | extendSwapExpiry
  | revealKey | raiseDispute | autoResolveDispute | autoRefundTimeout | cancelSwap
  | cancelPendingSwap | cancelExpiredSwap | escrowWithdraw | claimInsurance | adminRollbackSwap
  | placeBid =>
    obtain rfl := hm
    rfl
  | verifyAndCompleteSwap =>
    rcases hm with rfl | rfl
    · rfl
    · rfl
  | batchRevealKeys =>
    obtain ⟨_, -, _, -, rfl⟩ := hm
    rfl
  | resolveDispute _ _ refunded | arbitrateSwap _ _ refunded =>
    obtain rfl := hm
    cases refunded <;> rfl
  | batchArbitrateSwaps _ _ refund =>
    obtain ⟨_, -, rfl⟩ := hm
    cases refund <;> rfl
  | batchCancelSwaps | batchRollbackSwaps =>
    obtain ⟨_, -, rfl⟩ := hm
    rfl
  | validateAndRollbackSwap =>
    obtain ⟨-, rfl⟩ := hm
    rfl
  | startIpAuction =>
    obtain ⟨_, rfl, -⟩ := hm
    rfl
  | setOracle | upgrade | adminSetProtocolConfig | pause | unpause | initializeMultiCurrency
  | addSupportedToken | removeSupportedToken | approveSwap | setReputationMultiplier
  | signSwapReveal | requestArbitration => exact hm.elim
  | _ => cases hcall

theorem Step.allMeet (hstep : Step env c m c') (hm : m.rewrites = false) (h : AllMeet env c) :
    AllMeet env c' := by
  cases hstep with
  | configured | received | offered | claimed | auctionStarted | bid => exact h
  | repriced hr hfrom =>
    exact h.moved hr (fun j => swap_setSwap c _ j _) fun hmeets => hmeets.amended hfrom rfl
  | extended _ hr hfrom =>
    exact h.moved hr (fun j => swap_setSwap c _ j _) fun hmeets => hmeets.amended hfrom rfl
  | disputed hr | rolledBack hr =>
    exact h.moved hr (fun j => swap_setSwap c _ j _) fun hmeets => hmeets.settled rfl rfl (by simp)
  | cancelled hr | released hr | refunded hr | withdrawn hr | adminRolledBack hr =>
    exact h.moved hr (fun j => swap_close c _ j _ _) fun hmeets => hmeets.settled rfl rfl (by simp)
  | initiated | accepted | installment | scheduled | unsold | sold => cases hm

end Moves

section Offers

/-- What was stored with the swaps before still holds, and so does what is stored now. -/
def Upholds (env : Env) (s s' : State) : Prop := AllMeet env s.escrow → AllMeet env s'.escrow

variable {env : Env} {s s' s₁ : State} {call : Call} {u : Unit}

theorem Upholds.refl (s : State) : Upholds env s s := fun h => h

theorem Upholds.trans (h : Upholds env s s₁) (h' : Upholds env s₁ s') : Upholds env s s' :=
  fun hs => h' (h hs)

theorem exec_lists_upholds (h : exec env call s = .ok (u, s')) (hlists : call.lists = true) :
    Upholds env s s' := by
  intro hs i r hr
  cases (exec_lists h hlists).listedTo.listed i with
  | same hswap => exact hs i r (hswap.symm.trans hr)
  | new r₁ _ hoffer hswap =>
    obtain rfl := Option.some.inj (hswap.symm.trans hr)
    exact meets_of_none hoffer.conditions

end Offers

section Acceptances

variable {env : Env} {s s' : State} {u : Unit} {i : ℕ} {r r' : SwapRecord}
  {conditions : List SwapCondition}

theorem upholds_of_accepted (hr : s.escrow.swap i = some r)
    (hswap : ∀ j, s'.escrow.swap j =
      if j = i then some (r.acceptedAt env.timestamp) else s.escrow.swap j) :
    Upholds env s s' :=
  fun h => h.moved hr hswap fun hmeets => hmeets.settled rfl rfl (by simp [SwapRecord.acceptedAt])

theorem acceptSwap_upholds (h : acceptSwap env i s = .ok (u, s')) : Upholds env s s' := by
  obtain ⟨r, deposits, premium, hr, -, -, -, -, -, -, e⟩ := acceptSwap_escrow h
  refine upholds_of_accepted hr fun j => ?_
  rw [e]
  exact swap_setSwap _ i j _

theorem acceptSwapConditional_upholds (h : acceptSwapConditional env i conditions s = .ok (u, s')) :
    Upholds env s s' := by
  obtain ⟨r, hr, -, -, -, -, hholds, e⟩ := acceptSwapConditional_escrow h
  have hswap : ∀ j, s'.escrow.swap j = if j = i
      then some (SwapRecord.acceptedAt { r with conditions } env.timestamp)
      else s.escrow.swap j := by
    intro j
    rw [e]
    exact swap_setSwap s.escrow i j _
  have hmeets : Meets env (SwapRecord.acceptedAt { r with conditions } env.timestamp) := by
    refine ⟨fun condition hmem => ?_, fun hpending => by cases hpending⟩
    have hold := hholds condition hmem
    cases condition with
    | keyValid => trivial
    | priceBelow | timeAfter => exact hold
  intro hs
  exact hs.moved hr hswap fun _ => hmeets

theorem acceptSwapPartial_upholds {quantity : ℕ}
    (h : acceptSwapPartial env i quantity s = .ok (u, s')) : Upholds env s s' := by
  obtain ⟨r, price, hr, hfrom, -, -, -, e⟩ := acceptSwapPartial_escrow h
  have hswap : ∀ j, s'.escrow.swap j = if j = i
      then some (SwapRecord.acceptedAt { r with price, quantity } env.timestamp)
      else s.escrow.swap j := by
    intro j
    rw [e]
    exact swap_setSwap s.escrow i j _
  intro hs
  exact hs.moved hr hswap fun hmeets => hmeets.amended hfrom rfl

theorem acceptValidated_upholds (h : acceptValidated env i s = .ok (u, s')) : Upholds env s s' := by
  obtain ⟨r, deposits, premium, hr, -, -, -, e⟩ := acceptValidated_escrow h
  refine upholds_of_accepted hr fun j => ?_
  rw [e]
  exact swap_setSwap _ i j _

theorem batchAcceptSwaps_upholds {ids : List ℕ} {buyer : Address}
    (h : batchAcceptSwaps env ids buyer s = .ok (u, s')) : Upholds env s s' := by
  obtain ⟨-, -, -, _, s₁, hloop, rfl⟩ := batchAcceptSwaps_passes h
  have hupholds : Upholds env s s₁ := Tx.forEach_rel Upholds.refl Upholds.trans
    (fun _ _ _ _ _ hbody => acceptValidated_upholds hbody) hloop
  exact hupholds

theorem depositEscrow_upholds (hr : s.escrow.swap i = some r)
    (h : depositEscrow env i r s = .ok (u, s')) : Upholds env s s' := by
  obtain ⟨-, -, e⟩ := depositEscrow_escrow h
  refine upholds_of_accepted hr fun j => ?_
  rw [e]
  exact swap_setSwap _ i j _

theorem escrowDeposit_upholds (h : escrowDeposit env i s = .ok (u, s')) : Upholds env s s' := by
  obtain ⟨r, hr, -, hdeposit⟩ := escrowDeposit_ok.mp h
  exact depositEscrow_upholds hr hdeposit

theorem batchEscrowDeposit_upholds {ids : List ℕ} {buyer : Address}
    (h : batchEscrowDeposit env ids buyer s = .ok (u, s')) : Upholds env s s' := by
  obtain ⟨-, _, hloop⟩ := batchEscrowDeposit_ok.mp h
  refine Tx.forEach_rel Upholds.refl Upholds.trans ?_ hloop
  intro i _ s _ s' hbody
  obtain ⟨r, hr, -, hdeposit⟩ := depositOwn_ok.mp hbody
  exact depositEscrow_upholds hr hdeposit

theorem makeScheduledPayment_upholds {index : ℕ}
    (h : makeScheduledPayment env i index s = .ok (u, s')) : Upholds env s s' := by
  by_cases hdone : ScheduleDone s i index
  · obtain ⟨r, r', payment, hpays⟩ := makeScheduledPayment_pays h
    refine upholds_of_accepted hpays.stored fun j => ?_
    rw [hpays.escrow, hpays.done hdone]
    exact swap_setSwap _ i j _
  · have hswap := makeScheduledPayment_open h hdone
    intro hs i r hr
    exact hs i r (hswap ▸ hr)

theorem submitInstallmentPayment_upholds {amount : ℤ}
    (h : submitInstallmentPayment env i amount s = .ok (u, s')) : Upholds env s s' := by
  obtain ⟨r, r', hpays⟩ := submitInstallmentPayment_pays h
  have hconditions : r'.conditions = r.conditions := by
    by_cases hdone : r.price ≤ saturatingI128 (r.paidAmount + amount)
    · rw [hpays.done hdone]
      rfl
    · rw [hpays.open_ hdone]
      rfl
  intro hs
  refine hs.moved hpays.stored (fun j => ?_) fun hmeets => hmeets.amended hpays.pending hconditions
  rw [hpays.escrow]
  exact swap_setSwap _ i j _

end Acceptances

section Runs

variable {env : Env} {s s' : State} {call : Call} {act : Act} {u : Unit}

theorem exec_upholds (h : exec env call s = .ok (u, s')) : Upholds env s s' := by
  cases hlists : call.lists with
  | true => exact exec_lists_upholds h hlists
  | false =>
    cases hcall : call.rewrites with
    | false =>
      obtain ⟨q, hmoves⟩ := exec_answers h
      exact hmoves.invariant (I := AllMeet env)
        fun _ _ _ hm hc hstep => hstep.allMeet (Call.yields_rewrites hcall hm.1) hc
    | true =>
      cases call with
      | acceptSwap => exact acceptSwap_upholds h
      | acceptSwapConditional => exact acceptSwapConditional_upholds h
      | acceptSwapPartial => exact acceptSwapPartial_upholds h
      | batchAcceptSwaps => exact batchAcceptSwaps_upholds h
      | escrowDeposit => exact escrowDeposit_upholds h
      | batchEscrowDeposit => exact batchEscrowDeposit_upholds h
      | makeScheduledPayment => exact makeScheduledPayment_upholds h
      | submitInstallmentPayment => exact submitInstallmentPayment_upholds h
      | initiateSwap | initiateSwapWithOraclePrice | batchInitiateSwap | initiateEscrowSwap
      | batchInitiateSwapWithInsurance | initiateSwapWithSchedule | batchInitiateEscrow
      | initiateSwapWithSigners | finalizeAuction => cases hlists
      | _ => cases hcall

theorem ActStep.upholds (hact : ActStep s act s') : Upholds act.env s s' := by
  cases hact with
  | call hexec => exact exec_upholds hexec
  | elsewhere => exact fun h => h

/-- Now is no earlier than anything that has happened. -/
def Since (past : List (Act × State)) (env : Env) : Prop :=
  ∀ p ∈ past, p.1.env.timestamp ≤ env.timestamp

/-- As long as the ledger time does not go back, every stored condition holds at any time from the
last step on, and a swap has none before it is accepted. -/
theorem conditions_hold {balance : Address → Address → ℤ} {tr : List (Act × State)} {i : ℕ}
    {r : SwapRecord} (hrun : Run ActStep (State.empty balance) tr s) (htime : InTime tr)
    (hsince : Since tr env) (hr : s.swap i = some r) :
    (∀ condition ∈ r.conditions, condition.holds env r) ∧
      (r.status = .pending → r.conditions = []) ∧
        ∀ t, evaluateConditions env r t = .ok ((), t) := by
  have hall : AllMeet env s.escrow := by
    clear hr
    induction hrun generalizing env with
    | start =>
      intro i r hr
      simp [State.escrow, State.empty] at hr
    | @next tr s s' act hrun hact ih =>
      obtain ⟨hpast, htime⟩ := List.pairwise_cons.mp htime
      have hbefore : AllMeet act.env s.escrow :=
        ih htime fun p hp => hpast _ (List.mem_map.mpr ⟨p, hp, rfl⟩)
      exact (hact.upholds hbefore).later (hsince (act, s') (by simp))
  have hmeets := hall i r hr
  refine ⟨hmeets.holds, hmeets.none_yet, fun t => ?_⟩
  exact evaluateConditions_ok.mpr ⟨hmeets.holds, rfl⟩

end Runs

section Sales

open Scenario

/-- A sale below a price and not before a time, looked at when that time is past. -/
theorem conditional_sale_holds : ∃ (s : State) (r : SwapRecord), s.swap 0 = some r ∧
    r.status = .accepted ∧ r.conditions = [.keyValid, .priceBelow 2000, .timeAfter 2] ∧
    ∀ condition ∈ r.conditions, condition.holds (env [seller] 5) r := by
  have hcalls : ∃ s₁ s₂ s₃ r,
      exec (env [] 0) (.initializeContract registry) (State.empty funds) = .ok ((), s₁) ∧
      exec (env [seller] 1) (.initiateSwap token 1 seller 1000 buyer 0 none 0 false) s₁
        = .ok ((), s₂) ∧
      exec (env [buyer] 2) (.acceptSwapConditional 0 [.keyValid, .priceBelow 2000, .timeAfter 2]) s₂
        = .ok ((), s₃) ∧
      s₃.swap 0 = some r ∧ r.status = .accepted ∧
      r.conditions = [.keyValid, .priceBelow 2000, .timeAfter 2] :=
    ⟨_, _, _, _, rfl, rfl, rfl, rfl, rfl, rfl⟩
  obtain ⟨s₁, s₂, s₃, r, h₁, h₂, h₃, hr, hstatus, hconditions⟩ := hcalls
  have hrun := ((Run.start.next (ActStep.call h₁)).next (ActStep.call h₂)).next (ActStep.call h₃)
  have hheld := conditions_hold hrun (by simp [InTime, env])
    (show Since _ (env [seller] 5) by simp [Since, env]) hr
  exact ⟨s₃, r, hr, hstatus, hconditions, hheld.1⟩

end Sales

end AtomicIp.AtomicSwap
