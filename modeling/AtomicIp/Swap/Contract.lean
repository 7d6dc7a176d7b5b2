import AtomicIp.Swap.Moves
import AtomicIp.Swap.Auction
import AtomicIp.Swap.Admin

/-!
The contract as a transition system: every state-changing entry point is a call, a
call that aborts leaves no trace, and between calls the token contracts may move
balances of other addresses.
-/

set_option autoImplicit false

namespace AtomicIp.AtomicSwap

inductive Call where
  | initializeContract (ipRegistry : Address)
  | setOracle (caller oracleAddress : Address) (enabled : Bool)
  | upgrade (newWasmHash : BytesN 32)
  | adminSetProtocolConfig (protocolFeeBps : ℕ) (treasury : Address)
      (disputeWindowSeconds disputeTimeoutSecs : ℕ) (referralFeeBps : ℕ)
  | setAdmin (newAdmin : Address)
  | pause (caller : Address)
  | unpause (caller : Address)
  | initializeMultiCurrency (caller : Address)
  | addSupportedToken (caller : Address) (token : SupportedToken) (metadata : TokenMetadata)
  | removeSupportedToken (caller : Address) (token : SupportedToken)
  | initiateSwap (token : Address) (ipId : ℕ) (seller : Address) (price : ℤ)
      (buyer : Address) (requiredApprovals : ℕ) (referrer : Option Address)
      (collateralAmount : ℤ) (insuranceEnabled : Bool)
  | initiateSwapWithOraclePrice (token : Address) (ipId : ℕ) (seller buyer : Address)
      (requiredApprovals : ℕ) (referrer : Option Address) (collateralAmount : ℤ)
      (insuranceEnabled : Bool) (minPrice maxPrice : ℤ)
  | batchInitiateSwap (token : Address) (ipIds : List ℕ) (seller : Address)
      (prices : List ℤ) (buyer : Address) (requiredApprovals : ℕ)
      (referrer : Option Address)
  | batchInitiateSwapWithInsurance (token : Address) (ipIds : List ℕ) (seller : Address)
      (prices : List ℤ) (buyer : Address) (requiredApprovals : ℕ)
      (referrer : Option Address) (insuranceEnabled : Bool)
  | initiateSwapWithSchedule (token : Address) (ipId : ℕ) (seller : Address)
      (schedule : List PaymentSchedule) (buyer : Address)
  | initiateEscrowSwap (token : Address) (ipId : ℕ) (seller : Address) (price : ℤ)
      (buyer : Address) (timeout : ℕ)
  | batchInitiateEscrow (token : Address) (ipIds : List ℕ) (seller : Address)
      (prices : List ℤ) (buyer : Address) (timeouts : List ℕ)
  | initiateSwapWithSigners (token : Address) (ipId : ℕ) (seller : Address)
      (price : ℤ) (buyer : Address) (signers : List Address)
  | acceptSwap (swapId : ℕ)
  | acceptSwapConditional (swapId : ℕ) (conditions : List SwapCondition)
  | acceptSwapPartial (swapId : ℕ) (quantity : ℕ)
  | batchAcceptSwaps (swapIds : List ℕ) (buyer : Address)
  | escrowDeposit (swapId : ℕ)
  | batchEscrowDeposit (swapIds : List ℕ) (buyer : Address)
  | makeScheduledPayment (swapId : ℕ) (paymentIndex : ℕ)
  | submitInstallmentPayment (swapId : ℕ) (paymentAmount : ℤ)
  | renegotiateSwap (swapId : ℕ) (newPrice : ℤ)
  | acceptRenegotiation (swapId : ℕ)
  | extendSwapExpiry (swapId : ℕ) (newExpiry : ℕ)
  | approveSwap (swapId : ℕ) (approver : Address)
  | setReputationMultiplier (swapId : ℕ) (minReputation : ℕ)
  | signSwapReveal (swapId : ℕ) (signer : Address)
  | revealKey (swapId : ℕ) (caller : Address) (secret blindingFactor : BytesN 32)
  | verifyAndCompleteSwap (swapId : ℕ) (caller : Address)
      (secret blindingFactor : BytesN 32)
  | batchRevealKeys (swapIds : List ℕ) (secrets blindingFactors : List (BytesN 32))
      (seller : Address)
  | raiseDispute (swapId : ℕ)
  | resolveDispute (swapId : ℕ) (caller : Address) (refunded : Bool)
  | autoResolveDispute (swapId : ℕ)
  | requestArbitration (swapId : ℕ) (requester : Address) (evidenceHash : BytesN 32)
  | autoRefundTimeout (swapId : ℕ)
  | arbitrateSwap (swapId : ℕ) (arbitrator : Address) (refund : Bool)
  | batchArbitrateSwaps (swapIds : List ℕ) (arbitrator : Address) (refund : Bool)
  | cancelSwap (swapId : ℕ) (canceller : Address)
  | cancelExpiredSwap (swapId : ℕ) (caller : Address)
  | cancelPendingSwap (swapId : ℕ) (caller : Address)
  | batchCancelSwaps (swapIds : List ℕ) (canceller : Address) (reasons : List Bytes)
  | escrowWithdraw (swapId : ℕ)
  | claimInsurance (swapId : ℕ)
  | validateAndRollbackSwap (swapId : ℕ) (isKeyValid : Bool)
  | adminRollbackSwap (swapId : ℕ) (caller : Address) (reason : Bytes)
  | batchRollbackSwaps (swapIds : List ℕ) (caller : Address) (reason : Bytes)
  | startIpAuction (token : Address) (ipId : ℕ) (seller : Address) (minBid : ℤ)
      (durationSeconds : ℕ)
  | placeBid (auctionId : ℕ) (bidder : Address) (bidAmount : ℤ)
  | finalizeAuction (auctionId : ℕ)

def exec (env : Env) : Call → SwapTx Unit
  | .initializeContract ipRegistry => initializeContract ipRegistry
  | .setOracle caller oracleAddress enabled => setOracle env caller oracleAddress enabled
  | .upgrade newWasmHash => upgrade env newWasmHash
  | .adminSetProtocolConfig fee treasury window timeout referral =>
      adminSetProtocolConfig env fee treasury window timeout referral
  | .setAdmin newAdmin => setAdmin env newAdmin
  | .pause caller => pause env caller
  | .unpause caller => unpause env caller
  | .initializeMultiCurrency caller => initializeMultiCurrency env caller
  | .addSupportedToken caller token metadata => addSupportedToken env caller token metadata
  | .removeSupportedToken caller token => removeSupportedToken env caller token
  | .initiateSwap token ipId seller price buyer approvals referrer collateral insured =>
      (initiateSwap env token ipId seller price buyer approvals referrer collateral
        insured).void
  | .initiateSwapWithOraclePrice token ipId seller buyer approvals referrer collateral
      insured minPrice maxPrice =>
      (initiateSwapWithOraclePrice env token ipId seller buyer approvals referrer collateral
        insured minPrice maxPrice).void
  | .batchInitiateSwap token ipIds seller prices buyer approvals referrer =>
      (batchInitiateSwap env token ipIds seller prices buyer approvals referrer).void
  | .batchInitiateSwapWithInsurance token ipIds seller prices buyer approvals referrer
      insured =>
      (batchInitiateSwapWithInsurance env token ipIds seller prices buyer approvals referrer
        insured).void
  | .initiateSwapWithSchedule token ipId seller schedule buyer =>
      (initiateSwapWithSchedule env token ipId seller schedule buyer).void
  | .initiateEscrowSwap token ipId seller price buyer timeout =>
      (initiateEscrowSwap env token ipId seller price buyer timeout).void
  | .batchInitiateEscrow token ipIds seller prices buyer timeouts =>
      (batchInitiateEscrow env token ipIds seller prices buyer timeouts).void
  | .initiateSwapWithSigners token ipId seller price buyer signers =>
      (initiateSwapWithSigners env token ipId seller price buyer signers).void
  | .acceptSwap swapId => acceptSwap env swapId
  | .acceptSwapConditional swapId conditions => acceptSwapConditional env swapId conditions
  | .acceptSwapPartial swapId quantity => acceptSwapPartial env swapId quantity
  | .batchAcceptSwaps swapIds buyer => batchAcceptSwaps env swapIds buyer
  | .escrowDeposit swapId => escrowDeposit env swapId
  | .batchEscrowDeposit swapIds buyer => batchEscrowDeposit env swapIds buyer
  | .makeScheduledPayment swapId paymentIndex => makeScheduledPayment env swapId paymentIndex
  | .submitInstallmentPayment swapId paymentAmount =>
      submitInstallmentPayment env swapId paymentAmount
  | .renegotiateSwap swapId newPrice => renegotiateSwap env swapId newPrice
  | .acceptRenegotiation swapId => acceptRenegotiation env swapId
  | .extendSwapExpiry swapId newExpiry => extendSwapExpiry env swapId newExpiry
  | .approveSwap swapId approver => approveSwap env swapId approver
  | .setReputationMultiplier swapId minReputation =>
      setReputationMultiplier env swapId minReputation
  | .signSwapReveal swapId signer => signSwapReveal env swapId signer
  | .revealKey swapId caller secret blindingFactor =>
      revealKey env swapId caller secret blindingFactor
  | .verifyAndCompleteSwap swapId caller secret blindingFactor =>
      verifyAndCompleteSwap env swapId caller secret blindingFactor
  | .batchRevealKeys swapIds secrets blindingFactors seller =>
      batchRevealKeys env swapIds secrets blindingFactors seller
  | .raiseDispute swapId => raiseDispute env swapId
  | .resolveDispute swapId caller refunded => resolveDispute env swapId caller refunded
  | .autoResolveDispute swapId => autoResolveDispute env swapId
  | .requestArbitration swapId requester evidenceHash =>
      requestArbitration env swapId requester evidenceHash
  | .autoRefundTimeout swapId => autoRefundTimeout env swapId
  | .arbitrateSwap swapId arbitrator refund => arbitrateSwap env swapId arbitrator refund
  | .batchArbitrateSwaps swapIds arbitrator refund =>
      batchArbitrateSwaps env swapIds arbitrator refund
  | .cancelSwap swapId canceller => cancelSwap env swapId canceller
  | .cancelExpiredSwap swapId caller => cancelExpiredSwap env swapId caller
  | .cancelPendingSwap swapId caller => cancelPendingSwap env swapId caller
  | .batchCancelSwaps swapIds canceller reasons =>
      (batchCancelSwaps env swapIds canceller reasons).void
  | .escrowWithdraw swapId => escrowWithdraw env swapId
  | .claimInsurance swapId => claimInsurance env swapId
  | .validateAndRollbackSwap swapId isKeyValid =>
      (validateAndRollbackSwap env swapId isKeyValid).void
  | .adminRollbackSwap swapId caller reason => adminRollbackSwap env swapId caller reason
  | .batchRollbackSwaps swapIds caller reason => batchRollbackSwaps env swapIds caller reason
  | .startIpAuction token ipId seller minBid durationSeconds =>
      (startIpAuction env token ipId seller minBid durationSeconds).void
  | .placeBid auctionId bidder bidAmount => placeBid env auctionId bidder bidAmount
  | .finalizeAuction auctionId => finalizeAuction env auctionId

/-- One step of the system: a call, or tokens changing hands elsewhere. -/
structure Act where
  env : Env
  call : Option Call

inductive ActStep : State → Act → State → Prop where
  | call {s s' : State} {env : Env} {call : Call} (h : exec env call s = .ok ((), s')) :
      ActStep s ⟨env, some call⟩ s'
  | elsewhere {s : State} {env : Env} (balance : Address → Address → ℤ)
      (h : ∀ t, s.balance t currentContractAddress ≤ balance t currentContractAddress) :
      ActStep s ⟨env, none⟩ { s with balance }

/-- A run from the empty contract, over whatever the token contracts hold, whose steps all
meet a condition on the state before them. -/
def Reaches (cond : State → Act → Prop) (tr : List (Act × State)) (s : State) : Prop :=
  ∃ balance, (∀ t, 0 ≤ balance t currentContractAddress) ∧
    Run (Restrict ActStep cond) (State.empty balance) tr s

def Always : State → Act → Prop := fun _ _ => True

/-- A condition on the calls, which lets everything outside the contract happen. -/
def OnCalls (cond : State → Env → Call → Prop) (s : State) (act : Act) : Prop :=
  ∀ call, act.call = some call → cond s act.env call

def newTransfers (s s' : State) : List TokenTransfer :=
  s'.transfers.drop s.transfers.length

section Play

/-- The state after some calls, if none of them aborts. -/
def play : State → List (Env × Call) → Except (Abort ContractError) State
  | s, [] => .ok s
  | s, (env, call) :: rest =>
    match exec env call s with
    | .ok (_, s') => play s' rest
    | .error e => .error e

variable {cond : State → Act → Prop} {calls : List (Env × Call)} {s s' : State}

theorem play_run {s₀ : State} {tr : List (Act × State)} (h : play s calls = .ok s')
    (hcond : ∀ p ∈ calls, ∀ s, cond s ⟨p.1, some p.2⟩)
    (hrun : Run (Restrict ActStep cond) s₀ tr s) :
    ∃ tr', Run (Restrict ActStep cond) s₀ tr' s' := by
  induction calls generalizing s tr with
  | nil =>
    cases h
    exact ⟨tr, hrun⟩
  | cons p rest ih =>
    obtain ⟨env, call⟩ := p
    cases hexec : exec env call s with
    | error e => simp [play, hexec] at h
    | ok q =>
      simp only [play, hexec] at h
      have hstep : Restrict ActStep cond s ⟨env, some call⟩ q.2 :=
        ⟨.call hexec, hcond (env, call) (by simp) s⟩
      exact ih h (fun p hp => hcond p (by simp [hp])) (hrun.next hstep)

theorem play_reaches {balance : Address → Address → ℤ}
    (h : play (State.empty balance) calls = .ok s)
    (hcond : ∀ p ∈ calls, ∀ s, cond s ⟨p.1, some p.2⟩)
    (hbalance : ∀ t, 0 ≤ balance t currentContractAddress) : ∃ tr, Reaches cond tr s := by
  obtain ⟨tr, hrun⟩ := play_run h hcond .start
  exact ⟨tr, balance, hbalance, hrun⟩

theorem played_of_isOk (h : (play s calls).isOk = true) : ∃ s', play s calls = .ok s' := by
  cases hplay : play s calls with
  | error e => simp [hplay, Except.isOk, Except.toBool] at h
  | ok s' => exact ⟨s', rfl⟩

def thenSee (env : Env) (call : Call) (seen : State → State → Bool) (s : State) : Bool :=
  match exec env call s with
  | .ok (_, s') => seen s s'
  | .error _ => false

theorem exec_of_thenSee {env : Env} {call : Call} {seen : State → State → Bool}
    (h : thenSee env call seen s = true) :
    ∃ s', exec env call s = .ok ((), s') ∧ seen s s' = true := by
  unfold thenSee at h
  cases hexec : exec env call s with
  | error e => simp [hexec] at h
  | ok q =>
    rw [hexec] at h
    exact ⟨q.2, rfl, h⟩

def watch (s : State) (calls : List (Env × Call)) (env : Env) (call : Call)
    (seen : State → State → Bool) : Bool :=
  match play s calls with
  | .ok s₁ => thenSee env call seen s₁
  | .error _ => false

theorem watched (cond : State → Act → Prop) (balance : Address → Address → ℤ)
    (calls : List (Env × Call)) (env : Env) (call : Call) (seen : State → State → Bool)
    (h : watch (State.empty balance) calls env call seen = true)
    (hcond : ∀ p ∈ calls, ∀ s, cond s ⟨p.1, some p.2⟩) :
    ∃ tr s₁ s₂, Run (Restrict ActStep cond) (State.empty balance) tr s₁ ∧
      exec env call s₁ = .ok ((), s₂) ∧ seen s₁ s₂ = true := by
  unfold watch at h
  cases hplay : play (State.empty balance) calls with
  | error e => simp [hplay] at h
  | ok s₁ =>
    obtain ⟨tr, hrun⟩ := play_run hplay hcond .start
    rw [hplay] at h
    obtain ⟨s₂, hexec, hseen⟩ := exec_of_thenSee h
    exact ⟨tr, s₁, s₂, hrun, hexec, hseen⟩

/-- The trace of some calls after another one, if none of them aborts. -/
def record (tr : List (Act × State)) : State → List (Env × Call) → Option (List (Act × State))
  | _, [] => some tr
  | s, (env, call) :: rest =>
    match exec env call s with
    | .ok (_, s') => record ((⟨env, some call⟩, s') :: tr) s' rest
    | .error _ => none

theorem record_run {s₀ : State} {tr tr' : List (Act × State)} (h : record tr s calls = some tr')
    (hcond : ∀ p ∈ calls, ∀ s, cond s ⟨p.1, some p.2⟩)
    (hrun : Run (Restrict ActStep cond) s₀ tr s) :
    ∃ s', Run (Restrict ActStep cond) s₀ tr' s' := by
  induction calls generalizing s tr with
  | nil =>
    obtain rfl := Option.some.inj h
    exact ⟨s, hrun⟩
  | cons p rest ih =>
    obtain ⟨env, call⟩ := p
    cases hexec : exec env call s with
    | error e => simp [record, hexec] at h
    | ok q =>
      simp only [record, hexec] at h
      have hstep : Restrict ActStep cond s ⟨env, some call⟩ q.2 :=
        ⟨.call hexec, hcond (env, call) (by simp) s⟩
      exact ih h (fun p hp => hcond p (by simp [hp])) (hrun.next hstep)

theorem seenInTrace (cond : State → Act → Prop) (balance : Address → Address → ℤ)
    (calls : List (Env × Call)) (seen : List (Act × State) → State → Act → State → Bool)
    (h : ((record [] (State.empty balance) calls).any fun tr =>
      (steps (State.empty balance) tr).any fun p => seen p.1 p.2.1 p.2.2.1 p.2.2.2) = true)
    (hcond : ∀ p ∈ calls, ∀ s, cond s ⟨p.1, some p.2⟩) :
    ∃ tr s past s₁ act s₂, Run (Restrict ActStep cond) (State.empty balance) tr s ∧
      (past, s₁, act, s₂) ∈ steps (State.empty balance) tr ∧ seen past s₁ act s₂ = true := by
  obtain ⟨tr, hrecord, hsteps⟩ := (Option.any_eq_true _ _).mp h
  obtain ⟨s, hrun⟩ := record_run hrecord hcond .start
  obtain ⟨⟨past, s₁, act, s₂⟩, hmem, hseen⟩ := List.any_eq_true.mp hsteps
  exact ⟨tr, s, past, s₁, act, s₂, hrun, hmem, hseen⟩

end Play

namespace Scenario

/-! A sale to try the contract on. -/

def seller : Address := .account 1

def buyer : Address := .account 2

def stranger : Address := .account 3

def registry : Address := .contract 1

def token : Address := .contract 2

def secret : BytesN 32 := .fill 32 7

def client : IpRegistryClient where
  getIp ipId := some
    { ipId, owner := seller, commitmentHash := .fill 32 1, timestamp := 0, revoked := false,
      coOwners := [], parentIpId := none, notarySignature := none }
  verifyCommitment _ key blindingFactor := some (decide (key = secret ∧ blindingFactor = secret))

def env (auths : List Address) (timestamp : ℕ) : Env where
  timestamp := timestamp
  auths := auths
  registry _ := client
  oracle _ _ := none

def funds : Address → Address → ℤ := fun _ a => if a = buyer ∨ a = stranger then 10000 else 0

theorem funds_contract (t : Address) : 0 ≤ funds t currentContractAddress := by
  simp only [funds]
  decide

def offer : List (Env × Call) :=
  [(env [] 0, .initializeContract registry),
    (env [seller] 1, .initiateSwap token 1 seller 1000 buyer 0 none 100 true)]

def sale : List (Env × Call) := offer ++ [(env [buyer] 2, Call.acceptSwap 0)]

end Scenario

end AtomicIp.AtomicSwap
