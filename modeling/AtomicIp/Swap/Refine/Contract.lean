import AtomicIp.Swap.Contract
import AtomicIp.Swap.Refine.Acceptance
import AtomicIp.Swap.Refine.Auction
import AtomicIp.Swap.Refine.Recovery

set_option autoImplicit false

namespace AtomicIp.AtomicSwap

open Function

def Call.yields : Call → Move → Prop
  | .initializeContract _ | .setAdmin _ => (· = .configured)
  | .initiateSwap _ ipId seller _ buyer _ referrer _ _ => Opens [ipId] seller buyer referrer
  | .initiateSwapWithOraclePrice _ ipId seller buyer _ referrer _ _ _ _ =>
      Opens [ipId] seller buyer referrer
  | .batchInitiateSwap _ ipIds seller _ buyer _ referrer => Opens ipIds seller buyer referrer
  | .batchInitiateSwapWithInsurance _ ipIds seller _ buyer _ referrer _ =>
      Opens ipIds seller buyer referrer
  | .initiateSwapWithSchedule _ ipId seller _ buyer => Opens [ipId] seller buyer none
  | .initiateEscrowSwap _ ipId seller _ buyer _ => Opens [ipId] seller buyer none
  | .batchInitiateEscrow _ ipIds seller _ buyer _ => Opens ipIds seller buyer none
  | .initiateSwapWithSigners _ ipId seller _ buyer _ => Opens [ipId] seller buyer none
  | .acceptSwap i | .acceptSwapConditional i _ | .acceptSwapPartial i _ | .escrowDeposit i =>
      (· = .accepted i)
  | .batchAcceptSwaps ids _ | .batchEscrowDeposit ids _ => (∃ i ∈ ids, · = .accepted i)
  | .makeScheduledPayment i _ => (∃ last, · = .scheduled i last)
  | .submitInstallmentPayment i _ => (∃ last, · = .installment i last)
  | .renegotiateSwap i _ => (· = .offered i)
  | .acceptRenegotiation i | .extendSwapExpiry i _ => (· = .amended i)
  | .revealKey i _ secret blindingFactor => (· = .released i (.key ⟨secret, blindingFactor⟩))
  | .verifyAndCompleteSwap i _ secret blindingFactor => fun m =>
      m = .released i (.key ⟨secret, blindingFactor⟩) ∨ m = .refunded i .refusedKey
  | .batchRevealKeys ids secrets blindingFactors _ =>
      (∃ i ∈ ids, ∃ k ∈ List.zipWith Key.mk secrets blindingFactors, · = .released i (.batchKey k))
  | .raiseDispute i => (· = .disputed i)
  | .resolveDispute i _ refunded => (· = verdict refunded .ruling i)
  | .autoResolveDispute i | .autoRefundTimeout i => (· = .refunded i .timeout)
  | .arbitrateSwap i _ refund => (· = verdict refund .arbitration i)
  | .batchArbitrateSwaps ids _ refund => (∃ i ∈ ids, · = verdict refund .batchArbitration i)
  | .cancelSwap i _ | .cancelPendingSwap i _ => (· = .cancelled i)
  | .batchCancelSwaps ids _ _ => (∃ i ∈ ids, · = .cancelled i)
  | .cancelExpiredSwap i _ => (· = .refunded i .expiry)
  | .escrowWithdraw i => (· = .withdrawn i)
  | .claimInsurance i => (· = .claimed i)
  | .validateAndRollbackSwap i valid => fun m => valid = false ∧ m = .rolledBack i
  | .adminRollbackSwap i _ _ => (· = .adminRolledBack i)
  | .batchRollbackSwaps ids _ _ => (∃ i ∈ ids, · = .adminRolledBack i)
  | .startIpAuction _ ipId seller _ _ => fun m =>
      ∃ a, m = .auctionStarted a ∧ a.ipId = ipId ∧ a.seller = seller
  | .placeBid i bidder _ => (· = .bid i bidder)
  | .finalizeAuction i => (· = .finalized i)
  | .setOracle .. | .upgrade .. | .adminSetProtocolConfig .. | .pause .. | .unpause ..
  | .initializeMultiCurrency .. | .addSupportedToken .. | .removeSupportedToken ..
  | .approveSwap .. | .setReputationMultiplier .. | .signSwapReveal ..
  | .requestArbitration .. => fun _ => False

def Act.yields (act : Act) (m : Move) : Prop :=
  match act.call with
  | some call => call.yields m
  | none => m = .received

def Move.aims : Move → Option SwapStatus
  | .accepted _ => some .accepted
  | .installment _ last | .scheduled _ last => if last then some .accepted else none
  | .disputed _ => some .disputed
  | .cancelled _ | .refunded _ _ | .withdrawn _ | .adminRolledBack _ => some .cancelled
  | .released _ _ => some .completed
  | .rolledBack _ => some .rolledBack
  | _ => none

variable {env : Env} {s s' : State} {u : Unit} {c c' : Escrow}

section Admin

theorem initializeContract_step {ipRegistry : Address}
    (h : initializeContract ipRegistry s = .ok (u, s')) :
    Step env s.escrow .configured s'.escrow := by
  simp [initializeContract] at h
  obtain ⟨-, rfl⟩ := h
  exact .configured s.escrow.admin (some ipRegistry)

theorem setAdmin_step {newAdmin : Address} (h : setAdmin env newAdmin s = .ok (u, s')) :
    Step env s.escrow .configured s'.escrow := by
  simp [setAdmin] at h
  obtain ⟨-, -, rfl⟩ := h
  exact .configured (some newAdmin) s.escrow.ipRegistry

theorem setOracle_escrow {caller oracleAddress : Address} {enabled : Bool}
    (h : setOracle env caller oracleAddress enabled s = .ok (u, s')) : s'.escrow = s.escrow := by
  simp [setOracle] at h
  obtain ⟨-, admin, -, -, rfl⟩ := h
  simp

theorem upgrade_escrow {newWasmHash : BytesN 32} (h : upgrade env newWasmHash s = .ok (u, s')) :
    s'.escrow = s.escrow := by
  simp [upgrade] at h
  obtain ⟨admin, -, -, rfl⟩ := h
  simp

theorem adoptContractAdmin_escrow {stored : Option Address} {admin : Address}
    (h : adoptContractAdmin env stored s = .ok (admin, s')) : s'.escrow = s.escrow := by
  cases stored with
  | some a =>
    simp [adoptContractAdmin] at h
    simp [h]
  | none =>
    simp [adoptContractAdmin] at h
    simp [h]

theorem adminSetProtocolConfig_escrow {fee window timeout referral : ℕ} {treasury : Address}
    (h : adminSetProtocolConfig env fee treasury window timeout referral s = .ok (u, s')) :
    s'.escrow = s.escrow := by
  simp [adminSetProtocolConfig, storeProtocolConfig] at h
  obtain ⟨-, -, hadopt, -⟩ := h
  exact adoptContractAdmin_escrow hadopt

theorem pause_escrow {caller : Address} (h : pause env caller s = .ok (u, s')) :
    s'.escrow = s.escrow := by
  simp [pause] at h
  simp [h]

theorem unpause_escrow {caller : Address} (h : unpause env caller s = .ok (u, s')) :
    s'.escrow = s.escrow := by
  simp [unpause] at h
  simp [h]

theorem initializeMultiCurrency_escrow {caller : Address}
    (h : initializeMultiCurrency env caller s = .ok (u, s')) : s'.escrow = s.escrow := by
  simp [initializeMultiCurrency, storeMultiCurrency] at h
  simp [h]

theorem addSupportedToken_escrow {caller : Address} {token : SupportedToken}
    {metadata : TokenMetadata} (h : addSupportedToken env caller token metadata s = .ok (u, s')) :
    s'.escrow = s.escrow := by
  simp [addSupportedToken, storeMultiCurrency] at h
  obtain ⟨-, -, config, -, ⟨-, rfl⟩ | ⟨-, rfl⟩⟩ := h <;> simp

theorem removeSupportedToken_escrow {caller : Address} {token : SupportedToken}
    (h : removeSupportedToken env caller token s = .ok (u, s')) : s'.escrow = s.escrow := by
  simp [removeSupportedToken] at h
  obtain ⟨-, -, config, ⟨-, rfl⟩, -⟩ := h
  rfl

end Admin

section Refinement

variable {call : Call} {P : Move → Prop} {q : Option SwapStatus}

def Call.Answers (env : Env) (call : Call) (c c' : Escrow) : Prop :=
  ∃ q, Emits (Step env) (fun m => call.yields m ∧ m.aims = q) c c'

theorem answers_self (h : c' = c) : call.Answers env c c' := by
  rw [h]
  exact ⟨none, .refl c⟩

theorem answers_one {m : Move} (h : Step env c m c') (hm : call.yields m) :
    call.Answers env c c' := ⟨m.aims, .single h ⟨hm, rfl⟩⟩

theorem answers_each {ids : List ℕ} {move : ℕ → Move} {q : Option SwapStatus}
    (h : Emits (Step env) (∃ i ∈ ids, · = move i) c c')
    (hyields : ∀ i ∈ ids, call.yields (move i)) (haims : ∀ i, (move i).aims = q) :
    call.Answers env c c' := by
  refine ⟨q, h.mono ?_⟩
  rintro _ ⟨i, hi, rfl⟩
  exact ⟨hyields i hi, haims i⟩

theorem answers_openings {ipIds : List ℕ} {seller buyer : Address} {referrer : Option Address}
    (h : Emits (Step env) (Opens ipIds seller buyer referrer) c c')
    (hyields : call.yields = Opens ipIds seller buyer referrer) : call.Answers env c c' := by
  refine ⟨none, h.mono fun m hm => ⟨hyields ▸ hm, ?_⟩⟩
  obtain ⟨r, rfl, -⟩ := hm
  rfl

theorem verdict_aims {refund : Bool} {w : Warrant} (i j : ℕ) :
    (verdict refund w i).aims = (verdict refund w j).aims := by cases refund <;> rfl

theorem exec_answers (h : exec env call s = .ok ((), s')) :
    call.Answers env s.escrow s'.escrow := by
  cases call with
  | initializeContract => exact answers_one (initializeContract_step h) rfl
  | setOracle => exact answers_self (setOracle_escrow h)
  | upgrade => exact answers_self (upgrade_escrow h)
  | adminSetProtocolConfig => exact answers_self (adminSetProtocolConfig_escrow h)
  | setAdmin => exact answers_one (setAdmin_step h) rfl
  | pause => exact answers_self (pause_escrow h)
  | unpause => exact answers_self (unpause_escrow h)
  | initializeMultiCurrency => exact answers_self (initializeMultiCurrency_escrow h)
  | addSupportedToken => exact answers_self (addSupportedToken_escrow h)
  | removeSupportedToken => exact answers_self (removeSupportedToken_escrow h)
  | initiateSwap =>
    obtain ⟨id, h⟩ := Tx.void_ok.mp h
    exact answers_openings (initiateSwap_moves h) rfl
  | initiateSwapWithOraclePrice =>
    obtain ⟨id, h⟩ := Tx.void_ok.mp h
    exact answers_openings (initiateSwapWithOraclePrice_moves h) rfl
  | batchInitiateSwap =>
    obtain ⟨ids, h⟩ := Tx.void_ok.mp h
    exact answers_openings (batchInitiateSwap_moves h) rfl
  | batchInitiateSwapWithInsurance =>
    obtain ⟨ids, h⟩ := Tx.void_ok.mp h
    exact answers_openings (batchInitiateSwapWithInsurance_moves h) rfl
  | initiateSwapWithSchedule =>
    obtain ⟨id, h⟩ := Tx.void_ok.mp h
    exact answers_openings (initiateSwapWithSchedule_moves h) rfl
  | initiateEscrowSwap =>
    obtain ⟨id, h⟩ := Tx.void_ok.mp h
    exact answers_openings (initiateEscrowSwap_moves h) rfl
  | batchInitiateEscrow =>
    obtain ⟨ids, h⟩ := Tx.void_ok.mp h
    exact answers_openings (batchInitiateEscrow_moves h) rfl
  | initiateSwapWithSigners =>
    obtain ⟨id, h⟩ := Tx.void_ok.mp h
    exact answers_openings (initiateSwapWithSigners_moves h) rfl
  | acceptSwap => exact answers_one (acceptSwap_step h) rfl
  | acceptSwapConditional => exact answers_one (acceptSwapConditional_step h) rfl
  | acceptSwapPartial => exact answers_one (acceptSwapPartial_step h) rfl
  | batchAcceptSwaps =>
    exact answers_each (batchAcceptSwaps_moves h) (fun i hi => ⟨i, hi, rfl⟩) fun _ => rfl
  | escrowDeposit => exact answers_one (escrowDeposit_step h) rfl
  | batchEscrowDeposit =>
    exact answers_each (batchEscrowDeposit_moves h) (fun i hi => ⟨i, hi, rfl⟩) fun _ => rfl
  | makeScheduledPayment =>
    obtain ⟨last, -, hstep⟩ := makeScheduledPayment_step h
    exact answers_one hstep ⟨last, rfl⟩
  | submitInstallmentPayment =>
    obtain ⟨last, -, hstep⟩ := submitInstallmentPayment_step h
    exact answers_one hstep ⟨last, rfl⟩
  | renegotiateSwap => exact answers_one (renegotiateSwap_step h) rfl
  | acceptRenegotiation => exact answers_one (acceptRenegotiation_step h) rfl
  | extendSwapExpiry => exact answers_one (extendSwapExpiry_step h) rfl
  | approveSwap => exact answers_self (approveSwap_escrow h)
  | setReputationMultiplier => exact answers_self (setReputationMultiplier_escrow h)
  | signSwapReveal => exact answers_self (signSwapReveal_escrow h)
  | revealKey => exact answers_one (revealKey_step h) rfl
  | verifyAndCompleteSwap =>
    rcases verifyAndCompleteSwap_step h with hstep | hstep
    · exact answers_one hstep (.inl rfl)
    · exact answers_one hstep (.inr rfl)
  | batchRevealKeys =>
    refine ⟨some .completed, (batchRevealKeys_moves h).mono fun m hm => ⟨hm, ?_⟩⟩
    obtain ⟨i, -, k, -, rfl⟩ := hm
    rfl
  | raiseDispute => exact answers_one (raiseDispute_step h) rfl
  | resolveDispute => exact answers_one (resolveDispute_step h) rfl
  | autoResolveDispute => exact answers_one (autoResolveDispute_step h) rfl
  | requestArbitration => exact answers_self (requestArbitration_escrow h)
  | autoRefundTimeout => exact answers_one (autoRefundTimeout_step h) rfl
  | arbitrateSwap => exact answers_one (arbitrateSwap_step h) rfl
  | batchArbitrateSwaps =>
    exact answers_each (batchArbitrateSwaps_moves h) (fun i hi => ⟨i, hi, rfl⟩)
      fun i => verdict_aims i 0
  | cancelSwap => exact answers_one (cancelSwap_step h) rfl
  | cancelExpiredSwap => exact answers_one (cancelExpiredSwap_step h) rfl
  | cancelPendingSwap => exact answers_one (cancelPendingSwap_step h) rfl
  | batchCancelSwaps =>
    obtain ⟨ids, h⟩ := Tx.void_ok.mp h
    exact answers_each (batchCancelSwaps_moves h) (fun i hi => ⟨i, hi, rfl⟩) fun _ => rfl
  | escrowWithdraw => exact answers_one (escrowWithdraw_step h) rfl
  | claimInsurance => exact answers_one (claimInsurance_step h) rfl
  | validateAndRollbackSwap =>
    obtain ⟨rolledBack, h⟩ := Tx.void_ok.mp h
    refine ⟨some .rolledBack, (validateAndRollbackSwap_moves h).mono fun m hm => ⟨hm, ?_⟩⟩
    rw [hm.2]
    rfl
  | adminRollbackSwap => exact answers_one (adminRollbackSwap_step h) rfl
  | batchRollbackSwaps =>
    exact answers_each (batchRollbackSwaps_moves h) (fun i hi => ⟨i, hi, rfl⟩) fun _ => rfl
  | startIpAuction =>
    obtain ⟨id, h⟩ := Tx.void_ok.mp h
    refine ⟨none, (startIpAuction_moves h).mono fun m hm => ⟨hm, ?_⟩⟩
    obtain ⟨a, rfl, -⟩ := hm
    rfl
  | placeBid => exact answers_one (placeBid_step h) rfl
  | finalizeAuction => exact answers_one (finalizeAuction_step h) rfl

theorem ActStep.answers {act : Act} (h : ActStep s act s') :
    ∃ q, Emits (Step act.env) (fun m => act.yields m ∧ m.aims = q) s.escrow s'.escrow := by
  cases h with
  | call h => exact exec_answers h
  | elsewhere balance h => exact ⟨none, .single (.received balance h) ⟨rfl, rfl⟩⟩

end Refinement

end AtomicIp.AtomicSwap
