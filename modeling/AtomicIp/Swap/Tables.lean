import AtomicIp.Swap.Frames

set_option autoImplicit false

namespace AtomicIp.AtomicSwap

open Tx

inductive Table where
  | paused | persistentAdmin | indexes | history | approvals | reasons | currencies | oracle
  | schedules | paymentsMade | insurance | modes | reputation | multipliers | arbitration
  | signers | signatures | completions
  deriving DecidableEq

def State.without (s : State) : Table → State
  | .paused => { s with paused := none }
  | .persistentAdmin => { s with persistentAdmin := none }
  | .indexes => { s with sellerSwaps _ := none, buyerSwaps _ := none, ipSwaps _ := none }
  | .history => { s with swapHistory _ := none }
  | .approvals => { s with swapApprovals _ := none }
  | .reasons => { s with cancelReason _ := none }
  | .currencies => { s with multiCurrencyConfig := none, supportedTokens := none }
  | .oracle => { s with oracleConfig := none }
  | .schedules => { s with paymentSchedule _ := none }
  | .paymentsMade => { s with paymentsMade _ := none }
  | .insurance => { s with swapInsurance _ := none }
  | .modes => { s with swapMode _ := none }
  | .reputation => { s with userReputation _ := none }
  | .multipliers => { s with reputationMultiplier _ := none }
  | .arbitration => { s with arbitrationTimestamp _ := none }
  | .signers => { s with swapSigners _ := none }
  | .signatures => { s with swapSignatures _ := none }
  | .completions => { s with completionTimestamp _ := none }

/-- The view shows nothing of the table. -/
abbrev Blind {ω : Type} (t : Table) (view : State → ω) : Prop := Ignores State.without t view

section Writes

variable {ω : Type} {view : State → ω}

instance [Blind .paused view] (o : State → Option Bool) : Spares view fun s => s.setPaused (o s) :=
  Ignores.spares State.without .paused fun _ => rfl

instance [Blind .persistentAdmin view] (o : State → Option Address) :
    Spares view fun s => s.setPersistentAdmin (o s) :=
  Ignores.spares State.without .persistentAdmin fun _ => rfl

instance [Blind .currencies view] (o : State → Option MultiCurrencyConfig) :
    Spares view fun s => s.setMultiCurrencyConfig (o s) :=
  Ignores.spares State.without .currencies fun _ => rfl

instance [Blind .currencies view] (o : State → Option (List SupportedToken)) :
    Spares view fun s => s.setSupportedTokens (o s) :=
  Ignores.spares State.without .currencies fun _ => rfl

instance [Blind .oracle view] (o : State → Option OracleConfig) :
    Spares view fun s => s.setOracleConfig (o s) :=
  Ignores.spares State.without .oracle fun _ => rfl

instance [Blind .indexes view] (k : State → Address) (o : State → Option (List ℕ)) :
    Spares view fun s => s.setSellerSwaps (k s) (o s) :=
  Ignores.spares State.without .indexes fun _ => rfl

instance [Blind .indexes view] (k : State → Address) (o : State → Option (List ℕ)) :
    Spares view fun s => s.setBuyerSwaps (k s) (o s) :=
  Ignores.spares State.without .indexes fun _ => rfl

instance [Blind .indexes view] (k : State → ℕ) (o : State → Option (List ℕ)) :
    Spares view fun s => s.setIpSwaps (k s) (o s) :=
  Ignores.spares State.without .indexes fun _ => rfl

instance [Blind .history view] (k : State → ℕ) (o : State → Option (List SwapHistoryEntry)) :
    Spares view fun s => s.setSwapHistory (k s) (o s) :=
  Ignores.spares State.without .history fun _ => rfl

instance [Blind .approvals view] (k : State → ℕ) (o : State → Option (List Address)) :
    Spares view fun s => s.setSwapApprovals (k s) (o s) :=
  Ignores.spares State.without .approvals fun _ => rfl

instance [Blind .reasons view] (k : State → ℕ) (o : State → Option Bytes) :
    Spares view fun s => s.setCancelReason (k s) (o s) :=
  Ignores.spares State.without .reasons fun _ => rfl

instance [Blind .schedules view] (k : State → ℕ) (o : State → Option (List PaymentSchedule)) :
    Spares view fun s => s.setPaymentSchedule (k s) (o s) :=
  Ignores.spares State.without .schedules fun _ => rfl

instance [Blind .paymentsMade view] (k : State → ℕ) (o : State → Option (List Bool)) :
    Spares view fun s => s.setPaymentsMade (k s) (o s) :=
  Ignores.spares State.without .paymentsMade fun _ => rfl

instance [Blind .insurance view] (k : State → ℕ) (o : State → Option ℤ) :
    Spares view fun s => s.setSwapInsurance (k s) (o s) :=
  Ignores.spares State.without .insurance fun _ => rfl

instance [Blind .modes view] (k : State → ℕ) (o : State → Option SwapMode) :
    Spares view fun s => s.setSwapMode (k s) (o s) :=
  Ignores.spares State.without .modes fun _ => rfl

instance [Blind .reputation view] (k : State → Address) (o : State → Option ℕ) :
    Spares view fun s => s.setUserReputation (k s) (o s) :=
  Ignores.spares State.without .reputation fun _ => rfl

instance [Blind .multipliers view] (k : State → ℕ) (o : State → Option ℕ) :
    Spares view fun s => s.setReputationMultiplier (k s) (o s) :=
  Ignores.spares State.without .multipliers fun _ => rfl

instance [Blind .arbitration view] (k : State → ℕ) (o : State → Option ℕ) :
    Spares view fun s => s.setArbitrationTimestamp (k s) (o s) :=
  Ignores.spares State.without .arbitration fun _ => rfl

instance [Blind .signers view] (k : State → ℕ) (o : State → Option (List Address)) :
    Spares view fun s => s.setSwapSigners (k s) (o s) :=
  Ignores.spares State.without .signers fun _ => rfl

instance [Blind .signatures view] (k : State → ℕ) (o : State → Option (List Address)) :
    Spares view fun s => s.setSwapSignatures (k s) (o s) :=
  Ignores.spares State.without .signatures fun _ => rfl

instance [Blind .completions view] (k : State → ℕ) (o : State → Option ℕ) :
    Spares view fun s => s.setCompletionTimestamp (k s) (o s) :=
  Ignores.spares State.without .completions fun _ => rfl

end Writes

section Programs

variable {ω : Type} {view : State → ω} [Aside view] {env : Env} {i j : ℕ} {r : SwapRecord}
  {a b token seller buyer : Address} {x y price : ℤ} {insured : Bool}
  {secret blindingFactor : BytesN 32} {ids : List ℕ} {reason : Bytes} {approvals : ℕ}
  {referrer : Option Address} {prices : List ℤ}

instance [Blind .reasons view] : Keeps view (setCancelReason i reason) := by
  unfold setCancelReason; infer_instance

instance [Blind .reputation view] : Keeps view (updateReputation a x) := by
  unfold updateReputation; infer_instance

instance [Blind .persistentAdmin view] : Keeps view (initPersistentAdmin a) := by
  unfold initPersistentAdmin; infer_instance

instance [Blind .insurance view] : Keeps view (storeInsurance insured i x) := by
  unfold storeInsurance; infer_instance

section Indexes

variable [Blind .indexes view]

instance : Keeps view (appendSwapForParty a b i) := by unfold appendSwapForParty; infer_instance

instance : Keeps view (appendIpSwap i j) := by unfold appendIpSwap; infer_instance

instance : Keeps view (openSwap i r) := by unfold openSwap; infer_instance

end Indexes

section History

variable [Blind .history view]

instance {q : SwapStatus} : Keeps view (appendHistory env i q) := by
  unfold appendHistory; infer_instance

instance {topic : String} : Keeps view (announceSwap env topic i r) := by
  unfold announceSwap; infer_instance

instance : Keeps view (markAccepted env i r) := by unfold markAccepted; infer_instance

instance : Keeps view (acceptSwap env i) := by
  unfold acceptSwap
  repeat refine Keeps.step fun _ => ?_
  infer_instance

instance {conditions : List SwapCondition} :
    Keeps view (acceptSwapConditional env i conditions) := by
  unfold acceptSwapConditional
  repeat refine Keeps.step fun _ => ?_
  infer_instance

instance {quantity : ℕ} : Keeps view (acceptSwapPartial env i quantity) := by
  unfold acceptSwapPartial
  repeat refine Keeps.step fun _ => ?_
  infer_instance

instance : Keeps view (acceptValidated env i) := by unfold acceptValidated; infer_instance

instance : Keeps view (batchAcceptSwaps env ids a) := by
  unfold batchAcceptSwaps
  repeat refine Keeps.step fun _ => ?_
  infer_instance

instance : Keeps view (depositEscrow env i r) := by
  unfold depositEscrow
  repeat refine Keeps.step fun _ => ?_
  infer_instance

instance : Keeps view (escrowDeposit env i) := by unfold escrowDeposit; infer_instance

instance : Keeps view (depositOwn env a i) := by unfold depositOwn; infer_instance

instance : Keeps view (batchEscrowDeposit env ids a) := by
  unfold batchEscrowDeposit; infer_instance

instance [Blind .paymentsMade view] : Keeps view (makeScheduledPayment env i j) := by
  unfold makeScheduledPayment
  repeat refine Keeps.step fun _ => ?_
  infer_instance

instance : Keeps view (submitInstallmentPayment env i x) := by
  unfold submitInstallmentPayment
  repeat refine Keeps.step fun _ => ?_
  infer_instance

instance : Keeps view (arbitrateRefund i r) := by unfold arbitrateRefund; infer_instance

instance : Keeps view (arbitrateBatchComplete i r) := by
  unfold arbitrateBatchComplete; infer_instance

instance {refund : Bool} : Keeps view (arbitrateDisputed env a refund i) := by
  unfold arbitrateDisputed; infer_instance

instance {refund : Bool} : Keeps view (batchArbitrateSwaps env ids a refund) := by
  unfold batchArbitrateSwaps; infer_instance

instance : Keeps view (cancelPendingSwap env i a) := by
  unfold cancelPendingSwap
  repeat refine Keeps.step fun _ => ?_
  infer_instance

instance : Keeps view (escrowWithdraw env i) := by
  unfold escrowWithdraw
  repeat refine Keeps.step fun _ => ?_
  infer_instance

instance [Blind .completions view] : Keeps view (rollBackCompleted env i r) := by
  unfold rollBackCompleted
  repeat refine Keeps.step fun _ => ?_
  infer_instance

instance [Blind .completions view] {valid : Bool} :
    Keeps view (validateAndRollbackSwap env i valid) := by
  unfold validateAndRollbackSwap
  infer_instance

instance [Blind .arbitration view] [Blind .reasons view] :
    Keeps view (autoRefundTimeout env i) := by
  unfold autoRefundTimeout
  repeat refine Keeps.step fun _ => ?_
  infer_instance

section Reputation

variable [Blind .reputation view]

instance [Blind .completions view] : Keeps view (revealKey env i a secret blindingFactor) := by
  unfold revealKey
  repeat refine Keeps.step fun _ => ?_
  infer_instance

instance : Keeps view (completeRevealed env i) := by
  unfold completeRevealed
  repeat refine Keeps.step fun _ => ?_
  infer_instance

instance {secrets blindingFactors : List (BytesN 32)} :
    Keeps view (batchRevealKeys env ids secrets blindingFactors a) := by
  unfold batchRevealKeys
  repeat refine Keeps.step fun _ => ?_
  infer_instance

instance : Keeps view (cancelSwap env i a) := by
  unfold cancelSwap
  repeat refine Keeps.step fun _ => ?_
  infer_instance

instance : Keeps view (cancelExpiredSwap env i a) := by
  unfold cancelExpiredSwap
  repeat refine Keeps.step fun _ => ?_
  infer_instance

instance [Blind .reasons view] : Keeps view (cancelWithReason env a i reason) := by
  unfold cancelWithReason
  repeat refine Keeps.step fun _ => ?_
  infer_instance

instance [Blind .reasons view] {reasons : List Bytes} :
    Keeps view (batchCancelSwaps env ids a reasons) := by
  unfold batchCancelSwaps; infer_instance

end Reputation

section Rollback

instance : Keeps view (tallied x y) := by unfold tallied; infer_instance

instance : Keeps view (untallied x y) := by unfold untallied; infer_instance

variable [Blind .reasons view] {tally : Tally} [∀ x y, Keeps view (tally x y)]

instance : Keeps view (returnCollateral tally i r x) := by
  have hheld : ∀ held : Option ℤ, Keeps view (match held with
      | some collateral => do
          let total ← tally x collateral
          payOut r r.buyer collateral (.collateral i)
          forgetCollateral i
          pure total
      | none => pure x : SwapTx ℤ) := by
    intro held
    cases held <;> infer_instance
  unfold returnCollateral
  infer_instance

instance : Keeps view (returnPremium tally i r x) := by unfold returnPremium; infer_instance

instance : Keeps view (rollBack env tally i r reason) := by
  unfold rollBack refundEscrow; infer_instance

instance : Keeps view (adminRollbackSwap env i a reason) := by
  unfold adminRollbackSwap
  repeat refine Keeps.step fun _ => ?_
  infer_instance

instance : Keeps view (rollBackValidated env reason i) := by
  unfold rollBackValidated; infer_instance

instance : Keeps view (batchRollbackSwaps env ids a reason) := by
  unfold batchRollbackSwaps
  repeat refine Keeps.step fun _ => ?_
  infer_instance

end Rollback

section Initiation

variable [Blind .indexes view]

section Insured

variable [Blind .insurance view]

instance [Blind .persistentAdmin view] :
    Keeps view (initiateSwap env token i seller price buyer approvals referrer x insured) := by
  unfold initiateSwap
  repeat refine Keeps.step fun _ => ?_
  infer_instance

instance [Blind .persistentAdmin view] {minPrice maxPrice : ℤ} :
    Keeps view (initiateSwapWithOraclePrice env token i seller buyer approvals referrer x insured
      minPrice maxPrice) := by
  unfold initiateSwapWithOraclePrice; infer_instance

instance : Keeps view (openInsured env token seller buyer approvals referrer insured i price) := by
  unfold openInsured
  repeat refine Keeps.step fun _ => ?_
  infer_instance

instance : Keeps view (batchInitiateSwapWithInsurance env token ids seller prices buyer approvals
    referrer insured) := by
  unfold batchInitiateSwapWithInsurance; infer_instance

end Insured

instance {item : ℕ × ℤ} :
    Keeps view (openValidated env token seller buyer approvals referrer item) := by
  unfold openValidated; infer_instance

instance :
    Keeps view (batchInitiateSwap env token ids seller prices buyer approvals referrer) := by
  unfold batchInitiateSwap
  repeat refine Keeps.step fun _ => ?_
  infer_instance

instance [Blind .schedules view] [Blind .paymentsMade view] {schedule : List PaymentSchedule} :
    Keeps view (initiateSwapWithSchedule env token i seller schedule buyer) := by
  unfold initiateSwapWithSchedule
  repeat refine Keeps.step fun _ => ?_
  infer_instance

instance [Blind .signers view] {signers : List Address} :
    Keeps view (initiateSwapWithSigners env token i seller price buyer signers) := by
  unfold initiateSwapWithSigners
  repeat refine Keeps.step fun _ => ?_
  infer_instance

section InEscrow

variable [Blind .modes view]

instance : Keeps view (setEscrowMode i) := by unfold setEscrowMode; infer_instance

instance : Keeps view (initiateEscrowSwap env token i seller price buyer j) := by
  unfold initiateEscrowSwap
  repeat refine Keeps.step fun _ => ?_
  infer_instance

instance {item : ℤ × ℕ} : Keeps view (openInEscrow env token seller buyer i item) := by
  unfold openInEscrow
  repeat refine Keeps.step fun _ => ?_
  infer_instance

instance {timeouts : List ℕ} :
    Keeps view (batchInitiateEscrow env token ids seller prices buyer timeouts) := by
  unfold batchInitiateEscrow; infer_instance

end InEscrow

instance {auction : AuctionRecord} : Keeps view (sellToWinner env auction buyer) := by
  unfold sellToWinner
  repeat refine Keeps.step fun _ => ?_
  infer_instance

instance : Keeps view (finalizeAuction env i) := by
  have hsold : ∀ sold : AuctionRecord, Keeps view (match sold.highestBidder with
      | some buyer => sellToWinner env sold buyer
      | none => pure () : SwapTx Unit) := by
    intro sold
    cases sold.highestBidder <;> infer_instance
  unfold finalizeAuction saveAuction
  repeat refine Keeps.step fun _ => ?_
  exact hsold _

end Initiation

end History

instance : Keeps view (renegotiateSwap env i x) := by
  unfold renegotiateSwap
  repeat refine Keeps.step fun _ => ?_
  infer_instance

instance : Keeps view (acceptRenegotiation env i) := by
  unfold acceptRenegotiation
  repeat refine Keeps.step fun _ => ?_
  infer_instance

instance : Keeps view (extendSwapExpiry env i j) := by unfold extendSwapExpiry; infer_instance

instance [Blind .approvals view] : Keeps view (approveSwap env i a) := by
  unfold approveSwap; infer_instance

instance [Blind .multipliers view] : Keeps view (setReputationMultiplier env i j) := by
  unfold setReputationMultiplier; infer_instance

instance [Blind .signatures view] : Keeps view (signSwapReveal env i a) := by
  unfold signSwapReveal
  repeat refine Keeps.step fun _ => ?_
  infer_instance

instance : Keeps view (completeVerified i r) := by
  unfold completeVerified
  repeat refine Keeps.step fun _ => ?_
  infer_instance

instance : Keeps view (verifyAndCompleteSwap env i a secret blindingFactor) := by
  unfold verifyAndCompleteSwap refundInvalidKey
  repeat refine Keeps.step fun _ => ?_
  infer_instance

instance : Keeps view (raiseDispute env i) := by unfold raiseDispute; infer_instance

instance [Blind .reasons view] {refunded : Bool} :
    Keeps view (resolveDispute env i a refunded) := by
  unfold resolveDispute ruleForBuyer ruleForSeller
  repeat refine Keeps.step fun _ => ?_
  infer_instance

instance [Blind .reasons view] : Keeps view (autoResolveDispute env i) := by
  unfold autoResolveDispute
  repeat refine Keeps.step fun _ => ?_
  infer_instance

instance [Blind .arbitration view] : Keeps view (requestArbitration env i a secret) := by
  unfold requestArbitration; infer_instance

instance {refund : Bool} : Keeps view (arbitrateSwap env i a refund) := by
  unfold arbitrateSwap arbitrateComplete; infer_instance

instance : Keeps view (claimInsurance env i) := by
  unfold claimInsurance
  repeat refine Keeps.step fun _ => ?_
  infer_instance

instance : Keeps view (initializeContract a) := by unfold initializeContract; infer_instance

instance [Blind .oracle view] {enabled : Bool} : Keeps view (setOracle env a b enabled) := by
  unfold setOracle; infer_instance

instance : Keeps view (upgrade env secret) := by unfold upgrade; infer_instance

instance [Blind .persistentAdmin view] {stored : Option Address} :
    Keeps view (adoptContractAdmin env stored) := by
  unfold adoptContractAdmin
  cases stored <;> infer_instance

instance [Blind .persistentAdmin view] {fee window timeout referral : ℕ} :
    Keeps view (adminSetProtocolConfig env fee a window timeout referral) := by
  unfold adminSetProtocolConfig storeProtocolConfig; infer_instance

instance : Keeps view (setAdmin env a) := by unfold setAdmin; infer_instance

instance [Blind .paused view] : Keeps view (pause env a) := by unfold pause; infer_instance

instance [Blind .paused view] : Keeps view (unpause env a) := by unfold unpause; infer_instance

section Currencies

variable [Blind .currencies view] {currency : SupportedToken}

instance {config : MultiCurrencyConfig} : Keeps view (storeMultiCurrency config) := by
  unfold storeMultiCurrency; infer_instance

instance : Keeps view (initializeMultiCurrency env a) := by
  unfold initializeMultiCurrency; infer_instance

instance {metadata : TokenMetadata} :
    Keeps view (addSupportedToken env a currency metadata) := by
  unfold addSupportedToken; infer_instance

instance : Keeps view (removeSupportedToken env a currency) := by
  unfold removeSupportedToken; infer_instance

end Currencies

section Auctions

variable {auction : AuctionRecord}

instance : Keeps view (startIpAuction env token i seller x j) := by
  unfold startIpAuction saveAuction
  repeat refine Keeps.step fun _ => ?_
  infer_instance

instance : Keeps view (refundBidder i auction) := by
  unfold refundBidder
  cases auction.highestBidder <;> infer_instance

instance : Keeps view (placeBid env i a x) := by
  unfold placeBid saveAuction
  repeat refine Keeps.step fun _ => ?_
  infer_instance

end Auctions

end Programs

def Call.writes : Call → List Table
  | .acceptSwap .. | .acceptSwapConditional .. | .acceptSwapPartial .. | .batchAcceptSwaps ..
  | .escrowDeposit .. | .batchEscrowDeposit .. | .submitInstallmentPayment ..
  | .batchArbitrateSwaps .. | .cancelPendingSwap .. | .escrowWithdraw .. => [.history]
  | .makeScheduledPayment .. => [.history, .paymentsMade]
  | .validateAndRollbackSwap .. => [.history, .completions]
  | .autoRefundTimeout .. => [.history, .arbitration, .reasons]
  | .revealKey .. => [.history, .reputation, .completions]
  | .batchRevealKeys .. | .cancelSwap .. | .cancelExpiredSwap .. => [.history, .reputation]
  | .batchCancelSwaps .. => [.history, .reputation, .reasons]
  | .adminRollbackSwap .. | .batchRollbackSwaps .. => [.history, .reasons]
  | .initiateSwap .. | .initiateSwapWithOraclePrice .. =>
      [.history, .indexes, .insurance, .persistentAdmin]
  | .batchInitiateSwapWithInsurance .. => [.history, .indexes, .insurance]
  | .batchInitiateSwap .. | .finalizeAuction .. => [.history, .indexes]
  | .initiateSwapWithSchedule .. => [.history, .indexes, .schedules, .paymentsMade]
  | .initiateSwapWithSigners .. => [.history, .indexes, .signers]
  | .initiateEscrowSwap .. | .batchInitiateEscrow .. => [.history, .indexes, .modes]
  | .approveSwap .. => [.approvals]
  | .setReputationMultiplier .. => [.multipliers]
  | .signSwapReveal .. => [.signatures]
  | .resolveDispute .. | .autoResolveDispute .. => [.reasons]
  | .requestArbitration .. => [.arbitration]
  | .setOracle .. => [.oracle]
  | .adminSetProtocolConfig .. => [.persistentAdmin]
  | .pause .. | .unpause .. => [.paused]
  | .initializeMultiCurrency .. | .addSupportedToken .. | .removeSupportedToken .. => [.currencies]
  | .renegotiateSwap .. | .acceptRenegotiation .. | .extendSwapExpiry ..
  | .verifyAndCompleteSwap .. | .raiseDispute .. | .arbitrateSwap .. | .claimInsurance ..
  | .initializeContract .. | .upgrade .. | .setAdmin .. | .startIpAuction .. | .placeBid .. => []

section Calls

variable {ω : Type} (view : State → ω) [Aside view] {env : Env} {s s' : State} {call : Call}
  {u : Unit}

/-- A view that looks neither at the escrow nor at the tables a call writes shows the same. -/
theorem exec_frame (h : exec env call s = .ok (u, s')) (hblind : ∀ t ∈ call.writes, Blind t view) :
    view s' = view s := by
  cases call <;> simp only [Call.writes, List.forall_mem_cons, List.not_mem_nil, false_imp_iff,
    implies_true, and_true] at hblind <;> unfold exec at h <;>
    (repeat obtain ⟨_, hblind⟩ := hblind) <;> exact Keeps.eq view h

end Calls

end AtomicIp.AtomicSwap
