import AtomicIp.Swap.Validation

set_option autoImplicit false

namespace AtomicIp.AtomicSwap

open Function

def ascii (text : String) : Bytes := text.toList.map fun c => UInt8.ofNat c.toNat

section Payouts

def payOut (swap : SwapRecord) (dst : Address) (amount : ℤ) (purpose : Purpose) :
    SwapTx Unit :=
  transfer swap.token currentContractAddress dst amount purpose

def refundPrice (swapId : ℕ) (swap : SwapRecord) : SwapTx Unit :=
  payOut swap swap.buyer swap.price (.price swapId)

def bpsOf (bps : ℕ) (price : ℤ) : SwapTx ℤ :=
  if 0 < bps ∧ 0 < price then do
    let scaled ← i128 (price * bps)
    pure (scaled.tdiv 10000)
  else pure 0

def protocolFee (swap : SwapRecord) : SwapTx ℤ :=
  bpsOf protocolConfig.protocolFeeBps swap.price

def referralFee (swap : SwapRecord) : SwapTx ℤ :=
  if swap.referrer.isSome then bpsOf protocolConfig.referralFeeBps swap.price else pure 0

/-- The fee of `resolve_dispute`, which does not look at the price's sign. -/
def rulingFee (swap : SwapRecord) : SwapTx ℤ :=
  if 0 < protocolConfig.protocolFeeBps then do
    let scaled ← i128 (swap.price * protocolConfig.protocolFeeBps)
    pure (scaled.tdiv 10000)
  else pure 0

def payTreasury (swapId : ℕ) (swap : SwapRecord) (feeAmount : ℤ) : SwapTx Unit :=
  Tx.onlyIf (0 < feeAmount)
    (payOut swap protocolConfig.treasury feeAmount (.price swapId))

def payReferrer (swapId : ℕ) (swap : SwapRecord) (referralAmount : ℤ) : SwapTx Unit :=
  match swap.referrer with
  | some referrer => Tx.onlyIf (0 < referralAmount) do
      payOut swap referrer referralAmount (.price swapId)
      publish "ref_paid" (.referralPaid swapId referrer referralAmount)
  | none => pure ()

def paySeller (swapId : ℕ) (swap : SwapRecord) (sellerAmount : ℤ) : SwapTx Unit :=
  payOut swap swap.seller sellerAmount (.price swapId)

def forgetCollateral (swapId : ℕ) : SwapTx Unit :=
  Tx.store fun s => s.setSwapCollateral swapId none

/-- Hand the stored collateral of a swap that asks for one to `dst`. -/
def releaseCollateral (swapId : ℕ) (swap : SwapRecord) (dst : Address)
    (log : ℤ → List Event) : SwapTx Unit :=
  Tx.onlyIf (0 < swap.collateralAmount) do
    let held ← Tx.load fun s => s.swapCollateral swapId
    match held with
    | some collateral => do
        payOut swap dst collateral (.collateral swapId)
        forgetCollateral swapId
        Tx.store fun s => s.published (log collateral)
    | none => pure ()

def collateralReleased (swapId : ℕ) (swap : SwapRecord) (collateral : ℤ) : List Event :=
  [⟨"coll_rel", .collateralReleased swapId swap.buyer collateral⟩]

def collateralRefunded (swapId : ℕ) (swap : SwapRecord) (collateral : ℤ) : List Event :=
  [⟨"coll_ref", .collateralRefunded swapId swap.buyer collateral⟩]

def silently (_collateral : ℤ) : List Event := []

end Payouts

def closeSwap (swapId : ℕ) (swap : SwapRecord) (status : SwapStatus) : SwapTx Unit := do
  saveSwap swapId (swap.withStatus status)
  removeActiveSwap swap.ipId

def requireAllSigned (swapId : ℕ) : SwapTx Unit := do
  let signers ← Tx.load fun s => s.swapSigners swapId
  let signed ← Tx.load fun s => (s.swapSignatures swapId).getD []
  require (signers.all fun required => required.length ≤ signed.length) .notAllSigned

/-- The flag is rolled back with the rest of the call. -/
def rejectInvalidKey (swapId : ℕ) (swap : SwapRecord) (valid : Bool) : SwapTx Unit :=
  Tx.onlyIf (valid = false) do
    Tx.onlyIf (swap.insuranceEnabled = true)
      (Tx.store fun s => s.setInsuranceClaimable swapId (some true))
    fail .invalidKey

def revealKey (env : Env) (swapId : ℕ) (caller : Address)
    (secret blindingFactor : BytesN 32) : SwapTx Unit := do
  let swap ← requireSwapExists swapId
  requireSeller caller swap
  requireAuth env.auths caller
  requireSwapStatus swap .accepted .notAccepted
  requireAllSigned swapId
  let valid ← verifyCommitment env swap.ipId secret blindingFactor
  rejectInvalidKey swapId swap valid
  evaluateConditions env swap
  closeSwap swapId swap .completed
  Tx.store fun s => s.setCompletionTimestamp swapId (some env.timestamp)
  appendHistory env swapId .completed
  let feeAmount ← protocolFee swap
  let referralAmount ← referralFee swap
  let net ← i128 (swap.price - feeAmount)
  let sellerAmount ← i128 (net - referralAmount)
  payTreasury swapId swap feeAmount
  Tx.onlyIf (0 < feeAmount)
    (publish "proto_fee" (.protocolFee swapId feeAmount protocolConfig.treasury))
  payReferrer swapId swap referralAmount
  paySeller swapId swap sellerAmount
  releaseCollateral swapId swap swap.buyer (collateralReleased swapId swap)
  updateReputation swap.seller 5
  updateReputation swap.buyer 5
  publish "key_rev" (.keyRevealed swapId sellerAmount feeAmount)

/-- The refusal of the key refunds the buyer here. -/
def refundInvalidKey (swapId : ℕ) (swap : SwapRecord) : SwapTx Unit := do
  refundPrice swapId swap
  releaseCollateral swapId swap swap.buyer silently
  closeSwap swapId swap .cancelled
  publish "atom_ref" (.atomicRefund swapId swap.buyer swap.price "Invalid decryption key")

def completeVerified (swapId : ℕ) (swap : SwapRecord) : SwapTx Unit := do
  closeSwap swapId swap .completed
  let feeAmount ← protocolFee swap
  let sellerAmount ← i128 (swap.price - feeAmount)
  paySeller swapId swap sellerAmount
  payTreasury swapId swap feeAmount
  releaseCollateral swapId swap swap.seller (collateralReleased swapId swap)
  publish "key_rev" (.keyRevealed swapId sellerAmount feeAmount)

def verifyAndCompleteSwap (env : Env) (swapId : ℕ) (caller : Address)
    (secret blindingFactor : BytesN 32) : SwapTx Unit := do
  let swap ← requireSwapExists swapId
  requireSeller caller swap
  requireAuth env.auths caller
  requireSwapStatus swap .accepted .notAccepted
  let valid ← verifyCommitment env swap.ipId secret blindingFactor
  if valid = false then refundInvalidKey swapId swap else completeVerified swapId swap

section Disputes

def raiseDispute (env : Env) (swapId : ℕ) : SwapTx Unit := do
  let swap ← requireSwapExists swapId
  requireAuth env.auths swap.buyer
  requireSwapStatus swap .accepted .notAccepted
  require (env.timestamp - swap.acceptTimestamp < protocolConfig.disputeWindowSeconds)
    .disputeExpired
  saveSwap swapId { swap with status := .disputed, disputeTimestamp := env.timestamp }
  publish "disputed" (.disputeRaised swapId)

def ruleForBuyer (swapId : ℕ) (swap : SwapRecord) : SwapTx Unit := do
  closeSwap swapId swap .cancelled
  refundPrice swapId swap
  setCancelReason swapId (ascii "dispute_refund")

def ruleForSeller (swapId : ℕ) (swap : SwapRecord) : SwapTx Unit := do
  closeSwap swapId swap .completed
  let feeAmount ← rulingFee swap
  let sellerAmount ← i128 (swap.price - feeAmount)
  payTreasury swapId swap feeAmount
  paySeller swapId swap sellerAmount

def resolveDispute (env : Env) (swapId : ℕ) (caller : Address) (refunded : Bool) :
    SwapTx Unit := do
  requireAuth env.auths caller
  requireAdmin caller
  let swap ← requireSwapExists swapId
  requireSwapStatus swap .disputed .notDisputed
  if refunded = true then ruleForBuyer swapId swap else ruleForSeller swapId swap
  publish "disp_res" (.disputeResolved swapId refunded)

def autoResolveDispute (env : Env) (swapId : ℕ) : SwapTx Unit := do
  let swap ← requireSwapExists swapId
  requireSwapStatus swap .disputed .notDisputed
  require (protocolConfig.disputeTimeoutSecs ≤ env.timestamp - swap.disputeTimestamp)
    .notExpired
  closeSwap swapId swap .cancelled
  refundPrice swapId swap
  setCancelReason swapId (ascii "dispute_timeout")
  publish "disp_res" (.disputeResolved swapId true)

/-- The first request sets the clock. -/
def requestArbitration (env : Env) (swapId : ℕ) (requester : Address)
    (evidenceHash : BytesN 32) : SwapTx Unit := do
  let swap ← requireSwapExists swapId
  requireAuth env.auths requester
  require (requester = swap.buyer ∨ requester = swap.seller) .unauthorized
  requireSwapStatus swap .disputed .notDisputed
  Tx.store fun s => s.setArbitrationTimestamp swapId
      (some ((s.arbitrationTimestamp swapId).getD env.timestamp))
  publish "arb_req" (.arbitrationRequested swapId requester evidenceHash)

def autoRefundTimeout (env : Env) (swapId : ℕ) : SwapTx Unit := do
  let swap ← requireSwapExists swapId
  requireSwapStatus swap .disputed .notDisputed
  let requested ← Tx.load fun s => s.arbitrationTimestamp swapId
  let arbTs ← orFail requested .notDisputed
  require (protocolConfig.arbitrationTimeoutSeconds ≤ env.timestamp - arbTs)
    .arbitrationNotTimedOut
  closeSwap swapId swap .cancelled
  Tx.store fun s => s.setArbitrationTimestamp swapId none
  refundPrice swapId swap
  setCancelReason swapId (ascii "arbitration_timeout")
  appendHistory env swapId .cancelled
  publish "arb_tout" (.disputeResolved swapId true)

end Disputes

section Arbitration

def arbitrateRefund (swapId : ℕ) (swap : SwapRecord) : SwapTx Unit := do
  refundPrice swapId swap
  releaseCollateral swapId swap swap.buyer silently

def arbitrateComplete (swapId : ℕ) (swap : SwapRecord) : SwapTx Unit := do
  releaseCollateral swapId swap swap.seller (collateralReleased swapId swap)
  let feeAmount ← protocolFee swap
  let sellerAmount ← i128 (swap.price - feeAmount)
  paySeller swapId swap sellerAmount
  payTreasury swapId swap feeAmount

/-- The batch form pays the collateral last and does not announce it. -/
def arbitrateBatchComplete (swapId : ℕ) (swap : SwapRecord) : SwapTx Unit := do
  let feeAmount ← protocolFee swap
  let sellerAmount ← i128 (swap.price - feeAmount)
  paySeller swapId swap sellerAmount
  payTreasury swapId swap feeAmount
  releaseCollateral swapId swap swap.seller silently

def verdictStatus (refund : Bool) : SwapStatus := if refund then .cancelled else .completed

/-- The comparison with a stored arbitrator is commented out in the source, and the
status is never looked at. -/
def arbitrateSwap (env : Env) (swapId : ℕ) (arbitrator : Address) (refund : Bool) :
    SwapTx Unit := do
  let swap ← requireSwapExists swapId
  requireAuth env.auths arbitrator
  if refund = true then arbitrateRefund swapId swap else arbitrateComplete swapId swap
  closeSwap swapId swap (verdictStatus refund)
  publish "arb_dec" (.arbitrated swapId arbitrator refund)

def arbitrateDisputed (env : Env) (arbitrator : Address) (refund : Bool) (swapId : ℕ) :
    SwapTx Unit := do
  let swap ← requireSwapExists swapId
  requireSwapStatus swap .disputed .notDisputed
  if refund = true then arbitrateRefund swapId swap else arbitrateBatchComplete swapId swap
  closeSwap swapId swap (verdictStatus refund)
  appendHistory env swapId (verdictStatus refund)
  publish "arb_dec" (.arbitrated swapId arbitrator refund)

def batchArbitrateSwaps (env : Env) (swapIds : List ℕ) (arbitrator : Address)
    (refund : Bool) : SwapTx Unit := do
  requireAuth env.auths arbitrator
  let _ ← Tx.forEach swapIds (arbitrateDisputed env arbitrator refund)

end Arbitration

section Cancellation

def cancelSwap (env : Env) (swapId : ℕ) (canceller : Address) : SwapTx Unit := do
  let swap ← requireSwapExists swapId
  requireSellerOrBuyer canceller swap
  requireAuth env.auths canceller
  requireSwapStatus swap .pending .onlyPending
  closeSwap swapId swap .cancelled
  appendHistory env swapId .cancelled
  updateReputation canceller (-10)
  publish "swap_cncl" (.swapCancelled swapId canceller)

/-- The caller is compared with the buyer but never asked to authorise. -/
def cancelExpiredSwap (env : Env) (swapId : ℕ) (caller : Address) : SwapTx Unit := do
  let swap ← requireSwapExists swapId
  requireSwapStatus swap .accepted .notInAccepted
  requireBuyer caller swap
  requireSwapExpired env swap
  closeSwap swapId swap .cancelled
  refundPrice swapId swap
  releaseCollateral swapId swap swap.buyer (collateralRefunded swapId swap)
  appendHistory env swapId .cancelled
  updateReputation swap.seller (-10)
  publish "s_cancel" (.swapCancelled swapId caller)

def cancelPendingSwap (env : Env) (swapId : ℕ) (caller : Address) : SwapTx Unit := do
  let swap ← requireSwapExists swapId
  requireBuyer caller swap
  requireAuth env.auths caller
  requireSwapStatus swap .pending .notPending
  require (swap.expiry ≤ env.timestamp) .pendingNotExpired
  closeSwap swapId swap .cancelled
  appendHistory env swapId .cancelled
  publish "s_cancel" (.swapCancelled swapId caller)

def cancelWithReason (env : Env) (canceller : Address) (swapId : ℕ) (reason : Bytes) :
    SwapTx ℕ := do
  let swap ← requireSwapExists swapId
  requireSellerOrBuyer canceller swap
  requireSwapStatus swap .pending .onlyPending
  closeSwap swapId swap .cancelled
  setCancelReason swapId reason
  appendHistory env swapId .cancelled
  updateReputation canceller (-10)
  pure swapId

def batchCancelSwaps (env : Env) (swapIds : List ℕ) (canceller : Address)
    (reasons : List Bytes) : SwapTx (List ℕ) := do
  requireAuth env.auths canceller
  require (reasons.length = swapIds.length) .invalidKey
  let cancelledIds ← Tx.forEach₂ .unwrap swapIds reasons (cancelWithReason env canceller)
  publish "btch_ccl" (.batchCancelled cancelledIds canceller reasons)
  pure cancelledIds

end Cancellation

end AtomicIp.AtomicSwap
