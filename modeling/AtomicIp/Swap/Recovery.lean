import AtomicIp.Swap.Settlement
import AtomicIp.Swap.Acceptance

set_option autoImplicit false

namespace AtomicIp.AtomicSwap

open Function

section BatchReveal

structure Key where
  secret : BytesN 32
  blindingFactor : BytesN 32
  deriving DecidableEq

/-- One element of the first pass: nothing is written. -/
def validateReveal (env : Env) (seller : Address) (swapId : ℕ) (key : Key) :
    SwapTx Unit := do
  let swap ← requireSwapExists swapId
  requireSeller seller swap
  requireSwapStatus swap .accepted .notAccepted
  let valid ← verifyCommitment env swap.ipId key.secret key.blindingFactor
  require (valid = true) .invalidKey

/-- One element of the second pass: the status is not looked at again. -/
def completeRevealed (env : Env) (swapId : ℕ) : SwapTx SwapFeeBreakdown := do
  let swap ← requireSwapExists swapId
  closeSwap swapId swap .completed
  appendHistory env swapId .completed
  let feeAmount ← protocolFee swap
  let referralAmount ← referralFee swap
  let net ← i128 (swap.price - feeAmount)
  let sellerAmount ← i128 (net - referralAmount)
  paySeller swapId swap sellerAmount
  payTreasury swapId swap feeAmount
  payReferrer swapId swap referralAmount
  releaseCollateral swapId swap swap.seller (collateralReleased swapId swap)
  updateReputation swap.seller 5
  updateReputation swap.buyer 5
  pure ⟨swapId, swap.price, feeAmount, referralAmount, sellerAmount⟩

def batchRevealKeys (env : Env) (swapIds : List ℕ) (secrets blindingFactors : List (BytesN 32))
    (seller : Address) : SwapTx Unit := do
  requireAuth env.auths seller
  require (swapIds ≠ []) .batchEmpty
  require (¬ (secrets.length ≠ swapIds.length ∨ blindingFactors.length ≠ swapIds.length))
    .batchSizeMismatch
  require (swapIds.length ≤ maxBatchSize) .batchTooLarge
  let _ ← Tx.forEach₂ .unwrap swapIds (List.zipWith Key.mk secrets blindingFactors)
    (validateReveal env seller)
  let fees ← Tx.forEach swapIds (completeRevealed env)
  publish "btch_key" (.batchKeysRevealed swapIds seller)
  publish "btch_fee" (.batchFeeBreakdown swapIds seller fees)

end BatchReveal

def escrowWithdraw (env : Env) (swapId : ℕ) : SwapTx Unit := do
  let swap ← requireSwapExists swapId
  requireAuth env.auths swap.buyer
  requireEscrowMode swapId
  requireSwapStatus swap .accepted .notAccepted
  require (swap.expiry < env.timestamp) .notExpired
  let deposit ← Tx.load fun s => (s.escrowDeposit swapId).getD 0
  closeSwap swapId swap .cancelled
  Tx.store fun s => s.setEscrowDeposit swapId none
  appendHistory env swapId .cancelled
  Tx.onlyIf (0 < deposit) (payOut swap swap.buyer deposit (.price swapId))
  publish "esc_wdr" (.swapCancelled swapId swap.buyer)

/-- The pool pays what it has, at most the price. -/
def claimInsurance (env : Env) (swapId : ℕ) : SwapTx Unit := do
  let swap ← requireSwapExists swapId
  requireAuth env.auths swap.buyer
  require (swap.insuranceEnabled = true) .unauthorized
  let claimable ← Tx.load fun s => s.insuranceClaimable swapId
  require (claimable.isSome = true) .unauthorized
  let pool ← Tx.load fun s => (s.insurancePool swap.token).getD 0
  let actualPayout := if swap.price ≤ pool then swap.price else pool
  payOut swap swap.buyer actualPayout (.claim swapId)
  let rest ← i128 (pool - actualPayout)
  Tx.store fun s => s.setInsurancePool swap.token (some rest)
  Tx.store fun s => s.setInsuranceClaimable swapId none
  publish "ins_pay" (.insurancePayout swapId swap.buyer actualPayout)

section Rollback

/-- Ninety percent back to the buyer, the rest to the treasury. -/
def rollBackCompleted (env : Env) (swapId : ℕ) (swap : SwapRecord) : SwapTx Unit := do
  let scaled ← i128 (swap.price * 90)
  let buyerRefund := scaled.tdiv 100
  let treasuryPenalty ← i128 (swap.price - buyerRefund)
  payOut swap swap.buyer buyerRefund (.price swapId)
  payTreasury swapId swap treasuryPenalty
  saveSwap swapId (swap.withStatus .rolledBack)
  Tx.store fun s => s.setCompletionTimestamp swapId none
  appendHistory env swapId .rolledBack
  publish "rollback" (.swapRolledBack swapId buyerRefund treasuryPenalty)

def validateAndRollbackSwap (env : Env) (swapId : ℕ) (isKeyValid : Bool) : SwapTx Bool := do
  let swap ← requireSwapExists swapId
  requireAuth env.auths swap.buyer
  requireSwapStatus swap .completed .notInAccepted
  let completionTs ← Tx.load fun s => (s.completionTimestamp swapId).getD 0
  require (env.timestamp - completionTs ≤ 86400) .rollbackWindowExpired
  Tx.onlyIf (isKeyValid = false) (rollBackCompleted env swapId swap)
  pure (!isKeyValid)

/-- Add to the refund total, which only the single form keeps. -/
abbrev Tally := ℤ → ℤ → SwapTx ℤ

def tallied : Tally := fun total amount => i128 (total + amount)

def untallied : Tally := fun total _ => pure total

def returnCollateral (tally : Tally) (swapId : ℕ) (swap : SwapRecord) (total : ℤ) :
    SwapTx ℤ := do
  let held ← Tx.load fun s => s.swapCollateral swapId
  match held with
  | some collateral => do
      let total ← tally total collateral
      payOut swap swap.buyer collateral (.collateral swapId)
      forgetCollateral swapId
      pure total
  | none => pure total

/-- The premium comes out of the escrow, not out of the pool. -/
def returnPremium (tally : Tally) (swapId : ℕ) (swap : SwapRecord) (total : ℤ) :
    SwapTx ℤ :=
  if 0 < swap.insurancePremium then do
    let total ← tally total swap.insurancePremium
    payOut swap swap.buyer swap.insurancePremium (.premium swapId)
    pure total
  else pure total

def refundEscrow (tally : Tally) (swapId : ℕ) (swap : SwapRecord) : SwapTx ℤ :=
  if swap.status = .accepted ∨ swap.status = .disputed then do
    let total ← tally 0 swap.price
    refundPrice swapId swap
    let total ← returnCollateral tally swapId swap total
    returnPremium tally swapId swap total
  else pure 0

/-- Every status but `Completed` is let through. -/
def rollBack (env : Env) (tally : Tally) (swapId : ℕ) (swap : SwapRecord) (reason : Bytes) :
    SwapTx ℤ := do
  let buyerRefund ← refundEscrow tally swapId swap
  closeSwap swapId swap .cancelled
  setCancelReason swapId reason
  appendHistory env swapId .cancelled
  pure buyerRefund

def adminRollbackSwap (env : Env) (swapId : ℕ) (caller : Address) (reason : Bytes) :
    SwapTx Unit := do
  requireAuth env.auths caller
  requireAdmin caller
  let swap ← requireSwapExists swapId
  require (swap.status ≠ .completed) .notInAccepted
  let buyerRefund ← rollBack env tallied swapId swap reason
  publish "adm_rlbk" (.adminRollback swapId reason buyerRefund 0 env.timestamp)

def validateRollback (swapId : ℕ) : SwapTx Unit := do
  let swap ← requireSwapExists swapId
  require (swap.status ≠ .completed) .notInAccepted

/-- The status is not looked at again. -/
def rollBackValidated (env : Env) (reason : Bytes) (swapId : ℕ) : SwapTx Unit := do
  let swap ← requireSwapExists swapId
  let _ ← rollBack env untallied swapId swap reason

def batchRollbackSwaps (env : Env) (swapIds : List ℕ) (caller : Address) (reason : Bytes) :
    SwapTx Unit := do
  requireAuth env.auths caller
  requireAdmin caller
  require (swapIds.length ≠ 0) .batchEmpty
  require (swapIds.length ≤ maxBatchSize) .batchTooLarge
  let _ ← Tx.forEach swapIds validateRollback
  let _ ← Tx.forEach swapIds (rollBackValidated env reason)
  publish "btch_rlb" (.batchRollback swapIds caller swapIds.length)

end Rollback

end AtomicIp.AtomicSwap
