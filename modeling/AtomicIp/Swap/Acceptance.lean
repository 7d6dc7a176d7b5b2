import AtomicIp.Swap.Validation

set_option autoImplicit false

namespace AtomicIp.AtomicSwap

open Function

section Payments

def payPrice (swapId : ℕ) (swap : SwapRecord) : SwapTx Unit :=
  transfer swap.token swap.buyer currentContractAddress swap.price (.price swapId)

def lockCollateral (swapId : ℕ) (swap : SwapRecord) : SwapTx Unit := do
  transfer swap.token swap.buyer currentContractAddress swap.collateralAmount
    (.collateral swapId)
  Tx.store fun s => s.setSwapCollateral swapId (some swap.collateralAmount)

/-- `accept_swap` refuses a second deposit. -/
def depositCollateral (swapId : ℕ) (swap : SwapRecord) : SwapTx Unit :=
  Tx.onlyIf (0 < swap.collateralAmount) do
    let held ← Tx.load fun s => s.swapCollateral swapId
    require (held = none) .alreadyInit
    lockCollateral swapId swap
    publish "coll_dep" (.collateralDeposited swapId swap.buyer swap.collateralAmount)

/-- `batch_accept_swaps` skips a deposit that is already there. -/
def depositCollateralOnce (swapId : ℕ) (swap : SwapRecord) : SwapTx Unit :=
  Tx.onlyIf (0 < swap.collateralAmount) do
    let held ← Tx.load fun s => s.swapCollateral swapId
    Tx.onlyIf (held = none) (lockCollateral swapId swap)

def collectPremium (swapId : ℕ) (swap : SwapRecord) : SwapTx Unit :=
  Tx.onlyIf (swap.insuranceEnabled = true ∧ 0 < swap.insurancePremium) do
    transfer swap.token swap.buyer currentContractAddress swap.insurancePremium
      (.premium swapId)
    let pool ← Tx.load fun s => (s.insurancePool swap.token).getD 0
    let grown ← i128 (pool + swap.insurancePremium)
    Tx.store fun s => s.setInsurancePool swap.token (some grown)

def markAccepted (env : Env) (swapId : ℕ) (swap : SwapRecord) : SwapTx Unit := do
  saveSwap swapId (swap.acceptedAt env.timestamp)
  appendHistory env swapId .accepted

end Payments

def acceptSwap (env : Env) (swapId : ℕ) : SwapTx Unit := do
  requireNotPaused
  let swap ← requireSwapExists swapId
  requireAuth env.auths swap.buyer
  requireSwapStatus swap .pending .notPending
  requireApprovals swapId swap
  evaluateConditions env swap
  requireReputation swapId swap
  depositCollateral swapId swap
  payPrice swapId swap
  collectPremium swapId swap
  markAccepted env swapId swap
  publish "swap_acpt" (.swapAccepted swapId swap.buyer)

def acceptSwapConditional (env : Env) (swapId : ℕ) (conditions : List SwapCondition) :
    SwapTx Unit := do
  requireNotPaused
  let swap ← requireSwapExists swapId
  requireAuth env.auths swap.buyer
  requireSwapStatus swap .pending .notPending
  requireApprovals swapId swap
  let conditional := { swap with conditions }
  evaluateConditions env conditional
  payPrice swapId swap
  markAccepted env swapId conditional
  publish "swap_acpt" (.swapAccepted swapId swap.buyer)

def acceptSwapPartial (env : Env) (swapId : ℕ) (quantity : ℕ) : SwapTx Unit := do
  requireNotPaused
  let swap ← requireSwapExists swapId
  requireAuth env.auths swap.buyer
  requireSwapStatus swap .pending .notPending
  require (¬ (quantity = 0 ∨ swap.quantity < quantity)) .invalidKey
  let scaled ← i128 (swap.price * quantity)
  Tx.ensure (swap.quantity ≠ 0) .overflow
  let sold := { swap with price := scaled.tdiv swap.quantity, quantity }
  payPrice swapId sold
  markAccepted env swapId sold
  publish "swap_acpt" (.swapAccepted swapId swap.buyer)

def validateAcceptance (buyer : Address) (swapId : ℕ) : SwapTx Unit := do
  let swap ← requireSwapExists swapId
  require (swap.buyer = buyer) .unauthorized
  requireSwapStatus swap .pending .notPending
  requireApprovals swapId swap

/-- The status is not looked at again. -/
def acceptValidated (env : Env) (swapId : ℕ) : SwapTx Unit := do
  let swap ← requireSwapExists swapId
  depositCollateralOnce swapId swap
  payPrice swapId swap
  collectPremium swapId swap
  markAccepted env swapId swap

def batchAcceptSwaps (env : Env) (swapIds : List ℕ) (buyer : Address) : SwapTx Unit := do
  requireNotPaused
  requireAuth env.auths buyer
  require (swapIds ≠ []) .batchEmpty
  require (swapIds.length ≤ maxBatchSize) .batchTooLarge
  let _ ← Tx.forEach swapIds (validateAcceptance buyer)
  let _ ← Tx.forEach swapIds (acceptValidated env)
  publish "btch_acp" (.batchAccepted swapIds buyer)

section Escrow

def requireEscrowMode (swapId : ℕ) : SwapTx Unit := do
  let mode ← Tx.load fun s => (s.swapMode swapId).getD .atomic
  require (mode = .escrow) .unauthorized

def depositEscrow (env : Env) (swapId : ℕ) (swap : SwapRecord) : SwapTx Unit := do
  requireEscrowMode swapId
  requireSwapStatus swap .pending .notPending
  payPrice swapId swap
  Tx.store fun s => s.setEscrowDeposit swapId (some swap.price)
  markAccepted env swapId swap
  publish "esc_dep" (.swapAccepted swapId swap.buyer)

def escrowDeposit (env : Env) (swapId : ℕ) : SwapTx Unit := do
  let swap ← requireSwapExists swapId
  requireAuth env.auths swap.buyer
  depositEscrow env swapId swap

def depositOwn (env : Env) (buyer : Address) (swapId : ℕ) : SwapTx Unit := do
  let swap ← requireSwapExists swapId
  require (swap.buyer = buyer) .unauthorized
  depositEscrow env swapId swap

def batchEscrowDeposit (env : Env) (swapIds : List ℕ) (buyer : Address) : SwapTx Unit := do
  requireAuth env.auths buyer
  let _ ← Tx.forEach swapIds (depositOwn env buyer)

end Escrow

section Installments

/-- Pay one entry of the schedule. The status of the swap is never looked at. -/
def makeScheduledPayment (env : Env) (swapId : ℕ) (paymentIndex : ℕ) : SwapTx Unit := do
  let swap ← requireSwapExists swapId
  requireAuth env.auths swap.buyer
  let stored ← Tx.load fun s => s.paymentSchedule swapId
  let schedule ← orFail stored .swapNotFound
  require (paymentIndex < schedule.length) .invalidKey
  let paymentsMade ← Tx.load fun s => (s.paymentsMade swapId).getD []
  require (paymentsMade.getD paymentIndex false = false) .alreadyInit
  let payment ← Tx.orAbort schedule[paymentIndex]? .unwrap
  require (payment.dueTimestamp ≤ env.timestamp) .notExpired
  transfer swap.token swap.buyer currentContractAddress payment.amount (.price swapId)
  Tx.ensure (paymentIndex < paymentsMade.length) .unwrap
  let paid := paymentsMade.set paymentIndex true
  Tx.store fun s => s.setPaymentsMade swapId (some paid)
  Tx.onlyIf (∀ made ∈ paid, made = true) do
    markAccepted env swapId swap
    publish "swap_acpt" (.swapAccepted swapId swap.buyer)
  publish "sched_pay" (.scheduledPaymentMade swapId paymentIndex payment.amount
    (schedule.length - (paymentIndex + 1)))

def SwapRecord.withPaid (swap : SwapRecord) (paidAmount : ℤ) : SwapRecord :=
  { swap with paidAmount }

def submitInstallmentPayment (env : Env) (swapId : ℕ) (paymentAmount : ℤ) :
    SwapTx Unit := do
  let swap ← requireSwapExists swapId
  requireAuth env.auths swap.buyer
  require (swap.isInstallment = true) .notPending
  require (swap.status = .pending) .notPending
  require (0 < paymentAmount) .priceTooSmall
  require (paymentAmount ≤ saturatingI128 (swap.price - swap.paidAmount)) .priceTooSmall
  transfer swap.token swap.buyer currentContractAddress paymentAmount (.price swapId)
  let paid := swap.withPaid (saturatingI128 (swap.paidAmount + paymentAmount))
  saveSwap swapId paid
  Tx.onlyIf (paid.price ≤ paid.paidAmount) do
    markAccepted env swapId paid
    publish "swap_acpt" (.swapAccepted swapId swap.buyer)
  publish "inst_pay" (.installmentPaid swapId paymentAmount paid.paidAmount paid.price)

end Installments

section Terms

def renegotiateSwap (env : Env) (swapId : ℕ) (newPrice : ℤ) : SwapTx Unit := do
  requireNotPaused
  let swap ← requireSwapExists swapId
  requireSwapStatus swap .pending .notPending
  requireAuth env.auths swap.seller
  requirePositivePrice newPrice
  let offer : RenegotiationOffer := ⟨newPrice, swap.seller, env.timestamp⟩
  Tx.store fun s => s.setSwapRenegotiations swapId (some offer)
  publish "rneg_prp" (.renegotiationProposed swapId newPrice swap.seller)

def acceptRenegotiation (env : Env) (swapId : ℕ) : SwapTx Unit := do
  requireNotPaused
  let swap ← requireSwapExists swapId
  requireSwapStatus swap .pending .notPending
  requireAuth env.auths swap.buyer
  let stored ← Tx.load fun s => s.swapRenegotiations swapId
  let offer ← orFail stored .swapNotFound
  saveSwap swapId { swap with price := offer.newPrice }
  Tx.store fun s => s.setSwapRenegotiations swapId none
  publish "rneg_acp" (.renegotiationAccepted swapId offer.newPrice swap.buyer)

def extendSwapExpiry (env : Env) (swapId : ℕ) (newExpiry : ℕ) : SwapTx Unit := do
  let swap ← requireSwapExists swapId
  requireAuth env.auths swap.seller
  requireSwapStatus swap .pending .notPending
  require (swap.expiry < newExpiry) .expiryNotGreater
  saveSwap swapId { swap with expiry := newExpiry }
  publish "exp_ext" (.swapExpiryExtended swapId swap.expiry newExpiry)

def approveSwap (env : Env) (swapId : ℕ) (approver : Address) : SwapTx Unit := do
  requireAuth env.auths approver
  let swap ← requireSwapExists swapId
  requireSwapStatus swap .pending .notPending
  let approvals ← Tx.load fun s => (s.swapApprovals swapId).getD []
  require (approver ∉ approvals) .alreadyApproved
  let collected := approvals ++ [approver]
  Tx.store fun s => s.setSwapApprovals swapId (some collected)
  publish "approved" (.swapApproved swapId approver collected.length)

def setReputationMultiplier (env : Env) (swapId : ℕ) (minReputation : ℕ) :
    SwapTx Unit := do
  let swap ← requireSwapExists swapId
  requireAuth env.auths swap.seller
  requireSwapStatus swap .pending .notPending
  Tx.store fun s => s.setReputationMultiplier swapId (some minReputation)

def signSwapReveal (env : Env) (swapId : ℕ) (signer : Address) : SwapTx Unit := do
  requireAuth env.auths signer
  let swap ← requireSwapExists swapId
  requireSwapStatus swap .accepted .notAccepted
  let stored ← Tx.load fun s => s.swapSigners swapId
  let signers ← orFail stored .unauthorized
  require (signer ∈ signers) .notARequiredSigner
  let signed ← Tx.load fun s => (s.swapSignatures swapId).getD []
  require (signer ∉ signed) .alreadySigned
  Tx.store fun s => s.setSwapSignatures swapId (some (signed ++ [signer]))

end Terms

end AtomicIp.AtomicSwap
