import AtomicIp.Swap.Validation

set_option autoImplicit false

namespace AtomicIp.AtomicSwap

open Function

def pendingSwap (token : Address) (ipId : ℕ) (seller : Address) (price : ℤ)
    (buyer : Address) (expiry : ℕ) : SwapRecord where
  ipId := ipId
  seller := seller
  buyer := buyer
  price := price
  token := token
  status := .pending
  expiry := expiry
  acceptTimestamp := 0
  requiredApprovals := 0
  disputeTimestamp := 0
  referrer := none
  collateralAmount := 0
  insurancePremium := 0
  insuranceEnabled := false
  escrowAgent := none
  quantity := 1
  conditions := []
  paidAmount := 0
  isInstallment := false

def SwapRecord.withOptions (swap : SwapRecord) (requiredApprovals : ℕ)
    (referrer : Option Address) (collateralAmount insurancePremium : ℤ)
    (insuranceEnabled : Bool) : SwapRecord :=
  { swap with requiredApprovals, referrer, collateralAmount, insurancePremium, insuranceEnabled }

def SwapRecord.inInstallments (swap : SwapRecord) : SwapRecord :=
  { swap with isInstallment := true }

def nextSwapId : SwapTx ℕ := Tx.load fun s => s.nextId.getD 0

def defaultExpiry (env : Env) : SwapTx ℕ := u64 (env.timestamp + 604800)

/-- Two percent of the price, or nothing. -/
def premiumFor (insuranceEnabled : Bool) (price : ℤ) : SwapTx ℤ :=
  if insuranceEnabled then do
    let doubled ← i128 (price * 2)
    pure (doubled.tdiv 100)
  else pure 0

def storeInsurance (insuranceEnabled : Bool) (swapId : ℕ) (premium : ℤ) : SwapTx Unit :=
  Tx.onlyIf (insuranceEnabled = true) (Tx.store fun s => s.setSwapInsurance swapId (some premium))

def openSwap (swapId : ℕ) (swap : SwapRecord) : SwapTx Unit := do
  saveSwap swapId swap
  Tx.store fun s => s.setActiveSwap swap.ipId (some swapId)
  appendSwapForParty swap.seller swap.buyer swapId

def announceSwap (env : Env) (topic : String) (swapId : ℕ) (swap : SwapRecord) :
    SwapTx Unit := do
  appendHistory env swapId .pending
  let next ← u64 (swapId + 1)
  Tx.store fun s => s.setNextId (some next)
  publish topic (.swapInitiated swapId swap.ipId swap.seller swap.buyer swap.price)

/-- The first seller ever becomes the admin of persistent storage. -/
def initPersistentAdmin (seller : Address) : SwapTx Unit :=
  Tx.store fun s => s.setPersistentAdmin (some (s.persistentAdmin.getD seller))

def initiateSwap (env : Env) (token : Address) (ipId : ℕ) (seller : Address) (price : ℤ)
    (buyer : Address) (requiredApprovals : ℕ) (referrer : Option Address)
    (collateralAmount : ℤ) (insuranceEnabled : Bool) : SwapTx ℕ := do
  requireNotPaused
  requireAuth env.auths seller
  initPersistentAdmin seller
  requirePositivePrice price
  ensureSellerOwnsActiveIp env ipId seller
  requireNoActiveSwap ipId
  let id ← nextSwapId
  let expiry ← defaultExpiry env
  let premium ← premiumFor insuranceEnabled price
  let swap := (pendingSwap token ipId seller price buyer expiry).withOptions requiredApprovals
    referrer collateralAmount premium insuranceEnabled
  storeInsurance insuranceEnabled id premium
  openSwap id swap
  appendIpSwap ipId id
  announceSwap env "swap_init" id swap
  pure id

def initiateSwapWithOraclePrice (env : Env) (token : Address) (ipId : ℕ)
    (seller buyer : Address) (requiredApprovals : ℕ) (referrer : Option Address)
    (collateralAmount : ℤ) (insuranceEnabled : Bool) (minPrice maxPrice : ℤ) :
    SwapTx ℕ := do
  let oraclePrice ← fetchOraclePrice env token
  validatePriceBounds oraclePrice minPrice maxPrice
  let swapId ← initiateSwap env token ipId seller oraclePrice buyer requiredApprovals referrer
    collateralAmount insuranceEnabled
  publish "ora_price" (.oraclePriceUsed swapId oraclePrice)
  pure swapId

/-- One pair of `batch_initiate_swap`'s first pass, with the pairs after it. -/
def validateBatch (env : Env) (seller : Address) : List (ℕ × ℤ) → SwapTx Unit
  | [] => pure ()
  | (ipId, price) :: rest => do
    requirePositivePrice price
    ensureSellerOwnsActiveIp env ipId seller
    requireNoActiveSwap ipId
    require (ipId ∉ rest.map Prod.fst) .swapExists
    validateBatch env seller rest

/-- One element of the second pass: nothing is checked again. -/
def openValidated (env : Env) (token seller buyer : Address) (requiredApprovals : ℕ)
    (referrer : Option Address) (item : ℕ × ℤ) : SwapTx ℕ := do
  let id ← nextSwapId
  let expiry ← defaultExpiry env
  let swap := (pendingSwap token item.1 seller item.2 buyer expiry).withOptions
    requiredApprovals referrer 0 0 false
  openSwap id swap
  appendIpSwap item.1 id
  announceSwap env "swap_init" id swap
  pure id

def batchInitiateSwap (env : Env) (token : Address) (ipIds : List ℕ) (seller : Address)
    (prices : List ℤ) (buyer : Address) (requiredApprovals : ℕ)
    (referrer : Option Address) : SwapTx (List ℕ) := do
  requireNotPaused
  requireAuth env.auths seller
  require (ipIds.length ≠ 0) .batchEmpty
  require (prices.length = ipIds.length) .batchSizeMismatch
  require (ipIds.length ≤ maxBatchSize) .batchTooLarge
  validateBatch env seller (ipIds.zip prices)
  let swapIds ← Tx.forEach (ipIds.zip prices)
    (openValidated env token seller buyer requiredApprovals referrer)
  publish "btch_ini" (.batchInitiated swapIds seller buyer ipIds.length)
  pure swapIds

/-- Here every element is checked and opened before the next one is looked at. -/
def openInsured (env : Env) (token seller buyer : Address) (requiredApprovals : ℕ)
    (referrer : Option Address) (insuranceEnabled : Bool) (ipId : ℕ) (price : ℤ) :
    SwapTx ℕ := do
  requirePositivePrice price
  ensureSellerOwnsActiveIp env ipId seller
  requireNoActiveSwap ipId
  let id ← nextSwapId
  let premium ← premiumFor insuranceEnabled price
  let expiry ← defaultExpiry env
  let swap := (pendingSwap token ipId seller price buyer expiry).withOptions requiredApprovals
    referrer 0 premium insuranceEnabled
  storeInsurance insuranceEnabled id premium
  openSwap id swap
  appendIpSwap ipId id
  announceSwap env "swap_init" id swap
  pure id

def batchInitiateSwapWithInsurance (env : Env) (token : Address) (ipIds : List ℕ)
    (seller : Address) (prices : List ℤ) (buyer : Address) (requiredApprovals : ℕ)
    (referrer : Option Address) (insuranceEnabled : Bool) : SwapTx (List ℕ) := do
  requireNotPaused
  requireAuth env.auths seller
  Tx.forEach₂ .unwrap ipIds prices
    (openInsured env token seller buyer requiredApprovals referrer insuranceEnabled)

def initiateSwapWithSchedule (env : Env) (token : Address) (ipId : ℕ) (seller : Address)
    (schedule : List PaymentSchedule) (buyer : Address) : SwapTx ℕ := do
  requireNotPaused
  requireAuth env.auths seller
  require (schedule ≠ []) .priceTooSmall
  let totalPrice := schedule.foldl (fun total payment => saturatingI128 (total + payment.amount)) 0
  requirePositivePrice totalPrice
  ensureSellerOwnsActiveIp env ipId seller
  requireNoActiveSwap ipId
  let id ← nextSwapId
  let expiry ← defaultExpiry env
  let swap := (pendingSwap token ipId seller totalPrice buyer expiry).inInstallments
  openSwap id swap
  Tx.store fun s => s.setPaymentSchedule id (some schedule)
  Tx.store fun s => s.setPaymentsMade id (some (schedule.map fun _ => false))
  appendIpSwap ipId id
  announceSwap env "swap_init" id swap
  pure id

/-- Mark the swap as an escrow one. The single form leaves the index of the IP's
swaps alone; the batch form does not. -/
def setEscrowMode (swapId : ℕ) : SwapTx Unit :=
  Tx.store fun s => s.setSwapMode swapId (some .escrow)

def initiateEscrowSwap (env : Env) (token : Address) (ipId : ℕ) (seller : Address)
    (price : ℤ) (buyer : Address) (timeout : ℕ) : SwapTx ℕ := do
  requireNotPaused
  requireAuth env.auths seller
  requirePositivePrice price
  ensureSellerOwnsActiveIp env ipId seller
  requireNoActiveSwap ipId
  let id ← nextSwapId
  let swap := pendingSwap token ipId seller price buyer timeout
  openSwap id swap
  setEscrowMode id
  announceSwap env "esc_ini" id swap
  pure id

def openInEscrow (env : Env) (token seller buyer : Address) (ipId : ℕ) (item : ℤ × ℕ) :
    SwapTx ℕ := do
  requirePositivePrice item.1
  ensureSellerOwnsActiveIp env ipId seller
  requireNoActiveSwap ipId
  let id ← nextSwapId
  let swap := pendingSwap token ipId seller item.1 buyer item.2
  openSwap id swap
  setEscrowMode id
  appendIpSwap ipId id
  announceSwap env "esc_ini" id swap
  pure id

def batchInitiateEscrow (env : Env) (token : Address) (ipIds : List ℕ) (seller : Address)
    (prices : List ℤ) (buyer : Address) (timeouts : List ℕ) : SwapTx (List ℕ) := do
  requireNotPaused
  requireAuth env.auths seller
  require (¬ (ipIds.length = 0 ∨ prices.length ≠ ipIds.length ∨
    timeouts.length ≠ ipIds.length)) .priceTooSmall
  Tx.forEach₂ .unwrap ipIds (prices.zip timeouts) (openInEscrow env token seller buyer)

def initiateSwapWithSigners (env : Env) (token : Address) (ipId : ℕ) (seller : Address)
    (price : ℤ) (buyer : Address) (signers : List Address) : SwapTx ℕ := do
  requireNotPaused
  requireAuth env.auths seller
  requirePositivePrice price
  ensureSellerOwnsActiveIp env ipId seller
  requireNoActiveSwap ipId
  require (signers ≠ []) .unauthorized
  let id ← nextSwapId
  let expiry ← defaultExpiry env
  let swap := pendingSwap token ipId seller price buyer expiry
  openSwap id swap
  Tx.store fun s => s.setSwapSigners id (some signers)
  appendIpSwap ipId id
  announceSwap env "swap_init" id swap
  pure id

end AtomicIp.AtomicSwap
