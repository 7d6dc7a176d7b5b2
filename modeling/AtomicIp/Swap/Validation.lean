import AtomicIp.Swap.State

/-!
The guards and small writes shared by the entry points: `validation.rs`,
`registry.rs`, `swap.rs`, `price_oracle.rs` and the private helpers of `lib.rs`.
-/

set_option autoImplicit false

namespace AtomicIp.AtomicSwap

open Function

def requireNotPaused : SwapTx Unit := do
  let paused ← Tx.load fun s => s.paused.getD false
  require (paused = false) .paused

def requireSwapExists (swapId : ℕ) : SwapTx SwapRecord := do
  let swap ← Tx.load fun s => s.swap swapId
  orFail swap .swapNotFound

def requireSwapStatus (swap : SwapRecord) (expected : SwapStatus) (error : ContractError) :
    SwapTx Unit :=
  require (swap.status = expected) error

def requirePositivePrice (price : ℤ) : SwapTx Unit := require (0 < price) .priceTooSmall

def requireSeller (caller : Address) (swap : SwapRecord) : SwapTx Unit :=
  require (caller = swap.seller) .onlySellerReveal

def requireBuyer (caller : Address) (swap : SwapRecord) : SwapTx Unit :=
  require (caller = swap.buyer) .onlyBuyerCancel

def requireSellerOrBuyer (caller : Address) (swap : SwapRecord) : SwapTx Unit :=
  require (caller = swap.seller ∨ caller = swap.buyer) .onlySellerBuyer

def requireSwapExpired (env : Env) (swap : SwapRecord) : SwapTx Unit :=
  require (swap.expiry < env.timestamp) .notExpired

def requireNoActiveSwap (ipId : ℕ) : SwapTx Unit := do
  let active ← Tx.load fun s => s.activeSwap ipId
  require (active = none) .swapExists

def requireAdmin (caller : Address) : SwapTx Unit := do
  let stored ← Tx.load fun s => s.admin
  let admin ← orFail stored .unauthorized
  require (caller = admin) .unauthorized

def ipRegistry : SwapTx Address := do
  let stored ← Tx.load fun s => s.ipRegistry
  orFail stored .notInitialized

def ensureSellerOwnsActiveIp (env : Env) (ipId : ℕ) (seller : Address) : SwapTx Unit := do
  let registryAddr ← ipRegistry
  let record ← Tx.orAbort ((env.registry registryAddr).getIp ipId) .invoke
  require (record.owner = seller) .notIPOwner
  require (record.revoked = false) .ipRevoked

def verifyCommitment (env : Env) (ipId : ℕ) (secret blindingFactor : BytesN 32) :
    SwapTx Bool := do
  let registryAddr ← ipRegistry
  Tx.orAbort ((env.registry registryAddr).verifyCommitment ipId secret blindingFactor) .invoke

def saveSwap (swapId : ℕ) (swap : SwapRecord) : SwapTx Unit :=
  Tx.store fun s => s.setSwap swapId (some swap)

def removeActiveSwap (ipId : ℕ) : SwapTx Unit :=
  Tx.store fun s => s.setActiveSwap ipId none

def appendSwapForParty (seller buyer : Address) (swapId : ℕ) : SwapTx Unit := do
  Tx.store fun s => s.setSellerSwaps seller
      (some ((s.sellerSwaps seller).getD [] ++ [swapId]))
  Tx.store fun s => s.setBuyerSwaps buyer
      (some ((s.buyerSwaps buyer).getD [] ++ [swapId]))

def appendIpSwap (ipId swapId : ℕ) : SwapTx Unit :=
  Tx.store fun s => s.setIpSwaps ipId (some ((s.ipSwaps ipId).getD [] ++ [swapId]))

def appendHistory (env : Env) (swapId : ℕ) (status : SwapStatus) : SwapTx Unit :=
  Tx.store fun s => s.setSwapHistory swapId
      (some ((s.swapHistory swapId).getD [] ++ [⟨status, env.timestamp⟩]))

def setCancelReason (swapId : ℕ) (reason : Bytes) : SwapTx Unit :=
  Tx.store fun s => s.setCancelReason swapId (some reason)

/-- `u32 as i32`. -/
def asI32 (x : ℕ) : ℤ := if x < 2 ^ 31 then x else x - 2 ^ 32

def adjustedReputation (current : ℕ) (delta : ℤ) : ℕ :=
  (saturate 0 100 (saturate (-2 ^ 31) (2 ^ 31 - 1) (asI32 current + delta))).toNat

def updateReputation (address : Address) (delta : ℤ) : SwapTx Unit :=
  Tx.store fun s => s.setUserReputation address
      (some (adjustedReputation ((s.userReputation address).getD 50) delta))

/-- Storage of the configuration is switched off: every read gives these values. -/
def protocolConfig : ProtocolConfig where
  protocolFeeBps := 250
  treasury := treasury
  disputeWindowSeconds := 86400
  disputeTimeoutSecs := 604800
  referralFeeBps := 100
  arbitrationTimeoutSeconds := 1209600

def storeProtocolConfig (_config : ProtocolConfig) : SwapTx Unit := pure ()

/-- A condition holds at the present ledger time; `KeyValid` is left to the
registry's own check of the key. -/
def SwapCondition.holds (env : Env) (swap : SwapRecord) : SwapCondition → Prop
  | .keyValid => True
  | .priceBelow threshold => swap.price < threshold
  | .timeAfter ts => ts ≤ env.timestamp

instance (env : Env) (swap : SwapRecord) (condition : SwapCondition) :
    Decidable (condition.holds env swap) := by
  cases condition <;> unfold SwapCondition.holds <;> infer_instance

def evaluateConditions (env : Env) (swap : SwapRecord) : SwapTx Unit := do
  let _ ← Tx.forEach swap.conditions fun condition =>
    require (condition.holds env swap) .conditionNotMet

def requireApprovals (swapId : ℕ) (swap : SwapRecord) : SwapTx Unit := do
  let approvals ← Tx.load fun s => (s.swapApprovals swapId).getD []
  require (0 < swap.requiredApprovals → swap.requiredApprovals ≤ approvals.length)
    .needApprovals

def requireReputation (swapId : ℕ) (swap : SwapRecord) : SwapTx Unit := do
  let minRep ← Tx.load fun s => s.reputationMultiplier swapId
  let buyerRep ← Tx.load fun s => (s.userReputation swap.buyer).getD 50
  require (minRep.all (· ≤ buyerRep)) .insufficientReputation

def loadOracleConfig : SwapTx (Option OracleConfig) := Tx.load fun s => s.oracleConfig

def fetchOraclePrice (env : Env) (token : Address) : SwapTx ℤ := do
  let stored ← loadOracleConfig
  let config ← orFail stored .oracleNotConfigured
  require (config.enabled = true) .oracleNotConfigured
  let price ← Tx.orAbort (env.oracle config.oracleAddress token) .invoke
  require (0 < price) .oraclePriceInvalid
  pure price

def validatePriceBounds (price minPrice maxPrice : ℤ) : SwapTx Unit := do
  require (¬ (0 < minPrice ∧ price < minPrice)) .oraclePriceBelowMin
  require (¬ (0 < maxPrice ∧ maxPrice < price)) .oraclePriceAboveMax

section Guards

variable {env : Env} {s s' : State} {u : Unit} {caller seller : Address} {swapId ipId : ℕ}
  {swap : SwapRecord}

@[simp] theorem requireNotPaused_ok :
    requireNotPaused s = .ok (u, s') ↔ s.paused.getD false = false ∧ s' = s := by
  simp [requireNotPaused]

@[simp] theorem requireSwapExists_ok :
    requireSwapExists swapId s = .ok (swap, s') ↔ s.swap swapId = some swap ∧ s' = s := by
  simp [requireSwapExists]

@[simp] theorem requireSwapStatus_ok {expected : SwapStatus} {error : ContractError} :
    requireSwapStatus swap expected error s = .ok (u, s') ↔
      swap.status = expected ∧ s' = s := require_ok

@[simp] theorem requirePositivePrice_ok {price : ℤ} :
    requirePositivePrice price s = .ok (u, s') ↔ 0 < price ∧ s' = s := require_ok

@[simp] theorem requireSeller_ok :
    requireSeller caller swap s = .ok (u, s') ↔ caller = swap.seller ∧ s' = s := require_ok

@[simp] theorem requireBuyer_ok :
    requireBuyer caller swap s = .ok (u, s') ↔ caller = swap.buyer ∧ s' = s := require_ok

@[simp] theorem requireSellerOrBuyer_ok :
    requireSellerOrBuyer caller swap s = .ok (u, s') ↔
      (caller = swap.seller ∨ caller = swap.buyer) ∧ s' = s := require_ok

@[simp] theorem requireSwapExpired_ok :
    requireSwapExpired env swap s = .ok (u, s') ↔ swap.expiry < env.timestamp ∧ s' = s :=
  require_ok

@[simp] theorem requireNoActiveSwap_ok :
    requireNoActiveSwap ipId s = .ok (u, s') ↔ s.activeSwap ipId = none ∧ s' = s := by
  simp [requireNoActiveSwap]

@[simp] theorem requireAdmin_ok :
    requireAdmin caller s = .ok (u, s') ↔ s.admin = some caller ∧ s' = s := by
  rw [requireAdmin, Tx.load_bind_ok]
  simp only [Tx.bind_ok, orFail_ok, require_ok]
  constructor
  · intro h
    obtain ⟨admin, _, ⟨hadmin, rfl⟩, rfl, rfl⟩ := h
    exact ⟨hadmin, rfl⟩
  · intro h
    exact ⟨caller, s, ⟨h.1, rfl⟩, rfl, h.2⟩

@[simp] theorem ipRegistry_ok {a : Address} :
    ipRegistry s = .ok (a, s') ↔ s.ipRegistry = some a ∧ s' = s := by
  simp [ipRegistry]

def OwnsActiveIp (env : Env) (s : State) (ipId : ℕ) (seller : Address) : Prop :=
  ∃ a record, s.ipRegistry = some a ∧ (env.registry a).getIp ipId = some record ∧
    record.owner = seller ∧ record.revoked = false

@[simp] theorem ensureSellerOwnsActiveIp_ok :
    ensureSellerOwnsActiveIp env ipId seller s = .ok (u, s') ↔
      OwnsActiveIp env s ipId seller ∧ s' = s := by
  simp only [ensureSellerOwnsActiveIp, Tx.bind_ok, ipRegistry_ok, Tx.orAbort_ok, require_ok,
    OwnsActiveIp]
  constructor
  · intro h
    obtain ⟨a, _, ⟨ha, rfl⟩, r, _, ⟨hr, rfl⟩, _, _, ⟨ho, rfl⟩, hl, rfl⟩ := h
    exact ⟨⟨a, r, ha, hr, ho, hl⟩, rfl⟩
  · intro h
    obtain ⟨⟨a, r, ha, hr, ho, hl⟩, rfl⟩ := h
    exact ⟨a, _, ⟨ha, rfl⟩, r, _, ⟨hr, rfl⟩, (), _, ⟨ho, rfl⟩, hl, rfl⟩

def KeyCheck (env : Env) (registryAddr : Option Address) (ipId : ℕ)
    (secret blindingFactor : BytesN 32) (valid : Bool) : Prop :=
  ∃ a, registryAddr = some a ∧
    (env.registry a).verifyCommitment ipId secret blindingFactor = some valid

@[simp] theorem verifyCommitment_ok {secret blindingFactor : BytesN 32} {valid : Bool} :
    verifyCommitment env ipId secret blindingFactor s = .ok (valid, s') ↔
      KeyCheck env s.ipRegistry ipId secret blindingFactor valid ∧ s' = s := by
  simp only [verifyCommitment, Tx.bind_ok, ipRegistry_ok, Tx.orAbort_ok, KeyCheck]
  constructor
  · intro h
    obtain ⟨a, _, ⟨ha, rfl⟩, hv, rfl⟩ := h
    exact ⟨⟨a, ha, hv⟩, rfl⟩
  · intro h
    obtain ⟨⟨a, ha, hv⟩, rfl⟩ := h
    exact ⟨a, _, ⟨ha, rfl⟩, hv, rfl⟩

@[simp] theorem evaluateConditions_ok :
    evaluateConditions env swap s = .ok (u, s') ↔
      (∀ condition ∈ swap.conditions, condition.holds env swap) ∧ s' = s := by
  simp only [evaluateConditions, Tx.bind_ok, Tx.pure_ok]
  generalize swap.conditions = conditions
  induction conditions with
  | nil => simp
  | cons condition rest ih =>
    simp only [Tx.forEach_cons_ok, require_ok, List.mem_cons, forall_eq_or_imp]
    constructor
    · intro h
      obtain ⟨_, _, ⟨_, _, cs, ⟨hc, rfl⟩, hrest, -⟩, -, rfl⟩ := h
      have htail := ih.mp ⟨cs, s', hrest, trivial, rfl⟩
      exact ⟨⟨hc, htail.1⟩, htail.2⟩
    · intro h
      obtain ⟨⟨hc, hcs⟩, rfl⟩ := h
      obtain ⟨cs, _, hrest, -, rfl⟩ := ih.mpr ⟨hcs, rfl⟩
      exact ⟨() :: cs, _, ⟨(), _, cs, ⟨hc, rfl⟩, hrest, rfl⟩, trivial, rfl⟩

@[simp] theorem requireApprovals_ok :
    requireApprovals swapId swap s = .ok (u, s') ↔
      (0 < swap.requiredApprovals →
        swap.requiredApprovals ≤ ((s.swapApprovals swapId).getD []).length) ∧ s' = s := by
  simp [requireApprovals]

@[simp] theorem requireReputation_ok :
    requireReputation swapId swap s = .ok (u, s') ↔
      ((s.reputationMultiplier swapId).all fun m =>
        decide (m ≤ (s.userReputation swap.buyer).getD 50)) = true ∧ s' = s := by
  simp [requireReputation]

end Guards

end AtomicIp.AtomicSwap
