import AtomicIp.Swap.Validation

/-!
Set-up and administration. The admin of the instance and the admin of persistent
storage are two entries: pausing, rulings and rollbacks ask the first one, upgrades,
the oracle and the protocol configuration the second.
-/

set_option autoImplicit false

namespace AtomicIp.AtomicSwap

open Function

def initializeContract (ipRegistry : Address) : SwapTx Unit := do
  let stored ← Tx.load fun s => s.ipRegistry
  require (stored.isSome = false) .alreadyInit
  Tx.store fun s => s.setIpRegistry (some ipRegistry)

def setOracle (env : Env) (caller oracleAddress : Address) (enabled : Bool) :
    SwapTx Unit := do
  requireAuth env.auths caller
  let stored ← Tx.load fun s => s.persistentAdmin
  let admin ← orFail stored .notInitialized
  require (caller = admin) .unauthorized
  Tx.store fun s => s.setOracleConfig (some ⟨oracleAddress, enabled⟩)
  publish "oracle" (.oracleConfigSet oracleAddress enabled)

/-- The host replaces the code; the storage stays. The source publishes nothing here, the event
stands for the one of the host. -/
def upgrade (env : Env) (newWasmHash : BytesN 32) : SwapTx Unit := do
  let stored ← Tx.load fun s => s.persistentAdmin
  let admin ← orFail stored .unauthorizedUpg
  requireAuth env.auths admin
  publish "wasm" (.wasmUpdated newWasmHash)

/-- Without a stored admin the contract's own address becomes it. -/
def adoptContractAdmin (env : Env) (stored : Option Address) : SwapTx Address :=
  match stored with
  | some admin => pure admin
  | none => do
      requireAuth env.auths currentContractAddress
      Tx.store fun s => s.setPersistentAdmin (some currentContractAddress)
      pure currentContractAddress

def adminSetProtocolConfig (env : Env) (protocolFeeBps : ℕ) (treasury : Address)
    (disputeWindowSeconds disputeTimeoutSecs : ℕ) (referralFeeBps : ℕ) :
    SwapTx Unit := do
  require (protocolFeeBps ≤ 10000) .invalidFeeBps
  require (referralFeeBps ≤ 10000) .invalidFeeBps
  let stored ← Tx.load fun s => s.persistentAdmin
  let admin ← adoptContractAdmin env stored
  require (currentContractAddress = admin) .unauthorizedUpg
  requireAuth env.auths admin
  storeProtocolConfig
    { protocolFeeBps, treasury, disputeWindowSeconds, disputeTimeoutSecs, referralFeeBps,
      arbitrationTimeoutSeconds := 1209600 }

def setAdmin (env : Env) (newAdmin : Address) : SwapTx Unit := do
  requireAuth env.auths newAdmin
  let stored ← Tx.load fun s => s.admin
  require (stored.all (· = newAdmin)) .unauthorized
  Tx.store fun s => s.setAdmin (some newAdmin)

def pause (env : Env) (caller : Address) : SwapTx Unit := do
  requireAuth env.auths caller
  requireAdmin caller
  Tx.store fun s => s.setPaused (some true)

def unpause (env : Env) (caller : Address) : SwapTx Unit := do
  requireAuth env.auths caller
  requireAdmin caller
  Tx.store fun s => s.setPaused (some false)

section MultiCurrency

def MultiCurrencyConfig.initial : MultiCurrencyConfig where
  enabledTokens := [.xlm, .usdc, .eurc]
  defaultToken := .xlm
  tokenMetadata := [⟨"XLM", 7, none, true⟩, ⟨"USDC", 6, none, false⟩, ⟨"EURC", 6, none, false⟩]

def storeMultiCurrency (config : MultiCurrencyConfig) : SwapTx Unit := do
  Tx.store fun s => s.setMultiCurrencyConfig (some config)
  Tx.store fun s => s.setSupportedTokens (some config.enabledTokens)

def initializeMultiCurrency (env : Env) (caller : Address) : SwapTx Unit := do
  requireAuth env.auths caller
  requireAdmin caller
  storeMultiCurrency .initial

def addSupportedToken (env : Env) (caller : Address) (token : SupportedToken)
    (metadata : TokenMetadata) : SwapTx Unit := do
  requireAuth env.auths caller
  requireAdmin caller
  let stored ← Tx.load fun s => s.multiCurrencyConfig
  let config ← orFail stored .swapNotFound
  Tx.onlyIf (token ∉ config.enabledTokens) do
    storeMultiCurrency { config with
      enabledTokens := config.enabledTokens ++ [token]
      tokenMetadata := config.tokenMetadata ++ [metadata] }
    publish "token_add" (.tokenAdded token metadata.address)

/-- Nothing is removed: the call only refuses the default token. -/
def removeSupportedToken (env : Env) (caller : Address) (token : SupportedToken) :
    SwapTx Unit := do
  requireAuth env.auths caller
  requireAdmin caller
  let stored ← Tx.load fun s => s.multiCurrencyConfig
  let config ← orFail stored .swapNotFound
  require (config.defaultToken ≠ token) .unauthorizedUpg

end MultiCurrency

end AtomicIp.AtomicSwap
