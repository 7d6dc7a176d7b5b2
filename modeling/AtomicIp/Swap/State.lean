import AtomicIp.Swap.Types
import Mathlib.Logic.Function.Basic

set_option autoImplicit false

namespace AtomicIp.AtomicSwap

open Function

structure State where
  -- instance storage
  ipRegistry : Option Address
  admin : Option Address
  paused : Option Bool
  nextId : Option ℕ
  -- persistent storage; its `Admin` entry is not the instance one
  persistentAdmin : Option Address
  swap : ℕ → Option SwapRecord
  activeSwap : ℕ → Option ℕ
  sellerSwaps : Address → Option (List ℕ)
  buyerSwaps : Address → Option (List ℕ)
  ipSwaps : ℕ → Option (List ℕ)
  swapHistory : ℕ → Option (List SwapHistoryEntry)
  swapApprovals : ℕ → Option (List Address)
  cancelReason : ℕ → Option Bytes
  multiCurrencyConfig : Option MultiCurrencyConfig
  supportedTokens : Option (List SupportedToken)
  auction : ℕ → Option AuctionRecord
  activeAuction : ℕ → Option ℕ
  nextAuctionId : Option ℕ
  paymentSchedule : ℕ → Option (List PaymentSchedule)
  paymentsMade : ℕ → Option (List Bool)
  swapCollateral : ℕ → Option ℤ
  swapInsurance : ℕ → Option ℤ
  insuranceClaimable : ℕ → Option Bool
  insurancePool : Address → Option ℤ
  swapRenegotiations : ℕ → Option RenegotiationOffer
  swapMode : ℕ → Option SwapMode
  escrowDeposit : ℕ → Option ℤ
  userReputation : Address → Option ℕ
  reputationMultiplier : ℕ → Option ℕ
  arbitrationTimestamp : ℕ → Option ℕ
  swapSigners : ℕ → Option (List Address)
  swapSignatures : ℕ → Option (List Address)
  completionTimestamp : ℕ → Option ℕ
  oracleConfig : Option OracleConfig
  -- the token contracts and the event log
  balance : Address → Address → ℤ
  transfers : List TokenTransfer
  events : List Event

def State.empty (balance : Address → Address → ℤ) : State where
  ipRegistry := none
  admin := none
  paused := none
  nextId := none
  persistentAdmin := none
  swap _ := none
  activeSwap _ := none
  sellerSwaps _ := none
  buyerSwaps _ := none
  ipSwaps _ := none
  swapHistory _ := none
  swapApprovals _ := none
  cancelReason _ := none
  multiCurrencyConfig := none
  supportedTokens := none
  auction _ := none
  activeAuction _ := none
  nextAuctionId := none
  paymentSchedule _ := none
  paymentsMade _ := none
  swapCollateral _ := none
  swapInsurance _ := none
  insuranceClaimable _ := none
  insurancePool _ := none
  swapRenegotiations _ := none
  swapMode _ := none
  escrowDeposit _ := none
  userReputation _ := none
  reputationMultiplier _ := none
  arbitrationTimestamp _ := none
  swapSigners _ := none
  swapSignatures _ := none
  completionTimestamp _ := none
  oracleConfig := none
  balance := balance
  transfers := []
  events := []

namespace State

section Entries

/-! Writing or removing one entry. -/

variable (s : State)

def setIpRegistry (entry : Option Address) : State := { s with ipRegistry := entry }

def setAdmin (entry : Option Address) : State := { s with admin := entry }

def setPaused (entry : Option Bool) : State := { s with paused := entry }

def setNextId (entry : Option ℕ) : State := { s with nextId := entry }

def setPersistentAdmin (entry : Option Address) : State := { s with persistentAdmin := entry }

def setMultiCurrencyConfig (entry : Option MultiCurrencyConfig) : State :=
  { s with multiCurrencyConfig := entry }

def setSupportedTokens (entry : Option (List SupportedToken)) : State :=
  { s with supportedTokens := entry }

def setNextAuctionId (entry : Option ℕ) : State := { s with nextAuctionId := entry }

def setOracleConfig (entry : Option OracleConfig) : State := { s with oracleConfig := entry }

def setSwap (key : ℕ) (entry : Option SwapRecord) : State :=
  { s with swap := update s.swap key entry }

def setActiveSwap (key : ℕ) (entry : Option ℕ) : State :=
  { s with activeSwap := update s.activeSwap key entry }

def setSellerSwaps (key : Address) (entry : Option (List ℕ)) : State :=
  { s with sellerSwaps := update s.sellerSwaps key entry }

def setBuyerSwaps (key : Address) (entry : Option (List ℕ)) : State :=
  { s with buyerSwaps := update s.buyerSwaps key entry }

def setIpSwaps (key : ℕ) (entry : Option (List ℕ)) : State :=
  { s with ipSwaps := update s.ipSwaps key entry }

def setSwapHistory (key : ℕ) (entry : Option (List SwapHistoryEntry)) : State :=
  { s with swapHistory := update s.swapHistory key entry }

def setSwapApprovals (key : ℕ) (entry : Option (List Address)) : State :=
  { s with swapApprovals := update s.swapApprovals key entry }

def setCancelReason (key : ℕ) (entry : Option Bytes) : State :=
  { s with cancelReason := update s.cancelReason key entry }

def setAuction (key : ℕ) (entry : Option AuctionRecord) : State :=
  { s with auction := update s.auction key entry }

def setActiveAuction (key : ℕ) (entry : Option ℕ) : State :=
  { s with activeAuction := update s.activeAuction key entry }

def setPaymentSchedule (key : ℕ) (entry : Option (List PaymentSchedule)) : State :=
  { s with paymentSchedule := update s.paymentSchedule key entry }

def setPaymentsMade (key : ℕ) (entry : Option (List Bool)) : State :=
  { s with paymentsMade := update s.paymentsMade key entry }

def setSwapCollateral (key : ℕ) (entry : Option ℤ) : State :=
  { s with swapCollateral := update s.swapCollateral key entry }

def setSwapInsurance (key : ℕ) (entry : Option ℤ) : State :=
  { s with swapInsurance := update s.swapInsurance key entry }

def setInsuranceClaimable (key : ℕ) (entry : Option Bool) : State :=
  { s with insuranceClaimable := update s.insuranceClaimable key entry }

def setInsurancePool (key : Address) (entry : Option ℤ) : State :=
  { s with insurancePool := update s.insurancePool key entry }

def setSwapRenegotiations (key : ℕ) (entry : Option RenegotiationOffer) : State :=
  { s with swapRenegotiations := update s.swapRenegotiations key entry }

def setSwapMode (key : ℕ) (entry : Option SwapMode) : State :=
  { s with swapMode := update s.swapMode key entry }

def setEscrowDeposit (key : ℕ) (entry : Option ℤ) : State :=
  { s with escrowDeposit := update s.escrowDeposit key entry }

def setUserReputation (key : Address) (entry : Option ℕ) : State :=
  { s with userReputation := update s.userReputation key entry }

def setReputationMultiplier (key : ℕ) (entry : Option ℕ) : State :=
  { s with reputationMultiplier := update s.reputationMultiplier key entry }

def setArbitrationTimestamp (key : ℕ) (entry : Option ℕ) : State :=
  { s with arbitrationTimestamp := update s.arbitrationTimestamp key entry }

def setSwapSigners (key : ℕ) (entry : Option (List Address)) : State :=
  { s with swapSigners := update s.swapSigners key entry }

def setSwapSignatures (key : ℕ) (entry : Option (List Address)) : State :=
  { s with swapSignatures := update s.swapSignatures key entry }

def setCompletionTimestamp (key : ℕ) (entry : Option ℕ) : State :=
  { s with completionTimestamp := update s.completionTimestamp key entry }

def published (events : List Event) : State := { s with events := s.events ++ events }

def transferred (m : TokenTransfer) : State :=
  { s with balance := post s.balance m, transfers := s.transfers ++ [m] }

end Entries

end State

abbrev SwapTx (α : Type) := Tx (Abort ContractError) State α

/-- The registry contract as its client sees it; `none` is a call that panics. -/
structure IpRegistryClient where
  getIp : ℕ → Option IpRegistry.IpRecord
  verifyCommitment : ℕ → BytesN 32 → BytesN 32 → Option Bool

/-- What one call finds around it: the ledger time, the addresses that authorised
it, and the contracts it may call. -/
structure Env where
  timestamp : ℕ
  auths : List Address
  registry : Address → IpRegistryClient
  oracle : Address → Address → Option ℤ

def currentContractAddress : Address := .contract 0

/-- `GAAA…WHF`, the account whose public key is all zeros. -/
def treasury : Address := .account 0

@[simp] theorem treasury_ne_contract : treasury ≠ currentContractAddress := by decide

def publish (topic : String) (payload : Payload) : SwapTx Unit :=
  Tx.store fun s => s.published [⟨topic, payload⟩]

/-- A token contract moves exactly the amount, or refuses a negative amount or an
insufficient balance. -/
def transfer (token src dst : Address) (amount : ℤ) (purpose : Purpose) :
    SwapTx Unit := do
  Tx.ensure (0 ≤ amount) .token
  let held ← Tx.load fun s => s.balance token src
  Tx.ensure (amount ≤ held) .token
  Tx.store fun s => s.transferred ⟨token, src, dst, amount, purpose⟩

@[simp] theorem transfer_ok {token src dst : Address} {amount : ℤ} {purpose : Purpose}
    {s s' : State} {u : Unit} :
    transfer token src dst amount purpose s = .ok (u, s') ↔
      (0 ≤ amount ∧ amount ≤ s.balance token src) ∧
        s' = s.transferred ⟨token, src, dst, amount, purpose⟩ := by
  simp [transfer, and_assoc]

@[simp] theorem publish_ok {topic : String} {payload : Payload} {s s' : State} {u : Unit} :
    publish topic payload s = .ok (u, s') ↔
      s' = s.published [⟨topic, payload⟩] := Tx.store_ok

end AtomicIp.AtomicSwap
