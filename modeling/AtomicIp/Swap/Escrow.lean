import AtomicIp.Swap.State

/-!
The contract as an escrow: the swap and auction records, the locks of the IPs and the
money held for them. The other entries of the storage are bookkeeping that no payment
depends on.
-/

set_option autoImplicit false

namespace AtomicIp.AtomicSwap

open Function

structure Escrow where
  admin : Option Address
  ipRegistry : Option Address
  swap : ℕ → Option SwapRecord
  activeSwap : ℕ → Option ℕ
  nextId : Option ℕ
  auction : ℕ → Option AuctionRecord
  activeAuction : ℕ → Option ℕ
  nextAuctionId : Option ℕ
  swapCollateral : ℕ → Option ℤ
  insuranceClaimable : ℕ → Option Bool
  insurancePool : Address → Option ℤ
  escrowDeposit : ℕ → Option ℤ
  swapRenegotiations : ℕ → Option RenegotiationOffer
  balance : Address → Address → ℤ
  transfers : List TokenTransfer

def State.escrow (s : State) : Escrow where
  admin := s.admin
  ipRegistry := s.ipRegistry
  swap := s.swap
  activeSwap := s.activeSwap
  nextId := s.nextId
  auction := s.auction
  activeAuction := s.activeAuction
  nextAuctionId := s.nextAuctionId
  swapCollateral := s.swapCollateral
  insuranceClaimable := s.insuranceClaimable
  insurancePool := s.insurancePool
  escrowDeposit := s.escrowDeposit
  swapRenegotiations := s.swapRenegotiations
  balance := s.balance
  transfers := s.transfers

namespace Escrow

variable (c : Escrow)

def setAdmin (entry : Option Address) : Escrow := { c with admin := entry }

def setIpRegistry (entry : Option Address) : Escrow := { c with ipRegistry := entry }

def setNextId (entry : Option ℕ) : Escrow := { c with nextId := entry }

def setNextAuctionId (entry : Option ℕ) : Escrow := { c with nextAuctionId := entry }

def setSwap (key : ℕ) (entry : Option SwapRecord) : Escrow :=
  { c with swap := update c.swap key entry }

def setActiveSwap (key : ℕ) (entry : Option ℕ) : Escrow :=
  { c with activeSwap := update c.activeSwap key entry }

def setAuction (key : ℕ) (entry : Option AuctionRecord) : Escrow :=
  { c with auction := update c.auction key entry }

def setActiveAuction (key : ℕ) (entry : Option ℕ) : Escrow :=
  { c with activeAuction := update c.activeAuction key entry }

def setSwapCollateral (key : ℕ) (entry : Option ℤ) : Escrow :=
  { c with swapCollateral := update c.swapCollateral key entry }

def setInsuranceClaimable (key : ℕ) (entry : Option Bool) : Escrow :=
  { c with insuranceClaimable := update c.insuranceClaimable key entry }

def setInsurancePool (key : Address) (entry : Option ℤ) : Escrow :=
  { c with insurancePool := update c.insurancePool key entry }

def setEscrowDeposit (key : ℕ) (entry : Option ℤ) : Escrow :=
  { c with escrowDeposit := update c.escrowDeposit key entry }

def setSwapRenegotiations (key : ℕ) (entry : Option RenegotiationOffer) : Escrow :=
  { c with swapRenegotiations := update c.swapRenegotiations key entry }

def pay (ms : List TokenTransfer) : Escrow :=
  { c with balance := postAll c.balance ms, transfers := c.transfers ++ ms }

@[simp] theorem pay_pay (ms ns : List TokenTransfer) : (c.pay ms).pay ns = c.pay (ms ++ ns) := by
  simp [pay, postAll]

@[simp] theorem pay_nil : c.pay [] = c := by simp [pay, postAll]

@[simp] theorem setSwap_setSwap (i : ℕ) (a b : Option SwapRecord) :
    (c.setSwap i a).setSwap i b = c.setSwap i b := by simp [setSwap]

theorem setSwap_self {i : ℕ} {r : SwapRecord} (h : c.swap i = some r) :
    c.setSwap i (some r) = c := by simp [setSwap, ← h]

@[simp] theorem pay_setAdmin (ms : List TokenTransfer) (entry : Option Address) :
    (c.pay ms).setAdmin entry = (c.setAdmin entry).pay ms := rfl

@[simp] theorem pay_setIpRegistry (ms : List TokenTransfer) (entry : Option Address) :
    (c.pay ms).setIpRegistry entry = (c.setIpRegistry entry).pay ms := rfl

@[simp] theorem pay_setNextId (ms : List TokenTransfer) (entry : Option ℕ) :
    (c.pay ms).setNextId entry = (c.setNextId entry).pay ms := rfl

@[simp] theorem pay_setNextAuctionId (ms : List TokenTransfer) (entry : Option ℕ) :
    (c.pay ms).setNextAuctionId entry = (c.setNextAuctionId entry).pay ms := rfl

@[simp] theorem pay_setSwap (ms : List TokenTransfer) (key : ℕ)
    (entry : Option SwapRecord) :
    (c.pay ms).setSwap key entry = (c.setSwap key entry).pay ms := rfl

@[simp] theorem pay_setActiveSwap (ms : List TokenTransfer) (key : ℕ)
    (entry : Option ℕ) :
    (c.pay ms).setActiveSwap key entry = (c.setActiveSwap key entry).pay ms := rfl

@[simp] theorem pay_setAuction (ms : List TokenTransfer) (key : ℕ)
    (entry : Option AuctionRecord) :
    (c.pay ms).setAuction key entry = (c.setAuction key entry).pay ms := rfl

@[simp] theorem pay_setActiveAuction (ms : List TokenTransfer) (key : ℕ)
    (entry : Option ℕ) :
    (c.pay ms).setActiveAuction key entry = (c.setActiveAuction key entry).pay ms := rfl

@[simp] theorem pay_setSwapCollateral (ms : List TokenTransfer) (key : ℕ)
    (entry : Option ℤ) :
    (c.pay ms).setSwapCollateral key entry = (c.setSwapCollateral key entry).pay ms := rfl

@[simp] theorem pay_setInsuranceClaimable (ms : List TokenTransfer) (key : ℕ)
    (entry : Option Bool) :
    (c.pay ms).setInsuranceClaimable key entry = (c.setInsuranceClaimable key entry).pay ms := rfl

@[simp] theorem pay_setInsurancePool (ms : List TokenTransfer) (key : Address)
    (entry : Option ℤ) :
    (c.pay ms).setInsurancePool key entry = (c.setInsurancePool key entry).pay ms := rfl

@[simp] theorem pay_setEscrowDeposit (ms : List TokenTransfer) (key : ℕ)
    (entry : Option ℤ) :
    (c.pay ms).setEscrowDeposit key entry = (c.setEscrowDeposit key entry).pay ms := rfl

@[simp] theorem pay_setSwapRenegotiations (ms : List TokenTransfer) (key : ℕ)
    (entry : Option RenegotiationOffer) :
    (c.pay ms).setSwapRenegotiations key entry = (c.setSwapRenegotiations key entry).pay ms := rfl

end Escrow

section Projection

/-! Which entries the escrow sees, and which writes it does not notice. -/

namespace State

variable (s : State)

@[simp] theorem admin_escrow : s.admin = s.escrow.admin := rfl

@[simp] theorem ipRegistry_escrow : s.ipRegistry = s.escrow.ipRegistry := rfl

@[simp] theorem swap_escrow : s.swap = s.escrow.swap := rfl

@[simp] theorem activeSwap_escrow : s.activeSwap = s.escrow.activeSwap := rfl

@[simp] theorem nextId_escrow : s.nextId = s.escrow.nextId := rfl

@[simp] theorem auction_escrow : s.auction = s.escrow.auction := rfl

@[simp] theorem activeAuction_escrow : s.activeAuction = s.escrow.activeAuction := rfl

@[simp] theorem nextAuctionId_escrow : s.nextAuctionId = s.escrow.nextAuctionId := rfl

@[simp] theorem swapCollateral_escrow : s.swapCollateral = s.escrow.swapCollateral := rfl

@[simp] theorem insuranceClaimable_escrow :
    s.insuranceClaimable = s.escrow.insuranceClaimable := rfl

@[simp] theorem insurancePool_escrow : s.insurancePool = s.escrow.insurancePool := rfl

@[simp] theorem escrowDeposit_escrow : s.escrowDeposit = s.escrow.escrowDeposit := rfl

@[simp] theorem swapRenegotiations_escrow :
    s.swapRenegotiations = s.escrow.swapRenegotiations := rfl

@[simp] theorem transfers_escrow : s.transfers = s.escrow.transfers := rfl

@[simp] theorem escrow_setAdmin (entry : Option Address) :
    (s.setAdmin entry).escrow = s.escrow.setAdmin entry := rfl

@[simp] theorem escrow_setIpRegistry (entry : Option Address) :
    (s.setIpRegistry entry).escrow = s.escrow.setIpRegistry entry := rfl

@[simp] theorem escrow_setNextId (entry : Option ℕ) :
    (s.setNextId entry).escrow = s.escrow.setNextId entry := rfl

@[simp] theorem escrow_setNextAuctionId (entry : Option ℕ) :
    (s.setNextAuctionId entry).escrow = s.escrow.setNextAuctionId entry := rfl

@[simp] theorem escrow_setSwap (key : ℕ) (entry : Option SwapRecord) :
    (s.setSwap key entry).escrow = s.escrow.setSwap key entry := rfl

@[simp] theorem escrow_setActiveSwap (key : ℕ) (entry : Option ℕ) :
    (s.setActiveSwap key entry).escrow = s.escrow.setActiveSwap key entry := rfl

@[simp] theorem escrow_setAuction (key : ℕ) (entry : Option AuctionRecord) :
    (s.setAuction key entry).escrow = s.escrow.setAuction key entry := rfl

@[simp] theorem escrow_setActiveAuction (key : ℕ) (entry : Option ℕ) :
    (s.setActiveAuction key entry).escrow = s.escrow.setActiveAuction key entry := rfl

@[simp] theorem escrow_setSwapCollateral (key : ℕ) (entry : Option ℤ) :
    (s.setSwapCollateral key entry).escrow = s.escrow.setSwapCollateral key entry := rfl

@[simp] theorem escrow_setInsuranceClaimable (key : ℕ) (entry : Option Bool) :
    (s.setInsuranceClaimable key entry).escrow = s.escrow.setInsuranceClaimable key entry := rfl

@[simp] theorem escrow_setInsurancePool (key : Address) (entry : Option ℤ) :
    (s.setInsurancePool key entry).escrow = s.escrow.setInsurancePool key entry := rfl

@[simp] theorem escrow_setEscrowDeposit (key : ℕ) (entry : Option ℤ) :
    (s.setEscrowDeposit key entry).escrow = s.escrow.setEscrowDeposit key entry := rfl

@[simp] theorem escrow_setSwapRenegotiations (key : ℕ) (entry : Option RenegotiationOffer) :
    (s.setSwapRenegotiations key entry).escrow = s.escrow.setSwapRenegotiations key entry := rfl

@[simp] theorem escrow_setPaused (entry : Option Bool) :
    (s.setPaused entry).escrow = s.escrow := rfl

@[simp] theorem escrow_setPersistentAdmin (entry : Option Address) :
    (s.setPersistentAdmin entry).escrow = s.escrow := rfl

@[simp] theorem escrow_setMultiCurrencyConfig (entry : Option MultiCurrencyConfig) :
    (s.setMultiCurrencyConfig entry).escrow = s.escrow := rfl

@[simp] theorem escrow_setSupportedTokens (entry : Option (List SupportedToken)) :
    (s.setSupportedTokens entry).escrow = s.escrow := rfl

@[simp] theorem escrow_setOracleConfig (entry : Option OracleConfig) :
    (s.setOracleConfig entry).escrow = s.escrow := rfl

@[simp] theorem escrow_setSellerSwaps (key : Address) (entry : Option (List ℕ)) :
    (s.setSellerSwaps key entry).escrow = s.escrow := rfl

@[simp] theorem escrow_setBuyerSwaps (key : Address) (entry : Option (List ℕ)) :
    (s.setBuyerSwaps key entry).escrow = s.escrow := rfl

@[simp] theorem escrow_setIpSwaps (key : ℕ) (entry : Option (List ℕ)) :
    (s.setIpSwaps key entry).escrow = s.escrow := rfl

@[simp] theorem escrow_setSwapHistory (key : ℕ) (entry : Option (List SwapHistoryEntry)) :
    (s.setSwapHistory key entry).escrow = s.escrow := rfl

@[simp] theorem escrow_setSwapApprovals (key : ℕ) (entry : Option (List Address)) :
    (s.setSwapApprovals key entry).escrow = s.escrow := rfl

@[simp] theorem escrow_setCancelReason (key : ℕ) (entry : Option Bytes) :
    (s.setCancelReason key entry).escrow = s.escrow := rfl

@[simp] theorem escrow_setPaymentSchedule (key : ℕ) (entry : Option (List PaymentSchedule)) :
    (s.setPaymentSchedule key entry).escrow = s.escrow := rfl

@[simp] theorem escrow_setPaymentsMade (key : ℕ) (entry : Option (List Bool)) :
    (s.setPaymentsMade key entry).escrow = s.escrow := rfl

@[simp] theorem escrow_setSwapInsurance (key : ℕ) (entry : Option ℤ) :
    (s.setSwapInsurance key entry).escrow = s.escrow := rfl

@[simp] theorem escrow_setSwapMode (key : ℕ) (entry : Option SwapMode) :
    (s.setSwapMode key entry).escrow = s.escrow := rfl

@[simp] theorem escrow_setUserReputation (key : Address) (entry : Option ℕ) :
    (s.setUserReputation key entry).escrow = s.escrow := rfl

@[simp] theorem escrow_setReputationMultiplier (key : ℕ) (entry : Option ℕ) :
    (s.setReputationMultiplier key entry).escrow = s.escrow := rfl

@[simp] theorem escrow_setArbitrationTimestamp (key : ℕ) (entry : Option ℕ) :
    (s.setArbitrationTimestamp key entry).escrow = s.escrow := rfl

@[simp] theorem escrow_setSwapSigners (key : ℕ) (entry : Option (List Address)) :
    (s.setSwapSigners key entry).escrow = s.escrow := rfl

@[simp] theorem escrow_setSwapSignatures (key : ℕ) (entry : Option (List Address)) :
    (s.setSwapSignatures key entry).escrow = s.escrow := rfl

@[simp] theorem escrow_setCompletionTimestamp (key : ℕ) (entry : Option ℕ) :
    (s.setCompletionTimestamp key entry).escrow = s.escrow := rfl

@[simp] theorem escrow_published (events : List Event) :
    (s.published events).escrow = s.escrow := rfl

@[simp] theorem escrow_transferred (m : TokenTransfer) :
    (s.transferred m).escrow = s.escrow.pay [m] := rfl

end State

end Projection

end AtomicIp.AtomicSwap
