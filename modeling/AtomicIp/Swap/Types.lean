import AtomicIp.Lib.Bank
import AtomicIp.Registry.Types

/-!
The data of the swap contract (`contracts/atomic_swap/src/types.rs` and the head
of `lib.rs`). Four error names the code raises (`ConditionNotMet`, `BatchEmpty`,
`BatchTooLarge`, `BatchSizeMismatch`) have no code in its enumeration.
-/

set_option autoImplicit false

namespace AtomicIp.AtomicSwap

inductive ContractError where
  | swapNotFound | invalidKey | priceTooSmall | notIPOwner | swapExists | notPending
  | onlySellerReveal | notAccepted | onlySellerBuyer | onlyPending | notInAccepted
  | onlyBuyerCancel | notExpired | ipRevoked | unauthorizedUpg | invalidFeeBps
  | disputeExpired | onlyBuyerDispute | notDisputed | onlyAdminResolve | paused
  | alreadyInit | unauthorized | notInitialized | pendingNotExpired | expiryNotGreater
  | needApprovals | alreadyApproved | schemaNotGreater | missingFunc | funcChanged
  | insufficientReputation | arbitrationNotTimedOut | notAllSigned | alreadySigned
  | notARequiredSigner | rollbackWindowExpired | oracleNotConfigured
  | oraclePriceInvalid | oraclePriceBelowMin | oraclePriceAboveMax
  | conditionNotMet | batchEmpty | batchTooLarge | batchSizeMismatch
  deriving DecidableEq, Repr

def maxBatchSize : ℕ := 50

inductive SwapStatus where
  | pending | accepted | completed | disputed | cancelled | rolledBack
  deriving DecidableEq, Repr

inductive SwapCondition where
  | keyValid
  | priceBelow (threshold : ℤ)
  | timeAfter (ts : ℕ)
  deriving DecidableEq

inductive SwapMode where
  | atomic | escrow
  deriving DecidableEq

structure ProtocolConfig where
  protocolFeeBps : ℕ
  treasury : Address
  disputeWindowSeconds : ℕ
  disputeTimeoutSecs : ℕ
  referralFeeBps : ℕ
  arbitrationTimeoutSeconds : ℕ

structure SwapRecord where
  ipId : ℕ
  seller : Address
  buyer : Address
  price : ℤ
  token : Address
  status : SwapStatus
  expiry : ℕ
  acceptTimestamp : ℕ
  requiredApprovals : ℕ
  disputeTimestamp : ℕ
  referrer : Option Address
  collateralAmount : ℤ
  insurancePremium : ℤ
  insuranceEnabled : Bool
  escrowAgent : Option Address
  quantity : ℕ
  conditions : List SwapCondition
  paidAmount : ℤ
  isInstallment : Bool
  deriving DecidableEq

def SwapRecord.withStatus (swap : SwapRecord) (status : SwapStatus) : SwapRecord :=
  { swap with status }

def SwapRecord.acceptedAt (swap : SwapRecord) (timestamp : ℕ) : SwapRecord :=
  { swap with acceptTimestamp := timestamp, status := .accepted }

structure SwapHistoryEntry where
  status : SwapStatus
  timestamp : ℕ
  deriving DecidableEq

structure AuctionRecord where
  auctionId : ℕ
  ipId : ℕ
  seller : Address
  token : Address
  minBid : ℤ
  highestBid : ℤ
  highestBidder : Option Address
  startTime : ℕ
  endTime : ℕ
  finalized : Bool
  deriving DecidableEq

def AuctionRecord.close (auction : AuctionRecord) : AuctionRecord :=
  { auction with finalized := true }

structure PaymentSchedule where
  dueTimestamp : ℕ
  amount : ℤ
  deriving DecidableEq

structure RenegotiationOffer where
  newPrice : ℤ
  proposer : Address
  timestamp : ℕ
  deriving DecidableEq

structure OracleConfig where
  oracleAddress : Address
  enabled : Bool
  deriving DecidableEq

inductive SupportedToken where
  | xlm | usdc | eurc | custom
  deriving DecidableEq

structure TokenMetadata where
  symbol : String
  decimals : ℕ
  address : Option Address
  isNative : Bool
  deriving DecidableEq

structure MultiCurrencyConfig where
  enabledTokens : List SupportedToken
  defaultToken : SupportedToken
  tokenMetadata : List TokenMetadata
  deriving DecidableEq

structure SwapFeeBreakdown where
  swapId : ℕ
  price : ℤ
  protocolFee : ℤ
  referralFee : ℤ
  sellerAmount : ℤ
  deriving DecidableEq

/-- What a token transfer of the contract is made for. The code does not store
this; it says which swap, auction or pool a transfer settles. -/
inductive Purpose where
  | price (swapId : ℕ)
  | collateral (swapId : ℕ)
  | premium (swapId : ℕ)
  | claim (swapId : ℕ)
  | bid (auctionId : ℕ)
  deriving DecidableEq, Repr

def Purpose.swap? : Purpose → Option ℕ
  | .price i | .collateral i | .premium i | .claim i => some i
  | .bid _ => none

abbrev TokenTransfer := Transfer Address Address Purpose

inductive Payload where
  | oracleConfigSet (oracleAddress : Address) (enabled : Bool)
  | oraclePriceUsed (swapId : ℕ) (oraclePrice : ℤ)
  | swapInitiated (swapId ipId : ℕ) (seller buyer : Address) (price : ℤ)
  | swapAccepted (swapId : ℕ) (buyer : Address)
  | swapCancelled (swapId : ℕ) (canceller : Address)
  | keyRevealed (swapId : ℕ) (sellerAmount feeAmount : ℤ)
  | protocolFee (swapId : ℕ) (feeAmount : ℤ) (treasury : Address)
  | referralPaid (swapId : ℕ) (referrer : Address) (referralAmount : ℤ)
  | disputeRaised (swapId : ℕ)
  | disputeResolved (swapId : ℕ) (refunded : Bool)
  | adminRollback (swapId : ℕ) (reason : Bytes) (buyerRefund sellerRefund : ℤ)
      (timestamp : ℕ)
  | batchRollback (swapIds : List ℕ) (caller : Address) (count : ℕ)
  | renegotiationProposed (swapId : ℕ) (newPrice : ℤ) (proposer : Address)
  | renegotiationAccepted (swapId : ℕ) (newPrice : ℤ) (buyer : Address)
  | insurancePayout (swapId : ℕ) (buyer : Address) (payoutAmount : ℤ)
  | tokenAdded (token : SupportedToken) (address : Option Address)
  | swapExpiryExtended (swapId : ℕ) (oldExpiry newExpiry : ℕ)
  | swapApproved (swapId : ℕ) (approver : Address) (approvalsCount : ℕ)
  | batchInitiated (swapIds : List ℕ) (seller buyer : Address) (count : ℕ)
  | auctionStarted (auctionId ipId : ℕ) (seller : Address) (minBid : ℤ) (endTime : ℕ)
  | bidPlaced (auctionId : ℕ) (bidder : Address) (bidAmount : ℤ)
  | auctionFinalized (auctionId : ℕ) (winner : Option Address) (winningBid : ℤ)
  | scheduledPaymentMade (swapId : ℕ) (paymentIndex : ℕ) (amount : ℤ)
      (remainingPayments : ℕ)
  | installmentPaid (swapId : ℕ) (paymentAmount paidAmount price : ℤ)
  | collateralDeposited (swapId : ℕ) (buyer : Address) (collateralAmount : ℤ)
  | collateralReleased (swapId : ℕ) (buyer : Address) (collateralAmount : ℤ)
  | collateralRefunded (swapId : ℕ) (buyer : Address) (collateralAmount : ℤ)
  | arbitrationRequested (swapId : ℕ) (requester : Address) (evidenceHash : BytesN 32)
  | arbitrated (swapId : ℕ) (arbitrator : Address) (refunded : Bool)
  | atomicRefund (swapId : ℕ) (buyer : Address) (refundAmount : ℤ) (reason : String)
  | batchAccepted (swapIds : List ℕ) (buyer : Address)
  | batchKeysRevealed (swapIds : List ℕ) (seller : Address)
  | batchFeeBreakdown (swapIds : List ℕ) (seller : Address) (fees : List SwapFeeBreakdown)
  | batchCancelled (swapIds : List ℕ) (canceller : Address) (reasons : List Bytes)
  | swapRolledBack (swapId : ℕ) (buyerRefund treasuryPenalty : ℤ)
  | wasmUpdated (newWasmHash : BytesN 32)

structure Event where
  topic : String
  payload : Payload

end AtomicIp.AtomicSwap
