import AtomicIp.Swap.Initiation

set_option autoImplicit false

namespace AtomicIp.AtomicSwap

open Function

def requireAuctionExists (auctionId : ℕ) : SwapTx AuctionRecord := do
  let auction ← Tx.load fun s => s.auction auctionId
  orFail auction .swapNotFound

def saveAuction (auctionId : ℕ) (auction : AuctionRecord) : SwapTx Unit :=
  Tx.store fun s => s.setAuction auctionId (some auction)

/-- Only the auction lock is looked at, not the swap lock of the same IP. -/
def startIpAuction (env : Env) (token : Address) (ipId : ℕ) (seller : Address)
    (minBid : ℤ) (durationSeconds : ℕ) : SwapTx ℕ := do
  requireNotPaused
  requireAuth env.auths seller
  requirePositivePrice minBid
  ensureSellerOwnsActiveIp env ipId seller
  let active ← Tx.load fun s => s.activeAuction ipId
  require (active = none) .swapExists
  let auctionId ← Tx.load fun s => s.nextAuctionId.getD 0
  let endTime ← u64 (env.timestamp + durationSeconds)
  saveAuction auctionId
    { auctionId, ipId, seller, token, minBid, highestBid := 0, highestBidder := none,
      startTime := env.timestamp, endTime, finalized := false }
  Tx.store fun s => s.setActiveAuction ipId (some auctionId)
  let next ← u64 (auctionId + 1)
  Tx.store fun s => s.setNextAuctionId (some next)
  publish "auc_strt" (.auctionStarted auctionId ipId seller minBid endTime)
  pure auctionId

def refundBidder (auctionId : ℕ) (auction : AuctionRecord) : SwapTx Unit :=
  match auction.highestBidder with
  | some prevBidder =>
      transfer auction.token currentContractAddress prevBidder auction.highestBid
        (.bid auctionId)
  | none => pure ()

def placeBid (env : Env) (auctionId : ℕ) (bidder : Address) (bidAmount : ℤ) :
    SwapTx Unit := do
  requireAuth env.auths bidder
  let auction ← requireAuctionExists auctionId
  require (auction.finalized = false) .alreadyInit
  require (env.timestamp < auction.endTime) .notExpired
  require (auction.minBid ≤ bidAmount) .priceTooSmall
  require (auction.highestBid < bidAmount) .priceTooSmall
  refundBidder auctionId auction
  transfer auction.token bidder currentContractAddress bidAmount (.bid auctionId)
  saveAuction auctionId { auction with highestBid := bidAmount, highestBidder := some bidder }
  publish "bid_plcd" (.bidPlaced auctionId bidder bidAmount)

/-- The winner's swap starts out accepted, and the lock of its IP is left alone. -/
def sellToWinner (env : Env) (auction : AuctionRecord) (buyer : Address) : SwapTx Unit := do
  let swapId ← nextSwapId
  let expiry ← defaultExpiry env
  saveSwap swapId
    ((pendingSwap auction.token auction.ipId auction.seller auction.highestBid buyer
      expiry).acceptedAt env.timestamp)
  appendSwapForParty auction.seller buyer swapId
  appendIpSwap auction.ipId swapId
  appendHistory env swapId .accepted
  let next ← u64 (swapId + 1)
  Tx.store fun s => s.setNextId (some next)
  publish "swap_init"
    (.swapInitiated swapId auction.ipId auction.seller buyer auction.highestBid)

def finalizeAuction (env : Env) (auctionId : ℕ) : SwapTx Unit := do
  let auction ← requireAuctionExists auctionId
  require (auction.finalized = false) .alreadyInit
  require (auction.endTime ≤ env.timestamp) .notExpired
  saveAuction auctionId auction.close
  Tx.store fun s => s.setActiveAuction auction.ipId none
  publish "auc_fnl"
    (.auctionFinalized auctionId auction.highestBidder auction.highestBid)
  match auction.highestBidder with
  | some buyer => sellToWinner env auction buyer
  | none => pure ()

end AtomicIp.AtomicSwap
