import AtomicIp.Swap.Auction
import AtomicIp.Swap.Refine.Initiation

set_option autoImplicit false

namespace AtomicIp.AtomicSwap

open Function

variable {env : Env} {s s' : State} {u : Unit} {i : ℕ} {a : AuctionRecord}

@[simp] theorem requireAuctionExists_ok :
    requireAuctionExists i s = .ok (a, s') ↔ s.escrow.auction i = some a ∧ s' = s := by
  simp [requireAuctionExists]

@[simp] theorem saveAuction_ok : saveAuction i a s = .ok (u, s') ↔ s' = s.setAuction i (some a) :=
  Tx.store_ok

theorem startIpAuction_step {token seller : Address} {ipId duration id : ℕ} {minBid : ℤ}
    (h : startIpAuction env token ipId seller minBid duration s = .ok (id, s')) :
    ∃ a : AuctionRecord, a.ipId = ipId ∧ a.seller = seller ∧
      Step env s.escrow (.auctionStarted a) s'.escrow := by
  simp [startIpAuction] at h
  obtain ⟨-, hauth, hmin, -, hfree, -, -, rfl, rfl⟩ := h
  exact ⟨_, rfl, rfl, .auctionStarted ⟨rfl, hmin, rfl, rfl, rfl⟩ hfree hauth⟩

theorem startIpAuction_moves {token seller : Address} {ipId duration id : ℕ} {minBid : ℤ}
    (h : startIpAuction env token ipId seller minBid duration s = .ok (id, s')) :
    Emits (Step env) (fun m => ∃ a, m = .auctionStarted a ∧ a.ipId = ipId ∧ a.seller = seller)
      s.escrow s'.escrow := by
  obtain ⟨a, hip, hseller, hstep⟩ := startIpAuction_step h
  exact .single hstep ⟨a, rfl, hip, hseller⟩

theorem refundBidder_escrow (h : refundBidder i a s = .ok (u, s')) :
    s'.escrow = s.escrow.pay (a.refund i) ∧ ∀ m ∈ a.refund i, 0 ≤ m.amount := by
  cases hbidder : a.highestBidder with
  | none =>
    simp [refundBidder, hbidder] at h
    simp [AuctionRecord.refund, hbidder, h]
  | some bidder =>
    simp [refundBidder, hbidder] at h
    simp [AuctionRecord.refund, hbidder, h]

def AuctionRecord.outbid (a : AuctionRecord) (bidder : Address) (amount : ℤ) : AuctionRecord :=
  { a with highestBid := amount, highestBidder := some bidder }

def AuctionRecord.exchange (a : AuctionRecord) (j : ℕ) (bidder : Address) (amount : ℤ) :
    List TokenTransfer :=
  a.refund j ++ [⟨a.token, bidder, currentContractAddress, amount, .bid j⟩]

theorem placeBid_escrow {bidder : Address} {amount : ℤ}
    (h : placeBid env i bidder amount s = .ok (u, s')) :
    ∃ a, s.escrow.auction i = some a ∧ a.finalized = false ∧ env.timestamp < a.endTime ∧
      bidder ∈ env.auths ∧ a.minBid ≤ amount ∧ a.highestBid < amount ∧
      (∀ m ∈ a.refund i, 0 ≤ m.amount) ∧
      s'.escrow = (s.escrow.setAuction i (some (a.outbid bidder amount))).pay
        (a.exchange i bidder amount) := by
  simp [placeBid] at h
  obtain ⟨hauth, a, ha, hopen, htime, hmin, hmore, s₁, hrefund, hamount, rfl⟩ := h
  obtain ⟨e, hpos⟩ := refundBidder_escrow hrefund
  exact ⟨a, ha, hopen, htime, hauth, hmin, hmore, hpos,
    by simp [e, AuctionRecord.outbid, AuctionRecord.exchange]⟩

theorem placeBid_step {bidder : Address} {amount : ℤ}
    (h : placeBid env i bidder amount s = .ok (u, s')) :
    Step env s.escrow (.bid i bidder) s'.escrow := by
  obtain ⟨a, ha, hopen, -, hauth, hmin, hmore, hpos, e⟩ := placeBid_escrow h
  rw [e]
  exact .bid ha hopen hauth hmin hmore hpos

theorem sellToWinner_escrow {buyer : Address} (h : sellToWinner env a buyer s = .ok (u, s')) :
    ∃ r, WonBy a buyer r ∧ s'.escrow = s.escrow.enlist r := by
  simp [sellToWinner, defaultExpiry] at h
  obtain ⟨-, s₁, hparties, s₂, hindex, s₃, hhistory, -, rfl⟩ := h
  refine ⟨(pendingSwap a.token a.ipId a.seller a.highestBid buyer
    (env.timestamp + 604800)).acceptedAt env.timestamp, by constructor <;> rfl, ?_⟩
  simp [appendHistory_escrow hhistory, appendIpSwap_escrow hindex,
    appendSwapForParty_escrow hparties, Escrow.enlist]

/-- The auction is closed, and then the winner's swap is opened, if there is a winner. -/
theorem finalizeAuction_closes (h : finalizeAuction env i s = .ok (u, s')) :
    ∃ a, s.escrow.auction i = some a ∧ a.finalized = false ∧ a.endTime ≤ env.timestamp ∧
      ∃ s₁, s₁ = ((s.setAuction i (some a.close)).setActiveAuction a.ipId none).published
          [⟨"auc_fnl", .auctionFinalized i a.highestBidder a.highestBid⟩] ∧
        (a.highestBidder = none ∧ s' = s₁ ∨
          ∃ buyer, a.highestBidder = some buyer ∧ sellToWinner env a buyer s₁ = .ok (u, s')) := by
  simp [finalizeAuction] at h
  obtain ⟨a, ha, hopen, htime, h⟩ := h
  refine ⟨a, ha, hopen, htime, _, rfl, ?_⟩
  cases hbidder : a.highestBidder with
  | none =>
    simp only [hbidder] at h
    exact .inl ⟨rfl, (Tx.pure_ok.mp h).2⟩
  | some buyer =>
    simp only [hbidder] at h
    exact .inr ⟨buyer, rfl, h⟩

theorem finalizeAuction_step (h : finalizeAuction env i s = .ok (u, s')) :
    Step env s.escrow (.finalized i) s'.escrow := by
  obtain ⟨a, ha, hopen, -, s₁, rfl, ⟨hbidder, rfl⟩ | ⟨buyer, hbidder, hsold⟩⟩ :=
    finalizeAuction_closes h
  · exact .unsold ha hopen hbidder
  · obtain ⟨r, hr, e⟩ := sellToWinner_escrow hsold
    rw [e]
    exact .sold ha hopen hbidder hr

end AtomicIp.AtomicSwap
