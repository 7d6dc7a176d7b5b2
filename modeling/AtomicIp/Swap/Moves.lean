import AtomicIp.Lib.Run
import AtomicIp.Swap.Escrow
import AtomicIp.Swap.Recovery

set_option autoImplicit false

namespace AtomicIp.AtomicSwap

open Function

/-- What no move ever changes in a record. -/
structure Terms where
  ipId : ℕ
  seller : Address
  buyer : Address
  token : Address
  referrer : Option Address
  collateralAmount : ℤ
  insurancePremium : ℤ
  insuranceEnabled : Bool
  requiredApprovals : ℕ
  isInstallment : Bool
  deriving DecidableEq

def SwapRecord.terms (r : SwapRecord) : Terms where
  ipId := r.ipId
  seller := r.seller
  buyer := r.buyer
  token := r.token
  referrer := r.referrer
  collateralAmount := r.collateralAmount
  insurancePremium := r.insurancePremium
  insuranceEnabled := r.insuranceEnabled
  requiredApprovals := r.requiredApprovals
  isInstallment := r.isInstallment

@[simp] theorem SwapRecord.withStatus_status (r : SwapRecord) (status : SwapStatus) :
    (r.withStatus status).status = status := rfl

@[simp] theorem SwapRecord.withStatus_terms (r : SwapRecord) (status : SwapStatus) :
    (r.withStatus status).terms = r.terms := rfl

inductive Warrant where
  | key (k : Key)
  | batchKey (k : Key)
  | refusedKey
  | ruling
  | batchArbitration
  | arbitration
  | expiry
  | timeout
  deriving DecidableEq

def Warrant.sweeps : Warrant → Bool
  | .ruling | .timeout => false
  | _ => true

inductive Move where
  | configured
  | received
  | initiated (r : SwapRecord)
  | accepted (swapId : ℕ)
  | installment (swapId : ℕ) (last : Bool)
  | scheduled (swapId : ℕ) (last : Bool)
  | offered (swapId : ℕ)
  | amended (swapId : ℕ)
  | disputed (swapId : ℕ)
  | cancelled (swapId : ℕ)
  | released (swapId : ℕ) (w : Warrant)
  | refunded (swapId : ℕ) (w : Warrant)
  | withdrawn (swapId : ℕ)
  | rolledBack (swapId : ℕ)
  | adminRolledBack (swapId : ℕ)
  | claimed (swapId : ℕ)
  | auctionStarted (a : AuctionRecord)
  | bid (auctionId : ℕ) (bidder : Address)
  | finalized (auctionId : ℕ)
  deriving DecidableEq

namespace Escrow

variable (c : Escrow)

def count : ℕ := c.nextId.getD 0

def auctionCount : ℕ := c.nextAuctionId.getD 0

def enlist (r : SwapRecord) : Escrow :=
  (c.setSwap c.count (some r)).setNextId (some (c.count + 1))

def close (i : ℕ) (r : SwapRecord) (status : SwapStatus) : Escrow :=
  (c.setSwap i (some (r.withStatus status))).setActiveSwap r.ipId none

/-- The collateral a settlement of `r` releases. -/
def heldFor (i : ℕ) (r : SwapRecord) : Option ℤ :=
  if 0 < r.collateralAmount then c.swapCollateral i else none

/-- What settling `r` on the warrant `w` releases of its collateral. -/
def sweptBy (w : Warrant) (i : ℕ) (r : SwapRecord) : Option ℤ :=
  if w.sweeps then c.heldFor i r else none

def release (i : ℕ) (collateral : Option ℤ) : Escrow :=
  { c with swapCollateral :=
      if collateral.isSome then update c.swapCollateral i none else c.swapCollateral }

def addToPool (token : Address) (amount : ℤ) : Escrow :=
  c.setInsurancePool token (some ((c.insurancePool token).getD 0 + amount))

def lockCollateral (deposits : Bool) (i : ℕ) (r : SwapRecord) : Escrow :=
  { c with swapCollateral :=
      if deposits then update c.swapCollateral i (some r.collateralAmount)
      else c.swapCollateral }

def collectPremium (premium : Bool) (r : SwapRecord) : Escrow :=
  { c with insurancePool :=
      if premium then (c.addToPool r.token r.insurancePremium).insurancePool
      else c.insurancePool }

def recordDeposit (escrowed : Bool) (i : ℕ) (price : ℤ) : Escrow :=
  { c with escrowDeposit :=
      if escrowed then update c.escrowDeposit i (some price) else c.escrowDeposit }

@[simp] theorem lockCollateral_false (i : ℕ) (r : SwapRecord) :
    c.lockCollateral false i r = c := rfl

@[simp] theorem collectPremium_false (r : SwapRecord) : c.collectPremium false r = c := rfl

@[simp] theorem recordDeposit_false (i : ℕ) (price : ℤ) :
    c.recordDeposit false i price = c := rfl

@[simp] theorem recordDeposit_true (i : ℕ) (price : ℤ) :
    c.recordDeposit true i price = c.setEscrowDeposit i (some price) := rfl

@[simp] theorem release_none (i : ℕ) : c.release i none = c := rfl

@[simp] theorem heldFor_pay (ms : List TokenTransfer) (i : ℕ) (r : SwapRecord) :
    (c.pay ms).heldFor i r = c.heldFor i r := rfl

@[simp] theorem heldFor_close (i j : ℕ) (r r' : SwapRecord) (status : SwapStatus) :
    (c.close j r' status).heldFor i r = c.heldFor i r := rfl

@[simp] theorem pay_close (ms : List TokenTransfer) (i : ℕ) (r : SwapRecord)
    (status : SwapStatus) : (c.pay ms).close i r status = (c.close i r status).pay ms := rfl

@[simp] theorem pay_enlist (ms : List TokenTransfer) (r : SwapRecord) :
    (c.pay ms).enlist r = (c.enlist r).pay ms := rfl

@[simp] theorem pay_addToPool (ms : List TokenTransfer) (token : Address) (amount : ℤ) :
    (c.pay ms).addToPool token amount = (c.addToPool token amount).pay ms := rfl

@[simp] theorem pay_release (ms : List TokenTransfer) (i : ℕ) (collateral : Option ℤ) :
    (c.pay ms).release i collateral = (c.release i collateral).pay ms := rfl

@[simp] theorem close_release (i : ℕ) (collateral : Option ℤ) (j : ℕ) (r : SwapRecord)
    (status : SwapStatus) :
    (c.release i collateral).close j r status = (c.close j r status).release i collateral := rfl

@[simp] theorem pay_lockCollateral (ms : List TokenTransfer) (deposits : Bool) (i : ℕ)
    (r : SwapRecord) :
    (c.pay ms).lockCollateral deposits i r = (c.lockCollateral deposits i r).pay ms := rfl

@[simp] theorem pay_collectPremium (ms : List TokenTransfer) (premium : Bool)
    (r : SwapRecord) :
    (c.pay ms).collectPremium premium r = (c.collectPremium premium r).pay ms := rfl

@[simp] theorem pay_recordDeposit (ms : List TokenTransfer) (escrowed : Bool) (i : ℕ)
    (price : ℤ) :
    (c.pay ms).recordDeposit escrowed i price = (c.recordDeposit escrowed i price).pay ms := rfl

end Escrow

def depositOf (i : ℕ) (r : SwapRecord) (deposits : Bool) : List TokenTransfer :=
  if deposits then
    [⟨r.token, r.buyer, currentContractAddress, r.collateralAmount, .collateral i⟩] else []

def premiumOf (i : ℕ) (r : SwapRecord) (premium : Bool) : List TokenTransfer :=
  if premium then
    [⟨r.token, r.buyer, currentContractAddress, r.insurancePremium, .premium i⟩] else []

def priceOf (i : ℕ) (r : SwapRecord) (price : ℤ) : TokenTransfer :=
  ⟨r.token, r.buyer, currentContractAddress, price, .price i⟩

/-- The transfers that fund a swap `r` at its accepted price. -/
def funding (i : ℕ) (r : SwapRecord) (price : ℤ) (deposits premium : Bool) :
    List TokenTransfer :=
  depositOf i r deposits ++ priceOf i r price :: premiumOf i r premium

@[simp] theorem depositOf_false (i : ℕ) (r : SwapRecord) : depositOf i r false = [] := rfl

@[simp] theorem premiumOf_false (i : ℕ) (r : SwapRecord) : premiumOf i r false = [] := rfl

/-- Transfers out of the escrow on account of the swap `i`, to recipients in `dsts`. -/
structure PaidFor (i : ℕ) (r : SwapRecord) (dsts : Address → Prop) (total : ℤ)
    (ms : List TokenTransfer) : Prop where
  escrowed : ∀ m ∈ ms, m.token = r.token ∧ m.src = currentContractAddress ∧
    m.ref.swap? = some i ∧ 0 ≤ m.amount
  recipient : ∀ m ∈ ms, dsts m.dst
  total : (ms.map Transfer.amount).sum = total

def Returned (i : ℕ) (r : SwapRecord) (collateral : Option ℤ) (ms : List TokenTransfer) : Prop :=
  ∀ amount, collateral = some amount → ∃ dst, (dst = r.buyer ∨ dst = r.seller) ∧
    ⟨r.token, currentContractAddress, dst, amount, .collateral i⟩ ∈ ms

theorem Returned.none {i : ℕ} {r : SwapRecord} {ms : List TokenTransfer} :
    Returned i r none ms := fun _ h => by cases h

theorem Returned.mono {i : ℕ} {r : SwapRecord} {collateral : Option ℤ}
    {ms ms' : List TokenTransfer} (h : Returned i r collateral ms) (hsub : ms ⊆ ms') :
    Returned i r collateral ms' := by
  intro amount hamount
  obtain ⟨dst, hdst, hmem⟩ := h amount hamount
  exact ⟨dst, hdst, hsub hmem⟩

def refundOf (i : ℕ) (r : SwapRecord) (amount : ℤ) : TokenTransfer :=
  ⟨r.token, currentContractAddress, r.buyer, amount, .price i⟩

def SwapRecord.Payee (r : SwapRecord) (a : Address) : Prop :=
  a = protocolConfig.treasury ∨ a = r.seller ∨ a = r.buyer ∨ r.referrer = some a

/-- A batch settles a swap that stood in the list before only after closing it. -/
def Closed (c : Escrow) (i : ℕ) (r : SwapRecord) : Prop :=
  r.status = .completed ∧ c.activeSwap r.ipId = none ∧ c.heldFor i r = none

/-- What makes it legitimate to complete a swap, and in which status. -/
def Releases (env : Env) (c : Escrow) (i : ℕ) (r : SwapRecord) : Warrant → Prop
  | .key k => r.status = .accepted ∧ r.seller ∈ env.auths ∧
      KeyCheck env c.ipRegistry r.ipId k.secret k.blindingFactor true
  | .batchKey k => (r.status = .accepted ∨ Closed c i r) ∧ r.seller ∈ env.auths ∧
      KeyCheck env c.ipRegistry r.ipId k.secret k.blindingFactor true
  | .ruling => r.status = .disputed ∧ ∃ admin ∈ env.auths, c.admin = some admin
  | .batchArbitration => r.status = .disputed
  | .arbitration => True
  | _ => False

def Refunds (env : Env) (c : Escrow) (r : SwapRecord) : Warrant → Prop
  | .refusedKey => r.status = .accepted ∧ r.seller ∈ env.auths
  | .ruling => r.status = .disputed ∧ ∃ admin ∈ env.auths, c.admin = some admin
  | .batchArbitration => r.status = .disputed
  | .arbitration => True
  | .expiry => r.status = .accepted ∧ r.expiry < env.timestamp
  | .timeout => r.status = .disputed
  | _ => False

def Acceptable (r : SwapRecord) (price : ℤ) : Prop :=
  price = r.price ∨ r.status = .pending ∧ ∃ quantity : ℕ,
    quantity ≠ 0 ∧ quantity ≤ r.quantity ∧ price = (r.price * quantity).tdiv r.quantity

structure FreshSwap (r : SwapRecord) : Prop where
  status : r.status = .pending
  price : 0 < r.price
  quantity : r.quantity = 1
  paid : r.paidAmount = 0
  premium : 0 ≤ r.insurancePremium
  share : r.insurancePremium < r.price
  plain : r.isInstallment = true →
    r.requiredApprovals = 0 ∧ r.collateralAmount = 0 ∧ r.insurancePremium = 0

structure FreshAuction (c : Escrow) (a : AuctionRecord) : Prop where
  auctionId : a.auctionId = c.auctionCount
  minBid : 0 < a.minBid
  highestBid : a.highestBid = 0
  highestBidder : a.highestBidder = none
  finalized : a.finalized = false

structure WonBy (a : AuctionRecord) (buyer : Address) (r : SwapRecord) : Prop where
  ipId : r.ipId = a.ipId
  seller : r.seller = a.seller
  buyer : r.buyer = buyer
  token : r.token = a.token
  price : r.price = a.highestBid
  status : r.status = .accepted
  quantity : r.quantity = 1
  paid : r.paidAmount = 0
  premium : r.insurancePremium = 0
  collateral : r.collateralAmount = 0
  referrer : r.referrer = none
  plain : r.isInstallment = false

def AuctionRecord.refund (i : ℕ) (a : AuctionRecord) : List TokenTransfer :=
  match a.highestBidder with
  | some bidder => [⟨a.token, currentContractAddress, bidder, a.highestBid, .bid i⟩]
  | none => []

inductive Step (env : Env) : Escrow → Move → Escrow → Prop where
  | configured {c : Escrow} (admin ipRegistry : Option Address) :
      Step env c .configured ((c.setAdmin admin).setIpRegistry ipRegistry)
  | received {c : Escrow} (balance : Address → Address → ℤ)
      (h : ∀ t, c.balance t currentContractAddress ≤ balance t currentContractAddress) :
      Step env c .received { c with balance }
  | initiated {c : Escrow} {r : SwapRecord} (hfresh : FreshSwap r)
      (hfree : c.activeSwap r.ipId = none) (hauth : r.seller ∈ env.auths) :
      Step env c (.initiated r) ((c.enlist r).setActiveSwap r.ipId (some c.count))
  | accepted {c : Escrow} {i : ℕ} {r : SwapRecord} (r' : SwapRecord)
      (deposits premium escrowed : Bool)
      (hr : c.swap i = some r) (hfrom : r.status = .pending ∨ r.status = .accepted)
      (hauth : r.buyer ∈ env.auths) (hterms : r'.terms = r.terms)
      (hto : r'.status = .accepted) (hprice : Acceptable r r'.price)
      (hpaid : r'.paidAmount = r.paidAmount)
      (hdeposits : deposits = true → c.swapCollateral i = none ∧ 0 < r.collateralAmount)
      (hpos : ∀ m ∈ funding i r r'.price deposits premium, 0 ≤ m.amount)
      (hexpiry : r'.expiry = r.expiry)
      (hpremium : premium = true → r.insuranceEnabled = true ∧ 0 < r.insurancePremium) :
      Step env c (.accepted i)
        (((((c.lockCollateral deposits i r).collectPremium premium r).recordDeposit escrowed i
          r'.price).setSwap i (some r')).pay (funding i r r'.price deposits premium))
  | installment {c : Escrow} {i : ℕ} {r : SwapRecord} (r' : SwapRecord) {amount : ℤ} (last : Bool)
      (hr : c.swap i = some r) (hfrom : r.status = .pending) (hauth : r.buyer ∈ env.auths)
      (hterms : r'.terms = r.terms) (hprice : r'.price = r.price)
      (hquantity : r'.quantity = r.quantity) (hpos : 0 < amount)
      (hpaid : r'.paidAmount = saturatingI128 (r.paidAmount + amount))
      (hlast : last = true ↔ r.price ≤ r'.paidAmount)
      (hto : r'.status = if last then .accepted else .pending) (hexpiry : r'.expiry = r.expiry) :
      Step env c (.installment i last) ((c.setSwap i (some r')).pay
        [priceOf i r amount])
  | scheduled {c : Escrow} {i : ℕ} {r : SwapRecord} (r' : SwapRecord) {amount : ℤ} (last : Bool)
      (hr : c.swap i = some r) (hauth : r.buyer ∈ env.auths) (hpos : 0 ≤ amount)
      (hterms : r'.terms = r.terms) (hprice : r'.price = r.price)
      (hquantity : r'.quantity = r.quantity) (hpaid : r'.paidAmount = r.paidAmount)
      (hto : r'.status = if last then .accepted else r.status) (hexpiry : r'.expiry = r.expiry) :
      Step env c (.scheduled i last) ((c.setSwap i (some r')).pay
        [priceOf i r amount])
  | offered {c : Escrow} {i : ℕ} {r : SwapRecord} {offer : RenegotiationOffer}
      (hr : c.swap i = some r) (hfrom : r.status = .pending) (hauth : r.seller ∈ env.auths)
      (hpos : 0 < offer.newPrice) :
      Step env c (.offered i) (c.setSwapRenegotiations i (some offer))
  | repriced {c : Escrow} {i : ℕ} {r : SwapRecord} {offer : RenegotiationOffer}
      (hr : c.swap i = some r) (hfrom : r.status = .pending) (hauth : r.buyer ∈ env.auths)
      (hoffer : c.swapRenegotiations i = some offer) :
      Step env c (.amended i) ((c.setSwap i (some { r with price := offer.newPrice
        })).setSwapRenegotiations i none)
  | extended {c : Escrow} {i : ℕ} {r : SwapRecord} (newExpiry : ℕ)
      (hr : c.swap i = some r) (hfrom : r.status = .pending) (hauth : r.seller ∈ env.auths)
      (hlater : r.expiry < newExpiry) :
      Step env c (.amended i) (c.setSwap i (some { r with expiry := newExpiry }))
  | disputed {c : Escrow} {i : ℕ} {r : SwapRecord} (hr : c.swap i = some r)
      (hfrom : r.status = .accepted) (hauth : r.buyer ∈ env.auths) :
      Step env c (.disputed i) (c.setSwap i (some { r with
        status := .disputed, disputeTimestamp := env.timestamp }))
  | cancelled {c : Escrow} {i : ℕ} {r : SwapRecord} (hr : c.swap i = some r)
      (hfrom : r.status = .pending) (hauth : r.seller ∈ env.auths ∨ r.buyer ∈ env.auths) :
      Step env c (.cancelled i) (c.close i r .cancelled)
  | released {c : Escrow} {i : ℕ} {r : SwapRecord} {w : Warrant} {ms : List TokenTransfer}
      (hr : c.swap i = some r) (hw : Releases env c i r w)
      (hpaid : PaidFor i r r.Payee (r.price + (c.sweptBy w i r).getD 0) ms)
      (hreturned : Returned i r (c.sweptBy w i r) ms) :
      Step env c (.released i w)
        (((c.close i r .completed).release i (c.sweptBy w i r)).pay ms)
  | refunded {c : Escrow} {i : ℕ} {r : SwapRecord} {w : Warrant} {ms : List TokenTransfer}
      (hr : c.swap i = some r) (hw : Refunds env c r w)
      (hpaid : PaidFor i r (· = r.buyer) (r.price + (c.sweptBy w i r).getD 0) ms)
      (hreturned : Returned i r (c.sweptBy w i r) ms) (hrefund : refundOf i r r.price ∈ ms) :
      Step env c (.refunded i w)
        (((c.close i r .cancelled).release i (c.sweptBy w i r)).pay ms)
  | withdrawn {c : Escrow} {i : ℕ} {r : SwapRecord} {ms : List TokenTransfer}
      (hr : c.swap i = some r) (hfrom : r.status = .accepted) (hauth : r.buyer ∈ env.auths)
      (hpaid : PaidFor i r (· = r.buyer) (max 0 ((c.escrowDeposit i).getD 0)) ms)
      (hrefund : ∀ x, c.escrowDeposit i = some x → 0 < x → refundOf i r x ∈ ms) :
      Step env c (.withdrawn i) (((c.close i r .cancelled).setEscrowDeposit i none).pay ms)
  | rolledBack {c : Escrow} {i : ℕ} {r : SwapRecord} {total : ℤ} {ms : List TokenTransfer}
      (hr : c.swap i = some r) (hfrom : r.status = .completed) (hauth : r.buyer ∈ env.auths)
      (hpaid : PaidFor i r (fun a => a = r.buyer ∨ a = protocolConfig.treasury) total ms)
      (htotal : 0 < r.price → total = r.price) :
      Step env c (.rolledBack i) ((c.setSwap i (some (r.withStatus .rolledBack))).pay ms)
  | adminRolledBack {c : Escrow} {i : ℕ} {r : SwapRecord} {returned : Option ℤ}
      {total : ℤ} {ms : List TokenTransfer} (hr : c.swap i = some r)
      (hfrom : r.status ≠ .completed) (hauth : ∃ admin ∈ env.auths, c.admin = some admin)
      (hpaid : PaidFor i r (· = r.buyer) total ms)
      (hfunded : if r.status = .accepted ∨ r.status = .disputed then
          returned = c.swapCollateral i ∧
            total = r.price + returned.getD 0 + max 0 r.insurancePremium
        else returned = none ∧ total = 0 ∧ ms = [])
      (hreturned : Returned i r returned ms)
      (hrefund : r.status = .accepted ∨ r.status = .disputed → refundOf i r r.price ∈ ms) :
      Step env c (.adminRolledBack i) (((c.close i r .cancelled).release i returned).pay ms)
  | claimed {c : Escrow} {i : ℕ} {r : SwapRecord} {payout : ℤ} (hr : c.swap i = some r)
      (hauth : r.buyer ∈ env.auths) (hclaim : (c.insuranceClaimable i).isSome)
      (hpos : 0 ≤ payout) :
      Step env c (.claimed i)
        (((c.addToPool r.token (-payout)).setInsuranceClaimable i none).pay
          [⟨r.token, currentContractAddress, r.buyer, payout, .claim i⟩])
  | auctionStarted {c : Escrow} {a : AuctionRecord} (hfresh : FreshAuction c a)
      (hfree : c.activeAuction a.ipId = none) (hauth : a.seller ∈ env.auths) :
      Step env c (.auctionStarted a)
        (((c.setAuction c.auctionCount (some a)).setActiveAuction a.ipId
          (some c.auctionCount)).setNextAuctionId (some (c.auctionCount + 1)))
  | bid {c : Escrow} {i : ℕ} {a : AuctionRecord} {bidder : Address} {amount : ℤ}
      (ha : c.auction i = some a) (hopen : a.finalized = false) (hauth : bidder ∈ env.auths)
      (hmin : a.minBid ≤ amount) (hmore : a.highestBid < amount)
      (hpos : ∀ m ∈ a.refund i, 0 ≤ m.amount) :
      Step env c (.bid i bidder)
        ((c.setAuction i (some { a with highestBid := amount, highestBidder := some bidder
          })).pay (a.refund i ++ [⟨a.token, bidder, currentContractAddress, amount, .bid i⟩]))
  | unsold {c : Escrow} {i : ℕ} {a : AuctionRecord} (ha : c.auction i = some a)
      (hopen : a.finalized = false) (hnone : a.highestBidder = none) :
      Step env c (.finalized i)
        ((c.setAuction i (some a.close)).setActiveAuction a.ipId none)
  | sold {c : Escrow} {i : ℕ} {a : AuctionRecord} {buyer : Address} {r : SwapRecord}
      (ha : c.auction i = some a) (hopen : a.finalized = false)
      (hwon : a.highestBidder = some buyer) (hr : WonBy a buyer r) :
      Step env c (.finalized i)
        (((c.setAuction i (some a.close)).setActiveAuction a.ipId
          none).enlist r)

end AtomicIp.AtomicSwap
