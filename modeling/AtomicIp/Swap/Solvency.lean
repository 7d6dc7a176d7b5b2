import AtomicIp.Swap.Records

set_option autoImplicit false

namespace AtomicIp.AtomicSwap

open Function

/-- What is held for a swap apart from its collateral: the price of a funded one, the
instalments of a pending one. -/
def SwapRecord.due (r : SwapRecord) : ℤ :=
  match r.status with
  | .accepted | .disputed => r.price
  | .pending => r.paidAmount
  | _ => 0

def AuctionRecord.due (a : AuctionRecord) : ℤ := if a.finalized then 0 else a.highestBid

namespace Escrow

def swapDue (c : Escrow) (t : Address) (i : ℕ) : ℤ :=
  match c.swap i with
  | some r => if r.token = t then r.due + (c.swapCollateral i).getD 0 else 0
  | none => 0

def auctionDue (c : Escrow) (t : Address) (j : ℕ) : ℤ :=
  match c.auction j with
  | some a => if a.token = t then a.due else 0
  | none => 0

def pool (c : Escrow) (t : Address) : ℤ := (c.insurancePool t).getD 0

/-- All that the escrow owes in the token `t`. -/
def obligations (c : Escrow) (t : Address) : ℤ :=
  c.pool t + ∑ i ∈ Finset.range c.count, c.swapDue t i +
    ∑ j ∈ Finset.range c.auctionCount, c.auctionDue t j

end Escrow

def Move.Funded : Move → Prop
  | .scheduled _ _ | .rolledBack _ | .adminRolledBack _ => False
  | .released _ (.batchKey _) | .released _ .arbitration | .refunded _ .arbitration => False
  | .initiated r => r.buyer ≠ currentContractAddress
  | .bid _ bidder => bidder ≠ currentContractAddress
  | _ => True

/-- The moves that take out of the escrow no more than it holds for their swap. -/
def Escrow.Backs (c : Escrow) : Move → Prop
  | .scheduled _ _ | .rolledBack _ => False
  | .released _ (.batchKey _) | .released _ .arbitration | .refunded _ .arbitration => False
  | .adminRolledBack i => ∀ r, c.swap i = some r → r.status = .accepted ∨ r.status = .disputed →
      r.insurancePremium ≤ 0
  | _ => True

def Escrow.payer? (c : Escrow) : Move → Option Address
  | .accepted i | .installment i _ => (c.swap i).map SwapRecord.buyer
  | .bid _ bidder => some bidder
  | _ => none

structure Covered (c : Escrow) : Prop where
  wf : Wf c
  covered : ∀ t, c.obligations t ≤ c.balance t currentContractAddress

structure Solvent (c : Escrow) : Prop where
  wf : Wf c
  buyer : ∀ i r, c.swap i = some r → r.buyer ≠ currentContractAddress
  bidder : ∀ j a b, c.auction j = some a → a.highestBidder = some b → b ≠ currentContractAddress
  covered : ∀ t, c.obligations t ≤ c.balance t currentContractAddress

section Dues

variable {c c' : Escrow} {t : Address} {i j : ℕ} {r r' : SwapRecord} {a a' : AuctionRecord}

theorem swapDue_of (hr : c.swap i = some r) :
    c.swapDue t i = if r.token = t then r.due + (c.swapCollateral i).getD 0 else 0 := by
  simp [Escrow.swapDue, hr]

theorem auctionDue_of (ha : c.auction j = some a) :
    c.auctionDue t j = if a.token = t then a.due else 0 := by
  simp [Escrow.auctionDue, ha]

/-- A move about one swap changes the obligations by what that swap is due. -/
theorem obligations_swap (c c' : Escrow) (t : Address)
    (hcount : c'.count = c.count) (hauction : c'.auction = c.auction)
    (hnext : c'.auctionCount = c.auctionCount) (hi : i < c.count)
    (hrest : ∀ j, j ≠ i → c'.swapDue t j = c.swapDue t j) :
    c'.obligations t = c.obligations t + (c'.pool t - c.pool t) +
      (c'.swapDue t i - c.swapDue t i) := by
  have hswaps := sum_range_changed hi hrest
  have hauctions : ∀ j, c'.auctionDue t j = c.auctionDue t j := by
    intro j
    simp [Escrow.auctionDue, hauction]
  simp only [Escrow.obligations, hcount, hnext, hswaps, hauctions]
  omega

theorem obligations_auction (c c' : Escrow) (t : Address) (hcount : c'.count = c.count)
    (hswap : ∀ i, c'.swapDue t i = c.swapDue t i) (hpool : c'.pool t = c.pool t)
    (hnext : c'.auctionCount = c.auctionCount) (hj : j < c.auctionCount)
    (hrest : ∀ k, k ≠ j → c'.auctionDue t k = c.auctionDue t k) :
    c'.obligations t = c.obligations t + (c'.auctionDue t j - c.auctionDue t j) := by
  have hauctions := sum_range_changed hj hrest
  simp only [Escrow.obligations, hcount, hnext, hauctions, hswap, hpool]
  omega

theorem swapDue_enlist (hwf : Wf c) (i : ℕ) :
    (c.enlist r).swapDue t i = if i = c.count then (if r.token = t then r.due else 0)
      else c.swapDue t i := by
  by_cases hi : i = c.count
  · have hnone := hwf.unbacked hwf.fresh
    simp [Escrow.swapDue, Escrow.enlist, Escrow.setSwap, Escrow.setNextId, hi, hnone]
  · simp [Escrow.swapDue, Escrow.enlist, Escrow.setSwap, Escrow.setNextId, hi]

theorem obligations_enlist (hwf : Wf c) :
    (c.enlist r).obligations t = c.obligations t + if r.token = t then r.due else 0 := by
  have hswaps := sum_range_grown (f := c.swapDue t) (g := (c.enlist r).swapDue t) (n := c.count)
    (fun i hi => by rw [swapDue_enlist hwf, if_neg hi])
  have hcount : (c.enlist r).count = c.count + 1 := rfl
  have hpool : (c.enlist r).pool t = c.pool t := rfl
  have hauctions : ∀ j, (c.enlist r).auctionDue t j = c.auctionDue t j := fun _ => rfl
  have hnext : (c.enlist r).auctionCount = c.auctionCount := rfl
  simp only [Escrow.obligations, hcount, hpool, hnext, hauctions, hswaps]
  rw [swapDue_enlist hwf, if_pos rfl]
  omega

theorem swapDue_settled (i : ℕ) (r : SwapRecord) (q : SwapStatus) (o : Option ℤ)
    (ms : List TokenTransfer) (hji : j ≠ i) :
    (((c.close i r q).release i o).pay ms).swapDue t j = c.swapDue t j := by
  cases o <;> simp [Escrow.swapDue, Escrow.close, Escrow.release, Escrow.pay, Escrow.setSwap,
    Escrow.setActiveSwap, hji]

theorem swapDue_closed {q : SwapStatus} {o : Option ℤ} {ms : List TokenTransfer}
    (hq : (r.withStatus q).due = 0) (ho : o = none ∨ o = c.swapCollateral i) :
    (((c.close i r q).release i o).pay ms).swapDue t i =
      if r.token = t then (c.swapCollateral i).getD 0 - o.getD 0 else 0 := by
  have htoken : (r.withStatus q).token = r.token := rfl
  rcases ho with rfl | rfl
  · simp [Escrow.swapDue, Escrow.close, Escrow.release, Escrow.pay, Escrow.setSwap,
      Escrow.setActiveSwap, hq, htoken]
  · cases hx : c.swapCollateral i <;>
      simp [Escrow.swapDue, Escrow.close, Escrow.release, Escrow.pay, Escrow.setSwap,
        Escrow.setActiveSwap, hq, htoken, hx]

theorem balance_pay (c : Escrow) (ms : List TokenTransfer) (t a : Address) :
    (c.pay ms).balance t a = c.balance t a + (ms.map (Transfer.flow t a)).sum :=
  postAll_apply c.balance ms t a

theorem PaidFor.flow_ge {P : Address → Prop} {total : ℤ} {ms : List TokenTransfer}
    (h : PaidFor i r P total ms) (t : Address) :
    -(if r.token = t then total else 0) ≤
      (ms.map (Transfer.flow t currentContractAddress)).sum := by
  have hout : ∀ m ∈ ms, m.token = r.token ∧ 0 ≤ m.amount := fun m hm =>
    ⟨(h.escrowed m hm).1, (h.escrowed m hm).2.2.2⟩
  rw [← h.total]
  exact sum_flow_out_ge hout

theorem covered_closed (h : Covered c) (hr : c.swap i = some r) {q : SwapStatus}
    (hq : (r.withStatus q).due = 0) {o : Option ℤ} (ho : o = none ∨ o = c.swapCollateral i)
    {P : Address → Prop} {total : ℤ} {ms : List TokenTransfer} (hpaid : PaidFor i r P total ms)
    (hle : total ≤ r.due + o.getD 0) (t : Address) :
    (((c.close i r q).release i o).pay ms).obligations t ≤
      (((c.close i r q).release i o).pay ms).balance t currentContractAddress := by
  have hcovered := h.covered t
  have hflow := hpaid.flow_ge t
  have hpool : (((c.close i r q).release i o).pay ms).pool t = c.pool t := rfl
  have hbalance : ((c.close i r q).release i o).balance = c.balance := rfl
  have hdues := obligations_swap c (((c.close i r q).release i o).pay ms) t rfl rfl rfl
    (h.wf.stored _ _ hr).1 fun j hji => swapDue_settled i r q o ms hji
  rw [swapDue_closed hq ho, swapDue_of hr, hpool] at hdues
  rw [hdues, balance_pay, hbalance]
  split_ifs at hflow ⊢ <;> omega

theorem due_nonneg (h : r.Sound) : 0 ≤ r.due := by
  have hprice := h.price
  have hpaid := h.paid
  unfold SwapRecord.due
  split <;> omega

theorem covered_moved (h : Covered c) (c' : Escrow) (t : Address) (hcount : c'.count = c.count)
    (hauction : c'.auction = c.auction) (hnext : c'.auctionCount = c.auctionCount)
    (hr : c.swap i = some r) (hrest : ∀ j, j ≠ i → c'.swapDue t j = c.swapDue t j) {inflow : ℤ}
    (hbalance : c'.balance t currentContractAddress =
      c.balance t currentContractAddress + inflow)
    (hdue : c'.pool t + c'.swapDue t i ≤ c.pool t + c.swapDue t i + inflow) :
    c'.obligations t ≤ c'.balance t currentContractAddress := by
  have hcovered := h.covered t
  have hdues := obligations_swap c c' t hcount hauction hnext (h.wf.stored _ _ hr).1 hrest
  omega

theorem covered_setSwap (h : Covered c) (r' : SwapRecord) {ms : List TokenTransfer} (t : Address)
    (hr : c.swap i = some r) (htoken : r'.token = r.token)
    (hin : ∀ m ∈ ms, m.token = r.token ∧ m.src ≠ currentContractAddress ∧
      m.dst = currentContractAddress)
    (hdue : r'.due ≤ r.due + (ms.map Transfer.amount).sum) :
    ((c.setSwap i (some r')).pay ms).obligations t ≤
      ((c.setSwap i (some r')).pay ms).balance t currentContractAddress := by
  have hrest : ∀ j, j ≠ i → ((c.setSwap i (some r')).pay ms).swapDue t j = c.swapDue t j := by
    intro j hji
    simp [Escrow.swapDue, Escrow.pay, Escrow.setSwap, hji]
  have hflow := sum_flow_in (t := t) hin
  refine covered_moved h _ t rfl rfl rfl hr hrest (balance_pay _ ms t _) ?_
  have hpool : ((c.setSwap i (some r')).pay ms).pool t = c.pool t := rfl
  have hnew : ((c.setSwap i (some r')).pay ms).swapDue t i =
      if r.token = t then r'.due + (c.swapCollateral i).getD 0 else 0 := by
    simp [Escrow.swapDue, Escrow.pay, Escrow.setSwap, htoken]
  rw [hflow, hpool, hnew, swapDue_of hr]
  split_ifs <;> omega

theorem covered_amended (h : Covered c) (r' : SwapRecord) (t : Address)
    (hr : c.swap i = some r) (htoken : r'.token = r.token) (hdue : r'.due = r.due) :
    (c.setSwap i (some r')).obligations t ≤
      (c.setSwap i (some r')).balance t currentContractAddress := by
  have hset := covered_setSwap h r' t hr htoken (by simp : ∀ m ∈ [], _) (by simp [hdue])
  rwa [Escrow.pay_nil] at hset

theorem sum_funding (i : ℕ) (r : SwapRecord) (price : ℤ) (deposits premium : Bool) :
    ((funding i r price deposits premium).map Transfer.amount).sum =
      (if deposits then r.collateralAmount else 0) + price +
        if premium then r.insurancePremium else 0 := by
  cases deposits <;> cases premium <;> simp [funding, depositOf, premiumOf, priceOf, add_assoc]

theorem covered_accepted (h : Covered c) (r' : SwapRecord) {deposits premium escrowed : Bool}
    (t : Address) (hr : c.swap i = some r) (hbuyer : r.buyer ≠ currentContractAddress)
    (hterms : r'.terms = r.terms)
    (hto : r'.status = .accepted) (hdeposits : deposits = true → c.swapCollateral i = none) :
    (((((c.lockCollateral deposits i r).collectPremium premium r).recordDeposit escrowed i
      r'.price).setSwap i (some r')).pay (funding i r r'.price deposits premium)).obligations t ≤
    (((((c.lockCollateral deposits i r).collectPremium premium r).recordDeposit escrowed i
      r'.price).setSwap i (some r')).pay (funding i r r'.price deposits premium)).balance t
        currentContractAddress := by
  have htoken : r'.token = r.token := congrArg Terms.token hterms
  have hnonneg := due_nonneg (h.wf.stored _ _ hr).2
  have hin : ∀ m ∈ funding i r r'.price deposits premium, m.token = r.token ∧
      m.src ≠ currentContractAddress ∧ m.dst = currentContractAddress := by
    cases deposits <;> cases premium <;>
      simp [funding, depositOf, premiumOf, priceOf, hbuyer]
  have hflow := sum_flow_in (t := t) hin
  rw [sum_funding] at hflow
  refine covered_moved h _ t rfl rfl rfl hr ?_ (balance_pay _ _ t _) ?_
  · intro j hji
    cases deposits <;> simp [Escrow.swapDue, Escrow.pay, Escrow.setSwap, Escrow.lockCollateral,
      Escrow.collectPremium, Escrow.recordDeposit, hji]
  · have hdue : r'.due = r'.price := by simp [SwapRecord.due, hto]
    have hnew : (((((c.lockCollateral deposits i r).collectPremium premium r).recordDeposit escrowed
        i r'.price).setSwap i (some r')).pay (funding i r r'.price deposits premium)).swapDue t i =
        if r.token = t then r'.price + (if deposits then r.collateralAmount
          else (c.swapCollateral i).getD 0) else 0 := by
      cases deposits <;> simp [Escrow.swapDue, Escrow.pay, Escrow.setSwap, Escrow.lockCollateral,
        Escrow.collectPremium, Escrow.recordDeposit, htoken, hdue]
    have hpool : (((((c.lockCollateral deposits i r).collectPremium premium r).recordDeposit
        escrowed i r'.price).setSwap i (some r')).pay
          (funding i r r'.price deposits premium)).pool t =
        c.pool t + if r.token = t then (if premium then r.insurancePremium else 0) else 0 := by
      by_cases htok : r.token = t
      · subst htok
        cases premium <;> simp [Escrow.pool, Escrow.pay, Escrow.setSwap, Escrow.collectPremium,
          Escrow.lockCollateral, Escrow.recordDeposit, Escrow.addToPool, Escrow.setInsurancePool]
      · have hne : t ≠ r.token := fun e => htok e.symm
        cases premium <;> simp [Escrow.pool, Escrow.pay, Escrow.setSwap, Escrow.collectPremium,
          Escrow.lockCollateral, Escrow.recordDeposit, Escrow.addToPool, Escrow.setInsurancePool,
          htok, hne]
    rw [hflow, hpool, hnew, swapDue_of hr]
    cases deposits with
    | false =>
      simp only [Bool.false_eq_true, if_false]
      split_ifs <;> omega
    | true =>
      rw [hdeposits rfl]
      simp only [Option.getD_none, if_true]
      split_ifs <;> omega

theorem obligations_startAuction (a : AuctionRecord) (t : Address) (ha : a.due = 0) :
    (((c.setAuction c.auctionCount (some a)).setActiveAuction a.ipId
      (some c.auctionCount)).setNextAuctionId (some (c.auctionCount + 1))).obligations t =
        c.obligations t := by
  generalize hstarted : ((c.setAuction c.auctionCount (some a)).setActiveAuction a.ipId
    (some c.auctionCount)).setNextAuctionId (some (c.auctionCount + 1)) = c'
  have hnew : ∀ j, c'.auctionDue t j =
      if j = c.auctionCount then 0 else c.auctionDue t j := by
    intro j
    rw [← hstarted]
    by_cases hj : j = c.auctionCount <;> simp [Escrow.auctionDue, Escrow.setAuction,
      Escrow.setActiveAuction, Escrow.setNextAuctionId, hj, ha]
  have hgrown := sum_range_grown (f := c.auctionDue t) (n := c.auctionCount)
    (g := fun j => if j = c.auctionCount then 0 else c.auctionDue t j) fun j hj => if_neg hj
  have hnext : c'.auctionCount = c.auctionCount + 1 := by rw [← hstarted]; rfl
  have hcount : c'.count = c.count := by rw [← hstarted]; rfl
  have hpool : c'.pool t = c.pool t := by rw [← hstarted]; rfl
  have hswap : ∀ i, c'.swapDue t i = c.swapDue t i := by
    intro i
    rw [← hstarted]
    rfl
  simp only [Escrow.obligations, hnext, hcount, hpool, hswap, hnew, hgrown]
  simp

theorem obligations_setAuction (hwf : Wf c) (a' : AuctionRecord) (t : Address)
    (ha : c.auction j = some a) (htoken : a'.token = a.token) :
    (c.setAuction j (some a')).obligations t =
      c.obligations t + if a.token = t then a'.due - a.due else 0 := by
  have hrest : ∀ k, k ≠ j → (c.setAuction j (some a')).auctionDue t k = c.auctionDue t k := by
    intro k hkj
    simp [Escrow.auctionDue, Escrow.setAuction, hkj]
  have hdues := obligations_auction c (c.setAuction j (some a')) t rfl (fun _ => rfl) rfl rfl
    (hwf.auction _ _ ha).1 hrest
  have hnew : (c.setAuction j (some a')).auctionDue t j = if a.token = t then a'.due else 0 := by
    simp [Escrow.auctionDue, Escrow.setAuction, htoken]
  rw [hnew, auctionDue_of ha] at hdues
  rw [hdues]
  split_ifs <;> omega

theorem sum_refund (h : a.Sound) : ((a.refund j).map Transfer.amount).sum = a.highestBid := by
  cases hbidder : a.highestBidder with
  | none => simp [AuctionRecord.refund, hbidder, h.unbid hbidder]
  | some bidder => simp [AuctionRecord.refund, hbidder]

theorem covered_bid (h : Covered c) {bidder : Address} {amount : ℤ} (t : Address)
    (ha : c.auction j = some a) (hopen : a.finalized = false)
    (hbidder : bidder ≠ currentContractAddress) (hpos : ∀ m ∈ a.refund j, 0 ≤ m.amount) :
    ((c.setAuction j (some { a with highestBid := amount, highestBidder := some bidder })).pay
      (a.refund j ++
        [⟨a.token, bidder, currentContractAddress, amount, .bid j⟩])).obligations t ≤
    ((c.setAuction j (some { a with highestBid := amount, highestBidder := some bidder })).pay
      (a.refund j ++ [⟨a.token, bidder, currentContractAddress, amount, .bid j⟩])).balance t
        currentContractAddress := by
  have hcovered := h.covered t
  have hdues := obligations_setAuction h.wf
    { a with highestBid := amount, highestBidder := some bidder } t ha rfl
  have hout : ∀ m ∈ a.refund j, m.token = a.token ∧ 0 ≤ m.amount := by
    intro m hm
    refine ⟨?_, hpos m hm⟩
    unfold AuctionRecord.refund at hm
    split at hm <;> simp at hm
    rw [hm]
  have hflow := sum_flow_out_ge (t := t) (a := currentContractAddress) hout
  rw [sum_refund (h.wf.auction _ _ ha).2] at hflow
  have hin : Transfer.flow t currentContractAddress
      (⟨a.token, bidder, currentContractAddress, amount, .bid j⟩ : TokenTransfer) =
        if a.token = t then amount else 0 := flow_in hbidder rfl
  have hbalance : (c.setAuction j (some { a with
      highestBid := amount, highestBidder := some bidder })).balance = c.balance := rfl
  rw [balance_pay, hbalance]
  change (c.setAuction j (some { a with
    highestBid := amount, highestBidder := some bidder })).obligations t ≤ _
  rw [hdues, List.map_append, List.sum_append]
  simp only [List.map_cons, List.map_nil, List.sum_cons, List.sum_nil, hin]
  simp only [AuctionRecord.due, hopen, Bool.false_eq_true, if_false]
  split_ifs at hflow ⊢ <;> omega

end Dues

theorem Releases.due_eq {env : Env} {c : Escrow} {i : ℕ} {r : SwapRecord} {w : Warrant}
    (h : Releases env c i r w) (hw : c.Backs (.released i w)) : r.due = r.price := by
  cases w with
  | key => simp [SwapRecord.due, h.1]
  | ruling => simp [SwapRecord.due, h.1]
  | batchArbitration =>
    have hst : r.status = .disputed := h
    simp [SwapRecord.due, hst]
  | batchKey => exact absurd hw (by simp [Escrow.Backs])
  | arbitration => exact absurd hw (by simp [Escrow.Backs])
  | refusedKey => exact h.elim
  | expiry => exact h.elim
  | timeout => exact h.elim

theorem Refunds.due_eq {env : Env} {c : Escrow} {i : ℕ} {r : SwapRecord} {w : Warrant}
    (h : Refunds env c r w) (hw : c.Backs (.refunded i w)) : r.due = r.price := by
  cases w with
  | refusedKey => simp [SwapRecord.due, h.1]
  | ruling => simp [SwapRecord.due, h.1]
  | batchArbitration =>
    have hst : r.status = .disputed := h
    simp [SwapRecord.due, hst]
  | expiry => simp [SwapRecord.due, h.1]
  | timeout =>
    have hst : r.status = .disputed := h
    simp [SwapRecord.due, hst]
  | arbitration => exact absurd hw (by simp [Escrow.Backs])
  | key => exact h.elim
  | batchKey => exact h.elim

section Steps

variable {env : Env} {c c' : Escrow} {m : Move} {i j : ℕ} {r : SwapRecord}

theorem sweptBy_cases (c : Escrow) (w : Warrant) (i : ℕ) (r : SwapRecord) :
    c.sweptBy w i r = none ∨ c.sweptBy w i r = c.swapCollateral i := by
  unfold Escrow.sweptBy Escrow.heldFor
  split_ifs <;> simp

theorem withdrawn_le (hwf : Wf c) (hr : c.swap i = some r) (hfrom : r.status = .accepted) :
    max 0 ((c.escrowDeposit i).getD 0) ≤ r.due := by
  have hdue : r.due = r.price := by simp [SwapRecord.due, hfrom]
  have hprice := (hwf.stored _ _ hr).2.price
  rw [hdue]
  cases hdeposit : c.escrowDeposit i with
  | none => simpa using hprice.le
  | some d =>
    obtain ⟨r₁, hr₁, -, hd⟩ := hwf.deposit _ _ hdeposit
    obtain rfl := Option.some.inj (hr.symm.trans hr₁)
    simp [hd, hprice.le]

theorem rolledBack_le (hwf : Wf c) (hr : c.swap i = some r)
    (hm : c.Backs (.adminRolledBack i)) {returned : Option ℤ} {total : ℤ}
    {ms : List TokenTransfer} (hfunded : if r.status = .accepted ∨ r.status = .disputed then
        returned = c.swapCollateral i ∧
          total = r.price + returned.getD 0 + max 0 r.insurancePremium
      else returned = none ∧ total = 0 ∧ ms = []) :
    (returned = none ∨ returned = c.swapCollateral i) ∧ total ≤ r.due + returned.getD 0 := by
  have hnonneg := due_nonneg (hwf.stored _ _ hr).2
  by_cases hlive : r.status = .accepted ∨ r.status = .disputed
  · rw [if_pos hlive] at hfunded
    obtain ⟨rfl, rfl⟩ := hfunded
    have hpremium := hm r hr hlive
    have hdue : r.due = r.price := by
      rcases hlive with hst | hst <;> simp [SwapRecord.due, hst]
    exact ⟨.inr rfl, by omega⟩
  · rw [if_neg hlive] at hfunded
    obtain ⟨rfl, rfl, -⟩ := hfunded
    exact ⟨.inl rfl, by simpa using hnonneg⟩

theorem Step.covered (hstep : Step env c m c') (h : Covered c) (hm : c.Backs m)
    (hpayer : c.payer? m ≠ some currentContractAddress) (t : Address) :
    c'.obligations t ≤ c'.balance t currentContractAddress := by
  have hcovered := h.covered t
  cases hstep with
  | configured => exact hcovered
  | received balance hbalance => exact hcovered.trans (hbalance t)
  | @initiated r hfresh =>
    have hdues := obligations_enlist (r := r) (t := t) h.wf
    have hdue : r.due = 0 := by simp [SwapRecord.due, hfresh.status, hfresh.paid]
    change (c.enlist r).obligations t ≤ c.balance t currentContractAddress
    rw [hdues, hdue]
    simpa using hcovered
  | @accepted i r r' deposits premium escrowed hr hfrom hauth hterms hto hprice hpaid hdeposits =>
    have hbuyer : r.buyer ≠ currentContractAddress := by simpa [Escrow.payer?, hr] using hpayer
    exact covered_accepted h r' t hr hbuyer hterms hto fun hd => (hdeposits hd).1
  | @installment i r r' amount last hr hfrom hauth hterms hprice hquantity hpos hpaid hlast hto =>
    have hsound := (h.wf.stored _ _ hr).2.paid
    have hbuyer : r.buyer ≠ currentContractAddress := by simpa [Escrow.payer?, hr] using hpayer
    have hin : ∀ m ∈ [priceOf i r amount], m.token = r.token ∧
        m.src ≠ currentContractAddress ∧ m.dst = currentContractAddress := by
      simp [priceOf, hbuyer]
    refine covered_setSwap h r' t hr (congrArg Terms.token hterms) hin ?_
    have hle : r'.paidAmount ≤ r.paidAmount + amount := by
      rw [hpaid]
      exact saturate_le (by unfold i128Min; omega)
    cases last with
    | true =>
      have hfull := hlast.mp rfl
      simp [SwapRecord.due, hto, hfrom, priceOf]
      omega
    | false =>
      simp [SwapRecord.due, hto, hfrom, priceOf]
      omega
  | scheduled => exact hm.elim
  | offered => exact hcovered
  | @repriced i r offer hr hfrom =>
    exact covered_amended h { r with price := offer.newPrice } t hr rfl
      (by simp [SwapRecord.due, hfrom])
  | @extended i r newExpiry hr =>
    exact covered_amended h { r with expiry := newExpiry } t hr rfl rfl
  | @disputed i r hr hfrom =>
    exact covered_amended h { r with status := .disputed, disputeTimestamp := env.timestamp } t
      hr rfl (by simp [SwapRecord.due, hfrom])
  | @cancelled i r hr hfrom =>
    have hnonneg := due_nonneg (h.wf.stored _ _ hr).2
    have hclosed := covered_closed h hr (q := .cancelled) rfl (.inl rfl)
      (.nil : PaidFor i r (fun _ => True) 0 []) (by simpa using hnonneg) t
    simpa using hclosed
  | @released i r w ms hr hw hpaid =>
    have hdue := hw.due_eq hm
    exact covered_closed h hr rfl (sweptBy_cases c w i r) hpaid (by omega) t
  | @refunded i r w ms hr hw hpaid =>
    have hdue := hw.due_eq hm
    exact covered_closed h hr rfl (sweptBy_cases c w i r) hpaid (by omega) t
  | @withdrawn i r ms hr hfrom hauth hpaid =>
    have hle := withdrawn_le h.wf hr hfrom
    exact covered_closed h hr (q := .cancelled) (o := none) rfl (.inl rfl) hpaid
      (by simpa using hle) t
  | rolledBack => exact hm.elim
  | @adminRolledBack i r returned total ms hr hfrom hauth hpaid hfunded =>
    obtain ⟨ho, hle⟩ := rolledBack_le h.wf hr hm hfunded
    exact covered_closed h hr rfl ho hpaid hle t
  | claimed _ _ hclaim => simp [h.wf.claimable] at hclaim
  | @auctionStarted a hfresh =>
    have hdue : a.due = 0 := by simp [AuctionRecord.due, hfresh.finalized, hfresh.highestBid]
    change _ ≤ c.balance t currentContractAddress
    exact (obligations_startAuction a t hdue).trans_le hcovered
  | bid ha hopen hauth hmin hmore hpos =>
    exact covered_bid h t ha hopen (by simpa [Escrow.payer?] using hpayer) hpos
  | @unsold j a ha hopen hnone =>
    have hbid := (h.wf.auction _ _ ha).2.unbid hnone
    have hdues := obligations_setAuction h.wf a.close t ha rfl
    have hdue : a.due = 0 := by simp [AuctionRecord.due, hopen, hbid]
    have hclosed : a.close.due = 0 := rfl
    rw [hdue, hclosed] at hdues
    refine hdues.trans_le ?_
    change _ ≤ c.balance t currentContractAddress
    simpa using hcovered
  | @sold j a buyer r ha hopen hwon hr =>
    have hdues := obligations_setAuction h.wf a.close t ha rfl
    have hsound := (h.wf.auction _ _ ha).2
    have hwf : Wf ((c.setAuction j (some a.close)).setActiveAuction a.ipId none) :=
      (h.wf.setAuction _ ha hsound.close).setActiveAuction _ _
    have henlist := obligations_enlist (r := r) (t := t) hwf
    have hdue : a.due = a.highestBid := by simp [AuctionRecord.due, hopen]
    have hclosed : a.close.due = 0 := rfl
    have hrdue : r.due = a.highestBid := by simp [SwapRecord.due, hr.status, hr.price]
    rw [hdue, hclosed] at hdues
    rw [hr.token, hrdue] at henlist
    change _ ≤ c.balance t currentContractAddress
    rw [henlist]
    change (c.setAuction j (some a.close)).obligations t + _ ≤ _
    rw [hdues]
    split_ifs <;> omega

theorem Step.bidders {a' : AuctionRecord} {b : Address} (hstep : Step env c m c')
    (ha' : c'.auction j = some a') (hb : a'.highestBidder = some b) :
    (∃ a, c.auction j = some a ∧ a.highestBidder = some b) ∨ m = .bid j b := by
  cases hstep with
  | auctionStarted hfresh =>
    by_cases hj : j = c.auctionCount <;>
      simp [Escrow.setAuction, Escrow.setActiveAuction, Escrow.setNextAuctionId, hj] at ha'
    · simp [← ha', hfresh.highestBidder] at hb
    · exact .inl ⟨a', ha', hb⟩
  | @bid i a bidder amount ha =>
    by_cases hj : j = i <;> simp [Escrow.setAuction, Escrow.pay, hj] at ha'
    · obtain rfl := ha'
      obtain rfl := Option.some.inj hb
      exact .inr (by rw [hj])
    · exact .inl ⟨a', ha', hb⟩
  | @unsold i a ha hopen hnone =>
    by_cases hj : j = i <;> simp [Escrow.setAuction, Escrow.setActiveAuction, hj] at ha'
    · exact .inl ⟨a, hj ▸ ha, by rw [← hb, ← ha']; rfl⟩
    · exact .inl ⟨a', ha', hb⟩
  | @sold i a buyer r ha =>
    by_cases hj : j = i <;> simp [Escrow.setAuction, Escrow.setActiveAuction, Escrow.enlist,
      Escrow.setSwap, Escrow.setNextId, hj] at ha'
    · exact .inl ⟨a, hj ▸ ha, by rw [← hb, ← ha']; rfl⟩
    · exact .inl ⟨a', ha', hb⟩
  | _ => exact .inl ⟨a', ha', hb⟩

theorem Move.Funded.backs (h : m.Funded) : c.Backs m := by
  cases m with
  | released i w => cases w <;> trivial
  | refunded i w => cases w <;> trivial
  | scheduled | rolledBack | adminRolledBack => exact h.elim
  | _ => trivial

theorem Solvent.covers (h : Solvent c) : Covered c := ⟨h.wf, h.covered⟩

theorem Solvent.payer (h : Solvent c) (hm : m.Funded) :
    c.payer? m ≠ some currentContractAddress := by
  cases m with
  | accepted i | installment i =>
    cases hr : c.swap i with
    | none => simp [Escrow.payer?, hr]
    | some r => simpa [Escrow.payer?, hr] using h.buyer i r hr
  | bid j bidder => exact fun heq => hm (Option.some.inj heq)
  | _ => simp [Escrow.payer?]

theorem Step.solvent (hstep : Step env c m c') (h : Solvent c) (hm : m.Funded) : Solvent c' where
  wf := hstep.wf h.wf
  buyer i r' hr' := by
    rcases hstep.origin hr' with ⟨r, hr, hterms⟩ | ⟨rfl, -⟩ | ⟨j, a, buyer, -, ha, hb, hwon⟩
    · have hbuyer : r'.buyer = r.buyer := congrArg Terms.buyer hterms
      exact hbuyer ▸ h.buyer _ _ hr
    · exact hm
    · exact hwon.buyer ▸ h.bidder _ _ _ ha hb
  bidder j a' b ha' hb := by
    rcases hstep.bidders ha' hb with ⟨a, ha, hb⟩ | rfl
    · exact h.bidder _ _ _ ha hb
    · exact hm
  covered := hstep.covered h.covers hm.backs (h.payer hm)

end Steps

def Call.parties : Call → List Address
  | .initiateSwap _ _ seller _ buyer _ referrer _ _ => seller :: buyer :: referrer.toList
  | .initiateSwapWithOraclePrice _ _ seller buyer _ referrer _ _ _ _ =>
      seller :: buyer :: referrer.toList
  | .batchInitiateSwap _ _ seller _ buyer _ referrer => seller :: buyer :: referrer.toList
  | .batchInitiateSwapWithInsurance _ _ seller _ buyer _ referrer _ =>
      seller :: buyer :: referrer.toList
  | .initiateSwapWithSchedule _ _ seller _ buyer => [seller, buyer]
  | .initiateEscrowSwap _ _ seller _ buyer _ => [seller, buyer]
  | .batchInitiateEscrow _ _ seller _ buyer _ => [seller, buyer]
  | .initiateSwapWithSigners _ _ seller _ buyer _ => [seller, buyer]
  | .startIpAuction _ _ seller _ _ => [seller]
  | .placeBid _ bidder _ => [bidder]
  | _ => []

/-- Every call but six, naming no party that is the contract itself. -/
def Call.KeepsEscrow : Call → Prop
  | .arbitrateSwap .. | .batchRevealKeys .. | .validateAndRollbackSwap ..
  | .adminRollbackSwap .. | .batchRollbackSwaps .. | .makeScheduledPayment .. => False
  | call => currentContractAddress ∉ call.parties

theorem Opens.funded {ipIds : List ℕ} {seller buyer : Address} {referrer : Option Address}
    {m : Move} (h : Opens ipIds seller buyer referrer m)
    (hbuyer : currentContractAddress ≠ buyer) : m.Funded := by
  obtain ⟨r, rfl, -, -, rfl, -⟩ := h
  exact hbuyer.symm

theorem Call.KeepsEscrow.funded {call : Call} {m : Move} (h : call.KeepsEscrow)
    (hm : call.yields m) : m.Funded := by
  cases call with
  | initiateSwap | initiateSwapWithOraclePrice | batchInitiateSwap
  | batchInitiateSwapWithInsurance | initiateSwapWithSchedule | initiateEscrowSwap
  | batchInitiateEscrow | initiateSwapWithSigners =>
    simp [Call.KeepsEscrow, Call.parties] at h
    exact Opens.funded hm (by simp [h])
  | placeBid i bidder amount =>
    simp [Call.KeepsEscrow, Call.parties] at h
    obtain rfl : m = .bid i bidder := hm
    exact fun e => h e.symm
  | arbitrateSwap | batchRevealKeys | validateAndRollbackSwap | adminRollbackSwap
  | batchRollbackSwaps | makeScheduledPayment => exact h.elim
  | batchAcceptSwaps | batchEscrowDeposit | batchCancelSwaps =>
    obtain ⟨i, -, rfl⟩ := hm
    trivial
  | submitInstallmentPayment =>
    obtain ⟨last, rfl⟩ := hm
    trivial
  | verifyAndCompleteSwap =>
    rcases hm with rfl | rfl <;> trivial
  | resolveDispute _ _ refunded =>
    obtain rfl := hm
    cases refunded <;> trivial
  | batchArbitrateSwaps _ _ refund =>
    obtain ⟨i, -, rfl⟩ := hm
    cases refund <;> trivial
  | startIpAuction =>
    obtain ⟨a, rfl, -⟩ := hm
    trivial
  | setOracle | upgrade | adminSetProtocolConfig | pause | unpause | initializeMultiCurrency
  | addSupportedToken | removeSupportedToken | approveSwap | setReputationMultiplier
  | signSwapReveal | requestArbitration => exact hm.elim
  | _ =>
    obtain rfl := hm
    trivial

theorem Solvent.empty {balance : Address → Address → ℤ}
    (hbalance : ∀ t, 0 ≤ balance t currentContractAddress) :
    Solvent (State.empty balance).escrow where
  wf := .empty balance
  buyer i r hr := by simp [State.escrow, State.empty] at hr
  bidder j a b ha := by simp [State.escrow, State.empty] at ha
  covered t := by
    have hnonneg := hbalance t
    simpa [Escrow.obligations, Escrow.pool, Escrow.count, Escrow.auctionCount, State.escrow,
      State.empty] using hnonneg

theorem ActStep.solvent {s s' : State} {act : Act} (hact : ActStep s act s')
    (hcall : ∀ call, act.call = some call → call.KeepsEscrow) (h : Solvent s.escrow) :
    Solvent s'.escrow := by
  obtain ⟨q, hmoves⟩ := hact.answers
  refine hmoves.invariant ?_ h
  intro c m c' hm hc hstep
  refine hstep.solvent hc ?_
  cases hcalled : act.call with
  | none =>
    have hreceived : m = .received := by simpa [Act.yields, hcalled] using hm.1
    rw [hreceived]
    trivial
  | some call =>
    have hyields : call.yields m := by simpa [Act.yields, hcalled] using hm.1
    exact (hcall call hcalled).funded hyields

/-- Solvency over runs: in every token the contract holds at least what it owes. -/
theorem obligations_covered {tr : List (Act × State)} {s : State}
    (h : Reaches (OnCalls fun _ _ call => call.KeepsEscrow) tr s) (t : Address) :
    s.escrow.obligations t ≤ s.balance t currentContractAddress := by
  obtain ⟨balance, hbalance, hrun⟩ := h
  have hsolvent := hrun.invariant (I := fun s => Solvent s.escrow) (.empty hbalance)
    fun _ _ _ hs hact => hact.1.solvent hact.2 hs
  exact hsolvent.covered t

theorem sale_covered : ∃ s, play (State.empty Scenario.funds) Scenario.sale = .ok s ∧
    s.escrow.obligations Scenario.token ≤ s.balance Scenario.token currentContractAddress := by
  obtain ⟨s, hplay⟩ : ∃ s, play (State.empty Scenario.funds) Scenario.sale = .ok s :=
    played_of_isOk (by decide)
  obtain ⟨tr, hreaches⟩ : ∃ tr, Reaches (OnCalls fun _ _ call => call.KeepsEscrow) tr s := by
    refine play_reaches hplay ?_ Scenario.funds_contract
    simp [Scenario.sale, Scenario.offer, OnCalls, Call.KeepsEscrow, Call.parties,
      currentContractAddress, Scenario.seller, Scenario.buyer]
  exact ⟨s, hplay, obligations_covered hreaches Scenario.token⟩

end AtomicIp.AtomicSwap
