import AtomicIp.Lib.Index
import AtomicIp.Swap.Listings

set_option autoImplicit false

namespace AtomicIp.AtomicSwap

open Function

def Purpose.isBid : Purpose → Bool
  | .bid _ => true
  | _ => false

def Move.auctions : Move → Bool
  | .auctionStarted _ | .bid .. | .finalized _ => true
  | _ => false

def Call.auctions : Call → Bool
  | .startIpAuction .. | .placeBid .. | .finalizeAuction _ => true
  | _ => false

structure House where
  auction : ℕ → Option AuctionRecord
  activeAuction : ℕ → Option ℕ
  count : ℕ
  bids : List TokenTransfer

def Escrow.house (c : Escrow) : House where
  auction := c.auction
  activeAuction := c.activeAuction
  count := c.auctionCount
  bids := c.transfers.filter fun x => x.ref.isBid

namespace House

variable (h : House)

def start (a : AuctionRecord) : House :=
  { h with auction := update h.auction h.count (some a),
           activeAuction := update h.activeAuction a.ipId (some h.count), count := h.count + 1 }

def bid (j : ℕ) (a : AuctionRecord) (bidder : Address) (amount : ℤ) : House :=
  { h with auction := update h.auction j (some (a.outbid bidder amount)),
           bids := h.bids ++ a.exchange j bidder amount }

def close (j : ℕ) (a : AuctionRecord) : House :=
  { h with auction := update h.auction j (some a.close),
           activeAuction := update h.activeAuction a.ipId none }

inductive Step (timestamp : ℕ) : House → Option Call → House → Prop where
  | started {h : House} {a : AuctionRecord} {duration : ℕ} (hbid : a.highestBid = 0)
      (hbidder : a.highestBidder = none) (hopen : a.finalized = false)
      (hfree : h.activeAuction a.ipId = none) :
      Step timestamp h (some (.startIpAuction a.token a.ipId a.seller a.minBid duration))
        (h.start a)
  | bid {h : House} {a : AuctionRecord} {j : ℕ} {bidder : Address} {amount : ℤ}
      (ha : h.auction j = some a) (hopen : a.finalized = false) (htime : timestamp < a.endTime)
      (hmin : a.minBid ≤ amount) (hmore : a.highestBid < amount) :
      Step timestamp h (some (.placeBid j bidder amount)) (h.bid j a bidder amount)
  | closed {h : House} {a : AuctionRecord} {j : ℕ} (ha : h.auction j = some a)
      (hopen : a.finalized = false) (htime : a.endTime ≤ timestamp) :
      Step timestamp h (some (.finalizeAuction j)) (h.close j a)
  | apart {h : House} {call : Option Call} (hcall : ∀ c, call = some c → c.auctions = false) :
      Step timestamp h call h

end House

section Refinement

variable {env : Env} {s s' : State} {u : Unit} {c c' : Escrow} {m : Move} {i : ℕ} {r : SwapRecord}
  {call : Call} {act : Act}

theorem funding_apart {price : ℤ} {deposits premium : Bool} :
    ∀ x ∈ funding i r price deposits premium, x.ref.isBid = false := by
  intro x hx
  revert x
  cases deposits <;> cases premium <;>
    simp [funding, depositOf, premiumOf, priceOf, Purpose.isBid]

theorem PaidFor.apart {P : Address → Prop} {total : ℤ} {ms : List TokenTransfer}
    (h : PaidFor i r P total ms) : ∀ x ∈ ms, x.ref.isBid = false := by
  intro x hx
  obtain ⟨-, -, href, -⟩ := h.escrowed x hx
  cases hpurpose : x.ref with
  | bid j => simp [hpurpose, Purpose.swap?] at href
  | _ => rfl

theorem Step.house (hstep : Step env c m c') (hm : m.auctions = false) : c'.house = c.house := by
  have hpay : ∀ (c₁ : Escrow) (ms : List TokenTransfer), (∀ x ∈ ms, x.ref.isBid = false) →
      (c₁.pay ms).house = c₁.house := by
    intro c₁ ms hms
    have hnone : ms.filter (fun x => x.ref.isBid) = [] :=
      List.filter_eq_nil_iff.mpr fun x hx => by simp [hms x hx]
    simp only [Escrow.house, Escrow.pay, List.filter_append, hnone, List.append_nil]
    rfl
  cases hstep with
  | accepted => exact hpay _ _ funding_apart
  | installment => exact hpay _ _ (by simp [priceOf, Purpose.isBid])
  | scheduled => exact hpay _ _ (by simp [priceOf, Purpose.isBid])
  | released hr hw hpaid => exact hpay _ _ hpaid.apart
  | refunded hr hw hpaid => exact hpay _ _ hpaid.apart
  | withdrawn hr hfrom hauth hpaid => exact hpay _ _ hpaid.apart
  | rolledBack hr hfrom hauth hpaid => exact hpay _ _ hpaid.apart
  | adminRolledBack hr hfrom hauth hpaid => exact hpay _ _ hpaid.apart
  | claimed => exact hpay _ _ (by simp [Purpose.isBid])
  | auctionStarted | bid | unsold | sold => cases hm
  | _ => rfl

theorem Call.yields_apart (hcall : call.auctions = false) (hm : call.yields m) :
    m.auctions = false := by
  cases m with
  | auctionStarted =>
    obtain ⟨token, minBid, duration, rfl⟩ := Call.yields_source hm
    cases hcall
  | bid =>
    obtain ⟨amount, rfl⟩ := Call.yields_source hm
    cases hcall
  | finalized =>
    obtain rfl := Call.yields_source hm
    cases hcall
  | _ => rfl

theorem startIpAuction_house {token seller : Address} {ipId duration id : ℕ} {minBid : ℤ}
    (h : startIpAuction env token ipId seller minBid duration s = .ok (id, s')) :
    House.Step env.timestamp s.escrow.house
      (some (.startIpAuction token ipId seller minBid duration)) s'.escrow.house := by
  simp [startIpAuction] at h
  obtain ⟨-, hauth, hmin, -, hfree, -, -, rfl, rfl⟩ := h
  simp only [State.escrow_published, State.escrow_setNextAuctionId, State.escrow_setActiveAuction,
    State.escrow_setAuction]
  exact .started (a := ⟨_, ipId, seller, token, minBid, 0, none, env.timestamp, _, false⟩)
    rfl rfl rfl hfree

theorem AuctionRecord.exchange_ref (a : AuctionRecord) {bidder : Address} {amount : ℤ} :
    ∀ x ∈ a.exchange i bidder amount, x.ref = .bid i := by
  intro x hx
  unfold exchange refund at hx
  cases hbidder : a.highestBidder with
  | none =>
    rw [hbidder] at hx
    rw [List.mem_singleton.mp hx]
  | some old =>
    rw [hbidder] at hx
    rcases List.mem_pair.mp hx with rfl | rfl <;> rfl

theorem placeBid_house {bidder : Address} {amount : ℤ}
    (h : placeBid env i bidder amount s = .ok (u, s')) :
    House.Step env.timestamp s.escrow.house (some (.placeBid i bidder amount))
      s'.escrow.house := by
  obtain ⟨a, ha, hopen, htime, -, hmin, hmore, -, hescrow⟩ := placeBid_escrow h
  have hbid : s'.escrow.house = s.escrow.house.bid i a bidder amount := by
    have hfilter : (a.exchange i bidder amount).filter (fun x => x.ref.isBid) =
        a.exchange i bidder amount :=
      List.filter_eq_self.mpr fun x hx => by rw [a.exchange_ref x hx]; rfl
    rw [hescrow]
    simp only [Escrow.house, Escrow.pay, List.filter_append, hfilter]
    rfl
  rw [hbid]
  exact .bid ha hopen htime hmin hmore

theorem Step.close_house {a : AuctionRecord} (hstep : Step env c (.finalized i) c')
    (ha : c.auction i = some a) : c'.house = c.house.close i a := by
  cases hstep with
  | unsold ha' | sold ha' =>
    obtain rfl := Option.some.inj (ha.symm.trans ha')
    rfl

theorem finalizeAuction_house (h : finalizeAuction env i s = .ok (u, s')) :
    House.Step env.timestamp s.escrow.house (some (.finalizeAuction i)) s'.escrow.house := by
  obtain ⟨a, ha, hopen, htime, -⟩ := finalizeAuction_closes h
  rw [(finalizeAuction_step h).close_house ha]
  exact .closed ha hopen htime

theorem ActStep.house (hact : ActStep s act s') :
    House.Step act.env.timestamp s.escrow.house act.call s'.escrow.house := by
  cases hact with
  | elsewhere => exact .apart (by simp)
  | @call _ env call hexec =>
    cases hcall : call.auctions with
    | false =>
      obtain ⟨q, hmoves⟩ := exec_answers hexec
      have hsame : s'.escrow.house = s.escrow.house := by
        refine hmoves.invariant (I := fun c => c.house = s.escrow.house) ?_ rfl
        intro c m c' hm hc hstep
        rw [hstep.house (Call.yields_apart hcall hm.1), hc]
      rw [hsame]
      exact .apart fun call' hcall' => by rwa [← Option.some.inj hcall']
    | true =>
      cases call with
      | startIpAuction =>
        obtain ⟨id, hexec⟩ := Tx.void_ok.mp hexec
        exact startIpAuction_house hexec
      | placeBid => exact placeBid_house hexec
      | finalizeAuction => exact finalizeAuction_house hexec
      | _ => cases hcall

end Refinement

def lastBid (j : ℕ) : List (Act × State) → Option (Address × ℤ)
  | [] => none
  | (act, _) :: tr =>
    match act.call with
    | some (.placeBid k bidder amount) => if k = j then some (bidder, amount) else lastBid j tr
    | _ => lastBid j tr

def Finalized (j : ℕ) (tr : List (Act × State)) : Prop :=
  ∃ p ∈ tr, p.1.call = some (.finalizeAuction j)

/-- What `a` has paid to the contract for the auction, less what has come back. -/
def netBid (ms : List TokenTransfer) (t : Address) (j : ℕ) (a : Address) : ℤ :=
  amountOf (fun x => x.ref = .bid j ∧ x.token = t ∧ x.src = a ∧ x.dst = currentContractAddress) ms -
    amountOf (fun x => x.ref = .bid j ∧ x.token = t ∧ x.src = currentContractAddress ∧ x.dst = a) ms

/-- The record of an auction shows its last bid, which is all that is left of the bids. -/
structure Tracked (tr : List (Act × State)) (bids : List TokenTransfer) (j : ℕ)
    (a : AuctionRecord) : Prop where
  last : a.highestBidder = (lastBid j tr).map Prod.fst ∧
    a.highestBid = ((lastBid j tr).map Prod.snd).getD 0
  floor : ∀ b, a.highestBidder = some b → a.minBid ≤ a.highestBid ∧ b ≠ currentContractAddress
  finalized : a.finalized = true ↔ Finalized j tr
  net : ∀ t b, b ≠ currentContractAddress → netBid bids t j b =
    if a.token = t ∧ a.highestBidder = some b then a.highestBid else 0

structure House.Kept (tr : List (Act × State)) (h : House) : Prop where
  below : ∀ j a, h.auction j = some a → j < h.count
  unborn : ∀ j, h.auction j = none →
    lastBid j tr = none ∧ ¬ Finalized j tr ∧ ∀ x ∈ h.bids, x.ref ≠ .bid j
  tracked : ∀ j a, h.auction j = some a → Tracked tr h.bids j a
  active : ∀ j a, h.auction j = some a → a.finalized = false → h.activeAuction a.ipId = some j

section Tracking

variable {tr : List (Act × State)} {act : Act} {s' : State} {j : ℕ} {bidder b t : Address}
  {amount : ℤ} {a : AuctionRecord} {ms bids : List TokenTransfer}

theorem lastBid_apart (h : ∀ bidder amount, act.call ≠ some (.placeBid j bidder amount)) :
    lastBid j ((act, s') :: tr) = lastBid j tr := by
  rw [lastBid]
  split
  · rename_i k bidder amount hcall
    by_cases hk : k = j
    · subst hk
      exact absurd hcall (h bidder amount)
    · rw [if_neg hk]
  · rfl

theorem lastBid_bid (h : act.call = some (.placeBid j bidder amount)) :
    lastBid j ((act, s') :: tr) = some (bidder, amount) := by
  rw [lastBid, h]
  exact if_pos rfl

theorem finalized_cons :
    Finalized j ((act, s') :: tr) ↔ act.call = some (.finalizeAuction j) ∨ Finalized j tr := by
  simp [Finalized]

theorem finalized_apart (h : act.call ≠ some (.finalizeAuction j)) :
    Finalized j ((act, s') :: tr) ↔ Finalized j tr :=
  finalized_cons.trans (or_iff_right h)

theorem netBid_append : netBid (bids ++ ms) t j b = netBid bids t j b + netBid ms t j b := by
  simp only [netBid, amountOf_append]
  omega

theorem netBid_apart (h : ∀ x ∈ ms, x.ref ≠ .bid j) : netBid ms t j b = 0 := by
  rw [netBid, amountOf_none (fun x hx => by simp [h x hx]),
    amountOf_none (fun x hx => by simp [h x hx])]
  rfl

theorem netBid_refund (hb : b ≠ currentContractAddress) : netBid (a.refund j) t j b =
    if a.token = t ∧ a.highestBidder = some b then -a.highestBid else 0 := by
  unfold AuctionRecord.refund
  cases hbidder : a.highestBidder with
  | none => simp [netBid]
  | some old =>
    simp [netBid, amountOf_cons, Ne.symm hb, and_comm]
    split_ifs <;> rfl

theorem netBid_payment (hb : b ≠ currentContractAddress) :
    netBid [⟨a.token, bidder, currentContractAddress, amount, .bid j⟩] t j b =
      if a.token = t ∧ bidder = b then amount else 0 := by
  simp [netBid, amountOf_cons, Ne.symm hb]

theorem Tracked.apart (h : Tracked tr bids j a)
    (hbid : ∀ bidder amount, act.call ≠ some (.placeBid j bidder amount))
    (hclose : act.call ≠ some (.finalizeAuction j)) : Tracked ((act, s') :: tr) bids j a where
  last := by
    rw [lastBid_apart hbid]
    exact h.last
  floor := h.floor
  finalized := h.finalized.trans (finalized_apart hclose).symm
  net := h.net

theorem Tracked.others (h : Tracked tr bids j a) (hms : ∀ x ∈ ms, x.ref ≠ .bid j) :
    Tracked tr (bids ++ ms) j a where
  last := h.last
  floor := h.floor
  finalized := h.finalized
  net t b hb := by
    rw [netBid_append, netBid_apart hms, h.net t b hb, add_zero]

theorem Tracked.born (hbid : a.highestBid = 0) (hbidder : a.highestBidder = none)
    (hopen : a.finalized = false) (hlast : lastBid j tr = none) (hfinal : ¬ Finalized j tr)
    (hbids : ∀ x ∈ bids, x.ref ≠ .bid j) : Tracked tr bids j a where
  last := by simp [hlast, hbid, hbidder]
  floor b hb := by simp [hbidder] at hb
  finalized := by simp [hopen, hfinal]
  net t b hb := by simp [netBid_apart hbids, hbidder]

/-- The new bid takes the place of the old one, also of the bidder's own. -/
theorem Tracked.outbid (h : Tracked tr bids j a)
    (hcall : act.call = some (.placeBid j bidder amount))
    (hbidder : bidder ≠ currentContractAddress)
    (hmin : a.minBid ≤ amount) :
    Tracked ((act, s') :: tr) (bids ++ a.exchange j bidder amount) j (a.outbid bidder amount) where
  last := by
    rw [lastBid_bid hcall]
    exact ⟨rfl, rfl⟩
  floor b hb := by
    obtain rfl := Option.some.inj hb
    exact ⟨hmin, hbidder⟩
  finalized := by
    rw [finalized_apart (by simp [hcall])]
    exact h.finalized
  net t b hb := by
    rw [netBid_append, h.net t b hb, AuctionRecord.exchange, netBid_append, netBid_refund hb,
      netBid_payment hb]
    simp only [AuctionRecord.outbid, Option.some.injEq]
    split_ifs <;> omega

theorem Tracked.close (h : Tracked tr bids j a) (hcall : act.call = some (.finalizeAuction j)) :
    Tracked ((act, s') :: tr) bids j a.close where
  last := by
    rw [lastBid_apart (by simp [hcall])]
    exact h.last
  floor := h.floor
  finalized := iff_of_true rfl (finalized_cons.mpr (.inl hcall))
  net := h.net

variable {h h' : House}

theorem House.Kept.unborn_apart (hkept : h.Kept tr) (hj : h.auction j = none)
    (hbid : ∀ bidder amount, act.call ≠ some (.placeBid j bidder amount))
    (hclose : act.call ≠ some (.finalizeAuction j)) :
    lastBid j ((act, s') :: tr) = none ∧ ¬ Finalized j ((act, s') :: tr) ∧
      ∀ x ∈ h.bids, x.ref ≠ .bid j := by
  obtain ⟨hlast, hfinal, hbids⟩ := hkept.unborn j hj
  exact ⟨(lastBid_apart hbid).trans hlast, fun hf => hfinal ((finalized_apart hclose).mp hf), hbids⟩

theorem House.Kept.started (hkept : h.Kept tr) (hbid : a.highestBid = 0)
    (hbidder : a.highestBidder = none) (hopen : a.finalized = false)
    (hfree : h.activeAuction a.ipId = none) (hcall : ∃ token ipId seller minBid duration,
      act.call = some (.startIpAuction token ipId seller minBid duration)) :
    (h.start a).Kept ((act, s') :: tr) := by
  obtain ⟨token, ipId, seller, minBid, duration, hcall⟩ := hcall
  have hnone : ∀ k, h.auction k = none → lastBid k ((act, s') :: tr) = none ∧
      ¬ Finalized k ((act, s') :: tr) ∧ ∀ x ∈ h.bids, x.ref ≠ .bid k :=
    fun k hk => hkept.unborn_apart hk (by simp [hcall]) (by simp [hcall])
  have hfresh : h.auction h.count = none := by
    cases hold : h.auction h.count with
    | none => rfl
    | some old => exact absurd (hkept.below _ _ hold) (Nat.lt_irrefl _)
  have hcases : ∀ k a', (h.start a).auction k = some a' →
      (k = h.count ∧ a' = a) ∨ (k ≠ h.count ∧ h.auction k = some a') := fun _ _ => update_eq_some
  refine ⟨fun k a' ha' => ?_, fun k hk => ?_, fun k a' ha' => ?_, fun k a' ha' hopen' => ?_⟩
  · rcases hcases k a' ha' with ⟨rfl, -⟩ | ⟨-, hold⟩
    · exact Nat.lt_succ_self _
    · exact Nat.lt_succ_of_lt (hkept.below k a' hold)
  · refine hnone k ?_
    by_cases hcount : k = h.count
    · rw [hcount, hfresh]
    · exact (update_of_ne hcount _ _).symm.trans hk
  · rcases hcases k a' ha' with ⟨rfl, rfl⟩ | ⟨-, hold⟩
    · obtain ⟨hlast, hfinal, hbids⟩ := hnone _ hfresh
      exact .born hbid hbidder hopen hlast hfinal hbids
    · exact (hkept.tracked k a' hold).apart (by simp [hcall]) (by simp [hcall])
  · rcases hcases k a' ha' with ⟨rfl, rfl⟩ | ⟨-, hold⟩
    · exact update_self _ _ _
    · have hactive := hkept.active k a' hold hopen'
      have hip : a'.ipId ≠ a.ipId := fun e => by
        rw [e, hfree] at hactive
        cases hactive
      exact (update_of_ne hip _ _).trans hactive

theorem House.Kept.outbid (hkept : h.Kept tr) (ha : h.auction j = some a)
    (hcall : act.call = some (.placeBid j bidder amount))
    (hbidder : bidder ≠ currentContractAddress)
    (hmin : a.minBid ≤ amount) : (h.bid j a bidder amount).Kept ((act, s') :: tr) := by
  have hcases : ∀ k a', (h.bid j a bidder amount).auction k = some a' →
      (k = j ∧ a' = a.outbid bidder amount) ∨ (k ≠ j ∧ h.auction k = some a') :=
    fun _ _ => update_eq_some
  have hothers : ∀ k, k ≠ j → ∀ x ∈ a.exchange j bidder amount, x.ref ≠ .bid k := by
    intro k hk x hx href
    rw [a.exchange_ref x hx] at href
    exact hk (Purpose.bid.inj href).symm
  refine ⟨fun k a' ha' => ?_, fun k hk => ?_, fun k a' ha' => ?_, fun k a' ha' hopen' => ?_⟩
  · rcases hcases k a' ha' with ⟨rfl, -⟩ | ⟨-, hold⟩
    · exact hkept.below k a ha
    · exact hkept.below k a' hold
  · have hkj : k ≠ j := by
      rintro rfl
      simp [bid] at hk
    have hnone : h.auction k = none := (update_of_ne hkj _ _).symm.trans hk
    obtain ⟨hlast, hfinal, hbids⟩ : lastBid k ((act, s') :: tr) = none ∧
        ¬ Finalized k ((act, s') :: tr) ∧ ∀ x ∈ h.bids, x.ref ≠ .bid k :=
      hkept.unborn_apart hnone (by simp [hcall, Ne.symm hkj]) (by simp [hcall])
    refine ⟨hlast, hfinal, fun x hx => ?_⟩
    exact (List.mem_append.mp hx).elim (hbids x) (hothers k hkj x)
  · rcases hcases k a' ha' with ⟨rfl, rfl⟩ | ⟨hkj, hold⟩
    · exact (hkept.tracked k a ha).outbid hcall hbidder hmin
    · exact ((hkept.tracked k a' hold).apart (by simp [hcall, Ne.symm hkj])
        (by simp [hcall])).others (hothers k hkj)
  · rcases hcases k a' ha' with ⟨rfl, rfl⟩ | ⟨-, hold⟩
    · exact hkept.active k a ha hopen'
    · exact hkept.active k a' hold hopen'

theorem House.Kept.closed (hkept : h.Kept tr) (ha : h.auction j = some a)
    (hopen : a.finalized = false) (hcall : act.call = some (.finalizeAuction j)) :
    (h.close j a).Kept ((act, s') :: tr) := by
  have hcases : ∀ k a', (h.close j a).auction k = some a' →
      (k = j ∧ a' = a.close) ∨ (k ≠ j ∧ h.auction k = some a') := fun _ _ => update_eq_some
  refine ⟨fun k a' ha' => ?_, fun k hk => ?_, fun k a' ha' => ?_, fun k a' ha' hopen' => ?_⟩
  · rcases hcases k a' ha' with ⟨rfl, -⟩ | ⟨-, hold⟩
    · exact hkept.below k a ha
    · exact hkept.below k a' hold
  · have hkj : k ≠ j := by
      rintro rfl
      simp [close] at hk
    exact hkept.unborn_apart ((update_of_ne hkj _ _).symm.trans hk) (by simp [hcall])
      (by simp [hcall, Ne.symm hkj])
  · rcases hcases k a' ha' with ⟨rfl, rfl⟩ | ⟨hkj, hold⟩
    · exact (hkept.tracked k a ha).close hcall
    · exact (hkept.tracked k a' hold).apart (by simp [hcall]) (by simp [hcall, Ne.symm hkj])
  · rcases hcases k a' ha' with ⟨rfl, rfl⟩ | ⟨hkj, hold⟩
    · cases hopen'
    · have hactive := hkept.active k a' hold hopen'
      have hip : a'.ipId ≠ a.ipId := fun e => by
        rw [e, hkept.active j a ha hopen] at hactive
        exact hkj (Option.some.inj hactive).symm
      exact (update_of_ne hip _ _).trans hactive

theorem House.Kept.apart (hkept : h.Kept tr)
    (hcall : ∀ c, act.call = some c → c.auctions = false) : h.Kept ((act, s') :: tr) := by
  have hbid : ∀ k bidder amount, act.call ≠ some (.placeBid k bidder amount) :=
    fun k bidder amount h => by cases hcall _ h
  have hclose : ∀ k, act.call ≠ some (.finalizeAuction k) := fun k h => by cases hcall _ h
  exact ⟨hkept.below, fun k hk => hkept.unborn_apart hk (hbid k) (hclose k),
    fun k a ha => (hkept.tracked k a ha).apart (hbid k) (hclose k), hkept.active⟩

theorem House.Kept.step (hkept : h.Kept tr)
    (hstep : House.Step act.env.timestamp h act.call h')
    (hcond : ∀ j amount, act.call ≠ some (.placeBid j currentContractAddress amount)) :
    h'.Kept ((act, s') :: tr) := by
  generalize hc : act.call = call at hstep hcond
  cases hstep with
  | started hbid hbidder hopen hfree =>
    exact hkept.started hbid hbidder hopen hfree ⟨_, _, _, _, _, hc⟩
  | bid ha hopen htime hmin hmore => exact hkept.outbid ha hc (fun e => hcond _ _ (by rw [e])) hmin
  | closed ha hopen htime => exact hkept.closed ha hopen hc
  | apart hcall => exact hkept.apart (by rwa [hc])

theorem netBid_filter : netBid (ms.filter fun x => x.ref.isBid) t j b = netBid ms t j b := by
  have hsel : ∀ sel : TokenTransfer → Bool, (∀ x, sel x = true → x.ref.isBid = true) →
      amountOf sel (ms.filter fun x => x.ref.isBid) = amountOf sel ms := by
    intro sel hsub
    rw [amountOf, amountOf, List.filter_filter]
    congr 2
    refine List.filter_congr fun x _ => ?_
    cases hx : sel x with
    | false => rfl
    | true => simp [hsub x hx]
  have hbid : ∀ x : TokenTransfer, x.ref = .bid j → x.ref.isBid = true :=
    fun x hx => by rw [hx]; rfl
  rw [netBid, netBid, hsel _ fun x hx => hbid x (of_decide_eq_true hx).1,
    hsel _ fun x hx => hbid x (of_decide_eq_true hx).1]

end Tracking

/-- The contract itself never bids. -/
def NeverBids (_s : State) (_env : Env) : Call → Prop
  | .placeBid _ bidder _ => bidder ≠ currentContractAddress
  | _ => True

/-- What one step does to the auctions, and what a finalised one ends in. -/
structure AuctionStep (past : List (Act × State)) (s : State) (act : Act) (s' : State) : Prop where
  bid : ∀ j bidder amount, act.call = some (.placeBid j bidder amount) →
    ∃ a, s.auction j = some a ∧ a.minBid ≤ amount ∧ a.highestBid < amount ∧
      act.env.timestamp < a.endTime ∧ ¬ Finalized j past ∧
      s'.auction j = some (a.outbid bidder amount)
  finalized : ∀ j, act.call = some (.finalizeAuction j) →
    ∃ a, s.auction j = some a ∧ a.endTime ≤ act.env.timestamp ∧ ¬ Finalized j past ∧
      s'.auction j = some a.close ∧ (lastBid j past = none → s'.swap = s.swap) ∧
      ∀ buyer price, lastBid j past = some (buyer, price) → ∃ i r, s.swap i = none ∧
        s'.swap = update s.swap i (some r) ∧ r.status = .accepted ∧ r.buyer = buyer ∧
        r.price = price ∧ r.ipId = a.ipId ∧ r.seller = a.seller ∧ r.token = a.token
  others : ∀ j a, s.auction j = some a →
    (∀ bidder amount, act.call ≠ some (.placeBid j bidder amount)) →
    act.call ≠ some (.finalizeAuction j) → s'.auction j = some a

section Runs

variable {tr past : List (Act × State)} {act : Act} {s s' : State} {j : ℕ} {a : AuctionRecord}

theorem House.Kept.empty (balance : Address → Address → ℤ) :
    (State.empty balance).escrow.house.Kept [] where
  below j a ha := by cases ha
  unborn j _ := ⟨rfl, by simp [Finalized], by simp [State.empty, State.escrow, Escrow.house]⟩
  tracked j a ha := by cases ha
  active j a ha := by cases ha

theorem Step.auction_ends {env : Env} {c c' : Escrow}
    (hstep : AtomicSwap.Step env c (.finalized j) c')
    (hwf : Wf c) (ha : c.auction j = some a) :
    (a.highestBidder = none → c'.swap = c.swap) ∧
      ∀ buyer, a.highestBidder = some buyer → ∃ i r, c.swap i = none ∧
        c'.swap = update c.swap i (some r) ∧ WonBy a buyer r := by
  cases hstep with
  | unsold ha' hopen hnone =>
    obtain rfl := Option.some.inj (ha.symm.trans ha')
    exact ⟨fun _ => rfl, fun buyer hbuyer => by simp [hnone] at hbuyer⟩
  | @sold _ _ _ r ha' hopen hwon hr =>
    obtain rfl := Option.some.inj (ha.symm.trans ha')
    refine ⟨fun hnone => by simp [hnone] at hwon, fun buyer hbuyer => ?_⟩
    obtain rfl := Option.some.inj (hwon.symm.trans hbuyer)
    exact ⟨c.count, r, hwf.fresh, rfl, hr⟩

theorem House.Kept.open_unfinalized (hkept : s.escrow.house.Kept past) (ha : s.auction j = some a)
    (hopen : a.finalized = false) : ¬ Finalized j past := fun h => by
  have hclosed := (hkept.tracked j a ha).finalized.mpr h
  rw [hopen] at hclosed
  cases hclosed

theorem ActStep.auctionStep (hact : ActStep s act s') (hwf : Wf s.escrow)
    (hkept : s.escrow.house.Kept past) : AuctionStep past s act s' where
  bid j bidder amount hcall := by
    have hstep := hact.house
    rw [hcall] at hstep
    generalize hh : s'.escrow.house = h' at hstep
    cases hstep with
    | @bid a _ _ _ ha hopen htime hmin hmore =>
      have hauction : s'.auction = _ := congrArg House.auction hh
      exact ⟨a, ha, hmin, hmore, htime, hkept.open_unfinalized ha hopen,
        by rw [hauction]; exact update_self _ _ _⟩
    | apart happart => cases happart _ rfl
  finalized j hcall := by
    cases hact with
    | elsewhere => cases hcall
    | @call _ env call hexec =>
      obtain rfl := Option.some.inj hcall
      have hstep := finalizeAuction_step hexec
      obtain ⟨a, ha, hopen⟩ := hstep.finalized_open
      have hlast := (hkept.tracked j a ha).last
      obtain ⟨hunsold, hsold⟩ := hstep.auction_ends hwf ha
      have hclosed : s'.auction = _ := congrArg House.auction (hstep.close_house ha)
      simp [exec, finalizeAuction] at hexec
      obtain ⟨a₁, ha₁, -, htime, -⟩ := hexec
      obtain rfl := Option.some.inj (ha.symm.trans ha₁)
      refine ⟨a, ha, htime, hkept.open_unfinalized ha hopen,
        by rw [hclosed]; exact update_self _ _ _, fun hnone => ?_, fun buyer price hbid => ?_⟩
      · exact hunsold (by rw [hlast.1, hnone]; rfl)
      · obtain ⟨i, r, hfresh, hswap, hwon⟩ := hsold buyer (by rw [hlast.1, hbid]; rfl)
        have hprice : a.highestBid = price := by rw [hlast.2, hbid]; rfl
        exact ⟨i, r, hfresh, hswap, hwon.status, hwon.buyer, hwon.price.trans hprice, hwon.ipId,
          hwon.seller, hwon.token⟩
  others j a ha hbid hclose := by
    have hstep := hact.house
    generalize hh : s'.escrow.house = h', hc : act.call = call at hstep
    have hauction : s'.auction = h'.auction := congrArg House.auction hh
    rw [hauction]
    cases hstep with
    | started =>
      have hold : j ≠ s.escrow.house.count := Nat.ne_of_lt (hkept.below j a ha)
      exact (update_of_ne hold _ _).trans ha
    | @bid _ k bidder amount =>
      have hk : j ≠ k := fun e => hbid bidder amount (by rw [hc, e])
      exact (update_of_ne hk _ _).trans ha
    | @closed _ k =>
      have hk : j ≠ k := fun e => hclose (by rw [hc, e])
      exact (update_of_ne hk _ _).trans ha
    | apart => exact ha

/-- Auctions go by the bids: the record of each shows the last one, which is the most its bidder
has in the contract on its account, and the others have nothing. -/
theorem auctions_follow_bids {balance : Address → Address → ℤ}
    (hrun : Run (Restrict ActStep (OnCalls NeverBids)) (State.empty balance) tr s) :
    (∀ j k a b, s.auction j = some a → s.auction k = some b → a.finalized = false →
      b.finalized = false → a.ipId = b.ipId → j = k) ∧
    (∀ j a, s.auction j = some a → Tracked tr s.transfers j a) ∧
    ∀ past s₁ act s₂, (past, s₁, act, s₂) ∈ steps (State.empty balance) tr →
      AuctionStep past s₁ act s₂ := by
  obtain ⟨⟨hwf, hkept⟩, hsteps⟩ := hrun.forall_steps
    (I := fun tr s => Wf s.escrow ∧ s.escrow.house.Kept tr)
    ⟨.empty balance, .empty balance⟩ fun past s₁ act s₂ hI hact => by
      obtain ⟨hwf, hkept⟩ := hI
      have hcond : ∀ j amount, act.call ≠ some (.placeBid j currentContractAddress amount) :=
        fun j amount hcall => hact.2 _ hcall rfl
      exact ⟨⟨hact.1.wf hwf, hkept.step hact.1.house hcond⟩, hact.1.auctionStep hwf hkept⟩
  refine ⟨fun j k a b ha hb hopen hopen' hip => ?_, fun j a ha => ?_, hsteps⟩
  · have hj := hkept.active j a ha hopen
    rw [hip, hkept.active k b hb hopen'] at hj
    exact (Option.some.inj hj).symm
  · have htracked := hkept.tracked j a ha
    exact ⟨htracked.last, htracked.floor, htracked.finalized, fun t b hb =>
      netBid_filter.symm.trans (htracked.net t b hb)⟩

end Runs

section Bidding

open Scenario

def bidding : List (Env × Call) :=
  [(env [] 0, .initializeContract registry),
    (env [seller] 1, .startIpAuction token 1 seller 500 10),
    (env [buyer] 2, .placeBid 0 buyer 600)]

theorem buyer_outbid : ∃ tr s, Run (Restrict ActStep (OnCalls NeverBids)) (State.empty funds) tr s ∧
    netBid s.transfers token 0 buyer = 0 ∧ netBid s.transfers token 0 stranger = 700 := by
  obtain ⟨tr, s₁, s₂, hrun, hexec, hseen⟩ := watched (OnCalls NeverBids) funds bidding
    (env [stranger] 3) (.placeBid 0 stranger 700)
    (fun _ s => (s.auction 0).any fun a => a.token = token ∧ a.highestBidder = some stranger ∧
      a.highestBid = 700) (by decide)
    (by simp [bidding, OnCalls, NeverBids, buyer, currentContractAddress])
  have hrun' := hrun.next (k := ⟨env [stranger] 3, some (.placeBid 0 stranger 700)⟩)
    ⟨.call hexec, by simp [OnCalls, NeverBids, stranger, currentContractAddress]⟩
  obtain ⟨a, ha, hrecord⟩ := (Option.any_eq_true _ _).mp hseen
  obtain ⟨htoken, hbidder, hbid⟩ := of_decide_eq_true hrecord
  have htracked := (auctions_follow_bids hrun').2.1 0 a ha
  refine ⟨_, s₂, hrun', ?_, ?_⟩
  · rw [htracked.net token buyer (by decide), if_neg (by simp [hbidder, stranger, buyer])]
  · rw [htracked.net token stranger (by decide), if_pos ⟨htoken, hbidder⟩, hbid]

end Bidding

end AtomicIp.AtomicSwap
