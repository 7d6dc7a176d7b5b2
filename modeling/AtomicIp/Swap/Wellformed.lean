import AtomicIp.Swap.Refine.Contract

set_option autoImplicit false

namespace AtomicIp.AtomicSwap

open Function

structure SwapRecord.Sound (r : SwapRecord) : Prop where
  price : 0 < r.price
  quantity : r.status = .pending → r.quantity = 1
  paid : 0 ≤ r.paidAmount
  premium : 0 ≤ r.insurancePremium

structure AuctionRecord.Sound (a : AuctionRecord) : Prop where
  minBid : 0 < a.minBid
  unbid : a.highestBidder = none → a.highestBid = 0
  bid : ∀ bidder, a.highestBidder = some bidder → 0 < a.highestBid

structure Wf (c : Escrow) : Prop where
  stored : ∀ i r, c.swap i = some r → i < c.count ∧ r.Sound
  collateral : ∀ i x, c.swapCollateral i = some x →
    ∃ r, c.swap i = some r ∧ 0 < r.collateralAmount ∧ x = r.collateralAmount
  deposit : ∀ i d, c.escrowDeposit i = some d →
    ∃ r, c.swap i = some r ∧ r.status ≠ .pending ∧ d = r.price
  offer : ∀ i o, c.swapRenegotiations i = some o → 0 < o.newPrice
  auction : ∀ i a, c.auction i = some a → i < c.auctionCount ∧ a.Sound
  claimable : ∀ i, c.insuranceClaimable i = none

namespace Wf

variable {c : Escrow} {i : ℕ} {r : SwapRecord}

theorem unused (h : Wf c) (hi : c.count ≤ i) : c.swap i = none := by
  cases hr : c.swap i with
  | none => rfl
  | some r => exact absurd (h.stored i r hr).1 (not_lt.mpr hi)

theorem fresh (h : Wf c) : c.swap c.count = none := h.unused le_rfl

theorem unbacked (h : Wf c) (hi : c.swap i = none) : c.swapCollateral i = none := by
  cases hx : c.swapCollateral i with
  | none => rfl
  | some x =>
    obtain ⟨r, hr, -⟩ := h.collateral _ _ hx
    simp [hi] at hr

theorem undeposited (h : Wf c) (hi : c.swap i = none) : c.escrowDeposit i = none := by
  cases hx : c.escrowDeposit i with
  | none => rfl
  | some x =>
    obtain ⟨r, hr, -⟩ := h.deposit _ _ hx
    simp [hi] at hr

section Writes

theorem setSwap (h : Wf c) (r' : SwapRecord) (hr : c.swap i = some r) (hterms : r'.terms = r.terms)
    (hsound : r'.Sound)
    (hprice : r.status ≠ .pending → r'.status ≠ .pending ∧ r'.price = r.price) :
    Wf (c.setSwap i (some r')) where
  stored j rj hj := by
    by_cases hji : j = i
    · simp [Escrow.setSwap, hji] at hj
      have hi := (h.stored _ _ hr).1
      exact ⟨hji ▸ hi, hj ▸ hsound⟩
    · simp [Escrow.setSwap, hji] at hj
      exact h.stored j rj hj
  collateral j x hx := by
    obtain ⟨rj, hj, hpos, rfl⟩ := h.collateral j x hx
    by_cases hji : j = i
    · subst hji
      obtain rfl := Option.some.inj (hr.symm.trans hj)
      have hcollateral := congrArg Terms.collateralAmount hterms
      simp only [SwapRecord.terms] at hcollateral
      exact ⟨r', by simp [Escrow.setSwap], by omega, hcollateral.symm⟩
    · exact ⟨rj, by simp [Escrow.setSwap, hji, hj], hpos, rfl⟩
  deposit j d hd := by
    obtain ⟨rj, hj, hst, rfl⟩ := h.deposit j d hd
    by_cases hji : j = i
    · subst hji
      obtain rfl := Option.some.inj (hr.symm.trans hj)
      obtain ⟨hst', hp⟩ := hprice hst
      exact ⟨r', by simp [Escrow.setSwap], hst', hp.symm⟩
    · exact ⟨rj, by simp [Escrow.setSwap, hji, hj], hst, rfl⟩
  offer := h.offer
  auction := h.auction
  claimable := h.claimable

theorem setActiveSwap (h : Wf c) (key : ℕ) (entry : Option ℕ) :
    Wf (c.setActiveSwap key entry) :=
  ⟨h.stored, h.collateral, h.deposit, h.offer, h.auction, h.claimable⟩

theorem setActiveAuction (h : Wf c) (key : ℕ) (entry : Option ℕ) :
    Wf (c.setActiveAuction key entry) :=
  ⟨h.stored, h.collateral, h.deposit, h.offer, h.auction, h.claimable⟩

theorem setInsurancePool (h : Wf c) (key : Address) (entry : Option ℤ) :
    Wf (c.setInsurancePool key entry) :=
  ⟨h.stored, h.collateral, h.deposit, h.offer, h.auction, h.claimable⟩

theorem pay (h : Wf c) (ms : List TokenTransfer) : Wf (c.pay ms) :=
  ⟨h.stored, h.collateral, h.deposit, h.offer, h.auction, h.claimable⟩

theorem collectPremium (h : Wf c) (premium : Bool) (r : SwapRecord) :
    Wf (c.collectPremium premium r) :=
  ⟨h.stored, h.collateral, h.deposit, h.offer, h.auction, h.claimable⟩

theorem close (h : Wf c) {status : SwapStatus} (hr : c.swap i = some r)
    (hto : status ≠ .pending) : Wf (c.close i r status) := by
  have hsound := (h.stored _ _ hr).2
  exact (h.setSwap (r.withStatus status) hr rfl ⟨hsound.price, fun hst => absurd hst hto,
    hsound.paid, hsound.premium⟩ fun _ => ⟨hto, rfl⟩).setActiveSwap _ _

theorem release (h : Wf c) (i : ℕ) (o : Option ℤ) : Wf (c.release i o) where
  stored := h.stored
  collateral j x hx := by
    by_cases hji : j = i <;> cases o <;> simp [Escrow.release, hji] at hx
    · exact h.collateral j x (hji ▸ hx)
    · exact h.collateral j x hx
    · exact h.collateral j x hx
  deposit := h.deposit
  offer := h.offer
  auction := h.auction
  claimable := h.claimable

theorem lockCollateral (h : Wf c) {deposits : Bool} (hr : c.swap i = some r)
    (hpos : deposits = true → 0 < r.collateralAmount) :
    Wf (c.lockCollateral deposits i r) where
  stored := h.stored
  collateral j x hx := by
    cases deposits with
    | false => exact h.collateral j x hx
    | true =>
      by_cases hji : j = i
      · simp [Escrow.lockCollateral, hji] at hx
        exact ⟨r, hji ▸ hr, hpos rfl, hx.symm⟩
      · simp [Escrow.lockCollateral, hji] at hx
        exact h.collateral j x hx
  deposit := h.deposit
  offer := h.offer
  auction := h.auction
  claimable := h.claimable

theorem recordDeposit (h : Wf c) (escrowed : Bool) (hr : c.swap i = some r)
    (hst : r.status ≠ .pending) : Wf (c.recordDeposit escrowed i r.price) where
  stored := h.stored
  collateral := h.collateral
  deposit j d hd := by
    cases escrowed with
    | false => exact h.deposit j d hd
    | true =>
      by_cases hji : j = i
      · simp [Escrow.recordDeposit, hji] at hd
        exact ⟨r, hji ▸ hr, hst, hd.symm⟩
      · simp [Escrow.recordDeposit, hji] at hd
        exact h.deposit j d hd
  offer := h.offer
  auction := h.auction
  claimable := h.claimable

theorem forgetDeposit (h : Wf c) (i : ℕ) : Wf (c.setEscrowDeposit i none) where
  stored := h.stored
  collateral := h.collateral
  deposit j d hd := by
    by_cases hji : j = i <;> simp [Escrow.setEscrowDeposit, hji] at hd
    exact h.deposit j d hd
  offer := h.offer
  auction := h.auction
  claimable := h.claimable

theorem setSwapRenegotiations (h : Wf c) {o : Option RenegotiationOffer}
    (hpos : ∀ offer, o = some offer → 0 < offer.newPrice) :
    Wf (c.setSwapRenegotiations i o) where
  stored := h.stored
  collateral := h.collateral
  deposit := h.deposit
  offer j offer hoffer := by
    by_cases hji : j = i <;> simp [Escrow.setSwapRenegotiations, hji] at hoffer
    · exact hpos offer hoffer
    · exact h.offer j offer hoffer
  auction := h.auction
  claimable := h.claimable

theorem enlist (h : Wf c) (hsound : r.Sound) : Wf (c.enlist r) where
  stored j rj hj := by
    by_cases hji : j = c.count <;>
      simp [Escrow.enlist, Escrow.setSwap, Escrow.setNextId, hji] at hj
    · exact ⟨by simp [Escrow.enlist, Escrow.setNextId, Escrow.count, hji], hj ▸ hsound⟩
    · have hlt := (h.stored j rj hj).1
      exact ⟨by simp [Escrow.enlist, Escrow.setNextId, Escrow.count] at hlt ⊢; omega,
        (h.stored j rj hj).2⟩
  collateral j x hx := by
    obtain ⟨rj, hj, hpos, rfl⟩ := h.collateral j x hx
    have hne := (h.stored j rj hj).1.ne
    exact ⟨rj, by simp [Escrow.enlist, Escrow.setSwap, Escrow.setNextId, hne, hj], hpos, rfl⟩
  deposit j d hd := by
    obtain ⟨rj, hj, hst, rfl⟩ := h.deposit j d hd
    have hne := (h.stored j rj hj).1.ne
    exact ⟨rj, by simp [Escrow.enlist, Escrow.setSwap, Escrow.setNextId, hne, hj], hst, rfl⟩
  offer := h.offer
  auction := h.auction
  claimable := h.claimable

theorem setAuction (h : Wf c) {a : AuctionRecord} (a' : AuctionRecord) (ha : c.auction i = some a)
    (hsound : a'.Sound) : Wf (c.setAuction i (some a')) where
  stored := h.stored
  collateral := h.collateral
  deposit := h.deposit
  offer := h.offer
  auction j aj hj := by
    by_cases hji : j = i <;> simp [Escrow.setAuction, hji] at hj
    · have hi := (h.auction _ _ ha).1
      exact ⟨hji ▸ hi, hj ▸ hsound⟩
    · exact h.auction j aj hj
  claimable := h.claimable

theorem startAuction (h : Wf c) {a : AuctionRecord} (hsound : a.Sound) :
    Wf ((c.setAuction c.auctionCount (some a)).setNextAuctionId (some (c.auctionCount + 1))) where
  stored := h.stored
  collateral := h.collateral
  deposit := h.deposit
  offer := h.offer
  auction j aj hj := by
    by_cases hji : j = c.auctionCount <;>
      simp [Escrow.setAuction, Escrow.setNextAuctionId, hji] at hj
    · exact ⟨by simp [Escrow.setNextAuctionId, Escrow.auctionCount, hji], hj ▸ hsound⟩
    · have hlt := (h.auction j aj hj).1
      exact ⟨by simp [Escrow.setNextAuctionId, Escrow.auctionCount] at hlt ⊢; omega,
        (h.auction j aj hj).2⟩
  claimable := h.claimable

end Writes

theorem empty (balance : Address → Address → ℤ) : Wf (State.empty balance).escrow := by
  constructor <;> simp [State.escrow, State.empty]

end Wf

theorem AuctionRecord.Sound.close {a : AuctionRecord} (h : a.Sound) : a.close.Sound :=
  ⟨h.minBid, h.unbid, h.bid⟩

theorem FreshSwap.sound {r : SwapRecord} (h : FreshSwap r) : r.Sound :=
  ⟨h.price, fun _ => h.quantity, h.paid.ge, h.premium⟩

theorem WonBy.sound {a : AuctionRecord} {buyer : Address} {r : SwapRecord}
    (h : WonBy a buyer r) (hbid : 0 < a.highestBid) : r.Sound :=
  ⟨h.price ▸ hbid, fun _ => h.quantity, h.paid.ge, h.premium.ge⟩

theorem Acceptable.price_eq {r : SwapRecord} {price : ℤ} (h : Acceptable r price)
    (hsound : r.Sound) : price = r.price := by
  rcases h with rfl | ⟨hpending, quantity, hne, hle, rfl⟩
  · rfl
  · have hone := hsound.quantity hpending
    have hquantity : quantity = 1 := by omega
    simp [hone, hquantity]

variable {env : Env} {c c' : Escrow} {m : Move}

theorem premium_of_terms {r r' : SwapRecord} (h : r'.terms = r.terms) (hsound : r.Sound) :
    0 ≤ r'.insurancePremium := by
  have hpremium := congrArg Terms.insurancePremium h
  simp only [SwapRecord.terms] at hpremium
  exact hpremium ▸ hsound.premium

theorem saturatingI128_nonneg {x : ℤ} (h : 0 ≤ x) : 0 ≤ saturatingI128 x := by
  unfold saturatingI128 saturate i128Min i128Max
  omega

theorem Step.wf (hstep : Step env c m c') (h : Wf c) : Wf c' := by
  cases hstep with
  | configured => exact ⟨h.stored, h.collateral, h.deposit, h.offer, h.auction, h.claimable⟩
  | received => exact ⟨h.stored, h.collateral, h.deposit, h.offer, h.auction, h.claimable⟩
  | initiated hfresh => exact (h.enlist hfresh.sound).setActiveSwap _ _
  | @accepted i r r' deposits premium escrowed hr hfrom hauth hterms hto hprice hpaid hdeposits =>
    have hsound := (h.stored _ _ hr).2
    have hp := hprice.price_eq hsound
    have hlocked := (h.lockCollateral hr fun hd => (hdeposits hd).2).collectPremium premium r
    have hset := hlocked.setSwap r' hr hterms ⟨hp ▸ hsound.price, by simp [hto],
      hpaid ▸ hsound.paid, premium_of_terms hterms hsound⟩ fun _ => ⟨by simp [hto], hp⟩
    have hr' : (((c.lockCollateral deposits i r).collectPremium premium r).setSwap i
        (some r')).swap i = some r' := by simp [Escrow.setSwap]
    exact (hset.recordDeposit escrowed hr' (by simp [hto])).pay _
  | @installment i r r' amount last hr hfrom hauth hterms hprice hquantity hpos hpaid hlast hto =>
    have hsound := (h.stored _ _ hr).2
    have hnonneg : 0 ≤ saturatingI128 (r.paidAmount + amount) := by
      have := hsound.paid
      exact saturatingI128_nonneg (by omega)
    exact (h.setSwap r' hr hterms ⟨hprice ▸ hsound.price,
      fun _ => hquantity ▸ hsound.quantity hfrom,
      hpaid ▸ hnonneg, premium_of_terms hterms hsound⟩ fun hne => absurd hfrom hne).pay _
  | @scheduled i r r' amount last hr hauth hpos hterms hprice hquantity hpaid hto =>
    have hsound := (h.stored _ _ hr).2
    refine (h.setSwap r' hr hterms ⟨hprice ▸ hsound.price, ?_, hpaid ▸ hsound.paid,
      premium_of_terms hterms hsound⟩ ?_).pay _
    · cases last with
      | true => simp [hto]
      | false =>
        simp only [hto, Bool.false_eq_true, if_false]
        exact fun hst => hquantity ▸ hsound.quantity hst
    · cases last <;> simp [hto, hprice]
  | offered hr hfrom hauth hpos =>
    exact h.setSwapRenegotiations fun offer e => Option.some.inj e ▸ hpos
  | @repriced i r offer hr hfrom hauth hoffer =>
    have hsound := (h.stored _ _ hr).2
    have hset := h.setSwap { r with price := offer.newPrice } hr rfl ⟨h.offer _ _ hoffer,
      hsound.quantity, hsound.paid, hsound.premium⟩ fun hne => absurd hfrom hne
    exact hset.setSwapRenegotiations (by simp)
  | extended newExpiry hr hfrom =>
    have hsound := (h.stored _ _ hr).2
    exact h.setSwap _ hr rfl ⟨hsound.price, hsound.quantity, hsound.paid, hsound.premium⟩
      fun hne => absurd hfrom hne
  | disputed hr hfrom =>
    have hsound := (h.stored _ _ hr).2
    exact h.setSwap _ hr rfl ⟨hsound.price, by simp, hsound.paid, hsound.premium⟩
      fun _ => ⟨by simp, rfl⟩
  | cancelled hr => exact h.close hr (by simp)
  | released hr => exact ((h.close hr (by simp)).release _ _).pay _
  | refunded hr => exact ((h.close hr (by simp)).release _ _).pay _
  | withdrawn hr => exact ((h.close hr (by simp)).forgetDeposit _).pay _
  | @rolledBack i r total ms hr =>
    have hsound := (h.stored _ _ hr).2
    exact (h.setSwap (r.withStatus .rolledBack) hr rfl ⟨hsound.price, by simp, hsound.paid,
      hsound.premium⟩ fun _ => ⟨by simp, rfl⟩).pay _
  | adminRolledBack hr => exact ((h.close hr (by simp)).release _ _).pay _
  | claimed hr hauth hclaim => simp [h.claimable] at hclaim
  | auctionStarted hfresh =>
    exact (h.startAuction ⟨hfresh.minBid, fun _ => hfresh.highestBid,
      by simp [hfresh.highestBidder]⟩).setActiveAuction _ _
  | @bid i a bidder amount ha hopen hauth hmin hmore hpos =>
    have hsound := (h.auction _ _ ha).2
    have hamount : 0 < amount := by
      have := hsound.minBid
      omega
    exact (h.setAuction { a with highestBid := amount, highestBidder := some bidder } ha
      ⟨hsound.minBid, by simp, fun _ _ => hamount⟩).pay _
  | unsold ha => exact (h.setAuction _ ha (h.auction _ _ ha).2.close).setActiveAuction _ _
  | sold ha hopen hwon hr =>
    have hsound := (h.auction _ _ ha).2
    exact ((h.setAuction _ ha hsound.close).setActiveAuction _ _).enlist
      (hr.sound (hsound.bid _ hwon))

theorem ActStep.wf {s s' : State} {act : Act} (hact : ActStep s act s') (h : Wf s.escrow) :
    Wf s'.escrow := by
  obtain ⟨q, hmoves⟩ := hact.answers
  exact hmoves.invariant (fun _ _ _ _ hwf hstep => hstep.wf hwf) h

theorem ran_wf {balance : Address → Address → ℤ} {tr : List (Act × State)} {s : State}
    (hrun : Run ActStep (State.empty balance) tr s) : Wf s.escrow :=
  hrun.invariant (I := fun s => Wf s.escrow) (Wf.empty balance) fun _ _ _ hwf hact => hact.wf hwf

theorem Reaches.wf {cond : State → Act → Prop} {tr : List (Act × State)} {s : State}
    (h : Reaches cond tr s) : Wf s.escrow := by
  obtain ⟨balance, -, hrun⟩ := h
  exact ran_wf (hrun.mono fun _ _ _ hact => hact.1)

end AtomicIp.AtomicSwap
