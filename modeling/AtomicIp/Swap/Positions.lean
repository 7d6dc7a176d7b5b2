import AtomicIp.Swap.Accounts

set_option autoImplicit false

namespace AtomicIp.AtomicSwap

open Function

structure Position where
  record : SwapRecord
  collateral : Option ℤ
  deposit : Option ℤ
  transfers : List TokenTransfer

/-- The transfers on account of the swap `i`. -/
def accountOf (i : ℕ) (ms : List TokenTransfer) : List TokenTransfer :=
  ms.filter fun m => m.ref.swap? = some i

def Escrow.position (c : Escrow) (i : ℕ) (r : SwapRecord) : Position where
  record := r
  collateral := c.swapCollateral i
  deposit := c.escrowDeposit i
  transfers := accountOf i c.transfers

def Move.pays : Move → Bool
  | .accepted _ | .installment .. | .scheduled .. => true
  | _ => false

def SamePrices (c c' : Escrow) : Prop :=
  ∀ i r r', c.swap i = some r → c'.swap i = some r' → r'.price = r.price

/-- Every stored swap is in a position that satisfies `P`. -/
structure EachSwap (P : ℕ → Position → Prop) (c : Escrow) : Prop where
  wf : Wf c
  each : ∀ i r, c.swap i = some r → P i (c.position i r)
  idle : Idle c

section Accounts

variable {i : ℕ} {ms ns : List TokenTransfer}

@[simp] theorem accountOf_append :
    accountOf i (ms ++ ns) = accountOf i ms ++ accountOf i ns := List.filter_append ms ns

theorem accountOf_all (h : ∀ m ∈ ms, m.ref.swap? = some i) : accountOf i ms = ms := by
  simpa [accountOf] using h

theorem accountOf_none (h : ∀ m ∈ ms, m.ref.swap? ≠ some i) : accountOf i ms = [] := by
  simpa [accountOf] using h

end Accounts

section Steps

variable {env : Env} {c c' : Escrow} {m : Move} {i j : ℕ} {r r' r₁ : SwapRecord}
  {P : ℕ → Position → Prop} {ms : List TokenTransfer} {Q : Address → Prop} {total : ℤ}

theorem PaidFor.account (h : PaidFor i r Q total ms) : accountOf i ms = ms :=
  accountOf_all fun m hm => (h.escrowed m hm).2.2.1

theorem PaidFor.account_other (h : PaidFor i r Q total ms) (hj : j ≠ i) : accountOf j ms = [] :=
  accountOf_none fun m hm => by
    rw [(h.escrowed m hm).2.2.1]
    simpa using hj.symm

theorem accountOf_funding_other {price : ℤ} {deposits premium : Bool} (hj : j ≠ i) :
    accountOf j (funding i r price deposits premium) = [] :=
  accountOf_none fun m hm => by
    rw [swap?_funding m hm]
    simpa using hj.symm

theorem Step.takes_nothing (hstep : Step env c m c') (hm : m.pays = false) :
    ∃ ms, c'.transfers = c.transfers ++ ms ∧
      ∀ x ∈ ms, x.ref.swap? = none ∨ x.src = currentContractAddress := by
  cases hstep with
  | accepted | installment | scheduled => cases hm
  | released _ _ hpaid => exact ⟨_, rfl, fun x hx => .inr (hpaid.escrowed x hx).2.1⟩
  | refunded _ _ hpaid => exact ⟨_, rfl, fun x hx => .inr (hpaid.escrowed x hx).2.1⟩
  | withdrawn _ _ _ hpaid => exact ⟨_, rfl, fun x hx => .inr (hpaid.escrowed x hx).2.1⟩
  | rolledBack _ _ _ hpaid => exact ⟨_, rfl, fun x hx => .inr (hpaid.escrowed x hx).2.1⟩
  | adminRolledBack _ _ _ hpaid => exact ⟨_, rfl, fun x hx => .inr (hpaid.escrowed x hx).2.1⟩
  | claimed => exact ⟨_, rfl, by simp⟩
  | @bid j a bidder amount =>
    refine ⟨_, rfl, ?_⟩
    cases hbidder : a.highestBidder <;> simp [AuctionRecord.refund, hbidder, Purpose.swap?]
  | _ => exact ⟨[], by simp [Escrow.enlist, Escrow.setActiveSwap, Escrow.setSwap, Escrow.close,
      Escrow.setAuction, Escrow.setActiveAuction, Escrow.setSwapRenegotiations, Escrow.setAdmin,
      Escrow.setIpRegistry, Escrow.setNextId, Escrow.setNextAuctionId], by simp⟩

theorem SamePrices.of_same (h : c'.swap = c.swap) : SamePrices c c' := by
  intro i r r' hr hr'
  rw [h, hr] at hr'
  rw [Option.some.inj hr']

theorem SamePrices.of_one (hr : c.swap j = some r)
    (hswap : ∀ k, c'.swap k = if k = j then some r₁ else c.swap k) (hprice : r₁.price = r.price) :
    SamePrices c c' := by
  intro i r₀ r' hr₀ hr'
  rw [hswap] at hr'
  by_cases hij : i = j
  · subst hij
    obtain rfl := Option.some.inj (hr.symm.trans hr₀)
    rw [if_pos rfl] at hr'
    rw [← Option.some.inj hr', hprice]
  · rw [if_neg hij, hr₀] at hr'
    rw [Option.some.inj hr']

theorem SamePrices.of_new (hwf : Wf c)
    (hswap : ∀ k, c'.swap k = if k = c.count then some r₁ else c.swap k) : SamePrices c c' := by
  intro i r r' hr hr'
  rw [hswap, if_neg (hwf.stored i r hr).1.ne, hr] at hr'
  rw [Option.some.inj hr']

theorem Step.samePrices (hstep : Step env c m c') (hwf : Wf c) (hm : ∀ i, m ≠ .amended i) :
    SamePrices c c' := by
  cases hstep with
  | configured | received | offered | claimed | auctionStarted | bid | unsold => exact .of_same rfl
  | initiated => exact .of_new hwf fun k => swap_enlist c k _
  | sold => exact .of_new hwf fun k => swap_enlist _ k _
  | accepted r' _ _ _ hr _ _ _ _ hprice =>
    exact .of_one hr (fun k => swap_setSwap c _ k _) (hprice.price_eq (hwf.stored _ _ hr).2)
  | installment _ _ hr _ _ _ hprice | scheduled _ _ hr _ _ _ hprice =>
    exact .of_one hr (fun k => swap_setSwap c _ k _) hprice
  | repriced | extended => exact absurd rfl (hm _)
  | disputed hr | rolledBack hr => exact .of_one hr (fun k => swap_setSwap c _ k _) rfl
  | cancelled hr | released hr | refunded hr | withdrawn hr | adminRolledBack hr =>
    exact .of_one hr (fun k => swap_close c _ k _ _) rfl

theorem Step.apart (hstep : Step env c m c') (hj : m.swap? ≠ some j) :
    c'.swapCollateral j = c.swapCollateral j ∧ c'.escrowDeposit j = c.escrowDeposit j ∧
      accountOf j c'.transfers = accountOf j c.transfers := by
  cases hstep with
  | @accepted i r r' deposits premium escrowed =>
    have hji : j ≠ i := fun e => hj (e ▸ rfl)
    refine ⟨?_, ?_, ?_⟩
    · cases deposits <;> simp [Escrow.pay, Escrow.setSwap, Escrow.recordDeposit,
        Escrow.collectPremium, Escrow.lockCollateral, hji]
    · cases escrowed <;> simp [Escrow.pay, Escrow.setSwap, Escrow.recordDeposit,
        Escrow.collectPremium, Escrow.lockCollateral, hji]
    · simp [Escrow.pay, Escrow.setSwap, Escrow.recordDeposit, Escrow.collectPremium,
        Escrow.lockCollateral, accountOf_funding_other hji]
  | @installment i r r' amount =>
    have hji : j ≠ i := fun e => hj (e ▸ rfl)
    simp [Escrow.pay, Escrow.setSwap, accountOf, priceOf, Purpose.swap?, hji.symm]
  | @scheduled i r r' amount =>
    have hji : j ≠ i := fun e => hj (e ▸ rfl)
    simp [Escrow.pay, Escrow.setSwap, accountOf, priceOf, Purpose.swap?, hji.symm]
  | @released i r w ms hr hw hpaid =>
    have hji : j ≠ i := fun e => hj (e ▸ rfl)
    cases hswept : c.sweptBy w i r <;> simp [Escrow.pay, Escrow.release, Escrow.close,
      Escrow.setSwap, Escrow.setActiveSwap, hji, hpaid.account_other hji]
  | @refunded i r w ms hr hw hpaid =>
    have hji : j ≠ i := fun e => hj (e ▸ rfl)
    cases hswept : c.sweptBy w i r <;> simp [Escrow.pay, Escrow.release, Escrow.close,
      Escrow.setSwap, Escrow.setActiveSwap, hji, hpaid.account_other hji]
  | @withdrawn i r ms hr hfrom hauth hpaid =>
    have hji : j ≠ i := fun e => hj (e ▸ rfl)
    simp [Escrow.pay, Escrow.close, Escrow.setSwap, Escrow.setActiveSwap, Escrow.setEscrowDeposit,
      hji, hpaid.account_other hji]
  | @rolledBack i r total ms hr hfrom hauth hpaid =>
    have hji : j ≠ i := fun e => hj (e ▸ rfl)
    simp [Escrow.pay, Escrow.setSwap, hpaid.account_other hji]
  | @adminRolledBack i r returned total ms hr hfrom hauth hpaid =>
    have hji : j ≠ i := fun e => hj (e ▸ rfl)
    cases returned <;> simp [Escrow.pay, Escrow.release, Escrow.close, Escrow.setSwap,
      Escrow.setActiveSwap, hji, hpaid.account_other hji]
  | @claimed i r payout =>
    have hji : j ≠ i := fun e => hj (e ▸ rfl)
    simp [Escrow.pay, Escrow.addToPool, Escrow.setInsurancePool, Escrow.setInsuranceClaimable,
      accountOf, Purpose.swap?, hji.symm]
  | @bid i a bidder amount =>
    cases hbidder : a.highestBidder <;> simp [Escrow.pay, Escrow.setAuction, accountOf,
      AuctionRecord.refund, hbidder, Purpose.swap?]
  | _ => exact ⟨rfl, rfl, rfl⟩

theorem Step.rest (hstep : Step env c m c') (hj : m.swap? ≠ some j) (hr' : c'.swap j = some r') :
    c.swap j = some r' ∨ j = c.count ∧ Adds m c r' := by
  cases hstep.rewrites with
  | same hswap => exact .inl (hswap ▸ hr')
  | moved i r r₁ hm _ hswap =>
    have hji : j ≠ i := fun e => hj (e ▸ hm)
    exact .inl (by simpa [hswap, hji] using hr')
  | added r₁ _ hadds hswap =>
    by_cases hnew : j = c.count
    · obtain rfl : r₁ = r' := by simpa [hswap, hnew] using hr'
      exact .inr ⟨hnew, hadds⟩
    · exact .inl (by simpa [hswap, hnew] using hr')

theorem Idle.account (h : Idle c) (hi : c.swap i = none) : accountOf i c.transfers = [] :=
  accountOf_none (h i hi)

theorem Step.idle (hstep : Step env c m c') (hwf : Wf c) (h : Idle c) : Idle c' := by
  intro j hj x hx href
  have hnone : c.swap j = none := by
    cases hr : c.swap j with
    | none => rfl
    | some r =>
      obtain ⟨r', hr', -⟩ := hstep.keeps hwf hr
      simp [hj] at hr'
  have hother : m.swap? ≠ some j := by
    intro hm
    obtain ⟨r, hr, -⟩ := hstep.guard hm
    simp [hnone] at hr
  have hmem : x ∈ accountOf j c'.transfers := by simp [accountOf, hx, href]
  rw [(hstep.apart hother).2.2, h.account hnone] at hmem
  cases hmem

theorem EachSwap.empty (balance : Address → Address → ℤ) :
    EachSwap P (State.empty balance).escrow where
  wf := .empty balance
  each _ _ hr := by cases hr
  idle := .empty balance

theorem EachSwap.fresh (h : EachSwap P c) (r : SwapRecord) :
    c.position c.count r = ⟨r, none, none, []⟩ := by
  have hfresh := h.wf.fresh
  simp [Escrow.position, h.wf.unbacked hfresh, h.wf.undeposited hfresh, h.idle.account hfresh]

/-- A move keeps every position sound when it does so for the swap it is about and for the
one it adds. -/
theorem EachSwap.step (h : EachSwap P c) (hstep : Step env c m c')
    (hnew : ∀ r, Adds m c r → P c.count ⟨r, none, none, []⟩)
    (hone : ∀ i r r', m.swap? = some i → c.swap i = some r → c'.swap i = some r' →
      P i (c.position i r) → P i (c'.position i r')) : EachSwap P c' where
  wf := hstep.wf h.wf
  each j r' hr' := by
    by_cases hj : m.swap? = some j
    · obtain ⟨r, hr, -⟩ := hstep.guard hj
      exact hone j r r' hj hr hr' (h.each j r hr)
    · obtain ⟨hcollateral, hdeposit, htransfers⟩ := hstep.apart hj
      have hposition : c'.position j r' = c.position j r' := by
        simp [Escrow.position, hcollateral, hdeposit, htransfers]
      rw [hposition]
      rcases hstep.rest hj hr' with hr | ⟨rfl, hadds⟩
      · exact h.each j r' hr
      · rw [h.fresh]
        exact hnew r' hadds
  idle := hstep.idle h.wf h.idle

end Steps

end AtomicIp.AtomicSwap
