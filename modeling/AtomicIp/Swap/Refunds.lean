import AtomicIp.Swap.Installments

set_option autoImplicit false

namespace AtomicIp.AtomicSwap

open Function

/-- What `a` has paid towards the price of the swap `i`. -/
def paidTowards (a : Address) (i : ℕ) (ms : List TokenTransfer) : ℤ :=
  amountOf (fun m => m.ref = .price i ∧ m.src = a ∧ m.src ≠ currentContractAddress ∧
    m.dst = currentContractAddress) ms

/-- What `a` got back of the price of the swap `i`. -/
def refundedTo (a : Address) (i : ℕ) (ms : List TokenTransfer) : ℤ :=
  amountOf (fun m => m.ref = .price i ∧ m.src = currentContractAddress ∧ m.dst = a) ms

def Unpaid (c : Escrow) (i : ℕ) : Prop :=
  ∀ r, c.swap i = some r → paidTowards r.buyer i c.transfers = 0

/-- A swap the admin may roll back without loss. -/
def Returnable (c : Escrow) (i : ℕ) : Prop :=
  ∀ r, c.swap i = some r → r.status ≠ .rolledBack ∧
    (r.status = .pending → paidTowards r.buyer i c.transfers = 0)

/-- The price covers what was paid towards it, and what was bid. -/
structure Backed (won : ℕ → ℤ) (i : ℕ) (p : Position) : Prop where
  covered : paidTowards p.record.buyer i p.transfers + won i ≤ p.record.price
  won : won i = 0 ∨ p.record.status ≠ .pending ∧ p.record.isInstallment = false

/-- The moves that take no money and leave the prices alone. -/
def Move.Quiet : Move → Prop
  | .accepted _ | .installment .. | .scheduled .. | .amended _ => False
  | _ => True

/-- A move that owes nobody a refund it does not pay. -/
def Move.Refunds (c : Escrow) : Move → Prop
  | .cancelled i => Unpaid c i
  | .withdrawn i => (c.escrowDeposit i).isSome
  | .adminRolledBack i => Returnable c i
  | _ => True

section Payments

variable {env : Env} {c c' : Escrow} {m : Move} {i j : ℕ} {r r' : SwapRecord} {a : Address}
  {ms : List TokenTransfer} {P : Address → Prop} {total amount : ℤ} {won : ℕ → ℤ}

@[simp] theorem paidTowards_append (ns : List TokenTransfer) :
    paidTowards a i (ms ++ ns) = paidTowards a i ms + paidTowards a i ns := amountOf_append ns

@[simp] theorem refundedTo_append (ns : List TokenTransfer) :
    refundedTo a i (ms ++ ns) = refundedTo a i ms + refundedTo a i ns := amountOf_append ns

theorem paidTowards_account : paidTowards a i (accountOf i ms) = paidTowards a i ms := by
  unfold paidTowards accountOf amountOf
  rw [List.filter_filter]
  congr 2
  apply List.filter_congr
  intro m _
  by_cases hm : m.ref = .price i <;> simp [hm, Purpose.swap?]

theorem paidTowards_nonneg (h : ∀ x ∈ ms, 0 ≤ x.amount) : 0 ≤ paidTowards a i ms :=
  amountOf_nonneg h

theorem refundedTo_nonneg (h : ∀ x ∈ ms, 0 ≤ x.amount) : 0 ≤ refundedTo a i ms :=
  amountOf_nonneg h

theorem paidTowards_none
    (h : ∀ x ∈ ms, x.ref ≠ .price i ∨ x.src = currentContractAddress) :
    paidTowards a i ms = 0 := by
  refine amountOf_none fun x hx => ?_
  cases h x hx with
  | inl href => simp [href]
  | inr hsrc => simp [hsrc]

theorem le_refundedTo (hmem : refundOf i r amount ∈ ms) (h : ∀ x ∈ ms, 0 ≤ x.amount) :
    amount ≤ refundedTo r.buyer i ms := by
  have hle : (refundOf i r amount).amount ≤ refundedTo r.buyer i ms :=
    le_amountOf hmem (by simp [refundOf]) h
  exact hle

theorem paidTowards_price_le (h : 0 ≤ amount) : paidTowards a i [priceOf i r amount] ≤ amount := by
  simp only [paidTowards, amountOf_cons, amountOf_nil, priceOf]
  split_ifs <;> omega

theorem paidTowards_funding_le {price : ℤ} {deposits premium : Bool} (h : 0 ≤ price) :
    paidTowards a i (funding i r price deposits premium) ≤ price := by
  have hprice : paidTowards a i (funding i r price deposits premium) =
      paidTowards a i [priceOf i r price] := by
    cases deposits <;> cases premium <;> simp [paidTowards, funding, depositOf, premiumOf, priceOf]
  rw [hprice]
  exact paidTowards_price_le h

theorem Step.nonneg (hstep : Step env c m c') (hwf : Wf c) :
    ∃ ms, c'.transfers = c.transfers ++ ms ∧ ∀ x ∈ ms, 0 ≤ x.amount := by
  cases hstep with
  | accepted _ _ _ _ _ _ _ _ _ _ _ _ hpos => exact ⟨_, rfl, hpos⟩
  | installment _ _ _ _ _ _ _ _ hpos => exact ⟨_, rfl, by simpa [priceOf] using hpos.le⟩
  | scheduled _ _ _ _ hpos => exact ⟨_, rfl, by simpa [priceOf] using hpos⟩
  | released _ _ hpaid => exact ⟨_, rfl, fun x hx => (hpaid.escrowed x hx).2.2.2⟩
  | refunded _ _ hpaid => exact ⟨_, rfl, fun x hx => (hpaid.escrowed x hx).2.2.2⟩
  | withdrawn _ _ _ hpaid => exact ⟨_, rfl, fun x hx => (hpaid.escrowed x hx).2.2.2⟩
  | rolledBack _ _ _ hpaid => exact ⟨_, rfl, fun x hx => (hpaid.escrowed x hx).2.2.2⟩
  | adminRolledBack _ _ _ hpaid => exact ⟨_, rfl, fun x hx => (hpaid.escrowed x hx).2.2.2⟩
  | claimed _ _ _ hpos => exact ⟨_, rfl, by simpa using hpos⟩
  | @bid j a bidder amount ha hopen hauth hmin hmore hpos =>
    have hbid := (hwf.auction j a ha).2.minBid
    refine ⟨_, rfl, fun x hx => ?_⟩
    rcases List.mem_append.mp hx with hx | hx
    · exact hpos x hx
    · rw [List.mem_singleton.mp hx]
      simp only
      omega
  | _ => exact ⟨[], by simp [Escrow.enlist, Escrow.setActiveSwap, Escrow.setSwap, Escrow.close,
      Escrow.setAuction, Escrow.setActiveAuction, Escrow.setSwapRenegotiations, Escrow.setAdmin,
      Escrow.setIpRegistry, Escrow.setNextId, Escrow.setNextAuctionId], by simp⟩

theorem Move.Quiet.takes_nothing (h : m.Quiet) : m.pays = false := by
  cases m with
  | accepted | installment | scheduled => exact h.elim
  | _ => rfl

theorem Step.unpaid (hstep : Step env c m c') (hm : m.Quiet) :
    paidTowards a i c'.transfers = paidTowards a i c.transfers := by
  obtain ⟨ms, hms, hnone⟩ := hstep.takes_nothing hm.takes_nothing
  have hzero : paidTowards a i ms = 0 := by
    refine paidTowards_none fun x hx => (hnone x hx).imp_left ?_
    intro hapart href
    simp [href, Purpose.swap?] at hapart
  rw [hms, paidTowards_append, hzero, add_zero]

theorem Step.unpaid_apart (hstep : Step env c m c') (hj : m.swap? ≠ some j) :
    paidTowards a j c'.transfers = paidTowards a j c.transfers := by
  rw [← paidTowards_account, (hstep.apart hj).2.2, paidTowards_account]

theorem Step.price (hstep : Step env c m c') (hm : m.Quiet) (hwf : Wf c) (hr : c.swap i = some r)
    (hr' : c'.swap i = some r') : r'.price = r.price :=
  hstep.samePrices hwf (fun _ e => by rw [e] at hm; exact hm) i r r' hr hr'

end Payments

section Backing

variable {env : Env} {c c' c₀ : Escrow} {m : Move} {i j : ℕ} {r r' : SwapRecord}
  {ms : List TokenTransfer} {amount : ℤ} {won : ℕ → ℤ} {ids : List ℕ}

theorem Backed.fresh (hzero : won i = 0) (hprice : 0 < r.price) :
    Backed won i ⟨r, none, none, []⟩ where
  covered := by
    simp only [paidTowards, amountOf_nil]
    omega
  won := .inl hzero

theorem EachSwap.covers (h : EachSwap (Backed won) c) (hstep : Step env c m c')
    (hnew : ∀ r, Adds m c r → Backed won c.count ⟨r, none, none, []⟩)
    (hone : ∀ i r r', m.swap? = some i → c.swap i = some r → c'.swap i = some r' →
      Backed won i (c.position i r) → paidTowards r.buyer i c'.transfers + won i ≤ r'.price) :
    EachSwap (Backed won) c' := by
  refine h.step hstep hnew ?_
  intro i r r' hmove hr hr' hbacked
  have hmoved := hstep.moved h.wf hmove hr hr'
  have hbuyer : r'.buyer = r.buyer := congrArg Terms.buyer hmoved.terms
  have hkind : r'.isInstallment = r.isInstallment := congrArg Terms.isInstallment hmoved.terms
  refine ⟨?_, ?_⟩
  · simp only [Escrow.position, paidTowards_account]
    rw [hbuyer]
    exact hone i r r' hmove hr hr' hbacked
  · cases hbacked.won with
    | inl hzero => exact .inl hzero
    | inr hauctioned =>
      refine .inr ⟨?_, hkind.trans hauctioned.2⟩
      intro hpending
      obtain ⟨r₀, hr₀, hguard⟩ := hstep.guard hmove
      obtain rfl := Option.some.inj (hr.symm.trans hr₀)
      exact hauctioned.1 (hguard.waits (hmoved.status.symm.trans hpending))

theorem EachSwap.quiet (h : EachSwap (Backed won) c) (hstep : Step env c m c') (hm : m.Quiet)
    (hnew : ∀ r, Adds m c r → Backed won c.count ⟨r, none, none, []⟩) :
    EachSwap (Backed won) c' := by
  refine h.covers hstep hnew ?_
  intro i r r' hmove hr hr' hbacked
  have hcovered := hbacked.covered
  simp only [Escrow.position, paidTowards_account] at hcovered
  rw [hstep.unpaid hm, hstep.price hm h.wf hr hr']
  exact hcovered

theorem EachSwap.unwon (h : EachSwap (Backed won) c) (hr : c.swap i = some r)
    (hfrom : r.status = .pending) : won i = 0 := by
  cases (h.each i r hr).won with
  | inl hzero => exact hzero
  | inr hauctioned => exact absurd hfrom hauctioned.1

theorem EachSwap.accepts (h : EachSwap (Backed won) c) (hstep : Step env c (.accepted i) c')
    (hfrom : ∀ r, c.swap i = some r → r.status = .pending) (hunpaid : Unpaid c i) :
    EachSwap (Backed won) c' := by
  refine h.covers hstep (fun _ hadds => by cases hadds.apart) ?_
  intro j r r' hj hr hr' _
  obtain rfl := Option.some.inj hj
  have hzero := h.unwon hr (hfrom r hr)
  have hnone := hunpaid r hr
  have hprice := ((hstep.wf h.wf).stored i r' hr').2.price
  cases hstep with
  | @accepted _ r₀ r₁ deposits premium escrowed hr₀ =>
    obtain rfl := Option.some.inj (hr.symm.trans hr₀)
    obtain rfl : r₁ = r' := by simpa [Escrow.pay, Escrow.setSwap] using hr'
    have htransfers : paidTowards r.buyer i (c.transfers ++ funding i r r₁.price deposits premium) =
        paidTowards r.buyer i c.transfers +
          paidTowards r.buyer i (funding i r r₁.price deposits premium) := paidTowards_append _
    have hfunding : paidTowards r.buyer i (funding i r r₁.price deposits premium) ≤ r₁.price :=
      paidTowards_funding_le hprice.le
    refine le_trans (le_of_eq (congrArg (· + won i) htransfers)) ?_
    omega

theorem EachSwap.charged (h : EachSwap (Backed won) c) (hstep : Step env c m c')
    (hmove : m.swap? = some i) (hr : c.swap i = some r) (hr' : c'.swap i = some r')
    (htransfers : c'.transfers = c.transfers ++ [priceOf i r amount]) (hpos : 0 ≤ amount)
    (hprice : r'.price = r.price) (hzero : won i = 0)
    (hwithin : paidTowards r.buyer i c.transfers + amount ≤ r.price) :
    EachSwap (Backed won) c' := by
  refine h.covers hstep ?_ ?_
  · intro r₁ hadds
    rw [hadds.apart] at hmove
    cases hmove
  · intro j r₁ r₁' hj hr₁ hr₁' _
    obtain rfl := Option.some.inj (hmove.symm.trans hj)
    obtain rfl := Option.some.inj (hr.symm.trans hr₁)
    obtain rfl := Option.some.inj (hr'.symm.trans hr₁')
    have hle : paidTowards r.buyer i [priceOf i r amount] ≤ amount := paidTowards_price_le hpos
    rw [htransfers, paidTowards_append, hprice]
    omega

/-- The swaps cancelled since `c` have been paid back with the transfers `ms`. -/
def Repaid (won : ℕ → ℤ) (c c' : Escrow) (ms : List TokenTransfer) : Prop :=
  ∀ i r r', c.swap i = some r → c'.swap i = some r' → r.status ≠ .cancelled →
    r'.status = .cancelled → paidTowards r.buyer i c.transfers + won i ≤ refundedTo r.buyer i ms

/-- A move that cancels the swap `r` gives back its price, or nothing was paid. -/
theorem Step.refund (hstep : Step env c m c') (hm : m.Refunds c) (hwf : Wf c)
    (hmove : m.swap? = some i) (hr : c.swap i = some r) (hopen : r.status ≠ .cancelled)
    (hto : m.aims = some .cancelled) :
    ∃ ms, c'.transfers = c.transfers ++ ms ∧ (∀ x ∈ ms, 0 ≤ x.amount) ∧
      (refundOf i r r.price ∈ ms ∨
        r.status = .pending ∧ paidTowards r.buyer i c.transfers = 0) := by
  obtain ⟨ms, hms, hnonneg⟩ := hstep.nonneg hwf
  refine ⟨ms, hms, hnonneg, ?_⟩
  cases hstep with
  | cancelled hr₀ hfrom =>
    obtain rfl := Option.some.inj hmove
    obtain rfl := Option.some.inj (hr.symm.trans hr₀)
    exact .inr ⟨hfrom, hm r hr⟩
  | refunded hr₀ _ _ _ hrefund =>
    obtain rfl := Option.some.inj hmove
    obtain rfl := Option.some.inj (hr.symm.trans hr₀)
    rw [← List.append_cancel_left hms]
    exact .inl hrefund
  | withdrawn hr₀ _ _ _ hrefund =>
    obtain rfl := Option.some.inj hmove
    obtain rfl := Option.some.inj (hr.symm.trans hr₀)
    obtain ⟨x, hx⟩ := Option.isSome_iff_exists.mp hm
    obtain ⟨r₁, hr₁, -, rfl⟩ := hwf.deposit _ x hx
    obtain rfl := Option.some.inj (hr.symm.trans hr₁)
    rw [← List.append_cancel_left hms]
    exact .inl (hrefund _ hx (hwf.stored _ r hr).2.price)
  | adminRolledBack hr₀ hfrom _ _ _ _ hrefund =>
    obtain rfl := Option.some.inj hmove
    obtain rfl := Option.some.inj (hr.symm.trans hr₀)
    obtain ⟨hkept, hunpaid⟩ := hm r hr
    rw [← List.append_cancel_left hms]
    cases hstatus : r.status with
    | pending => exact .inr ⟨rfl, hunpaid hstatus⟩
    | accepted => exact .inl (hrefund (.inl hstatus))
    | disputed => exact .inl (hrefund (.inr hstatus))
    | cancelled => exact absurd hstatus hopen
    | completed => exact absurd hstatus hfrom
    | rolledBack => exact absurd hstatus hkept
  | installment _ last => cases last <;> simp [Move.aims] at hto
  | scheduled _ last => cases last <;> simp [Move.aims] at hto
  | _ => simp [Move.aims] at hto

theorem Step.repaid (hstep : Step env c m c') (hm : m.Refunds c) (h : EachSwap (Backed won) c) :
    ∃ ms, c'.transfers = c.transfers ++ ms ∧ (∀ x ∈ ms, 0 ≤ x.amount) ∧ Repaid won c c' ms := by
  obtain ⟨ms, hms, hnonneg⟩ := hstep.nonneg h.wf
  refine ⟨ms, hms, hnonneg, ?_⟩
  intro i r r' hr hr' hopen hto
  obtain ⟨r₁, hr₁, hkept⟩ := hstep.keeps h.wf hr
  obtain rfl := Option.some.inj (hr'.symm.trans hr₁)
  cases hkept with
  | inl hsame =>
    rw [hsame.1] at hto
    exact absurd hto hopen
  | inr hmoved =>
    obtain ⟨hmove, hmoved⟩ := hmoved
    have haims : m.aims = some .cancelled := by
      have hst := hmoved.status
      cases haims : m.aims with
      | none =>
        rw [haims, hto] at hst
        exact absurd hst.symm hopen
      | some q =>
        rw [haims, hto] at hst
        rw [hst]
        rfl
    obtain ⟨ms₁, hms₁, -, hrefund⟩ := hstep.refund hm h.wf hmove hr hopen haims
    obtain rfl : ms = ms₁ := List.append_cancel_left (hms.symm.trans hms₁)
    have hcovered := (h.each i r hr).covered
    simp only [Escrow.position, paidTowards_account] at hcovered
    cases hrefund with
    | inl hmem =>
      have hback := le_refundedTo hmem hnonneg
      omega
    | inr hunpaid =>
      have hzero := h.unwon hr hunpaid.1
      have hback : 0 ≤ refundedTo r.buyer i ms := refundedTo_nonneg hnonneg
      omega

/-- How the escrow `c₀` got on while a call cancelled its swaps. -/
structure Cashier (won : ℕ → ℤ) (c₀ c : Escrow) : Prop where
  backed : EachSwap (Backed won) c
  terms : ∀ i r, c₀.swap i = some r → ∃ r', c.swap i = some r' ∧ r'.terms = r.terms
  repaid : ∃ ms, c.transfers = c₀.transfers ++ ms ∧ (∀ x ∈ ms, 0 ≤ x.amount) ∧ Repaid won c₀ c ms

theorem Cashier.refl (h : EachSwap (Backed won) c) : Cashier won c c where
  backed := h
  terms _ r hr := ⟨r, hr, rfl⟩
  repaid := by
    refine ⟨[], by simp, by simp, ?_⟩
    intro i r r' hr hr' hopen hto
    obtain rfl := Option.some.inj (hr.symm.trans hr')
    exact absurd hto hopen

theorem Cashier.step (h : Cashier won c₀ c) (hstep : Step env c m c') (hm : m.Refunds c)
    (hbacked : EachSwap (Backed won) c') : Cashier won c₀ c' where
  backed := hbacked
  terms i r hr := by
    obtain ⟨r₁, hr₁, hterms₁⟩ := h.terms i r hr
    obtain ⟨r', hr', hterms⟩ := hstep.lasts h.backed.wf hr₁
    exact ⟨r', hr', hterms.trans hterms₁⟩
  repaid := by
    obtain ⟨ms₁, hms₁, hnonneg₁, hrepaid₁⟩ := h.repaid
    obtain ⟨ms₂, hms₂, hnonneg₂, hrepaid₂⟩ := hstep.repaid hm h.backed
    refine ⟨ms₁ ++ ms₂, by rw [hms₂, hms₁, List.append_assoc], ?_, ?_⟩
    · intro x hx
      cases List.mem_append.mp hx with
      | inl hx => exact hnonneg₁ x hx
      | inr hx => exact hnonneg₂ x hx
    · intro i r r' hr hr' hopen hto
      obtain ⟨r₁, hr₁, hterms₁⟩ := h.terms i r hr
      have hbuyer : r₁.buyer = r.buyer := congrArg Terms.buyer hterms₁
      rw [refundedTo_append]
      by_cases hclosed : r₁.status = .cancelled
      · have hback := hrepaid₁ i r r₁ hr hr₁ hopen hclosed
        have hmore : 0 ≤ refundedTo r.buyer i ms₂ := refundedTo_nonneg hnonneg₂
        omega
      · have hback := hrepaid₂ i r₁ r' hr₁ hr' hclosed hto
        have hmore : 0 ≤ refundedTo r.buyer i ms₁ := refundedTo_nonneg hnonneg₁
        have hpaid : 0 ≤ paidTowards r.buyer i ms₁ := paidTowards_nonneg hnonneg₁
        rw [hbuyer, hms₁, paidTowards_append] at hback
        omega

theorem Cashier.absent (h : Cashier won c₀ c) (hi : c.swap i = none) : c₀.swap i = none := by
  cases hr : c₀.swap i with
  | none => rfl
  | some r =>
    obtain ⟨r', hr', -⟩ := h.terms i r hr
    rw [hi] at hr'
    cases hr'

theorem Cashier.quiet (h : Cashier won c₀ c) (hstep : Step env c m c') (hm : m.Refunds c)
    (hquiet : m.Quiet) (hsale : ∀ j, m ≠ .finalized j)
    (hzero : ∀ i, c₀.swap i = none → won i = 0) : Cashier won c₀ c' := by
  refine h.step hstep hm (h.backed.quiet hstep hquiet ?_)
  intro r hadds
  rcases hadds with ⟨-, hfresh⟩ | ⟨j, _, _, hj, -⟩
  · exact .fresh (hzero _ (h.absent h.backed.wf.fresh)) hfresh.price
  · exact absurd hj (hsale j)

theorem Cashier.batch (h : Cashier won c₀ c) (hnodup : ids.Nodup)
    (hpath : Path (Step env) c (ids.map .accepted) c')
    (hfrom : ∀ i ∈ ids, ∀ r, c.swap i = some r → r.status = .pending)
    (hunpaid : ∀ i ∈ ids, Unpaid c i) : Cashier won c₀ c' := by
  induction ids generalizing c with
  | nil =>
    cases hpath with
    | nil => exact h
  | cons k ids ih =>
    cases hpath with
    | @cons _ c₁ _ _ _ hstep hrest =>
      obtain ⟨hnew, hnodup⟩ := List.nodup_cons.mp hnodup
      have hbacked := h.backed.accepts hstep (hfrom k (by simp)) (hunpaid k (by simp))
      have hother : ∀ i ∈ ids, (Move.accepted k).swap? ≠ some i := by
        intro i hi e
        obtain rfl := Option.some.inj e
        exact hnew hi
      have hsame : ∀ i ∈ ids, ∀ r, c₁.swap i = some r → c.swap i = some r := by
        intro i hi r hr
        rcases hstep.rest (hother i hi) hr with hr | ⟨-, hadds⟩
        · exact hr
        · cases hadds.apart
      refine ih (h.step hstep trivial hbacked) hnodup hrest ?_ ?_
      · intro i hi r hr
        exact hfrom i (by simp [hi]) r (hsame i hi r hr)
      · intro i hi r hr
        rw [hstep.unpaid_apart (hother i hi)]
        exact hunpaid i (by simp [hi]) r (hsame i hi r hr)

end Backing

end AtomicIp.AtomicSwap
