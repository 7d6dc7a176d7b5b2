import AtomicIp.Swap.InsurancePool

set_option autoImplicit false

namespace AtomicIp.AtomicSwap

open Function

/-- The calls that take nobody's word but the buyer's. -/
inductive WayOut (i : ℕ) : Call → Prop where
  | expired (caller : Address) : WayOut i (.cancelExpiredSwap i caller)
  | withdrawn : WayOut i (.escrowWithdraw i)
  | resolved : WayOut i (.autoResolveDispute i)
  | timedOut : WayOut i (.autoRefundTimeout i)

/-- At the time `t` one such call gives the buyer the whole price and cancels the swap. -/
def CanLeave (s : State) (i : ℕ) (r : SwapRecord) (t : ℕ) : Prop :=
  ∃ call, WayOut i call ∧ ∀ env : Env, env.timestamp = t → env.auths = [r.buyer] →
    ∃ s', exec env call s = .ok ((), s') ∧ s'.swap i = some (r.withStatus .cancelled) ∧
      refundOf i r r.price ∈ newTransfers s s'

/-- The buyer can leave at every time a ledger can show from some time on. -/
def GetsOut (s : State) (i : ℕ) (r : SwapRecord) : Prop :=
  ∃ T < 2 ^ 64, ∀ t, T ≤ t → t < 2 ^ 64 → CanLeave s i r t

/-- The time the buyer has to wait for is one a ledger can show. -/
def Timely (s : State) (i : ℕ) (r : SwapRecord) : Prop :=
  if r.status = .accepted then r.expiry + 1 < 2 ^ 64
  else r.disputeTimestamp + protocolConfig.disputeTimeoutSecs < 2 ^ 64 ∨
    ∃ requested, s.arbitrationTimestamp i = some requested ∧
      requested + protocolConfig.arbitrationTimeoutSeconds < 2 ^ 64

def Call.Deals : Call → Prop
  | .initializeContract .. | .initiateSwap .. | .initiateEscrowSwap .. | .extendSwapExpiry ..
  | .acceptSwap .. | .escrowDeposit .. | .raiseDispute .. | .requestArbitration .. => True
  | _ => False

def Dealing (_ : State) (env : Env) (call : Call) : Prop := env.Hosted ∧ call.Deals

section Cover

variable {env : Env} {c c' : Escrow} {m : Move} {i j : ℕ} {r : SwapRecord} {t : Address}

theorem held_nonneg (hwf : Wf c) : 0 ≤ (c.swapCollateral i).getD 0 := by
  cases hx : c.swapCollateral i with
  | none => simp
  | some x =>
    obtain ⟨q, -, hpos, rfl⟩ := hwf.collateral i x hx
    exact hpos.le

theorem swapDue_nonneg (hwf : Wf c) : 0 ≤ c.swapDue t i := by
  cases hr : c.swap i with
  | none => simp [Escrow.swapDue, hr]
  | some r =>
    have hdue := due_nonneg (hwf.stored i r hr).2
    have hheld : 0 ≤ (c.swapCollateral i).getD 0 := held_nonneg hwf
    rw [swapDue_of hr]
    split_ifs <;> omega

theorem auctionDue_nonneg (hwf : Wf c) : 0 ≤ c.auctionDue t j := by
  cases ha : c.auction j with
  | none => simp [Escrow.auctionDue, ha]
  | some a =>
    have hsound := (hwf.auction j a ha).2
    have hbid : 0 ≤ a.highestBid := by
      cases hbidder : a.highestBidder with
      | none => exact (hsound.unbid hbidder).ge
      | some bidder => exact (hsound.bid bidder hbidder).le
    rw [auctionDue_of ha, AuctionRecord.due]
    split_ifs <;> omega

/-- The pool only ever takes premiums in: no claim on it goes through. -/
theorem Step.pool_nonneg (hstep : Step env c m c') (hwf : Wf c) (h : ∀ t, 0 ≤ c.pool t)
    (t : Address) : 0 ≤ c'.pool t := by
  have hpool := h t
  cases hstep with
  | @accepted i r r' deposits premium escrowed _ _ _ _ _ _ _ _ _ _ hpremium =>
    cases premium with
    | false => exact hpool
    | true =>
      have hpos := (hpremium rfl).2
      by_cases ht : t = r.token
      · subst ht
        simp [Escrow.pool, Escrow.pay, Escrow.setSwap, Escrow.recordDeposit, Escrow.collectPremium,
          Escrow.addToPool, Escrow.setInsurancePool, Escrow.lockCollateral] at hpool ⊢
        omega
      · simpa [Escrow.pool, Escrow.pay, Escrow.setSwap, Escrow.recordDeposit, Escrow.collectPremium,
          Escrow.addToPool, Escrow.setInsurancePool, Escrow.lockCollateral, ht] using hpool
  | claimed _ _ hclaim => simp [hwf.claimable] at hclaim
  | _ => exact hpool

theorem swapDue_le (h : Covered c) (hpool : ∀ t, 0 ≤ c.pool t) (hi : i < c.count) :
    c.swapDue t i ≤ c.balance t currentContractAddress := by
  have hone : c.swapDue t i ≤ ∑ k ∈ Finset.range c.count, c.swapDue t k :=
    Finset.single_le_sum (fun k _ => swapDue_nonneg h.wf) (Finset.mem_range.mpr hi)
  have hauctions : 0 ≤ ∑ k ∈ Finset.range c.auctionCount, c.auctionDue t k :=
    Finset.sum_nonneg fun k _ => auctionDue_nonneg h.wf
  have hcovered := h.covered t
  have hnonneg := hpool t
  unfold Escrow.obligations at hcovered
  omega

end Cover

section Calls

variable {env : Env} {c c' : Escrow} {w : Warrant} {i t : ℕ} {r : SwapRecord} {s s₁ s' : State}
  {call : Call} {u : Unit}

structure Redeemable (s : State) (i : ℕ) (r : SwapRecord) : Prop where
  price : 0 ≤ r.price
  held : 0 ≤ (s.escrow.swapCollateral i).getD 0
  covered : r.price + (s.escrow.swapCollateral i).getD 0 ≤
    s.balance r.token currentContractAddress

theorem Redeemable.congr (h : Redeemable s i r) (hheld : s₁.swapCollateral = s.swapCollateral)
    (hbalance : s₁.balance = s.balance) : Redeemable s₁ i r := by
  have hcovered := h.covered
  have hnonneg := h.held
  simp only [State.swapCollateral_escrow] at hheld
  exact ⟨h.price, by rwa [hheld], by rwa [hheld, hbalance]⟩

theorem refundPrice_succeeds (h : Redeemable s i r) :
    refundPrice i r s = .ok ((), s.transferred (refundOf i r r.price)) := by
  have hcovered := h.covered
  have hheld := h.held
  have hbalance : r.price ≤ s.balance r.token currentContractAddress := by omega
  exact transfer_ok.mpr ⟨⟨h.price, hbalance⟩, rfl⟩

/-- What is left after the refund covers the collateral, also if the contract pays itself. -/
theorem Redeemable.left (h : Redeemable s i r) : (s.escrow.swapCollateral i).getD 0 ≤
    (s.transferred (refundOf i r r.price)).balance r.token currentContractAddress := by
  have hcovered := h.covered
  have hprice := h.price
  have hflow : -r.price ≤ (refundOf i r r.price).flow r.token currentContractAddress := by
    simp only [Transfer.flow, refundOf]
    split_ifs <;> omega
  change _ ≤ s.balance r.token currentContractAddress + _
  omega

theorem releaseCollateral_succeeds {dst : Address} {log : ℤ → List Event}
    (hheld : 0 ≤ (s.escrow.swapCollateral i).getD 0)
    (hcovered : (s.escrow.swapCollateral i).getD 0 ≤ s.balance r.token currentContractAddress) :
    ∃ s', releaseCollateral i r dst log s = .ok ((), s') := by
  by_cases hasks : 0 < r.collateralAmount
  · cases hx : s.escrow.swapCollateral i with
    | none => simp [releaseCollateral, hasks, hx]
    | some x =>
      rw [hx, Option.getD_some] at hheld hcovered
      simp [releaseCollateral, hasks, hx, payOut, forgetCollateral, hheld, hcovered]
  · simp [releaseCollateral, hasks]

theorem cancelExpiredSwap_succeeds (h : Redeemable s i r) (hr : s.swap i = some r)
    (hfrom : r.status = .accepted) (hexpired : r.expiry < env.timestamp) :
    ∃ s', cancelExpiredSwap env i r.buyer s = .ok ((), s') := by
  obtain ⟨s₁, hclose⟩ : ∃ s₁, closeSwap i r .cancelled s = .ok ((), s₁) := ⟨_, rfl⟩
  have h₁ : Redeemable s₁ i r := by
    cases hclose
    exact h.congr rfl rfl
  have hrefund := refundPrice_succeeds h₁
  obtain ⟨s₂, hrelease⟩ : ∃ s₂, releaseCollateral i r r.buyer (collateralRefunded i r)
      (s₁.transferred (refundOf i r r.price)) = .ok ((), s₂) :=
    releaseCollateral_succeeds h₁.held h₁.left
  simp [cancelExpiredSwap, hr, hfrom, hexpired]
  exact ⟨s₁, hclose, _, hrefund, s₂, hrelease, _, rfl, _, rfl⟩

theorem autoResolveDispute_succeeds (h : Redeemable s i r) (hr : s.swap i = some r)
    (hfrom : r.status = .disputed)
    (hdue : protocolConfig.disputeTimeoutSecs ≤ env.timestamp - r.disputeTimestamp) :
    ∃ s', autoResolveDispute env i s = .ok ((), s') := by
  obtain ⟨s₁, hclose⟩ : ∃ s₁, closeSwap i r .cancelled s = .ok ((), s₁) := ⟨_, rfl⟩
  have h₁ : Redeemable s₁ i r := by
    cases hclose
    exact h.congr rfl rfl
  have hrefund := refundPrice_succeeds h₁
  simp [autoResolveDispute, hr, hfrom, hdue]
  exact ⟨s₁, hclose, _, hrefund, _, rfl⟩

theorem autoRefundTimeout_succeeds {requested : ℕ} (h : Redeemable s i r) (hr : s.swap i = some r)
    (hfrom : r.status = .disputed) (hrequested : s.arbitrationTimestamp i = some requested)
    (hdue : protocolConfig.arbitrationTimeoutSeconds ≤ env.timestamp - requested) :
    ∃ s', autoRefundTimeout env i s = .ok ((), s') := by
  obtain ⟨s₁, hclose⟩ : ∃ s₁, closeSwap i r .cancelled s = .ok ((), s₁) := ⟨_, rfl⟩
  have h₁ : Redeemable (s₁.setArbitrationTimestamp i none) i r := by
    cases hclose
    exact h.congr rfl rfl
  have hrefund := refundPrice_succeeds h₁
  simp [autoRefundTimeout, hr, hfrom, hrequested, hdue]
  exact ⟨s₁, hclose, _, hrefund, _, rfl, _, rfl⟩

theorem Step.refunds_price (hstep : Step env c (.refunded i w) c') (hr : c.swap i = some r) :
    c'.swap i = some (r.withStatus .cancelled) ∧
      ∃ ms, c'.transfers = c.transfers ++ ms ∧ refundOf i r r.price ∈ ms := by
  cases hstep with
  | @refunded _ r₁ _ ms hr₁ _ _ _ hrefund =>
    obtain rfl := Option.some.inj (hr.symm.trans hr₁)
    refine ⟨?_, ms, rfl, hrefund⟩
    simp [Escrow.pay, Escrow.release, Escrow.close, Escrow.setSwap, Escrow.setActiveSwap]

theorem Step.leaves (hstep : Step env s.escrow (.refunded i w) s'.escrow) (hr : s.swap i = some r) :
    s'.swap i = some (r.withStatus .cancelled) ∧ refundOf i r r.price ∈ newTransfers s s' := by
  obtain ⟨hr', ms, hms, hrefund⟩ := hstep.refunds_price hr
  refine ⟨hr', ?_⟩
  rw [newTransfers, State.transfers_escrow, State.transfers_escrow, hms, List.drop_left]
  exact hrefund

theorem leaves_accepted (h : Redeemable s i r) (hr : s.swap i = some r)
    (hfrom : r.status = .accepted) (hexpired : r.expiry < t) : CanLeave s i r t := by
  refine ⟨_, .expired r.buyer, ?_⟩
  intro env htime hauths
  subst htime
  obtain ⟨s', hcall⟩ := cancelExpiredSwap_succeeds h hr hfrom hexpired
  exact ⟨s', hcall, (cancelExpiredSwap_step hcall).leaves hr⟩

theorem leaves_resolved (h : Redeemable s i r) (hr : s.swap i = some r)
    (hfrom : r.status = .disputed)
    (hdue : r.disputeTimestamp + protocolConfig.disputeTimeoutSecs ≤ t) : CanLeave s i r t := by
  refine ⟨_, .resolved, ?_⟩
  intro env htime hauths
  subst htime
  have hlate : protocolConfig.disputeTimeoutSecs ≤ env.timestamp - r.disputeTimestamp := by omega
  obtain ⟨s', hcall⟩ := autoResolveDispute_succeeds h hr hfrom hlate
  exact ⟨s', hcall, (autoResolveDispute_step hcall).leaves hr⟩

theorem leaves_timedOut {requested : ℕ} (h : Redeemable s i r) (hr : s.swap i = some r)
    (hfrom : r.status = .disputed) (hrequested : s.arbitrationTimestamp i = some requested)
    (hdue : requested + protocolConfig.arbitrationTimeoutSeconds ≤ t) : CanLeave s i r t := by
  refine ⟨_, .timedOut, ?_⟩
  intro env htime hauths
  subst htime
  have hlate : protocolConfig.arbitrationTimeoutSeconds ≤ env.timestamp - requested := by omega
  obtain ⟨s', hcall⟩ := autoRefundTimeout_succeeds h hr hfrom hrequested hlate
  exact ⟨s', hcall, (autoRefundTimeout_step hcall).leaves hr⟩

theorem Timely.getsOut (htimely : Timely s i r) (h : Redeemable s i r) (hr : s.swap i = some r)
    (hheld : r.status = .accepted ∨ r.status = .disputed) : GetsOut s i r := by
  unfold Timely at htimely
  cases hheld with
  | inl hfrom =>
    rw [if_pos hfrom] at htimely
    exact ⟨r.expiry + 1, htimely, fun t hlate _ => leaves_accepted h hr hfrom (by omega)⟩
  | inr hfrom =>
    rw [if_neg (by simp [hfrom])] at htimely
    rcases htimely with hsoon | ⟨requested, hrequested, hsoon⟩
    · exact ⟨_, hsoon, fun t hlate _ => leaves_resolved h hr hfrom hlate⟩
    · exact ⟨_, hsoon, fun t hlate _ => leaves_timedOut h hr hfrom hrequested hlate⟩

theorem WayOut.waits (hway : WayOut i call) (h : exec env call s = .ok ((), s'))
    (hr : s.swap i = some r) (htime : env.timestamp < 2 ^ 64) : Timely s i r := by
  unfold Timely
  cases hway with
  | expired caller =>
    generalize hc : s'.escrow = c'
    cases hc ▸ cancelExpiredSwap_step h with
    | refunded hr₁ hw =>
      obtain rfl := Option.some.inj (hr.symm.trans hr₁)
      obtain ⟨hfrom, hexpired⟩ := hw
      rw [if_pos hfrom]
      omega
  | withdrawn =>
    obtain ⟨r₁, hr₁, -, -, hfrom, hexpired, -⟩ := escrowWithdraw_escrow h
    obtain rfl := Option.some.inj (hr.symm.trans hr₁)
    rw [if_pos hfrom]
    omega
  | resolved =>
    obtain ⟨r₁, hr₁, hfrom, hdue, -⟩ := autoResolveDispute_due h
    obtain rfl := Option.some.inj (hr.symm.trans hr₁)
    rw [if_neg (by simp [hfrom])]
    left
    simp [protocolConfig] at hdue ⊢
    omega
  | timedOut =>
    obtain ⟨r₁, requested, hr₁, hfrom, hrequested, hdue, -⟩ := autoRefundTimeout_due h
    obtain rfl := Option.some.inj (hr.symm.trans hr₁)
    rw [if_neg (by simp [hfrom])]
    right
    refine ⟨requested, hrequested, ?_⟩
    simp [protocolConfig] at hdue ⊢
    omega

theorem GetsOut.timely (h : GetsOut s i r) (hr : s.swap i = some r) : Timely s i r := by
  obtain ⟨T, hT, hleaves⟩ := h
  obtain ⟨call, hway, hcall⟩ := hleaves (2 ^ 64 - 1) (by omega) (by omega)
  obtain ⟨s', hexec, -⟩ := hcall
    ⟨2 ^ 64 - 1, [r.buyer], fun _ => ⟨fun _ => none, fun _ _ _ => none⟩, fun _ _ => none⟩ rfl rfl
  exact hway.waits hexec hr (by simp)

end Calls

section Runs

variable {tr : List (Act × State)} {s s' : State} {act : Act} {call : Call} {i : ℕ} {r : SwapRecord}

theorem Call.Deals.keepsAccounts (h : call.Deals) : call.KeepsAccounts ∧ call.rollsBack = [] := by
  cases call <;> first | exact h.elim | exact ⟨trivial, rfl⟩

theorem Dealing.sparesPool (h : OnCalls Dealing s act) : OnCalls SparesPool s act := by
  intro call hcall
  obtain ⟨hhosted, hdeals⟩ := h call hcall
  obtain ⟨hkeeps, hids⟩ := hdeals.keepsAccounts
  exact ⟨hhosted, hkeeps, by simp [hids, Uninsured]⟩

theorem ActStep.pool_nonneg (hact : ActStep s act s') (hwf : Wf s.escrow)
    (hpool : ∀ t, 0 ≤ s.escrow.pool t) : Wf s'.escrow ∧ ∀ t, 0 ≤ s'.escrow.pool t := by
  obtain ⟨q, hmoves⟩ := hact.answers
  refine hmoves.invariant (I := fun c => Wf c ∧ ∀ t, 0 ≤ c.pool t) ?_ ⟨hwf, hpool⟩
  intro c m c' _ hc hstep
  exact ⟨hstep.wf hc.1, hstep.pool_nonneg hc.1 hc.2⟩

/-- A funded escrow whose pool is none below zero. -/
structure Paying (c : Escrow) : Prop where
  funded : Funded c
  pool : ∀ t, 0 ≤ c.pool t

theorem ActStep.paying (hact : ActStep s act s') (hcond : OnCalls Dealing s act)
    (h : Paying s.escrow) : Paying s'.escrow where
  funded := hact.funded (Dealing.sparesPool hcond) h.funded
  pool := (hact.pool_nonneg h.funded.covers.wf h.pool).2

theorem Paying.redeemable (h : Paying s.escrow) (hr : s.swap i = some r)
    (hheld : r.status = .accepted ∨ r.status = .disputed) : Redeemable s i r := by
  obtain ⟨hi, hsound⟩ := h.funded.covers.wf.stored i r hr
  have hdue : r.due = r.price := by rcases hheld with hst | hst <;> simp [SwapRecord.due, hst]
  have hle := swapDue_le (t := r.token) h.funded.covers h.pool hi
  rw [swapDue_of hr, if_pos rfl, hdue] at hle
  exact ⟨hsound.price.le, held_nonneg h.funded.covers.wf, hle⟩

/-- The buyer of a funded swap gets out if and only if the time he waits for can come. -/
theorem gets_out_iff (h : Reaches (OnCalls Dealing) tr s) (hr : s.swap i = some r)
    (hheld : r.status = .accepted ∨ r.status = .disputed) : GetsOut s i r ↔ Timely s i r := by
  obtain ⟨balance, hbalance, hrun⟩ := h
  have hpaying := hrun.invariant (I := fun s => Paying s.escrow)
    ⟨.empty hbalance, by simp [Escrow.pool, State.escrow, State.empty]⟩
    fun _ _ _ hs hact => hact.1.paying hact.2 hs
  constructor
  · intro hout
    exact hout.timely hr
  · intro htimely
    exact htimely.getsOut (hpaying.redeemable hr hheld) hr hheld

end Runs

section Sales

open Scenario

def extendedOffer (expiry : ℕ) : List (Env × Call) :=
  [(env [] 0, .initializeContract registry),
    (env [seller] 1, .initiateSwap token 1 seller 1000 buyer 0 none 100 true),
    (env [seller] 2, .extendSwapExpiry 0 expiry)]

theorem sold_after_extension (expiry : ℕ) (seen : State → Bool)
    (h : watch (State.empty funds) (extendedOffer expiry) (env [buyer] 3) (.acceptSwap 0)
      (fun _ s => seen s) = true) :
    ∃ tr s, Reaches (OnCalls Dealing) tr s ∧ seen s = true := by
  obtain ⟨tr, s₁, s, hrun, hexec, hseen⟩ := watched (OnCalls Dealing) funds (extendedOffer expiry)
    (env [buyer] 3) (.acceptSwap 0) (fun _ s => seen s) h
    (by simp [extendedOffer, OnCalls, Dealing, Env.Hosted, Call.Deals, env, currentContractAddress,
      seller])
  have hdealing : OnCalls Dealing s₁ ⟨env [buyer] 3, some (.acceptSwap 0)⟩ := by
    simp [OnCalls, Dealing, Env.Hosted, Call.Deals, env, currentContractAddress, buyer]
  exact ⟨_, s, ⟨funds, funds_contract, hrun.next ⟨.call hexec, hdealing⟩⟩, hseen⟩

theorem extended_sale_left : ∃ tr s r, Reaches (OnCalls Dealing) tr s ∧ s.swap 0 = some r ∧
    r.status = .accepted ∧ r.expiry = 2592000 ∧ GetsOut s 0 r := by
  obtain ⟨tr, s, hreach, hseen⟩ := sold_after_extension 2592000
    (fun s => (s.swap 0).any fun r => r.status = .accepted ∧ r.expiry = 2592000) (by decide)
  simp only [Option.any_eq_true, decide_eq_true_eq] at hseen
  obtain ⟨r, hr, hst, hexpiry⟩ := hseen
  have htimely : Timely s 0 r := by
    rw [Timely, if_pos hst, hexpiry]
    decide
  exact ⟨tr, s, r, hreach, hr, hst, hexpiry, (gets_out_iff hreach hr (.inl hst)).mpr htimely⟩

/-- Put off to the last time there is, the expiry never passes. -/
theorem endless_sale_held : ∃ tr s r, Reaches (OnCalls Dealing) tr s ∧ s.swap 0 = some r ∧
    r.status = .accepted ∧ ¬ GetsOut s 0 r := by
  obtain ⟨tr, s, hreach, hseen⟩ := sold_after_extension (2 ^ 64 - 1)
    (fun s => (s.swap 0).any fun r => r.status = .accepted ∧ r.expiry = 2 ^ 64 - 1) (by decide)
  simp only [Option.any_eq_true, decide_eq_true_eq] at hseen
  obtain ⟨r, hr, hst, hexpiry⟩ := hseen
  refine ⟨tr, s, r, hreach, hr, hst, ?_⟩
  intro hout
  have htimely := hout.timely hr
  rw [Timely, if_pos hst, hexpiry] at htimely
  omega

end Sales

end AtomicIp.AtomicSwap
