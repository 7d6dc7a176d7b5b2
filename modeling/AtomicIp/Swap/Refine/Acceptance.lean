import AtomicIp.Swap.Refine.Effects

set_option autoImplicit false

namespace AtomicIp.AtomicSwap

open Function

variable {env : Env} {s s' : State} {u : Unit} {i : ℕ} {r : SwapRecord}

section Acceptances

/-- The escrow after the buyer of `r` has paid for it, and `r'` is stored. -/
def Escrow.accept (c : Escrow) (deposits premium : Bool) (i : ℕ) (r r' : SwapRecord) : Escrow :=
  (((c.lockCollateral deposits i r).collectPremium premium r).setSwap i (some r')).pay
    (funding i r r'.price deposits premium)

/-- The buyer of `r` pays for it, and `r'` is stored. -/
structure Accepts (env : Env) (c : Escrow) (deposits premium escrowed : Bool) (i : ℕ)
    (r r' : SwapRecord) (c' : Escrow) : Prop where
  stored : c.swap i = some r
  source : r.status = .pending ∨ r.status = .accepted
  auth : r.buyer ∈ env.auths
  terms : r'.terms = r.terms
  target : r'.status = .accepted
  price : Acceptable r r'.price
  paid : r'.paidAmount = r.paidAmount
  locks : deposits = true → c.swapCollateral i = none ∧ 0 < r.collateralAmount
  nonneg : ∀ m ∈ funding i r r'.price deposits premium, 0 ≤ m.amount
  expiry : r'.expiry = r.expiry
  insures : premium = true → r.insuranceEnabled = true ∧ 0 < r.insurancePremium
  escrow : c' = (c.recordDeposit escrowed i r'.price).accept deposits premium i r r'

theorem Accepts.step {c c' : Escrow} {deposits premium escrowed : Bool} {r r' : SwapRecord}
    (h : Accepts env c deposits premium escrowed i r r' c') : Step env c (.accepted i) c' := by
  have hstep := Step.accepted r' deposits premium escrowed h.stored h.source h.auth h.terms
    h.target h.price h.paid h.locks h.nonneg h.expiry h.insures
  rw [h.escrow]
  exact hstep

def Collecting (env : Env) (c : Escrow) (m : Move) (c' : Escrow) : Prop :=
  ∃ i r r' deposits premium, m = .accepted i ∧ Accepts env c deposits premium false i r r' c' ∧
    (deposits = true ↔ 0 < r.collateralAmount ∧ c.swapCollateral i = none) ∧
    (premium = true ↔ r.insuranceEnabled = true ∧ 0 < r.insurancePremium)

/-- An acceptance that only takes the price, and in escrow mode remembers it. -/
def Charging (escrowed : Bool) (env : Env) (c : Escrow) (m : Move) (c' : Escrow) : Prop :=
  ∃ i r r', m = .accepted i ∧ r.status = .pending ∧
    Accepts env c false false escrowed i r r' c'

theorem Collecting.step {c c' : Escrow} {m : Move} (h : Collecting env c m c') :
    Step env c m c' := by
  obtain ⟨i, r, r', deposits, premium, rfl, haccepts, -⟩ := h
  exact haccepts.step

theorem Charging.step {c c' : Escrow} {m : Move} {escrowed : Bool}
    (h : Charging escrowed env c m c') : Step env c m c' := by
  obtain ⟨i, r, r', rfl, -, haccepts⟩ := h
  exact haccepts.step

theorem acceptSwap_escrow (h : acceptSwap env i s = .ok (u, s')) :
    ∃ r deposits premium, s.escrow.swap i = some r ∧ r.status = .pending ∧ r.buyer ∈ env.auths ∧
      (deposits = true ↔ 0 < r.collateralAmount) ∧
      (deposits = true → s.escrow.swapCollateral i = none) ∧
      (premium = true ↔ r.insuranceEnabled = true ∧ 0 < r.insurancePremium) ∧
      (∀ m ∈ funding i r r.price deposits premium, 0 ≤ m.amount) ∧
      s'.escrow = s.escrow.accept deposits premium i r (r.acceptedAt env.timestamp) := by
  simp [acceptSwap, payPrice] at h
  obtain ⟨-, r, hr, hauth, hfrom, -, -, -, s₁, hdeposit, hprice, s₂, hpremium, s₃, hmark, rfl⟩ := h
  obtain ⟨deposits, hasks, hnone, hpos₁, e₁⟩ := depositCollateral_escrow hdeposit
  obtain ⟨premium, hinsured, hpos₂, e₂⟩ := collectPremium_escrow hpremium
  have e₃ := markAccepted_escrow hmark
  refine ⟨r, deposits, premium, hr, hfrom, hauth, hasks, hnone, hinsured,
    funding_nonneg hpos₁ hprice.1 hpos₂, ?_⟩
  simp [e₁, e₂, e₃, Escrow.accept, funding, priceOf, SwapRecord.acceptedAt]

theorem acceptSwap_checks (h : acceptSwap env i s = .ok (u, s')) :
    s.paused.getD false = false ∧ ∃ r, s.escrow.swap i = some r ∧ r.buyer ∈ env.auths ∧
      r.status = .pending ∧
      (0 < r.requiredApprovals → r.requiredApprovals ≤ ((s.swapApprovals i).getD []).length) ∧
      (∀ condition ∈ r.conditions, condition.holds env r) ∧
      ((s.reputationMultiplier i).all fun m => decide (m ≤ (s.userReputation r.buyer).getD 50)) =
        true ∧
      (0 < r.collateralAmount → s.escrow.swapCollateral i = none) := by
  simp only [acceptSwap, Tx.bind_ok, requireNotPaused_ok, requireSwapExists_ok, requireAuth_ok,
    requireSwapStatus_ok, requireApprovals_ok, evaluateConditions_ok, requireReputation_ok] at h
  obtain ⟨_, _, ⟨hopen, rfl⟩, r, _, ⟨hr, rfl⟩, _, _, ⟨hauth, rfl⟩, _, _, ⟨hfrom, rfl⟩, _, _,
    ⟨happroved, rfl⟩, _, _, ⟨hconditions, rfl⟩, _, _, ⟨hreputation, rfl⟩, _, s₁, hdeposit, -⟩ := h
  obtain ⟨deposits, hasks, hnone, -⟩ := depositCollateral_escrow hdeposit
  exact ⟨hopen, r, hr, hauth, hfrom, happroved, hconditions, hreputation,
    fun hpos => hnone (hasks.mpr hpos)⟩

theorem acceptSwap_collecting (h : acceptSwap env i s = .ok (u, s')) :
    Collecting env s.escrow (.accepted i) s'.escrow := by
  obtain ⟨r, deposits, premium, hr, hfrom, hauth, hasks, hnone, hinsured, hpos, e⟩ :=
    acceptSwap_escrow h
  refine ⟨i, r, r.acceptedAt env.timestamp, deposits, premium, rfl,
    ⟨hr, .inl hfrom, hauth, rfl, rfl, .inl rfl, rfl, fun hd => ⟨hnone hd, hasks.mp hd⟩, hpos, rfl,
      hinsured.mp, e⟩, ?_, hinsured⟩
  exact ⟨fun hd => ⟨hasks.mp hd, hnone hd⟩, fun hd => hasks.mpr hd.1⟩

theorem acceptSwap_step (h : acceptSwap env i s = .ok (u, s')) :
    Step env s.escrow (.accepted i) s'.escrow := (acceptSwap_collecting h).step

theorem charging_of_escrow {escrowed : Bool} (r' : SwapRecord) (hr : s.escrow.swap i = some r)
    (hfrom : r.status = .pending) (hauth : r.buyer ∈ env.auths) (hterms : r'.terms = r.terms)
    (hto : r'.status = .accepted) (hprice : Acceptable r r'.price)
    (hpaid : r'.paidAmount = r.paidAmount) (hpos : 0 ≤ r'.price) (hexpiry : r'.expiry = r.expiry)
    (e : s'.escrow = ((s.escrow.recordDeposit escrowed i r'.price).setSwap i (some r')).pay
      [priceOf i r r'.price]) :
    Charging escrowed env s.escrow (.accepted i) s'.escrow := by
  refine ⟨i, r, r', rfl, hfrom, hr, .inl hfrom, hauth, hterms, hto, hprice, hpaid, by simp,
    funding_nonneg (by simp) hpos (by simp), hexpiry, by simp, ?_⟩
  simpa [Escrow.accept, funding] using e

theorem acceptSwapConditional_escrow {conditions : List SwapCondition}
    (h : acceptSwapConditional env i conditions s = .ok (u, s')) :
    ∃ r, s.escrow.swap i = some r ∧ r.status = .pending ∧ r.buyer ∈ env.auths ∧
      (0 < r.requiredApprovals → r.requiredApprovals ≤ ((s.swapApprovals i).getD []).length) ∧
      0 ≤ r.price ∧ (∀ condition ∈ conditions, condition.holds env { r with conditions }) ∧
      s'.escrow = (s.escrow.setSwap i
        (some ({ r with conditions }.acceptedAt env.timestamp))).pay [priceOf i r r.price] := by
  simp [acceptSwapConditional, payPrice] at h
  obtain ⟨-, r, hr, hauth, hfrom, happroved, hholds, hprice, s₁, hmark, rfl⟩ := h
  have e₁ := markAccepted_escrow hmark
  exact ⟨r, hr, hfrom, hauth, happroved, hprice.1, hholds, by simpa [priceOf] using e₁⟩

theorem acceptSwapConditional_charging {conditions : List SwapCondition}
    (h : acceptSwapConditional env i conditions s = .ok (u, s')) :
    Charging false env s.escrow (.accepted i) s'.escrow := by
  obtain ⟨r, hr, hfrom, hauth, -, hprice, -, e⟩ := acceptSwapConditional_escrow h
  exact charging_of_escrow ({ r with conditions }.acceptedAt env.timestamp) hr hfrom
    hauth rfl rfl (.inl rfl) rfl hprice rfl (by simpa [SwapRecord.acceptedAt] using e)

theorem acceptSwapConditional_step {conditions : List SwapCondition}
    (h : acceptSwapConditional env i conditions s = .ok (u, s')) :
    Step env s.escrow (.accepted i) s'.escrow := (acceptSwapConditional_charging h).step

theorem acceptSwapPartial_escrow {quantity : ℕ}
    (h : acceptSwapPartial env i quantity s = .ok (u, s')) :
    ∃ (r : SwapRecord) (price : ℤ), s.escrow.swap i = some r ∧ r.status = .pending ∧
      r.buyer ∈ env.auths ∧ Acceptable r price ∧ 0 ≤ price ∧
      s'.escrow = (s.escrow.setSwap i
        (some ({ r with price, quantity }.acceptedAt env.timestamp))).pay [priceOf i r price] := by
  simp [acceptSwapPartial, payPrice] at h
  obtain ⟨-, r, hr, hauth, hfrom, ⟨hzero, hle⟩, -, -, hprice, s₁, hmark, rfl⟩ := h
  have e₁ := markAccepted_escrow hmark
  exact ⟨r, _, hr, hfrom, hauth, .inr ⟨hfrom, quantity, hzero, hle, rfl⟩, hprice.1,
    by simpa [priceOf] using e₁⟩

theorem acceptSwapPartial_charging {quantity : ℕ}
    (h : acceptSwapPartial env i quantity s = .ok (u, s')) :
    Charging false env s.escrow (.accepted i) s'.escrow := by
  obtain ⟨r, price, hr, hfrom, hauth, hacceptable, hprice, e⟩ := acceptSwapPartial_escrow h
  exact charging_of_escrow ({ r with price, quantity }.acceptedAt env.timestamp) hr hfrom hauth
    rfl rfl hacceptable rfl hprice rfl (by simpa [SwapRecord.acceptedAt] using e)

theorem acceptSwapPartial_step {quantity : ℕ}
    (h : acceptSwapPartial env i quantity s = .ok (u, s')) :
    Step env s.escrow (.accepted i) s'.escrow := (acceptSwapPartial_charging h).step

theorem validateAcceptance_ok {buyer : Address} (h : validateAcceptance buyer i s = .ok (u, s')) :
    s' = s ∧ ∃ r, s.escrow.swap i = some r ∧ r.buyer = buyer ∧ r.status = .pending := by
  simp [validateAcceptance] at h
  obtain ⟨r, hr, hbuyer, ⟨hfrom, hs⟩, -⟩ := h
  exact ⟨hs, r, hr, hbuyer, hfrom⟩

/-- What the first pass leaves true of the whole list while the second one runs. -/
def AcceptableBy (buyer : Address) (ids : List ℕ) (c : Escrow) : Prop :=
  ∀ i ∈ ids, ∃ r, c.swap i = some r ∧ r.buyer = buyer ∧
    (r.status = .pending ∨ r.status = .accepted)

theorem acceptValidated_escrow (h : acceptValidated env i s = .ok (u, s')) :
    ∃ r deposits premium, s.escrow.swap i = some r ∧
      (deposits = true ↔ 0 < r.collateralAmount ∧ s.escrow.swapCollateral i = none) ∧
      (premium = true ↔ r.insuranceEnabled = true ∧ 0 < r.insurancePremium) ∧
      (∀ m ∈ funding i r r.price deposits premium, 0 ≤ m.amount) ∧
      s'.escrow = s.escrow.accept deposits premium i r (r.acceptedAt env.timestamp) := by
  simp [acceptValidated, payPrice] at h
  obtain ⟨r, hr, s₁, hdeposit, hprice, s₂, hpremium, hmark⟩ := h
  obtain ⟨deposits, hasks, hpos₁, e₁⟩ := depositCollateralOnce_escrow hdeposit
  obtain ⟨premium, hinsured, hpos₂, e₂⟩ := collectPremium_escrow hpremium
  have e₃ := markAccepted_escrow hmark
  refine ⟨r, deposits, premium, hr, hasks, hinsured, funding_nonneg hpos₁ hprice.1 hpos₂, ?_⟩
  simp [e₃, e₂, e₁, Escrow.accept, funding, priceOf, SwapRecord.acceptedAt]

theorem acceptValidated_collecting {buyer : Address} {ids : List ℕ} (hauth : buyer ∈ env.auths)
    (hi : i ∈ ids) (hids : AcceptableBy buyer ids s.escrow)
    (h : acceptValidated env i s = .ok (u, s')) :
    AcceptableBy buyer ids s'.escrow ∧ Collecting env s.escrow (.accepted i) s'.escrow := by
  obtain ⟨r, deposits, premium, hr, hasks, hinsured, hpos, e⟩ := acceptValidated_escrow h
  obtain ⟨r₀, hr₀, hbuyer, hfrom⟩ := hids i hi
  obtain rfl := Option.some.inj (hr₀.symm.trans hr)
  refine ⟨?_, i, r₀, r₀.acceptedAt env.timestamp, deposits, premium, rfl,
    ⟨hr, hfrom, hbuyer ▸ hauth, rfl, rfl, .inl rfl, rfl,
      fun hd => ⟨(hasks.mp hd).2, (hasks.mp hd).1⟩, hpos, rfl, hinsured.mp, e⟩, hasks, hinsured⟩
  intro j hj
  obtain ⟨r₁, hr₁, hbuyer₁, hst⟩ := hids j hj
  by_cases hji : j = i
  · subst hji
    exact ⟨r₀.acceptedAt env.timestamp, by simp [e, Escrow.accept, Escrow.pay, Escrow.setSwap],
      hbuyer, .inr rfl⟩
  · exact ⟨r₁, by simp [e, Escrow.accept, Escrow.pay, Escrow.setSwap, Escrow.lockCollateral,
      Escrow.collectPremium, hji, hr₁], hbuyer₁, hst⟩

theorem acceptValidated_step {buyer : Address} {ids : List ℕ} (hauth : buyer ∈ env.auths)
    (hi : i ∈ ids) (hids : AcceptableBy buyer ids s.escrow)
    (h : acceptValidated env i s = .ok (u, s')) :
    AcceptableBy buyer ids s'.escrow ∧ Step env s.escrow (.accepted i) s'.escrow :=
  (acceptValidated_collecting hauth hi hids h).imp_right Collecting.step

theorem forEach_acceptValidated_path {ids all : List ℕ} {buyer : Address} {us : List Unit}
    (hauth : buyer ∈ env.auths) (hsub : ids ⊆ all) (hids : AcceptableBy buyer all s.escrow)
    (h : Tx.forEach ids (acceptValidated env) s = .ok (us, s')) :
    Path (Collecting env) s.escrow (ids.map .accepted) s'.escrow := by
  induction ids generalizing s us with
  | nil =>
    obtain ⟨-, rfl⟩ := Tx.forEach_nil_ok.mp h
    exact .nil
  | cons i rest ih =>
    obtain ⟨_, s₁, _, hi, hrest, -⟩ := Tx.forEach_cons_ok.mp h
    obtain ⟨hids₁, hstep⟩ := acceptValidated_collecting hauth (hsub (by simp)) hids hi
    exact .cons hstep (ih (fun j hj => hsub (by simp [hj])) hids₁ hrest)

theorem batchAcceptSwaps_passes {ids : List ℕ} {buyer : Address}
    (h : batchAcceptSwaps env ids buyer s = .ok (u, s')) :
    buyer ∈ env.auths ∧
      (∀ i ∈ ids, ∃ r, s.escrow.swap i = some r ∧ r.buyer = buyer ∧ r.status = .pending) ∧
      AcceptableBy buyer ids s.escrow ∧
      ∃ us s₁, Tx.forEach ids (acceptValidated env) s = .ok (us, s₁) ∧
        s' = s₁.published [⟨"btch_acp", .batchAccepted ids buyer⟩] := by
  simp [batchAcceptSwaps] at h
  obtain ⟨-, hauth, -, -, _, s₁, hvalid, us, s₂, haccept, rfl⟩ := h
  obtain ⟨rfl, hall⟩ := Tx.forEach_checks (fun i _ _ _ _ hi => validateAcceptance_ok hi) hvalid
  have hids : AcceptableBy buyer ids s₁.escrow := by
    intro i hi
    obtain ⟨r, hr, hbuyer, hfrom⟩ := hall i hi
    exact ⟨r, hr, hbuyer, .inl hfrom⟩
  exact ⟨hauth, hall, hids, us, s₂, haccept, rfl⟩

theorem batchAcceptSwaps_path {ids : List ℕ} {buyer : Address}
    (h : batchAcceptSwaps env ids buyer s = .ok (u, s')) :
    (∀ i ∈ ids, ∃ r, s.escrow.swap i = some r ∧ r.buyer = buyer ∧ r.status = .pending) ∧
      Path (Collecting env) s.escrow (ids.map .accepted) s'.escrow := by
  obtain ⟨hauth, hall, hids, _, s₁, haccept, rfl⟩ := batchAcceptSwaps_passes h
  refine ⟨hall, ?_⟩
  simpa using forEach_acceptValidated_path hauth (List.Subset.refl _) hids haccept

theorem batchAcceptSwaps_collecting {ids : List ℕ} {buyer : Address}
    (h : batchAcceptSwaps env ids buyer s = .ok (u, s')) :
    Emits (Collecting env) (∃ i ∈ ids, · = .accepted i) s.escrow s'.escrow := by
  refine ⟨_, (batchAcceptSwaps_path h).2, ?_⟩
  intro m hm
  obtain ⟨i, hi, rfl⟩ := List.mem_map.mp hm
  exact ⟨i, hi, rfl⟩

theorem batchAcceptSwaps_moves {ids : List ℕ} {buyer : Address}
    (h : batchAcceptSwaps env ids buyer s = .ok (u, s')) :
    Emits (Step env) (∃ i ∈ ids, · = .accepted i) s.escrow s'.escrow :=
  (batchAcceptSwaps_collecting h).weaken fun _ _ _ hstep => hstep.step

theorem depositEscrow_escrow (h : depositEscrow env i r s = .ok (u, s')) :
    r.status = .pending ∧ 0 ≤ r.price ∧
      s'.escrow = ((s.escrow.setEscrowDeposit i (some r.price)).setSwap i
        (some (r.acceptedAt env.timestamp))).pay [priceOf i r r.price] := by
  simp [depositEscrow, payPrice] at h
  obtain ⟨-, hfrom, hprice, s₁, hmark, rfl⟩ := h
  have e₁ := markAccepted_escrow hmark
  exact ⟨hfrom, hprice.1, by simp [e₁, priceOf]⟩

theorem depositEscrow_charging (hr : s.escrow.swap i = some r) (hauth : r.buyer ∈ env.auths)
    (h : depositEscrow env i r s = .ok (u, s')) :
    Charging true env s.escrow (.accepted i) s'.escrow := by
  obtain ⟨hfrom, hprice, e⟩ := depositEscrow_escrow h
  exact charging_of_escrow (r.acceptedAt env.timestamp) hr hfrom hauth rfl rfl (.inl rfl) rfl
    hprice rfl (by simpa [priceOf, SwapRecord.acceptedAt] using e)

theorem escrowDeposit_ok : escrowDeposit env i s = .ok (u, s') ↔
    ∃ r, s.escrow.swap i = some r ∧ r.buyer ∈ env.auths ∧
      depositEscrow env i r s = .ok (u, s') := by
  simp [escrowDeposit]

theorem depositOwn_ok {buyer : Address} : depositOwn env buyer i s = .ok (u, s') ↔
    ∃ r, s.escrow.swap i = some r ∧ r.buyer = buyer ∧ depositEscrow env i r s = .ok (u, s') := by
  simp [depositOwn]

theorem batchEscrowDeposit_ok {ids : List ℕ} {buyer : Address} :
    batchEscrowDeposit env ids buyer s = .ok (u, s') ↔
      buyer ∈ env.auths ∧ ∃ us, Tx.forEach ids (depositOwn env buyer) s = .ok (us, s') := by
  simp [batchEscrowDeposit]

theorem escrowDeposit_charging (h : escrowDeposit env i s = .ok (u, s')) :
    Charging true env s.escrow (.accepted i) s'.escrow := by
  obtain ⟨r, hr, hauth, hdeposit⟩ := escrowDeposit_ok.mp h
  exact depositEscrow_charging hr hauth hdeposit

theorem escrowDeposit_step (h : escrowDeposit env i s = .ok (u, s')) :
    Step env s.escrow (.accepted i) s'.escrow := (escrowDeposit_charging h).step

theorem depositOwn_charging {buyer : Address} (hauth : buyer ∈ env.auths)
    (h : depositOwn env buyer i s = .ok (u, s')) :
    Charging true env s.escrow (.accepted i) s'.escrow := by
  obtain ⟨r, hr, rfl, hdeposit⟩ := depositOwn_ok.mp h
  exact depositEscrow_charging hr hauth hdeposit

theorem depositOwn_step {buyer : Address} (hauth : buyer ∈ env.auths)
    (h : depositOwn env buyer i s = .ok (u, s')) :
    Step env s.escrow (.accepted i) s'.escrow := (depositOwn_charging hauth h).step

theorem batchEscrowDeposit_charging {ids : List ℕ} {buyer : Address}
    (h : batchEscrowDeposit env ids buyer s = .ok (u, s')) :
    Emits (Charging true env) (∃ i ∈ ids, · = .accepted i) s.escrow s'.escrow := by
  obtain ⟨hauth, _, hloop⟩ := batchEscrowDeposit_ok.mp h
  exact Tx.forEach_rel (R := fun s s' => Emits (Charging true env) (∃ i ∈ ids, · = .accepted i)
    s.escrow s'.escrow) (fun _ => .refl _) .trans
    (fun i hi _ _ _ hbody => .single (depositOwn_charging hauth hbody) ⟨i, hi, rfl⟩) hloop

theorem batchEscrowDeposit_moves {ids : List ℕ} {buyer : Address}
    (h : batchEscrowDeposit env ids buyer s = .ok (u, s')) :
    Emits (Step env) (∃ i ∈ ids, · = .accepted i) s.escrow s'.escrow :=
  (batchEscrowDeposit_charging h).weaken fun _ _ _ hstep => hstep.step

end Acceptances

section Payments

/-- The payment at `index` is the last one missing from the schedule. -/
def ScheduleDone (s : State) (i index : ℕ) : Prop :=
  ∀ made ∈ ((s.paymentsMade i).getD []).set index true, made = true

/-- A scheduled payment of `r`, which the contract takes for `r'` from then on. -/
structure PaysScheduled (env : Env) (s : State) (i index : ℕ) (s' : State) (r r' : SwapRecord)
    (payment : PaymentSchedule) : Prop where
  stored : s.escrow.swap i = some r
  auth : r.buyer ∈ env.auths
  scheduled : ∃ schedule, s.paymentSchedule i = some schedule ∧ schedule[index]? = some payment
  nonneg : 0 ≤ payment.amount
  unpaid : (((s.paymentsMade i).getD [])[index]?).getD false = false
  listed : index < ((s.paymentsMade i).getD []).length
  escrow : s'.escrow = (s.escrow.setSwap i (some r')).pay [priceOf i r payment.amount]
  made : s'.paymentsMade = update s.paymentsMade i
    (some (((s.paymentsMade i).getD []).set index true))
  done : ScheduleDone s i index → r' = r.acceptedAt env.timestamp
  open_ : ¬ ScheduleDone s i index → r' = r

theorem makeScheduledPayment_pays {index : ℕ}
    (h : makeScheduledPayment env i index s = .ok (u, s')) :
    ∃ r r' payment, PaysScheduled env s i index s' r r' payment := by
  simp [makeScheduledPayment] at h
  obtain ⟨r, hr, hauth, schedule, hschedule, -, hunpaid, payment, hpayment, -, hpos, hlisted, s₁,
    hlast, rfl⟩ := h
  rcases hlast with ⟨hdone, s₂, hmark, rfl⟩ | ⟨hopen, rfl⟩
  · simp [markAccepted, saveSwap, appendHistory] at hmark
    subst hmark
    refine ⟨r, r.acceptedAt env.timestamp, payment, hr, hauth, ⟨schedule, hschedule, hpayment⟩,
      hpos.1, hunpaid, hlisted, by simp [priceOf], rfl, fun _ => rfl, ?_⟩
    intro hopen
    exact absurd (by simpa [ScheduleDone] using hdone) hopen
  · refine ⟨r, r, payment, hr, hauth, ⟨schedule, hschedule, hpayment⟩, hpos.1, hunpaid, hlisted,
      by simp [priceOf, Escrow.setSwap_self _ hr], rfl, ?_, fun _ => rfl⟩
    intro hdone
    exact absurd (by simpa [ScheduleDone] using hdone) (by simpa using hopen)

theorem makeScheduledPayment_step {index : ℕ}
    (h : makeScheduledPayment env i index s = .ok (u, s')) :
    ∃ last, (last = true ↔ ScheduleDone s i index) ∧
      Step env s.escrow (.scheduled i last) s'.escrow := by
  obtain ⟨r, r', payment, hpays⟩ := makeScheduledPayment_pays h
  rw [hpays.escrow]
  by_cases hdone : ScheduleDone s i index
  · obtain rfl := hpays.done hdone
    exact ⟨true, by simpa using hdone, .scheduled _ true hpays.stored hpays.auth hpays.nonneg rfl
      rfl rfl rfl rfl rfl⟩
  · obtain rfl := hpays.open_ hdone
    exact ⟨false, by simpa using hdone, .scheduled _ false hpays.stored hpays.auth hpays.nonneg rfl
      rfl rfl rfl rfl rfl⟩

theorem makeScheduledPayment_open {index : ℕ}
    (h : makeScheduledPayment env i index s = .ok (u, s')) (hopen : ¬ ScheduleDone s i index) :
    s'.escrow.swap = s.escrow.swap := by
  obtain ⟨r, r', payment, hpays⟩ := makeScheduledPayment_pays h
  rw [hpays.escrow, hpays.open_ hopen, Escrow.setSwap_self _ hpays.stored]
  rfl

/-- An instalment of `r`, which the contract takes for `r'` from then on. -/
structure PaysInstallment (env : Env) (s : State) (i : ℕ) (amount : ℤ) (s' : State)
    (r r' : SwapRecord) : Prop where
  stored : s.escrow.swap i = some r
  auth : r.buyer ∈ env.auths
  installment : r.isInstallment = true
  pending : r.status = .pending
  pos : 0 < amount
  le : amount ≤ saturatingI128 (r.price - r.paidAmount)
  escrow : s'.escrow = (s.escrow.setSwap i (some r')).pay [priceOf i r amount]
  done : r.price ≤ saturatingI128 (r.paidAmount + amount) →
    r' = (r.withPaid (saturatingI128 (r.paidAmount + amount))).acceptedAt env.timestamp
  open_ : ¬ r.price ≤ saturatingI128 (r.paidAmount + amount) →
    r' = r.withPaid (saturatingI128 (r.paidAmount + amount))

theorem submitInstallmentPayment_pays {amount : ℤ}
    (h : submitInstallmentPayment env i amount s = .ok (u, s')) :
    ∃ r r', PaysInstallment env s i amount s' r r' := by
  simp [submitInstallmentPayment] at h
  obtain ⟨r, hr, hauth, hinstallment, hfrom, hpos, hle, -, s₁, hlast, rfl⟩ := h
  rcases hlast with ⟨hpaid, s₂, hmark, rfl⟩ | ⟨hpaid, rfl⟩
  · have e := markAccepted_escrow hmark
    exact ⟨r, _, hr, hauth, hinstallment, hfrom, hpos, hle, by simpa [priceOf] using e,
      fun _ => rfl, fun hopen => absurd hpaid hopen⟩
  · refine ⟨r, _, hr, hauth, hinstallment, hfrom, hpos, hle, by simp [priceOf], ?_, fun _ => rfl⟩
    intro hdone
    exact absurd hdone (not_le.mpr hpaid)

theorem submitInstallmentPayment_step {amount : ℤ}
    (h : submitInstallmentPayment env i amount s = .ok (u, s')) :
    ∃ last, (last = true ↔ ∃ r, s.escrow.swap i = some r ∧
        r.price ≤ saturatingI128 (r.paidAmount + amount)) ∧
      Step env s.escrow (.installment i last) s'.escrow := by
  obtain ⟨r, r', hpays⟩ := submitInstallmentPayment_pays h
  rw [hpays.escrow]
  by_cases hdone : r.price ≤ saturatingI128 (r.paidAmount + amount)
  · obtain rfl := hpays.done hdone
    refine ⟨true, by simpa [hpays.stored] using hdone, ?_⟩
    exact .installment _ true hpays.stored hpays.pending hpays.auth rfl rfl rfl hpays.pos rfl
      ⟨fun _ => hdone, fun _ => rfl⟩ rfl rfl
  · obtain rfl := hpays.open_ hdone
    refine ⟨false, by simpa [hpays.stored] using hdone, ?_⟩
    exact .installment _ false hpays.stored hpays.pending hpays.auth rfl rfl rfl hpays.pos rfl
      (by simpa [SwapRecord.withPaid] using hdone) hpays.pending rfl

end Payments

section Terms

theorem renegotiateSwap_escrow {newPrice : ℤ}
    (h : renegotiateSwap env i newPrice s = .ok (u, s')) :
    ∃ r, s.escrow.swap i = some r ∧ r.status = .pending ∧ r.seller ∈ env.auths ∧ 0 < newPrice ∧
      s'.escrow = s.escrow.setSwapRenegotiations i
        (some ⟨newPrice, r.seller, env.timestamp⟩) := by
  simp [renegotiateSwap] at h
  obtain ⟨-, r, hr, hfrom, hauth, hpos, rfl⟩ := h
  exact ⟨r, hr, hfrom, hauth, hpos, rfl⟩

theorem renegotiateSwap_step {newPrice : ℤ}
    (h : renegotiateSwap env i newPrice s = .ok (u, s')) :
    Step env s.escrow (.offered i) s'.escrow := by
  obtain ⟨r, hr, hfrom, hauth, hpos, e⟩ := renegotiateSwap_escrow h
  rw [e]
  exact .offered hr hfrom hauth hpos

theorem acceptRenegotiation_escrow (h : acceptRenegotiation env i s = .ok (u, s')) :
    ∃ r offer, s.escrow.swap i = some r ∧ r.status = .pending ∧ r.buyer ∈ env.auths ∧
      s.escrow.swapRenegotiations i = some offer ∧
      s'.escrow = (s.escrow.setSwap i (some { r with price := offer.newPrice
        })).setSwapRenegotiations i none := by
  simp [acceptRenegotiation] at h
  obtain ⟨-, r, hr, hfrom, hauth, offer, hoffer, rfl⟩ := h
  exact ⟨r, offer, hr, hfrom, hauth, hoffer, rfl⟩

theorem acceptRenegotiation_step (h : acceptRenegotiation env i s = .ok (u, s')) :
    Step env s.escrow (.amended i) s'.escrow := by
  obtain ⟨r, offer, hr, hfrom, hauth, hoffer, e⟩ := acceptRenegotiation_escrow h
  rw [e]
  exact .repriced hr hfrom hauth hoffer

theorem extendSwapExpiry_escrow {newExpiry : ℕ}
    (h : extendSwapExpiry env i newExpiry s = .ok (u, s')) :
    ∃ r, s.escrow.swap i = some r ∧ r.status = .pending ∧ r.seller ∈ env.auths ∧
      r.expiry < newExpiry ∧
      s'.escrow = s.escrow.setSwap i (some { r with expiry := newExpiry }) := by
  simp [extendSwapExpiry] at h
  obtain ⟨r, hr, hauth, hfrom, hlater, rfl⟩ := h
  exact ⟨r, hr, hfrom, hauth, hlater, rfl⟩

theorem extendSwapExpiry_step {newExpiry : ℕ}
    (h : extendSwapExpiry env i newExpiry s = .ok (u, s')) :
    Step env s.escrow (.amended i) s'.escrow := by
  obtain ⟨r, hr, hfrom, hauth, hlater, e⟩ := extendSwapExpiry_escrow h
  rw [e]
  exact .extended newExpiry hr hfrom hauth hlater

theorem approveSwap_escrow {approver : Address} (h : approveSwap env i approver s = .ok (u, s')) :
    s'.escrow = s.escrow := by
  simp [approveSwap] at h
  obtain ⟨-, r, -, -, -, rfl⟩ := h
  simp

theorem setReputationMultiplier_escrow {minReputation : ℕ}
    (h : setReputationMultiplier env i minReputation s = .ok (u, s')) :
    s'.escrow = s.escrow := by
  simp [setReputationMultiplier] at h
  obtain ⟨r, -, -, -, rfl⟩ := h
  simp

theorem signSwapReveal_escrow {signer : Address} (h : signSwapReveal env i signer s = .ok (u, s')) :
    s'.escrow = s.escrow := by
  simp [signSwapReveal] at h
  obtain ⟨-, r, -, -, signers, -, -, -, rfl⟩ := h
  simp

end Terms

end AtomicIp.AtomicSwap
