import AtomicIp.Swap.Deposits

/-!
What an acceptance takes beside the price: the collateral and the insurance premium. Two of the
ways to accept a swap take neither, and a batch takes the premium as often as it names the swap.
-/

set_option autoImplicit false

namespace AtomicIp.AtomicSwap

open Function

def SwapRecord.AsksPremium (r : SwapRecord) : Prop :=
  r.insuranceEnabled = true ∧ 0 < r.insurancePremium

instance (r : SwapRecord) : Decidable r.AsksPremium := inferInstanceAs (Decidable (_ ∧ _))

/-- The premiums that were paid in for the swap `i`. -/
def paidPremiums (i : ℕ) (ms : List TokenTransfer) : List TokenTransfer :=
  ms.filter fun m => m.ref = .premium i ∧ m.src ≠ currentContractAddress

/-- The premium the buyer of `r` owes, as one transfer, if there is one. -/
def premiumDue (i : ℕ) (r : SwapRecord) : List TokenTransfer := premiumOf i r (decide r.AsksPremium)

def Purpose.IsPremium : Purpose → Bool
  | .premium _ => true
  | _ => false

/-- All premiums paid in with the token `t`. -/
def premiumsInto (t : Address) (ms : List TokenTransfer) : ℤ :=
  amountOf (fun m => m.token = t ∧ m.ref.IsPremium ∧ m.src ≠ currentContractAddress) ms

/-- A funded swap has its collateral stored, and its premium was paid once, into the pool. -/
structure DuesTaken (s : State) : Prop where
  collateral : ∀ i r, s.swap i = some r → r.status.Funded → 0 < r.collateralAmount →
    s.swapCollateral i = some r.collateralAmount
  premium : ∀ i r, s.swap i = some r → r.status.Funded →
    paidPremiums i s.transfers = premiumDue i r
  pool : ∀ t, s.escrow.pool t = premiumsInto t s.transfers

/-- The acceptances that take the price only are of swaps that ask for nothing else, and no batch
names an insured swap twice. -/
def TakesDues (s : State) (env : Env) (call : Call) : Prop :=
  env.Hosted ∧ match call with
    | .acceptSwapConditional i _ | .acceptSwapPartial i _ =>
        ∀ r, s.swap i = some r → r.collateralAmount ≤ 0 ∧ ¬ r.AsksPremium
    | .batchAcceptSwaps ids _ =>
        ∀ i ∈ ids, ∀ r, s.swap i = some r → r.AsksPremium → ids.count i ≤ 1
    | _ => True

structure Collected (i : ℕ) (p : Position) : Prop where
  collateral : p.record.status.Funded → 0 < p.record.collateralAmount →
    p.collateral = some p.record.collateralAmount
  premium : p.record.status.Funded → paidPremiums i p.transfers = premiumDue i p.record
  unpaid : p.record.status = .pending ∨ ¬ p.record.AsksPremium → paidPremiums i p.transfers = []

section Premiums

variable {env : Env} {c c' : Escrow} {m : Move} {i : ℕ} {r r' : SwapRecord} {t : Address}
  {ms : List TokenTransfer} {P : Address → Prop} {total : ℤ} {call : Call}

@[simp] theorem paidPremiums_append (ns : List TokenTransfer) :
    paidPremiums i (ms ++ ns) = paidPremiums i ms ++ paidPremiums i ns := List.filter_append ms ns

@[simp] theorem premiumsInto_append (ns : List TokenTransfer) :
    premiumsInto t (ms ++ ns) = premiumsInto t ms + premiumsInto t ns := amountOf_append ns

theorem paidPremiums_account : paidPremiums i (accountOf i ms) = paidPremiums i ms := by
  unfold paidPremiums accountOf
  rw [List.filter_filter]
  congr 1
  funext m
  by_cases hm : m.ref = .premium i <;> simp [hm, Purpose.swap?]

theorem paidPremiums_none
    (h : ∀ m ∈ ms, m.ref.IsPremium = false ∨ m.src = currentContractAddress) :
    paidPremiums i ms = [] := by
  simp only [paidPremiums, List.filter_eq_nil_iff, decide_eq_true_eq, not_and, not_not]
  intro m hm href
  cases h m hm with
  | inl hpremium => simp [href, Purpose.IsPremium] at hpremium
  | inr hsrc => exact hsrc

theorem premiumsInto_none
    (h : ∀ m ∈ ms, m.ref.IsPremium = false ∨ m.src = currentContractAddress) :
    premiumsInto t ms = 0 := by
  refine amountOf_none fun m hm => ?_
  cases h m hm with
  | inl hpremium => simp [hpremium]
  | inr hsrc => simp [hsrc]

theorem paidPremiums_funding {price : ℤ} {deposits premium : Bool}
    (hbuyer : r.buyer ≠ currentContractAddress) :
    paidPremiums i (funding i r price deposits premium) = premiumOf i r premium := by
  cases deposits <;> cases premium <;>
    simp [paidPremiums, funding, depositOf, premiumOf, priceOf, hbuyer]

theorem premiumsInto_funding {price : ℤ} {deposits premium : Bool}
    (hbuyer : r.buyer ≠ currentContractAddress) :
    premiumsInto t (funding i r price deposits premium) =
      if r.token = t then (if premium then r.insurancePremium else 0) else 0 := by
  cases deposits <;> cases premium <;>
    simp [premiumsInto, funding, depositOf, premiumOf, priceOf, hbuyer, Purpose.IsPremium]

theorem Purpose.isPremium_of_apart {ref : Purpose} (h : ref.swap? = none) :
    ref.IsPremium = false := by
  cases ref with
  | bid => rfl
  | _ => cases h

theorem Step.unpremiumed (hstep : Step env c m c') (hm : ∀ i, m ≠ .accepted i) :
    ∃ ms, c'.transfers = c.transfers ++ ms ∧
      ∀ x ∈ ms, x.ref.IsPremium = false ∨ x.src = currentContractAddress := by
  cases hpays : m.pays with
  | false =>
    obtain ⟨ms, hms, hapart⟩ := hstep.takes_nothing hpays
    refine ⟨ms, hms, fun x hx => ?_⟩
    cases hapart x hx with
    | inl hnone => exact .inl (Purpose.isPremium_of_apart hnone)
    | inr hsrc => exact .inr hsrc
  | true =>
    cases hstep with
    | accepted => exact absurd rfl (hm _)
    | installment | scheduled => exact ⟨_, rfl, by simp [priceOf, Purpose.IsPremium]⟩
    | _ => cases hpays

def SwapRecord.Plain (r : SwapRecord) : Prop := r.collateralAmount ≤ 0 ∧ ¬ r.AsksPremium

theorem SwapRecord.Bare.plain (h : r.Bare) : r.Plain := by
  obtain ⟨-, hcollateral, hpremium⟩ := h
  refine ⟨by omega, ?_⟩
  intro hasks
  have hpos := hasks.2
  omega

theorem asksPremium_of_terms (h : r'.terms = r.terms) : r'.AsksPremium ↔ r.AsksPremium := by
  have henabled : r'.insuranceEnabled = r.insuranceEnabled := congrArg Terms.insuranceEnabled h
  have hpremium : r'.insurancePremium = r.insurancePremium := congrArg Terms.insurancePremium h
  rw [SwapRecord.AsksPremium, SwapRecord.AsksPremium, henabled, hpremium]

theorem premiumDue_of_terms (h : r'.terms = r.terms) : premiumDue i r' = premiumDue i r := by
  have htoken : r'.token = r.token := congrArg Terms.token h
  have hbuyer : r'.buyer = r.buyer := congrArg Terms.buyer h
  have hpremium : r'.insurancePremium = r.insurancePremium := congrArg Terms.insurancePremium h
  simp only [premiumDue, premiumOf, asksPremium_of_terms h, htoken, hbuyer, hpremium]

theorem premiumDue_none (h : ¬ r.AsksPremium) : premiumDue i r = [] := by
  simp [premiumDue, h]

/-- A swap that is funded after a move other than an acceptance was so before, unless the move
was its last payment. -/
theorem Guard.stayed (h : Guard env c i r m) (hm : ∀ i, m ≠ .accepted i)
    (hpays : ∀ last, m = .installment i last ∨ m = .scheduled i last → r.Plain)
    (hto : (m.aims.getD r.status).Funded) : r.Plain ∨ r.status.Funded := by
  cases h with
  | accepted => exact absurd rfl (hm i)
  | installment last => exact .inl (hpays last (.inl rfl))
  | scheduled last => exact .inl (hpays last (.inr rfl))
  | offered => exact .inr hto
  | amended => exact .inr hto
  | disputed hfrom => exact .inr (.inl hfrom)
  | claimed => exact .inr hto
  | _ => simp [Move.aims, SwapStatus.Funded] at hto

theorem Step.holds (hstep : Step env c m c') (hm : ∀ i, m ≠ .accepted i) (hmove : m.swap? = some i)
    (hto : (m.aims.getD r.status).Funded) : c'.swapCollateral i = c.swapCollateral i := by
  cases hstep with
  | accepted => exact absurd rfl (hm _)
  | released | refunded | adminRolledBack => simp [Move.aims, SwapStatus.Funded] at hto
  | _ => rfl

theorem Guard.waits (h : Guard env c i r m) (hto : m.aims.getD r.status = .pending) :
    r.status = .pending := by
  cases h with
  | installment last hfrom => exact hfrom
  | scheduled last => cases last <;> simp_all [Move.aims]
  | offered hfrom => exact hfrom
  | amended hfrom => exact hfrom
  | claimed => exact hto
  | _ => simp [Move.aims] at hto

theorem Step.collected (hstep : Step env c m c') (hm : ∀ i, m ≠ .accepted i) (hwf : Wf c)
    (hpays : ∀ last, m = .installment i last ∨ m = .scheduled i last → r.Plain)
    (hmove : m.swap? = some i) (hr : c.swap i = some r) (hr' : c'.swap i = some r')
    (h : Collected i (c.position i r)) : Collected i (c'.position i r') := by
  have hmoved := hstep.moved hwf hmove hr hr'
  have hcollateral : r'.collateralAmount = r.collateralAmount :=
    congrArg Terms.collateralAmount hmoved.terms
  obtain ⟨r₀, hr₀, hguard⟩ := hstep.guard hmove
  obtain rfl := Option.some.inj (hr.symm.trans hr₀)
  obtain ⟨ms, hms, hnone⟩ := hstep.unpremiumed hm
  have hpaid : paidPremiums i (accountOf i c'.transfers) =
      paidPremiums i (accountOf i c.transfers) := by
    rw [paidPremiums_account, paidPremiums_account, hms, paidPremiums_append,
      paidPremiums_none hnone, List.append_nil]
  refine ⟨?_, ?_, ?_⟩
  · intro hto hpos
    have hto' : (m.aims.getD r.status).Funded := hmoved.status ▸ hto
    have hpos' : 0 < r.collateralAmount := hcollateral ▸ hpos
    rcases hguard.stayed hm hpays hto' with hplain | hfunded
    · have hnone := hplain.1
      omega
    · have hheld := h.collateral hfunded hpos'
      exact ((hstep.holds hm hmove hto').trans hheld).trans (congrArg some hcollateral.symm)
  · intro hto
    have hto' : (m.aims.getD r.status).Funded := hmoved.status ▸ hto
    have hdue : premiumDue i r' = premiumDue i r := premiumDue_of_terms hmoved.terms
    refine hpaid.trans (Eq.trans ?_ hdue.symm)
    rcases hguard.stayed hm hpays hto' with hplain | hfunded
    · exact (h.unpaid (.inr hplain.2)).trans (premiumDue_none hplain.2).symm
    · exact h.premium hfunded
  · intro hopen
    refine hpaid.trans (h.unpaid ?_)
    cases hopen with
    | inl hpending => exact .inl (hguard.waits (hmoved.status ▸ hpending))
    | inr hfree => exact .inr (mt (asksPremium_of_terms hmoved.terms).mpr hfree)

section Acceptances

variable {deposits premium escrowed : Bool}

theorem Accepts.buyer (h : Accepts env c deposits premium escrowed i r r' c') (henv : env.Hosted) :
    r.buyer ≠ currentContractAddress := by
  intro e
  exact henv (e ▸ h.auth)

theorem Accepts.collected (h : Accepts env c deposits premium escrowed i r r' c')
    (henv : env.Hosted)
    (hdeposits : 0 < r.collateralAmount →
      deposits = true ∨ c.swapCollateral i = some r.collateralAmount)
    (hpremium : premium = decide r.AsksPremium) (hfirst : r.status = .pending ∨ ¬ r.AsksPremium)
    (heach : EachSwap Collected c) : EachSwap Collected c' := by
  refine heach.step h.step (fun _ hadds => by cases hadds.apart) ?_
  intro j rj rj' hj hrj hrj' hcollected
  obtain rfl := Option.some.inj hj
  obtain rfl := Option.some.inj (hrj.symm.trans h.stored)
  obtain rfl : r' = rj' := by
    rw [h.escrow] at hrj'
    simpa [Escrow.accept, Escrow.pay, Escrow.setSwap] using hrj'
  have hcollateral : r'.collateralAmount = rj.collateralAmount :=
    congrArg Terms.collateralAmount h.terms
  have hheld : 0 < rj.collateralAmount →
      c'.swapCollateral i = some rj.collateralAmount := by
    intro hpos
    rw [h.escrow]
    cases deposits with
    | true => simp [Escrow.accept, Escrow.pay, Escrow.setSwap, Escrow.collectPremium,
        Escrow.lockCollateral]
    | false =>
      have hstored := (hdeposits hpos).resolve_left (by simp)
      simpa [Escrow.accept, Escrow.pay, Escrow.setSwap, Escrow.collectPremium,
        Escrow.recordDeposit] using hstored
  have hpaid : paidPremiums i (accountOf i c'.transfers) = premiumDue i rj := by
    have hbefore : paidPremiums i c.transfers = [] := by
      rw [← paidPremiums_account]
      exact hcollected.unpaid hfirst
    have htransfers : c'.transfers = c.transfers ++ funding i rj r'.price deposits premium := by
      rw [h.escrow]
      rfl
    rw [paidPremiums_account, htransfers, paidPremiums_append, hbefore,
      paidPremiums_funding (h.buyer henv), hpremium]
    rfl
  refine ⟨?_, ?_, ?_⟩
  · intro _ hpos
    exact (hheld (hcollateral ▸ hpos)).trans (congrArg some hcollateral.symm)
  · intro _
    exact hpaid.trans (premiumDue_of_terms h.terms).symm
  · intro hopen
    cases hopen with
    | inl hpending =>
      have hto : r'.status = .pending := hpending
      rw [h.target] at hto
      cases hto
    | inr hfree =>
      have hfree' : ¬ rj.AsksPremium := mt (asksPremium_of_terms h.terms).mpr hfree
      exact hpaid.trans (premiumDue_none hfree')

theorem Charging.collected (h : Charging escrowed env c (.accepted i) c') (henv : env.Hosted)
    (hplain : ∀ r, c.swap i = some r → r.Plain) (heach : EachSwap Collected c) :
    EachSwap Collected c' := by
  obtain ⟨_, r, r', hi, hfrom, haccepts⟩ := h
  obtain rfl := Move.accepted.inj hi
  obtain ⟨hbare, hfree⟩ := hplain r haccepts.stored
  exact haccepts.collected henv (fun hpos => absurd hpos (by omega)) (by simp [hfree]) (.inl hfrom)
    heach

theorem Collecting.collected (h : Collecting env c (.accepted i) c') (henv : env.Hosted)
    (hfirst : ∀ r, c.swap i = some r → r.status = .pending ∨ ¬ r.AsksPremium)
    (heach : EachSwap Collected c) : EachSwap Collected c' := by
  obtain ⟨_, r, r', deposits, premium, hi, haccepts, hdeposits, hpremium⟩ := h
  obtain rfl := Move.accepted.inj hi
  refine haccepts.collected henv ?_ ?_ (hfirst r haccepts.stored) heach
  · intro hpos
    cases hx : c.swapCollateral i with
    | none => exact .inl (hdeposits.mpr ⟨hpos, hx⟩)
    | some x =>
      obtain ⟨r₁, hr₁, -, rfl⟩ := heach.wf.collateral i x hx
      obtain rfl := Option.some.inj (haccepts.stored.symm.trans hr₁)
      exact .inr rfl
  · rw [Bool.eq_iff_iff, hpremium, decide_eq_true_eq]
    rfl

end Acceptances

theorem Step.pooled (hstep : Step env c m c') (hwf : Wf c)
    (henv : ∀ i, m = .accepted i → env.Hosted) (h : ∀ t, c.pool t = premiumsInto t c.transfers) :
    ∀ t, c'.pool t = premiumsInto t c'.transfers := by
  intro t
  by_cases hm : ∃ i, m = .accepted i
  · obtain ⟨i, rfl⟩ := hm
    cases hstep with
    | @accepted i r r' deposits premium escrowed hr hfrom hauth =>
      have hbuyer : r.buyer ≠ currentContractAddress := by
        intro e
        exact henv i rfl (e ▸ hauth)
      have htransfers : premiumsInto t (c.transfers ++ funding i r r'.price deposits premium) =
          premiumsInto t c.transfers + premiumsInto t (funding i r r'.price deposits premium) :=
        premiumsInto_append _
      rw [premiumsInto_funding hbuyer, ← h t] at htransfers
      refine Eq.trans ?_ htransfers.symm
      by_cases ht : r.token = t
      · cases premium <;> simp [Escrow.pool, Escrow.pay, Escrow.setSwap, Escrow.collectPremium,
          Escrow.recordDeposit, Escrow.addToPool, Escrow.setInsurancePool,
          Escrow.lockCollateral, ht]
      · cases premium <;> simp [Escrow.pool, Escrow.pay, Escrow.setSwap, Escrow.collectPremium,
          Escrow.recordDeposit, Escrow.addToPool, Escrow.setInsurancePool, Escrow.lockCollateral,
          ht, Ne.symm ht]
  · have hm' : ∀ i, m ≠ .accepted i := fun i e => hm ⟨i, e⟩
    obtain ⟨ms, hms, hnone⟩ := hstep.unpremiumed hm'
    rw [hms, premiumsInto_append, premiumsInto_none hnone, add_zero, ← h t]
    cases hstep with
    | accepted => exact absurd rfl (hm' _)
    | @claimed i r payout hr hauth hclaim =>
      rw [hwf.claimable i] at hclaim
      cases hclaim
    | _ => rfl

end Premiums

section Calls

variable {env : Env} {s s' : State} {call : Call} {act : Act} {i : ℕ} {ids : List ℕ}
  {c c' : Escrow} {m : Move} {buyer : Address}

theorem EachSwap.collected (h : EachSwap Collected c) (hstep : Step env c m c')
    (hm : ∀ i, m ≠ .accepted i)
    (hpays : ∀ i last r, m = .installment i last ∨ m = .scheduled i last → c.swap i = some r →
      r.Plain) : EachSwap Collected c' := by
  refine h.step hstep ?_ ?_
  · intro r hadds
    rcases hadds with ⟨-, hfresh⟩ | ⟨_, _, _, -, -, -, hwon⟩
    · have hopen : ¬ r.status.Funded := by simp [SwapStatus.Funded, hfresh.status]
      exact ⟨fun hto => absurd hto hopen, fun hto => absurd hto hopen, fun _ => rfl⟩
    · have hfree : ¬ r.AsksPremium := by simp [SwapRecord.AsksPremium, hwon.premium]
      refine ⟨fun _ hpos => ?_, fun _ => (premiumDue_none hfree).symm, fun _ => rfl⟩
      have hnone : r.collateralAmount = 0 := hwon.collateral
      simp [hnone] at hpos
  · intro i r r' hmove hr hr' hcollected
    exact hstep.collected hm h.wf (fun last hlast => hpays i last r hlast hr) hmove hr hr'
      hcollected

theorem Call.yields_funds (h : call.yields m) (hplain : ¬ call.Funds) :
    (∀ i, m ≠ .accepted i) ∧ ∀ i last, m ≠ .installment i last ∧ m ≠ .scheduled i last := by
  refine ⟨?_, ?_⟩
  · intro i e
    subst e
    have haccepts := Call.yields_source h
    cases call <;> first | exact haccepts | exact hplain trivial
  · intro i last
    constructor
    · intro e
      subst e
      obtain ⟨amount, rfl⟩ := Call.yields_source h
      exact hplain trivial
    · intro e
      subst e
      obtain ⟨index, rfl⟩ := Call.yields_source h
      exact hplain trivial

/-- The swaps of a list owe nothing but their prices. -/
def PlainAll (ids : List ℕ) (c : Escrow) : Prop := ∀ i ∈ ids, ∀ r, c.swap i = some r → r.Plain

theorem SwapRecord.Plain.of_terms {r r' : SwapRecord} (h : r.Plain) (hterms : r'.terms = r.terms) :
    r'.Plain := by
  have hcollateral : r'.collateralAmount = r.collateralAmount :=
    congrArg Terms.collateralAmount hterms
  exact ⟨hcollateral ▸ h.1, mt (asksPremium_of_terms hterms).mp h.2⟩

theorem PlainAll.step (h : PlainAll ids c) (hstep : Step env c (.accepted i) c') :
    PlainAll ids c' := by
  intro j hj r' hr'
  rcases hstep.origin hr' with ⟨r, hr, hterms⟩ | hadds
  · exact (h j hj r hr).of_terms hterms
  · cases hadds.apart

theorem Arranged.plainAll (h : Arranged s) (hids : ∀ i ∈ ids, s.InEscrow i) :
    PlainAll ids s.escrow := fun i hi _ hr => (h.bare_of_mode hr (hids i hi)).plain

/-- Every swap is still to be accepted, or owes no premium. -/
def FirstTime (ids : List ℕ) (c : Escrow) : Prop :=
  ∀ i ∈ ids, ∀ r, c.swap i = some r → r.status = .pending ∨ ¬ r.AsksPremium

theorem EachSwap.collected_batch (henv : env.Hosted)
    (h : Path (Collecting env) c (ids.map .accepted) c') (hfirst : FirstTime ids c)
    (honce : ∀ i ∈ ids, ∀ r, c.swap i = some r → r.AsksPremium → ids.count i ≤ 1)
    (heach : EachSwap Collected c) : EachSwap Collected c' := by
  induction ids generalizing c with
  | nil =>
    cases h with
    | nil => exact heach
  | cons k ids ih =>
    cases h with
    | @cons _ c₁ _ _ _ hstep hrest =>
      have heach₁ := hstep.collected henv (hfirst k (by simp)) heach
      have horigin : ∀ i r₁, c₁.swap i = some r₁ → ∃ r, c.swap i = some r ∧ r₁.terms = r.terms ∧
          (i ≠ k → r₁ = r) := by
        intro i r₁ hr₁
        by_cases hik : i = k
        · rcases hstep.step.origin hr₁ with ⟨r, hr, hterms⟩ | hadds
          · exact ⟨r, hr, hterms, fun hne => absurd hik hne⟩
          · cases hadds.apart
        · have hother : (Move.accepted k).swap? ≠ some i := by simpa [Move.swap?] using Ne.symm hik
          rcases hstep.step.rest hother hr₁ with hr | ⟨-, hadds⟩
          · exact ⟨r₁, hr, rfl, fun _ => rfl⟩
          · cases hadds.apart
      refine ih hrest ?_ ?_ heach₁
      · intro i hi r₁ hr₁
        obtain ⟨r, hr, hterms, hsame⟩ := horigin i r₁ hr₁
        by_cases hik : i = k
        · refine .inr fun hasks => ?_
          have htwice := honce i (by simp [hi]) r hr ((asksPremium_of_terms hterms).mp hasks)
          have hcount : 0 < ids.count i := List.count_pos_iff.mpr hi
          rw [hik] at htwice hcount
          rw [List.count_cons_self] at htwice
          omega
        · rw [hsame hik]
          exact hfirst i (by simp [hi]) r hr
      · intro i hi r₁ hr₁ hasks
        obtain ⟨r, hr, hterms, -⟩ := horigin i r₁ hr₁
        have hcount := honce i (by simp [hi]) r hr ((asksPremium_of_terms hterms).mp hasks)
        rw [List.count_cons] at hcount
        omega

theorem batchAcceptSwaps_collected {u : Unit} (henv : env.Hosted)
    (honce : ∀ i ∈ ids, ∀ r, s.swap i = some r → r.AsksPremium → ids.count i ≤ 1)
    (heach : EachSwap Collected s.escrow) (h : batchAcceptSwaps env ids buyer s = .ok (u, s')) :
    EachSwap Collected s'.escrow := by
  obtain ⟨hall, hpath⟩ := batchAcceptSwaps_path h
  refine heach.collected_batch henv hpath ?_ honce
  intro i hi r hr
  obtain ⟨r₁, hr₁, -, hfrom⟩ := hall i hi
  exact .inl (Option.some.inj (hr.symm.trans hr₁) ▸ hfrom)

theorem exec_collected (h : exec env call s = .ok ((), s')) (harranged : Arranged s)
    (hcond : TakesDues s env call) (heach : EachSwap Collected s.escrow) :
    EachSwap Collected s'.escrow := by
  obtain ⟨henv, hcond⟩ := hcond
  cases call with
  | acceptSwap =>
    refine (acceptSwap_collecting h).collected henv ?_ heach
    intro r hr
    obtain ⟨r₁, _, _, hr₁, hfrom, -⟩ := acceptSwap_escrow h
    exact .inl (Option.some.inj (hr.symm.trans hr₁) ▸ hfrom)
  | acceptSwapConditional =>
    exact (acceptSwapConditional_charging h).collected henv hcond heach
  | acceptSwapPartial => exact (acceptSwapPartial_charging h).collected henv hcond heach
  | batchAcceptSwaps => exact batchAcceptSwaps_collected henv hcond heach h
  | escrowDeposit i =>
    have hplain : PlainAll [i] s.escrow :=
      harranged.plainAll (List.forall_mem_singleton.mpr (escrowDeposit_mode h))
    exact (escrowDeposit_charging h).collected henv (fun r hr => hplain i (by simp) r hr) heach
  | batchEscrowDeposit ids =>
    have hplain := harranged.plainAll (batchEscrowDeposit_modes h)
    have hall := (batchEscrowDeposit_charging h).invariant
      (I := fun c => EachSwap Collected c ∧ PlainAll ids c) ?_ ⟨heach, hplain⟩
    · exact hall.1
    · intro c m c' hm hc hstep
      obtain ⟨i, hi, rfl⟩ := hm
      exact ⟨hstep.collected henv (fun r hr => hc.2 i hi r hr) hc.1, hc.2.step hstep.step⟩
  | makeScheduledPayment i =>
    obtain ⟨last, -, hstep⟩ := makeScheduledPayment_step h
    refine heach.collected hstep (by simp) ?_
    intro j last' r hm hr
    obtain rfl : i = j := by
      rcases hm with hm | hm <;> simp at hm
      exact hm.1
    exact (makeScheduledPayment_bare h harranged hr).plain
  | submitInstallmentPayment i =>
    obtain ⟨last, -, hstep⟩ := submitInstallmentPayment_step h
    refine heach.collected hstep (by simp) ?_
    intro j last' r hm hr
    obtain rfl : i = j := by
      rcases hm with hm | hm <;> simp at hm
      exact hm.1
    exact (submitInstallmentPayment_bare h harranged hr).plain
  | finalizeAuction => exact heach.collected (finalizeAuction_step h) (by simp) (by simp)
  | _ =>
    obtain ⟨q, hmoves⟩ := exec_answers h
    refine hmoves.invariant ?_ heach
    intro c m c' hm hc hstep
    obtain ⟨hnew, hpays⟩ := Call.yields_funds hm.1 id
    refine hc.collected hstep hnew ?_
    intro i last r hpay
    cases hpay with
    | inl hpay => exact absurd hpay (hpays i last).1
    | inr hpay => exact absurd hpay (hpays i last).2

structure Collector (s : State) : Prop where
  arranged : Arranged s
  collected : EachSwap Collected s.escrow
  pool : ∀ t, s.escrow.pool t = premiumsInto t s.transfers

theorem Collector.step (h : Collector s) (hact : ActStep s act s')
    (hcond : OnCalls TakesDues s act) : Collector s' where
  arranged := h.arranged.step hact
  collected := by
    cases hact with
    | @elsewhere env balance hbalance =>
      have hstep : Step env s.escrow .received _ := .received balance hbalance
      exact h.collected.collected hstep (by simp) (by simp)
    | @call _ env call hexec => exact exec_collected hexec h.arranged (hcond call rfl) h.collected
  pool := by
    obtain ⟨q, hmoves⟩ := hact.answers
    have hall := hmoves.invariant
      (I := fun c => Wf c ∧ ∀ t, c.pool t = premiumsInto t c.transfers) ?_
      ⟨h.arranged.wf, h.pool⟩
    · exact hall.2
    · intro c m c' hm hc hstep
      refine ⟨hstep.wf hc.1, hstep.pooled hc.1 ?_ hc.2⟩
      intro i e
      obtain ⟨call, hcall, -⟩ := Act.yields_call hm.1 (by simp [e])
      exact (hcond call hcall).1

theorem Collector.taken (h : Collector s) : DuesTaken s where
  collateral i r hr := (h.collected.each i r hr).collateral
  premium i r hr hfunded := by
    rw [← paidPremiums_account]
    exact (h.collected.each i r hr).premium hfunded
  pool := h.pool

end Calls

/-- In runs that use the bare acceptances for bare swaps only, every funded swap has its
collateral stored and its premium paid once. -/
theorem dues_taken {balance : Address → Address → ℤ} {tr : List (Act × State)} {s : State}
    (hrun : Run (Restrict ActStep (OnCalls TakesDues)) (State.empty balance) tr s) :
    DuesTaken s := by
  have hinit : Collector (State.empty balance) :=
    ⟨.empty balance, .empty balance, fun _ => rfl⟩
  exact (hrun.invariant (I := Collector) hinit fun _ _ _ h hact => h.step hact.1 hact.2).taken

section Sales

open Scenario

/-- The swap 0 is an accepted one that asks for a collateral of 100 and a premium of 20. -/
def seenAsking (s : State) : Bool :=
  (s.swap 0).any fun r => r.status = .accepted ∧ r.collateralAmount = 100 ∧
    r.insuranceEnabled = true ∧ r.insurancePremium = 20 ∧ r.token = token ∧ r.buyer = buyer

theorem asking_of_seen {s : State} (h : seenAsking s = true) :
    ∃ r, s.swap 0 = some r ∧ r.status = .accepted ∧ r.collateralAmount = 100 ∧
      r.AsksPremium ∧
      premiumDue 0 r = [⟨token, buyer, currentContractAddress, 20, .premium 0⟩] := by
  simp only [seenAsking, Option.any_eq_true, decide_eq_true_eq] at h
  obtain ⟨r, hr, hst, hcollateral, henabled, hpremium, htoken, hbuyer⟩ := h
  have hasks : r.AsksPremium := ⟨henabled, by omega⟩
  exact ⟨r, hr, hst, hcollateral, hasks, by simp [premiumDue, premiumOf, *]⟩

theorem sale_dues_taken : ∃ s : State, s.swapCollateral 0 = some 100 ∧
    paidPremiums 0 s.transfers = [⟨token, buyer, currentContractAddress, 20, .premium 0⟩] ∧
    s.escrow.pool token = premiumsInto token s.transfers := by
  obtain ⟨tr, s₁, s₂, hrun, hexec, hseen⟩ := watched (OnCalls TakesDues) funds offer
    (env [buyer] 2) (.acceptSwap 0) (fun _ s => seenAsking s) (by decide)
    (by simp [offer, OnCalls, TakesDues, Env.Hosted, env, seller, currentContractAddress])
  have hrun' := hrun.next (k := ⟨env [buyer] 2, some (.acceptSwap 0)⟩) ⟨.call hexec,
    by simp [OnCalls, TakesDues, Env.Hosted, env, buyer, currentContractAddress]⟩
  have htaken := dues_taken hrun'
  obtain ⟨r, hr, hst, hcollateral, -, hdue⟩ := asking_of_seen hseen
  have hheld := htaken.collateral 0 r hr (.inl hst) (by omega)
  exact ⟨s₂, by rw [hheld, hcollateral], by rw [htaken.premium 0 r hr (.inl hst), hdue],
    htaken.pool token⟩

/-- The buyer accepts on conditions, and pays neither the collateral nor the premium. -/
theorem conditional_acceptance_takes_price_only : ∃ (balance : Address → Address → ℤ)
    (tr : List (Act × State)) (s : State) (r : SwapRecord),
    Run (Restrict ActStep Always) (State.empty balance) tr s ∧ s.swap 0 = some r ∧
    r.status = .accepted ∧ 0 < r.collateralAmount ∧ s.swapCollateral 0 = none ∧ r.AsksPremium ∧
    paidPremiums 0 s.transfers = [] ∧ ¬ DuesTaken s := by
  obtain ⟨tr, s₁, s₂, hrun, hexec, hseen⟩ := watched Always funds offer (env [buyer] 2)
    (.acceptSwapConditional 0 []) (fun _ s => seenAsking s && (s.swapCollateral 0 = none &&
      paidPremiums 0 s.transfers = [])) (by decide) (by simp [Always])
  simp only [Bool.and_eq_true, decide_eq_true_eq] at hseen
  obtain ⟨hasking, hnone, hunpaid⟩ := hseen
  obtain ⟨r, hr, hst, hcollateral, hasks, -⟩ := asking_of_seen hasking
  refine ⟨funds, _, s₂, r, hrun.next (k := ⟨env [buyer] 2, some (.acceptSwapConditional 0 [])⟩)
    ⟨.call hexec, trivial⟩, hr, hst, by omega, hnone, hasks, hunpaid, ?_⟩
  intro htaken
  rw [htaken.collateral 0 r hr (.inl hst) (by omega)] at hnone
  cases hnone

end Sales

end AtomicIp.AtomicSwap
