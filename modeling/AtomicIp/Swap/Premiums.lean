import AtomicIp.Swap.Agreements
import AtomicIp.Swap.Catalogue
import AtomicIp.Swap.Collection
import AtomicIp.Swap.Openings

/-!
The premium of an insured swap against its price. It is worked out once, when the swap is listed;
an accepted renegotiation moves the price and leaves the premium where it was.
-/

set_option autoImplicit false

namespace AtomicIp.AtomicSwap

open Function

/-- Two percent, as the initiators round it. -/
def twoPercent (price : ℤ) : ℤ := (price * 2).tdiv 100

/-- The prices that were paid in for the swap `i`. -/
def paidPrices (i : ℕ) (ms : List TokenTransfer) : List TokenTransfer :=
  ms.filter fun m => m.ref = .price i ∧ m.src ≠ currentContractAddress

/-- The premium is two percent of the price, and what came in as premiums is two percent of
what came in as prices, payment by payment. -/
structure FairPremium (i : ℕ) (r : SwapRecord) (ms : List TokenTransfer) : Prop where
  premium : r.insurancePremium = twoPercent r.price
  collected : r.AsksPremium →
    (paidPremiums i ms).map Transfer.amount = (paidPrices i ms).map fun m => twoPercent m.amount
  nothing : ¬ r.AsksPremium → paidPremiums i ms = []

/-- Every insured swap has its premium stored twice, and it is the fair one. -/
def PremiumsMatch (s : State) : Prop :=
  ∀ i r, s.swap i = some r → r.insuranceEnabled = true →
    s.swapInsurance i = some r.insurancePremium ∧ FairPremium i r s.transfers

def SwapRecord.OwesPremium (r : SwapRecord) : Prop :=
  r.AsksPremium ∧ r.buyer ≠ currentContractAddress

/-- A renegotiation keeps the premium of an insured swap right, and the acceptances that take the
price only are of swaps that owe no premium. -/
def KeepsPremium (s : State) (_env : Env) : Call → Prop
  | .acceptRenegotiation i => ∀ r offer, s.swap i = some r → s.swapRenegotiations i = some offer →
      r.insuranceEnabled = true → twoPercent offer.newPrice = twoPercent r.price
  | .acceptSwapConditional i _ | .acceptSwapPartial i _ =>
      ∀ r, s.swap i = some r → ¬ r.OwesPremium
  | _ => True

def FairlyInsured (i : ℕ) (p : Position) : Prop :=
  p.record.insuranceEnabled = true → FairPremium i p.record p.transfers

section Payments

variable {i : ℕ} {r r' : SwapRecord} {ms ns : List TokenTransfer} {price : ℤ}
  {deposits premium : Bool}

@[simp] theorem paidPrices_append :
    paidPrices i (ms ++ ns) = paidPrices i ms ++ paidPrices i ns := List.filter_append ms ns

theorem paidPrices_account : paidPrices i (accountOf i ms) = paidPrices i ms := by
  unfold paidPrices accountOf
  rw [List.filter_filter]
  congr 1
  funext m
  by_cases hm : m.ref = .price i <;> simp [hm, Purpose.swap?]

theorem paidPrices_none (h : ∀ m ∈ ms, m.ref.swap? = none ∨ m.src = currentContractAddress) :
    paidPrices i ms = [] := by
  simp only [paidPrices, List.filter_eq_nil_iff, decide_eq_true_eq, not_and, not_not]
  intro m hm href
  cases h m hm with
  | inl hapart => simp [href, Purpose.swap?] at hapart
  | inr hsrc => exact hsrc

theorem paidPrices_funding (hbuyer : r.buyer ≠ currentContractAddress) :
    paidPrices i (funding i r price deposits premium) = [priceOf i r price] := by
  cases deposits <;> cases premium <;>
    simp [paidPrices, funding, depositOf, premiumOf, priceOf, hbuyer]

theorem paid_funding_self (hbuyer : r.buyer = currentContractAddress) :
    paidPremiums i (funding i r price deposits premium) = [] ∧
      paidPrices i (funding i r price deposits premium) = [] := by
  cases deposits <;> cases premium <;>
    simp [paidPremiums, paidPrices, funding, depositOf, premiumOf, priceOf, hbuyer]

theorem insured_of_terms (h : r'.terms = r.terms) : r'.insuranceEnabled = r.insuranceEnabled :=
  congrArg Terms.insuranceEnabled h

theorem FairPremium.kept (h : FairPremium i r ms) (hterms : r'.terms = r.terms)
    (hprice : r'.price = r.price) (hpremiums : paidPremiums i ns = paidPremiums i ms)
    (hprices : r.AsksPremium → paidPrices i ns = paidPrices i ms) : FairPremium i r' ns where
  premium := by
    have hsame : r'.insurancePremium = r.insurancePremium :=
      congrArg Terms.insurancePremium hterms
    rw [hsame, hprice, h.premium]
  collected hasks := by
    have hasked := (asksPremium_of_terms hterms).mp hasks
    rw [hpremiums, hprices hasked, h.collected hasked]
  nothing hasks := hpremiums.trans (h.nothing (mt (asksPremium_of_terms hterms).mpr hasks))

theorem fairPremium_account : FairPremium i r (accountOf i ms) ↔ FairPremium i r ms := by
  constructor
  · intro h
    have hcollected := h.collected
    have hnothing := h.nothing
    rw [paidPremiums_account] at hcollected hnothing
    rw [paidPrices_account] at hcollected
    exact ⟨h.premium, hcollected, hnothing⟩
  · intro h
    refine ⟨h.premium, ?_, ?_⟩
    · rw [paidPremiums_account, paidPrices_account]
      exact h.collected
    · rw [paidPremiums_account]
      exact h.nothing

end Payments

section Steps

variable {env : Env} {c c' : Escrow} {m : Move}

theorem EachSwap.fair (h : EachSwap FairlyInsured c) (hstep : Step env c m c')
    (hopens : m.opens = false) (hm : ∀ i, m ≠ .accepted i) (hprices : SamePrices c c')
    (hpays : ∀ i r, m.swap? = some i → m.pays = true → c.swap i = some r → r.Plain) :
    EachSwap FairlyInsured c' := by
  refine h.step hstep ?_ ?_
  · intro r hadds
    simp [hadds.opens] at hopens
  · intro i r r' hmove hr hr' hfair hinsured
    have hterms := (hstep.moved h.wf hmove hr hr').terms
    have hinsured' : r.insuranceEnabled = true := (insured_of_terms hterms).symm.trans hinsured
    refine (hfair hinsured').kept hterms (hprices i r r' hr hr') ?_ ?_
    · obtain ⟨ms, hms, hnone⟩ := hstep.unpremiumed hm
      change paidPremiums i (accountOf i c'.transfers) = paidPremiums i (accountOf i c.transfers)
      rw [paidPremiums_account, paidPremiums_account, hms, paidPremiums_append,
        paidPremiums_none hnone, List.append_nil]
    · intro hasks
      cases hpaying : m.pays with
      | true => exact absurd hasks (hpays i r hmove hpaying hr).2
      | false =>
        obtain ⟨ms, hms, hnone⟩ := hstep.takes_nothing hpaying
        change paidPrices i (accountOf i c'.transfers) = paidPrices i (accountOf i c.transfers)
        rw [paidPrices_account, paidPrices_account, hms, paidPrices_append,
          paidPrices_none hnone, List.append_nil]

end Steps

section Acceptances

variable {env : Env} {c c' : Escrow} {i : ℕ} {r r' : SwapRecord} {s s' : State} {u : Unit}
  {deposits premium escrowed : Bool}

theorem Accepts.paid_in (h : Accepts env c deposits premium escrowed i r r' c') :
    c'.transfers = c.transfers ++ funding i r r'.price deposits premium := by
  rw [h.escrow]
  rfl

theorem Accepts.record (h : Accepts env c deposits premium escrowed i r r' c') :
    c'.swap i = some r' := by
  rw [h.escrow]
  exact update_self ..

theorem Accepts.fair (h : Accepts env c deposits premium escrowed i r r' c')
    (htakes : r.OwesPremium → premium = true) (heach : EachSwap FairlyInsured c) :
    EachSwap FairlyInsured c' := by
  refine heach.step h.step (fun _ hadds => by cases hadds.apart) ?_
  intro j rj rj' hj hrj hrj' hfair hinsured
  obtain rfl := Option.some.inj hj
  obtain rfl := Option.some.inj (h.stored.symm.trans hrj)
  obtain rfl := Option.some.inj (h.record.symm.trans hrj')
  have hprice := h.price.price_eq (heach.wf.stored i r hrj).2
  have hbefore := fairPremium_account.mp (hfair ((insured_of_terms h.terms).symm.trans hinsured))
  refine fairPremium_account.mpr ?_
  rw [h.paid_in]
  by_cases hbuyer : r.buyer = currentContractAddress
  · refine hbefore.kept h.terms hprice ?_ fun _ => ?_
    · rw [paidPremiums_append, (paid_funding_self hbuyer).1, List.append_nil]
    · rw [paidPrices_append, (paid_funding_self hbuyer).2, List.append_nil]
  · have hterms := asksPremium_of_terms h.terms
    have hright : r.insurancePremium = twoPercent r.price := hbefore.premium
    refine ⟨(hbefore.kept h.terms hprice rfl fun _ => rfl).premium, ?_, ?_⟩
    · intro hasks
      obtain rfl := htakes ⟨hterms.mp hasks, hbuyer⟩
      rw [paidPremiums_append, paidPrices_append, paidPremiums_funding hbuyer,
        paidPrices_funding hbuyer, List.map_append, List.map_append,
        hbefore.collected (hterms.mp hasks)]
      simp [premiumOf, priceOf, hright, hprice]
    · intro hasks
      have hfree : ¬ r.AsksPremium := mt hterms.mpr hasks
      have hnone : premium = false := by
        cases premium with
        | false => rfl
        | true => exact absurd (h.insures rfl) hfree
      rw [paidPremiums_append, paidPremiums_funding hbuyer, hnone, premiumOf_false,
        List.append_nil]
      exact hbefore.nothing hfree

theorem Collecting.fair (h : Collecting env c (.accepted i) c') (heach : EachSwap FairlyInsured c) :
    EachSwap FairlyInsured c' := by
  obtain ⟨_, r, r', deposits, premium, -, haccepts, -, hpremium⟩ := h
  exact haccepts.fair (fun howes => hpremium.mpr howes.1) heach

theorem Charging.fair_iff (h : Charging escrowed env c (.accepted i) c')
    (heach : EachSwap FairlyInsured c) :
    EachSwap FairlyInsured c' ↔ ∀ r, c.swap i = some r → ¬ r.OwesPremium := by
  obtain ⟨_, r, r', hi, -, haccepts⟩ := h
  obtain rfl := Move.accepted.inj hi
  constructor
  · intro hafter r₁ hr₁ howes
    obtain rfl := Option.some.inj (haccepts.stored.symm.trans hr₁)
    have hasks := (asksPremium_of_terms haccepts.terms).mpr howes.1
    have hbefore := fairPremium_account.mp (heach.each i r haccepts.stored howes.1.1)
    have hnow := (fairPremium_account.mp (hafter.each i r' haccepts.record hasks.1)).collected hasks
    rw [haccepts.paid_in, paidPremiums_append, paidPrices_append, paidPremiums_funding howes.2,
      paidPrices_funding howes.2, premiumOf_false, List.append_nil, List.map_append,
      hbefore.collected howes.1] at hnow
    simp at hnow
  · intro hnone
    exact haccepts.fair (fun howes => absurd howes (hnone r haccepts.stored)) heach

theorem acceptRenegotiation_fair (h : acceptRenegotiation env i s = .ok (u, s'))
    (heach : EachSwap FairlyInsured s.escrow) :
    EachSwap FairlyInsured s'.escrow ↔ KeepsPremium s env (.acceptRenegotiation i) := by
  obtain ⟨r, offer, hr, hfrom, hauth, hoffer, e⟩ := acceptRenegotiation_escrow h
  have hr' : s'.escrow.swap i = some { r with price := offer.newPrice } := by
    rw [e]
    exact update_self ..
  have htransfers : s'.escrow.transfers = s.escrow.transfers := by
    rw [e]
    rfl
  constructor
  · intro hafter r₁ offer₁ hr₁ hoffer₁ hinsured
    obtain rfl := Option.some.inj (hr.symm.trans hr₁)
    obtain rfl := Option.some.inj (hoffer.symm.trans hoffer₁)
    have hbefore := (heach.each i r hr hinsured).premium
    have hnow := (hafter.each i _ hr' hinsured).premium
    exact hnow.symm.trans hbefore
  · intro hcond
    refine heach.step (acceptRenegotiation_step h) (fun _ hadds => by cases hadds.apart) ?_
    intro j rj rj' hj hrj hrj' hfair hinsured
    obtain rfl := Option.some.inj hj
    obtain rfl := Option.some.inj (hr.symm.trans hrj)
    obtain rfl := Option.some.inj (hr'.symm.trans hrj')
    have hbefore := fairPremium_account.mp (hfair hinsured)
    refine fairPremium_account.mpr ?_
    rw [htransfers]
    exact ⟨hbefore.premium.trans (hcond r offer hr hoffer hinsured).symm, hbefore.collected,
      hbefore.nothing⟩

theorem extendSwapExpiry_fair {newExpiry : ℕ} (h : extendSwapExpiry env i newExpiry s = .ok (u, s'))
    (heach : EachSwap FairlyInsured s.escrow) : EachSwap FairlyInsured s'.escrow := by
  have hstep := extendSwapExpiry_step h
  obtain ⟨r, hr, -, -, -, e⟩ := extendSwapExpiry_escrow h
  have hswap : ∀ j, s'.escrow.swap j =
      if j = i then some { r with expiry := newExpiry } else s.escrow.swap j := by
    intro j
    rw [e]
    exact swap_setSwap s.escrow i j _
  exact heach.fair hstep rfl (by simp) (.of_one hr hswap rfl) (by simp [Move.pays])

end Acceptances

section Calls

variable {env : Env} {s s' : State} {call : Call} {m : Move}

theorem exec_fair_apart (h : exec env call s = .ok ((), s')) (hlists : call.lists = false)
    (hfunds : ¬ call.Funds) (hterms : ¬ call.Renegotiates)
    (heach : EachSwap FairlyInsured s.escrow) : EachSwap FairlyInsured s'.escrow := by
  obtain ⟨q, hmoves⟩ := exec_answers h
  refine hmoves.invariant ?_ heach
  intro c m c' hm hc hstep
  obtain ⟨haccepted, hpays⟩ := Call.yields_funds hm.1 hfunds
  have hopens : m.opens = false := by
    cases hopens : m.opens with
    | false => rfl
    | true => simp [Call.yields_lists hm.1 hopens] at hlists
  have hprices := hstep.samePrices hc.wf fun j e => hterms (Call.yields_terms hm.1 (.inr e))
  refine hc.fair hstep hopens haccepted hprices ?_
  intro i r hi hpaying hr
  cases m with
  | accepted => exact absurd rfl (haccepted _)
  | installment => exact absurd rfl (hpays _ _).1
  | scheduled => exact absurd rfl (hpays _ _).2
  | _ => cases hpaying

theorem exec_fair (h : exec env call s = .ok ((), s')) (harranged : Arranged s)
    (hlists : call.lists = false) (heach : EachSwap FairlyInsured s.escrow) :
    EachSwap FairlyInsured s'.escrow ↔ KeepsPremium s env call := by
  cases call with
  | acceptRenegotiation => exact acceptRenegotiation_fair h heach
  | acceptSwapConditional => exact (acceptSwapConditional_charging h).fair_iff heach
  | acceptSwapPartial => exact (acceptSwapPartial_charging h).fair_iff heach
  | acceptSwap => exact iff_of_true ((acceptSwap_collecting h).fair heach) trivial
  | batchAcceptSwaps =>
    refine iff_of_true ((batchAcceptSwaps_collecting h).invariant ?_ heach) trivial
    intro c m c' hm hc hstep
    obtain ⟨i, -, rfl⟩ := hm
    exact hstep.fair hc
  | escrowDeposit i =>
    have hplain : PlainAll [i] s.escrow :=
      harranged.plainAll (List.forall_mem_singleton.mpr (escrowDeposit_mode h))
    refine iff_of_true (((escrowDeposit_charging h).fair_iff heach).mpr ?_) trivial
    intro r hr howes
    exact (hplain i (by simp) r hr).2 howes.1
  | batchEscrowDeposit ids =>
    have hplain := harranged.plainAll (batchEscrowDeposit_modes h)
    have hall := (batchEscrowDeposit_charging h).invariant
      (I := fun c => EachSwap FairlyInsured c ∧ PlainAll ids c) ?_ ⟨heach, hplain⟩
    · exact iff_of_true hall.1 trivial
    · intro c m c' hm hc hstep
      obtain ⟨i, hi, rfl⟩ := hm
      refine ⟨(hstep.fair_iff hc.1).mpr ?_, hc.2.step hstep.step⟩
      intro r hr howes
      exact (hc.2 i hi r hr).2 howes.1
  | makeScheduledPayment i =>
    obtain ⟨last, -, hstep⟩ := makeScheduledPayment_step h
    have hprices := hstep.samePrices harranged.wf (by simp)
    refine iff_of_true (heach.fair hstep rfl (by simp) hprices ?_) trivial
    intro j r hj _ hr
    obtain rfl := Option.some.inj hj
    exact (makeScheduledPayment_bare h harranged hr).plain
  | submitInstallmentPayment i =>
    obtain ⟨last, -, hstep⟩ := submitInstallmentPayment_step h
    have hprices := hstep.samePrices harranged.wf (by simp)
    refine iff_of_true (heach.fair hstep rfl (by simp) hprices ?_) trivial
    intro j r hj _ hr
    obtain rfl := Option.some.inj hj
    exact (submitInstallmentPayment_bare h harranged hr).plain
  | renegotiateSwap =>
    have hstep := renegotiateSwap_step h
    have hprices := hstep.samePrices harranged.wf (by simp)
    exact iff_of_true (heach.fair hstep rfl (by simp) hprices (by simp [Move.pays])) trivial
  | extendSwapExpiry => exact iff_of_true (extendSwapExpiry_fair h heach) trivial
  | initiateSwap | initiateSwapWithOraclePrice | batchInitiateSwap | batchInitiateSwapWithInsurance
  | initiateSwapWithSchedule | initiateEscrowSwap | batchInitiateEscrow | initiateSwapWithSigners
  | finalizeAuction => cases hlists
  | _ => exact iff_of_true (exec_fair_apart h rfl id id heach) trivial

end Calls

section Listings

variable {env : Env} {q : SwapStatus} {i : ℕ} {ms : List TokenTransfer} {s s' : State}
  {call : Call} {act : Act}

theorem paid_apart (h : ∀ m ∈ ms, m.ref.swap? ≠ some i) :
    paidPremiums i ms = [] ∧ paidPrices i ms = [] := by
  rw [← paidPremiums_account, ← paidPrices_account, accountOf_none h]
  exact ⟨rfl, rfl⟩

theorem Offer.fair {r : SwapRecord} (h : Offer q r) (hinsured : r.insuranceEnabled = true)
    (hms : ∀ m ∈ ms, m.ref.swap? ≠ some i) : FairPremium i r ms := by
  obtain ⟨hpremiums, hprices⟩ := paid_apart hms
  refine ⟨?_, ?_, fun _ => hpremiums⟩
  · rw [h.premium, hinsured]
    rfl
  · intro _
    rw [hpremiums, hprices]
    rfl

theorem exec_listed (h : exec env call s = .ok ((), s')) (hlists : call.lists = true)
    (hmatch : PremiumsMatch s) (hwf : Wf s.escrow) (hidle : Idle s.escrow) : PremiumsMatch s' := by
  have hto := (exec_lists h hlists).listedTo
  have htransfers : s'.transfers = s.transfers := hto.transfers
  intro i r hr hinsured
  rw [htransfers]
  cases hto.listed i with
  | same hswap _ hinsurance =>
    obtain ⟨hstored, hfair⟩ := hmatch i r (hswap.symm.trans hr) hinsured
    exact ⟨hinsurance.trans hstored, hfair⟩
  | new r₁ hnew hoffer hswap _ hinsurance =>
    obtain rfl := Option.some.inj (hswap.symm.trans hr)
    exact ⟨hinsurance hinsured, hoffer.fair hinsured (hidle i (hwf.unused hnew))⟩

instance : Aside State.swapInsurance := ⟨fun _ _ _ => rfl⟩

theorem blind_swapInsurance {t : Table} (h : t ≠ .insurance) : Blind t State.swapInsurance := by
  cases t with
  | insurance => exact absurd rfl h
  | _ => exact ⟨fun _ => rfl⟩

theorem exec_stored (h : exec env call s = .ok ((), s')) (hlists : call.lists = false) :
    s'.swapInsurance = s.swapInsurance ∧ s'.escrow.termsOf = s.escrow.termsOf := by
  refine ⟨?_, congrArg Catalogue.terms (exec_same h hlists)⟩
  refine exec_frame State.swapInsurance h fun t ht => blind_swapInsurance ?_
  rintro rfl
  simp [Call.lists_of_writes (.inr ht)] at hlists

theorem ActStep.idle (hact : ActStep s act s') (hwf : Wf s.escrow) (h : Idle s.escrow) :
    Idle s'.escrow := by
  obtain ⟨q, hmoves⟩ := hact.answers
  have hkept : Wf s'.escrow ∧ Idle s'.escrow := by
    refine hmoves.invariant (I := fun c => Wf c ∧ Idle c) ?_ ⟨hwf, h⟩
    intro c m c' _ hc hstep
    exact ⟨hstep.wf hc.1, hstep.idle hc.1 hc.2⟩
  exact hkept.2

theorem premiumsMatch_iff (hwf : Wf s.escrow) (hidle : Idle s.escrow)
    (hstored : ∀ i r, s.swap i = some r → r.insuranceEnabled = true →
      s.swapInsurance i = some r.insurancePremium) :
    PremiumsMatch s ↔ EachSwap FairlyInsured s.escrow := by
  constructor
  · intro hmatch
    refine ⟨hwf, fun i r hr hinsured => ?_, hidle⟩
    exact fairPremium_account.mpr (hmatch i r hr hinsured).2
  · intro heach i r hr hinsured
    exact ⟨hstored i r hr hinsured, fairPremium_account.mp (heach.each i r hr hinsured)⟩

theorem exec_stores (h : exec env call s = .ok ((), s')) (hlists : call.lists = false)
    (hmatch : PremiumsMatch s) : ∀ i r, s'.swap i = some r → r.insuranceEnabled = true →
      s'.swapInsurance i = some r.insurancePremium := by
  obtain ⟨hsame, hterms⟩ := exec_stored h hlists
  intro i r' hr' hinsured
  have hsome : s.escrow.termsOf i = some r'.terms := by
    rw [← hterms]
    exact congrArg (Option.map SwapRecord.terms) hr'
  obtain ⟨r, hr, e⟩ := Option.map_eq_some_iff.mp hsome
  obtain ⟨hstored, -⟩ := hmatch i r hr ((insured_of_terms e.symm).symm.trans hinsured)
  rw [hsame, hstored]
  exact congrArg some (congrArg Terms.insurancePremium e)

theorem ActStep.premiums (hact : ActStep s act s') (harranged : Arranged s) (hidle : Idle s.escrow)
    (hmatch : PremiumsMatch s) : PremiumsMatch s' ↔ OnCalls KeepsPremium s act := by
  cases hact with
  | elsewhere => exact iff_of_true hmatch (by simp [OnCalls])
  | @call _ env call hexec =>
    have hcond : OnCalls KeepsPremium s ⟨env, some call⟩ ↔ KeepsPremium s env call := by
      simp [OnCalls]
    rw [hcond]
    cases hlists : call.lists with
    | true =>
      refine iff_of_true (exec_listed hexec hlists hmatch harranged.wf hidle) ?_
      cases call <;> trivial
    | false =>
      have hwf := harranged.wf
      have heach := (premiumsMatch_iff hwf hidle fun i r hr hi => (hmatch i r hr hi).1).mp hmatch
      have hafter : ActStep s ⟨env, some call⟩ s' := .call hexec
      rw [← exec_fair hexec harranged hlists heach]
      have hstores := exec_stores hexec hlists hmatch
      exact premiumsMatch_iff (hafter.wf hwf) (hafter.idle hwf hidle) hstores

end Listings

/-- The premiums match the prices in every state of a run exactly if every renegotiation keeps the
premium right and no acceptance leaves out a premium that is owed. -/
theorem premiums_match_iff {balance : Address → Address → ℤ} {tr : List (Act × State)} {s : State}
    (hrun : Run ActStep (State.empty balance) tr s) :
    (∀ v ∈ visited (State.empty balance) tr, PremiumsMatch v) ↔
      ∀ past a k b, (past, a, k, b) ∈ steps (State.empty balance) tr →
        OnCalls KeepsPremium a k := by
  refine hrun.visited_iff_steps (J := fun s => Arranged s ∧ Idle s.escrow) ?_
    ⟨.empty balance, .empty balance⟩ ?_ ?_
  · intro i r hr
    cases hr
  · intro s k s' hJ hact
    exact ⟨hJ.1.step hact, hact.idle hJ.1.wf hJ.2⟩
  · intro s k s' hJ hmatch hact
    exact hact.premiums hJ.1 hJ.2 hmatch

section Sales

open Scenario

def seenPremium (price premium : ℤ) (s : State) : Bool :=
  (s.swap 0).any fun r => r.insuranceEnabled = true ∧ r.price = price ∧
    r.insurancePremium = premium ∧ (paidPrices 0 s.transfers).map Transfer.amount = [price] ∧
    (paidPremiums 0 s.transfers).map Transfer.amount = [premium]

theorem premium_of_seen {price premium : ℤ} {s : State} (h : seenPremium price premium s = true) :
    ∃ r, s.swap 0 = some r ∧ r.insuranceEnabled = true ∧ r.price = price ∧
      r.insurancePremium = premium ∧ (paidPrices 0 s.transfers).map Transfer.amount = [price] ∧
      (paidPremiums 0 s.transfers).map Transfer.amount = [premium] := by
  obtain ⟨r, hr, hseen⟩ := (Option.any_eq_true _ _).mp h
  exact ⟨r, hr, of_decide_eq_true hseen⟩

theorem sale_premium_matches : ∃ tr s r, Run ActStep (State.empty funds) tr s ∧ s.swap 0 = some r ∧
    r.insuranceEnabled = true ∧ r.price = 1000 ∧ s.swapInsurance 0 = some 20 ∧
    (paidPremiums 0 s.transfers).map Transfer.amount = [twoPercent r.price] := by
  obtain ⟨tr, s₁, s₂, hrun, hexec, hseen⟩ := watched (OnCalls KeepsPremium) funds offer
    (env [buyer] 2) (.acceptSwap 0) (fun _ s => seenPremium 1000 20 s) (by decide)
    (by simp [offer, OnCalls, KeepsPremium])
  obtain ⟨r, hr, hinsured, hprice, hpremium, -, hpaid⟩ := premium_of_seen hseen
  have hnext := hrun.next (k := ⟨env [buyer] 2, some (.acceptSwap 0)⟩)
    ⟨.call hexec, by simp [OnCalls, KeepsPremium]⟩
  have hplain := hnext.mono fun _ _ _ h => h.1
  have hmatch := (premiums_match_iff hplain).mpr fun _ _ _ _ hmem => (hnext.step_of_mem hmem).2
  obtain ⟨hstored, hfair⟩ := hmatch s₂ hplain.mem_visited 0 r hr hinsured
  refine ⟨_, s₂, r, hplain, hr, hinsured, hprice, hpremium ▸ hstored, ?_⟩
  rw [hpaid, ← hpremium, hfair.premium]

/-- Listed at 1000 with a premium of 20, and renegotiated to 500 before the buyer accepts. -/
def reduced : List (Env × Call) :=
  offer ++ [(env [seller] 2, Call.renegotiateSwap 0 500),
    (env [buyer] 3, Call.acceptRenegotiation 0)]

/-- The buyer pays a premium of four percent. -/
theorem reduced_sale_overpays : ∃ tr s r, Run ActStep (State.empty funds) tr s ∧
    s.swap 0 = some r ∧ r.insuranceEnabled = true ∧ r.price = 500 ∧ r.insurancePremium = 20 ∧
    twoPercent r.price = 10 ∧ (paidPrices 0 s.transfers).map Transfer.amount = [500] ∧
    (paidPremiums 0 s.transfers).map Transfer.amount = [20] ∧ ¬ PremiumsMatch s := by
  obtain ⟨tr, s₁, s₂, hrun, hexec, hseen⟩ := watched Always funds reduced (env [buyer] 4)
    (.acceptSwap 0) (fun _ s => seenPremium 500 20 s) (by decide) (by simp [Always])
  obtain ⟨r, hr, hinsured, hprice, hpremium, hpaid⟩ := premium_of_seen hseen
  have hten : twoPercent r.price = 10 := by
    rw [hprice]
    rfl
  have hnext := (hrun.mono fun _ _ _ h => h.1).next (k := ⟨env [buyer] 4, some (.acceptSwap 0)⟩)
    (.call hexec)
  refine ⟨_, s₂, r, hnext, hr, hinsured, hprice, hpremium, hten, hpaid.1, hpaid.2, ?_⟩
  intro hmatch
  have hright := (hmatch 0 r hr hinsured).2.premium
  omega

end Sales

end AtomicIp.AtomicSwap
