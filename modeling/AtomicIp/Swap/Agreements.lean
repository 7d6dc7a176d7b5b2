import AtomicIp.Swap.FixedTerms
import AtomicIp.Swap.Positions

set_option autoImplicit false

namespace AtomicIp.AtomicSwap

open Function

def charged (buyer : Address) (s s' : State) : ℤ :=
  paidOut buyer (fun _ => true) (newTransfers s s')

def priceAt (i : ℕ) (s : State) : Option ℤ := (s.swap i).map SwapRecord.price

inductive Accepting (i : ℕ) : Call → Prop where
  | plain : Accepting i (.acceptSwap i)
  | conditional (conditions : List SwapCondition) :
      Accepting i (.acceptSwapConditional i conditions)
  | batch (buyer : Address) : Accepting i (.batchAcceptSwaps [i] buyer)

/-- What an acceptance takes for the swap `r`. -/
def Call.fundingOf (i : ℕ) (r : SwapRecord) : Call → List TokenTransfer
  | .acceptSwapConditional .. => funding i r r.price false false
  | _ => funding i r r.price (decide (0 < r.collateralAmount))
      (decide (r.insuranceEnabled = true ∧ 0 < r.insurancePremium))

def Act.offerFor (i : ℕ) (act : Act) : Option ℤ :=
  match act.call with
  | some (.renegotiateSwap j price) => if j = i then some price else none
  | _ => none

/-- The last price offered, `price` if none was since. -/
def lastOffer (i : ℕ) (price : ℤ) : List (Act × State) → ℤ
  | [] => price
  | (act, _) :: tr => (act.offerFor i).getD (lastOffer i price tr)

/-- The calls nobody but the seller authorised. -/
def BySellerOnly (seller : Address) (_ : State) (act : Act) : Prop :=
  ∀ a ∈ act.env.auths, a = seller

section Locks

variable {env : Env} {c c' : Escrow} {m : Move} {i : ℕ} {r r' : SwapRecord} {s s' : State}
  {act : Act}

/-- A pending swap has no collateral yet. -/
def Unlocked (_ : ℕ) (p : Position) : Prop := p.record.status = .pending → p.collateral = none

theorem Step.lock_kept (hstep : Step env c m c') (hm : m.swap? = some i) (hr : c.swap i = some r)
    (hr' : c'.swap i = some r') (hto : r'.status = .pending) :
    r.status = .pending ∧ c'.swapCollateral i = c.swapCollateral i := by
  have hnew : ∀ {c₁ : Escrow} {r₁ : SwapRecord}, c₁.swap i = some r' →
      (∀ j, c₁.swap j = if j = i then some r₁ else c.swap j) → r₁ = r' := by
    intro c₁ r₁ h hswap
    rw [hswap, if_pos rfl] at h
    exact Option.some.inj h
  cases hstep with
  | configured | received | initiated | sold | auctionStarted | bid | unsold => cases hm
  | offered | claimed =>
    obtain rfl := Option.some.inj hm
    obtain rfl := Option.some.inj (hr.symm.trans hr')
    exact ⟨hto, rfl⟩
  | @accepted j r₀ r₁ _ _ _ hr₀ _ _ _ hstatus =>
    obtain rfl := Option.some.inj hm
    obtain rfl := hnew hr' fun k => swap_setSwap c j k _
    rw [hstatus] at hto
    cases hto
  | @installment j r₀ r₁ _ last hr₀ hfrom =>
    obtain rfl := Option.some.inj hm
    obtain rfl := Option.some.inj (hr₀.symm.trans hr)
    exact ⟨hfrom, rfl⟩
  | @scheduled j r₀ r₁ _ last hr₀ _ _ _ _ _ _ hstatus =>
    obtain rfl := Option.some.inj hm
    obtain rfl := Option.some.inj (hr₀.symm.trans hr)
    obtain rfl := hnew hr' fun k => swap_setSwap c j k _
    cases last with
    | true =>
      rw [hstatus] at hto
      cases hto
    | false => exact ⟨hstatus.symm.trans hto, rfl⟩
  | @repriced j r₀ offer hr₀ hfrom | @extended j r₀ newExpiry hr₀ hfrom =>
    obtain rfl := Option.some.inj hm
    obtain rfl := Option.some.inj (hr₀.symm.trans hr)
    exact ⟨hfrom, rfl⟩
  | @disputed j r₀ hr₀ =>
    obtain rfl := Option.some.inj hm
    obtain rfl := hnew hr' fun k => swap_setSwap c j k _
    cases hto
  | @cancelled j _ hr₀ | @released j _ _ _ hr₀ | @refunded j _ _ _ hr₀ | @withdrawn j _ _ hr₀
  | @adminRolledBack j _ _ _ _ hr₀ =>
    obtain rfl := Option.some.inj hm
    obtain rfl := hnew hr' fun k => swap_close c j k _ _
    cases hto
  | @rolledBack j r₀ _ _ hr₀ =>
    obtain rfl := Option.some.inj hm
    obtain rfl := hnew hr' fun k => swap_setSwap c j k _
    cases hto

theorem Step.unlocked (hstep : Step env c m c') (h : EachSwap Unlocked c) :
    EachSwap Unlocked c' := by
  refine h.step hstep (fun _ _ _ => rfl) ?_
  intro i r r' hm hr hr' hbefore hto
  obtain ⟨hfrom, hsame⟩ := hstep.lock_kept hm hr hr' hto
  exact hsame.trans (hbefore hfrom)

theorem ActStep.unlocked (hact : ActStep s act s') (h : EachSwap Unlocked s.escrow) :
    EachSwap Unlocked s'.escrow := by
  obtain ⟨q, hmoves⟩ := hact.answers
  exact hmoves.invariant (fun _ _ _ _ hc hstep => hstep.unlocked hc) h

end Locks

section Offers

variable {env : Env} {c c' : Escrow} {m : Move} {i : ℕ} {r : SwapRecord} {s s' : State}
  {act : Act} {call : Call} {offer : RenegotiationOffer}

theorem Step.offers_kept (hstep : Step env c m c') (hoffered : ∀ j, m ≠ .offered j)
    (hamended : ∀ j, m ≠ .amended j) : c'.swapRenegotiations = c.swapRenegotiations := by
  cases hstep with
  | @offered j => exact absurd rfl (hoffered j)
  | @repriced j | @extended j => exact absurd rfl (hamended j)
  | _ => rfl

def Call.Renegotiates : Call → Prop
  | .renegotiateSwap .. | .acceptRenegotiation _ | .extendSwapExpiry .. => True
  | _ => False

theorem Call.yields_terms {j : ℕ} (h : call.yields m) (hm : m = .offered j ∨ m = .amended j) :
    call.Renegotiates := by
  rcases hm with rfl | rfl
  · obtain ⟨price, rfl⟩ := Call.yields_source h
    trivial
  · rcases Call.yields_source h with rfl | ⟨expiry, rfl⟩
    · trivial
    · trivial

theorem ActStep.same_offers (hact : ActStep s act s')
    (hother : ∀ call, act.call = some call → ¬ call.Renegotiates) :
    s'.swapRenegotiations = s.swapRenegotiations := by
  obtain ⟨q, hmoves⟩ := hact.answers
  refine hmoves.invariant (I := fun c => c.swapRenegotiations = s.escrow.swapRenegotiations)
    ?_ rfl
  intro c m c' hm hsame hstep
  have hterms : ∀ j, ¬ (m = .offered j ∨ m = .amended j) := by
    intro j hj
    have hne : m ≠ .received := by
      rcases hj with rfl | rfl <;> simp
    obtain ⟨call, hcall, hyields⟩ := Act.yields_call hm.1 hne
    exact hother call hcall (Call.yields_terms hyields hj)
  exact (hstep.offers_kept (fun j e => hterms j (.inl e)) fun j e => hterms j (.inr e)).trans hsame

/-- A step the buyer did not authorise leaves the offer or replaces it by its own. -/
theorem ActStep.offer_kept (hact : ActStep s act s') (hr : s.swap i = some r)
    (hbuyer : r.buyer ∉ act.env.auths) (hoffer : s.swapRenegotiations i = some offer) :
    ∃ offer', s'.swapRenegotiations i = some offer' ∧
      offer'.newPrice = (act.offerFor i).getD offer.newPrice := by
  have hkept : act.offerFor i = none → s'.swapRenegotiations i = s.swapRenegotiations i →
      ∃ offer', s'.swapRenegotiations i = some offer' ∧
        offer'.newPrice = (act.offerFor i).getD offer.newPrice := by
    intro hnone hsame
    exact ⟨offer, hsame.trans hoffer, by rw [hnone, Option.getD_none]⟩
  cases hact with
  | elsewhere balance h => exact hkept rfl rfl
  | @call _ env call h =>
    have hstep : ActStep s ⟨env, some call⟩ s' := .call h
    cases call with
    | renegotiateSwap j price =>
      obtain ⟨r₁, -, -, -, -, e⟩ := renegotiateSwap_escrow h
      have hset := congrArg Escrow.swapRenegotiations e
      by_cases hj : j = i
      · subst hj
        refine ⟨⟨price, r₁.seller, env.timestamp⟩, ?_, by simp [Act.offerFor]⟩
        exact (congrFun hset j).trans (update_self ..)
      · refine hkept (by simp [Act.offerFor, hj]) ?_
        exact (congrFun hset i).trans (update_of_ne (Ne.symm hj) _ _)
    | acceptRenegotiation j =>
      obtain ⟨r₁, offer₁, hr₁, -, hauth, -, e⟩ := acceptRenegotiation_escrow h
      have hset := congrArg Escrow.swapRenegotiations e
      have hj : i ≠ j := by
        rintro rfl
        obtain rfl := Option.some.inj (hr.symm.trans hr₁)
        exact hbuyer hauth
      exact hkept rfl ((congrFun hset i).trans (update_of_ne hj _ _))
    | extendSwapExpiry j newExpiry =>
      obtain ⟨r₁, -, -, -, -, e⟩ := extendSwapExpiry_escrow h
      exact hkept rfl (congrFun (congrArg Escrow.swapRenegotiations e) i)
    | _ =>
      refine hkept rfl (congrFun (hstep.same_offers ?_) i)
      intro call hcall
      obtain rfl := Option.some.inj hcall
      exact fun h => h

end Offers

section Acceptances

variable {env : Env} {s s' : State} {call : Call} {i : ℕ} {r r' : SwapRecord} {u : Unit}
  {buyer : Address}

theorem newTransfers_of_escrow {ms : List TokenTransfer}
    (h : s'.escrow.transfers = s.escrow.transfers ++ ms) : newTransfers s s' = ms := by
  rw [newTransfers, State.transfers_escrow, State.transfers_escrow, h, List.drop_left]

theorem fundingOf_congr (hterms : r'.terms = r.terms) (hprice : r'.price = r.price) :
    call.fundingOf i r' = call.fundingOf i r := by
  have htoken : r'.token = r.token := congrArg Terms.token hterms
  have hbuyer : r'.buyer = r.buyer := congrArg Terms.buyer hterms
  have hcollateral : r'.collateralAmount = r.collateralAmount :=
    congrArg Terms.collateralAmount hterms
  have hpremium : r'.insurancePremium = r.insurancePremium :=
    congrArg Terms.insurancePremium hterms
  have hinsured : r'.insuranceEnabled = r.insuranceEnabled :=
    congrArg Terms.insuranceEnabled hterms
  have hfunding : ∀ deposits premium,
      funding i r' r'.price deposits premium = funding i r r.price deposits premium := by
    intro deposits premium
    simp only [funding, depositOf, priceOf, premiumOf, htoken, hbuyer, hcollateral, hpremium,
      hprice]
  cases call <;> simp only [Call.fundingOf, hfunding, hcollateral, hpremium, hinsured]

structure AcceptedAsIs (i : ℕ) (call : Call) (s s' : State) : Prop where
  accepted : ∃ r r', s.swap i = some r ∧ s'.swap i = some r' ∧ r'.price = r.price ∧
    newTransfers s s' = call.fundingOf i r

theorem AcceptedAsIs.of_escrow {deposits premium : Bool} {time : ℕ}
    (hr : s.escrow.swap i = some r)
    (hfunding : call.fundingOf i r = funding i r r.price deposits premium)
    (e : s'.escrow = s.escrow.accept deposits premium i r (r.acceptedAt time)) :
    AcceptedAsIs i call s s' := by
  refine ⟨r, r.acceptedAt time, hr, ?_, rfl, ?_⟩
  · rw [State.swap_escrow, e]
    exact update_self ..
  · rw [hfunding]
    refine newTransfers_of_escrow ?_
    rw [e]
    rfl

theorem acceptSwap_asIs (h : acceptSwap env i s = .ok (u, s')) :
    AcceptedAsIs i (.acceptSwap i) s s' := by
  obtain ⟨r, deposits, premium, hr, -, -, hasks, -, hinsured, -, e⟩ := acceptSwap_escrow h
  refine .of_escrow hr ?_ e
  simp only [Call.fundingOf, ← hasks, ← hinsured, Bool.decide_eq_true]

theorem acceptSwapConditional_asIs {conditions : List SwapCondition}
    (h : acceptSwapConditional env i conditions s = .ok (u, s')) :
    AcceptedAsIs i (.acceptSwapConditional i conditions) s s' := by
  obtain ⟨r, hr, -, -, -, -, -, e⟩ := acceptSwapConditional_escrow h
  refine ⟨r, { r with conditions }.acceptedAt env.timestamp, hr, ?_, rfl, ?_⟩
  · simp [e, Escrow.pay, Escrow.setSwap]
  · refine newTransfers_of_escrow ?_
    simp [e, Escrow.pay, Escrow.setSwap, Call.fundingOf, funding, priceOf]

theorem batchAcceptSwaps_asIs (h : batchAcceptSwaps env [i] buyer s = .ok (u, s'))
    (hlocks : EachSwap Unlocked s.escrow) : AcceptedAsIs i (.batchAcceptSwaps [i] buyer) s s' := by
  simp [batchAcceptSwaps] at h
  obtain ⟨-, -, -, s₁, ⟨_, hvalid⟩, s₂, ⟨_, haccept⟩, rfl⟩ := h
  obtain ⟨rfl, r, hr, -, hfrom⟩ := validateAcceptance_ok hvalid
  obtain ⟨r₁, deposits, premium, hr₁, hasks, hinsured, -, e⟩ := acceptValidated_escrow haccept
  obtain rfl := Option.some.inj (hr.symm.trans hr₁)
  have hnone : s₁.escrow.swapCollateral i = none := hlocks.each i r hr hfrom
  have hdeposits : deposits = true ↔ 0 < r.collateralAmount := by simp [hasks, hnone]
  refine .of_escrow hr ?_ e
  simp only [Call.fundingOf, ← hdeposits, ← hinsured, Bool.decide_eq_true]

theorem Accepting.asIs (hcall : Accepting i call) (h : exec env call s = .ok ((), s'))
    (hlocks : EachSwap Unlocked s.escrow) : AcceptedAsIs i call s s' := by
  cases hcall with
  | plain => exact acceptSwap_asIs h
  | conditional conditions => exact acceptSwapConditional_asIs h
  | batch buyer => exact batchAcceptSwaps_asIs h hlocks

theorem acceptRenegotiation_offered (h : acceptRenegotiation env i s = .ok (u, s')) :
    ∃ offer, s.swapRenegotiations i = some offer ∧ priceAt i s' = some offer.newPrice ∧
      newTransfers s s' = [] := by
  obtain ⟨r, offer, hr, -, -, hoffer, e⟩ := acceptRenegotiation_escrow h
  refine ⟨offer, hoffer, ?_, ?_⟩
  · rw [priceAt, State.swap_escrow, e]
    simp [Escrow.setSwapRenegotiations, Escrow.setSwap]
  · refine newTransfers_of_escrow ?_
    rw [e]
    simp [Escrow.setSwapRenegotiations, Escrow.setSwap]

end Acceptances

section Runs

variable {balance : Address → Address → ℤ} {tr calls : List (Act × State)} {s s₁ : State} {i : ℕ}
  {r : SwapRecord}

theorem run_unlocked (hrun : Run ActStep (State.empty balance) tr s) : EachSwap Unlocked s.escrow :=
  hrun.invariant (I := fun s => EachSwap Unlocked s.escrow) (.empty balance)
    fun _ _ _ h hact => ActStep.unlocked hact h

/-- While only the seller acts, the record keeps its terms and its price. -/
structure SellerKept (i : ℕ) (r : SwapRecord) (s : State) : Prop where
  locks : EachSwap Unlocked s.escrow
  record : ∃ r', s.swap i = some r' ∧ r'.terms = r.terms ∧ r'.price = r.price

theorem SellerKept.step {s' : State} {act : Act} (h : SellerKept i r s) (hact : ActStep s act s')
    (honly : BySellerOnly r.seller s act) (hparties : r.buyer ≠ r.seller) :
    SellerKept i r s' := by
  obtain ⟨r₁, hr₁, hterms₁, hprice₁⟩ := h.record
  obtain ⟨r', hr', hamends⟩ := hact.amended h.locks.wf i r₁ hr₁
  refine ⟨hact.unlocked h.locks, r', hr', hamends.terms.trans hterms₁, ?_⟩
  by_contra hne
  have hmoved : r'.price ≠ r₁.price := by rwa [hprice₁]
  have hbuyer : r₁.buyer = r.buyer := congrArg Terms.buyer hterms₁
  exact hparties (honly r.buyer (hbuyer ▸ (hamends.price hmoved).2))

theorem seller_keeps (hlocks : EachSwap Unlocked s.escrow) (hr : s.swap i = some r)
    (hparties : r.buyer ≠ r.seller)
    (hcalls : Run (Restrict ActStep (BySellerOnly r.seller)) s calls s₁) : SellerKept i r s₁ :=
  hcalls.invariant (I := SellerKept i r) ⟨hlocks, r, hr, rfl, rfl⟩
    fun _ _ _ h hstep => h.step hstep.1 hstep.2 hparties

theorem seller_offers {offer : RenegotiationOffer} (hlocks : EachSwap Unlocked s.escrow)
    (hr : s.swap i = some r) (hparties : r.buyer ≠ r.seller)
    (hoffer : s.swapRenegotiations i = some offer)
    (hcalls : Run (Restrict ActStep (BySellerOnly r.seller)) s calls s₁) :
    ∃ offer', s₁.swapRenegotiations i = some offer' ∧
      offer'.newPrice = lastOffer i offer.newPrice calls := by
  induction hcalls with
  | start => exact ⟨offer, hoffer, rfl⟩
  | @next calls s₂ s₃ act hprev hstep ih =>
    obtain ⟨offer₂, hoffer₂, hlast⟩ := ih
    obtain ⟨r₂, hr₂, hterms, -⟩ := (seller_keeps hlocks hr hparties hprev).record
    have hbuyer : r₂.buyer = r.buyer := congrArg Terms.buyer hterms
    have hauth : r₂.buyer ∉ act.env.auths := by
      intro hmem
      exact hparties (hstep.2 r.buyer (hbuyer ▸ hmem))
    obtain ⟨offer₃, hoffer₃, hprice⟩ := hstep.1.offer_kept hr₂ hauth hoffer₂
    exact ⟨offer₃, hoffer₃, by rw [hprice, hlast, lastOffer]⟩

/-- Whatever the seller does first, an acceptance of the swap as it stands comes to the same
price and the same charge; an accepted renegotiation comes to the last price offered. -/
theorem agreement_kept (hrun : Run ActStep (State.empty balance) tr s) (hr : s.swap i = some r)
    (hparties : r.buyer ≠ r.seller)
    (hcalls : Run (Restrict ActStep (BySellerOnly r.seller)) s calls s₁) :
    (∀ call env env₁ a b, Accepting i call → exec env call s = .ok ((), a) →
      exec env₁ call s₁ = .ok ((), b) →
        priceAt i a = priceAt i b ∧ charged r.buyer s a = charged r.buyer s₁ b) ∧
    ∀ env env₁ a b, exec env (.acceptRenegotiation i) s = .ok ((), a) →
      exec env₁ (.acceptRenegotiation i) s₁ = .ok ((), b) →
        charged r.buyer s a = 0 ∧ charged r.buyer s₁ b = 0 ∧
          ∃ offer, s.swapRenegotiations i = some offer ∧ priceAt i a = some offer.newPrice ∧
            priceAt i b = some (lastOffer i offer.newPrice calls) := by
  have hlocks := run_unlocked hrun
  have hkept := seller_keeps hlocks hr hparties hcalls
  obtain ⟨r₁, hr₁, hterms, hprice⟩ := hkept.record
  constructor
  · intro call env env₁ a b hcall ha hb
    obtain ⟨q, qa, hq, hqa, hpricea, hmovesa⟩ := (hcall.asIs ha hlocks).accepted
    obtain ⟨q₁, qb, hq₁, hqb, hpriceb, hmovesb⟩ := (hcall.asIs hb hkept.locks).accepted
    obtain rfl := Option.some.inj (hr.symm.trans hq)
    obtain rfl := Option.some.inj (hr₁.symm.trans hq₁)
    constructor
    · rw [priceAt, priceAt, hqa, hqb, Option.map_some, Option.map_some, hpricea, hpriceb, hprice]
    · rw [charged, charged, hmovesa, hmovesb, fundingOf_congr hterms hprice]
  · intro env env₁ a b ha hb
    obtain ⟨offer, hoffer, hpricea, hmovesa⟩ := acceptRenegotiation_offered ha
    obtain ⟨offer₁, hoffer₁, hpriceb, hmovesb⟩ := acceptRenegotiation_offered hb
    obtain ⟨offer₂, hoffer₂, hlast⟩ := seller_offers hlocks hr hparties hoffer hcalls
    obtain rfl := Option.some.inj (hoffer₁.symm.trans hoffer₂)
    refine ⟨?_, ?_, offer, hoffer, hpricea, hpriceb.trans (congrArg some hlast)⟩
    · rw [charged, hmovesa, paidOut_nil]
    · rw [charged, hmovesb, paidOut_nil]

end Runs

section Sales

open Scenario

def before (time : ℕ) (buyers : List Address) (call : Call) (seen : State → State → Bool)
    (s s₁ : State) : Bool :=
  thenSee (env buyers time) call
    (fun _ a => thenSee (env buyers time) call (fun _ b => seen a b) s₁) s

theorem before_exec {time : ℕ} {buyers : List Address} {call : Call} {seen : State → State → Bool}
    {s s₁ : State} (h : before time buyers call seen s s₁ = true) :
    ∃ a b, exec (env buyers time) call s = .ok ((), a) ∧
      exec (env buyers time) call s₁ = .ok ((), b) ∧ seen a b = true := by
  obtain ⟨a, ha, hthen⟩ := exec_of_thenSee h
  obtain ⟨b, hb, hseen⟩ := exec_of_thenSee hthen
  exact ⟨a, b, ha, hb, hseen⟩

def reoffer : List (Env × Call) := offer ++ [(env [seller] 2, Call.renegotiateSwap 0 900)]

/-- Another offer of the seller's does not touch the swap as it stands. -/
theorem acceptance_kept : ∃ s s₁ a b : State,
    exec (env [seller] 3) (.renegotiateSwap 0 2000) s = .ok ((), s₁) ∧
      exec (env [buyer] 4) (.acceptSwap 0) s = .ok ((), a) ∧
        exec (env [buyer] 4) (.acceptSwap 0) s₁ = .ok ((), b) ∧
          priceAt 0 a = priceAt 0 b ∧ charged buyer s a = charged buyer s₁ b := by
  obtain ⟨tr, s, s₁, hrun, hoffers, hseen⟩ := watched Always funds reoffer (env [seller] 3)
    (.renegotiateSwap 0 2000) (fun s s₁ =>
      ((s.swap 0).any fun r => r.buyer = buyer ∧ r.seller = seller) &&
        before 4 [buyer] (.acceptSwap 0) (fun _ _ => true) s s₁)
    (by decide) (by simp [Always])
  simp only [Bool.and_eq_true, Option.any_eq_true, decide_eq_true_eq] at hseen
  obtain ⟨⟨r, hr, hbuyer, hseller⟩, hbefore⟩ := hseen
  obtain ⟨a, b, ha, hb, -⟩ := before_exec hbefore
  have honly : BySellerOnly r.seller s ⟨env [seller] 3, some (.renegotiateSwap 0 2000)⟩ := by
    intro x hx
    rw [hseller]
    exact List.mem_singleton.mp hx
  have hparties : r.buyer ≠ r.seller := by
    rw [hbuyer, hseller]
    decide
  have hkept := (agreement_kept (hrun.mono fun _ _ _ h => h.1) hr hparties
    (Run.start.next ⟨.call hoffers, honly⟩)).1 _ _ _ a b .plain ha hb
  rw [hbuyer] at hkept
  exact ⟨s, s₁, a, b, hoffers, ha, hb, hkept⟩

/-- A second offer overtakes the first; and who is his own buyer can take an offer himself. -/
theorem offers_overtake :
    (∃ (tr : List (Act × State)) (s s₁ a b : State) (r : SwapRecord),
      Run ActStep (State.empty funds) tr s ∧ s.swap 0 = some r ∧ r.buyer = buyer ∧
        r.seller = seller ∧ exec (env [seller] 3) (.renegotiateSwap 0 2000) s = .ok ((), s₁) ∧
          exec (env [buyer] 4) (.acceptRenegotiation 0) s = .ok ((), a) ∧
            exec (env [buyer] 4) (.acceptRenegotiation 0) s₁ = .ok ((), b) ∧
              priceAt 0 a ≠ priceAt 0 b) ∧
    ∃ (tr : List (Act × State)) (s s₁ a b : State) (r : SwapRecord),
      Run ActStep (State.empty fun _ _ => 10000) tr s ∧ s.swap 0 = some r ∧ r.buyer = seller ∧
        r.seller = seller ∧ exec (env [seller] 3) (.acceptRenegotiation 0) s = .ok ((), s₁) ∧
          exec (env [seller] 4) (.acceptSwap 0) s = .ok ((), a) ∧
            exec (env [seller] 4) (.acceptSwap 0) s₁ = .ok ((), b) ∧
              priceAt 0 a ≠ priceAt 0 b ∧ charged seller s a ≠ charged seller s₁ b := by
  constructor
  · obtain ⟨tr, s, s₁, hrun, hoffers, hseen⟩ := watched Always funds reoffer (env [seller] 3)
      (.renegotiateSwap 0 2000) (fun s s₁ =>
        ((s.swap 0).any fun r => r.buyer = buyer ∧ r.seller = seller) &&
          before 4 [buyer] (.acceptRenegotiation 0) (fun a b => priceAt 0 a ≠ priceAt 0 b) s s₁)
      (by decide) (by simp [Always])
    simp only [Bool.and_eq_true, Option.any_eq_true, decide_eq_true_eq] at hseen
    obtain ⟨⟨r, hr, hbuyer, hseller⟩, hbefore⟩ := hseen
    obtain ⟨a, b, ha, hb, hne⟩ := before_exec hbefore
    exact ⟨tr, s, s₁, a, b, r, hrun.mono fun _ _ _ h => h.1, hr, hbuyer, hseller, hoffers, ha, hb,
      of_decide_eq_true hne⟩
  · obtain ⟨tr, s, s₁, hrun, haccepts, hseen⟩ := watched Always (fun _ _ => 10000)
      [(env [] 0, .initializeContract registry),
        (env [seller] 1, .initiateSwap token 1 seller 1000 seller 0 none 0 false),
        (env [seller] 2, .renegotiateSwap 0 500)] (env [seller] 3) (.acceptRenegotiation 0)
      (fun s s₁ => ((s.swap 0).any fun r => r.buyer = seller ∧ r.seller = seller) &&
        before 4 [seller] (.acceptSwap 0) (fun a b =>
          priceAt 0 a ≠ priceAt 0 b ∧ charged seller s a ≠ charged seller s₁ b) s s₁)
      (by decide) (by simp [Always])
    simp only [Bool.and_eq_true, Option.any_eq_true, decide_eq_true_eq] at hseen
    obtain ⟨⟨r, hr, hbuyer, hseller⟩, hbefore⟩ := hseen
    obtain ⟨a, b, ha, hb, hne⟩ := before_exec hbefore
    have hdiffer := of_decide_eq_true hne
    exact ⟨tr, s, s₁, a, b, r, hrun.mono fun _ _ _ h => h.1, hr, hbuyer, hseller, haccepts, ha, hb,
      hdiffer.1, hdiffer.2⟩

end Sales

end AtomicIp.AtomicSwap
