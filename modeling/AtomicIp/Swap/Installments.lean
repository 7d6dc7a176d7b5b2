import AtomicIp.Swap.Collection

set_option autoImplicit false

namespace AtomicIp.AtomicSwap

open Function

/-- The record of an instalment sale says what its buyer has paid, never more than the price, and
all of it once the sale is accepted. -/
def PaymentsAccounted (s : State) : Prop :=
  ∀ i r, s.swap i = some r → r.isInstallment = true →
    r.paidAmount = collectedFrom r.buyer i s.transfers ∧
    collectedFrom r.buyer i s.transfers ≤ r.price ∧
    (r.status = .accepted → collectedFrom r.buyer i s.transfers = r.price)

def Call.OfInstallments : Call → Prop
  | .initializeContract _ | .initiateSwapWithSchedule .. | .makeScheduledPayment ..
  | .submitInstallmentPayment .. | .renegotiateSwap .. | .acceptRenegotiation _ | .acceptSwap _
  | .acceptSwapPartial .. | .cancelSwap .. => True
  | _ => False

/-- Nothing is taken past the running total, and no price is agreed on below it. An offer is an
`i128`. -/
def KeepsTotal (s : State) (_env : Env) : Call → Prop
  | .makeScheduledPayment i index => ∀ r schedule payment, s.swap i = some r →
      s.paymentSchedule i = some schedule → schedule[index]? = some payment →
      payment.amount = 0 ∧ (ScheduleDone s i index → r.paidAmount = r.price)
  | .acceptRenegotiation i => ∀ r offer, s.swap i = some r →
      s.swapRenegotiations i = some offer → r.paidAmount ≤ offer.newPrice
  | .acceptSwap i | .acceptSwapPartial i _ => ∀ r, s.swap i = some r → r.isInstallment = false
  | .renegotiateSwap _ newPrice => newPrice ≤ i128Max
  | _ => True

structure Balanced (i : ℕ) (p : Position) : Prop where
  total : p.record.paidAmount = collectedFrom p.record.buyer i p.transfers
  within : p.record.paidAmount ≤ p.record.price
  done : p.record.status = .accepted → p.record.paidAmount = p.record.price
  bounded : p.record.price ≤ i128Max

def InBalance (i : ℕ) (p : Position) : Prop := p.record.isInstallment = true → Balanced i p

def OffersBounded (c : Escrow) : Prop :=
  ∀ i offer, c.swapRenegotiations i = some offer → offer.newPrice ≤ i128Max

section Accounts

variable {env : Env} {c c' : Escrow} {m : Move} {i : ℕ} {r r' : SwapRecord} {a : Address}
  {ms : List TokenTransfer} {amount : ℤ}

theorem collectedFrom_account : collectedFrom a i (accountOf i ms) = collectedFrom a i ms := by
  unfold collectedFrom accountOf amountOf
  rw [List.filter_filter]
  congr 2
  apply List.filter_congr
  intro m _
  simp only [onAccountOf]
  by_cases hm : m.ref.swap? = some i <;> simp [hm]

theorem collectedFrom_price : collectedFrom r.buyer i [priceOf i r amount] = amount := by
  simp [collectedFrom, priceOf, onAccountOf, Purpose.swap?]

theorem collected_pay (hms : c'.transfers = c.transfers ++ [priceOf i r amount]) :
    collectedFrom r.buyer i (accountOf i c'.transfers) =
      collectedFrom r.buyer i (accountOf i c.transfers) + amount := by
  rw [collectedFrom_account, collectedFrom_account, hms, collectedFrom_append, collectedFrom_price]

theorem Step.offers (hstep : Step env c m c') (hm : ∀ i, m ≠ .offered i) (h : OffersBounded c) :
    OffersBounded c' := by
  cases hstep with
  | offered => exact absurd rfl (hm _)
  | @repriced j =>
    intro i offer hoffer
    by_cases hij : i = j
    · simp [Escrow.setSwapRenegotiations, hij] at hoffer
    · exact h i offer (by simpa [Escrow.setSwapRenegotiations, Escrow.setSwap, hij] using hoffer)
  | _ => exact h

theorem Balanced.kept (h : Balanced i (c.position i r)) (hbuyer : r'.buyer = r.buyer)
    (hpaid : r'.paidAmount = r.paidAmount) (hprice : r'.price = r.price)
    (hto : r'.status = .accepted → r.status = .accepted ∨ r.paidAmount = r.price)
    (hcollected : collectedFrom r.buyer i (accountOf i c'.transfers) =
      collectedFrom r.buyer i (accountOf i c.transfers)) : Balanced i (c'.position i r') where
  total := by
    have htotal := h.total
    simp only [Escrow.position] at htotal ⊢
    rw [hbuyer, hpaid, hcollected, htotal]
  within := by
    have hwithin := h.within
    simp only [Escrow.position] at hwithin ⊢
    omega
  done haccepted := by
    have hfull : r.paidAmount = r.price := by
      cases hto haccepted with
      | inl hst => exact h.done hst
      | inr hfull => exact hfull
    simp only [Escrow.position]
    omega
  bounded := by
    have hbounded := h.bounded
    simp only [Escrow.position] at hbounded ⊢
    omega

end Accounts

section Calls

variable {env : Env} {s s' : State} {call : Call} {act : Act} {i : ℕ} {r r' : SwapRecord}
  {u : Unit} {newPrice amount : ℤ} {index : ℕ} {seller buyer token : Address}

theorem saturatingI128_le (x : ℤ) : saturatingI128 x ≤ i128Max := by
  simp only [saturatingI128, saturate, i128Min, i128Max]
  omega

theorem saturatingI128_of_mem {x : ℤ} (hlow : 0 ≤ x) (hhigh : x ≤ i128Max) :
    saturatingI128 x = x := by
  simp only [saturatingI128, saturate, i128Min] at hhigh ⊢
  omega

theorem foldl_saturating_le (schedule : List PaymentSchedule) {total : ℤ}
    (h : total ≤ i128Max) : schedule.foldl (fun total payment =>
      saturatingI128 (total + payment.amount)) total ≤ i128Max := by
  induction schedule generalizing total with
  | nil => exact h
  | cons payment rest ih => exact ih (saturatingI128_le _)

theorem initiateSwapWithSchedule_initiates {ipId id : ℕ} {schedule : List PaymentSchedule}
    (h : initiateSwapWithSchedule env token ipId seller schedule buyer s = .ok (id, s')) :
    ∃ r, r.price ≤ i128Max ∧ Step env s.escrow (.initiated r) s'.escrow := by
  obtain ⟨hauth, hprice, -, hfree, rfl, _, s₁, s₂, rfl, hopen, hindex, hannounce⟩ :=
    initiateSwapWithSchedule_opening h
  have e₂ := appendIpSwap_escrow hindex
  rw [opening_escrow rfl hopen (by simpa using e₂) hannounce]
  exact ⟨_, foldl_saturating_le schedule (by decide),
    .initiated (freshSwap_inInstallments hprice) hfree hauth⟩

theorem initiateSwapWithSchedule_balanced {ipId id : ℕ} {schedule : List PaymentSchedule}
    (h : initiateSwapWithSchedule env token ipId seller schedule buyer s = .ok (id, s'))
    (heach : EachSwap InBalance s.escrow) : EachSwap InBalance s'.escrow := by
  obtain ⟨r, hbounded, hstep⟩ := initiateSwapWithSchedule_initiates h
  refine heach.step hstep ?_ (fun _ _ _ hj => by cases hj)
  intro r' hadds _
  rcases hadds with ⟨hm, hfresh⟩ | ⟨_, _, _, hm, -⟩
  · obtain rfl := Move.initiated.inj hm
    have hpaid := hfresh.paid
    have hprice := hfresh.price
    refine ⟨hpaid, ?_, fun hto => ?_, hbounded⟩
    · simp only
      omega
    · have hst : r.status = .accepted := hto
      simp [hfresh.status] at hst
  · cases hm

theorem submitInstallmentPayment_balanced
    (h : submitInstallmentPayment env i amount s = .ok (u, s'))
    (heach : EachSwap InBalance s.escrow) : EachSwap InBalance s'.escrow := by
  obtain ⟨last, -, hstep⟩ := submitInstallmentPayment_step h
  refine heach.step hstep (fun _ hadds => by cases hadds.apart) ?_
  intro j r r' hj hr hr' hbalance hkind
  obtain rfl := Option.some.inj hj
  obtain ⟨r₀, r₁, hpays⟩ := submitInstallmentPayment_pays h
  obtain rfl := Option.some.inj (hr.symm.trans hpays.stored)
  obtain rfl : r₁ = r' := by
    rw [hpays.escrow] at hr'
    simpa [Escrow.pay, Escrow.setSwap] using hr'
  have hbalanced := hbalance hpays.installment
  have hcollected : collectedFrom r.buyer i (accountOf i s'.escrow.transfers) =
      collectedFrom r.buyer i (accountOf i s.escrow.transfers) + amount :=
    collected_pay (by rw [hpays.escrow]; rfl)
  have htotal : r.paidAmount = collectedFrom r.buyer i (accountOf i s.escrow.transfers) :=
    hbalanced.total
  have hwithin : r.paidAmount ≤ r.price := hbalanced.within
  have hbounded : r.price ≤ i128Max := hbalanced.bounded
  have hpos := hpays.pos
  have hnonneg := (heach.wf.stored i r hr).2.paid
  have hrest : amount ≤ r.price - r.paidAmount := by
    have hle := hpays.le
    rwa [saturatingI128_of_mem (by omega) (by omega)] at hle
  have hnew : saturatingI128 (r.paidAmount + amount) = r.paidAmount + amount :=
    saturatingI128_of_mem (by omega) (by omega)
  by_cases hdone : r.price ≤ saturatingI128 (r.paidAmount + amount)
  · obtain rfl := hpays.done hdone
    rw [hnew] at hdone ⊢
    refine ⟨?_, ?_, fun _ => ?_, hbounded⟩
    · exact (congrArg (· + amount) htotal).trans hcollected.symm
    · simp only [Escrow.position, SwapRecord.acceptedAt, SwapRecord.withPaid]
      omega
    · simp only [Escrow.position, SwapRecord.acceptedAt, SwapRecord.withPaid]
      omega
  · obtain rfl := hpays.open_ hdone
    rw [hnew]
    refine ⟨?_, ?_, fun hto => ?_, hbounded⟩
    · exact (congrArg (· + amount) htotal).trans hcollected.symm
    · simp only [Escrow.position, SwapRecord.withPaid]
      omega
    · have hst : r.status = .accepted := hto
      simp [hpays.pending] at hst

theorem makeScheduledPayment_balanced (h : makeScheduledPayment env i index s = .ok (u, s'))
    (hcond : KeepsTotal s env (.makeScheduledPayment i index))
    (heach : EachSwap InBalance s.escrow) : EachSwap InBalance s'.escrow := by
  obtain ⟨last, -, hstep⟩ := makeScheduledPayment_step h
  refine heach.step hstep (fun _ hadds => by cases hadds.apart) ?_
  intro j r r' hj hr hr' hbalance hkind
  obtain rfl := Option.some.inj hj
  obtain ⟨r₀, r₁, payment, hpays⟩ := makeScheduledPayment_pays h
  obtain rfl := Option.some.inj (hr.symm.trans hpays.stored)
  obtain rfl : r₁ = r' := by
    rw [hpays.escrow] at hr'
    simpa [Escrow.pay, Escrow.setSwap] using hr'
  obtain ⟨schedule, hschedule, hpayment⟩ := hpays.scheduled
  obtain ⟨hzero, hfull⟩ := hcond r schedule payment hr hschedule hpayment
  have hcollected : collectedFrom r.buyer i (accountOf i s'.escrow.transfers) =
      collectedFrom r.buyer i (accountOf i s.escrow.transfers) := by
    have hpaid : collectedFrom r.buyer i (accountOf i s'.escrow.transfers) =
        collectedFrom r.buyer i (accountOf i s.escrow.transfers) + payment.amount :=
      collected_pay (by rw [hpays.escrow]; rfl)
    rw [hpaid, hzero, add_zero]
  by_cases hdone : ScheduleDone s i index
  · obtain rfl := hpays.done hdone
    exact (hbalance hkind).kept rfl rfl rfl (fun _ => .inr (hfull hdone)) hcollected
  · obtain rfl := hpays.open_ hdone
    exact (hbalance hkind).kept rfl rfl rfl .inl hcollected

theorem acceptRenegotiation_balanced (h : acceptRenegotiation env i s = .ok (u, s'))
    (hcond : KeepsTotal s env (.acceptRenegotiation i)) (hoffers : OffersBounded s.escrow)
    (heach : EachSwap InBalance s.escrow) : EachSwap InBalance s'.escrow := by
  refine heach.step (acceptRenegotiation_step h) (fun _ hadds => by cases hadds.apart) ?_
  intro j r r' hj hr hr' hbalance hkind
  obtain rfl := Option.some.inj hj
  obtain ⟨r₀, offer, hr₀, hfrom, -, hoffer, e⟩ := acceptRenegotiation_escrow h
  obtain rfl := Option.some.inj (hr.symm.trans hr₀)
  obtain rfl : { r with price := offer.newPrice } = r' := by
    rw [e] at hr'
    simpa [Escrow.setSwap, Escrow.setSwapRenegotiations] using hr'
  have hbalanced := hbalance hkind
  refine ⟨?_, hcond r offer hr hoffer, fun hto => ?_, hoffers i offer hoffer⟩
  · have htotal := hbalanced.total
    simp only [Escrow.position] at htotal ⊢
    rw [e, htotal]
    rfl
  · have hst : r.status = .accepted := hto
    simp [hfrom] at hst

theorem EachSwap.untouched {m : Move} (h : EachSwap InBalance s.escrow)
    (hstep : Step env s.escrow m s'.escrow)
    (hm : m = .configured ∨ m = .received ∨ m = .offered i ∨ m = .cancelled i) :
    EachSwap InBalance s'.escrow := by
  refine h.step hstep ?_ ?_
  · intro r hadds
    rcases hadds with ⟨rfl, -⟩ | ⟨_, _, _, rfl, -⟩ <;> simp at hm
  · intro j r r' hj hr hr' hbalance hkind
    have hmoved := hstep.moved h.wf hj hr hr'
    have hkind' : r.isInstallment = true := by
      have hsame : r'.isInstallment = r.isInstallment := congrArg Terms.isInstallment hmoved.terms
      exact hsame ▸ hkind
    generalize s'.escrow = c' at hstep hr' ⊢
    rcases hm with rfl | rfl | rfl | rfl
    · cases hj
    · cases hj
    · cases hstep with
      | offered hr₀ =>
        obtain rfl := Option.some.inj hj
        obtain rfl := Option.some.inj (hr.symm.trans hr')
        exact (hbalance hkind).kept rfl rfl rfl .inl rfl
    · cases hstep with
      | cancelled hr₀ =>
        obtain rfl := Option.some.inj hj
        obtain rfl := Option.some.inj (hr.symm.trans hr₀)
        obtain rfl : r.withStatus .cancelled = r' := by simpa [swap_close] using hr'
        exact (hbalance hkind').kept rfl rfl rfl (fun hto => by cases hto) rfl

theorem EachSwap.accepted (h : EachSwap InBalance s.escrow)
    (hstep : Step env s.escrow (.accepted i) s'.escrow)
    (hplain : ∀ r, s.swap i = some r → r.isInstallment = false) :
    EachSwap InBalance s'.escrow := by
  refine h.step hstep (fun _ hadds => by cases hadds.apart) ?_
  intro j r r' hj hr hr' _ hkind
  obtain rfl := Option.some.inj hj
  have hmoved := hstep.moved h.wf rfl hr hr'
  have hsame : r'.isInstallment = r.isInstallment := congrArg Terms.isInstallment hmoved.terms
  have hnot : r'.isInstallment = false := hsame.trans (hplain r hr)
  rw [show r'.isInstallment = true from hkind] at hnot
  cases hnot

theorem renegotiateSwap_offers (h : renegotiateSwap env i newPrice s = .ok (u, s'))
    (hbounded : newPrice ≤ i128Max) (hoffers : OffersBounded s.escrow) :
    OffersBounded s'.escrow := by
  obtain ⟨r, -, -, -, -, e⟩ := renegotiateSwap_escrow h
  rw [e]
  intro j offer hoffer
  by_cases hji : j = i
  · simp only [Escrow.setSwapRenegotiations, hji, update_self, Option.some.injEq] at hoffer
    rw [← hoffer]
    exact hbounded
  · exact hoffers j offer (by simpa [Escrow.setSwapRenegotiations, hji] using hoffer)

structure Accountant (s : State) : Prop where
  balanced : EachSwap InBalance s.escrow
  offers : OffersBounded s.escrow

theorem exec_accountant (h : exec env call s = .ok ((), s')) (hcall : call.OfInstallments)
    (hcond : KeepsTotal s env call) (hs : Accountant s) : Accountant s' := by
  have hoffers : ∀ {m}, Step env s.escrow m s'.escrow → (∀ i, m ≠ .offered i) →
      OffersBounded s'.escrow := fun hstep hm => hstep.offers hm hs.offers
  cases call with
  | initializeContract =>
    have hstep : Step env s.escrow .configured s'.escrow := initializeContract_step h
    exact ⟨hs.balanced.untouched (i := 0) hstep (.inl rfl), hoffers hstep (by simp)⟩
  | initiateSwapWithSchedule =>
    obtain ⟨id, h⟩ := Tx.void_ok.mp h
    obtain ⟨r, -, hstep⟩ := initiateSwapWithSchedule_initiates h
    exact ⟨initiateSwapWithSchedule_balanced h hs.balanced, hoffers hstep (by simp)⟩
  | makeScheduledPayment =>
    obtain ⟨last, -, hstep⟩ := makeScheduledPayment_step h
    exact ⟨makeScheduledPayment_balanced h hcond hs.balanced, hoffers hstep (by simp)⟩
  | submitInstallmentPayment =>
    obtain ⟨last, -, hstep⟩ := submitInstallmentPayment_step h
    exact ⟨submitInstallmentPayment_balanced h hs.balanced, hoffers hstep (by simp)⟩
  | renegotiateSwap =>
    exact ⟨hs.balanced.untouched (renegotiateSwap_step h) (.inr (.inr (.inl rfl))),
      renegotiateSwap_offers h hcond hs.offers⟩
  | acceptRenegotiation =>
    exact ⟨acceptRenegotiation_balanced h hcond hs.offers hs.balanced,
      hoffers (acceptRenegotiation_step h) (by simp)⟩
  | acceptSwap =>
    have hstep := acceptSwap_step h
    exact ⟨hs.balanced.accepted hstep hcond, hoffers hstep (by simp)⟩
  | acceptSwapPartial =>
    have hstep := acceptSwapPartial_step h
    exact ⟨hs.balanced.accepted hstep hcond, hoffers hstep (by simp)⟩
  | cancelSwap =>
    have hstep := cancelSwap_step h
    exact ⟨hs.balanced.untouched hstep (.inr (.inr (.inr rfl))), hoffers hstep (by simp)⟩
  | _ => exact hcall.elim

theorem ActStep.accountant (hact : ActStep s act s')
    (hcond : OnCalls (fun s env call => call.OfInstallments ∧ KeepsTotal s env call) s act)
    (hs : Accountant s) : Accountant s' := by
  cases hact with
  | @elsewhere env balance hbalance =>
    have hstep : Step env s.escrow .received _ := .received balance hbalance
    exact ⟨hs.balanced.untouched (i := 0) hstep (.inr (.inl rfl)),
      hstep.offers (by simp) hs.offers⟩
  | @call _ env call hexec =>
    obtain ⟨hcall, hkeeps⟩ := hcond call rfl
    exact exec_accountant hexec hcall hkeeps hs

theorem EachSwap.accounted (h : EachSwap InBalance s.escrow) : PaymentsAccounted s := by
  intro i r hr hkind
  have hbalanced := h.each i r hr hkind
  have htotal : r.paidAmount = collectedFrom r.buyer i s.transfers :=
    hbalanced.total.trans collectedFrom_account
  rw [← htotal]
  exact ⟨rfl, hbalanced.within, hbalanced.done⟩

end Calls

/-- In runs whose payments all go through the running total, it is right at every step. -/
theorem payments_accounted {balance : Address → Address → ℤ} {tr : List (Act × State)} {s : State}
    (hrun : Run (Restrict ActStep (OnCalls fun s env call =>
      call.OfInstallments ∧ KeepsTotal s env call)) (State.empty balance) tr s) :
    ∀ s' ∈ visited (State.empty balance) tr, PaymentsAccounted s' := by
  have hinit : Accountant (State.empty balance) := ⟨.empty balance, fun _ _ h => by cases h⟩
  intro s' hs'
  exact (hrun.forall_visited (I := Accountant) hinit
    (fun _ _ _ hs hact => hact.1.accountant hact.2 hs) s' hs').balanced.accounted

section Sales

open Scenario

def scheduleOffer : List (Env × Call) :=
  [(env [] 0, .initializeContract registry),
    (env [seller] 1, .initiateSwapWithSchedule token 1 seller [⟨2, 500⟩, ⟨3, 500⟩] buyer)]

def seenPaid (paid : ℤ) (s : State) : Bool :=
  (s.swap 0).any fun r => r.isInstallment = true ∧ r.paidAmount = paid ∧ r.buyer = buyer

theorem paid_of_seen {paid : ℤ} {s : State} (h : seenPaid paid s = true) :
    ∃ r, s.swap 0 = some r ∧ r.isInstallment = true ∧ r.paidAmount = paid ∧ r.buyer = buyer := by
  simp only [seenPaid, Option.any_eq_true, decide_eq_true_eq] at h
  exact h

theorem installment_accounted : ∃ s : State, collectedFrom buyer 0 s.transfers = 400 := by
  obtain ⟨tr, s₁, s₂, hrun, hexec, hseen⟩ := watched
    (OnCalls fun s env call => call.OfInstallments ∧ KeepsTotal s env call) funds scheduleOffer
    (env [buyer] 2) (.submitInstallmentPayment 0 400) (fun _ s => seenPaid 400 s) (by decide)
    (by simp [scheduleOffer, OnCalls, Call.OfInstallments, KeepsTotal])
  have hrun' := hrun.next (k := ⟨env [buyer] 2, some (.submitInstallmentPayment 0 400)⟩)
    ⟨.call hexec, by simp [OnCalls, Call.OfInstallments, KeepsTotal]⟩
  obtain ⟨r, hr, hkind, hpaid, hbuyer⟩ := paid_of_seen hseen
  have hone := payments_accounted hrun' s₂ (by simp) 0 r hr hkind
  exact ⟨s₂, by rw [← hbuyer, ← hone.1, hpaid]⟩

/-- The first scheduled payment leaves the running total at zero. -/
theorem scheduled_payment_unaccounted : ∃ balance tr s,
    Run (Restrict ActStep (OnCalls fun _ _ call => call.OfInstallments))
      (State.empty balance) tr s ∧
    ¬ PaymentsAccounted s := by
  obtain ⟨tr, s₁, s₂, hrun, hexec, hseen⟩ := watched
    (OnCalls fun _ _ call => call.OfInstallments) funds scheduleOffer (env [buyer] 2)
    (.makeScheduledPayment 0 0)
    (fun _ s => seenPaid 0 s && collectedFrom buyer 0 s.transfers = 500) (by decide)
    (by simp [scheduleOffer, OnCalls, Call.OfInstallments])
  simp only [Bool.and_eq_true, decide_eq_true_eq] at hseen
  obtain ⟨hpaid, hcollected⟩ := hseen
  obtain ⟨r, hr, hkind, hzero, hbuyer⟩ := paid_of_seen hpaid
  refine ⟨funds, _, s₂, hrun.next (k := ⟨env [buyer] 2, some (.makeScheduledPayment 0 0)⟩)
    ⟨.call hexec, by simp [OnCalls, Call.OfInstallments]⟩, ?_⟩
  intro haccounted
  have hone := (haccounted 0 r hr hkind).1
  rw [hzero, hbuyer, hcollected] at hone
  omega

end Sales

end AtomicIp.AtomicSwap
