import AtomicIp.Swap.Docket
import AtomicIp.Swap.Guards

set_option autoImplicit false

namespace AtomicIp.AtomicSwap

open Function

/-- Swaps sold in instalments ask for their price only. -/
def BareInstallments (c : Escrow) : Prop :=
  ∀ i r, c.swap i = some r → r.isInstallment = true → r.Bare

/-- Swaps with an arrangement for their payment ask for their price only. -/
structure Arranged (s : State) : Prop where
  wf : Wf s.escrow
  installments : BareInstallments s.escrow
  scheduled : ∀ i, (s.docket.paymentSchedule i).isSome →
    ∃ r, s.swap i = some r ∧ r.Bare ∧ r.isInstallment = true
  escrowed : ∀ i, s.docket.swapMode i = some .escrow →
    ∃ r, s.swap i = some r ∧ r.Bare ∧ r.isInstallment = false

section Steps

variable {env : Env} {c c' : Escrow} {m : Move} {s s' : State} {act : Act} {i : ℕ}
  {r r' : SwapRecord} {u : Unit}

theorem SwapRecord.Bare.of_terms (h : r.Bare) (hterms : r'.terms = r.terms) : r'.Bare := by
  have happrovals : r'.requiredApprovals = r.requiredApprovals :=
    congrArg Terms.requiredApprovals hterms
  have hcollateral : r'.collateralAmount = r.collateralAmount :=
    congrArg Terms.collateralAmount hterms
  have hpremium : r'.insurancePremium = r.insurancePremium :=
    congrArg Terms.insurancePremium hterms
  obtain ⟨h₁, h₂, h₃⟩ := h
  exact ⟨by omega, by omega, by omega⟩

theorem Step.installments (hstep : Step env c m c') (h : BareInstallments c) :
    BareInstallments c' := by
  intro i r' hr' hinstallment
  rcases hstep.origin hr' with ⟨r, hr, hterms⟩ | ⟨-, hfresh⟩ | ⟨_, _, _, -, -, -, hwon⟩
  · have hsame : r'.isInstallment = r.isInstallment := congrArg Terms.isInstallment hterms
    exact (h i r hr (hsame ▸ hinstallment)).of_terms hterms
  · exact hfresh.plain hinstallment
  · rw [hwon.plain] at hinstallment
    cases hinstallment

theorem ActStep.installments (hact : ActStep s act s') (h : BareInstallments s.escrow) :
    BareInstallments s'.escrow := by
  obtain ⟨q, hmoves⟩ := hact.answers
  exact hmoves.invariant (fun _ _ _ _ hc hstep => hstep.installments hc) h

theorem ActStep.bare {installments : Bool} (hact : ActStep s act s') (hwf : Wf s.escrow)
    (h : ∃ r, s.swap i = some r ∧ r.Bare ∧ r.isInstallment = installments) :
    ∃ r, s'.swap i = some r ∧ r.Bare ∧ r.isInstallment = installments := by
  obtain ⟨r, hr, hbare, hkind⟩ := h
  obtain ⟨r', hr', hterms, -⟩ := hact.keeps hwf hr
  have hsame : r'.isInstallment = r.isInstallment := congrArg Terms.isInstallment hterms
  exact ⟨r', hr', hbare.of_terms hterms, hsame.trans hkind⟩

theorem Arranged.kept (h : Arranged s) (hact : ActStep s act s')
    (hschedule : s'.docket.paymentSchedule = s.docket.paymentSchedule)
    (hmode : s'.docket.swapMode = s.docket.swapMode) : Arranged s' where
  wf := hact.wf h.wf
  installments := hact.installments h.installments
  scheduled i hi := hact.bare h.wf (h.scheduled i (hschedule ▸ hi))
  escrowed i hi := hact.bare h.wf (h.escrowed i (hmode ▸ hi))

theorem Arranged.schedules {schedule : List PaymentSchedule} (h : Arranged s)
    (hact : ActStep s act s') (hopens : OpensNext true s s')
    (hdocket : s'.docket = s.docket.withSchedule s.escrow.count schedule) : Arranged s' where
  wf := hact.wf h.wf
  installments := hact.installments h.installments
  scheduled i hi := by
    obtain ⟨r, hbare, hswap⟩ := hopens.swap
    by_cases hcount : i = s.escrow.count
    · exact ⟨r, by simp [hswap, hcount], hbare⟩
    · rw [hdocket] at hi
      exact hact.bare h.wf (h.scheduled i (by simpa [Docket.withSchedule, hcount] using hi))
  escrowed i hi := by
    rw [hdocket] at hi
    exact hact.bare h.wf (h.escrowed i hi)

theorem Arranged.opensInEscrow (h : Arranged s) (hact : ActStep s act s')
    (hopens : OpensInEscrow s s') : Arranged s' where
  wf := hact.wf h.wf
  installments := hact.installments h.installments
  scheduled i hi := by
    rw [hopens.docket] at hi
    exact hact.bare h.wf (h.scheduled i hi)
  escrowed i hi := by
    by_cases hnew : s.escrow.count ≤ i ∧ i < s'.escrow.count
    · exact hopens.opened i hnew.1 hnew.2
    · rw [hopens.docket] at hi
      exact hact.bare h.wf (h.escrowed i (by simpa [Docket.inEscrow, hnew] using hi))

theorem Arranged.step (h : Arranged s) (hact : ActStep s act s') : Arranged s' := by
  cases hact.filing with
  | same _ hdocket => exact h.kept hact (by rw [hdocket]) (by rw [hdocket])
  | approved _ _ _ _ _ _ hdocket => exact h.kept hact (by rw [hdocket]; rfl) (by rw [hdocket]; rfl)
  | signed _ _ _ _ _ _ _ hdocket => exact h.kept hact (by rw [hdocket]; rfl) (by rw [hdocket]; rfl)
  | withSigners _ _ _ _ _ _ _ _ hdocket =>
    exact h.kept hact (by rw [hdocket]; rfl) (by rw [hdocket]; rfl)
  | withSchedule _ _ _ _ _ _ hopens hdocket => exact h.schedules hact hopens hdocket
  | inEscrow _ _ _ hopens => exact h.opensInEscrow hact hopens

theorem Arranged.empty (balance : Address → Address → ℤ) : Arranged (State.empty balance) where
  wf := .empty balance
  installments _ _ hr := by cases hr
  scheduled _ hi := by cases hi
  escrowed _ hi := by cases hi

end Steps

section Calls

variable {env : Env} {s s' : State} {i j : ℕ} {r : SwapRecord} {u : Unit} {buyer : Address}
  {ids : List ℕ} {amount : ℤ}

theorem Arranged.bare_of_schedule (h : Arranged s) (hr : s.swap i = some r)
    (hi : (s.paymentSchedule i).isSome) : r.Bare := by
  obtain ⟨r₁, hr₁, hbare, -⟩ := h.scheduled i hi
  exact Option.some.inj (hr.symm.trans hr₁) ▸ hbare

theorem Arranged.bare_of_mode (h : Arranged s) (hr : s.swap i = some r)
    (hi : s.docket.swapMode i = some .escrow) : r.Bare := by
  obtain ⟨r₁, hr₁, hbare, -⟩ := h.escrowed i hi
  exact Option.some.inj (hr.symm.trans hr₁) ▸ hbare

/-- A swap in escrow mode is sold neither in instalments nor by a schedule. -/
theorem Arranged.single_of_mode (h : Arranged s) (hr : s.swap i = some r)
    (hi : s.docket.swapMode i = some .escrow) :
    r.isInstallment = false ∧ s.paymentSchedule i = none := by
  obtain ⟨r₁, hr₁, -, hkind⟩ := h.escrowed i hi
  obtain rfl := Option.some.inj (hr.symm.trans hr₁)
  refine ⟨hkind, ?_⟩
  cases hschedule : s.paymentSchedule i with
  | none => rfl
  | some schedule =>
    obtain ⟨r₂, hr₂, -, hkind₂⟩ := h.scheduled i (by simp [State.docket, hschedule])
    obtain rfl := Option.some.inj (hr.symm.trans hr₂)
    simp [hkind] at hkind₂

theorem makeScheduledPayment_bare (h : makeScheduledPayment env i j s = .ok (u, s'))
    (harranged : Arranged s) (hr : s.swap i = some r) : r.Bare := by
  obtain ⟨r₁, r', payment, hpays⟩ := makeScheduledPayment_pays h
  obtain ⟨schedule, hschedule, -⟩ := hpays.scheduled
  exact harranged.bare_of_schedule hr (by simp [hschedule])

theorem submitInstallmentPayment_bare (h : submitInstallmentPayment env i amount s = .ok (u, s'))
    (harranged : Arranged s) (hr : s.swap i = some r) : r.Bare := by
  obtain ⟨r₁, r', hpays⟩ := submitInstallmentPayment_pays h
  obtain rfl := Option.some.inj (hr.symm.trans hpays.stored)
  exact harranged.installments i r hr hpays.installment

theorem depositEscrow_mode (h : depositEscrow env i r s = .ok (u, s')) :
    s.docket.swapMode i = some .escrow := by
  obtain ⟨_, _, hmode, -⟩ := Tx.bind_ok.mp h
  exact (requireEscrowMode_ok.mp hmode).1

theorem escrowDeposit_mode (h : escrowDeposit env i s = .ok (u, s')) :
    s.docket.swapMode i = some .escrow := by
  obtain ⟨r₁, -, -, hdeposit⟩ := escrowDeposit_ok.mp h
  exact depositEscrow_mode hdeposit

theorem escrowDeposit_bare (h : escrowDeposit env i s = .ok (u, s')) (harranged : Arranged s)
    (hr : s.swap i = some r) : r.Bare := harranged.bare_of_mode hr (escrowDeposit_mode h)

theorem depositOwn_mode (h : depositOwn env buyer i s = .ok (u, s')) :
    s.docket.swapMode i = some .escrow := by
  obtain ⟨r₁, -, -, hdeposit⟩ := depositOwn_ok.mp h
  exact depositEscrow_mode hdeposit

theorem batchEscrowDeposit_modes (h : batchEscrowDeposit env ids buyer s = .ok (u, s')) :
    ∀ i ∈ ids, s.docket.swapMode i = some .escrow := by
  obtain ⟨-, _, hloop⟩ := batchEscrowDeposit_ok.mp h
  exact Tx.Keeps.forEach_checks State.docket
    (Q := fun j d => d.swapMode j = some .escrow) (fun _ _ _ _ => depositOwn_mode) hloop

theorem batchEscrowDeposit_bare (h : batchEscrowDeposit env ids buyer s = .ok (u, s'))
    (harranged : Arranged s) (hi : i ∈ ids) (hr : s.swap i = some r) : r.Bare :=
  harranged.bare_of_mode hr (batchEscrowDeposit_modes h i hi)

end Calls

end AtomicIp.AtomicSwap
