import AtomicIp.Swap.Approvals

/-!
The reputation a seller asks for. `accept_swap` is the one acceptance that looks at it.
-/

set_option autoImplicit false

namespace AtomicIp.AtomicSwap

/-- The buyer's reputation is at least the one stored for the swap. -/
def Reputable (s : State) (i : ℕ) (r : SwapRecord) : Prop :=
  ∀ m, s.reputationMultiplier i = some m → m ≤ (s.userReputation r.buyer).getD 50

def AllReputable (s : State) (ids : List ℕ) : Prop :=
  ∀ i ∈ ids, ∀ r, s.swap i = some r → r.status ≠ .accepted → Reputable s i r

def InstallmentDone (s : State) (i : ℕ) (amount : ℤ) : Prop :=
  ∃ r, s.swap i = some r ∧ r.price ≤ saturatingI128 (r.paidAmount + amount)

/-- The other acceptances are of swaps with a reputable buyer. -/
def MeetsReputation (s : State) (_env : Env) : Call → Prop
  | .acceptSwapConditional i _ | .acceptSwapPartial i _ | .escrowDeposit i => AllReputable s [i]
  | .batchAcceptSwaps ids _ | .batchEscrowDeposit ids _ => AllReputable s ids
  | .makeScheduledPayment i index => ScheduleDone s i index → AllReputable s [i]
  | .submitInstallmentPayment i amount => InstallmentDone s i amount → AllReputable s [i]
  | _ => True

section Calls

variable {env : Env} {s s' : State} {i : ℕ} {r r' : SwapRecord} {u : Unit}

theorem acceptSwap_reputable (h : acceptSwap env i s = .ok (u, s')) (hr : s.swap i = some r) :
    Reputable s i r := by
  obtain ⟨-, r₁, hr₁, -, -, -, -, hreputation, -⟩ := acceptSwap_checks h
  obtain rfl := Option.some.inj (hr.symm.trans hr₁)
  intro m hm
  simpa [hm] using hreputation

theorem submitInstallmentPayment_done {amount : ℤ}
    (h : submitInstallmentPayment env i amount s = .ok (u, s')) (hr' : s'.swap i = some r')
    (hto : r'.status = .accepted) : InstallmentDone s i amount := by
  obtain ⟨r, r₁, hpays⟩ := submitInstallmentPayment_pays h
  refine ⟨r, hpays.stored, ?_⟩
  by_contra hopen
  obtain rfl : r₁ = r' := by simpa [hpays.escrow, Escrow.setSwap, Escrow.pay] using hr'
  rw [hpays.open_ hopen] at hto
  exact absurd (hpays.pending.symm.trans hto) (by simp)

theorem makeScheduledPayment_done {index : ℕ}
    (h : makeScheduledPayment env i index s = .ok (u, s')) (hr : s.swap i = some r)
    (hr' : s'.swap i = some r') (hne : r'.status ≠ r.status) : ScheduleDone s i index := by
  by_contra hopen
  have hswap : s'.swap i = s.swap i := congrFun (makeScheduledPayment_open h hopen) i
  rw [hswap, hr] at hr'
  exact hne (by rw [← Option.some.inj hr'])

theorem exec_reputable {call : Call} (h : exec env call s = .ok (u, s'))
    (hcond : MeetsReputation s env call) (haccepts : call.Accepts i) (hr : s.swap i = some r)
    (hr' : s'.swap i = some r') (hfrom : r.status ≠ .accepted) (hto : r'.status = .accepted) :
    Reputable s i r := by
  cases call with
  | acceptSwap j =>
    obtain rfl : j = i := haccepts
    exact acceptSwap_reputable h hr
  | acceptSwapConditional j | acceptSwapPartial j | escrowDeposit j =>
    obtain rfl : j = i := haccepts
    exact hcond j (by simp) r hr hfrom
  | batchAcceptSwaps ids | batchEscrowDeposit ids => exact hcond i haccepts r hr hfrom
  | makeScheduledPayment j index =>
    obtain rfl : j = i := haccepts
    have hdone := makeScheduledPayment_done h hr hr' (by rw [hto]; exact hfrom.symm)
    exact hcond hdone j (by simp) r hr hfrom
  | submitInstallmentPayment j amount =>
    obtain rfl : j = i := haccepts
    exact hcond (submitInstallmentPayment_done h hr' hto) j (by simp) r hr hfrom
  | _ => exact haccepts.elim

theorem ActStep.reputable {act : Act} (hact : ActStep s act s') (hwf : Wf s.escrow)
    (hcond : OnCalls MeetsReputation s act) (hr : s.swap i = some r) (hr' : s'.swap i = some r')
    (hfrom : r.status ≠ .accepted) (hto : r'.status = .accepted) : Reputable s i r := by
  obtain ⟨r₁, hr₁, -, hmoved⟩ := hact.keeps hwf hr
  obtain rfl := Option.some.inj (hr'.symm.trans hr₁)
  rcases hmoved with hsame | ⟨m, c₁, r₁, htouches, haims, -⟩
  · exact absurd (hsame ▸ hto) hfrom
  · rw [hto] at haims
    cases hact with
    | elsewhere => cases htouches.yields; simp [Move.aims] at haims
    | @call _ env call hexec =>
      exact exec_reputable hexec (hcond call rfl) (htouches.accepting haims rfl) hr hr' hfrom hto

end Calls

/-- In runs whose other acceptances are of swaps with a reputable buyer, no swap is accepted by
a buyer below the reputation stored for it. -/
theorem reputable_when_accepted {balance : Address → Address → ℤ} {tr : List (Act × State)}
    {s : State}
    (hrun : Run (Restrict ActStep (OnCalls MeetsReputation)) (State.empty balance) tr s) :
    ∀ past s₁ act s₂, (past, s₁, act, s₂) ∈ steps (State.empty balance) tr →
      ∀ i r r' m, s₁.swap i = some r → s₂.swap i = some r' → r.status ≠ .accepted →
        r'.status = .accepted → s₁.reputationMultiplier i = some m →
        m ≤ (s₁.userReputation r.buyer).getD 50 := by
  refine (hrun.forall_steps (I := fun _ s => Wf s.escrow) (.empty balance) ?_).2
  intro past s₁ act s₂ hwf hact
  refine ⟨hact.1.wf hwf, ?_⟩
  intro i r r' m hr hr' hfrom hto hm
  exact hact.1.reputable hwf hact.2 hr hr' hfrom hto m hm

section Sales

open Scenario

/-- The swap `i` becomes accepted while the seller asks for the reputation `m`. -/
def seenAcceptingAt (i m : ℕ) (s s' : State) : Bool :=
  ((s.swap i).any fun r => r.status = .pending ∧ r.buyer = buyer) &&
    ((s'.swap i).any fun r => r.status = .accepted) && s.reputationMultiplier i = some m

theorem accepting_at_of_seen {i m : ℕ} {s s' : State} (h : seenAcceptingAt i m s s' = true) :
    ∃ r r', s.swap i = some r ∧ s'.swap i = some r' ∧ r.buyer = buyer ∧ r.status ≠ .accepted ∧
      r'.status = .accepted ∧ s.reputationMultiplier i = some m := by
  simp only [seenAcceptingAt, Bool.and_eq_true, Option.any_eq_true, decide_eq_true_eq] at h
  obtain ⟨⟨⟨r, hr, hfrom, hbuyer⟩, r', hr', hto⟩, hm⟩ := h
  exact ⟨r, r', hr, hr', hbuyer, by simp [hfrom], hto, hm⟩

def guardedOffer (m : ℕ) : List (Env × Call) :=
  offer ++ [(env [seller] 1, Call.setReputationMultiplier 0 m)]

theorem reputable_buyer_accepts : ∃ (s₁ s₂ : State) (r r' : SwapRecord), s₁.swap 0 = some r ∧
    s₂.swap 0 = some r' ∧ r'.status = .accepted ∧ s₁.reputationMultiplier 0 = some 40 ∧
    40 ≤ (s₁.userReputation r.buyer).getD 50 := by
  obtain ⟨tr, s, past, s₁, act, s₂, hrun, hmem, hseen⟩ := seenInTrace (OnCalls MeetsReputation)
    funds (guardedOffer 40 ++ [(env [buyer] 2, Call.acceptSwap 0)])
    (fun _ s₁ _ s₂ => seenAcceptingAt 0 40 s₁ s₂) (by decide)
    (by simp [guardedOffer, offer, OnCalls, MeetsReputation])
  obtain ⟨r, r', hr, hr', -, hfrom, hto, hm⟩ := accepting_at_of_seen hseen
  exact ⟨s₁, s₂, r, r', hr, hr', hto, hm,
    reputable_when_accepted hrun past s₁ act s₂ hmem 0 r r' 40 hr hr' hfrom hto hm⟩

/-- A buyer nobody knows accepts a swap for buyers of reputation 90, on no conditions. -/
theorem unknown_buyer_accepts : ∃ balance tr s past s₁ act s₂ i r r' m,
    Run ActStep (State.empty balance) tr s ∧
    (past, s₁, act, s₂) ∈ steps (State.empty balance) tr ∧ s₁.swap i = some r ∧
    s₂.swap i = some r' ∧ r.status ≠ .accepted ∧ r'.status = .accepted ∧
    s₁.reputationMultiplier i = some m ∧ ¬ m ≤ (s₁.userReputation r.buyer).getD 50 := by
  obtain ⟨tr, s, past, s₁, act, s₂, hrun, hmem, hseen⟩ := seenInTrace Always funds
    (guardedOffer 90 ++ [(env [buyer] 2, Call.acceptSwapConditional 0 [])])
    (fun _ s₁ _ s₂ => seenAcceptingAt 0 90 s₁ s₂ && s₁.userReputation buyer = none) (by decide)
    (by simp [Always])
  simp only [Bool.and_eq_true, decide_eq_true_eq] at hseen
  obtain ⟨haccepting, hunknown⟩ := hseen
  obtain ⟨r, r', hr, hr', hbuyer, hfrom, hto, hm⟩ := accepting_at_of_seen haccepting
  exact ⟨funds, tr, s, past, s₁, act, s₂, 0, r, r', 90, hrun.mono fun _ _ _ h => h.1, hmem, hr,
    hr', hfrom, hto, hm, by simp [hbuyer, hunknown]⟩

end Sales

end AtomicIp.AtomicSwap
