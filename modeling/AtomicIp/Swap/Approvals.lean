import AtomicIp.Swap.Arrangements
import AtomicIp.Swap.Transitions

/-!
The approvals a sale may need before its buyer accepts it. `accept_swap_partial` is the one
acceptance that never counts them.
-/

set_option autoImplicit false

namespace AtomicIp.AtomicSwap

open Function

def ApprovedBy (i : ℕ) (a : Address) : State → Act → State → Prop :=
  fun s act _ => act.call = some (.approveSwap i a) ∧ a ∈ act.env.auths ∧
    ∃ r, s.swap i = some r ∧ r.status = .pending

def EnoughApprovals (s : State) (i : ℕ) (r : SwapRecord) : Prop :=
  r.requiredApprovals ≤ ((s.swapApprovals i).getD []).length

/-- A part of a swap is accepted only when the whole swap could be. -/
def KeepsApprovals (s : State) (_env : Env) : Call → Prop
  | .acceptSwapPartial i _ => ∀ r, s.swap i = some r → EnoughApprovals s i r
  | _ => True

/-- The stored approvals, and the calls that they stand for. -/
structure Approvals (s₀ : State) (past : List (Act × State)) (s : State) : Prop where
  arranged : Arranged s
  here : now s₀ past = s
  distinct : ∀ i, ((s.docket.swapApprovals i).getD []).Nodup
  happened : ∀ i, ∀ a ∈ (s.docket.swapApprovals i).getD [], Happened (ApprovedBy i a) s₀ past

section Steps

variable {s₀ s s' : State} {past : List (Act × State)} {act : Act} {i : ℕ} {a : Address}

theorem Approvals.kept (h : Approvals s₀ past s) (hact : ActStep s act s')
    (hsame : s'.docket.swapApprovals = s.docket.swapApprovals) :
    Approvals s₀ ((act, s') :: past) s' where
  arranged := h.arranged.step hact
  here := rfl
  distinct i := by
    rw [hsame]
    exact h.distinct i
  happened i a ha := by
    rw [hsame] at ha
    exact happened_cons.mpr (.inr (h.happened i a ha))

theorem Approvals.approved (h : Approvals s₀ past s) (hact : ActStep s act s')
    (happroved : ApprovedBy i a s act s') (hnew : a ∉ (s.docket.swapApprovals i).getD [])
    (hdocket : s'.docket = s.docket.approved i a) : Approvals s₀ ((act, s') :: past) s' := by
  have hsame : ∀ j, j ≠ i → s'.docket.swapApprovals j = s.docket.swapApprovals j := by
    intro j hj
    rw [hdocket]
    exact update_of_ne hj _ _
  have hgrown : (s'.docket.swapApprovals i).getD [] =
      (s.docket.swapApprovals i).getD [] ++ [a] := by
    rw [hdocket]
    simp [Docket.approved]
  refine ⟨h.arranged.step hact, rfl, ?_, ?_⟩
  · intro j
    by_cases hj : j = i
    · rw [hj, hgrown]
      have hapart : ∀ b ∈ (s.docket.swapApprovals i).getD [], b ≠ a := fun b hb e => hnew (e ▸ hb)
      simpa [List.nodup_append] using ⟨h.distinct i, hapart⟩
    · rw [hsame j hj]
      exact h.distinct j
  · intro j b hb
    rw [happened_cons]
    by_cases hj : j = i
    · subst hj
      rw [hgrown] at hb
      rcases List.mem_append.mp hb with hb | hb
      · exact .inr (h.happened j b hb)
      · obtain rfl := List.mem_singleton.mp hb
        rw [h.here]
        exact .inl happroved
    · rw [hsame j hj] at hb
      exact .inr (h.happened j b hb)

theorem Approvals.step (h : Approvals s₀ past s) (hact : ActStep s act s') :
    Approvals s₀ ((act, s') :: past) s' := by
  cases hact.filing with
  | same _ hdocket => exact h.kept hact (by rw [hdocket])
  | approved i a hcall hauth hpending hnew hdocket =>
    exact h.approved hact ⟨hcall, hauth, hpending⟩ hnew hdocket
  | signed _ _ _ _ _ _ _ hdocket => exact h.kept hact (by rw [hdocket]; rfl)
  | withSigners _ _ _ _ _ _ _ _ hdocket => exact h.kept hact (by rw [hdocket]; rfl)
  | withSchedule _ _ _ _ _ _ _ hdocket => exact h.kept hact (by rw [hdocket]; rfl)
  | inEscrow _ _ _ hopens => exact h.kept hact (by rw [hopens.docket]; rfl)

end Steps

section Calls

variable {env : Env} {s s' : State} {i : ℕ} {r : SwapRecord} {u : Unit}

theorem acceptSwap_approved (h : acceptSwap env i s = .ok (u, s')) (hr : s.swap i = some r) :
    EnoughApprovals s i r := by
  obtain ⟨-, r₁, hr₁, -, -, happrovals, -⟩ := acceptSwap_checks h
  obtain rfl := Option.some.inj (hr.symm.trans hr₁)
  unfold EnoughApprovals
  omega

theorem acceptSwapConditional_approved {conditions : List SwapCondition}
    (h : acceptSwapConditional env i conditions s = .ok (u, s')) (hr : s.swap i = some r) :
    EnoughApprovals s i r := by
  obtain ⟨r₁, hr₁, -, -, happrovals, -⟩ := acceptSwapConditional_escrow h
  obtain rfl := Option.some.inj (hr.symm.trans hr₁)
  unfold EnoughApprovals
  omega

theorem validateAcceptance_approved {buyer : Address}
    (h : validateAcceptance buyer i s = .ok (u, s')) :
    s' = s ∧ ∀ r, s.swap i = some r → EnoughApprovals s i r := by
  simp [validateAcceptance] at h
  obtain ⟨r, hr, -, ⟨-, rfl⟩, happrovals⟩ := h
  refine ⟨rfl, ?_⟩
  intro r₁ hr₁
  obtain rfl := Option.some.inj (hr.symm.trans hr₁)
  unfold EnoughApprovals
  omega

theorem batchAcceptSwaps_approved {ids : List ℕ} {buyer : Address}
    (h : batchAcceptSwaps env ids buyer s = .ok (u, s')) (hi : i ∈ ids) (hr : s.swap i = some r) :
    EnoughApprovals s i r := by
  simp [batchAcceptSwaps] at h
  obtain ⟨-, -, -, -, _, s₁, hchecks, -⟩ := h
  obtain ⟨-, hall⟩ := Tx.forEach_checks
    (fun _ _ _ _ _ hcheck => validateAcceptance_approved hcheck) hchecks
  exact hall i hi r hr

theorem SwapRecord.Bare.approved (h : r.Bare) : EnoughApprovals s i r := by
  have hnone : r.requiredApprovals = 0 := h.1
  unfold EnoughApprovals
  omega

/-- A call that accepts a swap counted its approvals, or there are none to count. -/
theorem exec_approved {call : Call} (h : exec env call s = .ok (u, s')) (harranged : Arranged s)
    (hcond : KeepsApprovals s env call) (haccepts : call.Accepts i) (hr : s.swap i = some r) :
    EnoughApprovals s i r := by
  cases call with
  | acceptSwap j =>
    obtain rfl : j = i := haccepts
    exact acceptSwap_approved h hr
  | acceptSwapConditional j =>
    obtain rfl : j = i := haccepts
    exact acceptSwapConditional_approved h hr
  | acceptSwapPartial j =>
    obtain rfl : j = i := haccepts
    exact hcond r hr
  | batchAcceptSwaps ids => exact batchAcceptSwaps_approved h haccepts hr
  | escrowDeposit j =>
    obtain rfl : j = i := haccepts
    exact (escrowDeposit_bare h harranged hr).approved
  | batchEscrowDeposit ids => exact (batchEscrowDeposit_bare h harranged haccepts hr).approved
  | makeScheduledPayment j =>
    obtain rfl : j = i := haccepts
    exact (makeScheduledPayment_bare h harranged hr).approved
  | submitInstallmentPayment j =>
    obtain rfl : j = i := haccepts
    exact (submitInstallmentPayment_bare h harranged hr).approved
  | _ => exact haccepts.elim

end Calls

section Run

variable {s₀ s s' : State} {past : List (Act × State)} {act : Act} {i : ℕ} {r r' : SwapRecord}

/-- Whatever moves a swap to `Accepted`, a call that may accept it made the move. -/
theorem Touches.accepting {c c₁ : Escrow} {r₁ : SwapRecord} {m : Move} {call : Call}
    (h : Touches c act i r m c₁ r₁) (haims : m.aims = some .accepted)
    (hcall : act.call = some call) : call.Accepts i := by
  have hyields : call.yields m := by simpa [Act.yields, hcall] using h.yields
  have hguard := h.guard
  cases hguard with
  | accepted => exact Call.yields_source hyields
  | installment =>
    obtain ⟨amount, rfl⟩ := Call.yields_source hyields
    exact rfl
  | scheduled =>
    obtain ⟨index, rfl⟩ := Call.yields_source hyields
    exact rfl
  | _ => simp [Move.aims] at haims

theorem Approvals.enough (h : Approvals s₀ past s) (hact : ActStep s act s')
    (hcond : OnCalls KeepsApprovals s act) (hr : s.swap i = some r) (hr' : s'.swap i = some r')
    (hfrom : r.status = .pending) (hto : r'.status = .accepted) : EnoughApprovals s i r := by
  obtain ⟨r₁, hr₁, -, hmoved⟩ := hact.keeps h.arranged.wf hr
  obtain rfl := Option.some.inj (hr'.symm.trans hr₁)
  rcases hmoved with hsame | ⟨m, c₁, r₁, htouches, haims, -⟩
  · rw [hsame, hfrom] at hto
    cases hto
  · rw [hto] at haims
    cases hact with
    | elsewhere => cases htouches.yields; simp [Move.aims] at haims
    | @call _ env call hexec =>
      exact exec_approved hexec h.arranged (hcond call rfl) (htouches.accepting haims rfl) hr

theorem Approvals.empty (balance : Address → Address → ℤ) :
    Approvals (State.empty balance) [] (State.empty balance) where
  arranged := .empty balance
  here := rfl
  distinct _ := .nil
  happened _ _ ha := by cases ha

/-- In runs that accept a part only where the whole could be accepted, as many addresses as
required have approved a swap before it is accepted. -/
theorem approved_before_acceptance {balance : Address → Address → ℤ} {tr : List (Act × State)}
    (hrun : Run (Restrict ActStep (OnCalls KeepsApprovals)) (State.empty balance) tr s) :
    ∀ past s₁ act s₂, (past, s₁, act, s₂) ∈ steps (State.empty balance) tr →
      ∀ i r r', s₁.swap i = some r → s₂.swap i = some r' →
        r.status = .pending → r'.status = .accepted →
        ∃ approvers : List Address, approvers.Nodup ∧ r.requiredApprovals ≤ approvers.length ∧
          ∀ a ∈ approvers, Happened (ApprovedBy i a) (State.empty balance) past := by
  refine (hrun.forall_steps (I := Approvals (State.empty balance)) (.empty balance) ?_).2
  intro past s₁ act s₂ hI hact
  refine ⟨hI.step hact.1, ?_⟩
  intro i r r' hr hr' hfrom hto
  exact ⟨(s₁.swapApprovals i).getD [], hI.distinct i, hI.enough hact.1 hact.2 hr hr' hfrom hto,
    hI.happened i⟩

end Run

section Sales

open Scenario

/-- The swap `i` leaves `Pending` for `Accepted` and needs `k` approvals. -/
def seenAccepting (i k : ℕ) (s s' : State) : Bool :=
  ((s.swap i).any fun r => r.status = .pending ∧ r.requiredApprovals = k) &&
    (s'.swap i).any fun r => r.status = .accepted

theorem accepting_of_seen {i k : ℕ} {s s' : State} (h : seenAccepting i k s s' = true) :
    ∃ r r', s.swap i = some r ∧ s'.swap i = some r' ∧ r.status = .pending ∧
      r'.status = .accepted ∧ r.requiredApprovals = k := by
  simp only [seenAccepting, Bool.and_eq_true, Option.any_eq_true, decide_eq_true_eq] at h
  obtain ⟨⟨r, hr, hfrom, hk⟩, r', hr', hto⟩ := h
  exact ⟨r, r', hr, hr', hfrom, hto, hk⟩

def seenUnapproved (_ : State) (act : Act) (_ : State) : Bool :=
  match act.call with
  | some (.approveSwap ..) => false
  | _ => true

theorem unapproved_of_seen {i : ℕ} {a : Address} (s : State) (act : Act) (s' : State)
    (h : seenUnapproved s act s' = true) : ¬ ApprovedBy i a s act s' := by
  intro happroved
  simp [seenUnapproved, happroved.1] at h

def vettedOffer : List (Env × Call) :=
  [(env [] 0, .initializeContract registry),
    (env [seller] 1, .initiateSwap token 1 seller 1000 buyer 1 none 0 false)]

def twiceVettedOffer : List (Env × Call) :=
  [(env [] 0, .initializeContract registry),
    (env [seller] 1, .initiateSwap token 1 seller 1000 buyer 2 none 0 false),
    (env [seller] 2, .initiateSwap token 2 seller 1000 buyer 0 none 0 false),
    (env [stranger] 3, .approveSwap 0 stranger), (env [buyer] 4, .acceptSwap 1),
    (env [.account 9] 5, .approveSwap 0 (.account 9))]

theorem vetted_sale_approved : ∃ (past : List (Act × State)) (s₁ s₂ : State) (r r' : SwapRecord),
    s₁.swap 0 = some r ∧ s₂.swap 0 = some r' ∧ r.status = .pending ∧ r'.status = .accepted ∧
    r.requiredApprovals = 2 ∧
    ∃ approvers : List Address, approvers.Nodup ∧ r.requiredApprovals ≤ approvers.length ∧
      ∀ a ∈ approvers, Happened (ApprovedBy 0 a) (State.empty funds) past := by
  obtain ⟨tr, s, past, s₁, act, s₂, hrun, hmem, hseen⟩ := seenInTrace (OnCalls KeepsApprovals)
    funds (twiceVettedOffer ++ [(env [buyer] 6, Call.acceptSwap 0)])
    (fun _ s₁ _ s₂ => seenAccepting 0 2 s₁ s₂) (by decide)
    (by simp [twiceVettedOffer, OnCalls, KeepsApprovals])
  obtain ⟨r, r', hr, hr', hfrom, hto, hk⟩ := accepting_of_seen hseen
  exact ⟨past, s₁, s₂, r, r', hr, hr', hfrom, hto, hk,
    approved_before_acceptance hrun past s₁ act s₂ hmem 0 r r' hr hr' hfrom hto⟩

/-- The buyer accepts the whole as a part of itself, and nobody has approved anything. -/
theorem accepted_without_approval : ∃ balance tr s past s₁ act s₂ i r r',
    Run ActStep (State.empty balance) tr s ∧
    (past, s₁, act, s₂) ∈ steps (State.empty balance) tr ∧
    s₁.swap i = some r ∧ s₂.swap i = some r' ∧ r.status = .pending ∧ r'.status = .accepted ∧
    ¬ ∃ approvers : List Address, approvers.Nodup ∧ r.requiredApprovals ≤ approvers.length ∧
      ∀ a ∈ approvers, Happened (ApprovedBy i a) (State.empty balance) past := by
  obtain ⟨tr, s, past, s₁, act, s₂, hrun, hmem, hseen⟩ := seenInTrace Always funds
    (vettedOffer ++ [(env [buyer] 2, Call.acceptSwapPartial 0 1)])
    (fun past s₁ _ s₂ => seenAccepting 0 1 s₁ s₂ &&
      (steps (State.empty funds) past).all fun p => seenUnapproved p.2.1 p.2.2.1 p.2.2.2)
    (by decide) (by simp [Always])
  obtain ⟨haccepting, hunapproved⟩ := (Bool.and_eq_true _ _).mp hseen
  obtain ⟨r, r', hr, hr', hfrom, hto, hk⟩ := accepting_of_seen haccepting
  refine ⟨funds, tr, s, past, s₁, act, s₂, 0, r, r', hrun.mono fun _ _ _ h => h.1, hmem, hr, hr',
    hfrom, hto, ?_⟩
  intro hall
  obtain ⟨approvers, -, hlength, happroved⟩ := hall
  cases approvers with
  | nil =>
    rw [hk] at hlength
    simp at hlength
  | cons a rest =>
    exact not_happened_of_seen unapproved_of_seen hunapproved (happroved a (by simp))

end Sales

end AtomicIp.AtomicSwap
