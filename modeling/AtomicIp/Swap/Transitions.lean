import AtomicIp.Swap.KeyForPayment

set_option autoImplicit false

namespace AtomicIp.AtomicSwap

open Function

inductive Transition : SwapStatus → SwapStatus → Prop where
  | accept : Transition .pending .accepted
  | drop : Transition .pending .cancelled
  | complete : Transition .accepted .completed
  | dispute : Transition .accepted .disputed
  | refund : Transition .accepted .cancelled
  | award : Transition .disputed .completed
  | concede : Transition .disputed .cancelled
  | rollBack : Transition .completed .rolledBack

/-- Tokens leave the contract on account of the swap `i`. -/
def PaysOut (s s' : State) (i : ℕ) : Prop :=
  ∃ x ∈ newTransfers s s', x.ref.swap? = some i ∧ x.src = currentContractAddress ∧
    x.dst ≠ currentContractAddress

def SwapStatus.WasAccepted : SwapStatus → Prop
  | .pending | .cancelled => False
  | _ => True

/-- The calls without a guard of their own on the status are made where one would let them
through. -/
def FollowsStatuses (s : State) (_env : Env) : Call → Prop
  | .arbitrateSwap i _ refund => ∀ r, s.swap i = some r →
      r.status = .accepted ∨ r.status = .disputed ∨ r.status = .completed ∧ refund = false
  | .adminRollbackSwap i _ _ => ∀ r, s.swap i = some r → r.status ≠ .rolledBack
  | .batchRollbackSwaps ids _ _ => ∀ i ∈ ids, ∀ r, s.swap i = some r → r.status ≠ .rolledBack
  | .makeScheduledPayment i index => ScheduleDone s i index →
      ∀ r, s.swap i = some r → r.status = .pending ∨ r.status = .accepted
  | _ => True

def AcceptedBefore (past : List State) (s : State) : Prop :=
  ∀ i r, s.swap i = some r → r.status.WasAccepted →
    ∃ s₀ ∈ past, ∃ r₀, s₀.swap i = some r₀ ∧ r₀.status = .accepted

section Step

variable {s s' : State} {act : Act} {i : ℕ} {r r' r₁ : SwapRecord} {c₁ : Escrow} {m : Move}
  {q : SwapStatus}

/-- An arbitration is of a funded swap, or pays a completed one again. -/
theorem arbitrated_from {refund : Bool} (hcond : OnCalls FollowsStatuses s act)
    (hcall : ∃ a, act.call = some (.arbitrateSwap i a refund)) (hr : s.swap i = some r) :
    r.status = .accepted ∨ r.status = .disputed ∨ r.status = .completed ∧ refund = false := by
  obtain ⟨a, hcall⟩ := hcall
  exact hcond _ hcall r hr

theorem Touches.transition (h : Touches s.escrow act i r m c₁ r₁)
    (hcond : OnCalls FollowsStatuses s act) (haims : m.aims = some q)
    (hst : r₁.status = r.status) :
    q = r.status ∨ Transition r.status q ∨ ∃ index, q = .accepted ∧
      act.call = some (.makeScheduledPayment i index) ∧ ¬ ScheduleDone s i index := by
  obtain ⟨call, hcall, hyields⟩ :=
    Act.yields_call h.yields (by rintro rfl; simp [Move.aims] at haims)
  have hguard := h.guard
  cases hguard with
  | accepted hfrom =>
    obtain rfl := Option.some.inj haims
    rw [hst] at hfrom
    rcases hfrom with hfrom | hfrom
    · exact .inr (.inl (hfrom ▸ .accept))
    · exact .inl hfrom.symm
  | installment last hfrom =>
    cases last <;> simp [Move.aims] at haims
    rw [← hst, hfrom, ← haims]
    exact .inr (.inl .accept)
  | scheduled last =>
    cases last <;> simp [Move.aims] at haims
    obtain ⟨index, rfl⟩ := Call.yields_source hyields
    by_cases hdone : ScheduleDone s i index
    · rcases hcond _ hcall hdone r h.before with hfrom | hfrom
      · rw [hfrom, ← haims]
        exact .inr (.inl .accept)
      · exact .inl (by rw [hfrom, haims])
    · exact .inr (.inr ⟨index, haims.symm, hcall, hdone⟩)
  | offered => simp [Move.aims] at haims
  | amended => simp [Move.aims] at haims
  | claimed => simp [Move.aims] at haims
  | disputed hfrom =>
    obtain rfl := Option.some.inj haims
    rw [← hst, hfrom]
    exact .inr (.inl .dispute)
  | cancelled hfrom =>
    obtain rfl := Option.some.inj haims
    rw [← hst, hfrom]
    exact .inr (.inl .drop)
  | released w hw =>
    obtain rfl := Option.some.inj haims
    rw [← hst]
    cases w with
    | key => exact .inr (.inl (hw.1 ▸ .complete))
    | batchKey =>
      rcases hw.1 with hfrom | hclosed
      · exact .inr (.inl (hfrom ▸ .complete))
      · exact .inl hclosed.1.symm
    | ruling => exact .inr (.inl (hw.1 ▸ .award))
    | batchArbitration =>
      have hfrom : r₁.status = .disputed := hw
      exact .inr (.inl (hfrom ▸ .award))
    | arbitration =>
      obtain ⟨a, rfl⟩ := Call.yields_source hyields
      rw [hst]
      rcases arbitrated_from hcond ⟨a, hcall⟩ h.before with hfrom | hfrom | ⟨hfrom, -⟩
      · exact .inr (.inl (hfrom ▸ .complete))
      · exact .inr (.inl (hfrom ▸ .award))
      · exact .inl hfrom.symm
    | _ => exact hw.elim
  | refunded w hw =>
    obtain rfl := Option.some.inj haims
    rw [← hst]
    cases w with
    | refusedKey => exact .inr (.inl (hw.1 ▸ .refund))
    | ruling => exact .inr (.inl (hw.1 ▸ .concede))
    | batchArbitration =>
      have hfrom : r₁.status = .disputed := hw
      exact .inr (.inl (hfrom ▸ .concede))
    | arbitration =>
      obtain ⟨a, rfl⟩ := Call.yields_source hyields
      rw [hst]
      rcases arbitrated_from hcond ⟨a, hcall⟩ h.before with hfrom | hfrom | ⟨-, hrefund⟩
      · exact .inr (.inl (hfrom ▸ .refund))
      · exact .inr (.inl (hfrom ▸ .concede))
      · simp at hrefund
    | expiry => exact .inr (.inl (hw.1 ▸ .refund))
    | timeout =>
      have hfrom : r₁.status = .disputed := hw
      exact .inr (.inl (hfrom ▸ .concede))
    | _ => exact hw.elim
  | withdrawn hfrom =>
    obtain rfl := Option.some.inj haims
    rw [← hst, hfrom]
    exact .inr (.inl .refund)
  | rolledBack hfrom =>
    obtain rfl := Option.some.inj haims
    rw [← hst, hfrom]
    exact .inr (.inl .rollBack)
  | adminRolledBack hfrom =>
    obtain rfl := Option.some.inj haims
    have hopen : r.status ≠ .rolledBack := by
      rcases Call.yields_source hyields with ⟨caller, reason, rfl⟩ |
        ⟨ids, caller, reason, hi, rfl⟩
      · exact hcond _ hcall r h.before
      · exact hcond _ hcall i hi r h.before
    rw [hst] at hfrom
    cases hstatus : r.status with
    | pending => exact .inr (.inl .drop)
    | accepted => exact .inr (.inl .refund)
    | disputed => exact .inr (.inl .concede)
    | cancelled => exact .inl rfl
    | completed => exact absurd hstatus hfrom
    | rolledBack => exact absurd hstatus hopen

theorem ActStep.transition (hact : ActStep s act s') (hwf : Wf s.escrow)
    (hcond : OnCalls FollowsStatuses s act) (hr : s.swap i = some r)
    (hr' : s'.swap i = some r') : r'.status = r.status ∨ Transition r.status r'.status := by
  obtain ⟨r₂, hr₂, -, hst⟩ := hact.keeps hwf hr
  obtain rfl := Option.some.inj (hr'.symm.trans hr₂)
  rcases hst with hst | ⟨m, c₁, r₁, htouches, haims, hst⟩
  · exact .inl hst
  · rcases htouches.transition hcond haims hst with hsame | hmoved | ⟨index, -, hcall, hopen⟩
    · exact .inl hsame
    · exact .inr hmoved
    · obtain ⟨env, call⟩ := act
      simp only at hcall
      subst hcall
      cases hact with
      | call hexec =>
        have hswap := makeScheduledPayment_open hexec hopen
        have hsame : s'.swap i = s.swap i := congrFun hswap i
        rw [hsame, hr] at hr'
        exact .inl (by rw [← Option.some.inj hr'])

theorem MovedTo.source (h : MovedTo s.escrow act i r q) (hcond : OnCalls FollowsStatuses s act)
    (hq : q.WasAccepted) : q = .accepted ∨ r.status.WasAccepted := by
  obtain ⟨m, c₁, r₁, htouches, haims, hst⟩ := h
  rcases htouches.transition hcond haims hst with hsame | hmoved | ⟨index, hq', -⟩
  · exact .inr (hsame ▸ hq)
  · cases hstatus : r.status with
    | pending =>
      rw [hstatus] at hmoved
      cases hmoved with
      | accept => exact .inl rfl
      | drop => exact hq.elim
    | cancelled =>
      rw [hstatus] at hmoved
      cases hmoved
    | _ => exact .inr trivial
  · exact .inl hq'

/-- Payouts are on account of a funded swap, or of one the call itself completed. -/
theorem Touches.paid_from {a : Address} (h : Touches s.escrow act i r m c₁ r₁)
    (hcond : OnCalls FollowsStatuses s act) (haims : m.aims = some q)
    (hst : StatusAlong s.escrow act (some q) i r r₁) (hpays : m.Pays r₁ a) :
    r.status = .accepted ∨ r.status = .disputed ∨ r.status = .completed := by
  obtain ⟨call, hcall, hyields⟩ :=
    Act.yields_call h.yields (by rintro rfl; simp [Move.aims] at haims)
  have hguard := h.guard
  cases hguard with
  | released w hw =>
    obtain rfl := Option.some.inj haims
    cases w with
    | key => exact .inl (by rw [← hst.same (by simp [hw.1]), hw.1])
    | batchKey =>
      rcases hw.1 with hfrom | hclosed
      · exact .inl (by rw [← hst.same (by simp [hfrom]), hfrom])
      · rcases hst with hst | ⟨-, m, c₂, r₂, htouches, haims₂, hst₂⟩
        · exact .inr (.inr (by rw [← hst, hclosed.1]))
        · rw [hclosed.1] at haims₂
          rcases htouches.transition hcond haims₂ hst₂ with hsame | hmoved | ⟨index, hq', -⟩
          · exact .inr (.inr hsame.symm)
          · generalize r.status = q₀ at hmoved
            cases hmoved with
            | complete => exact .inl rfl
            | award => exact .inr (.inl rfl)
          · simp at hq'
    | ruling => exact .inr (.inl (by rw [← hst.same (by simp [hw.1]), hw.1]))
    | batchArbitration =>
      have hfrom : r₁.status = .disputed := hw
      exact .inr (.inl (by rw [← hst.same (by simp [hfrom]), hfrom]))
    | arbitration =>
      obtain ⟨a, rfl⟩ := Call.yields_source hyields
      rcases arbitrated_from hcond ⟨a, hcall⟩ h.before with hfrom | hfrom | ⟨hfrom, -⟩
      · exact .inl hfrom
      · exact .inr (.inl hfrom)
      · exact .inr (.inr hfrom)
    | _ => exact hw.elim
  | refunded w hw =>
    obtain rfl := Option.some.inj haims
    cases w with
    | refusedKey => exact .inl (by rw [← hst.same (by simp [hw.1]), hw.1])
    | ruling => exact .inr (.inl (by rw [← hst.same (by simp [hw.1]), hw.1]))
    | batchArbitration =>
      have hfrom : r₁.status = .disputed := hw
      exact .inr (.inl (by rw [← hst.same (by simp [hfrom]), hfrom]))
    | arbitration =>
      obtain ⟨a, rfl⟩ := Call.yields_source hyields
      rcases arbitrated_from hcond ⟨a, hcall⟩ h.before with hfrom | hfrom | ⟨hfrom, -⟩
      · exact .inl hfrom
      · exact .inr (.inl hfrom)
      · exact .inr (.inr hfrom)
    | expiry => exact .inl (by rw [← hst.same (by simp [hw.1]), hw.1])
    | timeout =>
      have hfrom : r₁.status = .disputed := hw
      exact .inr (.inl (by rw [← hst.same (by simp [hfrom]), hfrom]))
    | _ => exact hw.elim
  | withdrawn hfrom =>
    obtain rfl := Option.some.inj haims
    exact .inl (by rw [← hst.same (by simp [hfrom]), hfrom])
  | rolledBack hfrom =>
    obtain rfl := Option.some.inj haims
    exact .inr (.inr (by rw [← hst.same (by simp [hfrom]), hfrom]))
  | adminRolledBack =>
    obtain rfl := Option.some.inj haims
    rcases hpays.2 with hfrom | hfrom
    · exact .inl (by rw [← hst.same (by simp [hfrom]), hfrom])
    · exact .inr (.inl (by rw [← hst.same (by simp [hfrom]), hfrom]))
  | claimed => simp [Move.aims] at haims
  | _ => exact hpays.elim

theorem ActStep.paid_from (hact : ActStep s act s') (hwf : Wf s.escrow)
    (hcond : OnCalls FollowsStatuses s act) (hpays : PaysOut s s' i) :
    ∃ r, s.swap i = some r ∧
      (r.status = .accepted ∨ r.status = .disputed ∨ r.status = .completed) := by
  obtain ⟨x, hx, href, hsrc, hdst⟩ := hpays
  cases hact.transfers hwf x hx with
  | funding _ _ _ _ hdst' => exact absurd hdst' hdst
  | bidding j href' => simp [href', Purpose.swap?] at href
  | payout j r m c₁ r₁ q h haims hst _ href' hpays =>
    obtain rfl := Option.some.inj (href.symm.trans href')
    exact ⟨r, h.before, h.paid_from hcond haims hst hpays⟩

theorem ActStep.acceptedBefore {past : List State} (hact : ActStep s act s') (hwf : Wf s.escrow)
    (hcond : OnCalls FollowsStatuses s act) (h : AcceptedBefore past s) :
    AcceptedBefore (s' :: past) s' := by
  intro i r' hr' hst'
  have hnew : r'.status = .accepted →
      ∃ s₀ ∈ s' :: past, ∃ r₀, s₀.swap i = some r₀ ∧ r₀.status = .accepted :=
    fun haccepted => ⟨s', by simp, r', hr', haccepted⟩
  cases hr : s.swap i with
  | none =>
    rcases hact.added hwf hr hr' with hpending | haccepted
    · simp [SwapStatus.WasAccepted, hpending] at hst'
    · exact hnew haccepted
  | some r =>
    obtain ⟨r₂, hr₂, -, hmoved⟩ := hact.keeps hwf hr
    obtain rfl := Option.some.inj (hr'.symm.trans hr₂)
    have hold : r.status.WasAccepted →
        ∃ s₀ ∈ s' :: past, ∃ r₀, s₀.swap i = some r₀ ∧ r₀.status = .accepted := by
      intro hwas
      obtain ⟨s₀, hs₀, hrest⟩ := h i r hr hwas
      exact ⟨s₀, by simp [hs₀], hrest⟩
    rcases hmoved with hsame | hmoved
    · exact hold (hsame ▸ hst')
    · rcases hmoved.source hcond hst' with haccepted | hwas
      · exact hnew haccepted
      · exact hold hwas

end Step

/-- The status law, over runs without the calls that break it. -/
theorem statuses_follow {balance : Address → Address → ℤ} {tr : List (Act × State)} {s : State}
    (hrun : Run (Restrict ActStep (OnCalls FollowsStatuses)) (State.empty balance) tr s) :
    ∀ past s₁ act s₂, (past, s₁, act, s₂) ∈ steps (State.empty balance) tr →
      (∀ i r r', s₁.swap i = some r → s₂.swap i = some r' → r'.status ≠ r.status →
        Transition r.status r'.status) ∧
      ∀ i, PaysOut s₁ s₂ i → ∃ r, s₁.swap i = some r ∧
        r.status ≠ .cancelled ∧ r.status ≠ .rolledBack ∧
        ∃ s₀ ∈ visited (State.empty balance) past,
          ∃ r₀, s₀.swap i = some r₀ ∧ r₀.status = .accepted := by
  refine (hrun.forall_steps (I := fun tr s => Wf s.escrow ∧
    AcceptedBefore (visited (State.empty balance) tr) s) ?_ ?_).2
  · refine ⟨.empty balance, ?_⟩
    intro i r hr
    cases (show none = some r from hr)
  · intro past s₁ act s₂ hI hact
    obtain ⟨hwf, hbefore⟩ := hI
    refine ⟨⟨hact.1.wf hwf, hact.1.acceptedBefore hwf hact.2 hbefore⟩, ?_, ?_⟩
    · intro i r r' hr hr' hne
      exact (hact.1.transition hwf hact.2 hr hr').resolve_left hne
    · intro i hpays
      obtain ⟨r, hr, hst⟩ := hact.1.paid_from hwf hact.2 hpays
      have hwas : r.status.WasAccepted := by
        rcases hst with hst | hst | hst <;> rw [hst] <;> trivial
      refine ⟨r, hr, ?_, ?_, hbefore i r hr hwas⟩ <;> rcases hst with hst | hst | hst <;> simp [hst]

section Runs

open Scenario

/-- One call takes the swap `i` from one status to another. -/
def seenMoving (i : ℕ) (q q' : SwapStatus) (s s' : State) : Bool :=
  ((s.swap i).any fun r => r.status = q) && (s'.swap i).any fun r => r.status = q'

theorem moves_of_seen {i : ℕ} {q q' : SwapStatus} {s s' : State}
    (h : seenMoving i q q' s s' = true) :
    ∃ r r', s.swap i = some r ∧ s'.swap i = some r' ∧ r.status = q ∧ r'.status = q' := by
  simp only [seenMoving, Bool.and_eq_true, Option.any_eq_true, decide_eq_true_eq] at h
  obtain ⟨⟨r, hr, hq⟩, r', hr', hq'⟩ := h
  exact ⟨r, r', hr, hr', hq, hq'⟩

theorem sale_follows : ∃ (tr : List (Act × State)) (s₁ s₂ : State) (r r' : SwapRecord),
    Run (Restrict ActStep (OnCalls FollowsStatuses)) (State.empty funds) tr s₂ ∧
    s₁.swap 0 = some r ∧ s₂.swap 0 = some r' ∧ Transition r.status r'.status := by
  obtain ⟨tr, s₁, s₂, hrun, hexec, hseen⟩ := watched (OnCalls FollowsStatuses) funds sale
    (env [seller] 3) (.revealKey 0 seller secret secret) (seenMoving 0 .accepted .completed)
    (by decide) (by simp [sale, offer, OnCalls, FollowsStatuses])
  obtain ⟨r, r', hr, hr', hq, hq'⟩ := moves_of_seen hseen
  have hrun' := hrun.next (k := ⟨env [seller] 3, some (.revealKey 0 seller secret secret)⟩)
    ⟨.call hexec, by simp [OnCalls, FollowsStatuses]⟩
  exact ⟨_, s₁, s₂, r, r', hrun', hr, hr', (statuses_follow hrun' _ _ _ _
    hrun.mem_steps_last).1 0 r r' hr hr' (by simp [hq, hq'])⟩

/-- Two sales: the first one is paid for, the second one only offered. -/
def sales : List (Env × Call) :=
  sale ++ [(env [seller] 2, Call.initiateSwap token 2 seller 1000 buyer 0 none 0 false)]

/-- Anybody may complete a swap nobody has accepted, out of the money of another one. -/
theorem pending_swap_completed : ∃ balance tr s past s₁ act s₂ i r r',
    Run (Restrict ActStep Always) (State.empty balance) tr s ∧
    (past, s₁, act, s₂) ∈ steps (State.empty balance) tr ∧ s₁.swap i = some r ∧
    s₂.swap i = some r' ∧ r'.status ≠ r.status ∧ ¬ Transition r.status r'.status := by
  obtain ⟨tr, s₁, s₂, hrun, hexec, hseen⟩ := watched Always funds sales (env [stranger] 3)
    (.arbitrateSwap 1 stranger false) (seenMoving 1 .pending .completed) (by decide)
    (by simp [Always])
  obtain ⟨r, r', hr, hr', hq, hq'⟩ := moves_of_seen hseen
  refine ⟨funds, _, s₂, tr, s₁, ⟨env [stranger] 3, some (.arbitrateSwap 1 stranger false)⟩, s₂, 1,
    r, r', hrun.next ⟨.call hexec, trivial⟩, hrun.mem_steps_last, hr, hr', by simp [hq, hq'], ?_⟩
  rw [hq, hq']
  intro h
  cases h

end Runs

end AtomicIp.AtomicSwap
