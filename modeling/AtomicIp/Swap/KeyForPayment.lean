import AtomicIp.Swap.Guards

/-!
Payment against a key: which calls pay the price of a swap to its seller, and on whose
word. Single and batch arbitration do so on the word of anybody.
-/

set_option autoImplicit false

namespace AtomicIp.AtomicSwap

open Function

/-- A key the registry accepts for the IP, or the admin's ruling on a disputed swap. -/
def PaymentWarranted (s : State) (act : Act) (i : ℕ) (r : SwapRecord) : Prop :=
  (∃ call k, act.call = some call ∧ call.Presents k ∧
    KeyCheck act.env s.ipRegistry r.ipId k.secret k.blindingFactor true) ∨
  (∃ caller, act.call = some (.resolveDispute i caller false) ∧
    (∃ admin ∈ act.env.auths, s.admin = some admin) ∧
    ∃ r₀, s.swap i = some r₀ ∧ r₀.status = .disputed)

/-- A part of the price of the swap `i` goes out of the contract to `a`. -/
def PaysPrice (s s' : State) (i : ℕ) (a : Address) : Prop :=
  ∃ x ∈ newTransfers s s', x.ref = .price i ∧ x.src = currentContractAddress ∧ x.dst = a

/-- No arbitration decides for a seller who is not the buyer, and no rollback sends its
penalty to a seller who is the treasury. -/
def SparesSellers (s : State) (_env : Env) : Call → Prop
  | .arbitrateSwap i _ refund =>
      refund = true ∨ ∀ r, s.swap i = some r → r.seller = r.buyer
  | .batchArbitrateSwaps ids _ refund =>
      refund = true ∨ ∀ i ∈ ids, ∀ r, s.swap i = some r → r.seller = r.buyer
  | .validateAndRollbackSwap i valid =>
      valid = true ∨ ∀ r, s.swap i = some r →
        r.seller = r.buyer ∨ r.seller ≠ protocolConfig.treasury
  | _ => True

section Step

variable {s s' : State} {act : Act} {i : ℕ} {r : SwapRecord}

theorem Touches.warranted {c₁ : Escrow} {r₁ : SwapRecord} {w : Warrant}
    (h : Touches s.escrow act i r (.released i w) c₁ r₁)
    (hstatus : StatusAlong s.escrow act (some .completed) i r r₁)
    (hcond : OnCalls SparesSellers s act)
    (hne : r.seller ≠ r.buyer) : PaymentWarranted s act i r := by
  obtain ⟨call, hcall, hyields⟩ := Act.yields_call h.yields (by simp)
  have hip : r₁.ipId = r.ipId := congrArg Terms.ipId h.terms
  have hguard := h.guard
  cases hguard with
  | released _ hw =>
    rcases Call.yields_released hyields with ⟨k, rfl | rfl, hk⟩ | ⟨rfl, caller, rfl⟩ |
      ⟨rfl, a, rfl⟩ | ⟨rfl, ids, a, hi, rfl⟩
    · refine .inl ⟨call, k, hcall, hk, ?_⟩
      have hkey := hw.2.2
      rwa [h.ipRegistry, hip] at hkey
    · refine .inl ⟨call, k, hcall, hk, ?_⟩
      have hkey := hw.2.2
      rwa [h.ipRegistry, hip] at hkey
    · obtain ⟨hst, admin, hauth, hadmin⟩ := hw
      refine .inr ⟨caller, hcall, ⟨admin, hauth, h.admin.symm.trans hadmin⟩, r, h.before, ?_⟩
      rw [← hstatus.same (by simp [hst]), hst]
    · rcases hcond _ hcall with hrefund | hsame
      · simp at hrefund
      · exact absurd (hsame r h.before) hne
    · rcases hcond _ hcall with hrefund | hsame
      · simp at hrefund
      · exact absurd (hsame i hi r h.before) hne

theorem ActStep.warranted (hact : ActStep s act s') (hwf : Wf s.escrow)
    (hcond : OnCalls SparesSellers s act) (hr : s'.swap i = some r) (hne : r.seller ≠ r.buyer)
    (hpays : PaysPrice s s' i r.seller) : PaymentWarranted s act i r := by
  obtain ⟨x, hx, href, hsrc, hdst⟩ := hpays
  cases hact.transfers hwf x hx with
  | funding j r' hr' hsrc' hdst' href' =>
    rw [href] at href'
    obtain rfl := Option.some.inj href'
    obtain rfl := Option.some.inj (hr.symm.trans hr')
    exact absurd ((hdst.symm.trans hdst').trans (hsrc.symm.trans hsrc')) hne
  | bidding j href' => simp [href] at href'
  | payout j r₀ m c₁ r₁ q h haims hstatus hsrc' href' hdst' =>
    rw [href] at href'
    obtain rfl := Option.some.inj href'
    obtain ⟨r', hr', hterms', -⟩ := hact.keeps hwf h.before
    obtain rfl := Option.some.inj (hr.symm.trans hr')
    have hseller : r₁.seller = r.seller := congrArg Terms.seller (h.terms.trans hterms'.symm)
    have hbuyer : r₁.buyer = r.buyer := congrArg Terms.buyer (h.terms.trans hterms'.symm)
    have hip : r₀.ipId = r.ipId := congrArg Terms.ipId hterms'.symm
    have hne₀ : r₀.seller ≠ r₀.buyer := by
      have hs : r₀.seller = r.seller := congrArg Terms.seller hterms'.symm
      have hb : r₀.buyer = r.buyer := congrArg Terms.buyer hterms'.symm
      rwa [hs, hb]
    have hnot : x.dst ≠ r₁.buyer := by
      rw [hdst, hbuyer]
      exact hne
    have hguard := h.guard
    cases hguard with
    | released w hw =>
      have hq := Option.some.inj haims
      have hwarranted := h.warranted (hq ▸ hstatus) hcond hne₀
      simpa [PaymentWarranted, hip] using hwarranted
    | rolledBack hfrom hauth =>
      obtain ⟨call, hcall, hyields⟩ := Act.yields_call h.yields (by simp)
      rw [Call.yields_source hyields] at hcall
      rcases hdst' with hbuyer' | htreasury
      · exact absurd hbuyer' hnot
      · rcases hcond _ hcall with hvalid | hsafe
        · simp at hvalid
        · rcases hsafe r₀ h.before with hsame | hsafe
          · exact absurd hsame hne₀
          · refine absurd ?_ hsafe
            rw [← htreasury, hdst, ← hseller]
            exact (congrArg Terms.seller h.terms).symm
    | refunded => exact absurd hdst' hnot
    | withdrawn => exact absurd hdst' hnot
    | claimed => exact absurd hdst' hnot
    | adminRolledBack => exact absurd hdst'.1 hnot
    | _ => exact hdst'.elim

end Step

/-- The fairness law, over runs without the calls that break it. -/
theorem seller_paid_on_warrant {balance : Address → Address → ℤ} {tr : List (Act × State)}
    {s : State}
    (hrun : Run (Restrict ActStep (OnCalls SparesSellers)) (State.empty balance) tr s) :
    ∀ past s₁ act s₂, (past, s₁, act, s₂) ∈ steps (State.empty balance) tr →
      ∀ i r, s₂.swap i = some r → r.seller ≠ r.buyer → PaysPrice s₁ s₂ i r.seller →
        PaymentWarranted s₁ act i r := by
  refine (hrun.forall_steps (I := fun _ s => Wf s.escrow) (.empty balance) ?_).2
  intro past s₁ act s₂ hwf hact
  refine ⟨hact.1.wf hwf, ?_⟩
  intro i r hr hne hpays
  exact hact.1.warranted hwf hact.2 hr hne hpays

section Runs

open Scenario

/-- What the seller gets from the swap `0` in one call. -/
def soldTo (s s' : State) (a : Address) : Bool :=
  ((s'.swap 0).any fun r => r.seller = a ∧ r.buyer ≠ a) ∧
    (newTransfers s s').any fun x =>
      x.ref = .price 0 ∧ x.src = currentContractAddress ∧ x.dst = a

theorem paysPrice_of_soldTo {s s' : State} {a : Address} (h : soldTo s s' a = true) :
    ∃ r, s'.swap 0 = some r ∧ r.seller ≠ r.buyer ∧ r.seller = a ∧ PaysPrice s s' 0 a := by
  simp only [soldTo, Bool.decide_and, Bool.and_eq_true, Option.any_eq_true,
    List.any_eq_true, decide_eq_true_eq] at h
  obtain ⟨⟨r, hr, rfl, hne⟩, x, hx, href, hsrc, hdst⟩ := h
  exact ⟨r, hr, Ne.symm hne, rfl, x, hx, href, hsrc, hdst⟩

theorem sale_paid_on_warrant : ∃ tr s₁ s₂ r,
    Run (Restrict ActStep (OnCalls SparesSellers)) (State.empty funds) tr s₂ ∧
    s₂.swap 0 = some r ∧ PaysPrice s₁ s₂ 0 r.seller ∧
    PaymentWarranted s₁ ⟨env [seller] 3, some (.revealKey 0 seller secret secret)⟩ 0 r := by
  obtain ⟨tr, s₁, s₂, hrun, hexec, hseen⟩ := watched (OnCalls SparesSellers) funds sale
    (env [seller] 3) (.revealKey 0 seller secret secret) (fun s s' => soldTo s s' seller)
    (by decide) (by simp [sale, offer, OnCalls, SparesSellers])
  obtain ⟨r, hr, hne, hseller, hpays⟩ := paysPrice_of_soldTo hseen
  have hrun' := hrun.next (k := ⟨env [seller] 3, some (.revealKey 0 seller secret secret)⟩)
    ⟨.call hexec, by simp [OnCalls, SparesSellers]⟩
  rw [← hseller] at hpays
  exact ⟨_, s₁, s₂, r, hrun', hr, hpays,
    seller_paid_on_warrant hrun' _ _ _ _ hrun.mem_steps_last _ _ hr hne hpays⟩

/-- The seller arbitrates his own sale: the price is his and the key stays secret. -/
theorem seller_paid_without_key : ∃ balance tr s past s₁ act s₂ i r,
    Run (Restrict ActStep Always) (State.empty balance) tr s ∧
    (past, s₁, act, s₂) ∈ steps (State.empty balance) tr ∧ act.env.auths = [seller] ∧
    s₂.swap i = some r ∧ r.seller ≠ r.buyer ∧ r.seller = seller ∧
    PaysPrice s₁ s₂ i r.seller ∧ ¬ PaymentWarranted s₁ act i r := by
  obtain ⟨tr, s₁, s₂, hrun, hexec, hseen⟩ := watched Always funds sale (env [seller] 3)
    (.arbitrateSwap 0 seller false) (fun s s' => soldTo s s' seller) (by decide)
    (by simp [Always])
  obtain ⟨r, hr, hne, hseller, hpays⟩ := paysPrice_of_soldTo hseen
  refine ⟨funds, _, s₂, tr, s₁, ⟨env [seller] 3, some (.arbitrateSwap 0 seller false)⟩, s₂, 0, r,
    hrun.next ⟨.call hexec, trivial⟩, hrun.mem_steps_last, rfl, hr, hne, hseller,
    hseller ▸ hpays, ?_⟩
  simp [PaymentWarranted, Call.Presents]

end Runs

end AtomicIp.AtomicSwap
