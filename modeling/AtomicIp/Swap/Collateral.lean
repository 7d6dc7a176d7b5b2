import AtomicIp.Swap.Arrangements
import AtomicIp.Swap.LockHolders
import AtomicIp.Swap.Positions

/-!
Collateral and settlement. Most settlements hand the collateral to a party of the swap, a ruling
and the two timeouts leave it in the contract.
-/

set_option autoImplicit false

namespace AtomicIp.AtomicSwap

open Function

/-- No settled swap has collateral in the contract. -/
def NoneStranded (s : State) : Prop :=
  ∀ i r, s.swap i = some r → ¬ r.status.Live → s.swapCollateral i = none

/-- A step that settles a swap hands its collateral to one of its parties. -/
def ReturnsCollateral (s s' : State) : Prop :=
  ∀ i r r' x, s.swap i = some r → s.swapCollateral i = some x → s'.swap i = some r' →
    ¬ r'.status.Live → ∃ dst, (dst = r.buyer ∨ dst = r.seller) ∧
      ⟨r.token, currentContractAddress, dst, x, .collateral i⟩ ∈ newTransfers s s'

/-- Rulings and timeouts are asked for where there is no collateral. -/
def SparesCollateral (s : State) (_env : Env) : Call → Prop
  | .resolveDispute i _ _ | .autoResolveDispute i | .autoRefundTimeout i =>
      s.swapCollateral i = none
  | _ => True

def SwapStatus.Funded (q : SwapStatus) : Prop := q = .accepted ∨ q = .disputed

theorem SwapStatus.Funded.live {q : SwapStatus} (h : q.Funded) : q.Live := by
  cases h with
  | inl h => rw [h]; trivial
  | inr h => rw [h]; trivial

/-- Only a funded swap holds collateral. -/
def Secured (_ : ℕ) (p : Position) : Prop := p.collateral = none ∨ p.record.status.Funded

def Move.LeavesCollateral : Move → Prop
  | .released _ w | .refunded _ w => w.sweeps = false
  | .withdrawn _ => True
  | _ => False

/-- A move that leaves nothing behind. -/
def Move.Sweeps (c : Escrow) (m : Move) : Prop :=
  m.LeavesCollateral → ∀ i, m.swap? = some i → c.swapCollateral i = none

/-- What a move does to the collateral of the swap it is about. -/
inductive Custody (c c' : Escrow) (i : ℕ) (r r' : SwapRecord) : Prop where
  | kept (h : c'.swapCollateral i = c.swapCollateral i)
      (hstatus : c.swapCollateral i = none ∨ r'.status.Funded)
  | locked (hnone : c.swapCollateral i = none) (hstatus : r'.status.Funded)
  | returned (ms : List TokenTransfer) (hnone : c'.swapCollateral i = none)
      (htransfers : c'.transfers = c.transfers ++ ms)
      (hback : Returned i r (c.swapCollateral i) ms)

section Moves

variable {env : Env} {c c' : Escrow} {m : Move} {i : ℕ} {r r' : SwapRecord} {w : Warrant} {x : ℤ}

theorem Wf.heldFor (hwf : Wf c) (hr : c.swap i = some r) :
    c.heldFor i r = c.swapCollateral i := by
  unfold Escrow.heldFor
  cases hx : c.swapCollateral i with
  | none => simp
  | some x =>
    obtain ⟨r₁, hr₁, hpos, -⟩ := hwf.collateral i x hx
    obtain rfl := Option.some.inj (hr.symm.trans hr₁)
    rw [if_pos hpos]

theorem Wf.sweptBy (hwf : Wf c) (hr : c.swap i = some r)
    (hsweeps : w.sweeps = false → c.swapCollateral i = none) :
    c.sweptBy w i r = c.swapCollateral i := by
  unfold Escrow.sweptBy
  cases hw : w.sweeps with
  | true => exact hwf.heldFor hr
  | false => exact (hsweeps hw).symm

theorem release_collateral : (c.release i (c.swapCollateral i)).swapCollateral i = none := by
  cases hx : c.swapCollateral i <;> simp [Escrow.release, hx]

theorem Step.custody (hstep : Step env c m c') (hm : m.Sweeps c) (hwf : Wf c)
    (hmove : m.swap? = some i) (hr : c.swap i = some r) (hr' : c'.swap i = some r')
    (h : c.swapCollateral i = none ∨ r.status.Funded) : Custody c c' i r r' := by
  have hunfunded : ¬ r.status.Funded → c.swapCollateral i = none := h.resolve_right
  cases hstep with
  | @accepted j r₀ r₁ deposits premium escrowed hr₀ hfrom hauth hterms hto hprice hpaid hdeposits =>
    obtain rfl := Option.some.inj hmove
    obtain rfl : r₁ = r' := by simpa [Escrow.pay, Escrow.setSwap] using hr'
    cases deposits with
    | true => exact .locked (hdeposits rfl).1 (.inl hto)
    | false =>
      refine .kept ?_ (.inr (.inl hto))
      simp [Escrow.pay, Escrow.setSwap, Escrow.recordDeposit, Escrow.collectPremium]
  | installment _ _ hr₀ hfrom =>
    obtain rfl := Option.some.inj hmove
    obtain rfl := Option.some.inj (hr.symm.trans hr₀)
    exact .kept rfl (.inl (hunfunded (by simp [SwapStatus.Funded, hfrom])))
  | @scheduled j r₀ r₁ amount last hr₀ hauth hpos hterms hprice hquantity hpaid hto =>
    obtain rfl := Option.some.inj hmove
    obtain rfl := Option.some.inj (hr.symm.trans hr₀)
    obtain rfl : r₁ = r' := by simpa [Escrow.pay, Escrow.setSwap] using hr'
    refine .kept rfl ?_
    rw [hto]
    cases last with
    | true => exact .inr (.inl rfl)
    | false => exact h
  | offered hr₀ hfrom =>
    obtain rfl := Option.some.inj hmove
    obtain rfl := Option.some.inj (hr.symm.trans hr₀)
    exact .kept rfl (.inl (hunfunded (by simp [SwapStatus.Funded, hfrom])))
  | repriced hr₀ hfrom =>
    obtain rfl := Option.some.inj hmove
    obtain rfl := Option.some.inj (hr.symm.trans hr₀)
    exact .kept rfl (.inl (hunfunded (by simp [SwapStatus.Funded, hfrom])))
  | extended _ hr₀ hfrom =>
    obtain rfl := Option.some.inj hmove
    obtain rfl := Option.some.inj (hr.symm.trans hr₀)
    exact .kept rfl (.inl (hunfunded (by simp [SwapStatus.Funded, hfrom])))
  | disputed hr₀ hfrom =>
    obtain rfl := Option.some.inj hmove
    have hto : r'.status = .disputed := by
      simp [Escrow.setSwap] at hr'
      rw [← hr']
    exact .kept rfl (.inr (.inr hto))
  | cancelled hr₀ hfrom =>
    obtain rfl := Option.some.inj hmove
    obtain rfl := Option.some.inj (hr.symm.trans hr₀)
    exact .kept rfl (.inl (hunfunded (by simp [SwapStatus.Funded, hfrom])))
  | @released j r₀ w ms hr₀ hw hpaid hreturned =>
    obtain rfl := Option.some.inj hmove
    obtain rfl := Option.some.inj (hr.symm.trans hr₀)
    have hswept := hwf.sweptBy (w := w) hr fun hw => hm hw _ rfl
    rw [hswept] at hreturned ⊢
    exact .returned ms release_collateral rfl hreturned
  | @refunded j r₀ w ms hr₀ hw hpaid hreturned =>
    obtain rfl := Option.some.inj hmove
    obtain rfl := Option.some.inj (hr.symm.trans hr₀)
    have hswept := hwf.sweptBy (w := w) hr fun hw => hm hw _ rfl
    rw [hswept] at hreturned ⊢
    exact .returned ms release_collateral rfl hreturned
  | withdrawn hr₀ =>
    exact .kept rfl (.inl (hm trivial i hmove))
  | rolledBack hr₀ hfrom =>
    obtain rfl := Option.some.inj hmove
    obtain rfl := Option.some.inj (hr.symm.trans hr₀)
    exact .kept rfl (.inl (hunfunded (by simp [SwapStatus.Funded, hfrom])))
  | @adminRolledBack j r₀ returned total ms hr₀ hfrom hauth hpaid hfunded hreturned =>
    obtain rfl := Option.some.inj hmove
    obtain rfl := Option.some.inj (hr.symm.trans hr₀)
    have hall : returned = c.swapCollateral j := by
      by_cases hst : r.status = .accepted ∨ r.status = .disputed
      · rw [if_pos hst] at hfunded
        exact hfunded.1
      · rw [if_neg hst] at hfunded
        rw [hfunded.1, hunfunded hst]
    rw [hall] at hreturned ⊢
    exact .returned ms release_collateral rfl hreturned
  | claimed hr₀ =>
    obtain rfl := Option.some.inj hmove
    obtain rfl := Option.some.inj (hr.symm.trans hr')
    exact .kept rfl h
  | _ => cases hmove

theorem Step.secured (hstep : Step env c m c') (hm : m.Sweeps c) (h : EachSwap Secured c) :
    EachSwap Secured c' := by
  refine h.step hstep (fun _ _ => .inl rfl) ?_
  intro i r r' hmove hr hr' hsecured
  cases hstep.custody hm h.wf hmove hr hr' hsecured with
  | kept hsame hstatus =>
    cases hstatus with
    | inl hnone => exact .inl (hsame.trans hnone)
    | inr hfunded => exact .inr hfunded
  | locked _ hfunded => exact .inr hfunded
  | returned _ hnone => exact .inl hnone

/-- The collateral is still there, or it was handed back since `c` with the transfers `ms`. -/
def Kept (c c' : Escrow) (ms : List TokenTransfer) : Prop :=
  ∀ i r x, c.swap i = some r → c.swapCollateral i = some x →
    c'.swapCollateral i = some x ∨ Returned i r (some x) ms

theorem Step.kept (hstep : Step env c m c') (hm : m.Sweeps c) (h : EachSwap Secured c) :
    ∃ ms, c'.transfers = c.transfers ++ ms ∧ Kept c c' ms := by
  obtain ⟨ms, hms, -⟩ := hstep.moves
  refine ⟨ms, hms, ?_⟩
  intro i r x hr hx
  by_cases hmove : m.swap? = some i
  · obtain ⟨r', hr', -⟩ := hstep.keeps h.wf hr
    cases hstep.custody hm h.wf hmove hr hr' (h.each i r hr) with
    | kept hsame => exact .inl (hsame.trans hx)
    | locked hnone =>
      rw [hnone] at hx
      cases hx
    | returned ms₁ _ hms₁ hback =>
      obtain rfl : ms = ms₁ := List.append_cancel_left (hms.symm.trans hms₁)
      exact .inr (hx ▸ hback)
  · exact .inl ((hstep.apart hmove).1.trans hx)

theorem Returned.of_terms {collateral : Option ℤ} {ms : List TokenTransfer}
    (h : Returned i r' collateral ms) (hterms : r'.terms = r.terms) :
    Returned i r collateral ms := by
  have hbuyer : r'.buyer = r.buyer := congrArg Terms.buyer hterms
  have hseller : r'.seller = r.seller := congrArg Terms.seller hterms
  have htoken : r'.token = r.token := congrArg Terms.token hterms
  intro amount hamount
  obtain ⟨dst, hdst, hmem⟩ := h amount hamount
  rw [hbuyer, hseller] at hdst
  rw [htoken] at hmem
  exact ⟨dst, hdst, hmem⟩

/-- How the escrow `c` got on while a call settled its swaps. -/
structure Custodian (c c' : Escrow) : Prop where
  secured : EachSwap Secured c'
  terms : ∀ i r, c.swap i = some r → ∃ r', c'.swap i = some r' ∧ r'.terms = r.terms
  kept : ∃ ms, c'.transfers = c.transfers ++ ms ∧ Kept c c' ms

theorem Custodian.refl (h : EachSwap Secured c) : Custodian c c where
  secured := h
  terms _ r hr := ⟨r, hr, rfl⟩
  kept := ⟨[], by simp, fun _ _ _ _ hx => .inl hx⟩

theorem Custodian.step {c₀ : Escrow} (h : Custodian c₀ c) (hstep : Step env c m c')
    (hm : m.Sweeps c) : Custodian c₀ c' where
  secured := hstep.secured hm h.secured
  terms i r hr := by
    obtain ⟨r₁, hr₁, hterms₁⟩ := h.terms i r hr
    obtain ⟨r', hr', hterms⟩ := hstep.lasts h.secured.wf hr₁
    exact ⟨r', hr', hterms.trans hterms₁⟩
  kept := by
    obtain ⟨ms₁, hms₁, hkept₁⟩ := h.kept
    obtain ⟨ms₂, hms₂, hkept₂⟩ := hstep.kept hm h.secured
    refine ⟨ms₁ ++ ms₂, by rw [hms₂, hms₁, List.append_assoc], ?_⟩
    intro i r x hr hx
    cases hkept₁ i r x hr hx with
    | inl hheld =>
      obtain ⟨r₁, hr₁, hterms₁⟩ := h.terms i r hr
      cases hkept₂ i r₁ x hr₁ hheld with
      | inl hstill => exact .inl hstill
      | inr hback => exact .inr ((hback.of_terms hterms₁).mono (List.subset_append_right _ _))
    | inr hback => exact .inr (hback.mono (List.subset_append_left _ _))

end Moves

section Calls

variable {env : Env} {s s' : State} {call : Call} {m : Move} {act : Act}

theorem verdict_leaves {refund : Bool} {w : Warrant} {i : ℕ} (hw : w.sweeps = true) :
    ¬ (verdict refund w i).LeavesCollateral := by
  cases refund <;> simp [verdict, Move.LeavesCollateral, hw]

theorem Call.yields_leaves (h : call.yields m) (hm : m.LeavesCollateral) :
    ∃ i, m.swap? = some i ∧ ((∃ a refunded, call = .resolveDispute i a refunded) ∨
      call = .autoResolveDispute i ∨ call = .autoRefundTimeout i ∨ call = .escrowWithdraw i) := by
  cases call with
  | resolveDispute i a refunded =>
    obtain rfl := h
    exact ⟨i, verdict_swap i, .inl ⟨a, refunded, rfl⟩⟩
  | autoResolveDispute i =>
    obtain rfl := h
    exact ⟨i, rfl, .inr (.inl rfl)⟩
  | autoRefundTimeout i =>
    obtain rfl := h
    exact ⟨i, rfl, .inr (.inr (.inl rfl))⟩
  | escrowWithdraw i =>
    obtain rfl := h
    exact ⟨i, rfl, .inr (.inr (.inr rfl))⟩
  | arbitrateSwap =>
    obtain rfl := h
    exact absurd hm (verdict_leaves rfl)
  | batchArbitrateSwaps =>
    obtain ⟨i, -, rfl⟩ := h
    exact absurd hm (verdict_leaves rfl)
  | initiateSwap | initiateSwapWithOraclePrice | batchInitiateSwap | batchInitiateSwapWithInsurance
  | initiateSwapWithSchedule | initiateEscrowSwap | batchInitiateEscrow | initiateSwapWithSigners =>
    obtain ⟨r, rfl, -⟩ := h
    exact hm.elim
  | batchAcceptSwaps | batchEscrowDeposit | batchCancelSwaps | batchRollbackSwaps =>
    obtain ⟨i, -, rfl⟩ := h
    exact hm.elim
  | batchRevealKeys =>
    obtain ⟨i, -, k, -, rfl⟩ := h
    cases hm
  | makeScheduledPayment | submitInstallmentPayment =>
    obtain ⟨last, rfl⟩ := h
    exact hm.elim
  | verifyAndCompleteSwap =>
    rcases h with rfl | rfl <;> cases hm
  | validateAndRollbackSwap =>
    obtain ⟨-, rfl⟩ := h
    exact hm.elim
  | startIpAuction =>
    obtain ⟨a, rfl, -⟩ := h
    exact hm.elim
  | revealKey | cancelExpiredSwap =>
    obtain rfl := h
    cases hm
  | initializeContract | setAdmin | acceptSwap | acceptSwapConditional | acceptSwapPartial
  | escrowDeposit | renegotiateSwap | acceptRenegotiation | extendSwapExpiry | raiseDispute
  | cancelSwap | cancelPendingSwap | claimInsurance | adminRollbackSwap | placeBid
  | finalizeAuction =>
    obtain rfl := h
    exact hm.elim
  | _ => exact h.elim

theorem Custodian.one (hstep : Step env s.escrow m s'.escrow) (hm : m.Sweeps s.escrow)
    (h : EachSwap Secured s.escrow) : Custodian s.escrow s'.escrow :=
  (Custodian.refl h).step hstep hm

theorem Custodian.answers {P : Move → Prop} (hmoves : Emits (Step env) P s.escrow s'.escrow)
    (hP : ∀ m, P m → ¬ m.LeavesCollateral) (h : EachSwap Secured s.escrow) :
    Custodian s.escrow s'.escrow := by
  refine hmoves.invariant ?_ (.refl h)
  intro c m c' hm hc hstep
  exact hc.step hstep fun hleaves => absurd hleaves (hP m hm)

theorem sweeps_of_none {i : ℕ} (hmove : m.swap? = some i) (hnone : s.swapCollateral i = none) :
    m.Sweeps s.escrow := by
  intro _ j hj
  obtain rfl := Option.some.inj (hmove.symm.trans hj)
  exact hnone

theorem Wf.uncollateralized {i : ℕ} {r : SwapRecord} (hwf : Wf s.escrow) (hr : s.swap i = some r)
    (hbare : r.Bare) : s.swapCollateral i = none := by
  cases hx : s.swapCollateral i with
  | none => rfl
  | some x =>
    obtain ⟨r₁, hr₁, hpos, -⟩ := hwf.collateral i x hx
    obtain rfl := Option.some.inj (hr.symm.trans hr₁)
    have hzero := hbare.2.1
    omega

theorem escrowWithdraw_bare {i : ℕ} {u : Unit} (h : escrowWithdraw env i s = .ok (u, s'))
    (harranged : Arranged s) : s.swapCollateral i = none := by
  obtain ⟨r, hr, -, hmode, -⟩ := escrowWithdraw_escrow h
  exact harranged.wf.uncollateralized hr (harranged.bare_of_mode hr hmode)

theorem ActStep.custodian (hact : ActStep s act s') (hcond : OnCalls SparesCollateral s act)
    (harranged : Arranged s) (h : EachSwap Secured s.escrow) :
    Custodian s.escrow s'.escrow := by
  obtain ⟨q, hmoves⟩ := hact.answers
  cases hact with
  | elsewhere balance hbalance =>
    refine .answers hmoves ?_ h
    intro m hm
    obtain rfl := hm.1
    exact id
  | @call _ env call hexec =>
    have hspares := hcond call rfl
    have hplain : (∀ m, call.yields m → ¬ m.LeavesCollateral) → Custodian s.escrow s'.escrow :=
      fun hnone => .answers hmoves (fun m hm => hnone m hm.1) h
    cases call with
    | resolveDispute i a refunded =>
      exact .one (resolveDispute_step hexec) (sweeps_of_none (verdict_swap i) hspares) h
    | autoResolveDispute i =>
      exact .one (autoResolveDispute_step hexec) (sweeps_of_none rfl hspares) h
    | autoRefundTimeout i =>
      exact .one (autoRefundTimeout_step hexec) (sweeps_of_none rfl hspares) h
    | escrowWithdraw i =>
      exact .one (escrowWithdraw_step hexec)
        (sweeps_of_none rfl (escrowWithdraw_bare hexec harranged)) h
    | _ =>
      refine hplain ?_
      intro m hyields hleaves
      obtain ⟨i, -, hcall⟩ := Call.yields_leaves hyields hleaves
      simp at hcall

theorem Custodian.returns (h : Custodian s.escrow s'.escrow) : ReturnsCollateral s s' := by
  intro i r r' x hr hx hr' hsettled
  obtain ⟨ms, hms, hkept⟩ := h.kept
  have hnew : newTransfers s s' = ms := by simp [newTransfers, hms]
  rw [hnew]
  cases hkept i r x hr hx with
  | inl hheld =>
    cases h.secured.each i r' hr' with
    | inl hnone =>
      have hnone' : s'.swapCollateral i = none := hnone
      rw [show s'.swapCollateral i = some x from hheld] at hnone'
      cases hnone'
    | inr hfunded => exact absurd hfunded.live hsettled
  | inr hback => exact hback x rfl

theorem EachSwap.noneStranded (h : EachSwap Secured s.escrow) : NoneStranded s := by
  intro i r hr hsettled
  cases h.each i r hr with
  | inl hnone => exact hnone
  | inr hfunded => exact absurd hfunded.live hsettled

end Calls

/-- In runs that ask for rulings and timeouts only where there is no collateral, none is left
behind. -/
theorem collateral_returned {balance : Address → Address → ℤ} {tr : List (Act × State)} {s : State}
    (hrun : Run (Restrict ActStep (OnCalls SparesCollateral)) (State.empty balance) tr s) :
    (∀ s' ∈ visited (State.empty balance) tr, NoneStranded s') ∧
    ∀ past s₁ act s₂, (past, s₁, act, s₂) ∈ steps (State.empty balance) tr →
      ReturnsCollateral s₁ s₂ := by
  have hinit : Arranged (State.empty balance) ∧ EachSwap Secured (State.empty balance).escrow :=
    ⟨.empty balance, .empty balance⟩
  have hnext : ∀ s act s', Arranged s ∧ EachSwap Secured s.escrow →
      Restrict ActStep (OnCalls SparesCollateral) s act s' →
      (Arranged s' ∧ EachSwap Secured s'.escrow) ∧ ReturnsCollateral s s' := by
    intro s act s' hI hact
    have hcustodian := hact.1.custodian hact.2 hI.1 hI.2
    exact ⟨⟨hI.1.step hact.1, hcustodian.secured⟩, hcustodian.returns⟩
  constructor
  · intro s' hs'
    have hI := hrun.forall_visited (I := fun s => Arranged s ∧ EachSwap Secured s.escrow) hinit
      (fun s act s' hI hact => (hnext s act s' hI hact).1) s' hs'
    exact hI.2.noneStranded
  · exact (hrun.forall_steps (I := fun _ s => Arranged s ∧ EachSwap Secured s.escrow) hinit
      fun _ s act s' hI hact => hnext s act s' hI hact).2

section Sales

open Scenario

/-- A call settles the swap 0, whose collateral is 100; afterwards `left` of it is stored. -/
def seenSettling (left : Option ℤ) (s s' : State) : Bool :=
  (s.swap 0).isSome && s.swapCollateral 0 = some 100 &&
    ((s'.swap 0).any fun r => ¬ r.status.Live) && s'.swapCollateral 0 = left

theorem settling_of_seen {left : Option ℤ} {s s' : State} (h : seenSettling left s s' = true) :
    ∃ r r', s.swap 0 = some r ∧ s.swapCollateral 0 = some 100 ∧ s'.swap 0 = some r' ∧
      ¬ r'.status.Live ∧ s'.swapCollateral 0 = left := by
  simp only [seenSettling, Bool.and_eq_true, Option.any_eq_true, decide_eq_true_eq,
    Option.isSome_iff_exists] at h
  obtain ⟨⟨⟨⟨r, hr⟩, hheld⟩, r', hr', hsettled⟩, hleft⟩ := h
  exact ⟨r, r', hr, hheld, hr', hsettled, hleft⟩

theorem reveal_returns_collateral : ∃ (s₁ s₂ : State) (r : SwapRecord), s₁.swap 0 = some r ∧
    NoneStranded s₂ ∧ ∃ dst, (dst = r.buyer ∨ dst = r.seller) ∧
      ⟨r.token, currentContractAddress, dst, 100, .collateral 0⟩ ∈ newTransfers s₁ s₂ := by
  obtain ⟨tr, s₁, s₂, hrun, hexec, hseen⟩ := watched (OnCalls SparesCollateral) funds sale
    (env [seller] 3) (.revealKey 0 seller secret secret) (seenSettling none) (by decide)
    (by simp [sale, offer, OnCalls, SparesCollateral])
  obtain ⟨r, r', hr, hheld, hr', hsettled, -⟩ := settling_of_seen hseen
  have hrun' := hrun.next (k := ⟨env [seller] 3, some (.revealKey 0 seller secret secret)⟩)
    ⟨.call hexec, by simp [OnCalls, SparesCollateral]⟩
  obtain ⟨hstranded, hreturns⟩ := collateral_returned hrun'
  exact ⟨s₁, s₂, r, hr, hstranded s₂ (by simp),
    hreturns _ _ _ _ hrun.mem_steps_last 0 r r' 100 hr hheld hr' hsettled⟩

/-- The dispute of a sale with collateral times out. -/
theorem timeout_strands_collateral : ∃ balance tr s past s₁ act s₂,
    Run (Restrict ActStep Always) (State.empty balance) tr s ∧
    (past, s₁, act, s₂) ∈ steps (State.empty balance) tr ∧
    ¬ NoneStranded s₂ ∧ ¬ ReturnsCollateral s₁ s₂ := by
  obtain ⟨tr, s₁, s₂, hrun, hexec, hseen⟩ := watched Always funds
    (sale ++ [(env [buyer] 3, Call.raiseDispute 0)]) (env [] 700000) (.autoResolveDispute 0)
    (fun s s' => seenSettling (some 100) s s' &&
      ! (newTransfers s s').any fun m => m.ref = .collateral 0) (by decide) (by simp [Always])
  simp only [Bool.and_eq_true, Bool.not_eq_true', List.any_eq_false, decide_eq_true_eq] at hseen
  obtain ⟨r, r', hr, hheld, hr', hsettled, hleft⟩ := settling_of_seen hseen.1
  refine ⟨funds, _, s₂, tr, s₁, ⟨env [] 700000, some (.autoResolveDispute 0)⟩, s₂,
    hrun.next ⟨.call hexec, trivial⟩, hrun.mem_steps_last, ?_, ?_⟩
  · intro hstranded
    rw [hstranded 0 r' hr' hsettled] at hleft
    cases hleft
  · intro hreturns
    obtain ⟨dst, -, hmem⟩ := hreturns 0 r r' 100 hr hheld hr' hsettled
    exact hseen.2 _ hmem rfl

end Sales

end AtomicIp.AtomicSwap
