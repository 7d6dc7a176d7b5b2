import AtomicIp.Swap.Refine.Effects

set_option autoImplicit false

namespace AtomicIp.AtomicSwap

open Function

variable {env : Env} {s s' : State} {u : Unit} {i : ℕ} {r : SwapRecord}

section Payees

theorem payee_treasury : r.Payee protocolConfig.treasury := .inl rfl

theorem payee_seller : r.Payee r.seller := .inr (.inl rfl)

theorem payee_buyer : r.Payee r.buyer := .inr (.inr (.inl rfl))

theorem payee_referrer {a : Address} (h : r.referrer = some a) : r.Payee a :=
  .inr (.inr (.inr h))

end Payees

section Reveal

@[simp] theorem requireAllSigned_ok : requireAllSigned i s = .ok (u, s') ↔
    (s.swapSigners i).all (fun required =>
      decide (required.length ≤ ((s.swapSignatures i).getD []).length)) = true ∧ s' = s := by
  simp only [requireAllSigned, Tx.load_bind_ok, require_ok]

@[simp] theorem rejectInvalidKey_ok {valid : Bool} :
    rejectInvalidKey i r valid s = .ok (u, s') ↔ valid = true ∧ s' = s := by
  cases valid <;> simp [rejectInvalidKey]

theorem shares_total {price fee referral : ℤ} {referrer : Option Address} (hfee : 0 ≤ fee)
    (hreferral : 0 ≤ referral) (hnone : referrer.isSome = false → referral = 0) :
    max 0 fee + (if referrer.isSome then max 0 referral else 0) + (price - fee - referral)
      = price := by
  cases hsome : referrer.isSome with
  | false => simp [hnone hsome, hfee]
  | true => simp [hfee, hreferral]

/-- A reveal closes the swap and makes four payouts, between which the escrow rests. -/
theorem revealKey_pays {caller : Address} {secret blindingFactor : BytesN 32}
    (h : revealKey env i caller secret blindingFactor s = .ok (u, s')) :
    ∃ r, s.escrow.swap i = some r ∧
      Releases env s.escrow i r (.key ⟨secret, blindingFactor⟩) ∧
      ∃ fee referral, 0 ≤ fee ∧ 0 ≤ referral ∧ (r.referrer.isSome = false → referral = 0) ∧
      ∃ s₁ s₂ s₃ s₄ s₅ s₆, s₁.escrow = s.escrow.close i r .completed ∧
        payTreasury i r fee s₁ = .ok ((), s₂) ∧ s₃.escrow = s₂.escrow ∧
        payReferrer i r referral s₃ = .ok ((), s₄) ∧
        payOut r r.seller (r.price - fee - referral) (.price i) s₄ = .ok ((), s₅) ∧
        releaseCollateral i r r.buyer (collateralReleased i r) s₅ = .ok ((), s₆) ∧
        s'.escrow = s₆.escrow := by
  simp [revealKey, paySeller] at h
  obtain ⟨r, hr, rfl, hauth, hfrom, -, hkey, -, s₁, hclose, s₂, hhistory, fee, s₃, hfee, referral,
    s₄, hreferral, -, -, s₅, htreasury, s₆, hevent, s₇, hreferrer, s₈, hseller, s₉, hcollateral,
    s₁₀, hrep₁, s₁₁, hrep₂, rfl⟩ := h
  obtain ⟨hfee₀, rfl⟩ := protocolFee_ok hfee
  obtain ⟨hreferral₀, hnone, rfl⟩ := referralFee_ok hreferral
  refine ⟨r, hr, ⟨hfrom, hauth, hkey⟩, fee, referral, hfee₀, hreferral₀, hnone, s₄, s₅, s₆, s₇, s₈,
    s₉, ?_, htreasury, ?_, hreferrer, hseller, hcollateral, ?_⟩
  · rw [appendHistory_escrow hhistory, State.escrow_setCompletionTimestamp,
      closeSwap_escrow hclose]
  · rcases hevent with ⟨-, rfl⟩ | ⟨-, rfl⟩
    · rw [State.escrow_published]
    · rfl
  · rw [State.escrow_published, updateReputation_escrow hrep₂, updateReputation_escrow hrep₁]

theorem revealKey_step {caller : Address} {secret blindingFactor : BytesN 32}
    (h : revealKey env i caller secret blindingFactor s = .ok (u, s')) :
    Step env s.escrow (.released i (.key ⟨secret, blindingFactor⟩)) s'.escrow := by
  obtain ⟨r, hr, hw, fee, referral, hfee, hreferral, hnone, s₁, s₂, s₃, s₄, s₅, s₆, e₁, htreasury,
    e₃, hreferrer, hseller, hcollateral, e₇⟩ := revealKey_pays h
  obtain ⟨ms₁, e₂, hms₁⟩ := payTreasury_escrow payee_treasury htreasury
  obtain ⟨ms₂, e₄, hms₂⟩ := payReferrer_escrow (fun _ => payee_referrer) hreferrer
  obtain ⟨ms₃, e₅, hms₃⟩ := payOut_escrow rfl payee_seller hseller
  obtain ⟨ms₄, e₆, hms₄, hback⟩ := releaseCollateral_escrow payee_buyer (.inl rfl) hcollateral
  have hpaid := ((hms₁.append hms₂).append hms₃).append hms₄
  rw [shares_total hfee hreferral hnone] at hpaid
  simp only [e₅, e₄, e₃, e₂, e₁, Escrow.heldFor_pay, Escrow.heldFor_close] at hpaid hback
  have hstep := Step.released (w := .key ⟨secret, blindingFactor⟩) hr hw hpaid
    (hback.mono (List.subset_append_right _ _))
  simpa [e₇, e₆, e₅, e₄, e₃, e₂, e₁, Escrow.sweptBy, Warrant.sweeps] using hstep

theorem refundPrice_escrow (h : refundPrice i r s = .ok (u, s')) :
    ∃ ms, s'.escrow = s.escrow.pay ms ∧ PaidFor i r (· = r.buyer) r.price ms ∧
      refundOf i r r.price ∈ ms := by
  obtain ⟨hamount, rfl⟩ := transfer_ok.mp h
  exact ⟨[refundOf i r r.price], rfl, .single rfl hamount.1 rfl, by simp⟩

theorem sellerAndTreasury_escrow {fee : ℤ} {s₁ : State} {v : Unit} (hfee : 0 ≤ fee)
    (hseller : paySeller i r (r.price - fee) s = .ok (u, s₁))
    (htreasury : payTreasury i r fee s₁ = .ok (v, s')) :
    ∃ ms, s'.escrow = s.escrow.pay ms ∧ PaidFor i r r.Payee r.price ms := by
  obtain ⟨ms₁, e₁, hms₁⟩ := payOut_escrow rfl payee_seller hseller
  obtain ⟨ms₂, e₂, hms₂⟩ := payTreasury_escrow payee_treasury htreasury
  refine ⟨ms₁ ++ ms₂, by simp [e₂, e₁], ?_⟩
  have hpaid := hms₁.append hms₂
  rwa [max_eq_right hfee, sub_add_cancel] at hpaid

theorem refundInvalidKey_step (hr : s.escrow.swap i = some r) (hfrom : r.status = .accepted)
    (hauth : r.seller ∈ env.auths) (h : refundInvalidKey i r s = .ok (u, s')) :
    Step env s.escrow (.refunded i .refusedKey) s'.escrow := by
  simp [refundInvalidKey] at h
  obtain ⟨s₁, hrefund, s₂, hcollateral, s₃, hclose, rfl⟩ := h
  obtain ⟨ms₁, e₁, hms₁, hrefunded⟩ := refundPrice_escrow hrefund
  obtain ⟨ms₂, e₂, hms₂, hback⟩ :=
    releaseCollateral_escrow (P := (· = r.buyer)) rfl (.inl rfl) hcollateral
  have e₃ := closeSwap_escrow hclose
  have hpaid := hms₁.append hms₂
  simp only [e₁, Escrow.heldFor_pay] at hpaid hback
  have hstep : Step env s.escrow (.refunded i .refusedKey) _ :=
    .refunded hr ⟨hfrom, hauth⟩ hpaid (hback.mono (List.subset_append_right _ _))
      (List.mem_append_left _ hrefunded)
  simpa [e₃, e₂, e₁, Escrow.sweptBy, Warrant.sweeps] using hstep

theorem completeVerified_step {k : Key} (hr : s.escrow.swap i = some r)
    (hfrom : r.status = .accepted) (hauth : r.seller ∈ env.auths)
    (hkey : KeyCheck env s.escrow.ipRegistry r.ipId k.secret k.blindingFactor true)
    (h : completeVerified i r s = .ok (u, s')) :
    Step env s.escrow (.released i (.key k)) s'.escrow := by
  simp [completeVerified] at h
  obtain ⟨s₁, hclose, fee, s₂, hfee, -, s₃, hseller, s₄, htreasury, s₅, hcollateral, rfl⟩ := h
  obtain ⟨hfee₀, rfl⟩ := protocolFee_ok hfee
  have e₁ := closeSwap_escrow hclose
  obtain ⟨ms₁, e₂, hms₁⟩ := sellerAndTreasury_escrow hfee₀ hseller htreasury
  obtain ⟨ms₂, e₃, hms₂, hback⟩ := releaseCollateral_escrow payee_seller (.inr rfl) hcollateral
  have hpaid := hms₁.append hms₂
  simp only [e₂, e₁, Escrow.heldFor_pay, Escrow.heldFor_close] at hpaid hback
  have hstep := Step.released (w := .key k) hr ⟨hfrom, hauth, hkey⟩ hpaid
    (hback.mono (List.subset_append_right _ _))
  simpa [e₃, e₂, e₁, Escrow.sweptBy, Warrant.sweeps] using hstep

theorem released_checked {c c' : Escrow} {k : Key}
    (hstep : Step env c (.released i (.key k)) c') :
    ∃ r, c.swap i = some r ∧ r.status = .accepted ∧
      KeyCheck env c.ipRegistry r.ipId k.secret k.blindingFactor true := by
  cases hstep with
  | released hr hw => exact ⟨_, hr, hw.1, hw.2.2⟩

theorem refunded_cancelled {c c' : Escrow} {w : Warrant} (hstep : Step env c (.refunded i w) c') :
    (c'.swap i).map SwapRecord.status = some .cancelled := by
  cases hstep with
  | @refunded _ r =>
    have hclosed := update_self i (some (r.withStatus .cancelled)) c.swap
    exact congrArg (Option.map SwapRecord.status) hclosed

theorem verifyAndCompleteSwap_step {caller : Address} {secret blindingFactor : BytesN 32}
    (h : verifyAndCompleteSwap env i caller secret blindingFactor s = .ok (u, s')) :
    Step env s.escrow (.released i (.key ⟨secret, blindingFactor⟩)) s'.escrow ∨
      Step env s.escrow (.refunded i .refusedKey) s'.escrow := by
  simp [verifyAndCompleteSwap] at h
  obtain ⟨r, hr, rfl, hauth, hfrom, ⟨-, h⟩ | ⟨hkey, h⟩⟩ := h
  · exact .inr (refundInvalidKey_step hr hfrom hauth h)
  · exact .inl (completeVerified_step (k := ⟨secret, blindingFactor⟩) hr hfrom hauth hkey h)

theorem verifyAndCompleteSwap_checked {caller : Address} {secret blindingFactor : BytesN 32}
    (h : verifyAndCompleteSwap env i caller secret blindingFactor s = .ok (u, s'))
    (hdone : (s'.swap i).map SwapRecord.status = some .completed) :
    ∃ r, s.swap i = some r ∧ r.status = .accepted ∧
      KeyCheck env s.ipRegistry r.ipId secret blindingFactor true := by
  rcases verifyAndCompleteSwap_step h with hstep | hstep
  · exact released_checked hstep
  · cases (refunded_cancelled hstep).symm.trans hdone

end Reveal

section Disputes

theorem raiseDispute_step (h : raiseDispute env i s = .ok (u, s')) :
    Step env s.escrow (.disputed i) s'.escrow := by
  simp [raiseDispute] at h
  obtain ⟨r, hr, hauth, hfrom, -, rfl⟩ := h
  exact .disputed hr hfrom hauth

theorem plainRefund_step (env : Env) (w : Warrant) {s₁ s₂ : State} {v : Unit}
    (hr : s.escrow.swap i = some r) (hw : Refunds env s.escrow r w) (hsweeps : w.sweeps = false)
    (hclose : closeSwap i r .cancelled s = .ok (u, s₁)) (e : s₂.escrow = s₁.escrow)
    (hrefund : refundPrice i r s₂ = .ok (v, s')) :
    Step env s.escrow (.refunded i w) s'.escrow := by
  obtain ⟨ms, e₁, hms, hrefunded⟩ := refundPrice_escrow hrefund
  have e₀ := closeSwap_escrow hclose
  have hpaid : PaidFor i r (· = r.buyer) (r.price + (s.escrow.sweptBy w i r).getD 0) ms := by
    simpa [Escrow.sweptBy, hsweeps] using hms
  have hback : Returned i r (s.escrow.sweptBy w i r) ms := by
    simpa [Escrow.sweptBy, hsweeps] using Returned.none
  have hstep := Step.refunded hr hw hpaid hback hrefunded
  simpa [e₁, e, e₀, Escrow.sweptBy, hsweeps] using hstep

def verdict (refund : Bool) (w : Warrant) (i : ℕ) : Move :=
  if refund then .refunded i w else .released i w

theorem resolveDispute_step {caller : Address} {refunded : Bool}
    (h : resolveDispute env i caller refunded s = .ok (u, s')) :
    Step env s.escrow (verdict refunded .ruling i) s'.escrow := by
  simp [resolveDispute] at h
  obtain ⟨hauth, hadmin, r, hr, hfrom, ⟨rfl, s₁, h, rfl⟩ | ⟨rfl, s₁, h, rfl⟩⟩ := h
  · simp [ruleForBuyer] at h
    obtain ⟨s₂, hclose, s₃, hrefund, hreason⟩ := h
    have e₁ := setCancelReason_escrow hreason
    simpa [verdict, e₁] using plainRefund_step env .ruling hr
      ⟨hfrom, caller, hauth, hadmin⟩ rfl hclose rfl hrefund
  · simp [ruleForSeller] at h
    obtain ⟨s₂, hclose, fee, s₃, hfee, -, s₄, htreasury, hseller⟩ := h
    obtain ⟨hfee₀, rfl⟩ := rulingFee_ok hfee
    have e₁ := closeSwap_escrow hclose
    obtain ⟨ms₁, e₂, hms₁⟩ := payTreasury_escrow payee_treasury htreasury
    obtain ⟨ms₂, e₃, hms₂⟩ := payOut_escrow rfl payee_seller hseller
    have hnonneg : 0 ≤ fee := by
      rw [hfee₀]
      refine rulingFee_nonneg ?_
      rw [← hfee₀]
      exact (transfer_ok.mp hseller).1.1
    have hpaid := hms₁.append hms₂
    rw [max_eq_right hnonneg, add_sub_cancel] at hpaid
    have hpaid' : PaidFor i r r.Payee (r.price + (s.escrow.sweptBy .ruling i r).getD 0)
        (ms₁ ++ ms₂) := by simpa [Escrow.sweptBy, Warrant.sweeps] using hpaid
    have hstep : Step env s.escrow (.released i .ruling) _ :=
      .released hr ⟨hfrom, caller, hauth, hadmin⟩ hpaid' .none
    simpa [verdict, e₃, e₂, e₁, Escrow.sweptBy, Warrant.sweeps] using hstep

theorem autoResolveDispute_due (h : autoResolveDispute env i s = .ok (u, s')) :
    ∃ r, s.escrow.swap i = some r ∧ r.status = .disputed ∧
      protocolConfig.disputeTimeoutSecs ≤ env.timestamp - r.disputeTimestamp ∧
      Step env s.escrow (.refunded i .timeout) s'.escrow := by
  simp [autoResolveDispute] at h
  obtain ⟨r, hr, hfrom, hdue, s₁, hclose, s₂, hrefund, s₃, hreason, rfl⟩ := h
  refine ⟨r, hr, hfrom, hdue, ?_⟩
  have e := setCancelReason_escrow hreason
  simpa [e] using plainRefund_step env .timeout hr hfrom rfl hclose rfl hrefund

theorem autoResolveDispute_step (h : autoResolveDispute env i s = .ok (u, s')) :
    Step env s.escrow (.refunded i .timeout) s'.escrow := by
  obtain ⟨r, -, -, -, hstep⟩ := autoResolveDispute_due h
  exact hstep

theorem requestArbitration_escrow {requester : Address} {evidenceHash : BytesN 32}
    (h : requestArbitration env i requester evidenceHash s = .ok (u, s')) :
    s'.escrow = s.escrow := by
  simp [requestArbitration] at h
  obtain ⟨r, -, -, -, -, rfl⟩ := h
  simp

theorem autoRefundTimeout_due (h : autoRefundTimeout env i s = .ok (u, s')) :
    ∃ r requested, s.escrow.swap i = some r ∧ r.status = .disputed ∧
      s.arbitrationTimestamp i = some requested ∧
      protocolConfig.arbitrationTimeoutSeconds ≤ env.timestamp - requested ∧
      Step env s.escrow (.refunded i .timeout) s'.escrow := by
  simp [autoRefundTimeout] at h
  obtain ⟨r, hr, hfrom, requested, hrequested, hdue, s₁, hclose, s₂, hrefund, s₃, hreason, s₄,
    hhistory, rfl⟩ := h
  refine ⟨r, requested, hr, hfrom, hrequested, hdue, ?_⟩
  have e₁ := setCancelReason_escrow hreason
  have e₂ := appendHistory_escrow hhistory
  simpa [e₂, e₁] using plainRefund_step env .timeout hr hfrom rfl hclose
    (by simp) hrefund

theorem autoRefundTimeout_step (h : autoRefundTimeout env i s = .ok (u, s')) :
    Step env s.escrow (.refunded i .timeout) s'.escrow := by
  obtain ⟨r, requested, -, -, -, -, hstep⟩ := autoRefundTimeout_due h
  exact hstep

end Disputes

section Arbitration

variable {arbitrator : Address} {refund : Bool}

theorem arbitrateRefund_step (env : Env) (w : Warrant) {s₁ : State} {v : Unit}
    (hr : s.escrow.swap i = some r)
    (hw : Refunds env s.escrow r w) (hsweeps : w.sweeps = true)
    (h : arbitrateRefund i r s = .ok (u, s₁))
    (hclose : closeSwap i r .cancelled s₁ = .ok (v, s')) :
    Step env s.escrow (.refunded i w) s'.escrow := by
  simp [arbitrateRefund] at h
  obtain ⟨s₂, hrefund, hcollateral⟩ := h
  obtain ⟨ms₁, e₁, hms₁, hrefunded⟩ := refundPrice_escrow hrefund
  obtain ⟨ms₂, e₂, hms₂, hback⟩ :=
    releaseCollateral_escrow (P := (· = r.buyer)) rfl (.inl rfl) hcollateral
  have e₃ := closeSwap_escrow hclose
  have hpaid := hms₁.append hms₂
  simp only [e₁, Escrow.heldFor_pay] at hpaid hback
  have hpaid' : PaidFor i r (· = r.buyer) (r.price + (s.escrow.sweptBy w i r).getD 0)
      (ms₁ ++ ms₂) := by simpa [Escrow.sweptBy, hsweeps] using hpaid
  have hback' : Returned i r (s.escrow.sweptBy w i r) ms₂ := by
    simpa [Escrow.sweptBy, hsweeps] using hback
  have hstep := Step.refunded hr hw hpaid' (hback'.mono (List.subset_append_right _ _))
    (List.mem_append_left _ hrefunded)
  simpa [e₃, e₂, e₁, Escrow.sweptBy, hsweeps] using hstep

theorem arbitrateComplete_step (env : Env) (w : Warrant) {s₁ : State} {v : Unit}
    (hr : s.escrow.swap i = some r)
    (hw : Releases env s.escrow i r w) (hsweeps : w.sweeps = true)
    (h : arbitrateComplete i r s = .ok (u, s₁))
    (hclose : closeSwap i r .completed s₁ = .ok (v, s')) :
    Step env s.escrow (.released i w) s'.escrow := by
  simp [arbitrateComplete] at h
  obtain ⟨s₂, hcollateral, fee, s₃, hfee, -, s₄, hseller, htreasury⟩ := h
  obtain ⟨hfee₀, rfl⟩ := protocolFee_ok hfee
  obtain ⟨ms₁, e₁, hms₁, hback⟩ := releaseCollateral_escrow payee_seller (.inr rfl) hcollateral
  obtain ⟨ms₂, e₂, hms₂⟩ := sellerAndTreasury_escrow hfee₀ hseller htreasury
  have e₃ := closeSwap_escrow hclose
  have hpaid := hms₁.append hms₂
  rw [add_comm] at hpaid
  have hpaid' : PaidFor i r r.Payee (r.price + (s.escrow.sweptBy w i r).getD 0)
      (ms₁ ++ ms₂) := by simpa [Escrow.sweptBy, hsweeps] using hpaid
  have hback' : Returned i r (s.escrow.sweptBy w i r) ms₁ := by
    simpa [Escrow.sweptBy, hsweeps] using hback
  have hstep := Step.released hr hw hpaid' (hback'.mono (List.subset_append_left _ _))
  simpa [e₃, e₂, e₁, Escrow.sweptBy, hsweeps] using hstep

theorem arbitrateBatchComplete_step (env : Env) (w : Warrant) {s₁ : State} {v : Unit}
    (hr : s.escrow.swap i = some r)
    (hw : Releases env s.escrow i r w) (hsweeps : w.sweeps = true)
    (h : arbitrateBatchComplete i r s = .ok (u, s₁))
    (hclose : closeSwap i r .completed s₁ = .ok (v, s')) :
    Step env s.escrow (.released i w) s'.escrow := by
  simp [arbitrateBatchComplete] at h
  obtain ⟨fee, s₂, hfee, -, s₃, hseller, s₄, htreasury, hcollateral⟩ := h
  obtain ⟨hfee₀, rfl⟩ := protocolFee_ok hfee
  obtain ⟨ms₁, e₁, hms₁⟩ := sellerAndTreasury_escrow hfee₀ hseller htreasury
  obtain ⟨ms₂, e₂, hms₂, hback⟩ := releaseCollateral_escrow payee_seller (.inr rfl) hcollateral
  have e₃ := closeSwap_escrow hclose
  have hpaid := hms₁.append hms₂
  simp only [e₁, Escrow.heldFor_pay] at hpaid hback
  have hpaid' : PaidFor i r r.Payee (r.price + (s₂.escrow.sweptBy w i r).getD 0)
      (ms₁ ++ ms₂) := by simpa [Escrow.sweptBy, hsweeps] using hpaid
  have hback' : Returned i r (s₂.escrow.sweptBy w i r) ms₂ := by
    simpa [Escrow.sweptBy, hsweeps] using hback
  have hstep := Step.released hr hw hpaid' (hback'.mono (List.subset_append_right _ _))
  simpa [e₃, e₂, e₁, Escrow.sweptBy, hsweeps] using hstep

theorem arbitrateSwap_step (h : arbitrateSwap env i arbitrator refund s = .ok (u, s')) :
    Step env s.escrow (verdict refund .arbitration i) s'.escrow := by
  simp [arbitrateSwap] at h
  obtain ⟨r, hr, -, ⟨rfl, s₁, h, s₂, hclose, rfl⟩ | ⟨rfl, s₁, h, s₂, hclose, rfl⟩⟩ := h
  · have hstep := arbitrateRefund_step env .arbitration hr trivial rfl h hclose
    exact by simpa [verdict] using hstep
  · have hstep := arbitrateComplete_step env .arbitration hr trivial rfl h hclose
    exact by simpa [verdict] using hstep

theorem arbitrateDisputed_step (h : arbitrateDisputed env arbitrator refund i s = .ok (u, s')) :
    Step env s.escrow (verdict refund .batchArbitration i) s'.escrow := by
  simp [arbitrateDisputed] at h
  obtain ⟨r, hr, hfrom, ⟨rfl, s₁, h, s₂, hclose, s₃, hhistory, rfl⟩ |
    ⟨rfl, s₁, h, s₂, hclose, s₃, hhistory, rfl⟩⟩ := h
  · have hstep := arbitrateRefund_step env .batchArbitration hr hfrom rfl h hclose
    exact by simpa [verdict, appendHistory_escrow hhistory] using hstep
  · have hstep := arbitrateBatchComplete_step env .batchArbitration hr hfrom rfl h
      hclose
    exact by simpa [verdict, appendHistory_escrow hhistory] using hstep

theorem batchArbitrateSwaps_moves {ids : List ℕ}
    (h : batchArbitrateSwaps env ids arbitrator refund s = .ok (u, s')) :
    Emits (Step env) (∃ i ∈ ids, · = verdict refund .batchArbitration i) s.escrow s'.escrow := by
  simp [batchArbitrateSwaps] at h
  obtain ⟨-, _, hloop⟩ := h
  exact Tx.forEach_rel (R := fun s s' => Emits (Step env)
    (∃ i ∈ ids, · = verdict refund .batchArbitration i) s.escrow s'.escrow) (fun _ => .refl _)
    .trans (fun i hi _ _ _ hbody => .single (arbitrateDisputed_step hbody) ⟨i, hi, rfl⟩) hloop

end Arbitration

section Cancellation

variable {canceller : Address}

theorem cancelSwap_step (h : cancelSwap env i canceller s = .ok (u, s')) :
    Step env s.escrow (.cancelled i) s'.escrow := by
  simp [cancelSwap] at h
  obtain ⟨r, hr, hparty, hauth, hfrom, s₁, hclose, s₂, hhistory, s₃, hrep, rfl⟩ := h
  have hparty' : r.seller ∈ env.auths ∨ r.buyer ∈ env.auths := by
    rcases hparty with rfl | rfl
    · exact .inl hauth
    · exact .inr hauth
  simpa [updateReputation_escrow hrep, appendHistory_escrow hhistory, closeSwap_escrow hclose]
    using Step.cancelled hr hfrom hparty'

theorem cancelPendingSwap_step (h : cancelPendingSwap env i canceller s = .ok (u, s')) :
    Step env s.escrow (.cancelled i) s'.escrow := by
  simp [cancelPendingSwap] at h
  obtain ⟨r, hr, rfl, hauth, hfrom, -, s₁, hclose, s₂, hhistory, rfl⟩ := h
  simpa [appendHistory_escrow hhistory, closeSwap_escrow hclose]
    using Step.cancelled hr hfrom (.inr hauth)

theorem cancelExpiredSwap_step (h : cancelExpiredSwap env i canceller s = .ok (u, s')) :
    Step env s.escrow (.refunded i .expiry) s'.escrow := by
  simp [cancelExpiredSwap] at h
  obtain ⟨r, hr, hfrom, -, hexpired, s₁, hclose, s₂, hrefund, s₃, hcollateral, s₄, hhistory, s₅,
    hrep, rfl⟩ := h
  have e₁ := closeSwap_escrow hclose
  obtain ⟨ms₁, e₂, hms₁, hrefunded⟩ := refundPrice_escrow hrefund
  obtain ⟨ms₂, e₃, hms₂, hback⟩ :=
    releaseCollateral_escrow (P := (· = r.buyer)) rfl (.inl rfl) hcollateral
  have hpaid := hms₁.append hms₂
  simp only [e₂, e₁, Escrow.heldFor_pay, Escrow.heldFor_close] at hpaid hback
  have hstep : Step env s.escrow (.refunded i .expiry) _ :=
    .refunded hr ⟨hfrom, hexpired⟩ hpaid (hback.mono (List.subset_append_right _ _))
      (List.mem_append_left _ hrefunded)
  simpa [updateReputation_escrow hrep, appendHistory_escrow hhistory, e₃, e₂, e₁, Escrow.sweptBy,
    Warrant.sweeps] using hstep

theorem cancelWithReason_step {reason : Bytes} {id : ℕ} (hauth : canceller ∈ env.auths)
    (h : cancelWithReason env canceller i reason s = .ok (id, s')) :
    Step env s.escrow (.cancelled i) s'.escrow := by
  simp [cancelWithReason] at h
  obtain ⟨r, hr, hparty, hfrom, s₁, hclose, s₂, hreason, s₃, hhistory, ⟨_, hrep⟩, rfl⟩ := h
  have hparty' : r.seller ∈ env.auths ∨ r.buyer ∈ env.auths := by
    rcases hparty with rfl | rfl
    · exact .inl hauth
    · exact .inr hauth
  simpa [updateReputation_escrow hrep, appendHistory_escrow hhistory,
    setCancelReason_escrow hreason, closeSwap_escrow hclose] using Step.cancelled hr hfrom hparty'

theorem batchCancelSwaps_moves {ids cancelledIds : List ℕ} {reasons : List Bytes}
    (h : batchCancelSwaps env ids canceller reasons s = .ok (cancelledIds, s')) :
    Emits (Step env) (∃ i ∈ ids, · = .cancelled i) s.escrow s'.escrow := by
  simp [batchCancelSwaps] at h
  obtain ⟨hauth, -, s₁, hloop, rfl⟩ := h
  have hmoves := Tx.forEach₂_rel (R := fun s s' => Emits (Step env)
    (∃ i ∈ ids, · = .cancelled i) s.escrow s'.escrow) (fun _ => .refl _) .trans
    (fun i hi _ _ _ _ _ hbody => .single (cancelWithReason_step hauth hbody) ⟨i, hi, rfl⟩) hloop
  simpa using hmoves

end Cancellation

end AtomicIp.AtomicSwap
