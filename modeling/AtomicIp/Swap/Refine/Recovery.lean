import AtomicIp.Swap.Refine.Settlement

set_option autoImplicit false

namespace AtomicIp.AtomicSwap

open Function

variable {env : Env} {s s' : State} {c c' : Escrow} {u : Unit} {i : ℕ} {r : SwapRecord}
  {seller : Address} {keys : List Key}

section BatchReveal

theorem validateReveal_ok {k : Key} (h : validateReveal env seller i k s = .ok (u, s')) :
    s' = s ∧ ∃ r, s.escrow.swap i = some r ∧ r.seller = seller ∧ r.status = .accepted ∧
      KeyCheck env s.escrow.ipRegistry r.ipId k.secret k.blindingFactor true := by
  simp [validateReveal] at h
  obtain ⟨r, hr, rfl, ⟨hfrom, hs⟩, hkey⟩ := h
  subst hs
  exact ⟨rfl, r, hr, rfl, hfrom, hkey⟩

/-- A pass closes the swap and makes the payouts of a reveal in another order, the collateral
to the seller. -/
theorem completeRevealed_pays {fees : SwapFeeBreakdown} (hr : s.escrow.swap i = some r)
    (h : completeRevealed env i s = .ok (fees, s')) :
    ∃ fee referral, 0 ≤ fee ∧ 0 ≤ referral ∧ (r.referrer.isSome = false → referral = 0) ∧
      ∃ s₁ s₂ s₃ s₄ s₅, s₁.escrow = s.escrow.close i r .completed ∧
        payOut r r.seller (r.price - fee - referral) (.price i) s₁ = .ok ((), s₂) ∧
        payTreasury i r fee s₂ = .ok ((), s₃) ∧ payReferrer i r referral s₃ = .ok ((), s₄) ∧
        releaseCollateral i r r.seller (collateralReleased i r) s₄ = .ok ((), s₅) ∧
        s'.escrow = s₅.escrow := by
  simp [completeRevealed, hr, paySeller] at h
  obtain ⟨s₁, hclose, s₂, hhistory, fee, s₃, hfee, referral, s₄, hreferral, -, -, s₅, hseller, s₆,
    htreasury, s₇, hreferrer, s₈, hcollateral, s₉, hrep₁, ⟨_, hrep₂⟩, -⟩ := h
  obtain ⟨hfee₀, rfl⟩ := protocolFee_ok hfee
  obtain ⟨hreferral₀, hnone, rfl⟩ := referralFee_ok hreferral
  refine ⟨fee, referral, hfee₀, hreferral₀, hnone, s₄, s₅, s₆, s₇, s₈, ?_, hseller, htreasury,
    hreferrer, hcollateral, ?_⟩
  · rw [appendHistory_escrow hhistory, closeSwap_escrow hclose]
  · rw [updateReputation_escrow hrep₂, updateReputation_escrow hrep₁]

theorem completeRevealed_escrow {fees : SwapFeeBreakdown} (hr : s.escrow.swap i = some r)
    (h : completeRevealed env i s = .ok (fees, s')) :
    ∃ ms, s'.escrow = ((s.escrow.close i r .completed).release i (s.escrow.heldFor i r)).pay ms ∧
      PaidFor i r r.Payee (r.price + (s.escrow.heldFor i r).getD 0) ms ∧
      Returned i r (s.escrow.heldFor i r) ms := by
  obtain ⟨fee, referral, hfee, hreferral, hnone, s₁, s₂, s₃, s₄, s₅, e₁, hseller, htreasury,
    hreferrer, hcollateral, e₆⟩ := completeRevealed_pays hr h
  obtain ⟨ms₁, e₂, hms₁⟩ := payOut_escrow rfl payee_seller hseller
  obtain ⟨ms₂, e₃, hms₂⟩ := payTreasury_escrow payee_treasury htreasury
  obtain ⟨ms₃, e₄, hms₃⟩ := payReferrer_escrow (fun _ => payee_referrer) hreferrer
  obtain ⟨ms₄, e₅, hms₄, hback⟩ := releaseCollateral_escrow payee_seller (.inr rfl) hcollateral
  have hpaid := (hms₁.append (hms₂.append hms₃)).append hms₄
  rw [add_comm (r.price - fee - referral), shares_total hfee hreferral hnone] at hpaid
  simp only [e₄, e₃, e₂, e₁, Escrow.heldFor_pay, Escrow.heldFor_close] at hpaid hback
  refine ⟨_, ?_, hpaid, hback.mono (List.subset_append_right _ _)⟩
  simp [e₆, e₅, e₄, e₃, e₂, e₁]

theorem completeRevealed_step {k : Key} {fees : SwapFeeBreakdown} (hr : s.escrow.swap i = some r)
    (hw : Releases env s.escrow i r (.batchKey k))
    (h : completeRevealed env i s = .ok (fees, s')) :
    Step env s.escrow (.released i (.batchKey k)) s'.escrow := by
  obtain ⟨ms, e, hpaid, hback⟩ := completeRevealed_escrow hr h
  have hstep := Step.released (w := .batchKey k) hr hw hpaid hback
  simpa [e, Escrow.sweptBy, Warrant.sweeps] using hstep

/-- What the first pass leaves true of the whole list while the second one runs: the
swaps not yet settled are accepted, the settled ones hold nothing any more. -/
def RevealableBy (env : Env) (seller : Address) (keys : List Key) (ids : List ℕ) (c : Escrow) :
    Prop :=
  ∀ i ∈ ids, ∃ r, c.swap i = some r ∧ r.seller = seller ∧
    (∃ k ∈ keys, KeyCheck env c.ipRegistry r.ipId k.secret k.blindingFactor true) ∧
    (r.status = .accepted ∨ Closed c i r)

theorem Closed.of_released {k : Key} {ms : List TokenTransfer} :
    Closed (((c.close i r .completed).release i (c.sweptBy (.batchKey k) i r)).pay ms) i
      (r.withStatus .completed) := by
  refine ⟨rfl, by simp [Escrow.pay, Escrow.release, Escrow.close, Escrow.setActiveSwap,
    SwapRecord.withStatus], ?_⟩
  by_cases hpos : 0 < r.collateralAmount
  · cases hheld : c.swapCollateral i <;>
      simp [Escrow.heldFor, Escrow.sweptBy, Warrant.sweeps, Escrow.pay, Escrow.release,
        Escrow.close, Escrow.setActiveSwap, Escrow.setSwap, SwapRecord.withStatus, hpos, hheld]
  · simp [Escrow.heldFor, SwapRecord.withStatus, hpos]

theorem Closed.released {j : ℕ} {r' : SwapRecord} {o : Option ℤ} {ms : List TokenTransfer}
    (h : Closed c j r') (hne : j ≠ i) :
    Closed (((c.close i r .completed).release i o).pay ms) j r' := by
  refine ⟨h.1, ?_, ?_⟩
  · by_cases hip : r'.ipId = r.ipId <;>
      simp [Escrow.pay, Escrow.release, Escrow.close, Escrow.setActiveSwap, Escrow.setSwap, hip,
        h.2.1]
  · have hheld := h.2.2
    cases o <;>
      simpa [Escrow.heldFor, Escrow.pay, Escrow.release, Escrow.close, Escrow.setActiveSwap,
        Escrow.setSwap, hne] using hheld

theorem RevealableBy.step {k : Key} {ids : List ℕ} (h : RevealableBy env seller keys ids c)
    (hstep : Step env c (.released i (.batchKey k)) c') :
    RevealableBy env seller keys ids c' := by
  cases hstep with
  | @released _ r _ ms hr hw hpaid =>
    intro j hj
    obtain ⟨rj, hrj, hseller, hkey, hst⟩ := h j hj
    by_cases hji : j = i
    · subst hji
      obtain rfl := Option.some.inj (hr.symm.trans hrj)
      exact ⟨r.withStatus .completed, by simp [Escrow.pay, Escrow.release, Escrow.close,
        Escrow.setActiveSwap, Escrow.setSwap], hseller, hkey, .inr .of_released⟩
    · refine ⟨rj, ?_, hseller, hkey, hst.imp id fun hclosed => hclosed.released hji⟩
      simp [Escrow.pay, Escrow.release, Escrow.close, Escrow.setActiveSwap, Escrow.setSwap, hji,
        hrj]

theorem completeAll_path {all ids : List ℕ} {fees : List SwapFeeBreakdown}
    (hauth : seller ∈ env.auths) (hsub : ∀ i ∈ ids, i ∈ all)
    (hinv : RevealableBy env seller keys all s.escrow)
    (h : Tx.forEach ids (completeRevealed env) s = .ok (fees, s')) :
    ∃ ks : List Key, ks.length = ids.length ∧ (∀ k ∈ ks, k ∈ keys) ∧
      Path (Step env) s.escrow ((ids.zip ks).map fun p => .released p.1 (.batchKey p.2))
        s'.escrow := by
  induction ids generalizing s fees with
  | nil =>
    rw [(Tx.forEach_nil_ok.mp h).2]
    exact ⟨[], rfl, by simp, .nil⟩
  | cons i rest ih =>
    obtain ⟨fee, s₁, fees', hhead, htail, -⟩ := Tx.forEach_cons_ok.mp h
    obtain ⟨r, hr, rfl, ⟨k, hk, hkey⟩, hst⟩ := hinv i (hsub i (by simp))
    have hstep := completeRevealed_step hr ⟨hst, hauth, hkey⟩ hhead
    obtain ⟨ks, hlength, hks, hpath⟩ :=
      ih (fun j hj => hsub j (by simp [hj])) (hinv.step hstep) htail
    exact ⟨k :: ks, by simp [hlength], by simpa using ⟨hk, hks⟩, .cons hstep hpath⟩

theorem batchRevealKeys_path {ids : List ℕ} {secrets blindingFactors : List (BytesN 32)}
    (h : batchRevealKeys env ids secrets blindingFactors seller s = .ok (u, s')) :
    ∃ ks : List Key, ks.length = ids.length ∧
      (∀ k ∈ ks, k ∈ List.zipWith Key.mk secrets blindingFactors) ∧
      RevealableBy env seller (List.zipWith Key.mk secrets blindingFactors) ids s.escrow ∧
      Path (Step env) s.escrow ((ids.zip ks).map fun p => .released p.1 (.batchKey p.2))
        s'.escrow := by
  simp [batchRevealKeys] at h
  obtain ⟨hauth, -, ⟨hsecrets, hblinding⟩, -, _, s₁, hvalid, fees, s₂, hreveal, rfl⟩ := h
  obtain ⟨rfl, hall⟩ := Tx.forEach₂_checks_mem (fun _ _ _ _ _ => validateReveal_ok) hvalid
  have hinv : RevealableBy env seller (List.zipWith Key.mk secrets blindingFactors) ids
      s₁.escrow := by
    intro i hi
    obtain ⟨k, hk, r, hr, hseller, hfrom, hkey⟩ := hall i hi
    exact ⟨r, hr, hseller, ⟨k, hk, hkey⟩, .inl hfrom⟩
  obtain ⟨ks, hks, hmem, hpath⟩ := completeAll_path hauth (fun _ hi => hi) hinv hreveal
  exact ⟨ks, hks, hmem, hinv, by simpa using hpath⟩

theorem batchRevealKeys_moves {ids : List ℕ} {secrets blindingFactors : List (BytesN 32)}
    (h : batchRevealKeys env ids secrets blindingFactors seller s = .ok (u, s')) :
    Emits (Step env) (∃ i ∈ ids, ∃ k ∈ List.zipWith Key.mk secrets blindingFactors,
      · = .released i (.batchKey k)) s.escrow s'.escrow := by
  obtain ⟨ks, -, hks, -, hpath⟩ := batchRevealKeys_path h
  refine ⟨_, hpath, ?_⟩
  intro m hm
  obtain ⟨⟨i, k⟩, hmem, rfl⟩ := List.mem_map.mp hm
  exact ⟨i, (List.of_mem_zip hmem).1, k, hks k (List.of_mem_zip hmem).2, rfl⟩

end BatchReveal

def Escrow.withdrawal (c : Escrow) (i : ℕ) (r : SwapRecord) : List TokenTransfer :=
  if 0 < (c.escrowDeposit i).getD 0 then [refundOf i r ((c.escrowDeposit i).getD 0)] else []

theorem Escrow.withdrawal_paid {c : Escrow} :
    PaidFor i r (· = r.buyer) (max 0 ((c.escrowDeposit i).getD 0)) (c.withdrawal i r) := by
  rw [Escrow.withdrawal]
  split_ifs with hpos
  · rw [max_eq_right hpos.le]
    exact .single rfl hpos.le rfl
  · rw [max_eq_left (not_lt.mp hpos)]
    exact .nil

theorem Escrow.withdrawal_of_deposit {c : Escrow} {x : ℤ} (hx : c.escrowDeposit i = some x)
    (hpos : 0 < x) : c.withdrawal i r = [refundOf i r x] := by
  rw [Escrow.withdrawal, hx, Option.getD_some, if_pos hpos]

theorem escrowWithdraw_escrow (h : escrowWithdraw env i s = .ok (u, s')) :
    ∃ r, s.escrow.swap i = some r ∧ r.buyer ∈ env.auths ∧ s.swapMode i = some .escrow ∧
      r.status = .accepted ∧ r.expiry < env.timestamp ∧
      s'.escrow = ((s.escrow.close i r .cancelled).setEscrowDeposit i none).pay
        (s.escrow.withdrawal i r) := by
  simp [escrowWithdraw] at h
  obtain ⟨r, hr, hauth, hmode, hfrom, hexpired, s₁, hclose, s₂, hhistory, s₃, hpay, rfl⟩ := h
  refine ⟨r, hr, hauth, hmode, hfrom, hexpired, ?_⟩
  have e₁ := closeSwap_escrow hclose
  have e₂ := appendHistory_escrow hhistory
  rw [State.escrow_published, Escrow.withdrawal]
  rcases hpay with ⟨hpos, hpay⟩ | ⟨hneg, rfl⟩
  · obtain ⟨-, rfl⟩ := transfer_ok.mp hpay
    rw [if_pos hpos]
    simp [e₂, e₁, refundOf]
  · rw [if_neg (not_lt.mpr hneg)]
    simp [e₂, e₁]

theorem escrowWithdraw_step (h : escrowWithdraw env i s = .ok (u, s')) :
    Step env s.escrow (.withdrawn i) s'.escrow := by
  obtain ⟨r, hr, hauth, -, hfrom, -, e⟩ := escrowWithdraw_escrow h
  rw [e]
  refine .withdrawn hr hfrom hauth Escrow.withdrawal_paid fun x hx hpos => ?_
  rw [Escrow.withdrawal_of_deposit hx hpos]
  exact List.mem_singleton.mpr rfl

theorem claimInsurance_step (h : claimInsurance env i s = .ok (u, s')) :
    Step env s.escrow (.claimed i) s'.escrow := by
  simp [claimInsurance, payOut] at h
  obtain ⟨r, hr, hauth, -, hclaim, hpos, -, rfl⟩ := h
  have hstep := Step.claimed hr hauth hclaim hpos.1
  simpa [Escrow.addToPool, sub_eq_add_neg] using hstep

section Rollback

theorem refund_total {price : ℤ} (h : 0 < price) :
    (price * 90).tdiv 100 + max 0 (price - (price * 90).tdiv 100) = price := by
  have hle : (price * 90).tdiv 100 ≤ price := by
    rw [Int.tdiv_eq_ediv_of_nonneg (by omega)]
    omega
  rw [max_eq_right (by omega)]
  omega

theorem rollBackCompleted_step (hr : s.escrow.swap i = some r) (hfrom : r.status = .completed)
    (hauth : r.buyer ∈ env.auths) (h : rollBackCompleted env i r s = .ok (u, s')) :
    Step env s.escrow (.rolledBack i) s'.escrow := by
  simp [rollBackCompleted] at h
  obtain ⟨-, -, s₁, hbuyer, s₂, htreasury, s₃, hhistory, rfl⟩ := h
  obtain ⟨ms₁, e₁, hms₁⟩ := payOut_escrow (P := fun a => a = r.buyer ∨
    a = protocolConfig.treasury) rfl (.inl rfl) hbuyer
  obtain ⟨ms₂, e₂, hms₂⟩ := payTreasury_escrow (P := fun a => a = r.buyer ∨
    a = protocolConfig.treasury) (.inr rfl) htreasury
  have e₃ := appendHistory_escrow hhistory
  have hstep := Step.rolledBack hr hfrom hauth (hms₁.append hms₂) refund_total
  simpa [e₃, e₂, e₁] using hstep

theorem validateAndRollbackSwap_step {rolledBack : Bool}
    (h : validateAndRollbackSwap env i false s = .ok (rolledBack, s')) :
    Step env s.escrow (.rolledBack i) s'.escrow := by
  simp [validateAndRollbackSwap] at h
  obtain ⟨r, hr, hauth, hfrom, -, ⟨_, h⟩, -⟩ := h
  exact rollBackCompleted_step hr hfrom hauth h

theorem validateAndRollbackSwap_moves {valid rolledBack : Bool}
    (h : validateAndRollbackSwap env i valid s = .ok (rolledBack, s')) :
    Emits (Step env) (fun m => valid = false ∧ m = .rolledBack i) s.escrow s'.escrow := by
  simp [validateAndRollbackSwap] at h
  obtain ⟨r, hr, hauth, hfrom, -, ⟨_, ⟨hvalid, h⟩ | ⟨-, rfl⟩⟩, -⟩ := h
  · exact .single (rollBackCompleted_step hr hfrom hauth h) ⟨hvalid, rfl⟩
  · exact .refl _

variable {tally : Tally} {caller : Address} {reason : Bytes}

def Tally.ReadOnly (tally : Tally) : Prop :=
  ∀ (a b : ℤ) (s : State) (t : ℤ) (s' : State), tally a b s = .ok (t, s') → s' = s

theorem tallied_readOnly : Tally.ReadOnly tallied := by
  intro a b s t s' h
  exact (i128_ok.mp h).2.2

theorem untallied_readOnly : Tally.ReadOnly untallied := by
  intro a b s t s' h
  exact (Tx.pure_ok.mp h).2

theorem returnCollateral_escrow {total total' : ℤ} (htally : tally.ReadOnly)
    (h : returnCollateral tally i r total s = .ok (total', s')) :
    ∃ ms, s'.escrow = (s.escrow.release i (s.escrow.swapCollateral i)).pay ms ∧
      PaidFor i r (· = r.buyer) ((s.escrow.swapCollateral i).getD 0) ms ∧
      Returned i r (s.escrow.swapCollateral i) ms := by
  simp only [returnCollateral, Tx.load_bind_ok, State.swapCollateral_escrow] at h
  cases hheld : s.escrow.swapCollateral i with
  | none =>
    simp [hheld] at h
    exact ⟨[], by simp [h.2], .nil, .none⟩
  | some collateral =>
    simp [hheld, payOut, forgetCollateral] at h
    obtain ⟨s₁, ht, hpos, rfl⟩ := h
    rw [htally _ _ _ _ _ ht]
    refine ⟨_, rfl, .single rfl hpos.1 rfl, ?_⟩
    intro amount e
    obtain rfl := Option.some.inj e
    exact ⟨r.buyer, .inl rfl, by simp⟩

theorem returnPremium_escrow {total total' : ℤ} (htally : tally.ReadOnly)
    (h : returnPremium tally i r total s = .ok (total', s')) :
    ∃ ms, s'.escrow = s.escrow.pay ms ∧
      PaidFor i r (· = r.buyer) (max 0 r.insurancePremium) ms := by
  simp only [returnPremium, Tx.ite_ok] at h
  rcases h with ⟨hpos, h⟩ | ⟨hneg, h⟩
  · simp [payOut] at h
    obtain ⟨s₁, ht, hamount, rfl⟩ := h
    rw [htally _ _ _ _ _ ht, max_eq_right hpos.le]
    exact ⟨_, rfl, .single rfl hamount.1 rfl⟩
  · simp at h
    rw [h.2, max_eq_left (not_lt.mp hneg)]
    exact ⟨[], by simp, .nil⟩

/-- What a rollback gives back, and that only a funded swap is given anything. -/
theorem refundEscrow_escrow {total' : ℤ} (htally : tally.ReadOnly)
    (h : refundEscrow tally i r s = .ok (total', s')) :
    ∃ returned total ms, s'.escrow = (s.escrow.release i returned).pay ms ∧
      PaidFor i r (· = r.buyer) total ms ∧ Returned i r returned ms ∧
      (if r.status = .accepted ∨ r.status = .disputed then
          returned = s.escrow.swapCollateral i ∧
            total = r.price + returned.getD 0 + max 0 r.insurancePremium
        else returned = none ∧ total = 0 ∧ ms = []) ∧
      (r.status = .accepted ∨ r.status = .disputed → refundOf i r r.price ∈ ms) := by
  simp only [refundEscrow, Tx.ite_ok] at h
  rcases h with ⟨hfunded, h⟩ | ⟨hopen, h⟩
  · simp only [Tx.bind_ok] at h
    obtain ⟨t₁, s₁, ht, _, s₂, hrefund, t₂, s₃, hcollateral, hpremium⟩ := h
    obtain rfl := htally _ _ _ _ _ ht
    obtain ⟨ms₁, e₁, hms₁, hrefunded⟩ := refundPrice_escrow hrefund
    obtain ⟨ms₂, e₂, hms₂, hback⟩ := returnCollateral_escrow htally hcollateral
    obtain ⟨ms₃, e₃, hms₃⟩ := returnPremium_escrow htally hpremium
    simp only [e₁, show (s₁.escrow.pay ms₁).swapCollateral = s₁.escrow.swapCollateral from rfl]
      at e₂ hms₂ hback
    refine ⟨s₁.escrow.swapCollateral i, _, _, ?_, (hms₁.append hms₂).append hms₃,
      (hback.mono (List.subset_append_right _ _)).mono (List.subset_append_left _ _), ?_,
      fun _ => List.mem_append_left _ (List.mem_append_left _ hrefunded)⟩
    · simp [e₃, e₂]
    · rw [if_pos hfunded]
      exact ⟨rfl, rfl⟩
  · simp at h
    refine ⟨none, 0, [], by simp [h.2], .nil, .none, ?_, fun hfunded => absurd hfunded hopen⟩
    rw [if_neg hopen]
    exact ⟨rfl, rfl, rfl⟩

theorem rollBack_step {total : ℤ} (htally : tally.ReadOnly) (hr : s.escrow.swap i = some r)
    (hfrom : r.status ≠ .completed) (hauth : ∃ admin ∈ env.auths, s.escrow.admin = some admin)
    (h : rollBack env tally i r reason s = .ok (total, s')) :
    Step env s.escrow (.adminRolledBack i) s'.escrow := by
  simp [rollBack] at h
  obtain ⟨s₁, hrefund, s₂, hclose, s₃, hreason, _, hhistory⟩ := h
  obtain ⟨returned, total', ms, e₁, hms, hback, hfunded, hrefunded⟩ :=
    refundEscrow_escrow htally hrefund
  have e₂ := closeSwap_escrow hclose
  have e₃ := setCancelReason_escrow hreason
  have e₄ := appendHistory_escrow hhistory
  simpa [e₄, e₃, e₂, e₁] using Step.adminRolledBack hr hfrom hauth hms hfunded hback
    hrefunded

theorem adminRollbackSwap_step (h : adminRollbackSwap env i caller reason s = .ok (u, s')) :
    Step env s.escrow (.adminRolledBack i) s'.escrow := by
  simp [adminRollbackSwap] at h
  obtain ⟨hauth, hadmin, r, hr, hfrom, total, s₁, hrollback, rfl⟩ := h
  have hstep := rollBack_step tallied_readOnly hr hfrom ⟨caller, hauth, hadmin⟩ hrollback
  exact by simpa using hstep

theorem validateRollback_ok (h : validateRollback i s = .ok (u, s')) :
    s' = s ∧ ∃ r, s.escrow.swap i = some r ∧ r.status ≠ .completed := by
  simp [validateRollback] at h
  obtain ⟨r, ⟨hr, hs⟩, hfrom⟩ := h
  exact ⟨hs, r, hr, hfrom⟩

/-- No rollback completes a swap, so the first pass stays true during the second. -/
def RollableBy (caller : Address) (ids : List ℕ) (c : Escrow) : Prop :=
  c.admin = some caller ∧ ∀ i ∈ ids, ∃ r, c.swap i = some r ∧ r.status ≠ .completed

theorem rollBackValidated_step {ids : List ℕ} (hauth : caller ∈ env.auths) (hi : i ∈ ids)
    (hids : RollableBy caller ids s.escrow)
    (h : rollBackValidated env reason i s = .ok (u, s')) :
    RollableBy caller ids s'.escrow ∧ Step env s.escrow (.adminRolledBack i) s'.escrow := by
  obtain ⟨hadmin, hall⟩ := hids
  obtain ⟨r, hr, hfrom⟩ := hall i hi
  simp [rollBackValidated, hr] at h
  obtain ⟨total, hrollback⟩ := h
  have hstep := rollBack_step untallied_readOnly hr hfrom ⟨caller, hauth, hadmin⟩ hrollback
  refine ⟨?_, hstep⟩
  generalize s'.escrow = c' at hstep
  cases hstep with
  | adminRolledBack hr hfrom' hauth' hpaid hfunded =>
    refine ⟨hadmin, fun j hj => ?_⟩
    obtain ⟨rj, hrj, hst⟩ := hall j hj
    by_cases hji : j = i
    · exact ⟨_, by simp [Escrow.pay, Escrow.release, Escrow.close, Escrow.setActiveSwap,
        Escrow.setSwap, hji]; rfl, by simp⟩
    · exact ⟨rj, by simp [Escrow.pay, Escrow.release, Escrow.close, Escrow.setActiveSwap,
        Escrow.setSwap, hji, hrj], hst⟩

theorem batchRollbackSwaps_moves {ids : List ℕ}
    (h : batchRollbackSwaps env ids caller reason s = .ok (u, s')) :
    Emits (Step env) (∃ i ∈ ids, · = .adminRolledBack i) s.escrow s'.escrow := by
  simp [batchRollbackSwaps] at h
  obtain ⟨hauth, hadmin, -, -, _, s₁, hvalid, _, s₂, hrollback, rfl⟩ := h
  obtain ⟨rfl, hall⟩ := Tx.forEach_checks (fun _ _ _ _ _ hi => validateRollback_ok hi) hvalid
  have hloop := Tx.forEach_inv (I := fun s => RollableBy caller ids s.escrow)
    (R := fun s s' => Emits (Step env) (∃ i ∈ ids, · = .adminRolledBack i) s.escrow s'.escrow)
    (fun _ => .refl _) .trans
    (fun i hi _ _ _ hs hbody => (rollBackValidated_step hauth hi hs hbody).imp_right
      fun hstep => .single hstep ⟨i, hi, rfl⟩) hrollback
    ⟨hadmin, hall⟩
  simpa using hloop.2

end Rollback

end AtomicIp.AtomicSwap
