import AtomicIp.Swap.Aborts
import AtomicIp.Swap.Listings

/-!
The shares of a price: a settlement multiplies the price before it divides it, so that a swap of
a price too large for the product can be made and accepted, but never completed.
-/

set_option autoImplicit false

namespace AtomicIp.AtomicSwap

open Function Tx

/-- The swaps whose price the call hands out, once for each time one is listed. -/
def Call.distributes : Call → List ℕ
  | .revealKey i _ _ _ | .verifyAndCompleteSwap i _ _ _ | .resolveDispute i _ _ => [i]
  | .batchRevealKeys ids _ _ _ => ids
  | .validateAndRollbackSwap i isKeyValid => if isKeyValid then [] else [i]
  | _ => []

/-- Who may have a share in the price of a swap that ends in the status `q`. -/
def SwapRecord.Shareholder (r : SwapRecord) (q : SwapStatus) (a : Address) : Prop :=
  a = protocolConfig.treasury ∨
    if q = .completed then a = r.seller ∨ r.referrer = some a else a = r.buyer

def priceShares (i : ℕ) (ms : List TokenTransfer) : List TokenTransfer :=
  ms.filter fun m => m.ref = .price i

/-- What was paid out between the two states as the price of the swap went to its shareholders, in
shares of which none is negative, and which add up to so many times the price. -/
def Apportioned (i times : ℕ) (s s' : State) : Prop :=
  ∃ r r', s.swap i = some r ∧ s'.swap i = some r' ∧
    PaidFor i r (r.Shareholder r'.status) (times * r.price) (priceShares i (newTransfers s s'))

/-- The arithmetic of the call goes through, and every price is handed out exactly. -/
structure ExactShares (env : Env) (call : Call) (s : State) : Prop where
  fits : exec env call s ≠ .error .overflow
  exact : ∀ s', exec env call s = .ok ((), s') →
    ∀ i ∈ call.distributes, Apportioned i (call.distributes.count i) s s'

/-- The products that the settlements compute fit: the price times the fee in basis points where
a swap may still be completed, and ninety times the price of a completed one. -/
structure Affordable (s : State) : Prop where
  accepted : ∀ i r, s.swap i = some r → r.status = .accepted →
    r.price * protocolConfig.protocolFeeBps ≤ i128Max
  disputed : ∀ i r, s.swap i = some r → r.status = .disputed → s.admin.isSome →
    r.price * protocolConfig.protocolFeeBps ≤ i128Max
  completed : ∀ i r, s.swap i = some r → r.status = .completed → r.price * 90 ≤ i128Max

def NoOverflow (e : Abort ContractError) : Prop := e ≠ .overflow

section Fees

variable {s s' : State} {r : SwapRecord} {x : ℤ}

theorem bpsOf_share {bps : ℕ} {price : ℤ} (hpos : 0 < price) (h : bpsOf bps price s = .ok (x, s')) :
    s' = s ∧ 0 ≤ x ∧ x * 10000 ≤ price * bps := by
  obtain ⟨hnonneg, rfl⟩ := bpsOf_ok h
  refine ⟨rfl, hnonneg, ?_⟩
  simp only [bpsOf, ite_ok] at h
  rcases h with ⟨-, h⟩ | ⟨hout, h⟩
  · simp at h
    have hscaled : 0 ≤ price * bps := by positivity
    rw [h.2, Int.tdiv_eq_ediv_of_nonneg hscaled]
    exact Int.ediv_mul_le _ (by decide)
  · simp at h
    rw [h]
    positivity

theorem protocolFee_share (hpos : 0 < r.price) (h : protocolFee r s = .ok (x, s')) :
    s' = s ∧ 0 ≤ x ∧ 40 * x ≤ r.price := by
  obtain ⟨rfl, hnonneg, hle⟩ := bpsOf_share hpos h
  simp only [protocolConfig] at hle
  exact ⟨rfl, hnonneg, by omega⟩

theorem referralFee_share (hpos : 0 < r.price) (h : referralFee r s = .ok (x, s')) :
    s' = s ∧ 0 ≤ x ∧ 100 * x ≤ r.price := by
  simp only [referralFee, ite_ok] at h
  rcases h with ⟨-, h⟩ | ⟨-, h⟩
  · obtain ⟨rfl, hnonneg, hle⟩ := bpsOf_share hpos h
    simp only [protocolConfig] at hle
    exact ⟨rfl, hnonneg, by omega⟩
  · simp at h
    exact ⟨h.2, h.1.ge, by omega⟩

theorem rulingFee_share (hpos : 0 < r.price) (h : rulingFee r s = .ok (x, s')) :
    s' = s ∧ 0 ≤ x ∧ 40 * x ≤ r.price := by
  obtain ⟨rfl, rfl⟩ := rulingFee_ok h
  rw [Int.tdiv_eq_ediv_of_nonneg (by omega)]
  exact ⟨rfl, by omega, by omega⟩

end Fees

section Fits

variable {env : Env} {s s' : State} {r : SwapRecord} {x y : ℤ} {i : ℕ} {caller : Address}
  {secret blindingFactor : BytesN 32}

def SwapRecord.Feasible (r : SwapRecord) : Prop :=
  0 < r.price ∧ r.price * protocolConfig.protocolFeeBps ≤ i128Max

theorem SwapRecord.Feasible.price_le (h : r.Feasible) : r.price ≤ i128Max := by
  obtain ⟨hpos, hmax⟩ := h
  simp only [protocolConfig] at hmax
  omega

theorem SwapRecord.Feasible.protocolFee (h : r.Feasible) :
    AbortsWith NoOverflow s (protocolFee r) :=
  bpsOf_aborts fun hpos hout => absurd (.of_nonneg (by positivity) h.2) hout

theorem SwapRecord.Feasible.referralFee (h : r.Feasible) :
    AbortsWith NoOverflow s (referralFee r) := by
  refine referralFee_aborts fun hpos hout => absurd (.of_nonneg (by positivity) ?_) hout
  have hmax := h.2
  simp only [protocolConfig] at hmax ⊢
  omega

theorem SwapRecord.Feasible.rulingFee (h : r.Feasible) : AbortsWith NoOverflow s (rulingFee r) := by
  unfold AtomicSwap.rulingFee
  split
  · refine .bind (i128_aborts fun hout => absurd (.of_nonneg ?_ h.2) hout) fun _ _ _ => .of_ok rfl
    exact mul_nonneg h.1.le (by simp)
  · exact .of_ok rfl

theorem rest_aborts (hnonneg : 0 ≤ y) (hle : y ≤ x) (hmax : x ≤ i128Max) :
    AbortsWith NoOverflow s (i128 (x - y) : SwapTx ℤ) :=
  i128_aborts fun hout => absurd (.of_nonneg (by omega) (by omega)) hout

theorem SwapRecord.Feasible.shares {α : Type} {k : ℤ → ℤ → ℤ → SwapTx α} (h : r.Feasible)
    (hk : ∀ fee referral sellerAmount s, AbortsWith NoOverflow s (k fee referral sellerAmount)) :
    AbortsWith NoOverflow s (do
      let feeAmount ← AtomicSwap.protocolFee r
      let referralAmount ← AtomicSwap.referralFee r
      let net ← i128 (r.price - feeAmount)
      let sellerAmount ← i128 (net - referralAmount)
      k feeAmount referralAmount sellerAmount) := by
  have hmax := h.price_le
  refine .bind h.protocolFee fun fee s₁ hfee => .bind h.referralFee fun referral s₂ hreferral => ?_
  obtain ⟨-, hfee₀, hfee₁⟩ := protocolFee_share h.1 hfee
  obtain ⟨-, hreferral₀, hreferral₁⟩ := referralFee_share h.1 hreferral
  refine .bind (rest_aborts hfee₀ (by omega) hmax) fun net s₃ hnet => ?_
  obtain ⟨-, rfl, -⟩ := checked_ok.mp hnet
  exact .bind (rest_aborts hreferral₀ (by omega) (by omega)) fun _ _ _ => hk _ _ _ _

theorem revealKey_fits (hbound : ∀ r, s.swap i = some r → r.status = .accepted → r.Feasible) :
    AbortsWith NoOverflow s (revealKey env i caller secret blindingFactor) := by
  have htoken : NoOverflow .token := by simp [NoOverflow]
  refine .bind (requireSwapExists_aborts (by simp [NoOverflow])) fun r s₁ h => ?_
  obtain ⟨hr, rfl⟩ := requireSwapExists_ok.mp h
  refine .bind (.ensure (by simp [NoOverflow])) fun _ s₁ _ => .bind (.ensure (by simp [NoOverflow]))
    fun _ s₂ _ => .bind (.ensure (by simp [NoOverflow])) fun _ s₃ h => ?_
  have hfrom : r.status = .accepted := (requireSwapStatus_ok.mp h).1
  refine .bind (requireAllSigned_aborts (by simp [NoOverflow])) fun _ _ _ =>
    .bind (verifyCommitment_aborts (by simp [NoOverflow]) (by simp [NoOverflow])) fun _ _ _ =>
    .bind (rejectInvalidKey_aborts (by simp [NoOverflow])) fun _ _ _ =>
    .bind (evaluateConditions_aborts (by simp [NoOverflow])) fun _ _ _ =>
    .bind (.of_ok rfl) fun _ _ _ => .bind (.of_ok rfl) fun _ _ _ =>
    .bind (.of_ok rfl) fun _ _ _ => ?_
  refine (hbound r hr hfrom).shares fun _ _ _ _ => ?_
  exact .bind (payTreasury_aborts htoken) fun _ _ _ =>
    .bind (.onlyIf fun _ => .of_ok rfl) fun _ _ _ => .bind (payReferrer_aborts htoken) fun _ _ _ =>
    .bind (payOut_aborts htoken) fun _ _ _ => .bind (releaseCollateral_aborts htoken) fun _ _ _ =>
    .of_ok rfl

theorem verifyAndCompleteSwap_fits
    (hbound : ∀ r, s.swap i = some r → r.status = .accepted → r.Feasible) :
    AbortsWith NoOverflow s (verifyAndCompleteSwap env i caller secret blindingFactor) := by
  have htoken : NoOverflow .token := by simp [NoOverflow]
  refine .bind (requireSwapExists_aborts (by simp [NoOverflow])) fun r s₁ h => ?_
  obtain ⟨hr, rfl⟩ := requireSwapExists_ok.mp h
  refine .bind (.ensure (by simp [NoOverflow])) fun _ s₁ _ => .bind (.ensure (by simp [NoOverflow]))
    fun _ s₂ _ => .bind (.ensure (by simp [NoOverflow])) fun _ s₃ h => ?_
  have hfrom : r.status = .accepted := (requireSwapStatus_ok.mp h).1
  have hfeasible := hbound r hr hfrom
  refine .bind (verifyCommitment_aborts (by simp [NoOverflow]) (by simp [NoOverflow]))
    fun valid _ _ => ?_
  split
  · exact .bind (payOut_aborts htoken) fun _ _ _ =>
      .bind (releaseCollateral_aborts htoken) fun _ _ _ => .of_ok rfl
  · refine .bind (.of_ok rfl) fun _ _ _ => .bind hfeasible.protocolFee fun fee _ hfee => ?_
    obtain ⟨-, hfee₀, hfee₁⟩ := protocolFee_share hfeasible.1 hfee
    exact .bind (rest_aborts hfee₀ (by omega) hfeasible.price_le) fun _ _ _ =>
      .bind (payOut_aborts htoken) fun _ _ _ => .bind (payTreasury_aborts htoken) fun _ _ _ =>
      .bind (releaseCollateral_aborts htoken) fun _ _ _ => .of_ok rfl

theorem resolveDispute_fits {refunded : Bool} (hbound : ∀ r, s.swap i = some r →
      r.status = .disputed → s.admin.isSome → r.Feasible) :
    AbortsWith NoOverflow s (resolveDispute env i caller refunded) := by
  have htoken : NoOverflow .token := by simp [NoOverflow]
  refine .bind (.ensure (by simp [NoOverflow])) fun _ s₁ h => ?_
  obtain ⟨-, rfl⟩ := requireAuth_ok.mp h
  refine .bind (requireAdmin_aborts (by simp [NoOverflow])) fun _ s₁ h => ?_
  obtain ⟨hadmin, rfl⟩ := requireAdmin_ok.mp h
  refine .bind (requireSwapExists_aborts (by simp [NoOverflow])) fun r s₁ h => ?_
  obtain ⟨hr, rfl⟩ := requireSwapExists_ok.mp h
  refine .bind (.ensure (by simp [NoOverflow])) fun _ s₁ h => ?_
  have hfrom : r.status = .disputed := (requireSwapStatus_ok.mp h).1
  have hfeasible := hbound r hr hfrom (Option.isSome_of_eq_some hadmin)
  split
  · exact .bind (.bind (.of_ok rfl) fun _ _ _ => .bind (payOut_aborts htoken) fun _ _ _ =>
      .of_ok rfl) fun _ _ _ => .of_ok rfl
  · refine .bind (.bind (.of_ok rfl) fun _ _ _ => .bind hfeasible.rulingFee fun fee _ hfee => ?_)
      fun _ _ _ => .of_ok rfl
    obtain ⟨-, hfee₀, hfee₁⟩ := rulingFee_share hfeasible.1 hfee
    exact .bind (rest_aborts hfee₀ (by omega) hfeasible.price_le) fun _ _ _ =>
      .bind (payTreasury_aborts htoken) fun _ _ _ => payOut_aborts htoken

theorem validateAndRollbackSwap_fits {isKeyValid : Bool} (hbound : ∀ r, s.swap i = some r →
      r.status = .completed → 0 < r.price ∧ r.price * 90 ≤ i128Max) :
    AbortsWith NoOverflow s (validateAndRollbackSwap env i isKeyValid) := by
  have htoken : NoOverflow .token := by simp [NoOverflow]
  refine .bind (requireSwapExists_aborts (by simp [NoOverflow])) fun r s₁ h => ?_
  obtain ⟨hr, rfl⟩ := requireSwapExists_ok.mp h
  refine .bind (.ensure (by simp [NoOverflow])) fun _ s₁ _ => .bind (.ensure (by simp [NoOverflow]))
    fun _ s₂ h => ?_
  have hfrom : r.status = .completed := (requireSwapStatus_ok.mp h).1
  obtain ⟨hpos, hmax⟩ := hbound r hr hfrom
  have hscaled : FitsI128 (r.price * 90) := .of_nonneg (by omega) hmax
  have hrefund : (r.price * 90).tdiv 100 ≤ r.price ∧ 0 ≤ (r.price * 90).tdiv 100 := by
    rw [Int.tdiv_eq_ediv_of_nonneg (by omega)]
    omega
  refine .bind (.of_ok rfl) fun _ _ _ => .bind (.ensure (by simp [NoOverflow])) fun _ _ _ =>
    .bind (.onlyIf fun _ => ?_) fun _ _ _ => .of_ok rfl
  refine .bind (i128_aborts fun hout => absurd hscaled hout) fun scaled _ h => ?_
  obtain ⟨-, rfl, -⟩ := checked_ok.mp h
  exact .bind (rest_aborts hrefund.2 hrefund.1 (by omega)) fun _ _ _ =>
    .bind (payOut_aborts htoken) fun _ _ _ =>
    .bind (payTreasury_aborts htoken) fun _ _ _ => .of_ok rfl

theorem completeRevealed_fits (hbound : ∀ r, s.swap i = some r → r.Feasible) :
    AbortsWith NoOverflow s (completeRevealed env i) := by
  have htoken : NoOverflow .token := by simp [NoOverflow]
  refine .bind (requireSwapExists_aborts (by simp [NoOverflow])) fun r s₁ h => ?_
  obtain ⟨hr, rfl⟩ := requireSwapExists_ok.mp h
  refine .bind (.of_ok rfl) fun _ _ _ => .bind (.of_ok rfl) fun _ _ _ => ?_
  refine (hbound r hr).shares fun _ _ _ _ => ?_
  exact .bind (payOut_aborts htoken) fun _ _ _ => .bind (payTreasury_aborts htoken) fun _ _ _ =>
    .bind (payReferrer_aborts htoken) fun _ _ _ =>
    .bind (releaseCollateral_aborts htoken) fun _ _ _ => .of_ok rfl

theorem completeRevealed_exists {fees : SwapFeeBreakdown}
    (h : completeRevealed env i s = .ok (fees, s')) : ∃ r, s.swap i = some r := by
  unfold completeRevealed at h
  obtain ⟨r, s₁, hexists, -⟩ := bind_ok.mp h
  exact ⟨r, (requireSwapExists_ok.mp hexists).1⟩

theorem completeRevealed_swap {fees : SwapFeeBreakdown} (hr : s.swap i = some r)
    (h : completeRevealed env i s = .ok (fees, s')) :
    s'.swap = update s.swap i (some (r.withStatus .completed)) := by
  obtain ⟨ms, e, -⟩ := completeRevealed_escrow hr h
  exact congrArg Escrow.swap e

/-- The first pass has found the whole list accepted, and completing one swap leaves the prices as
they are. -/
theorem batchRevealKeys_fits {ids : List ℕ} {secrets blindingFactors : List (BytesN 32)}
    (hbound : ∀ i r, s.swap i = some r → r.status = .accepted → r.Feasible) :
    AbortsWith NoOverflow s (batchRevealKeys env ids secrets blindingFactors caller) := by
  refine .bind (.ensure (by simp [NoOverflow])) fun _ s₁ h => ?_
  obtain ⟨-, rfl⟩ := requireAuth_ok.mp h
  refine .bind (.ensure (by simp [NoOverflow])) fun _ s₁ h => ?_
  obtain ⟨-, rfl⟩ := require_ok.mp h
  refine .bind (.ensure (by simp [NoOverflow])) fun _ s₁ h => ?_
  obtain ⟨-, rfl⟩ := require_ok.mp h
  refine .bind (.ensure (by simp [NoOverflow])) fun _ s₁ h => ?_
  obtain ⟨-, rfl⟩ := require_ok.mp h
  refine .bind (.forEach₂ (by simp [NoOverflow]) fun _ _ _ => ?_) fun _ s₁ h => ?_
  · exact .bind (requireSwapExists_aborts (by simp [NoOverflow])) fun _ _ _ =>
      .bind (.ensure (by simp [NoOverflow])) fun _ _ _ =>
      .bind (.ensure (by simp [NoOverflow])) fun _ _ _ =>
      .bind (verifyCommitment_aborts (by simp [NoOverflow]) (by simp [NoOverflow])) fun _ _ _ =>
      .ensure (by simp [NoOverflow])
  obtain ⟨rfl, hall⟩ := forEach₂_checks_mem (fun _ _ _ _ _ => validateReveal_ok) h
  have hlisted : ∀ i ∈ ids, ∀ r, s₁.swap i = some r → r.Feasible := by
    intro i hi r hr
    obtain ⟨k, -, r', hr', -, hfrom, -⟩ := hall i hi
    obtain rfl := Option.some.inj (hr.symm.trans hr')
    exact hbound i r hr hfrom
  refine .bind (.forEach_inv (I := fun s => ∀ i ∈ ids, ∀ r, s.swap i = some r → r.Feasible)
    (fun i hi s hI => completeRevealed_fits (hI i hi)) ?_ hlisted) fun _ _ _ => .of_ok rfl
  intro j hj s fees s' hI hpass i hi r hr
  obtain ⟨rj, hrj⟩ := completeRevealed_exists hpass
  rw [completeRevealed_swap hrj hpass] at hr
  by_cases hji : i = j
  · subst hji
    obtain rfl : rj.withStatus .completed = r := by simpa using hr
    exact hI i hi rj hrj
  · exact hI i hi r (by simpa [hji] using hr)

end Fits

/-- Between the two states the shares that are paid out of the price go to `P` and add up to `x`. -/
def Shared (i : ℕ) (r : SwapRecord) (P : Address → Prop) (x : ℤ) (c c' : Escrow) : Prop :=
  ∃ ms, c'.transfers = c.transfers ++ ms ∧ PaidFor i r P x (priceShares i ms)

section Shared

variable {env : Env} {s s' : State} {c c' c₁ c₂ : Escrow} {u : Unit} {i j : ℕ}
  {r r' : SwapRecord} {P : Address → Prop} {x y : ℤ} {a : Address} {ms : List TokenTransfer}

@[simp] theorem priceShares_append (ns : List TokenTransfer) :
    priceShares i (ms ++ ns) = priceShares i ms ++ priceShares i ns := List.filter_append ms ns

namespace Shared

theorem aside (h : c'.transfers = c.transfers ++ ms) (hms : ∀ m ∈ ms, m.ref ≠ .price i) :
    Shared i r P 0 c c' := by
  refine ⟨ms, h, ?_⟩
  have hnone : priceShares i ms = [] := by
    simpa [priceShares] using hms
  rw [hnone]
  exact .nil

theorem trans (h : Shared i r P x c c₁) (h' : Shared i r P y c₁ c') :
    Shared i r P (x + y) c c' := by
  obtain ⟨ms, hms, hpaid⟩ := h
  obtain ⟨ns, hns, hpaid'⟩ := h'
  refine ⟨ms ++ ns, by rw [hns, hms, List.append_assoc], ?_⟩
  rw [priceShares_append]
  exact hpaid.append hpaid'

theorem between (h : Shared i r P x c₁ c₂) (hbefore : c₁.transfers = c.transfers)
    (hafter : c'.transfers = c₂.transfers) : Shared i r P x c c' := by
  obtain ⟨ms, hms, hpaid⟩ := h
  exact ⟨ms, by rw [hafter, hms, hbefore], hpaid⟩

theorem withStatus {q : SwapStatus} (h : Shared i (r.withStatus q) P x c c') :
    Shared i r P x c c' := by
  obtain ⟨ms, hms, hpaid⟩ := h
  exact ⟨ms, hms, hpaid.escrowed, hpaid.recipient, hpaid.total⟩

theorem apart {Q : Address → Prop} (hpaid : PaidFor j r' Q x ms) (hji : j ≠ i)
    (h : c'.transfers = c.transfers ++ ms) : Shared i r P 0 c c' := by
  refine aside h fun m hm href => hji ?_
  have hown := (hpaid.escrowed m hm).2.2.1
  rw [href] at hown
  exact (Option.some.inj hown).symm

end Shared

theorem payOut_shared (hdst : P a) (h : payOut r a x (.price i) s = .ok (u, s')) :
    Shared i r P x s.escrow s'.escrow := by
  obtain ⟨hamount, rfl⟩ := transfer_ok.mp h
  refine ⟨_, rfl, ?_⟩
  simpa [priceShares] using PaidFor.single hdst hamount.1 rfl

theorem payTreasury_shared (hdst : P protocolConfig.treasury) (hx : 0 ≤ x)
    (h : payTreasury i r x s = .ok (u, s')) : Shared i r P x s.escrow s'.escrow := by
  rcases onlyIf_ok.mp h with ⟨-, h⟩ | ⟨hpos, rfl⟩
  · exact payOut_shared hdst h
  · obtain rfl : x = 0 := by omega
    exact .aside (List.append_nil _).symm (by simp)

theorem payReferrer_shared (hdst : ∀ a, r.referrer = some a → P a) (hx : 0 ≤ x)
    (hnone : r.referrer.isSome = false → x = 0) (h : payReferrer i r x s = .ok (u, s')) :
    Shared i r P x s.escrow s'.escrow := by
  cases hreferrer : r.referrer with
  | none =>
    obtain rfl := hnone (by rw [hreferrer]; rfl)
    simp [payReferrer, hreferrer] at h
    rw [h]
    exact .aside (List.append_nil _).symm (by simp)
  | some a =>
    simp only [payReferrer, hreferrer, onlyIf_ok] at h
    rcases h with ⟨-, h⟩ | ⟨hpos, rfl⟩
    · simp only [seq_ok, publish_ok] at h
      obtain ⟨s₁, hpay, rfl⟩ := h
      have hpaid : Shared i r P x s.escrow s₁.escrow := payOut_shared (hdst a hreferrer) hpay
      exact hpaid
    · obtain rfl : x = 0 := by omega
      exact .aside (List.append_nil _).symm (by simp)

theorem releaseCollateral_shared {log : ℤ → List Event}
    (h : releaseCollateral i r a log s = .ok (u, s')) : Shared i r P 0 s.escrow s'.escrow := by
  simp only [releaseCollateral, onlyIf_ok] at h
  rcases h with ⟨-, h⟩ | ⟨-, rfl⟩
  · simp only [load_bind_ok] at h
    cases hheld : s.swapCollateral i with
    | none =>
      simp [hheld] at h
      rw [h]
      exact .aside (List.append_nil _).symm (by simp)
    | some collateral =>
      simp [hheld, payOut, forgetCollateral] at h
      obtain ⟨-, rfl⟩ := h
      have e : (s.transferred ⟨r.token, currentContractAddress, a, collateral, .collateral i⟩
        ).transfers = s.transfers ++
          [⟨r.token, currentContractAddress, a, collateral, .collateral i⟩] := rfl
      exact .aside e (by simp)
  · exact .aside (List.append_nil _).symm (by simp)

end Shared

section Exact

variable {env : Env} {s s' : State} {c c' : Escrow} {u : Unit} {i : ℕ} {r r' : SwapRecord}
  {q : SwapStatus} {caller : Address} {secret blindingFactor : BytesN 32} {w : Warrant}

theorem holder_treasury : r.Shareholder q protocolConfig.treasury := .inl rfl

theorem holder_seller : r.Shareholder .completed r.seller := .inr (.inl rfl)

theorem holder_referrer {a : Address} (h : r.referrer = some a) : r.Shareholder .completed a :=
  .inr (.inr h)

theorem holder_buyer (hq : q ≠ .completed) : r.Shareholder q r.buyer := by
  refine .inr ?_
  rw [if_neg hq]

theorem Shared.apportioned {times : ℕ} (hr : s.swap i = some r) (hr' : s'.swap i = some r')
    (hq : r'.status = q)
    (h : Shared i r (r.Shareholder q) (times * r.price) s.escrow s'.escrow) :
    Apportioned i times s s' := by
  obtain ⟨ms, hms, hpaid⟩ := h
  have hnew : newTransfers s s' = ms := by
    rw [newTransfers, show s'.transfers = s.transfers ++ ms from hms, List.drop_left]
  refine ⟨r, r', hr, hr', ?_⟩
  rw [hnew, hq]
  exact hpaid

theorem released_swap (hstep : Step env c (.released i w) c') (hr : c.swap i = some r) :
    c'.swap i = some (r.withStatus .completed) := by
  cases hstep with
  | @released _ r₁ _ _ hr₁ =>
    obtain rfl := Option.some.inj (hr.symm.trans hr₁)
    exact update_self i _ c.swap

theorem refunded_swap (hstep : Step env c (.refunded i w) c') (hr : c.swap i = some r) :
    c'.swap i = some (r.withStatus .cancelled) := by
  cases hstep with
  | @refunded _ r₁ _ _ hr₁ =>
    obtain rfl := Option.some.inj (hr.symm.trans hr₁)
    exact update_self i _ c.swap

theorem rolledBack_swap (hstep : Step env c (.rolledBack i) c') (hr : c.swap i = some r) :
    c'.swap i = some (r.withStatus .rolledBack) := by
  cases hstep with
  | @rolledBack _ r₁ _ _ hr₁ =>
    obtain rfl := Option.some.inj (hr.symm.trans hr₁)
    exact update_self i _ c.swap

theorem shares_sum (price fee referral : ℤ) :
    fee + referral + (price - fee - referral) + 0 = (1 : ℕ) * price := by
  push_cast
  ring

theorem revealKey_shares (h : revealKey env i caller secret blindingFactor s = .ok (u, s')) :
    Apportioned i 1 s s' := by
  have hstep := revealKey_step h
  obtain ⟨r, hr, -, fee, referral, hfee, hreferral, hnone, s₁, s₂, s₃, s₄, s₅, s₆, e₁, htreasury,
    e₃, hreferrer, hseller, hcollateral, e₇⟩ := revealKey_pays h
  have h₁ := payTreasury_shared (P := r.Shareholder .completed) holder_treasury hfee htreasury
  have h₂ := payReferrer_shared (fun _ => holder_referrer) hreferral hnone hreferrer
  have h₃ := payOut_shared holder_seller hseller
  rw [e₃] at h₂
  have hall := ((h₁.trans h₂).trans h₃).trans (releaseCollateral_shared hcollateral)
  rw [shares_sum] at hall
  refine (hall.between ?_ ?_).apportioned hr (released_swap hstep hr) rfl
  · rw [e₁]
    rfl
  · rw [e₇]

theorem rest_sum (price fee : ℤ) : fee + (price - fee) + 0 = (1 : ℕ) * price := by
  push_cast
  ring

theorem refundPrice_shares (hq : q ≠ .completed) (h : refundPrice i r s = .ok (u, s')) :
    Shared i r (r.Shareholder q) ((1 : ℕ) * r.price) s.escrow s'.escrow := by
  rw [Nat.cast_one, one_mul]
  exact payOut_shared (holder_buyer hq) h

theorem verifyAndCompleteSwap_shares
    (h : verifyAndCompleteSwap env i caller secret blindingFactor s = .ok (u, s')) :
    Apportioned i 1 s s' := by
  simp [verifyAndCompleteSwap] at h
  obtain ⟨r, hr, rfl, hauth, hfrom, ⟨hkey, h⟩ | ⟨hkey, h⟩⟩ := h
  · have hstep := refundInvalidKey_step hr hfrom hauth h
    simp [refundInvalidKey] at h
    obtain ⟨s₁, hrefund, s₂, hcollateral, s₃, hclose, rfl⟩ := h
    have hall := (refundPrice_shares (q := .cancelled) (by simp) hrefund).trans
      (releaseCollateral_shared hcollateral)
    rw [add_zero] at hall
    refine (hall.between rfl ?_).apportioned hr (refunded_swap hstep hr) rfl
    rw [State.escrow_published, closeSwap_escrow hclose]
    rfl
  · have hstep := completeVerified_step (k := ⟨secret, blindingFactor⟩) hr hfrom hauth hkey h
    simp [completeVerified] at h
    obtain ⟨s₁, hclose, fee, s₂, hfee, -, s₃, hseller, s₄, htreasury, s₅, hcollateral, rfl⟩ := h
    obtain ⟨hfee₀, rfl⟩ := protocolFee_ok hfee
    have hall := ((payOut_shared holder_seller hseller).trans
      (payTreasury_shared holder_treasury hfee₀ htreasury)).trans
      (releaseCollateral_shared hcollateral)
    rw [add_comm (r.price - fee), rest_sum] at hall
    refine (hall.between ?_ ?_).apportioned hr (released_swap hstep hr) rfl
    · rw [closeSwap_escrow hclose]
      rfl
    · rw [State.escrow_published]

theorem resolveDispute_shares {refunded : Bool}
    (h : resolveDispute env i caller refunded s = .ok (u, s')) : Apportioned i 1 s s' := by
  have hstep := resolveDispute_step h
  simp [resolveDispute] at h
  obtain ⟨hauth, hadmin, r, hr, hfrom, ⟨rfl, s₁, h, rfl⟩ | ⟨rfl, s₁, h, rfl⟩⟩ := h
  · simp [ruleForBuyer] at h
    obtain ⟨s₂, hclose, s₃, hrefund, hreason⟩ := h
    have hall := refundPrice_shares (q := .cancelled) (by simp) hrefund
    refine (hall.between ?_ ?_).apportioned hr (refunded_swap hstep hr) rfl
    · rw [closeSwap_escrow hclose]
      rfl
    · rw [State.escrow_published, setCancelReason_escrow hreason]
  · simp [ruleForSeller] at h
    obtain ⟨s₂, hclose, fee, s₃, hfee, -, s₄, htreasury, hseller⟩ := h
    obtain ⟨rfl, rfl⟩ := rulingFee_ok hfee
    have hfee₀ := rulingFee_nonneg (transfer_ok.mp hseller).1.1
    have hall := (payTreasury_shared (P := r.Shareholder .completed) holder_treasury hfee₀
      htreasury).trans (payOut_shared holder_seller hseller)
    rw [← add_zero (_ + _), rest_sum] at hall
    refine (hall.between ?_ ?_).apportioned hr (released_swap hstep hr) rfl
    · rw [closeSwap_escrow hclose]
      rfl
    · rw [State.escrow_published]

theorem validateAndRollbackSwap_shares {rolledBack : Bool}
    (hpos : ∀ r, s.swap i = some r → 0 < r.price)
    (h : validateAndRollbackSwap env i false s = .ok (rolledBack, s')) : Apportioned i 1 s s' := by
  have hstep := validateAndRollbackSwap_step h
  simp [validateAndRollbackSwap, rollBackCompleted] at h
  obtain ⟨r, hr, -, -, -, ⟨-, -, s₁, hbuyer, s₂, htreasury, s₃, hhistory, rfl⟩, -⟩ := h
  have hrefund : (r.price * 90).tdiv 100 ≤ r.price := by
    have hprice := hpos r hr
    rw [Int.tdiv_eq_ediv_of_nonneg (by omega)]
    omega
  have hall := (payOut_shared (P := r.Shareholder .rolledBack) (holder_buyer (by simp))
      hbuyer).trans
    (payTreasury_shared holder_treasury (by omega) htreasury)
  rw [← add_zero (_ + _), rest_sum] at hall
  refine (hall.between rfl ?_).apportioned hr (rolledBack_swap hstep hr) rfl
  rw [State.escrow_published, appendHistory_escrow hhistory]
  rfl

theorem completeRevealed_shares {fees : SwapFeeBreakdown} (hr : s.swap i = some r)
    (h : completeRevealed env i s = .ok (fees, s')) :
    Shared i r (r.Shareholder .completed) r.price s.escrow s'.escrow := by
  obtain ⟨fee, referral, hfee, hreferral, hnone, s₁, s₂, s₃, s₄, s₅, e₁, hseller, htreasury,
    hreferrer, hcollateral, e₆⟩ := completeRevealed_pays hr h
  have h₁ := payOut_shared (P := r.Shareholder .completed) holder_seller hseller
  have h₂ := payTreasury_shared (P := r.Shareholder .completed) holder_treasury hfee htreasury
  have h₃ := payReferrer_shared (fun _ => holder_referrer) hreferral hnone hreferrer
  have hall := (h₁.trans (h₂.trans h₃)).trans (releaseCollateral_shared hcollateral)
  rw [add_comm (r.price - fee - referral), shares_sum, Nat.cast_one, one_mul] at hall
  refine hall.between ?_ ?_
  · rw [e₁]
    rfl
  · rw [e₆]

theorem completeRevealed_pass {j : ℕ} {fees : SwapFeeBreakdown}
    (hr : s.swap i = some (r.withStatus q)) (h : completeRevealed env j s = .ok (fees, s')) :
    s'.swap i = some (r.withStatus (if j = i then .completed else q)) ∧
      Shared i r (r.Shareholder .completed) (if j = i then r.price else 0) s.escrow s'.escrow := by
  obtain ⟨rj, hrj⟩ := completeRevealed_exists h
  have hswap := completeRevealed_swap hrj h
  by_cases hji : j = i
  · subst hji
    obtain rfl := Option.some.inj (hr.symm.trans hrj)
    rw [if_pos rfl, if_pos rfl, hswap]
    exact ⟨update_self j _ s.swap, (completeRevealed_shares hr h).withStatus⟩
  · obtain ⟨ms, e, hpaid, -⟩ := completeRevealed_escrow hrj h
    rw [if_neg hji, if_neg hji, hswap]
    exact ⟨by simpa [Ne.symm hji] using hr, .apart hpaid hji (congrArg Escrow.transfers e)⟩

theorem completeAll_shares {ids : List ℕ} {fees : List SwapFeeBreakdown}
    (hr : s.swap i = some (r.withStatus q))
    (h : forEach ids (completeRevealed env) s = .ok (fees, s')) :
    s'.swap i = some (r.withStatus (if i ∈ ids then .completed else q)) ∧
      Shared i r (r.Shareholder .completed) (ids.count i * r.price) s.escrow s'.escrow := by
  induction ids generalizing s q fees with
  | nil =>
    obtain ⟨-, rfl⟩ := forEach_nil_ok.mp h
    refine ⟨by simpa using hr, ?_⟩
    simpa using Shared.aside (List.append_nil _).symm (by simp)
  | cons j rest ih =>
    obtain ⟨fee, s₁, fees', hhead, htail, -⟩ := forEach_cons_ok.mp h
    obtain ⟨hr₁, hfirst⟩ := completeRevealed_pass hr hhead
    obtain ⟨hr', hrest⟩ := ih hr₁ htail
    have hall := hfirst.trans hrest
    by_cases hji : j = i
    · subst hji
      refine ⟨by simpa using hr', ?_⟩
      rw [List.count_cons_self, Nat.cast_add, Nat.cast_one, add_mul, one_mul, add_comm]
      simpa using hall
    · refine ⟨by simpa [hji, Ne.symm hji] using hr', ?_⟩
      rw [List.count_cons_of_ne hji]
      simpa [hji] using hall

theorem batchRevealKeys_shares {ids : List ℕ} {secrets blindingFactors : List (BytesN 32)}
    (hi : i ∈ ids) (h : batchRevealKeys env ids secrets blindingFactors caller s = .ok (u, s')) :
    Apportioned i (ids.count i) s s' := by
  simp [batchRevealKeys] at h
  obtain ⟨-, -, -, -, _, s₁, hvalid, fees, s₂, hreveal, rfl⟩ := h
  obtain ⟨rfl, hall⟩ := forEach₂_checks_mem (fun _ _ _ _ _ => validateReveal_ok) hvalid
  obtain ⟨k, -, r, hr, -⟩ := hall i hi
  obtain ⟨hr', hshares⟩ := completeAll_shares (r := r) (q := r.status) hr hreveal
  rw [if_pos hi] at hr'
  exact (hshares.between rfl rfl).apportioned hr hr' rfl

end Exact

section Overflows

variable {s : State} {i : ℕ} {r : SwapRecord} {a : Address} {x : ℤ}

theorem not_fits (hout : ¬ x ≤ i128Max) : ¬ FitsI128 x := fun hfits => hout hfits.2

theorem bpsOf_overflows {bps : ℕ} (hbps : 0 < bps) (hpos : 0 < x) (hout : ¬ x * bps ≤ i128Max) :
    bpsOf bps x s = .error .overflow := by
  rw [bpsOf, if_pos ⟨hbps, hpos⟩]
  exact bind_of_error (i128_overflows (not_fits hout))

/-- The caller has authorised the call, and the registry takes any key. -/
def Env.lenient (caller : Address) (timestamp : ℕ) : Env where
  timestamp := timestamp
  auths := [caller]
  registry _ := ⟨fun _ => none, fun _ _ _ => some true⟩
  oracle _ _ := none

theorem Env.lenient_auths {timestamp : ℕ} : (Env.lenient a timestamp).auths = [a] := rfl

theorem verifyAndCompleteSwap_overflows (hr : s.swap i = some r) (hfrom : r.status = .accepted)
    (hregistry : s.ipRegistry = some a) (hpos : 0 < r.price)
    (hout : ¬ r.price * protocolConfig.protocolFeeBps ≤ i128Max) (secret : BytesN 32) :
    verifyAndCompleteSwap (.lenient r.seller 0) i r.seller secret secret s = .error .overflow := by
  have h₁ : requireSwapExists i s = .ok (r, s) := requireSwapExists_ok.mpr ⟨hr, rfl⟩
  have h₂ : requireSeller r.seller r s = .ok ((), s) := requireSeller_ok.mpr ⟨rfl, rfl⟩
  have h₃ : (requireAuth [r.seller] r.seller : SwapTx Unit) s = .ok ((), s) :=
    requireAuth_ok.mpr ⟨by simp, rfl⟩
  have h₄ : requireSwapStatus r .accepted .notAccepted s = .ok ((), s) :=
    requireSwapStatus_ok.mpr ⟨hfrom, rfl⟩
  have h₅ : verifyCommitment (Env.lenient r.seller 0) r.ipId secret secret s = .ok (true, s) :=
    verifyCommitment_ok.mpr ⟨⟨a, hregistry, rfl⟩, rfl⟩
  rw [verifyAndCompleteSwap, bind_of_ok h₁, bind_of_ok h₂, Env.lenient_auths, bind_of_ok h₃,
    bind_of_ok h₄, bind_of_ok h₅, if_neg (by simp), completeVerified]
  refine (bind_of_ok rfl).trans (bind_of_error ?_)
  exact bpsOf_overflows (by decide) hpos hout

theorem resolveDispute_overflows (hr : s.swap i = some r) (hfrom : r.status = .disputed)
    (hadmin : s.admin = some a) (hout : ¬ r.price * protocolConfig.protocolFeeBps ≤ i128Max) :
    resolveDispute (.lenient a 0) i a false s = .error .overflow := by
  have h₁ : (requireAuth [a] a : SwapTx Unit) s = .ok ((), s) :=
    requireAuth_ok.mpr ⟨by simp, rfl⟩
  have h₂ : requireAdmin a s = .ok ((), s) := requireAdmin_ok.mpr ⟨hadmin, rfl⟩
  have h₃ : requireSwapExists i s = .ok (r, s) := requireSwapExists_ok.mpr ⟨hr, rfl⟩
  have h₄ : requireSwapStatus r .disputed .notDisputed s = .ok ((), s) :=
    requireSwapStatus_ok.mpr ⟨hfrom, rfl⟩
  rw [resolveDispute, Env.lenient_auths, bind_of_ok h₁, bind_of_ok h₂, bind_of_ok h₃,
    bind_of_ok h₄, if_neg (by simp)]
  refine bind_of_error ((bind_of_ok rfl).trans (bind_of_error ?_))
  rw [rulingFee, if_pos (by decide)]
  exact bind_of_error (i128_overflows (not_fits hout))

theorem validateAndRollbackSwap_overflows (hr : s.swap i = some r) (hfrom : r.status = .completed)
    (hout : ¬ r.price * 90 ≤ i128Max) :
    validateAndRollbackSwap (.lenient r.buyer ((s.completionTimestamp i).getD 0)) i false s =
      .error .overflow := by
  have h₁ : requireSwapExists i s = .ok (r, s) := requireSwapExists_ok.mpr ⟨hr, rfl⟩
  have h₂ : (requireAuth [r.buyer] r.buyer : SwapTx Unit) s = .ok ((), s) :=
    requireAuth_ok.mpr ⟨by simp, rfl⟩
  have h₃ : requireSwapStatus r .completed .notInAccepted s = .ok ((), s) :=
    requireSwapStatus_ok.mpr ⟨hfrom, rfl⟩
  rw [validateAndRollbackSwap, bind_of_ok h₁, Env.lenient_auths, bind_of_ok h₂, bind_of_ok h₃,
    load_bind]
  refine (bind_of_ok (a := ()) (require_ok.mpr ⟨by simp [Env.lenient], rfl⟩)).trans
    (bind_of_error ?_)
  rw [onlyIf, if_pos rfl]
  exact bind_of_error (i128_overflows (not_fits hout))

end Overflows

section Totals

variable {env : Env} {s s' : State} {call : Call} {i : ℕ} {tr : List (Act × State)}
  {balance : Address → Address → ℤ}

theorem Affordable.fits (h : Affordable s) (hpos : ∀ i r, s.swap i = some r → 0 < r.price)
    (hcall : call.distributes ≠ []) : AbortsWith NoOverflow s (exec env call) := by
  have haccepted : ∀ i r, s.swap i = some r → r.status = .accepted → r.Feasible :=
    fun i r hr hfrom => ⟨hpos i r hr, h.accepted i r hr hfrom⟩
  cases call with
  | revealKey i => exact revealKey_fits (haccepted i)
  | verifyAndCompleteSwap i => exact verifyAndCompleteSwap_fits (haccepted i)
  | batchRevealKeys => exact batchRevealKeys_fits haccepted
  | resolveDispute i =>
    exact resolveDispute_fits fun r hr hfrom hadmin => ⟨hpos i r hr, h.disputed i r hr hfrom hadmin⟩
  | validateAndRollbackSwap i =>
    exact .bind (validateAndRollbackSwap_fits fun r hr hfrom =>
      ⟨hpos i r hr, h.completed i r hr hfrom⟩) fun _ _ _ => .of_ok rfl
  | _ => exact absurd rfl hcall

theorem exec_apportions (hpos : ∀ i r, s.swap i = some r → 0 < r.price)
    (h : exec env call s = .ok ((), s')) (hi : i ∈ call.distributes) :
    Apportioned i (call.distributes.count i) s s' := by
  cases call with
  | revealKey j =>
    obtain rfl := List.mem_singleton.mp hi
    simpa [Call.distributes] using revealKey_shares h
  | verifyAndCompleteSwap j =>
    obtain rfl := List.mem_singleton.mp hi
    simpa [Call.distributes] using verifyAndCompleteSwap_shares h
  | batchRevealKeys => exact batchRevealKeys_shares hi h
  | resolveDispute j =>
    obtain rfl := List.mem_singleton.mp hi
    simpa [Call.distributes] using resolveDispute_shares h
  | validateAndRollbackSwap j isKeyValid =>
    obtain ⟨rolledBack, h⟩ := void_ok.mp h
    cases isKeyValid with
    | true => simp [Call.distributes] at hi
    | false =>
      obtain rfl : i = j := by simpa [Call.distributes] using hi
      simpa [Call.distributes] using validateAndRollbackSwap_shares (hpos i) h
  | _ => cases hi

/-- In every state of a run, all calls that hand out a price do so exactly and without leaving the
integers of the host, if and only if the products they compute fit. -/
theorem shares_exact_iff (hrun : Run ActStep (State.empty balance) tr s) :
    (∀ env call, call.distributes ≠ [] → ExactShares env call s) ↔ Affordable s := by
  have hpos : ∀ i r, s.swap i = some r → 0 < r.price :=
    fun i r hr => ((ran_wf hrun).stored i r hr).2.price
  constructor
  · intro hall
    refine ⟨fun i r hr hfrom => ?_, fun i r hr hfrom hadmin => ?_, fun i r hr hfrom => ?_⟩
    · by_contra hout
      obtain ⟨a, hregistry⟩ := registry_named hrun hr
      exact (hall _ (.verifyAndCompleteSwap i r.seller (.zero 32) (.zero 32))
        (by simp [Call.distributes])).fits
          (verifyAndCompleteSwap_overflows hr hfrom hregistry (hpos i r hr) hout (.zero 32))
    · by_contra hout
      obtain ⟨a, ha⟩ := Option.isSome_iff_exists.mp hadmin
      exact (hall _ (.resolveDispute i a false) (by simp [Call.distributes])).fits
        (resolveDispute_overflows hr hfrom ha hout)
    · by_contra hout
      exact (hall _ (.validateAndRollbackSwap i false) (by simp [Call.distributes])).fits
        (bind_of_error (validateAndRollbackSwap_overflows hr hfrom hout))
  · intro h env call hcall
    refine ⟨fun herror => h.fits hpos hcall _ herror rfl, ?_⟩
    intro s' hexec i hi
    exact exec_apportions hpos hexec hi

end Totals

section Sales

open Scenario

def hoard : Address → Address → ℤ := fun _ a => if a = buyer then i128Max else 0

theorem cheap_sale_exact : ∃ tr s, Run ActStep (State.empty funds) tr s ∧
    ExactShares (env [seller] 3) (.revealKey 0 seller secret secret) s := by
  have hcalls : ∃ s₁ s₂ s₃ r,
      exec (env [] 0) (.initializeContract registry) (State.empty funds) = .ok ((), s₁) ∧
      exec (env [seller] 1) (.initiateSwap token 1 seller 1000 buyer 0 (some stranger) 0 false) s₁ =
        .ok ((), s₂) ∧
      exec (env [buyer] 2) (.acceptSwap 0) s₂ = .ok ((), s₃) ∧ s₃.swap 0 = some r ∧
      r.price = 1000 ∧ s₃.escrow.count = 1 := ⟨_, _, _, _, rfl, rfl, rfl, rfl, rfl, rfl⟩
  obtain ⟨s₁, s₂, s₃, r, h₁, h₂, h₃, hr, hprice, hcount⟩ := hcalls
  have hrun := ((Run.start.next (ActStep.call h₁)).next (ActStep.call h₂)).next (ActStep.call h₃)
  have hlow : ∀ i r', s₃.swap i = some r' → r'.price = 1000 := by
    intro i r' hr'
    have hi := ((ran_wf hrun).stored i r' hr').1
    obtain rfl : i = 0 := by omega
    rw [← hprice, Option.some.inj (hr'.symm.trans hr)]
  have hfee : (1000 : ℤ) * protocolConfig.protocolFeeBps ≤ i128Max := by decide
  refine ⟨_, s₃, hrun, (shares_exact_iff hrun).mpr ?_ _ _ (by simp [Call.distributes])⟩
  exact ⟨fun i r' hr' _ => hlow i r' hr' ▸ hfee, fun i r' hr' _ _ => hlow i r' hr' ▸ hfee,
    fun i r' hr' _ => hlow i r' hr' ▸ by decide⟩

theorem dear_sale_stuck : ∃ tr s r, Run ActStep (State.empty hoard) tr s ∧ s.swap 0 = some r ∧
    r.status = .accepted ∧ r.price = i128Max ∧ r.insuranceEnabled = false ∧ r.referrer = none ∧
    exec (env [seller] 3) (.revealKey 0 seller secret secret) s = .error .overflow ∧
    exec (env [seller] 3) (.verifyAndCompleteSwap 0 seller secret secret) s = .error .overflow ∧
    exec (env [seller] 3) (.batchRevealKeys [0] [secret] [secret] seller) s = .error .overflow := by
  have hcalls : ∃ s₁ s₂ s₃ r,
      exec (env [] 0) (.initializeContract registry) (State.empty hoard) = .ok ((), s₁) ∧
      exec (env [seller] 1) (.initiateSwap token 1 seller i128Max buyer 0 none 0 false) s₁ =
        .ok ((), s₂) ∧
      exec (env [buyer] 2) (.acceptSwap 0) s₂ = .ok ((), s₃) ∧ s₃.swap 0 = some r ∧
      r.status = .accepted ∧ r.price = i128Max ∧ r.insuranceEnabled = false ∧ r.referrer = none ∧
      exec (env [seller] 3) (.revealKey 0 seller secret secret) s₃ = .error .overflow ∧
      exec (env [seller] 3) (.verifyAndCompleteSwap 0 seller secret secret) s₃ = .error .overflow ∧
      exec (env [seller] 3) (.batchRevealKeys [0] [secret] [secret] seller) s₃ = .error .overflow :=
    ⟨_, _, _, _, rfl, rfl, rfl, rfl, rfl, rfl, rfl, rfl, rfl, rfl, rfl⟩
  obtain ⟨s₁, s₂, s₃, r, h₁, h₂, h₃, hr⟩ := hcalls
  exact ⟨_, s₃, r, ((Run.start.next (ActStep.call h₁)).next (ActStep.call h₂)).next
    (ActStep.call h₃), hr⟩

end Sales

end AtomicIp.AtomicSwap
