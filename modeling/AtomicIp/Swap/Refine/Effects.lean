import AtomicIp.Swap.Moves
import Mathlib.Tactic.Positivity

set_option autoImplicit false

namespace AtomicIp.AtomicSwap

open Function

variable {env : Env} {s s' : State} {u : Unit} {i : ℕ} {r : SwapRecord}

section Bookkeeping

@[simp] theorem saveSwap_ok : saveSwap i r s = .ok (u, s') ↔ s' = s.setSwap i (some r) :=
  Tx.store_ok

theorem appendHistory_escrow {status : SwapStatus}
    (h : appendHistory env i status s = .ok (u, s')) : s'.escrow = s.escrow := by
  rw [Tx.store_ok.mp h]; rfl

theorem updateReputation_escrow {a : Address} {delta : ℤ}
    (h : updateReputation a delta s = .ok (u, s')) : s'.escrow = s.escrow := by
  rw [Tx.store_ok.mp h]; rfl

theorem setCancelReason_escrow {reason : Bytes}
    (h : setCancelReason i reason s = .ok (u, s')) : s'.escrow = s.escrow := by
  rw [Tx.store_ok.mp h]; rfl

theorem appendIpSwap_escrow {ipId : ℕ} (h : appendIpSwap ipId i s = .ok (u, s')) :
    s'.escrow = s.escrow := by
  rw [Tx.store_ok.mp h]; rfl

theorem appendSwapForParty_escrow {seller buyer : Address}
    (h : appendSwapForParty seller buyer i s = .ok (u, s')) : s'.escrow = s.escrow := by
  simp only [appendSwapForParty, Tx.store_bind_ok, Tx.store_ok] at h
  rw [h]; rfl

end Bookkeeping

section Funding

@[simp] theorem requireEscrowMode_ok : requireEscrowMode i s = .ok (u, s') ↔
    s.swapMode i = some .escrow ∧ s' = s := by
  simp [requireEscrowMode, Option.getD_eq_iff]

theorem depositCollateral_escrow (h : depositCollateral i r s = .ok (u, s')) :
    ∃ deposits : Bool, (deposits = true ↔ 0 < r.collateralAmount) ∧
      (deposits = true → s.escrow.swapCollateral i = none) ∧
      (∀ m ∈ depositOf i r deposits, 0 ≤ m.amount) ∧
      s'.escrow = (s.escrow.lockCollateral deposits i r).pay (depositOf i r deposits) := by
  simp only [depositCollateral, Tx.onlyIf_ok] at h
  rcases h with ⟨hpos, h⟩ | ⟨hnone, rfl⟩
  · simp [lockCollateral] at h
    obtain ⟨hnone, hamount, rfl⟩ := h
    exact ⟨true, by simp [hpos], fun _ => hnone, by simp [depositOf, hamount], rfl⟩
  · exact ⟨false, by simpa using hnone, by simp, by simp, by simp⟩

theorem depositCollateralOnce_escrow (h : depositCollateralOnce i r s = .ok (u, s')) :
    ∃ deposits : Bool,
      (deposits = true ↔ 0 < r.collateralAmount ∧ s.escrow.swapCollateral i = none) ∧
      (∀ m ∈ depositOf i r deposits, 0 ≤ m.amount) ∧
      s'.escrow = (s.escrow.lockCollateral deposits i r).pay (depositOf i r deposits) := by
  simp only [depositCollateralOnce, Tx.onlyIf_ok] at h
  rcases h with ⟨hpos, h⟩ | ⟨hnone, rfl⟩
  · simp [lockCollateral] at h
    rcases h with ⟨hnone, hamount, rfl⟩ | ⟨hheld, rfl⟩
    · exact ⟨true, by simp [hpos, hnone], by simp [depositOf, hamount], rfl⟩
    · exact ⟨false, by simp [hheld], by simp, by simp⟩
  · exact ⟨false, by simp [hnone], by simp, by simp⟩

theorem collectPremium_escrow (h : collectPremium i r s = .ok (u, s')) :
    ∃ premium : Bool, (premium = true ↔ r.insuranceEnabled = true ∧ 0 < r.insurancePremium) ∧
      (∀ m ∈ premiumOf i r premium, 0 ≤ m.amount) ∧
      s'.escrow = (s.escrow.collectPremium premium r).pay (premiumOf i r premium) := by
  simp only [collectPremium, Tx.onlyIf_ok] at h
  rcases h with ⟨hasks, h⟩ | ⟨hasks, rfl⟩
  · simp at h
    obtain ⟨hamount, -, rfl⟩ := h
    exact ⟨true, by simp [hasks], by simp [premiumOf, hamount], rfl⟩
  · exact ⟨false, by simpa using hasks, by simp, by simp⟩

theorem markAccepted_escrow (h : markAccepted env i r s = .ok (u, s')) :
    s'.escrow = s.escrow.setSwap i (some (r.acceptedAt env.timestamp)) := by
  simp [markAccepted] at h
  simp [appendHistory_escrow h]

theorem funding_nonneg {price : ℤ} {deposits premium : Bool}
    (hdeposit : ∀ m ∈ depositOf i r deposits, 0 ≤ m.amount) (hprice : 0 ≤ price)
    (hpremium : ∀ m ∈ premiumOf i r premium, 0 ≤ m.amount) :
    ∀ m ∈ funding i r price deposits premium, 0 ≤ m.amount := by
  intro m hm
  simp only [funding, List.mem_append, List.mem_cons] at hm
  rcases hm with hm | rfl | hm
  · exact hdeposit m hm
  · exact hprice
  · exact hpremium m hm

end Funding

section Payouts

variable {P : Address → Prop} {a : Address} {x y : ℤ} {ms ns : List TokenTransfer}

namespace PaidFor

theorem nil : PaidFor i r P 0 [] := ⟨by simp, by simp, by simp⟩

theorem append (h₁ : PaidFor i r P x ms) (h₂ : PaidFor i r P y ns) :
    PaidFor i r P (x + y) (ms ++ ns) where
  escrowed m hm := (List.mem_append.mp hm).elim (h₁.escrowed m) (h₂.escrowed m)
  recipient m hm := (List.mem_append.mp hm).elim (h₁.recipient m) (h₂.recipient m)
  total := by simp [h₁.total, h₂.total]

theorem single {purpose : Purpose} (hdst : P a) (hpos : 0 ≤ x)
    (hp : purpose.swap? = some i) :
    PaidFor i r P x [⟨r.token, currentContractAddress, a, x, purpose⟩] where
  escrowed := by simp [hpos, hp]
  recipient := by simpa using hdst
  total := by simp

theorem mono {Q : Address → Prop} (h : PaidFor i r P x ms)
    (hle : ∀ a, P a → Q a) : PaidFor i r Q x ms :=
  ⟨h.escrowed, fun m hm => hle _ (h.recipient m hm), h.total⟩

end PaidFor

theorem payOut_escrow {purpose : Purpose} (hp : purpose.swap? = some i) (hdst : P a)
    (h : payOut r a x purpose s = .ok (u, s')) :
    ∃ ms, s'.escrow = s.escrow.pay ms ∧ PaidFor i r P x ms := by
  obtain ⟨hpos, rfl⟩ := transfer_ok.mp h
  exact ⟨_, rfl, .single hdst hpos.1 hp⟩

theorem payTreasury_escrow (hdst : P protocolConfig.treasury)
    (h : payTreasury i r x s = .ok (u, s')) :
    ∃ ms, s'.escrow = s.escrow.pay ms ∧ PaidFor i r P (max 0 x) ms := by
  rcases Tx.onlyIf_ok.mp h with ⟨hpos, h⟩ | ⟨hneg, rfl⟩
  · rw [max_eq_right hpos.le]
    exact payOut_escrow rfl hdst h
  · rw [max_eq_left (not_lt.mp hneg)]
    exact ⟨[], by simp, .nil⟩

theorem payReferrer_escrow (hdst : ∀ a, r.referrer = some a → P a)
    (h : payReferrer i r x s = .ok (u, s')) :
    ∃ ms, s'.escrow = s.escrow.pay ms ∧
      PaidFor i r P (if r.referrer.isSome then max 0 x else 0) ms := by
  cases hreferrer : r.referrer with
  | none =>
    simp [payReferrer, hreferrer] at h
    exact ⟨[], by simp [h], .nil⟩
  | some a =>
    simp only [payReferrer, hreferrer, Tx.onlyIf_ok] at h
    simp only [Option.isSome_some, if_true]
    rcases h with ⟨hpos, h⟩ | ⟨hneg, rfl⟩
    · rw [max_eq_right hpos.le]
      simp only [Tx.seq_ok, publish_ok] at h
      obtain ⟨s₁, hpay, rfl⟩ := h
      obtain ⟨ms, e, hpaid⟩ := payOut_escrow rfl (hdst a hreferrer) hpay
      exact ⟨ms, by simpa using e, hpaid⟩
    · rw [max_eq_left (not_lt.mp hneg)]
      exact ⟨[], by simp, .nil⟩

theorem releaseCollateral_escrow {log : ℤ → List Event} (hdst : P a)
    (hparty : a = r.buyer ∨ a = r.seller) (h : releaseCollateral i r a log s = .ok (u, s')) :
    ∃ ms, s'.escrow = (s.escrow.release i (s.escrow.heldFor i r)).pay ms ∧
      PaidFor i r P ((s.escrow.heldFor i r).getD 0) ms ∧
      Returned i r (s.escrow.heldFor i r) ms := by
  simp only [releaseCollateral, Tx.onlyIf_ok] at h
  rcases h with ⟨hpos, h⟩ | ⟨hneg, rfl⟩
  · simp only [Tx.load_bind_ok, State.swapCollateral_escrow] at h
    simp only [Escrow.heldFor, hpos, if_true]
    cases hheld : s.escrow.swapCollateral i with
    | none =>
      simp [hheld] at h
      exact ⟨[], by simp [h], .nil, .none⟩
    | some collateral =>
      simp [hheld, payOut, forgetCollateral] at h
      obtain ⟨hamount, rfl⟩ := h
      refine ⟨_, rfl, .single hdst hamount.1 rfl, ?_⟩
      intro amount e
      obtain rfl := Option.some.inj e
      exact ⟨a, hparty, by simp⟩
  · simp only [Escrow.heldFor, hneg, if_false]
    exact ⟨[], by simp, .nil, .none⟩

theorem closeSwap_escrow {status : SwapStatus} (h : closeSwap i r status s = .ok (u, s')) :
    s'.escrow = s.escrow.close i r status := by
  simp [closeSwap, removeActiveSwap] at h
  rw [h]; rfl

end Payouts

section Fees

theorem bpsOf_ok {bps : ℕ} {price fee : ℤ} (h : bpsOf bps price s = .ok (fee, s')) :
    0 ≤ fee ∧ s' = s := by
  simp only [bpsOf, Tx.ite_ok] at h
  rcases h with ⟨⟨-, hpos⟩, h⟩ | ⟨-, h⟩
  · simp at h
    obtain ⟨⟨-, hs⟩, rfl⟩ := h
    refine ⟨Int.tdiv_nonneg ?_ (by decide), hs⟩
    positivity
  · simp at h
    exact ⟨h.1.ge, h.2⟩

theorem protocolFee_ok {fee : ℤ} (h : protocolFee r s = .ok (fee, s')) :
    0 ≤ fee ∧ s' = s := bpsOf_ok h

theorem referralFee_ok {fee : ℤ} (h : referralFee r s = .ok (fee, s')) :
    0 ≤ fee ∧ (r.referrer.isSome = false → fee = 0) ∧ s' = s := by
  simp only [referralFee, Tx.ite_ok] at h
  rcases h with ⟨hsome, h⟩ | ⟨hnone, h⟩
  · have hfee := bpsOf_ok h
    exact ⟨hfee.1, by simp [hsome], hfee.2⟩
  · simp at h
    exact ⟨h.1.ge, fun _ => h.1, h.2⟩

theorem rulingFee_ok {fee : ℤ} (h : rulingFee r s = .ok (fee, s')) :
    fee = (r.price * 250).tdiv 10000 ∧ s' = s := by
  simp [rulingFee, protocolConfig] at h
  exact ⟨h.2, h.1.2⟩

theorem rulingFee_nonneg {price : ℤ} (h : 0 ≤ price - (price * 250).tdiv 10000) :
    0 ≤ (price * 250).tdiv 10000 := by
  rcases lt_or_ge price 0 with hneg | hpos
  · have hflip : (price * 250).tdiv 10000 = -((-price * 250).tdiv 10000) := by
      rw [neg_mul, Int.neg_tdiv, neg_neg]
    have hsmall : (-price * 250).tdiv 10000 < -price := by
      rw [Int.tdiv_eq_ediv_of_nonneg (by omega)]
      omega
    omega
  · exact Int.tdiv_nonneg (by omega) (by decide)

end Fees

end AtomicIp.AtomicSwap
