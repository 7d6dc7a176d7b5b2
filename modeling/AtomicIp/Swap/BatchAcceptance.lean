import AtomicIp.Swap.Batches
import AtomicIp.Swap.Frames
import AtomicIp.Swap.WaysOut

/-!
The batch of acceptances against the loop of single ones. It looks at neither the conditions nor
the reputation nor, a second time, at the status.
-/

set_option autoImplicit false

namespace AtomicIp.AtomicSwap

open Function Tx

section Bills

def once : List ℕ → (ℕ → ℤ) → ℤ
  | [], _ => 0
  | i :: ids, f => f i + once ids (update f i 0)

def SwapRecord.premiumDue (r : SwapRecord) : ℤ :=
  if r.insuranceEnabled = true ∧ 0 < r.insurancePremium then r.insurancePremium else 0

/-- An amount of the swap `i`, if it is sold for the token. -/
def State.inToken (s : State) (t : Address) (amount : SwapRecord → ℤ) (i : ℕ) : ℤ :=
  match s.swap i with
  | some r => if r.token = t then amount r else 0
  | none => 0

def State.depositDue (s : State) (t : Address) (i : ℕ) : ℤ :=
  s.inToken t (fun r => if 0 < r.collateralAmount ∧ s.swapCollateral i = none
    then r.collateralAmount else 0) i

/-- What the swaps of the list cost, each as often as it is there, and its collateral once. -/
def State.bill (s : State) (t : Address) (ids : List ℕ) : ℤ :=
  (ids.map (s.inToken t fun r => r.price + r.premiumDue)).sum + once ids (s.depositDue t)

def State.premiums (s : State) (t : Address) (ids : List ℕ) : ℤ :=
  (ids.map (s.inToken t SwapRecord.premiumDue)).sum

/-- The buyer can pay what the list costs in each token, and the pools can take the premiums. -/
structure Affords (buyer : Address) (ids : List ℕ) (s : State) : Prop where
  bill : ∀ t, s.bill t ids = 0 ∨ s.bill t ids ≤ s.balance t buyer
  pool : ∀ t, s.premiums t ids = 0 ∨ s.escrow.pool t + s.premiums t ids ≤ i128Max

variable {s s' : State} {t : Address} {i : ℕ} {ids : List ℕ} {r : SwapRecord} {f : ℕ → ℤ}
  {amount : SwapRecord → ℤ}

theorem once_nonneg (h : ∀ i, 0 ≤ f i) : 0 ≤ once ids f := by
  induction ids generalizing f with
  | nil => exact le_rfl
  | cons i ids ih =>
    refine Int.add_nonneg (h i) (ih fun j => ?_)
    by_cases hji : j = i
    · rw [hji, update_self]
    · rw [update_of_ne hji]
      exact h j

theorem SwapRecord.premiumDue_nonneg : 0 ≤ r.premiumDue := by
  unfold SwapRecord.premiumDue
  split_ifs <;> omega

theorem inToken_of_stored (hr : s.swap i = some r) :
    s.inToken t amount i = if r.token = t then amount r else 0 := by
  simp [State.inToken, hr]

def Priced (s : State) : Prop := ∀ i r, s.swap i = some r → 0 < r.price

theorem inToken_nonneg (h : ∀ r, s.swap i = some r → 0 ≤ amount r) : 0 ≤ s.inToken t amount i := by
  cases hr : s.swap i with
  | none => simp [State.inToken, hr]
  | some r =>
    have hpos := h r hr
    rw [inToken_of_stored hr]
    split_ifs <;> omega

theorem sum_inToken_nonneg (h : ∀ i r, s.swap i = some r → 0 ≤ amount r) :
    0 ≤ (ids.map (s.inToken t amount)).sum :=
  List.sum_nonneg fun x hx => by
    obtain ⟨i, -, rfl⟩ := List.mem_map.mp hx
    exact inToken_nonneg (h i)

theorem depositDue_nonneg : 0 ≤ s.depositDue t i :=
  inToken_nonneg fun r _ => by split_ifs <;> omega

theorem bill_nonneg (h : Priced s) : 0 ≤ s.bill t ids := by
  refine Int.add_nonneg (sum_inToken_nonneg fun i r hr => ?_)
    (once_nonneg fun i => depositDue_nonneg)
  have hprice := h i r hr
  have hpremium := r.premiumDue_nonneg
  omega

theorem premiums_nonneg : 0 ≤ s.premiums t ids :=
  sum_inToken_nonneg fun _ r _ => r.premiumDue_nonneg

end Bills

section Payments

variable {env : Env} {s s' : State} {t buyer : Address} {i : ℕ} {ids : List ℕ} {r : SwapRecord}
  {u : Unit}

theorem bill_one (hr : s.swap i = some r) : s.bill r.token [i] = r.price + r.premiumDue +
    if 0 < r.collateralAmount ∧ s.swapCollateral i = none then r.collateralAmount else 0 := by
  simp [State.bill, once, State.depositDue, inToken_of_stored hr]

theorem premiums_one (hr : s.swap i = some r) : s.premiums r.token [i] = r.premiumDue := by
  simp [State.premiums, inToken_of_stored hr]

theorem balance_transferred {amount : ℤ} {p : Purpose} (hbuyer : r.buyer ≠ currentContractAddress) :
    (s.transferred ⟨r.token, r.buyer, currentContractAddress, amount, p⟩).balance r.token r.buyer =
      s.balance r.token r.buyer - amount := by
  simp [State.transferred, post, Transfer.flow, hbuyer.symm, Int.sub_eq_add_neg]

def SwapRecord.deposit (r : SwapRecord) (held : Option ℤ) : ℤ :=
  if 0 < r.collateralAmount ∧ held = none then r.collateralAmount else 0

theorem depositCollateralOnce_ok : depositCollateralOnce i r s = .ok (u, s') ↔
    if 0 < r.collateralAmount ∧ s.escrow.swapCollateral i = none then
      r.collateralAmount ≤ s.balance r.token r.buyer ∧
        s' = (s.transferred ⟨r.token, r.buyer, currentContractAddress, r.collateralAmount,
          .collateral i⟩).setSwapCollateral i (some r.collateralAmount)
    else s' = s := by
  by_cases hasks : 0 < r.collateralAmount
  · by_cases hheld : s.escrow.swapCollateral i = none
    · rw [if_pos ⟨hasks, hheld⟩]
      simp [depositCollateralOnce, lockCollateral, hasks, hheld, hasks.le]
    · rw [if_neg fun h => hheld h.2]
      simp [depositCollateralOnce, hasks, hheld]
  · rw [if_neg fun h => hasks h.1]
    simp [depositCollateralOnce, hasks]

theorem collectPremium_ok (hpool : 0 ≤ s.escrow.pool r.token) :
    collectPremium i r s = .ok (u, s') ↔
      if r.insuranceEnabled = true ∧ 0 < r.insurancePremium then
        r.insurancePremium ≤ s.balance r.token r.buyer ∧
          s.escrow.pool r.token + r.insurancePremium ≤ i128Max ∧
            s' = (s.transferred ⟨r.token, r.buyer, currentContractAddress, r.insurancePremium,
              .premium i⟩).setInsurancePool r.token
                (some (s.escrow.pool r.token + r.insurancePremium))
      else s' = s := by
  by_cases hinsured : r.insuranceEnabled = true ∧ 0 < r.insurancePremium
  · rw [if_pos hinsured]
    have hpaid : ∀ m, ((s.escrow.pay [m]).insurancePool r.token).getD 0 = s.escrow.pool r.token :=
      fun _ => rfl
    simp only [collectPremium, Tx.onlyIf_ok, hinsured]
    have hmin : i128Min ≤ s.escrow.pool r.token + r.insurancePremium := by
      unfold i128Min
      omega
    simp [hpaid, hmin, hinsured.2.le]
  · rw [if_neg hinsured]
    simp [collectPremium, hinsured]

theorem bill_deposit (hr : s.swap i = some r) :
    s.bill r.token [i] = r.deposit (s.escrow.swapCollateral i) + r.price + r.premiumDue := by
  have hdeposit : r.deposit (s.escrow.swapCollateral i) =
      if 0 < r.collateralAmount ∧ s.swapCollateral i = none then r.collateralAmount else 0 := rfl
  rw [bill_one hr, hdeposit]
  omega

theorem depositCollateralOnce_cost (hbuyer : r.buyer ≠ currentContractAddress) :
    (∃ s', depositCollateralOnce i r s = .ok ((), s') ∧ s'.escrow.pool = s.escrow.pool ∧
      s'.balance r.token r.buyer =
        s.balance r.token r.buyer - r.deposit (s.escrow.swapCollateral i)) ∨
    (∃ e, depositCollateralOnce i r s = .error e) ∧
      s.balance r.token r.buyer < r.deposit (s.escrow.swapCollateral i) := by
  by_cases hdue : 0 < r.collateralAmount ∧ s.escrow.swapCollateral i = none
  · rw [SwapRecord.deposit, if_pos hdue]
    have hok : ∀ s', depositCollateralOnce i r s = .ok ((), s') ↔
        r.collateralAmount ≤ s.balance r.token r.buyer ∧ s' = _ :=
      fun _ => depositCollateralOnce_ok.trans (iff_of_eq (if_pos hdue))
    by_cases hle : r.collateralAmount ≤ s.balance r.token r.buyer
    · exact .inl ⟨_, (hok _).mpr ⟨hle, rfl⟩, rfl, balance_transferred hbuyer⟩
    · exact .inr ⟨refused fun _ _ h => hle ((hok _).mp h).1, by omega⟩
  · rw [SwapRecord.deposit, if_neg hdue]
    refine .inl ⟨s, depositCollateralOnce_ok.mpr ?_, rfl, by omega⟩
    rw [if_neg hdue]

theorem payPrice_cost (hbuyer : r.buyer ≠ currentContractAddress) (hprice : 0 < r.price) :
    (∃ s', payPrice i r s = .ok ((), s') ∧ s'.escrow.pool = s.escrow.pool ∧
      s'.balance r.token r.buyer = s.balance r.token r.buyer - r.price ∧
      r.price ≤ s.balance r.token r.buyer) ∨
    (∃ e, payPrice i r s = .error e) ∧ s.balance r.token r.buyer < r.price := by
  by_cases hle : r.price ≤ s.balance r.token r.buyer
  · exact .inl ⟨_, transfer_ok.mpr ⟨⟨hprice.le, hle⟩, rfl⟩, rfl, balance_transferred hbuyer, hle⟩
  · exact .inr ⟨refused fun _ _ h => hle (transfer_ok.mp h).1.2, by omega⟩

theorem collectPremium_cost (hpool : 0 ≤ s.escrow.pool r.token) :
    (∃ s', collectPremium i r s = .ok ((), s')) ∧
        (r.premiumDue = 0 ∨ r.premiumDue ≤ s.balance r.token r.buyer ∧
          s.escrow.pool r.token + r.premiumDue ≤ i128Max) ∨
    (∃ e, collectPremium i r s = .error e) ∧ 0 < r.premiumDue ∧
      (s.balance r.token r.buyer < r.premiumDue ∨
        i128Max < s.escrow.pool r.token + r.premiumDue) := by
  by_cases hdue : r.insuranceEnabled = true ∧ 0 < r.insurancePremium
  · rw [SwapRecord.premiumDue, if_pos hdue]
    have hok : ∀ s', collectPremium i r s = .ok ((), s') ↔
        r.insurancePremium ≤ s.balance r.token r.buyer ∧
          s.escrow.pool r.token + r.insurancePremium ≤ i128Max ∧ s' = _ :=
      fun _ => (collectPremium_ok hpool).trans (iff_of_eq (if_pos hdue))
    by_cases hle : r.insurancePremium ≤ s.balance r.token r.buyer ∧
        s.escrow.pool r.token + r.insurancePremium ≤ i128Max
    · exact .inl ⟨⟨_, (hok _).mpr ⟨hle.1, hle.2, rfl⟩⟩, .inr hle⟩
    · refine .inr ⟨refused fun _ _ h => ?_, hdue.2, by omega⟩
      obtain ⟨hbalance, hfits, -⟩ := (hok _).mp h
      exact hle ⟨hbalance, hfits⟩
  · rw [SwapRecord.premiumDue, if_neg hdue]
    refine .inl ⟨⟨s, (collectPremium_ok hpool).mpr ?_⟩, .inl rfl⟩
    rw [if_neg hdue]

theorem acceptValidated_runs (hr : s.swap i = some r) (hbuyer : r.buyer ≠ currentContractAddress)
    (hprice : 0 < r.price) (hpool : 0 ≤ s.escrow.pool r.token) :
    (∃ s', acceptValidated env i s = .ok ((), s')) ↔
      s.bill r.token [i] ≤ s.balance r.token r.buyer ∧
        (s.premiums r.token [i] = 0 ∨
          s.escrow.pool r.token + s.premiums r.token [i] ≤ i128Max) := by
  have hpremium : 0 ≤ r.premiumDue := r.premiumDue_nonneg
  have hexists : requireSwapExists i s = .ok (r, s) := requireSwapExists_ok.mpr ⟨hr, rfl⟩
  rw [bill_deposit hr, premiums_one hr, acceptValidated, bind_of_ok hexists]
  rcases depositCollateralOnce_cost (i := i) (s := s) hbuyer with
    ⟨s₁, hdeposit, hpool₁, hbalance₁⟩ | ⟨⟨e, hdeposit⟩, hshort⟩
  · rw [bind_of_ok hdeposit]
    rcases payPrice_cost (i := i) (s := s₁) hbuyer hprice with
      ⟨s₂, hpay, hpool₂, hbalance₂, hpaid⟩ | ⟨⟨e, hpay⟩, hshort⟩
    · have hsame : s₂.escrow.pool r.token = s.escrow.pool r.token := by rw [hpool₂, hpool₁]
      rw [bind_of_ok hpay]
      rcases collectPremium_cost (i := i) (s := s₂) (hsame ▸ hpool) with
        ⟨⟨s₃, hcollect⟩, hfits⟩ | ⟨⟨e, hcollect⟩, hdue, hshort⟩
      · rw [bind_of_ok hcollect]
        refine iff_of_true ⟨_, rfl⟩ ?_
        omega
      · rw [bind_of_error hcollect]
        refine iff_of_false (by simp) ?_
        omega
    · rw [bind_of_error hpay]
      refine iff_of_false (by simp) ?_
      omega
  · rw [bind_of_error hdeposit]
    refine iff_of_false (by simp) ?_
    omega

theorem postAll_funding {balance : Address → Address → ℤ} {deposits premium : Bool}
    (hbuyer : r.buyer ≠ currentContractAddress) :
    postAll balance (funding i r r.price deposits premium) t r.buyer = balance t r.buyer -
      if r.token = t then (if deposits then r.collateralAmount else 0) + r.price +
        (if premium then r.insurancePremium else 0) else 0 := by
  rw [postAll_apply]
  by_cases ht : r.token = t
  · cases deposits <;> cases premium <;>
      simp [funding, depositOf, priceOf, premiumOf, Transfer.flow, ht, hbuyer.symm] <;> omega
  · cases deposits <;> cases premium <;>
      simp [funding, depositOf, priceOf, premiumOf, Transfer.flow, ht]

theorem bill_cons : s.bill t (i :: ids) =
    s.bill t [i] + ((ids.map (s.inToken t fun r => r.price + r.premiumDue)).sum +
      once ids (update (s.depositDue t) i 0)) := by
  simp only [State.bill, once, List.map_cons, List.sum_cons, List.map_nil, List.sum_nil]
  omega

/-- What paying for the swap `i` leaves of the buyer's bill. -/
structure Billed (buyer : Address) (i : ℕ) (s s' : State) : Prop where
  stored : ∃ r time, s.swap i = some r ∧ s'.swap = update s.swap i (some (r.acceptedAt time))
  charged : ∀ t, s'.balance t buyer = s.balance t buyer - s.bill t [i]
  pooled : ∀ t, s'.escrow.pool t = s.escrow.pool t + s.premiums t [i]
  rest : ∀ t ids, s.bill t (i :: ids) = s.bill t [i] + s'.bill t ids
  premiums : ∀ t ids, s.premiums t (i :: ids) = s.premiums t [i] + s'.premiums t ids

theorem inToken_accepted {amount : SwapRecord → ℤ} {time : ℕ} (hr : s.swap i = some r)
    (hswap : s'.swap = update s.swap i (some (r.acceptedAt time)))
    (hamount : ∀ r : SwapRecord, amount (r.acceptedAt time) = amount r) :
    s'.inToken t amount = s.inToken t amount := by
  funext j
  by_cases hji : j = i
  · have hr' : s'.swap i = some (r.acceptedAt time) := by rw [hswap, update_self]
    rw [hji, inToken_of_stored hr', inToken_of_stored hr, hamount]
    rfl
  · unfold State.inToken
    rw [hswap, update_of_ne hji]

theorem pool_collectPremium {c : Escrow} {premium : Bool} :
    (c.collectPremium premium r).pool t =
      c.pool t + if r.token = t then (if premium then r.insurancePremium else 0) else 0 := by
  by_cases ht : r.token = t
  · subst ht
    cases premium <;>
      simp [Escrow.pool, Escrow.collectPremium, Escrow.addToPool, Escrow.setInsurancePool]
  · cases premium <;> simp [Escrow.pool, Escrow.collectPremium, Escrow.addToPool,
      Escrow.setInsurancePool, ht, Ne.symm ht]

theorem bill_other (hr : s.swap i = some r) (ht : r.token ≠ t) : s.bill t [i] = 0 := by
  simp [State.bill, once, State.depositDue, inToken_of_stored hr, ht]

theorem acceptValidated_billed (hr : s.swap i = some r) (hbuyer : r.buyer ≠ currentContractAddress)
    (h : acceptValidated env i s = .ok (u, s')) : Billed r.buyer i s s' := by
  obtain ⟨r₁, deposits, premium, hr₁, hasks, hinsured, -, e⟩ := acceptValidated_escrow h
  obtain rfl : r₁ = r := Option.some.inj (hr₁.symm.trans hr)
  have hswap : s'.swap = update s.swap i (some (r₁.acceptedAt env.timestamp)) :=
    congrArg Escrow.swap e
  have hcollateral : s'.swapCollateral = if deposits
      then update s.swapCollateral i (some r₁.collateralAmount) else s.swapCollateral :=
    congrArg Escrow.swapCollateral e
  have hprices : ∀ t, (s'.inToken t fun r => r.price + r.premiumDue) =
      s.inToken t fun r => r.price + r.premiumDue :=
    fun _ => inToken_accepted hr hswap fun _ => rfl
  have hpremiums : ∀ t, s'.inToken t SwapRecord.premiumDue = s.inToken t SwapRecord.premiumDue :=
    fun _ => inToken_accepted hr hswap fun _ => rfl
  have hheld : ¬ (0 < r₁.collateralAmount ∧ s'.swapCollateral i = none) := by
    rw [hcollateral]
    cases deposits with
    | true => simp
    | false => exact fun hdue => Bool.false_ne_true (hasks.mpr hdue)
  have hdeposits : ∀ t, s'.depositDue t = update (s.depositDue t) i 0 := by
    intro t
    funext j
    by_cases hji : j = i
    · have hr' : s'.swap i = some (r₁.acceptedAt env.timestamp) := by rw [hswap, update_self]
      rw [hji, update_self, State.depositDue, inToken_of_stored hr']
      split_ifs with ht hdue
      · exact absurd hdue hheld
      · rfl
      · rfl
    · have hother : s'.swapCollateral j = s.swapCollateral j := by
        rw [hcollateral]
        split_ifs
        · exact update_of_ne hji _ _
        · rfl
      rw [update_of_ne hji]
      unfold State.depositDue State.inToken
      rw [hswap, update_of_ne hji, hother]
  refine ⟨⟨r₁, _, hr, hswap⟩, ?_, ?_, ?_, ?_⟩
  · intro t
    have hbalance : s'.balance = postAll s.balance (funding i r₁ r₁.price deposits premium) :=
      congrArg Escrow.balance e
    rw [hbalance, postAll_funding hbuyer]
    by_cases ht : r₁.token = t
    · have hdeposit : (if deposits then r₁.collateralAmount else 0) =
          r₁.deposit (s.escrow.swapCollateral i) := if_congr hasks rfl rfl
      have hpremium : (if premium then r₁.insurancePremium else 0) = r₁.premiumDue :=
        if_congr hinsured rfl rfl
      rw [if_pos ht, hdeposit, hpremium, ← ht, bill_deposit hr]
    · rw [if_neg ht, bill_other hr ht]
  · intro t
    have hpool : s'.escrow.pool t = (s.escrow.collectPremium premium r₁).pool t := by
      rw [e]
      rfl
    have hpremium : (if premium then r₁.insurancePremium else 0) = r₁.premiumDue :=
      if_congr hinsured rfl rfl
    have hone : s.premiums t [i] = if r₁.token = t then r₁.premiumDue else 0 := by
      simp [State.premiums, inToken_of_stored hr]
    rw [hpool, pool_collectPremium, hpremium, hone]
  · intro t ids
    rw [bill_cons, ← hprices, ← hdeposits]
    rfl
  · intro t ids
    simp only [State.premiums, hpremiums, List.map_cons, List.sum_cons, List.map_nil, List.sum_nil]
    omega

end Payments

section SecondPass

variable {env : Env} {s s' : State} {t buyer : Address} {i : ℕ} {ids rest : List ℕ} {r : SwapRecord}

theorem bill_one_le (h : Priced s) : s.bill t [i] ≤ s.bill t (i :: ids) := by
  have hsum : 0 ≤ (ids.map (s.inToken t fun r => r.price + r.premiumDue)).sum :=
    sum_inToken_nonneg fun i r hr => Int.add_nonneg (h i r hr).le r.premiumDue_nonneg
  have honce : 0 ≤ once ids (update (s.depositDue t) i 0) := once_nonneg fun j => by
    by_cases hji : j = i
    · rw [hji, update_self]
    · rw [update_of_ne hji]
      exact depositDue_nonneg
  have hcons : s.bill t (i :: ids) = _ := bill_cons
  omega

theorem premiums_one_le : s.premiums t [i] ≤ s.premiums t (i :: ids) := by
  have hrest : 0 ≤ s.premiums t ids := premiums_nonneg
  unfold State.premiums at hrest ⊢
  simp only [List.map_cons, List.sum_cons, List.map_nil, List.sum_nil]
  omega

theorem Billed.affords (h : Billed buyer i s s') (hr : s.swap i = some r) (hpriced : Priced s)
    (hpriced' : Priced s')
    (hbill : s.bill r.token [i] ≤ s.balance r.token buyer)
    (hpremium : s.premiums r.token [i] = 0 ∨
      s.escrow.pool r.token + s.premiums r.token [i] ≤ i128Max) :
    Affords buyer (i :: rest) s ↔ Affords buyer rest s' := by
  have hother : ∀ t, r.token ≠ t → s.premiums t [i] = 0 := by
    intro t ht
    simp [State.premiums, inToken_of_stored hr, ht]
  constructor
  · intro hall
    refine ⟨fun t => ?_, fun t => ?_⟩
    · have hlist := hall.bill t
      have hone : 0 ≤ s.bill t [i] := bill_nonneg hpriced
      have hrest : 0 ≤ s'.bill t rest := bill_nonneg hpriced'
      rw [h.rest] at hlist
      rw [h.charged]
      omega
    · have hlist := hall.pool t
      have hone : 0 ≤ s.premiums t [i] := premiums_nonneg
      have hrest : 0 ≤ s'.premiums t rest := premiums_nonneg
      rw [h.premiums] at hlist
      rw [h.pooled]
      omega
  · intro hall
    refine ⟨fun t => ?_, fun t => ?_⟩
    · have hlist := hall.bill t
      rw [h.charged] at hlist
      rw [h.rest]
      by_cases ht : r.token = t
      · subst ht
        omega
      · rw [bill_other hr ht] at hlist ⊢
        omega
    · have hlist := hall.pool t
      rw [h.pooled] at hlist
      rw [h.premiums]
      by_cases ht : r.token = t
      · subst ht
        omega
      · rw [hother t ht] at hlist ⊢
        omega

theorem forEach_acceptValidated_runs (hself : buyer ≠ currentContractAddress)
    (hids : ∀ i ∈ ids, ∃ r, s.swap i = some r ∧ r.buyer = buyer) (hpriced : Priced s)
    (hpool : ∀ t, 0 ≤ s.escrow.pool t) :
    (∃ us s', Tx.forEach ids (acceptValidated env) s = .ok (us, s')) ↔ Affords buyer ids s := by
  induction ids generalizing s with
  | nil => exact iff_of_true ⟨[], s, rfl⟩ ⟨fun t => .inl rfl, fun t => .inl rfl⟩
  | cons i rest ih =>
    obtain ⟨r, hr, rfl⟩ := hids i (by simp)
    have hone : (∃ s', acceptValidated env i s = .ok ((), s')) ↔ _ :=
      acceptValidated_runs hr hself (hpriced i r hr) (hpool r.token)
    by_cases hruns : ∃ s', acceptValidated env i s = .ok ((), s')
    · obtain ⟨hbill, hpremium⟩ := hone.mp hruns
      obtain ⟨s', hs'⟩ := hruns
      have hbilled := acceptValidated_billed hr hself hs'
      obtain ⟨r₁, time, hr₁, hswap⟩ := hbilled.stored
      obtain rfl : r₁ = r := Option.some.inj (hr₁.symm.trans hr)
      have hpriced' : Priced s' := by
        intro j rj hj
        rw [hswap] at hj
        rcases update_eq_some hj with ⟨rfl, rfl⟩ | ⟨-, hold⟩
        · exact show 0 < r₁.price from hpriced _ _ hr
        · exact hpriced j rj hold
      have hids' : ∀ j ∈ rest, ∃ rj, s'.swap j = some rj ∧ rj.buyer = r₁.buyer := by
        intro j hj
        by_cases hji : j = i
        · exact ⟨r₁.acceptedAt time, by rw [hswap, hji, update_self], rfl⟩
        · obtain ⟨rj, hrj, hbuyer⟩ := hids j (by simp [hj])
          exact ⟨rj, by rw [hswap, update_of_ne hji, hrj], hbuyer⟩
      have hpool' : ∀ t, 0 ≤ s'.escrow.pool t := by
        intro t
        rw [hbilled.pooled]
        exact Int.add_nonneg (hpool t) premiums_nonneg
      rw [hbilled.affords hr hpriced hpriced' hbill hpremium, ← ih hids' hpriced' hpool',
        Tx.forEach, bind_of_ok hs']
      constructor
      · intro h
        obtain ⟨us, s₂, h⟩ := h
        obtain ⟨us', s₃, hrest, -⟩ := Tx.bind_ok.mp h
        exact ⟨us', s₃, hrest⟩
      · intro h
        obtain ⟨us, s₂, hrest⟩ := h
        exact ⟨() :: us, s₂, bind_of_ok hrest⟩
    · refine iff_of_false (fun h => ?_) fun h => hruns (hone.mpr ⟨?_, ?_⟩)
      · obtain ⟨us, s₂, h⟩ := h
        obtain ⟨_, s₁, _, hfirst, -⟩ := Tx.forEach_cons_ok.mp h
        exact hruns ⟨s₁, hfirst⟩
      · have hprice := hpriced i r hr
        have hpremium := r.premiumDue_nonneg
        have hle : s.bill r.token [i] ≤ s.bill r.token (i :: rest) := bill_one_le hpriced
        have hpos : 0 < s.bill r.token [i] := by
          rw [bill_one hr]
          split_ifs <;> omega
        rcases h.bill r.token with hzero | hpays <;> omega
      · have hnonneg : 0 ≤ s.premiums r.token [i] := premiums_nonneg
        have hle : s.premiums r.token [i] ≤ s.premiums r.token (i :: rest) := premiums_one_le
        rcases h.pool r.token with hzero | hfits <;> omega

end SecondPass

section Checks

variable {env : Env} {s s' t : State} {buyer : Address} {i : ℕ} {r : SwapRecord} {u : Unit}

/-- What the first pass of the batch looks at. -/
def Awaits (buyer : Address) (i : ℕ) (s : State) : Prop :=
  ∃ r, s.swap i = some r ∧ r.buyer = buyer ∧ r.status = .pending ∧
    (0 < r.requiredApprovals → r.requiredApprovals ≤ ((s.swapApprovals i).getD []).length)

/-- What a single acceptance looks at besides. -/
def Ready (env : Env) (i : ℕ) (s : State) : Prop :=
  ∀ r, s.swap i = some r → (∀ condition ∈ r.conditions, condition.holds env r) ∧
    (s.reputationMultiplier i).all (· ≤ (s.userReputation r.buyer).getD 50) ∧
    (0 < r.collateralAmount → s.swapCollateral i = none)

def checkAcceptance (env : Env) (buyer : Address) (i : ℕ) : SwapTx Unit := do
  validateAcceptance buyer i
  let swap ← requireSwapExists i
  evaluateConditions env swap
  requireReputation i swap
  let held ← Tx.load fun s => s.swapCollateral i
  require (0 < swap.collateralAmount → held = none) .alreadyInit

theorem validateAcceptance_passes :
    validateAcceptance buyer i s = .ok (u, s') ↔ Awaits buyer i s ∧ s' = s := by
  simp only [validateAcceptance, Tx.bind_ok, requireSwapExists_ok, require_ok, requireSwapStatus_ok,
    requireApprovals_ok]
  constructor
  · intro h
    obtain ⟨r, _, ⟨hr, rfl⟩, _, _, ⟨hbuyer, rfl⟩, _, _, ⟨hfrom, rfl⟩, happroved, rfl⟩ := h
    exact ⟨⟨r, hr, hbuyer, hfrom, happroved⟩, rfl⟩
  · intro h
    obtain ⟨⟨r, hr, hbuyer, hfrom, happroved⟩, rfl⟩ := h
    exact ⟨r, _, ⟨hr, rfl⟩, (), _, ⟨hbuyer, rfl⟩, (), _, ⟨hfrom, rfl⟩, happroved, rfl⟩

theorem checkAcceptance_ok : checkAcceptance env buyer i s = .ok (u, s') ↔
    (Awaits buyer i s ∧ Ready env i s) ∧ s' = s := by
  simp only [checkAcceptance, Tx.bind_ok, validateAcceptance_passes, requireSwapExists_ok,
    evaluateConditions_ok, requireReputation_ok, Tx.load_ok, require_ok]
  constructor
  · intro h
    obtain ⟨_, _, ⟨hawaits, rfl⟩, r, _, ⟨hr, rfl⟩, _, _, ⟨hconditions, rfl⟩, _, _,
      ⟨hreputation, rfl⟩, _, _, ⟨rfl, rfl⟩, hheld, rfl⟩ := h
    refine ⟨⟨hawaits, fun r' hr' => ?_⟩, rfl⟩
    obtain rfl : r = r' := Option.some.inj (hr.symm.trans hr')
    exact ⟨hconditions, hreputation, hheld⟩
  · intro h
    obtain ⟨⟨hawaits, hready⟩, rfl⟩ := h
    obtain ⟨r, hr, -⟩ := id hawaits
    obtain ⟨hconditions, hreputation, hheld⟩ := hready r hr
    exact ⟨(), _, ⟨hawaits, rfl⟩, r, _, ⟨hr, rfl⟩, (), _, ⟨hconditions, rfl⟩, (), _,
      ⟨hreputation, rfl⟩, _, _, ⟨rfl, rfl⟩, hheld, rfl⟩

theorem collectPremium_through : Through State.silent (collectPremium i r) := by
  have hchecked : ∀ x, Through State.silent (i128 x : SwapTx ℤ) := by
    intro x
    unfold i128 checked
    split
    · exact .pure
    · exact .abort
  exact .onlyIf (.bind transfer_through fun _ => .bind (.load fun _ => rfl) fun _ =>
    .bind (hchecked _) fun _ => .store fun _ => rfl)

theorem publish_unseen {x : SwapTx Unit} {topic : String} {payload : Payload} :
    answer State.silent ((x >>= fun _ => publish topic payload) s) = answer State.silent (x s) := by
  unfold publish
  exact answer_unseen fun _ => rfl

/-- Where there is no deposit yet, it does not matter which way it is made. -/
theorem deposit_answer (hheld : 0 < r.collateralAmount → s.swapCollateral i = none)
    (hst : s.silent = t.silent) :
    answer State.silent (depositCollateralOnce i r s) =
      answer State.silent (depositCollateral i r t) := by
  have hsame : s.swapCollateral = t.swapCollateral :=
    show s.silent.swapCollateral = t.silent.swapCollateral from congrArg _ hst
  by_cases hasks : 0 < r.collateralAmount
  · have hnone : s.swapCollateral i = none := hheld hasks
    have hpass : (require (t.swapCollateral i = none) .alreadyInit : SwapTx Unit) t = .ok ((), t) :=
      require_ok.mpr ⟨hsame ▸ hnone, rfl⟩
    have hs : depositCollateralOnce i r s = lockCollateral i r s := by
      rw [depositCollateralOnce, Tx.onlyIf, if_pos hasks, Tx.load_bind, Tx.onlyIf, if_pos hnone]
    have ht : depositCollateral i r t = (lockCollateral i r >>= fun _ =>
        publish "coll_dep" (.collateralDeposited i r.buyer r.collateralAmount)) t := by
      rw [depositCollateral, Tx.onlyIf, if_pos hasks, Tx.load_bind, bind_of_ok hpass]
    have hlock : Through State.silent (lockCollateral i r) :=
      .bind transfer_through fun _ => .store fun _ => rfl
    rw [hs, ht]
    exact (hlock s t hst).trans publish_unseen.symm
  · have hs : depositCollateralOnce i r s = .ok ((), s) := by
      simp [depositCollateralOnce, hasks]
    have ht : depositCollateral i r t = .ok ((), t) := by
      simp [depositCollateral, hasks]
    rw [hs, ht]
    exact congrArg (fun s => some ((), s)) hst

theorem acceptSwap_ready (h : acceptSwap env i s = .ok (u, s')) :
    s.paused.getD false = false ∧ Ready env i s ∧
      ∃ r, s.swap i = some r ∧ r.buyer ∈ env.auths ∧ Awaits r.buyer i s := by
  obtain ⟨hopen, r, hr, hauth, hfrom, happroved, hconditions, hreputation, hnone⟩ :=
    acceptSwap_checks h
  refine ⟨hopen, fun r' hr' => ?_, r, hr, hauth, r, hr, rfl, hfrom, happroved⟩
  obtain rfl : r = r' := Option.some.inj (hr.symm.trans hr')
  exact ⟨hconditions, hreputation, hnone⟩

theorem silent_awaits (hst : s.silent = t.silent) (h : Awaits buyer i s) : Awaits buyer i t := by
  have hsilent : Awaits buyer i s.silent := h
  rw [hst] at hsilent
  exact hsilent

theorem silent_ready (hst : s.silent = t.silent) (h : Ready env i s) : Ready env i t := by
  have hsilent : Ready env i s.silent := h
  rw [hst] at hsilent
  exact hsilent

/-- A single acceptance makes all the checks, and then pays as the batch does. -/
theorem acceptSwap_outcome (hopen : s.paused.getD false = false) (hauth : buyer ∈ env.auths)
    (hbought : BoughtBy buyer [i] s) (hst : s.silent = t.silent) :
    outcome State.silent ((checkAcceptance env buyer i >>= fun _ => acceptValidated env i) s) =
      outcome State.silent (acceptSwap env i t) := by
  have hswap : s.swap = t.swap := show s.silent.swap = t.silent.swap from congrArg _ hst
  by_cases hchecks : Awaits buyer i s ∧ Ready env i s
  · obtain ⟨r, hr, hbuyer, hfrom, happroved⟩ := silent_awaits hst hchecks.1
    obtain ⟨hconditions, hreputation, hheld⟩ := silent_ready hst hchecks.2 r hr
    have hpaused : s.paused = t.paused := show s.silent.paused = t.silent.paused from congrArg _ hst
    have hpass : checkAcceptance env buyer i s = .ok ((), s) :=
      checkAcceptance_ok.mpr ⟨hchecks, rfl⟩
    have hexists : requireSwapExists i s = .ok (r, s) :=
      requireSwapExists_ok.mpr ⟨hswap ▸ hr, rfl⟩
    have h₁ : requireNotPaused t = .ok ((), t) := requireNotPaused_ok.mpr ⟨hpaused ▸ hopen, rfl⟩
    have h₂ : requireSwapExists i t = .ok (r, t) := requireSwapExists_ok.mpr ⟨hr, rfl⟩
    have h₃ : (requireAuth env.auths r.buyer : SwapTx Unit) t = .ok ((), t) :=
      requireAuth_ok.mpr ⟨hbuyer ▸ hauth, rfl⟩
    have h₄ : requireSwapStatus r .pending .notPending t = .ok ((), t) :=
      requireSwapStatus_ok.mpr ⟨hfrom, rfl⟩
    have h₅ : requireApprovals i r t = .ok ((), t) := requireApprovals_ok.mpr ⟨happroved, rfl⟩
    have h₆ : evaluateConditions env r t = .ok ((), t) :=
      evaluateConditions_ok.mpr ⟨hconditions, rfl⟩
    have h₇ : requireReputation i r t = .ok ((), t) := requireReputation_ok.mpr ⟨hreputation, rfl⟩
    rw [bind_of_ok hpass, acceptValidated, bind_of_ok hexists, acceptSwap, bind_of_ok h₁,
      bind_of_ok h₂, bind_of_ok h₃, bind_of_ok h₄, bind_of_ok h₅, bind_of_ok h₆, bind_of_ok h₇]
    have hdeposit := deposit_answer (i := i) (hchecks.2 r (hswap ▸ hr)).2.2 hst
    have hmark : Through State.silent (markAccepted env i r) :=
      .bind (.store fun _ => rfl) fun _ => .store fun _ => rfl
    refine outcome_bind_of_answer hdeposit fun _ => .bind transfer_through fun _ =>
      .bind collectPremium_through fun _ => fun s t hst => ?_
    exact outcome_of_answer ((hmark s t hst).trans publish_unseen.symm)
  · obtain ⟨e, hchecks'⟩ : ∃ e, checkAcceptance env buyer i s = .error e :=
      refused fun _ _ h => hchecks (checkAcceptance_ok.mp h).1
    obtain ⟨e', hsingle⟩ : ∃ e, acceptSwap env i t = .error e := by
      refine refused fun _ _ h => hchecks ?_
      obtain ⟨-, hready, r, hr, -, hawaits⟩ := acceptSwap_ready h
      have hbuyer : r.buyer = buyer := hbought i (by simp) r (hswap ▸ hr)
      exact ⟨silent_awaits hst.symm (hbuyer ▸ hawaits), silent_ready hst.symm hready⟩
    rw [bind_of_error hchecks', hsingle]
    rfl

end Checks

section Comparison

variable {env : Env} {s s' t : State} {buyer : Address} {i j : ℕ} {ids : List ℕ} {r : SwapRecord}
  {u : Unit}

def State.vetting (s : State) :
    Option Bool × (ℕ → Option (List Address)) × (ℕ → Option ℕ) × (Address → Option ℕ) :=
  (s.paused, s.swapApprovals, s.reputationMultiplier, s.userReputation)

instance : Aside State.vetting := ⟨fun _ _ _ => rfl⟩

instance (k : State → ℕ) (o : State → Option (List SwapHistoryEntry)) :
    Spares State.vetting fun s => s.setSwapHistory (k s) (o s) := ⟨fun _ => rfl⟩

instance : Keeps State.vetting (acceptValidated env i) := by
  unfold acceptValidated markAccepted appendHistory
  infer_instance

theorem awaits_congr (hswap : s.swap i = t.swap i)
    (happrovals : s.swapApprovals = t.swapApprovals) :
    Awaits buyer i s ↔ Awaits buyer i t := by
  unfold Awaits
  rw [hswap, happrovals]

theorem ready_congr (hswap : s.swap i = t.swap i)
    (hmultiplier : s.reputationMultiplier = t.reputationMultiplier)
    (hreputation : s.userReputation = t.userReputation)
    (hcollateral : s.swapCollateral i = t.swapCollateral i) : Ready env i s ↔ Ready env i t := by
  unfold Ready
  rw [hswap, hmultiplier, hreputation, hcollateral]

theorem acceptValidated_bars (h : acceptValidated env i s = .ok (u, s')) (j : ℕ) :
    (Awaits buyer j s' ∧ Ready env j s') ↔ (Awaits buyer j s ∧ Ready env j s) ∧ i ≠ j := by
  have hvetting : s'.vetting = s.vetting := Keeps.eq State.vetting h
  simp only [State.vetting, Prod.mk.injEq] at hvetting
  obtain ⟨-, happrovals, hmultiplier, hreputation⟩ := hvetting
  obtain ⟨r, deposits, premium, -, -, -, -, e⟩ := acceptValidated_escrow h
  have hswap : s'.swap = update s.swap i (some (r.acceptedAt env.timestamp)) :=
    congrArg Escrow.swap e
  have hcollateral : s'.swapCollateral = if deposits
      then update s.swapCollateral i (some r.collateralAmount) else s.swapCollateral :=
    congrArg Escrow.swapCollateral e
  by_cases hij : i = j
  · subst hij
    refine iff_of_false (fun hboth => ?_) fun hboth => hboth.2 rfl
    obtain ⟨⟨r', hr', -, hfrom, -⟩, -⟩ := hboth
    rw [hswap, update_self] at hr'
    obtain rfl := Option.some.inj hr'
    exact SwapStatus.noConfusion hfrom
  · have hswap : s'.swap j = s.swap j := by rw [hswap, update_of_ne (Ne.symm hij)]
    have hcollateral : s'.swapCollateral j = s.swapCollateral j := by
      rw [hcollateral]
      cases deposits with
      | true => exact update_of_ne (Ne.symm hij) _ _
      | false => rfl
    rw [awaits_congr hswap happrovals, ready_congr hswap hmultiplier hreputation hcollateral,
      and_iff_left hij]

theorem acceptValidated_boughtBy (h : acceptValidated env i s = .ok (u, s'))
    (hbought : BoughtBy buyer ids s) : BoughtBy buyer ids s' := by
  obtain ⟨r, deposits, premium, hr, -, -, -, e⟩ := acceptValidated_escrow h
  have hswap : s'.swap = update s.swap i (some (r.acceptedAt env.timestamp)) :=
    congrArg Escrow.swap e
  intro j hj rj hrj
  rw [hswap] at hrj
  rcases update_eq_some hrj with ⟨rfl, rfl⟩ | ⟨-, hold⟩
  · exact hbought j hj r hr
  · exact hbought j hj rj hold

def acceptChecked (env : Env) (buyer : Address) (i : ℕ) : SwapTx Unit :=
  checkAcceptance env buyer i >>= fun _ => acceptValidated env i

theorem acceptChecked_folds (hopen : s.paused.getD false = false) (hauth : buyer ∈ env.auths)
    (hbought : BoughtBy buyer ids s) :
    outcome State.silent (Tx.forEach ids (acceptChecked env buyer) s) =
      outcome State.silent (Tx.forEach ids (acceptSwap env) s) := by
  refine forEach_alike (I := fun s => s.paused.getD false = false ∧ BoughtBy buyer ids s)
    (fun i _ s u s' hI h => ?_) (fun i hi s t hI hst => ?_) ⟨hopen, hbought⟩ rfl
  · obtain ⟨_, s₁, hcheck, hbody⟩ := Tx.bind_ok.mp h
    obtain ⟨-, rfl⟩ := checkAcceptance_ok.mp hcheck
    have hpaused : s'.paused = s₁.paused := congrArg Prod.fst (Keeps.eq State.vetting hbody)
    exact ⟨hpaused ▸ hI.1, acceptValidated_boughtBy hbody hI.2⟩
  · refine acceptSwap_outcome hI.1 hauth (fun j hj => hI.2 j ?_) hst
    rw [List.mem_singleton.mp hj]
    exact hi

theorem acceptChecked_fails (h : ¬ (ids.Nodup ∧ ∀ i ∈ ids, Awaits buyer i s ∧ Ready env i s)) :
    ∃ e, Tx.forEach ids (acceptChecked env buyer) s = .error e :=
  forEach_unchecked (P := fun i s => Awaits buyer i s ∧ Ready env i s) (R := fun i j => i ≠ j)
    (fun _ _ hchecks => checkAcceptance_ok.mpr ⟨hchecks, rfl⟩)
    (fun _ _ hchecks => refused fun _ _ hrun => hchecks (checkAcceptance_ok.mp hrun).1)
    (fun _ _ _ _ _ hbody => acceptValidated_bars hbody) fun hboth => h ⟨hboth.2, hboth.1⟩

theorem acceptChecked_unchecked (hnodup : ids.Nodup)
    (h : ∀ i ∈ ids, Awaits buyer i s ∧ Ready env i s) :
    outcome State.silent (Tx.forEach ids (acceptValidated env) s) =
      outcome State.silent (Tx.forEach ids (acceptChecked env buyer) s) :=
  forEach_checked (P := fun i s => Awaits buyer i s ∧ Ready env i s) (R := fun i j => i ≠ j)
    (fun _ _ hchecks => checkAcceptance_ok.mpr ⟨hchecks, rfl⟩)
    (fun _ _ _ _ _ hbody => acceptValidated_bars hbody) h hnodup

theorem batchAcceptSwaps_outcome (hopen : s.paused.getD false = false) (hauth : buyer ∈ env.auths)
    (hawaits : ∀ i ∈ ids, Awaits buyer i s) (hsome : 1 ≤ ids.length)
    (hsize : ids.length ≤ maxBatchSize) :
    outcome State.silent (batchAcceptSwaps env ids buyer s) =
      outcome State.silent (Tx.forEach ids (acceptValidated env) s) := by
  have hpass : requireNotPaused s = .ok ((), s) := requireNotPaused_ok.mpr ⟨hopen, rfl⟩
  have hids : ids ≠ [] := List.ne_nil_of_length_pos hsome
  obtain ⟨us, hchecks⟩ := checks_pass (P := Awaits buyer)
    (fun _ _ hone => validateAcceptance_passes.mpr ⟨hone, rfl⟩) hawaits
  rw [batchAcceptSwaps, bind_of_ok hpass, requireAuth, outcome_ensure, if_pos hauth, require,
    outcome_ensure, if_pos hids, require, outcome_ensure, if_pos hsize, bind_of_ok hchecks]
  exact outcome_bind fun _ _ => rfl

theorem batchAcceptSwaps_refused (h : ¬ (s.paused.getD false = false ∧ buyer ∈ env.auths ∧
    ∀ i ∈ ids, Awaits buyer i s)) : ∃ e, batchAcceptSwaps env ids buyer s = .error e := by
  refine refused fun _ s' hrun => h ?_
  simp only [batchAcceptSwaps, Tx.bind_ok, requireNotPaused_ok, requireAuth_ok, require_ok] at hrun
  obtain ⟨_, _, ⟨hopen, rfl⟩, _, _, ⟨hauth, rfl⟩, _, _, ⟨-, rfl⟩, _, _, ⟨-, rfl⟩, us, s₁, hchecks,
    -⟩ := hrun
  refine ⟨hopen, hauth, ?_⟩
  by_contra hall
  obtain ⟨e, hfails⟩ := checks_fail (P := Awaits buyer)
    (fun _ _ hone => validateAcceptance_passes.mpr ⟨hone, rfl⟩)
    (fun _ _ hone => refused fun _ _ hrun => hone (validateAcceptance_passes.mp hrun).1) hall
  rw [hfails] at hchecks
  cases hchecks

theorem acceptSwaps_refused (hids : ids ≠ []) (hbought : BoughtBy buyer ids s)
    (h : ¬ (s.paused.getD false = false ∧ buyer ∈ env.auths)) :
    ∃ e, Tx.forEach ids (acceptSwap env) s = .error e := by
  obtain ⟨i, rest, rfl⟩ := List.exists_cons_of_ne_nil hids
  obtain ⟨e, hone⟩ : ∃ e, acceptSwap env i s = .error e := by
    refine refused fun _ _ hrun => h ?_
    obtain ⟨hopen, -, r, hr, hauth, -⟩ := acceptSwap_ready hrun
    exact ⟨hopen, hbought i (by simp) r hr ▸ hauth⟩
  exact ⟨e, by rw [Tx.forEach, bind_of_error hone]⟩

/-- The batch takes the swaps that the loop takes, and to the same effect. -/
def FoldsInto (env : Env) (ids : List ℕ) (buyer : Address) (s : State) : Prop :=
  ∀ v, outcome State.silent (batchAcceptSwaps env ids buyer s) = some v ↔
    BoughtBy buyer ids s ∧ outcome State.silent (Tx.forEach ids (acceptSwap env) s) = some v

theorem foldsInto_of_refused (hbatch : ∃ e, batchAcceptSwaps env ids buyer s = .error e)
    (hloop : BoughtBy buyer ids s → ∃ e, Tx.forEach ids (acceptSwap env) s = .error e) :
    FoldsInto env ids buyer s := by
  obtain ⟨e, hbatch⟩ := hbatch
  intro v
  rw [hbatch]
  refine iff_of_false (Option.some_ne_none v).symm fun hboth => ?_
  obtain ⟨e', hfails⟩ := hloop hboth.1
  rw [hfails] at hboth
  exact Option.some_ne_none v hboth.2.symm

theorem foldsInto_iff (hself : buyer ∈ env.auths → buyer ≠ currentContractAddress)
    (hpriced : Priced s) (hpool : ∀ t, 0 ≤ s.escrow.pool t) (hsome : 1 ≤ ids.length)
    (hsize : ids.length ≤ maxBatchSize) :
    FoldsInto env ids buyer s ↔ (s.paused.getD false = false → buyer ∈ env.auths →
      (∀ i ∈ ids, Awaits buyer i s) → Affords buyer ids s →
        ids.Nodup ∧ ∀ i ∈ ids, Ready env i s) := by
  by_cases hallowed : s.paused.getD false = false ∧ buyer ∈ env.auths
  · obtain ⟨hopen, hauth⟩ := hallowed
    by_cases hawaits : ∀ i ∈ ids, Awaits buyer i s
    · have hbought : BoughtBy buyer ids s := by
        intro i hi r hr
        obtain ⟨r', hr', hbuyer, -⟩ := hawaits i hi
        rw [Option.some.inj (hr.symm.trans hr')]
        exact hbuyer
      have hbatch := batchAcceptSwaps_outcome hopen hauth hawaits hsome hsize
      have hloop := acceptChecked_folds hopen hauth hbought
      by_cases hready : ids.Nodup ∧ ∀ i ∈ ids, Ready env i s
      · have hall : ∀ i ∈ ids, Awaits buyer i s ∧ Ready env i s :=
          fun i hi => ⟨hawaits i hi, hready.2 i hi⟩
        refine iff_of_true (fun v => ?_) fun _ _ _ _ => hready
        rw [hbatch, acceptChecked_unchecked hready.1 hall, hloop, and_iff_right hbought]
      · obtain ⟨e, hfails⟩ : ∃ e, Tx.forEach ids (acceptChecked env buyer) s = .error e :=
          acceptChecked_fails fun hboth => hready ⟨hboth.1, fun i hi => (hboth.2 i hi).2⟩
        have hids : ∀ i ∈ ids, ∃ r, s.swap i = some r ∧ r.buyer = buyer := by
          intro i hi
          obtain ⟨r, hr, hbuyer, -⟩ := hawaits i hi
          exact ⟨r, hr, hbuyer⟩
        have hruns : (∃ us s', Tx.forEach ids (acceptValidated env) s = .ok (us, s')) ↔ _ :=
          forEach_acceptValidated_runs (hself hauth) hids hpriced hpool
        rw [hfails] at hloop
        constructor
        · intro hfolds _ _ _ hpays
          obtain ⟨us, s', hbody⟩ := hruns.mpr hpays
          have hsucceeds := hbatch.trans (outcome_ok hbody)
          have hboth := (hfolds _).mp hsucceeds
          rw [← hloop] at hboth
          exact absurd hboth.2.symm (Option.some_ne_none _)
        · intro hcond
          have hshort : ¬ Affords buyer ids s :=
            fun hpays => hready (hcond hopen hauth hawaits hpays)
          obtain ⟨e', hbody⟩ : ∃ e, Tx.forEach ids (acceptValidated env) s = .error e :=
            refused fun us s' hbody => hshort (hruns.mp ⟨us, s', hbody⟩)
          have hnone : outcome State.silent (batchAcceptSwaps env ids buyer s) = none := by
            rw [hbatch, hbody]
            rfl
          exact foldsInto_of_refused (outcome_eq_none.mp hnone) fun _ =>
            outcome_eq_none.mp hloop.symm
    · refine iff_of_true (foldsInto_of_refused ?_ fun hbought => ?_)
        fun _ _ hall => absurd hall hawaits
      · exact batchAcceptSwaps_refused fun hall => hawaits hall.2.2
      · have hloop := acceptChecked_folds hopen hauth hbought
        obtain ⟨e, hfails⟩ : ∃ e, Tx.forEach ids (acceptChecked env buyer) s = .error e :=
          acceptChecked_fails fun hboth => hawaits fun i hi => (hboth.2 i hi).1
        rw [hfails] at hloop
        exact outcome_eq_none.mp hloop.symm
  · refine iff_of_true (foldsInto_of_refused ?_ fun hbought => ?_)
      fun hopen hauth => absurd ⟨hopen, hauth⟩ hallowed
    · exact batchAcceptSwaps_refused fun hall => hallowed ⟨hall.1, hall.2.1⟩
    · exact acceptSwaps_refused (List.ne_nil_of_length_pos hsome) hbought hallowed

end Comparison

section Runs

variable {env : Env} {s : State} {tr : List (Act × State)} {buyer : Address} {ids : List ℕ}
  {balance : Address → Address → ℤ}

theorem reached_pools (hrun : Run ActStep (State.empty balance) tr s) :
    Wf s.escrow ∧ ∀ t, 0 ≤ s.escrow.pool t :=
  hrun.invariant (I := fun s => Wf s.escrow ∧ ∀ t, 0 ≤ s.escrow.pool t)
    ⟨Wf.empty balance, fun _ => le_rfl⟩ fun _ _ _ hs hact => hact.pool_nonneg hs.1 hs.2

/-- The batch folds the single acceptances if and only if, when it goes through, no swap is twice
in its list and each of them passes what only the single acceptance checks. -/
theorem batch_acceptance_folds_iff (hrun : Run ActStep (State.empty balance) tr s)
    (henv : env.Hosted) (hsome : 1 ≤ ids.length) (hsize : ids.length ≤ maxBatchSize) :
    FoldsInto env ids buyer s ↔ (s.paused.getD false = false → buyer ∈ env.auths →
      (∀ i ∈ ids, Awaits buyer i s) → Affords buyer ids s →
        ids.Nodup ∧ ∀ i ∈ ids, Ready env i s) := by
  obtain ⟨hwf, hpool⟩ := reached_pools hrun
  have hpriced : Priced s := fun i r hr => (hwf.stored i r hr).2.price
  exact foldsInto_iff (fun hauth heq => henv (heq ▸ hauth)) hpriced hpool hsome hsize

end Runs

section Sales

open Scenario

def choosyOffers : List (Env × Call) :=
  twoOffers ++ [(env [seller] 3, Call.setReputationMultiplier 1 40)]

theorem offers_accepted_in_batch : ∃ s : State,
    FoldsInto (env [buyer] 4) [0, 1] buyer s ∧ s.reputationMultiplier 1 = some 40 ∧
      outcome State.silent (batchAcceptSwaps (env [buyer] 4) [0, 1] buyer s) ≠ none := by
  have hplay : ∃ s, play (State.empty funds) choosyOffers = .ok s ∧
      (∃ r, s.swap 0 = some r ∧ r.conditions = []) ∧ (∃ r, s.swap 1 = some r ∧ r.conditions = []) ∧
      (s.reputationMultiplier 0 = none ∧ s.reputationMultiplier 1 = some 40) ∧
      s.userReputation = (fun _ => none) ∧ s.swapCollateral = (fun _ => none) ∧
      ∃ s', batchAcceptSwaps (env [buyer] 4) [0, 1] buyer s = .ok ((), s') :=
    ⟨_, rfl, ⟨_, rfl, rfl⟩, ⟨_, rfl, rfl⟩, ⟨rfl, rfl⟩, rfl, rfl, _, rfl⟩
  obtain ⟨s, hs, ⟨r₀, hr₀, hopen₀⟩, ⟨r₁, hr₁, hopen₁⟩, ⟨hanybody, hchoosy⟩, hreputation,
    hcollateral, s', hbatch⟩ := hplay
  obtain ⟨tr, hrun⟩ : ∃ tr, Run (Restrict ActStep fun _ _ => True) (State.empty funds) tr s :=
    play_run hs (fun _ _ _ => trivial) .start
  have hready : ∀ i ∈ [0, 1], Ready (env [buyer] 4) i s := by
    intro i hi r hr
    rcases List.mem_pair.mp hi with rfl | rfl
    · obtain rfl := Option.some.inj (hr.symm.trans hr₀)
      exact ⟨by simp [hopen₀], by simp [hanybody], fun _ => by rw [hcollateral]⟩
    · obtain rfl := Option.some.inj (hr.symm.trans hr₁)
      exact ⟨by simp [hopen₁], by simp [hchoosy, hreputation], fun _ => by rw [hcollateral]⟩
  refine ⟨s, ?_, hchoosy, by simp [hbatch, outcome]⟩
  have henv : (env [buyer] 4).Hosted := by
    simp [Env.Hosted, env, buyer, currentContractAddress]
  exact (batch_acceptance_folds_iff (hrun.mono fun _ _ _ h => h.1) henv (by simp)
    (by simp [maxBatchSize])).mpr fun _ _ _ _ => ⟨by simp, hready⟩

/-- A swap that is twice in the list is paid for twice. -/
theorem charged_twice : ∃ tr s s',
    Run ActStep (State.empty funds) tr s ∧
    batchAcceptSwaps (env [buyer] 2) [0, 0] buyer s = .ok ((), s') ∧
    s'.balance token buyer = s.balance token buyer - 2 * 1000 ∧
    (∃ e, Tx.forEach [0, 0] (acceptSwap (env [buyer] 2)) s = .error e) ∧
    ¬ FoldsInto (env [buyer] 2) [0, 0] buyer s := by
  have hcalls : ∃ s₁ s₂ s₃,
      exec (env [] 0) (.initializeContract registry) (State.empty funds) = .ok ((), s₁) ∧
      exec (env [seller] 1) (.initiateSwap token 1 seller 1000 buyer 0 none 0 false) s₁
        = .ok ((), s₂) ∧
      batchAcceptSwaps (env [buyer] 2) [0, 0] buyer s₂ = .ok ((), s₃) ∧
      s₃.balance token buyer = s₂.balance token buyer - 2 * 1000 ∧
      ∃ e, Tx.forEach [0, 0] (acceptSwap (env [buyer] 2)) s₂ = .error e :=
    ⟨_, _, _, rfl, rfl, rfl, rfl, _, rfl⟩
  obtain ⟨s₁, s, s', h₁, h₂, hbatch, hcharged, e, hloop⟩ := hcalls
  refine ⟨_, s, s', (Run.start.next (ActStep.call h₁)).next (ActStep.call h₂), hbatch, hcharged,
    ⟨e, hloop⟩, fun hfolds => ?_⟩
  have hboth := (hfolds (State.silent s')).mp (outcome_ok hbatch)
  rw [hloop] at hboth
  cases hboth.2

end Sales

end AtomicIp.AtomicSwap
