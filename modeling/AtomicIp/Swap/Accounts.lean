import AtomicIp.Swap.BatchReveal
import AtomicIp.Swap.Solvency

set_option autoImplicit false

namespace AtomicIp.AtomicSwap

open Function

/-- Paid in by `a` on account of the swap `i`. -/
def collectedFrom (a : Address) (i : ℕ) (ms : List TokenTransfer) : ℤ :=
  amountOf (fun m => m.src = a ∧ m.dst = currentContractAddress ∧ onAccountOf i m.ref) ms

/-- Paid out on account of the swap `i`. -/
def paidOutFor (i : ℕ) (ms : List TokenTransfer) : ℤ :=
  paidOut currentContractAddress (onAccountOf i) ms

/-- No transfer is on account of a swap that does not exist yet. -/
def Idle (c : Escrow) : Prop := ∀ i, c.swap i = none → ∀ m ∈ c.transfers, m.ref.swap? ≠ some i

/-- The balance of the account: never less than what is still due. -/
structure Accounted (c : Escrow) : Prop where
  covered : ∀ i r, c.swap i = some r →
    paidOutFor i c.transfers + r.due + (c.swapCollateral i).getD 0 ≤
      collectedFrom r.buyer i c.transfers
  idle : Idle c

section Account

variable {c c' : Escrow} {i j : ℕ} {r r' : SwapRecord} {a : Address} {ms : List TokenTransfer}
  {P : Address → Prop} {total : ℤ}

theorem Idle.empty (balance : Address → Address → ℤ) : Idle (State.empty balance).escrow := by
  simp [Idle, State.escrow, State.empty]

theorem collectedFrom_append (ns : List TokenTransfer) :
    collectedFrom a i (ms ++ ns) = collectedFrom a i ms + collectedFrom a i ns :=
  amountOf_append ns

theorem paidOutFor_append (ns : List TokenTransfer) :
    paidOutFor i (ms ++ ns) = paidOutFor i ms + paidOutFor i ns := paidOut_append _ _ ms ns

theorem collectedFrom_other (h : ∀ m ∈ ms, m.ref.swap? ≠ some i) : collectedFrom a i ms = 0 :=
  amountOf_none fun m hm => by simp [onAccountOf, h m hm]

theorem paidOutFor_other (h : ∀ m ∈ ms, m.ref.swap? ≠ some i) : paidOutFor i ms = 0 :=
  amountOf_none fun m hm => by simp [onAccountOf, h m hm]

theorem PaidFor.paidOutFor (h : PaidFor i r P total ms) : paidOutFor i ms = total := by
  rw [AtomicSwap.paidOutFor, h.paidOut, if_pos rfl]

theorem PaidFor.collected (h : PaidFor i r P total ms) : 0 ≤ collectedFrom a i ms :=
  amountOf_nonneg fun m hm => (h.escrowed m hm).2.2.2

theorem collected_funding (price : ℤ) (deposits premium : Bool) :
    collectedFrom r.buyer i (funding i r price deposits premium) =
      (if deposits then r.collateralAmount else 0) + price +
        if premium then r.insurancePremium else 0 := by
  cases deposits <;> cases premium <;>
    simp [collectedFrom, onAccountOf, funding, depositOf, premiumOf, priceOf, Purpose.swap?,
      add_assoc]

theorem paidOut_funding (price : ℤ) (deposits premium : Bool)
    (hbuyer : r.buyer ≠ currentContractAddress) :
    paidOutFor i (funding i r price deposits premium) = 0 := by
  cases deposits <;> cases premium <;>
    simp [paidOutFor, paidOut_cons, funding, depositOf, premiumOf, priceOf, hbuyer]

theorem swap?_funding {price : ℤ} {deposits premium : Bool} :
    ∀ m ∈ funding i r price deposits premium, m.ref.swap? = some i := by
  cases deposits <;> cases premium <;>
    simp [funding, depositOf, premiumOf, priceOf, Purpose.swap?]

theorem Idle.moved (h : Idle c) (hswap : ∀ j, c'.swap j = if j = i then some r' else c.swap j)
    (htransfers : c'.transfers = c.transfers ++ ms) (href : ∀ m ∈ ms, m.ref.swap? = some i) :
    Idle c' := by
  intro j hj m hm
  rw [htransfers] at hm
  have hji : j ≠ i := by
    rintro rfl
    simp [hswap] at hj
  rcases List.mem_append.mp hm with hm | hm
  · exact h j (by simpa [hswap, hji] using hj) m hm
  · rw [href m hm]
    simpa using Ne.symm hji

theorem Idle.aside (h : Idle c) (hswap : c'.swap = c.swap)
    (htransfers : c'.transfers = c.transfers ++ ms) (href : ∀ m ∈ ms, m.ref.swap? = none) :
    Idle c' := by
  intro j hj m hm
  rw [htransfers] at hm
  rcases List.mem_append.mp hm with hm | hm
  · exact h j (hswap ▸ hj) m hm
  · simp [href m hm]

theorem Accounted.moved (h : Accounted c) (r' : SwapRecord) (ms : List TokenTransfer)
    (hr : c.swap i = some r)
    (hswap : ∀ j, c'.swap j = if j = i then some r' else c.swap j) (hbuyer : r'.buyer = r.buyer)
    (hcollateral : ∀ j, j ≠ i → c'.swapCollateral j = c.swapCollateral j)
    (htransfers : c'.transfers = c.transfers ++ ms) (href : ∀ m ∈ ms, m.ref.swap? = some i)
    (hdue : paidOutFor i ms + r'.due + (c'.swapCollateral i).getD 0 ≤
      collectedFrom r.buyer i ms + r.due + (c.swapCollateral i).getD 0) : Accounted c' where
  covered j rj hj := by
    rw [htransfers, paidOutFor_append, collectedFrom_append]
    by_cases hji : j = i
    · subst hji
      have hcovered := h.covered j r hr
      obtain rfl : r' = rj := by simpa [hswap] using hj
      rw [hbuyer]
      omega
    · have hother : ∀ m ∈ ms, m.ref.swap? ≠ some j := by
        intro m hm
        rw [href m hm]
        simpa using Ne.symm hji
      rw [hcollateral j hji, collectedFrom_other hother, paidOutFor_other hother]
      have hcovered := h.covered j rj (by simpa [hswap, hji] using hj)
      omega
  idle := h.idle.moved hswap htransfers href

theorem Accounted.aside (h : Accounted c) (ms : List TokenTransfer) (hswap : c'.swap = c.swap)
    (hcollateral : c'.swapCollateral = c.swapCollateral)
    (htransfers : c'.transfers = c.transfers ++ ms) (href : ∀ m ∈ ms, m.ref.swap? = none) :
    Accounted c' where
  covered j r hr := by
    have hother : ∀ m ∈ ms, m.ref.swap? ≠ some j := fun m hm => by simp [href m hm]
    rw [htransfers, paidOutFor_append, collectedFrom_append, collectedFrom_other hother,
      paidOutFor_other hother, hcollateral]
    have hcovered := h.covered j r (hswap ▸ hr)
    omega
  idle := h.idle.aside hswap htransfers href

theorem Accounted.amended (h : Accounted c) (hr : c.swap i = some r)
    (hswap : ∀ j, c'.swap j = if j = i then some r' else c.swap j) (hbuyer : r'.buyer = r.buyer)
    (hcollateral : c'.swapCollateral = c.swapCollateral) (htransfers : c'.transfers = c.transfers)
    (hdue : r'.due = r.due) : Accounted c' := by
  refine h.moved r' [] hr hswap hbuyer (fun _ _ => by rw [hcollateral]) (by simpa using htransfers)
    (by simp) ?_
  simp [paidOutFor, collectedFrom, hcollateral, hdue]

theorem Accounted.closed (h : Accounted c) (hr : c.swap i = some r) {q : SwapStatus}
    (hq : (r.withStatus q).due = 0) {o : Option ℤ} (ho : o = none ∨ o = c.swapCollateral i)
    (hpaid : PaidFor i r P total ms) (hle : total ≤ r.due + o.getD 0) :
    Accounted (((c.close i r q).release i o).pay ms) := by
  refine h.moved (r.withStatus q) ms hr (fun j => swap_close c i j r q) rfl ?_ rfl
    (fun m hm => (hpaid.escrowed m hm).2.2.1) ?_
  · intro j hji
    cases o <;> simp [Escrow.close, Escrow.release, Escrow.pay, Escrow.setSwap,
      Escrow.setActiveSwap, hji]
  · have hcollected := hpaid.collected (a := r.buyer)
    have hleft : ((((c.close i r q).release i o).pay ms).swapCollateral i).getD 0 + o.getD 0 =
        (c.swapCollateral i).getD 0 := by
      rcases ho with rfl | rfl
      · simp [Escrow.close, Escrow.release, Escrow.pay, Escrow.setSwap, Escrow.setActiveSwap]
      · cases hx : c.swapCollateral i <;>
          simp [Escrow.close, Escrow.release, Escrow.pay, Escrow.setSwap, Escrow.setActiveSwap, hx]
    rw [hpaid.paidOutFor, hq]
    omega

theorem Accounted.opened (h : Accounted c) (hwf : Wf c) (hdue : r.due = 0)
    (hswap : ∀ j, c'.swap j = if j = c.count then some r else c.swap j)
    (hcollateral : c'.swapCollateral = c.swapCollateral) (htransfers : c'.transfers = c.transfers) :
    Accounted c' where
  covered j rj hj := by
    rw [htransfers, hcollateral]
    by_cases hnew : j = c.count
    · subst hnew
      obtain rfl : r = rj := by simpa [hswap] using hj
      have hidle := h.idle _ hwf.fresh
      rw [collectedFrom_other hidle, paidOutFor_other hidle, hdue, hwf.unbacked hwf.fresh]
      simp
    · exact h.covered j rj (by simpa [hswap, hnew] using hj)
  idle := h.idle.moved hswap (by rw [htransfers, List.append_nil]) (by simp : ∀ m ∈ [], _)

end Account

/-- A contract's own address authorises only the calls that contract makes, and this one
never calls itself. -/
def Env.Hosted (env : Env) : Prop := currentContractAddress ∉ env.auths

section Steps

variable {env : Env} {c c' : Escrow} {m : Move}

theorem Step.payer (hstep : Step env c m c') (henv : env.Hosted) :
    c.payer? m ≠ some currentContractAddress := by
  intro hpayer
  refine henv ?_
  cases hstep with
  | @accepted i r _ _ _ _ hr _ hauth =>
    have hbuyer : r.buyer = currentContractAddress := by simpa [Escrow.payer?, hr] using hpayer
    exact hbuyer ▸ hauth
  | @installment i r _ _ _ hr _ hauth =>
    have hbuyer : r.buyer = currentContractAddress := by simpa [Escrow.payer?, hr] using hpayer
    exact hbuyer ▸ hauth
  | bid _ _ hauth => exact Option.some.inj hpayer ▸ hauth
  | _ => simp [Escrow.payer?] at hpayer

/-- An auctioned swap is paid for by the bid; every other account is kept covered. -/
theorem Step.accounted (hstep : Step env c m c') (hwf : Wf c) (h : Accounted c) (hm : c.Backs m)
    (hpayer : c.payer? m ≠ some currentContractAddress) (hsale : ∀ j, m ≠ .finalized j) :
    Accounted c' := by
  cases hstep with
  | configured | received => exact h.aside [] rfl rfl (List.append_nil _).symm (by simp)
  | @initiated r hfresh =>
    exact h.opened hwf (by simp [SwapRecord.due, hfresh.status, hfresh.paid])
      (fun j => swap_enlist c j r) rfl rfl
  | @accepted i r r' deposits premium escrowed hr hfrom hauth hterms hto hprice hpaid hdeposits =>
    have hbuyer : r.buyer ≠ currentContractAddress := by simpa [Escrow.payer?, hr] using hpayer
    have hnonneg := due_nonneg (hwf.stored _ _ hr).2
    have hpremium := (hwf.stored _ _ hr).2.premium
    have hdue : r'.due = r'.price := by simp [SwapRecord.due, hto]
    refine h.moved r' _ hr (fun j => swap_setSwap _ i j _) (congrArg Terms.buyer hterms) ?_ rfl
      swap?_funding ?_
    · intro j hji
      cases deposits <;> simp [Escrow.pay, Escrow.setSwap, Escrow.recordDeposit,
        Escrow.collectPremium, Escrow.lockCollateral, hji]
    · rw [paidOut_funding _ _ _ hbuyer, collected_funding, hdue]
      cases deposits with
      | false =>
        simp only [Escrow.pay, Escrow.setSwap, Escrow.recordDeposit, Escrow.collectPremium,
          Escrow.lockCollateral, Bool.false_eq_true, if_false]
        split_ifs <;> omega
      | true =>
        simp only [Escrow.pay, Escrow.setSwap, Escrow.recordDeposit, Escrow.collectPremium,
          Escrow.lockCollateral, if_true, update_self, (hdeposits rfl).1, Option.getD_some,
          Option.getD_none]
        split_ifs <;> omega
  | @installment i r r' amount last hr hfrom hauth hterms hprice hquantity hpos hpaid hlast hto =>
    have hbuyer : r.buyer ≠ currentContractAddress := by simpa [Escrow.payer?, hr] using hpayer
    have hsound := (hwf.stored _ _ hr).2.paid
    have hle : r'.paidAmount ≤ r.paidAmount + amount := by
      rw [hpaid]
      exact saturate_le (by unfold i128Min; omega)
    have hdue : r'.due ≤ r.due + amount := by
      cases last with
      | true =>
        have hfull := hlast.mp rfl
        simp [SwapRecord.due, hto, hfrom]
        omega
      | false =>
        simp [SwapRecord.due, hto, hfrom]
        omega
    refine h.moved r' _ hr (fun j => swap_setSwap _ i j _) (congrArg Terms.buyer hterms)
      (fun _ _ => rfl) rfl (by simp [priceOf, Purpose.swap?]) ?_
    have hout : paidOutFor i [priceOf i r amount] = 0 := by
      simp [paidOutFor, paidOut_cons, priceOf, hbuyer]
    have hin : collectedFrom r.buyer i [priceOf i r amount] = amount := by
      simp [collectedFrom, onAccountOf, priceOf, Purpose.swap?]
    rw [hout, hin]
    change 0 + r'.due + (c.swapCollateral i).getD 0 ≤ _
    omega
  | scheduled => exact hm.elim
  | offered => exact h.aside [] rfl rfl (List.append_nil _).symm (by simp)
  | @repriced i r offer hr hfrom =>
    exact h.amended hr (fun j => swap_setSwap _ i j _) rfl rfl rfl (by simp [SwapRecord.due, hfrom])
  | @extended i r newExpiry hr =>
    exact h.amended hr (fun j => swap_setSwap _ i j _) rfl rfl rfl rfl
  | @disputed i r hr hfrom =>
    exact h.amended hr (fun j => swap_setSwap _ i j _) rfl rfl rfl (by simp [SwapRecord.due, hfrom])
  | @cancelled i r hr hfrom =>
    have hnonneg := due_nonneg (hwf.stored _ _ hr).2
    have hclosed := h.closed hr (q := .cancelled) rfl (.inl rfl)
      (.nil : PaidFor i r (fun _ => True) 0 []) (by simpa using hnonneg)
    simpa using hclosed
  | @released i r w ms hr hw hpaid =>
    have hdue := hw.due_eq hm
    exact h.closed hr rfl (sweptBy_cases c w i r) hpaid (by omega)
  | @refunded i r w ms hr hw hpaid =>
    have hdue := hw.due_eq hm
    exact h.closed hr rfl (sweptBy_cases c w i r) hpaid (by omega)
  | @withdrawn i r ms hr hfrom hauth hpaid =>
    have hle := withdrawn_le hwf hr hfrom
    have hclosed := h.closed hr (q := .cancelled) (o := none) rfl (.inl rfl) hpaid
      (by simpa using hle)
    exact ⟨hclosed.covered, hclosed.idle⟩
  | rolledBack => exact hm.elim
  | @adminRolledBack i r returned total ms hr hfrom hauth hpaid hfunded =>
    obtain ⟨ho, hle⟩ := rolledBack_le hwf hr hm hfunded
    exact h.closed hr rfl ho hpaid hle
  | claimed _ _ hclaim => simp [hwf.claimable] at hclaim
  | auctionStarted | unsold => exact h.aside [] rfl rfl (List.append_nil _).symm (by simp)
  | @bid i a bidder amount =>
    refine h.aside _ rfl rfl rfl ?_
    cases hbidder : a.highestBidder <;> simp [AuctionRecord.refund, hbidder, Purpose.swap?]
  | sold => exact absurd rfl (hsale _)

end Steps

end AtomicIp.AtomicSwap
