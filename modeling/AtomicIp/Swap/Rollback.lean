import AtomicIp.Swap.Accounts

/-!
The buyer's rollback of a completed swap. The completion has already paid the price out, so
every rollback pays it a second time, with the money of other swaps.
-/

set_option autoImplicit false

namespace AtomicIp.AtomicSwap

open Function

/-- Collected from others on account of the swap `i`. -/
def collected (i : ℕ) (ms : List TokenTransfer) : ℤ :=
  amountOf (fun m => m.src ≠ currentContractAddress ∧ m.dst = currentContractAddress ∧
    onAccountOf i m.ref) ms

def Call.Plain : Call → Prop
  | .initializeContract .. | .initiateSwap .. | .acceptSwap .. | .revealKey ..
  | .validateAndRollbackSwap .. => True
  | _ => False

def Move.Plain : Move → Prop
  | .configured | .received | .initiated _ | .released _ (.key _) | .rolledBack _ => True
  | _ => False

def SwapRecord.asked (r : SwapRecord) : ℤ :=
  r.price + max 0 r.collateralAmount + r.insurancePremium

/-- What such a swap has collected and paid out so far. -/
structure Ran (c : Escrow) (i : ℕ) (r : SwapRecord) : Prop where
  share : r.insurancePremium < r.price
  unpaid : r.status = .pending → collected i c.transfers ≤ 0
  collected : collected i c.transfers ≤ r.asked
  held : r.status = .accepted → 0 < r.collateralAmount →
    c.swapCollateral i = some r.collateralAmount
  paid : 0 ≤ paidOutFor i c.transfers
  released : r.status = .completed →
    r.price + max 0 r.collateralAmount ≤ paidOutFor i c.transfers

structure PlainRun (c : Escrow) : Prop where
  wf : Wf c
  ran : ∀ i r, c.swap i = some r → Ran c i r
  idle : Idle c

section Moves

variable {env : Env} {c c' : Escrow} {i j : ℕ} {r r' : SwapRecord} {ms : List TokenTransfer}
  {P : Address → Prop} {total : ℤ}

theorem collected_append (ns : List TokenTransfer) :
    collected i (ms ++ ns) = collected i ms + collected i ns := amountOf_append ns

theorem collected_other (h : ∀ m ∈ ms, m.ref.swap? ≠ some i) : collected i ms = 0 :=
  amountOf_none fun m hm => by simp [onAccountOf, h m hm]

theorem collected_paidFor (h : PaidFor i r P total ms) : collected i ms = 0 :=
  amountOf_none fun m hm => by simp [(h.escrowed m hm).2.1]

theorem PlainRun.moved (h : PlainRun c) (hwf : Wf c') (r' : SwapRecord) (ms : List TokenTransfer)
    (hswap : ∀ j, c'.swap j = if j = i then some r' else c.swap j)
    (hcollateral : ∀ j, j ≠ i → c'.swapCollateral j = c.swapCollateral j)
    (htransfers : c'.transfers = c.transfers ++ ms) (href : ∀ m ∈ ms, m.ref.swap? = some i)
    (hran : Ran c' i r') : PlainRun c' where
  wf := hwf
  ran j rj hj := by
    by_cases hji : j = i
    · obtain rfl : r' = rj := by simpa [hswap, hji] using hj
      exact hji ▸ hran
    · have hother : ∀ m ∈ ms, m.ref.swap? ≠ some j := by
        intro m hm
        rw [href m hm]
        simpa using Ne.symm hji
      have hsame := h.ran j rj (by simpa [hswap, hji] using hj)
      have hcollected : AtomicSwap.collected j c'.transfers =
          AtomicSwap.collected j c.transfers := by
        rw [htransfers, collected_append, collected_other hother, add_zero]
      have hpaid : paidOutFor j c'.transfers = paidOutFor j c.transfers := by
        rw [htransfers, paidOutFor_append, paidOutFor_other hother, add_zero]
      exact ⟨hsame.share, by rw [hcollected]; exact hsame.unpaid,
        by rw [hcollected]; exact hsame.collected, by rw [hcollateral j hji]; exact hsame.held,
        by rw [hpaid]; exact hsame.paid, by rw [hpaid]; exact hsame.released⟩
  idle := h.idle.moved hswap htransfers href

theorem PlainRun.aside (h : PlainRun c) (hwf : Wf c') (hswap : c'.swap = c.swap)
    (hcollateral : c'.swapCollateral = c.swapCollateral) (htransfers : c'.transfers = c.transfers) :
    PlainRun c' where
  wf := hwf
  ran i r hr := by
    have hran := h.ran i r (hswap ▸ hr)
    exact ⟨hran.share, by rw [htransfers]; exact hran.unpaid,
      by rw [htransfers]; exact hran.collected, by rw [hcollateral]; exact hran.held,
      by rw [htransfers]; exact hran.paid, by rw [htransfers]; exact hran.released⟩
  idle i hi := by
    rw [htransfers]
    exact h.idle i (hswap ▸ hi)

theorem PlainRun.initiated (h : PlainRun c) (hfresh : FreshSwap r) (key : ℕ) (o : Option ℕ)
    (hstep : Step env c (.initiated r) ((c.enlist r).setActiveSwap key o)) :
    PlainRun ((c.enlist r).setActiveSwap key o) := by
  have hidle := h.idle c.count h.wf.fresh
  have hasked : 0 ≤ r.asked := by
    have hprice := hfresh.price
    have hpremium := hfresh.premium
    unfold SwapRecord.asked
    omega
  refine h.moved (hstep.wf h.wf) r [] (fun j => swap_enlist c j r) (fun _ _ => rfl)
    (List.append_nil _).symm (by simp) ?_
  refine ⟨hfresh.share, fun _ => (collected_other hidle).le, ?_, ?_, ?_, ?_⟩
  · exact (collected_other hidle).le.trans hasked
  · simp [hfresh.status]
  · exact (paidOutFor_other hidle).ge
  · simp [hfresh.status]

theorem PlainRun.accepted (h : PlainRun c) (hr : c.swap i = some r) (hfrom : r.status = .pending)
    {deposits premium : Bool} {time : ℕ} (hasks : deposits = true ↔ 0 < r.collateralAmount)
    (hpos : ∀ m ∈ funding i r r.price deposits premium, 0 ≤ m.amount)
    (hwf : Wf (c.accept deposits premium i r (r.acceptedAt time))) :
    PlainRun (c.accept deposits premium i r (r.acceptedAt time)) := by
  have hran := h.ran i r hr
  have hpremium := (h.wf.stored i r hr).2.premium
  have hin := hran.unpaid hfrom
  have hcollected : AtomicSwap.collected i (funding i r r.price deposits premium) ≤ r.asked := by
    refine (amountOf_le hpos).trans ?_
    rw [sum_funding]
    unfold SwapRecord.asked
    split_ifs <;> omega
  have hpaid : 0 ≤ paidOutFor i (funding i r r.price deposits premium) := amountOf_nonneg hpos
  have hpaid₀ := hran.paid
  have htransfers : (c.accept deposits premium i r (r.acceptedAt time)).transfers =
      c.transfers ++ funding i r r.price deposits premium := rfl
  refine h.moved hwf (r.acceptedAt time) (funding i r r.price deposits premium)
    (fun j => swap_setSwap _ i j _) ?_ rfl swap?_funding ?_
  · intro j hji
    cases deposits <;> simp [Escrow.accept, Escrow.pay, Escrow.setSwap, Escrow.collectPremium,
      Escrow.lockCollateral, hji]
  · refine ⟨hran.share, fun hst => (by cases hst), ?_, ?_, ?_, fun hst => (by cases hst)⟩
    · rw [htransfers, collected_append]
      change _ ≤ r.asked
      omega
    · intro _ hpos
      obtain rfl := hasks.mpr hpos
      simp [Escrow.accept, Escrow.pay, Escrow.setSwap, Escrow.collectPremium,
        Escrow.lockCollateral, SwapRecord.acceptedAt]
    · rw [htransfers, paidOutFor_append]
      omega

theorem PlainRun.released (h : PlainRun c) (hr : c.swap i = some r) {k : Key}
    (hw : Releases env c i r (.key k))
    (hpaid : PaidFor i r r.Payee (r.price + (c.sweptBy (.key k) i r).getD 0) ms)
    (hwf : Wf (((c.close i r .completed).release i (c.sweptBy (.key k) i r)).pay ms)) :
    PlainRun (((c.close i r .completed).release i (c.sweptBy (.key k) i r)).pay ms) := by
  have hran := h.ran i r hr
  have hpaid₀ := hran.paid
  have hswept : (c.sweptBy (.key k) i r).getD 0 = max 0 r.collateralAmount := by
    by_cases hpos : 0 < r.collateralAmount
    · have hheld := hran.held hw.1 hpos
      simp [Escrow.sweptBy, Warrant.sweeps, Escrow.heldFor, hpos, hheld]
      omega
    · simp [Escrow.sweptBy, Warrant.sweeps, Escrow.heldFor, hpos]
      omega
  have hprice := (h.wf.stored i r hr).2.price
  have htransfers : (((c.close i r .completed).release i (c.sweptBy (.key k) i r)).pay ms).transfers
      = c.transfers ++ ms := rfl
  refine h.moved hwf (r.withStatus .completed) ms (fun j => swap_close c i j r _) ?_ rfl
    (fun m hm => (hpaid.escrowed m hm).2.2.1) ?_
  · intro j hji
    cases hswept : c.sweptBy (.key k) i r <;>
      simp [Escrow.close, Escrow.release, Escrow.pay, Escrow.setSwap, Escrow.setActiveSwap, hji]
  · refine ⟨hran.share, fun hst => (by cases hst), ?_, fun hst => (by cases hst), ?_, fun _ => ?_⟩
    · rw [htransfers, collected_append, collected_paidFor hpaid, add_zero]
      exact hran.collected
    · rw [htransfers, paidOutFor_append, hpaid.paidOutFor, hswept]
      omega
    · rw [htransfers, paidOutFor_append, hpaid.paidOutFor, hswept]
      change r.price + max 0 r.collateralAmount ≤ _
      omega

theorem PlainRun.rolledBack (h : PlainRun c) (hr : c.swap i = some r)
    (hpaid : PaidFor i r P total ms) (htotal : total = r.price)
    (hwf : Wf ((c.setSwap i (some (r.withStatus .rolledBack))).pay ms)) :
    PlainRun ((c.setSwap i (some (r.withStatus .rolledBack))).pay ms) := by
  have hran := h.ran i r hr
  have hpaid₀ := hran.paid
  have hprice := (h.wf.stored i r hr).2.price
  have htransfers : ((c.setSwap i (some (r.withStatus .rolledBack))).pay ms).transfers
      = c.transfers ++ ms := rfl
  refine h.moved hwf (r.withStatus .rolledBack) ms (fun j => swap_setSwap c i j _) (fun _ _ => rfl)
    rfl (fun m hm => (hpaid.escrowed m hm).2.2.1) ?_
  refine ⟨hran.share, fun hst => (by cases hst), ?_, fun hst => (by cases hst), ?_,
    fun hst => (by cases hst)⟩
  · rw [htransfers, collected_append, collected_paidFor hpaid, add_zero]
    exact hran.collected
  · rw [htransfers, paidOutFor_append, hpaid.paidOutFor]
    omega

end Moves

section Runs

variable {env : Env} {s s' : State} {act : Act} {i : ℕ} {r : SwapRecord}

theorem Step.plainRun {c c' : Escrow} {m : Move} (hstep : Step env c m c') (h : PlainRun c)
    (hm : m.Plain) : PlainRun c' := by
  have hwf := hstep.wf h.wf
  cases hstep with
  | configured | received => exact h.aside hwf rfl rfl rfl
  | initiated hfresh hfree hauth => exact h.initiated hfresh _ _ (.initiated hfresh hfree hauth)
  | @released i r w ms hr hw hpaid =>
    cases w with
    | key k => exact h.released hr hw hpaid hwf
    | _ => exact hm.elim
  | rolledBack hr hfrom hauth hpaid htotal =>
    exact h.rolledBack hr hpaid (htotal (h.wf.stored _ _ hr).2.price) hwf
  | _ => exact hm.elim

theorem Call.Plain.move {call : Call} {m : Move} (h : call.Plain) (hm : call.yields m)
    (haccept : ∀ i, call ≠ .acceptSwap i) : m.Plain := by
  cases call with
  | initializeContract | revealKey =>
    obtain rfl := hm
    trivial
  | initiateSwap =>
    obtain ⟨r, rfl, -⟩ := hm
    trivial
  | validateAndRollbackSwap =>
    obtain ⟨-, rfl⟩ := hm
    trivial
  | acceptSwap i => exact absurd rfl (haccept i)
  | _ => exact h.elim

theorem ActStep.plainRun (hact : ActStep s act s')
    (hcond : OnCalls (fun _ _ call => call.Plain) s act)
    (h : PlainRun s.escrow) : PlainRun s'.escrow := by
  have hwf := hact.wf h.wf
  obtain ⟨q, hmoves⟩ := hact.answers
  cases hact with
  | elsewhere balance hbalance => exact h.aside hwf rfl rfl rfl
  | @call _ env call hexec =>
    have hplain : call.Plain := hcond call rfl
    by_cases haccept : ∃ i, call = .acceptSwap i
    · obtain ⟨i, rfl⟩ := haccept
      obtain ⟨r, deposits, premium, hr, hfrom, -, hasks, -, -, hpos, e⟩ := acceptSwap_escrow hexec
      rw [e] at hwf ⊢
      exact h.accepted hr hfrom hasks hpos hwf
    · refine hmoves.invariant (I := PlainRun) ?_ h
      intro c m c' hm hc hstep
      exact hstep.plainRun hc (hplain.move hm.1 fun i heq => haccept ⟨i, heq⟩)

theorem PlainRun.empty (balance : Address → Address → ℤ) : PlainRun (State.empty balance).escrow :=
  ⟨.empty balance, by simp [State.escrow, State.empty], .empty balance⟩

/-- Each rollback leaves the contract with less than it has paid out for the swap. -/
theorem rollback_overpays {balance : Address → Address → ℤ} {tr : List (Act × State)}
    {rolledBack : Bool}
    (hrun : Run (Restrict ActStep (OnCalls fun _ _ call => call.Plain)) (State.empty balance) tr s)
    (h : validateAndRollbackSwap env i false s = .ok (rolledBack, s')) :
    collected i s'.transfers < paidOutFor i s'.transfers := by
  have hplain := hrun.invariant (I := fun s => PlainRun s.escrow) (.empty balance)
    fun _ _ _ hs hact => hact.1.plainRun hact.2 hs
  have hstep := validateAndRollbackSwap_step h
  change collected i s'.escrow.transfers < paidOutFor i s'.escrow.transfers
  generalize s'.escrow = c' at hstep
  cases hstep with
  | @rolledBack _ r total ms hr hfrom hauth hpaid htotal =>
    have hran := hplain.ran i r hr
    have hprice := (hplain.wf.stored i r hr).2.price
    have hshare := hran.share
    have hin := hran.collected
    have hout := hran.released hfrom
    have htransfers : ((s.escrow.setSwap i (some (r.withStatus .rolledBack))).pay ms).transfers =
        s.escrow.transfers ++ ms := rfl
    rw [htransfers, collected_append, collected_paidFor hpaid, paidOutFor_append,
      hpaid.paidOutFor, htotal hprice]
    unfold SwapRecord.asked at hin
    omega

end Runs

section Sales

open Scenario

def soldAndPaid : List (Env × Call) :=
  paidSales ++ [(env [seller] 4, Call.revealKey 0 seller secret secret)]

theorem soldAndPaid_rolledBack (seen : State → Bool)
    (h : watch (State.empty funds) soldAndPaid (env [buyer] 5) (.validateAndRollbackSwap 0 false)
      (fun _ s => seen s) = true) :
    ∃ tr s rolledBack s',
      Run (Restrict ActStep (OnCalls fun _ _ call => call.Plain)) (State.empty funds) tr s ∧
      validateAndRollbackSwap (env [buyer] 5) 0 false s = .ok (rolledBack, s') ∧
      seen s' = true := by
  obtain ⟨tr, s, s', hrun, hexec, hseen⟩ := watched (OnCalls fun _ _ call => call.Plain) funds
    soldAndPaid (env [buyer] 5) (.validateAndRollbackSwap 0 false) (fun _ s => seen s) h
    (by simp [soldAndPaid, paidSales, sales, sale, offer, OnCalls, Call.Plain])
  obtain ⟨rolledBack, hexec⟩ := Tx.void_ok.mp hexec
  exact ⟨tr, s, rolledBack, s', hrun, hexec, hseen⟩

theorem sale_rollback_overpays : ∃ s rolledBack s',
    validateAndRollbackSwap (env [buyer] 5) 0 false s = .ok (rolledBack, s') ∧
    collected 0 s'.transfers < paidOutFor 0 s'.transfers := by
  obtain ⟨tr, s, rolledBack, s', hrun, hexec, -⟩ :=
    soldAndPaid_rolledBack (fun _ => true) (by decide)
  exact ⟨s, rolledBack, s', hexec, rollback_overpays hrun hexec⟩

/-- The price of the second sale goes into the rollback of the first one. -/
theorem rollback_spends_other_price : ∃ balance tr s env i rolledBack s' j r,
    Run (Restrict ActStep (OnCalls fun _ _ call => call.Plain)) (State.empty balance) tr s ∧
    validateAndRollbackSwap env i false s = .ok (rolledBack, s') ∧
    ¬ paidOutFor i s'.transfers ≤ collected i s'.transfers ∧
    j ≠ i ∧ s'.swap j = some r ∧ r.status = .accepted ∧
    s'.balance r.token currentContractAddress < r.price := by
  obtain ⟨tr, s, rolledBack, s', hrun, hexec, hseen⟩ := soldAndPaid_rolledBack
    (fun s => ¬ paidOutFor 0 s.transfers ≤ collected 0 s.transfers ∧
      (s.swap 1).any fun r => r.status = .accepted ∧
        s.balance r.token currentContractAddress < r.price) (by decide)
  simp only [decide_eq_true_eq, Option.any_eq_true] at hseen
  obtain ⟨hover, r, hr, hst, hshort⟩ := hseen
  exact ⟨funds, tr, s, _, 0, rolledBack, s', 1, r, hrun, hexec, hover, by simp, hr, hst, hshort⟩

end Sales

end AtomicIp.AtomicSwap
