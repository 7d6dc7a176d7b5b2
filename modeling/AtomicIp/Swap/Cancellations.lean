import AtomicIp.Swap.Refunds

/-!
What a cancellation gives back. The refunds go by the price of the swap: what was paid while the
swap was still pending, or above the price, is not refunded.
-/

set_option autoImplicit false

namespace AtomicIp.AtomicSwap

open Function

def bidOf (s : State) (act : Act) : ℤ :=
  match act.call with
  | some (.finalizeAuction j) => ((s.auction j).map AuctionRecord.highestBid).getD 0
  | _ => 0

/-- The bid that bought the swap `i`, if an auction did. -/
def wonBid (s₀ : State) (i : ℕ) : List (Act × State) → ℤ
  | [] => 0
  | (act, _) :: tr => if (now s₀ tr).swap i = none then bidOf (now s₀ tr) act else wonBid s₀ i tr

/-- A step that cancels a swap gives its buyer back what he has paid for it, his bid included. -/
def RefundsInFull (won : ℕ → ℤ) (s s' : State) : Prop :=
  ∀ i r r', s.swap i = some r → s'.swap i = some r' → r.status ≠ .cancelled →
    r'.status = .cancelled →
    paidTowards r.buyer i s.transfers + won i ≤ refundedTo r.buyer i (newTransfers s s')

/-- A swap is accepted or cancelled before anything was paid for it, a payment or a new price
leaves the price above the payments, and only a deposit is withdrawn. -/
def KeepsRefundable (s : State) (_env : Env) : Call → Prop
  | .acceptSwap i | .acceptSwapConditional i _ | .acceptSwapPartial i _ | .escrowDeposit i
  | .cancelSwap i _ | .cancelPendingSwap i _ => Unpaid s.escrow i
  | .batchEscrowDeposit ids _ | .batchCancelSwaps ids _ _ => ∀ i ∈ ids, Unpaid s.escrow i
  | .batchAcceptSwaps ids _ => ids.Nodup ∧ ∀ i ∈ ids, Unpaid s.escrow i
  | .submitInstallmentPayment i amount => ∀ r, s.swap i = some r →
      paidTowards r.buyer i s.transfers + amount ≤ r.price
  | .makeScheduledPayment i index => ∀ r schedule payment, s.swap i = some r →
      s.paymentSchedule i = some schedule → schedule[index]? = some payment →
      paidTowards r.buyer i s.transfers + payment.amount ≤ r.price
  | .acceptRenegotiation i => ∀ r offer, s.swap i = some r →
      s.swapRenegotiations i = some offer → paidTowards r.buyer i s.transfers ≤ offer.newPrice
  | .escrowWithdraw i => (s.escrowDeposit i).isSome
  | .adminRollbackSwap i _ _ => Returnable s.escrow i
  | .batchRollbackSwaps ids _ _ => ∀ i ∈ ids, Returnable s.escrow i
  | _ => True

/-- The calls whose moves are not free. -/
def Call.Binds : Call → Prop
  | .acceptSwap _ | .acceptSwapConditional .. | .acceptSwapPartial .. | .batchAcceptSwaps ..
  | .escrowDeposit _ | .batchEscrowDeposit .. | .makeScheduledPayment ..
  | .submitInstallmentPayment .. | .acceptRenegotiation _ | .extendSwapExpiry .. | .cancelSwap ..
  | .cancelPendingSwap .. | .batchCancelSwaps .. | .escrowWithdraw _ | .adminRollbackSwap ..
  | .batchRollbackSwaps .. | .finalizeAuction _ => True
  | _ => False

/-- A move that owes no refund it does not pay, whatever the escrow looks like. -/
structure Move.Free (m : Move) : Prop where
  quiet : m.Quiet
  refunds : ∀ c, m.Refunds c
  sale : ∀ j, m ≠ .finalized j

section Calls

variable {env : Env} {s s' : State} {call : Call} {m : Move} {act : Act} {i index : ℕ}
  {r : SwapRecord} {u : Unit} {won : ℕ → ℤ} {c c' : Escrow} {ids : List ℕ} {amount : ℤ}

theorem Move.Free.of_verdict {refund : Bool} {w : Warrant} : (verdict refund w i).Free := by
  cases refund <;> exact ⟨trivial, fun _ => trivial, by simp [verdict]⟩

theorem Call.yields_free (h : call.yields m) (hplain : ¬ call.Binds) : m.Free := by
  cases call with
  | acceptSwap | acceptSwapConditional | acceptSwapPartial | batchAcceptSwaps | escrowDeposit
  | batchEscrowDeposit | makeScheduledPayment | submitInstallmentPayment | acceptRenegotiation
  | extendSwapExpiry | cancelSwap | cancelPendingSwap | batchCancelSwaps | escrowWithdraw
  | adminRollbackSwap | batchRollbackSwaps | finalizeAuction => exact absurd trivial hplain
  | resolveDispute | arbitrateSwap =>
    obtain rfl := h
    exact .of_verdict
  | batchArbitrateSwaps =>
    obtain ⟨i, -, rfl⟩ := h
    exact .of_verdict
  | verifyAndCompleteSwap =>
    rcases h with rfl | rfl <;> exact ⟨trivial, fun _ => trivial, by simp⟩
  | batchRevealKeys =>
    obtain ⟨i, -, k, -, rfl⟩ := h
    exact ⟨trivial, fun _ => trivial, by simp⟩
  | initiateSwap | initiateSwapWithOraclePrice | batchInitiateSwap | batchInitiateSwapWithInsurance
  | initiateSwapWithSchedule | initiateEscrowSwap | batchInitiateEscrow | initiateSwapWithSigners =>
    obtain ⟨r, rfl, -⟩ := h
    exact ⟨trivial, fun _ => trivial, by simp⟩
  | validateAndRollbackSwap =>
    obtain ⟨-, rfl⟩ := h
    exact ⟨trivial, fun _ => trivial, by simp⟩
  | startIpAuction =>
    obtain ⟨a, rfl, -⟩ := h
    exact ⟨trivial, fun _ => trivial, by simp⟩
  | initializeContract | setAdmin | renegotiateSwap | revealKey | raiseDispute
  | autoResolveDispute | autoRefundTimeout | cancelExpiredSwap | claimInsurance | placeBid =>
    obtain rfl := h
    exact ⟨trivial, fun _ => trivial, by simp⟩
  | _ => exact h.elim

theorem Cashier.accepts (heach : EachSwap (Backed won) s.escrow)
    (hstep : Step env s.escrow (.accepted i) s'.escrow) (hr : s.escrow.swap i = some r)
    (hfrom : r.status = .pending) (hunpaid : Unpaid s.escrow i) :
    Cashier won s.escrow s'.escrow := by
  refine (Cashier.refl heach).step hstep trivial (heach.accepts hstep ?_ hunpaid)
  intro r₁ hr₁
  rw [← Option.some.inj (hr.symm.trans hr₁), hfrom]

theorem Cashier.charges {escrowed : Bool} (heach : EachSwap (Backed won) s.escrow)
    (h : Charging escrowed env s.escrow (.accepted i) s'.escrow) (hunpaid : Unpaid s.escrow i) :
    Cashier won s.escrow s'.escrow := by
  have hstep := h.step
  obtain ⟨_, r, r', hi, hfrom, haccepts⟩ := h
  obtain rfl := Move.accepted.inj hi
  exact .accepts heach hstep haccepts.stored hfrom hunpaid

/-- Swaps that are still pending have not been paid for. -/
def PendingUnpaid (ids : List ℕ) (c : Escrow) : Prop :=
  ∀ i ∈ ids, ∀ r, c.swap i = some r → r.status = .pending →
    paidTowards r.buyer i c.transfers = 0

theorem PendingUnpaid.accepts {k : ℕ} (h : PendingUnpaid ids c)
    (hstep : Step env c (.accepted k) c') (hwf : Wf c) : PendingUnpaid ids c' := by
  intro i hi r' hr' hto
  by_cases hik : i = k
  · obtain ⟨r, hr, -⟩ := hstep.guard (i := i) (congrArg some hik.symm)
    have hst := (hstep.moved hwf (congrArg some hik.symm) hr hr').status
    rw [hto] at hst
    cases hst
  · have hother : (Move.accepted k).swap? ≠ some i := by simpa [Move.swap?] using Ne.symm hik
    rw [hstep.unpaid_apart hother]
    rcases hstep.rest hother hr' with hr | ⟨-, hadds⟩
    · exact h i hi r' hr hto
    · cases hadds.apart

theorem batchEscrowDeposit_cashier {buyer : Address}
    (h : batchEscrowDeposit env ids buyer s = .ok (u, s')) (hunpaid : ∀ i ∈ ids, Unpaid s.escrow i)
    (heach : EachSwap (Backed won) s.escrow) : Cashier won s.escrow s'.escrow := by
  have hall := (batchEscrowDeposit_charging h).invariant
    (I := fun c => Cashier won s.escrow c ∧ PendingUnpaid ids c) ?_
    ⟨.refl heach, fun i hi r hr _ => hunpaid i hi r hr⟩
  · exact hall.1
  · intro c m c' hm hc hcharging
    obtain ⟨i, hi, rfl⟩ := hm
    obtain ⟨hc, hpending⟩ := hc
    have hstep := hcharging.step
    obtain ⟨_, r, r', hj, hfrom, haccepts⟩ := hcharging
    obtain rfl := Move.accepted.inj hj
    have hfirst : ∀ r₁, c.swap i = some r₁ → r₁.status = .pending := by
      intro r₁ hr₁
      rw [← Option.some.inj (haccepts.stored.symm.trans hr₁), hfrom]
    have hnone : Unpaid c i := fun r₁ hr₁ => hpending i hi r₁ hr₁ (hfirst r₁ hr₁)
    exact ⟨hc.step hstep trivial (hc.backed.accepts hstep hfirst hnone),
      hpending.accepts hstep hc.backed.wf⟩

theorem batchAcceptSwaps_cashier {buyer : Address}
    (h : batchAcceptSwaps env ids buyer s = .ok (u, s')) (hnodup : ids.Nodup)
    (hunpaid : ∀ i ∈ ids, Unpaid s.escrow i) (heach : EachSwap (Backed won) s.escrow) :
    Cashier won s.escrow s'.escrow := by
  obtain ⟨hall, hpath⟩ := batchAcceptSwaps_path h
  refine (Cashier.refl heach).batch hnodup (hpath.weaken fun _ _ _ hstep => hstep.step) ?_ hunpaid
  intro i hi r hr
  obtain ⟨r₁, hr₁, -, hfrom⟩ := hall i hi
  rw [Option.some.inj (hr.symm.trans hr₁), hfrom]

theorem EachSwap.unwon_of_kind (heach : EachSwap (Backed won) c) (hr : c.swap i = some r)
    (hkind : r.isInstallment = true) : won i = 0 := by
  cases (heach.each i r hr).won with
  | inl hzero => exact hzero
  | inr hauctioned =>
    have hnot : r.isInstallment = false := hauctioned.2
    rw [hkind] at hnot
    cases hnot

theorem submitInstallmentPayment_cashier (h : submitInstallmentPayment env i amount s = .ok (u, s'))
    (hcond : KeepsRefundable s env (.submitInstallmentPayment i amount))
    (heach : EachSwap (Backed won) s.escrow) : Cashier won s.escrow s'.escrow := by
  obtain ⟨last, -, hstep⟩ := submitInstallmentPayment_step h
  obtain ⟨r, r', hpays⟩ := submitInstallmentPayment_pays h
  have hr' : s'.escrow.swap i = some r' := by
    rw [hpays.escrow]
    simp [Escrow.pay, Escrow.setSwap]
  have hprice : r'.price = r.price := by
    by_cases hdone : r.price ≤ saturatingI128 (r.paidAmount + amount)
    · rw [hpays.done hdone]
      rfl
    · rw [hpays.open_ hdone]
      rfl
  refine (Cashier.refl heach).step hstep trivial (heach.charged hstep rfl hpays.stored hr' ?_
    hpays.pos.le hprice (heach.unwon hpays.stored hpays.pending) (hcond r hpays.stored))
  rw [hpays.escrow]
  rfl

theorem makeScheduledPayment_cashier (h : makeScheduledPayment env i index s = .ok (u, s'))
    (hcond : KeepsRefundable s env (.makeScheduledPayment i index)) (harranged : Arranged s)
    (heach : EachSwap (Backed won) s.escrow) : Cashier won s.escrow s'.escrow := by
  obtain ⟨last, -, hstep⟩ := makeScheduledPayment_step h
  obtain ⟨r, r', payment, hpays⟩ := makeScheduledPayment_pays h
  obtain ⟨schedule, hschedule, hpayment⟩ := hpays.scheduled
  have hr' : s'.escrow.swap i = some r' := by
    rw [hpays.escrow]
    simp [Escrow.pay, Escrow.setSwap]
  have hprice : r'.price = r.price := by
    by_cases hdone : ScheduleDone s i index
    · rw [hpays.done hdone]
      rfl
    · rw [hpays.open_ hdone]
  have hkind : r.isInstallment = true := by
    obtain ⟨r₁, hr₁, -, hkind⟩ :=
      harranged.scheduled i (Option.isSome_iff_exists.mpr ⟨_, hschedule⟩)
    rw [Option.some.inj (hpays.stored.symm.trans hr₁), hkind]
  refine (Cashier.refl heach).step hstep trivial (heach.charged hstep rfl hpays.stored hr' ?_
    hpays.nonneg hprice (heach.unwon_of_kind hpays.stored hkind)
    (hcond r schedule payment hpays.stored hschedule hpayment))
  rw [hpays.escrow]
  rfl

theorem acceptRenegotiation_cashier (h : acceptRenegotiation env i s = .ok (u, s'))
    (hcond : KeepsRefundable s env (.acceptRenegotiation i))
    (heach : EachSwap (Backed won) s.escrow) : Cashier won s.escrow s'.escrow := by
  have hstep := acceptRenegotiation_step h
  refine (Cashier.refl heach).step hstep trivial
    (heach.covers hstep (fun _ hadds => by cases hadds.apart) ?_)
  intro j r r' hj hr hr' _
  obtain rfl := Option.some.inj hj
  obtain ⟨r₀, offer, hr₀, hfrom, -, hoffer, e⟩ := acceptRenegotiation_escrow h
  obtain rfl := Option.some.inj (hr.symm.trans hr₀)
  obtain rfl : { r with price := offer.newPrice } = r' := by
    rw [e] at hr'
    simpa [Escrow.setSwap, Escrow.setSwapRenegotiations] using hr'
  have hwithin : paidTowards r.buyer i s.transfers ≤ offer.newPrice := hcond r offer hr hoffer
  rw [heach.unwon hr hfrom, add_zero, e]
  exact hwithin

theorem extendSwapExpiry_cashier {newExpiry : ℕ}
    (h : extendSwapExpiry env i newExpiry s = .ok (u, s'))
    (heach : EachSwap (Backed won) s.escrow) : Cashier won s.escrow s'.escrow := by
  have hstep := extendSwapExpiry_step h
  refine (Cashier.refl heach).step hstep trivial
    (heach.covers hstep (fun _ hadds => by cases hadds.apart) ?_)
  intro j r r' hj hr hr' hbacked
  obtain rfl := Option.some.inj hj
  obtain ⟨r₀, hr₀, -, -, -, e⟩ := extendSwapExpiry_escrow h
  obtain rfl := Option.some.inj (hr.symm.trans hr₀)
  obtain rfl : { r with expiry := newExpiry } = r' := by
    rw [e] at hr'
    simpa [Escrow.setSwap] using hr'
  have hcovered := hbacked.covered
  simp only [Escrow.position, paidTowards_account] at hcovered
  rw [e]
  exact hcovered

theorem Unpaid.step (h : Unpaid c i) (hstep : Step env c m c') (hm : m.Quiet)
    (hnew : ∀ r, ¬ Adds m c r) : Unpaid c' i := by
  intro r' hr'
  rcases hstep.origin hr' with ⟨r, hr, hterms⟩ | hadds
  · have hbuyer : r'.buyer = r.buyer := congrArg Terms.buyer hterms
    rw [hstep.unpaid hm, hbuyer]
    exact h r hr
  · exact absurd hadds (hnew r')

theorem Returnable.rollBack {k : ℕ} (h : Returnable c i)
    (hstep : Step env c (.adminRolledBack k) c') (hwf : Wf c) : Returnable c' i := by
  intro r' hr'
  rcases hstep.origin hr' with ⟨r, hr, hterms⟩ | hadds
  · have hbuyer : r'.buyer = r.buyer := congrArg Terms.buyer hterms
    obtain ⟨r₁, hr₁, hkept⟩ := hstep.keeps hwf hr
    obtain rfl := Option.some.inj (hr'.symm.trans hr₁)
    rw [hstep.unpaid trivial, hbuyer]
    cases hkept with
    | inl hsame =>
      rw [hsame.1]
      exact h r hr
    | inr hmoved =>
      have hst : r'.status = .cancelled := hmoved.2.status
      simp [hst]
  · cases hadds.apart

theorem batchCancelSwaps_cashier {canceller : Address} {reasons : List Bytes}
    {cancelledIds : List ℕ}
    (h : batchCancelSwaps env ids canceller reasons s = .ok (cancelledIds, s'))
    (hunpaid : ∀ i ∈ ids, Unpaid s.escrow i) (heach : EachSwap (Backed won) s.escrow) :
    Cashier won s.escrow s'.escrow := by
  have hall := (batchCancelSwaps_moves h).invariant
    (I := fun c => Cashier won s.escrow c ∧ ∀ i ∈ ids, Unpaid c i) ?_ ⟨.refl heach, hunpaid⟩
  · exact hall.1
  · intro c m c' hm hc hstep
    obtain ⟨i, hi, rfl⟩ := hm
    obtain ⟨hc, hunpaid⟩ := hc
    have hnew : ∀ r, ¬ Adds (.cancelled i) c r := fun r hadds => by cases hadds.apart
    exact ⟨hc.step hstep (hunpaid i hi) (hc.backed.quiet hstep trivial fun r hadds =>
      absurd hadds (hnew r)), fun j hj => (hunpaid j hj).step hstep trivial hnew⟩

theorem batchRollbackSwaps_cashier {caller : Address} {reason : Bytes}
    (h : batchRollbackSwaps env ids caller reason s = .ok (u, s'))
    (hreturn : ∀ i ∈ ids, Returnable s.escrow i) (heach : EachSwap (Backed won) s.escrow) :
    Cashier won s.escrow s'.escrow := by
  have hall := (batchRollbackSwaps_moves h).invariant
    (I := fun c => Cashier won s.escrow c ∧ ∀ i ∈ ids, Returnable c i) ?_ ⟨.refl heach, hreturn⟩
  · exact hall.1
  · intro c m c' hm hc hstep
    obtain ⟨i, hi, rfl⟩ := hm
    obtain ⟨hc, hreturn⟩ := hc
    have hnew : ∀ r, ¬ Adds (.adminRolledBack i) c r := fun r hadds => by cases hadds.apart
    exact ⟨hc.step hstep (hreturn i hi) (hc.backed.quiet hstep trivial fun r hadds =>
      absurd hadds (hnew r)), fun j hj => (hreturn j hj).rollBack hstep hc.backed.wf⟩

theorem Cashier.settles (heach : EachSwap (Backed won) s.escrow)
    (hstep : Step env s.escrow m s'.escrow) (hm : m.Refunds s.escrow) (hquiet : m.Quiet)
    (hnew : ∀ r, ¬ Adds m s.escrow r) : Cashier won s.escrow s'.escrow :=
  (Cashier.refl heach).step hstep hm
    (heach.quiet hstep hquiet fun r hadds => absurd hadds (hnew r))

theorem finalizeAuction_cashier (h : finalizeAuction env i s = .ok (u, s'))
    (hwon : ∀ j, s.swap j = none → won j = bidOf s ⟨env, some (.finalizeAuction i)⟩)
    (heach : EachSwap (Backed won) s.escrow) : Cashier won s.escrow s'.escrow := by
  have hstep := finalizeAuction_step h
  refine (Cashier.refl heach).step hstep trivial (heach.quiet hstep trivial ?_)
  intro r hadds
  rcases hadds with ⟨hm, -⟩ | ⟨j, a, buyer, hm, ha, -, hr⟩
  · cases hm
  · obtain rfl := Move.finalized.inj hm
    have hbid := hwon s.escrow.count heach.wf.fresh
    have hauction : s.auction i = some a := ha
    simp only [bidOf, hauction, Option.map_some, Option.getD_some] at hbid
    refine ⟨?_, .inr ⟨?_, hr.plain⟩⟩
    · simp only [paidTowards, amountOf_nil]
      rw [hbid, hr.price]
      omega
    · simp [hr.status]

theorem exec_cashier (h : exec env call s = .ok ((), s')) (harranged : Arranged s)
    (hcond : KeepsRefundable s env call)
    (hwon : ∀ i, s.swap i = none → won i = bidOf s ⟨env, some call⟩)
    (heach : EachSwap (Backed won) s.escrow) : Cashier won s.escrow s'.escrow := by
  cases call with
  | acceptSwap =>
    obtain ⟨r, _, _, hr, hfrom, -⟩ := acceptSwap_escrow h
    exact .accepts heach (acceptSwap_step h) hr hfrom hcond
  | acceptSwapConditional => exact .charges heach (acceptSwapConditional_charging h) hcond
  | acceptSwapPartial => exact .charges heach (acceptSwapPartial_charging h) hcond
  | escrowDeposit => exact .charges heach (escrowDeposit_charging h) hcond
  | batchAcceptSwaps => exact batchAcceptSwaps_cashier h hcond.1 hcond.2 heach
  | batchEscrowDeposit => exact batchEscrowDeposit_cashier h hcond heach
  | makeScheduledPayment => exact makeScheduledPayment_cashier h hcond harranged heach
  | submitInstallmentPayment => exact submitInstallmentPayment_cashier h hcond heach
  | acceptRenegotiation => exact acceptRenegotiation_cashier h hcond heach
  | extendSwapExpiry => exact extendSwapExpiry_cashier h heach
  | cancelSwap =>
    exact .settles heach (cancelSwap_step h) hcond trivial fun _ hadds => by cases hadds.apart
  | cancelPendingSwap =>
    exact .settles heach (cancelPendingSwap_step h) hcond trivial fun _ hadds => by
      cases hadds.apart
  | batchCancelSwaps =>
    obtain ⟨_, h⟩ := Tx.void_ok.mp h
    exact batchCancelSwaps_cashier h hcond heach
  | escrowWithdraw =>
    exact .settles heach (escrowWithdraw_step h) hcond trivial fun _ hadds => by cases hadds.apart
  | adminRollbackSwap =>
    exact .settles heach (adminRollbackSwap_step h) hcond trivial fun _ hadds => by
      cases hadds.apart
  | batchRollbackSwaps => exact batchRollbackSwaps_cashier h hcond heach
  | finalizeAuction => exact finalizeAuction_cashier h hwon heach
  | _ =>
    obtain ⟨q, hmoves⟩ := exec_answers h
    refine hmoves.invariant ?_ (.refl heach)
    intro c m c' hm hc hstep
    have hfree := Call.yields_free hm.1 id
    exact hc.quiet hstep (hfree.refunds c) hfree.quiet hfree.sale hwon

/-- What a run that keeps the swaps refundable keeps. -/
structure Refundable (s₀ : State) (tr : List (Act × State)) (s : State) : Prop where
  present : now s₀ tr = s
  arranged : Arranged s
  backed : EachSwap (Backed fun i => wonBid s₀ i tr) s.escrow

theorem EachSwap.same_won {won' : ℕ → ℤ} (h : EachSwap (Backed won) c)
    (hsame : ∀ i r, c.swap i = some r → won' i = won i) : EachSwap (Backed won') c where
  wf := h.wf
  each i r hr := by
    have hbacked := h.each i r hr
    refine ⟨?_, ?_⟩
    · rw [hsame i r hr]
      exact hbacked.covered
    · rw [hsame i r hr]
      exact hbacked.won
  idle := h.idle

theorem Refundable.step {s₀ : State} {tr : List (Act × State)} (h : Refundable s₀ tr s)
    (hact : ActStep s act s') (hcond : OnCalls KeepsRefundable s act) :
    Refundable s₀ ((act, s') :: tr) s' ∧ RefundsInFull (fun i => wonBid s₀ i tr) s s' := by
  have hstored : ∀ i r, s.escrow.swap i = some r →
      wonBid s₀ i ((act, s') :: tr) = wonBid s₀ i tr := by
    intro i r hr
    have hr' : s.swap i = some r := hr
    simp [wonBid, h.present, hr']
  have hbacked := h.backed.same_won hstored
  have hcashier : Cashier (fun i => wonBid s₀ i ((act, s') :: tr)) s.escrow s'.escrow := by
    cases hact with
    | @elsewhere env balance hbalance =>
      have hstep : Step env s.escrow .received _ := .received balance hbalance
      exact .settles hbacked hstep trivial trivial fun _ hadds => by
        rcases hadds with ⟨hm, -⟩ | ⟨_, _, _, hm, -⟩ <;> cases hm
    | @call _ env call hexec =>
      refine exec_cashier hexec h.arranged (hcond call rfl) ?_ hbacked
      intro i hi
      simp [wonBid, h.present, hi]
  refine ⟨⟨rfl, h.arranged.step hact, hcashier.backed⟩, ?_⟩
  obtain ⟨ms, hms, -, hrepaid⟩ := hcashier.repaid
  have hnew : newTransfers s s' = ms := by
    have htransfers : s'.transfers = s.transfers ++ ms := hms
    rw [newTransfers, htransfers, List.drop_left]
  intro i r r' hr hr' hopen hto
  have hback := hrepaid i r r' hr hr' hopen hto
  simp only [hstored i r hr] at hback
  rw [hnew]
  exact hback

end Calls

theorem run_refundable {balance : Address → Address → ℤ} {tr : List (Act × State)} {s : State}
    (hrun : Run (Restrict ActStep (OnCalls KeepsRefundable)) (State.empty balance) tr s) :
    Refundable (State.empty balance) tr s ∧
    ∀ past s₁ act s₂, (past, s₁, act, s₂) ∈ steps (State.empty balance) tr →
      RefundsInFull (fun i => wonBid (State.empty balance) i past) s₁ s₂ :=
  hrun.forall_steps (I := Refundable (State.empty balance)) ⟨rfl, .empty balance, .empty balance⟩
    fun _ _ _ _ h hact => h.step hact.1 hact.2

/-- In runs that keep the swaps refundable, no cancellation leaves a payment behind. -/
theorem cancellations_refund {balance : Address → Address → ℤ} {tr : List (Act × State)}
    {s : State}
    (hrun : Run (Restrict ActStep (OnCalls KeepsRefundable)) (State.empty balance) tr s) :
    ∀ past s₁ act s₂, (past, s₁, act, s₂) ∈ steps (State.empty balance) tr →
      RefundsInFull (fun i => wonBid (State.empty balance) i past) s₁ s₂ :=
  (run_refundable hrun).2

section Sales

open Scenario

/-- The swap 0 of the buyer has this status, and he has paid so much towards its price. -/
def seenPaidIn (q : SwapStatus) (paid : ℤ) (s : State) : Bool :=
  ((s.swap 0).any fun r => r.status = q ∧ r.buyer = buyer) && paidTowards buyer 0 s.transfers = paid

theorem paidIn_of_seen {q : SwapStatus} {paid : ℤ} {s : State} (h : seenPaidIn q paid s = true) :
    ∃ r, s.swap 0 = some r ∧ r.status = q ∧ r.buyer = buyer ∧
      paidTowards buyer 0 s.transfers = paid := by
  simp only [seenPaidIn, Bool.and_eq_true, Option.any_eq_true, decide_eq_true_eq] at h
  obtain ⟨⟨r, hr, hst, hbuyer⟩, hpaid⟩ := h
  exact ⟨r, hr, hst, hbuyer, hpaid⟩

theorem expiry_refunds : ∃ s₁ s₂ : State, paidTowards buyer 0 s₁.transfers = 1000 ∧
    1000 ≤ refundedTo buyer 0 (newTransfers s₁ s₂) := by
  obtain ⟨tr, s₁, s₂, hrun, hexec, hseen⟩ := watched (OnCalls KeepsRefundable) funds offer
    (env [buyer] 2) (.acceptSwap 0) (fun s s' => seenPaidIn .pending 0 s &&
      (seenPaidIn .accepted 1000 s' && thenSee (env [] 10000000) (.cancelExpiredSwap 0 buyer)
        (fun _ s => seenPaidIn .cancelled 1000 s) s')) (by decide)
    (by simp [offer, OnCalls, KeepsRefundable])
  simp only [Bool.and_eq_true] at hseen
  obtain ⟨hpending, haccepted, hcancels⟩ := hseen
  obtain ⟨r, hr, hst, hbuyer, hunpaid⟩ := paidIn_of_seen hpending
  obtain ⟨r₂, hr₂, hst₂, hbuyer₂, hpaid⟩ := paidIn_of_seen haccepted
  obtain ⟨s₃, hcancel, hcancelled⟩ := exec_of_thenSee hcancels
  obtain ⟨r₃, hr₃, hst₃, -, -⟩ := paidIn_of_seen hcancelled
  have hfirst : Unpaid s₁.escrow 0 := by
    intro r' hr'
    obtain rfl : r = r' := Option.some.inj (hr.symm.trans hr')
    rw [hbuyer]
    exact hunpaid
  have hrun₂ := hrun.next (k := ⟨env [buyer] 2, some (.acceptSwap 0)⟩)
    ⟨.call hexec, by simpa [OnCalls, KeepsRefundable] using hfirst⟩
  have hrun₃ := hrun₂.next (k := ⟨env [] 10000000, some (.cancelExpiredSwap 0 buyer)⟩)
    ⟨.call hcancel, by simp [OnCalls, KeepsRefundable]⟩
  have hfull := cancellations_refund hrun₃ _ _ _ _ hrun₂.mem_steps_last 0 r₂ r₃ hr₂ hr₃
    (by simp [hst₂]) hst₃
  have hwon : wonBid (State.empty funds) 0 ((⟨env [buyer] 2, some (.acceptSwap 0)⟩, s₂) :: tr) =
      0 := by
    have hzero := (run_refundable hrun).1.backed.unwon hr hst
    simpa [wonBid, hrun.now_eq, hr] using hzero
  refine ⟨s₂, s₃, hpaid, ?_⟩
  simp only [hwon, hbuyer₂, hpaid, add_zero] at hfull
  exact hfull

/-- The seller cancels after the first instalment, and keeps it in the contract. -/
theorem cancelled_installment_lost : ∃ balance tr s past s₁ act s₂,
    Run (Restrict ActStep Always) (State.empty balance) tr s ∧
    (past, s₁, act, s₂) ∈ steps (State.empty balance) tr ∧
    ¬ RefundsInFull (fun i => wonBid (State.empty balance) i past) s₁ s₂ := by
  obtain ⟨tr, s, past, s₁, act, s₂, hrun, hstep, hseen⟩ := seenInTrace Always funds
    (scheduleOffer ++ [(env [buyer] 2, Call.submitInstallmentPayment 0 400),
      (env [seller] 3, Call.cancelSwap 0 seller)])
    (fun past s _ s' => seenPaidIn .pending 400 s && (seenPaidIn .cancelled 400 s' &&
      (newTransfers s s' = [] && wonBid (State.empty funds) 0 past = 0)))
    (by decide) (by simp [Always])
  simp only [Bool.and_eq_true, decide_eq_true_eq] at hseen
  obtain ⟨hpending, hcancelled, hnone, hwon⟩ := hseen
  obtain ⟨r, hr, hst, hbuyer, hpaid⟩ := paidIn_of_seen hpending
  obtain ⟨r', hr', hst', -, -⟩ := paidIn_of_seen hcancelled
  refine ⟨funds, tr, s, past, s₁, act, s₂, hrun, hstep, ?_⟩
  intro hrefunds
  have hfull := hrefunds 0 r r' hr hr' (by simp [hst]) hst'
  have hback : refundedTo buyer 0 [] = 0 := rfl
  simp only [hwon, hbuyer, hpaid, hnone, hback] at hfull
  omega

end Sales

end AtomicIp.AtomicSwap
