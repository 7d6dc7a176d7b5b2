import AtomicIp.Swap.Accounts
import AtomicIp.Swap.Frames

set_option autoImplicit false

namespace AtomicIp.AtomicSwap

open Function

/-- No new swap or auction, no new acceptance, and no tokens from anybody else. -/
structure StopsMoney (s s' : State) : Prop where
  swaps : ∀ i, s.swap i = none → s'.swap i = none
  auctions : ∀ j, s.auction j = none → s'.auction j = none
  acceptances : ∀ i r r', s.swap i = some r → s'.swap i = some r' → r'.status = .accepted →
    r.status = .accepted
  payments : ∀ x ∈ newTransfers s s', x.dst = currentContractAddress →
    x.src ≠ currentContractAddress → x.amount = 0

/-- The entry of the schedule is not free of charge. -/
def ChargesScheduled (s : State) (i index : ℕ) : Prop :=
  ∃ schedule payment, s.paymentSchedule i = some schedule ∧ schedule[index]? = some payment ∧
    payment.amount ≠ 0

/-- The calls that bring money in whether the contract is paused or not. -/
def TakesMoney (s : State) : Call → Prop
  | .escrowDeposit _ | .placeBid .. | .submitInstallmentPayment .. => True
  | .batchEscrowDeposit ids _ => ids ≠ []
  | .finalizeAuction j => ∃ a bidder, s.auction j = some a ∧ a.highestBidder = some bidder
  | .makeScheduledPayment i index => ChargesScheduled s i index ∨
      ScheduleDone s i index ∧ ∃ r, s.swap i = some r ∧ r.status ≠ .accepted
  | _ => False

def Call.LooksAtPause : Call → Prop
  | .initiateSwap .. | .initiateSwapWithOraclePrice .. | .batchInitiateSwap ..
  | .batchInitiateSwapWithInsurance .. | .initiateSwapWithSchedule .. | .initiateEscrowSwap ..
  | .batchInitiateEscrow .. | .initiateSwapWithSigners .. | .acceptSwap _
  | .acceptSwapConditional .. | .acceptSwapPartial .. | .batchAcceptSwaps ..
  | .renegotiateSwap .. | .acceptRenegotiation _ | .startIpAuction .. => True
  | _ => False

def Move.BringsNothing : Move → Prop
  | .initiated _ | .accepted _ | .installment .. | .scheduled .. | .auctionStarted _ | .bid ..
  | .finalized _ => False
  | _ => True

/-- Nothing new and no money in, seen on the escrow. -/
structure Frozen (c c' : Escrow) : Prop where
  swaps : ∀ i, c.swap i = none → c'.swap i = none
  auctions : ∀ j, c.auction j = none → c'.auction j = none
  acceptances : ∀ i r r', c.swap i = some r → c'.swap i = some r' → r'.status = .accepted →
    r.status = .accepted
  payments : ∃ ms, c'.transfers = c.transfers ++ ms ∧ ∀ x ∈ ms, x.dst = currentContractAddress →
    x.src ≠ currentContractAddress → x.amount = 0

section Freezing

variable {env : Env} {c c₁ c' : Escrow} {m : Move} {s s' : State} {i : ℕ} {r : SwapRecord}
  {P : Address → Prop} {total : ℤ} {ms : List TokenTransfer}

theorem Frozen.refl (c : Escrow) : Frozen c c where
  swaps _ h := h
  auctions _ h := h
  acceptances i r r' hr hr' hto := by
    obtain rfl := Option.some.inj (hr.symm.trans hr')
    exact hto
  payments := ⟨[], by simp, by simp⟩

theorem Frozen.trans (h₁ : Frozen c c₁) (h₂ : Frozen c₁ c')
    (hkept : ∀ i r, c.swap i = some r → ∃ r₁, c₁.swap i = some r₁) : Frozen c c' where
  swaps i hi := h₂.swaps i (h₁.swaps i hi)
  auctions j hj := h₂.auctions j (h₁.auctions j hj)
  acceptances i r r' hr hr' hto := by
    obtain ⟨r₁, hr₁⟩ := hkept i r hr
    exact h₁.acceptances i r r₁ hr hr₁ (h₂.acceptances i r₁ r' hr₁ hr' hto)
  payments := by
    obtain ⟨ms₁, hms₁, hfree₁⟩ := h₁.payments
    obtain ⟨ms₂, hms₂, hfree₂⟩ := h₂.payments
    refine ⟨ms₁ ++ ms₂, by rw [hms₂, hms₁, List.append_assoc], ?_⟩
    intro x hx
    rcases List.mem_append.mp hx with hx | hx
    · exact hfree₁ x hx
    · exact hfree₂ x hx

theorem Frozen.stops (h : Frozen s.escrow s'.escrow) : StopsMoney s s' where
  swaps := h.swaps
  auctions := h.auctions
  acceptances := h.acceptances
  payments x hx := by
    obtain ⟨ms, hms, hfree⟩ := h.payments
    have hnew : newTransfers s s' = ms := by simp [newTransfers, hms]
    exact hfree x (hnew ▸ hx)

theorem PaidFor.frees (h : PaidFor i r P total ms) : ∀ x ∈ ms, x.dst = currentContractAddress →
    x.src ≠ currentContractAddress → x.amount = 0 := by
  intro x hx _ hsrc
  exact absurd (h.escrowed x hx).2.1 hsrc

theorem Move.BringsNothing.aims (hm : m.BringsNothing) : m.aims ≠ some .accepted := by
  cases m with
  | installment i last | scheduled i last => exact hm.elim
  | _ => simp [Move.aims]; try exact hm.elim

theorem Step.frozen (hstep : Step env c m c') (hm : m.BringsNothing) : Frozen c c' := by
  have hrecords : (∀ i, c.swap i = none → c'.swap i = none) ∧
      ∀ i r r', c.swap i = some r → c'.swap i = some r' → r'.status = .accepted →
        r.status = .accepted := by
    cases hstep.rewrites with
    | same hswap =>
      rw [hswap]
      exact ⟨fun _ h => h, fun i r r' => (Frozen.refl c).acceptances i r r'⟩
    | moved j r₀ r₁ _ hr₀ hswap hmoved =>
      refine ⟨?_, ?_⟩
      · intro i hi
        have hij : i ≠ j := by
          intro e
          simp [e, hr₀] at hi
        simp [hswap, hij, hi]
      · intro i r r' hr hr' hto
        by_cases hij : i = j
        · subst hij
          obtain rfl : r₁ = r' := by simpa [hswap] using hr'
          obtain rfl := Option.some.inj (hr.symm.trans hr₀)
          rw [hmoved.status] at hto
          cases haims : m.aims with
          | none => simpa [haims] using hto
          | some q =>
            have hq : q = .accepted := by simpa [haims] using hto
            exact absurd (hq ▸ haims) hm.aims
        · have hsame : c'.swap i = c.swap i := by simp [hswap, hij]
          rw [hsame] at hr'
          exact (Frozen.refl c).acceptances i r r' hr hr' hto
    | added r₁ _ hadds =>
      rcases hadds with ⟨rfl, -⟩ | ⟨_, _, _, rfl, -⟩ <;> exact hm.elim
  have hrest : c'.auction = c.auction ∧ ∃ ms, c'.transfers = c.transfers ++ ms ∧
      ∀ x ∈ ms, x.dst = currentContractAddress → x.src ≠ currentContractAddress → x.amount = 0 := by
    cases hstep with
    | accepted | installment | scheduled | initiated | auctionStarted | bid | unsold | sold =>
      exact hm.elim
    | released _ _ hpaid | refunded _ _ hpaid | withdrawn _ _ _ hpaid | rolledBack _ _ _ hpaid
    | adminRolledBack _ _ _ hpaid => exact ⟨rfl, _, rfl, hpaid.frees⟩
    | claimed =>
      refine ⟨rfl, _, rfl, ?_⟩
      intro x hx _ hsrc
      obtain rfl := List.mem_singleton.mp hx
      exact absurd rfl hsrc
    | _ => exact ⟨rfl, [], (List.append_nil _).symm, by simp⟩
  exact ⟨hrecords.1, fun j hj => by rw [hrest.1, hj], hrecords.2, hrest.2⟩

theorem frozen_of_moves (hmoves : Emits (Step env) Move.BringsNothing c c') (hwf : Wf c) :
    Frozen c c' := by
  have hall : Wf c' ∧ Frozen c c' ∧ ∀ i r, c.swap i = some r → ∃ r', c'.swap i = some r' := by
    refine hmoves.invariant (I := fun c' => Wf c' ∧ Frozen c c' ∧
      ∀ i r, c.swap i = some r → ∃ r', c'.swap i = some r') ?_ ⟨hwf, .refl c, fun i r hr => ⟨r, hr⟩⟩
    intro c₁ m c₂ hm hI hstep
    obtain ⟨hwf₁, hfrozen, hkept⟩ := hI
    refine ⟨hstep.wf hwf₁, hfrozen.trans (hstep.frozen hm) hkept, ?_⟩
    intro i r hr
    obtain ⟨r₁, hr₁⟩ := hkept i r hr
    obtain ⟨r₂, hr₂, -⟩ := hstep.keeps hwf₁ hr₁
    exact ⟨r₂, hr₂⟩
  exact hall.2.1

end Freezing

section Paused

variable {env : Env} {s s' : State} {call : Call} {u : Unit} {i index : ℕ} {α : Type}

theorem guarded_paused {k : Unit → SwapTx α} {a : α} (hpaused : s.paused = some true) :
    (requireNotPaused >>= k) s ≠ .ok (a, s') := by
  intro h
  obtain ⟨s₁, hnot, -⟩ := Tx.seq_ok.mp h
  simp [hpaused] at hnot

theorem initiateSwapWithOraclePrice_paused {token seller buyer : Address} {ipId approvals id : ℕ}
    {referrer : Option Address} {collateral minPrice maxPrice : ℤ} {insured : Bool}
    (hpaused : s.paused = some true) : initiateSwapWithOraclePrice env token ipId seller buyer
      approvals referrer collateral insured minPrice maxPrice s ≠ .ok (id, s') := by
  intro h
  obtain ⟨price, s₁, hfetch, hrest⟩ := Tx.bind_ok.mp h
  obtain ⟨_, s₂, hbounds, hrest⟩ := Tx.bind_ok.mp hrest
  obtain ⟨_, s₃, hinitiate, -⟩ := Tx.bind_ok.mp hrest
  have hsame := (Tx.Keeps.eq State.paused hbounds).trans (Tx.Keeps.eq State.paused hfetch)
  exact guarded_paused (hsame.trans hpaused) hinitiate

theorem Call.LooksAtPause.aborts (h : call.LooksAtPause) (hpaused : s.paused = some true) :
    exec env call s ≠ .ok (u, s') := by
  intro hexec
  cases call with
  | acceptSwap | acceptSwapConditional | acceptSwapPartial | batchAcceptSwaps | renegotiateSwap
  | acceptRenegotiation => exact guarded_paused hpaused hexec
  | initiateSwap | batchInitiateSwap | batchInitiateSwapWithInsurance | initiateSwapWithSchedule
  | initiateEscrowSwap | batchInitiateEscrow | initiateSwapWithSigners | startIpAuction =>
    obtain ⟨a, hcall⟩ := Tx.void_ok.mp hexec
    exact guarded_paused hpaused hcall
  | initiateSwapWithOraclePrice =>
    obtain ⟨id, hcall⟩ := Tx.void_ok.mp hexec
    exact initiateSwapWithOraclePrice_paused hpaused hcall
  | _ => exact h.elim

theorem makeScheduledPayment_frozen (h : makeScheduledPayment env i index s = .ok (u, s'))
    (hfree : ¬ ChargesScheduled s i index)
    (hdone : ScheduleDone s i index → ∀ r, s.swap i = some r → r.status = .accepted) :
    Frozen s.escrow s'.escrow := by
  obtain ⟨r, r', payment, hpays⟩ := makeScheduledPayment_pays h
  have hamount : payment.amount = 0 := by
    by_contra hne
    obtain ⟨schedule, hschedule, hentry⟩ := hpays.scheduled
    exact hfree ⟨schedule, payment, hschedule, hentry, hne⟩
  have hstatus : r'.status = .accepted → r.status = .accepted := by
    intro hto
    by_cases hlast : ScheduleDone s i index
    · exact hdone hlast r hpays.stored
    · rw [← hpays.open_ hlast]
      exact hto
  have hswap : ∀ j, s'.escrow.swap j = if j = i then some r' else s.escrow.swap j := by
    rw [hpays.escrow]
    exact fun j => swap_setSwap _ i j _
  refine ⟨?_, ?_, ?_, [priceOf i r payment.amount], by rw [hpays.escrow]; rfl, ?_⟩
  · intro j hj
    have hji : j ≠ i := by
      intro e
      simp [e, hpays.stored] at hj
    simp [hswap, hji, hj]
  · intro j hj
    rw [hpays.escrow]
    exact hj
  · intro j rj rj' hrj hrj' hto
    rw [hswap] at hrj'
    by_cases hji : j = i
    · subst hji
      obtain rfl := Option.some.inj (hrj.symm.trans hpays.stored)
      obtain rfl : r' = rj' := by simpa using hrj'
      exact hstatus hto
    · rw [if_neg hji] at hrj'
      exact (Frozen.refl _).acceptances j rj rj' hrj hrj' hto
  · intro x hx _ _
    obtain rfl := List.mem_singleton.mp hx
    exact hamount

theorem finalizeAuction_frozen (h : finalizeAuction env i s = .ok (u, s'))
    (hunbid : ¬ ∃ a bidder, s.auction i = some a ∧ a.highestBidder = some bidder) :
    Frozen s.escrow s'.escrow := by
  obtain ⟨a, ha, -, -, s₁, rfl, ⟨-, rfl⟩ | ⟨bidder, hbidder, -⟩⟩ := finalizeAuction_closes h
  · refine ⟨fun _ h => h, ?_, (Frozen.refl _).acceptances, [], by simp [Escrow.setActiveAuction,
      Escrow.setAuction], by simp⟩
    intro j hj
    have hji : j ≠ i := by
      intro e
      simp [e, ha] at hj
    simpa [Escrow.setActiveAuction, Escrow.setAuction, hji] using hj
  · exact absurd ⟨a, bidder, ha, hbidder⟩ hunbid

/-- The calls that may take money without looking at the pause. -/
def Call.MayTake : Call → Prop
  | .escrowDeposit _ | .placeBid .. | .submitInstallmentPayment .. | .batchEscrowDeposit ..
  | .finalizeAuction _ | .makeScheduledPayment .. => True
  | _ => False

theorem Call.yields_bringsNothing {m : Move} (h : call.yields m) (hlooks : ¬ call.LooksAtPause)
    (htakes : ¬ call.MayTake) : m.BringsNothing := by
  cases call with
  | initiateSwap | initiateSwapWithOraclePrice | batchInitiateSwap | batchInitiateSwapWithInsurance
  | initiateSwapWithSchedule | initiateEscrowSwap | batchInitiateEscrow | initiateSwapWithSigners
  | acceptSwap | acceptSwapConditional | acceptSwapPartial | batchAcceptSwaps | renegotiateSwap
  | acceptRenegotiation | startIpAuction => exact absurd trivial hlooks
  | escrowDeposit | placeBid | submitInstallmentPayment | batchEscrowDeposit | finalizeAuction
  | makeScheduledPayment => exact absurd trivial htakes
  | initializeContract | setAdmin | extendSwapExpiry | revealKey | raiseDispute
  | autoResolveDispute | autoRefundTimeout | cancelSwap | cancelPendingSwap | cancelExpiredSwap
  | escrowWithdraw | claimInsurance | adminRollbackSwap =>
    obtain rfl := h
    trivial
  | resolveDispute _ _ refund | arbitrateSwap _ _ refund =>
    obtain rfl := h
    cases refund <;> trivial
  | verifyAndCompleteSwap => rcases h with rfl | rfl <;> trivial
  | batchRevealKeys =>
    obtain ⟨j, -, k, -, rfl⟩ := h
    trivial
  | batchArbitrateSwaps _ _ refund =>
    obtain ⟨j, -, rfl⟩ := h
    cases refund <;> trivial
  | batchCancelSwaps | batchRollbackSwaps =>
    obtain ⟨j, -, rfl⟩ := h
    trivial
  | validateAndRollbackSwap =>
    obtain ⟨-, rfl⟩ := h
    trivial
  | _ => exact h.elim

/-- A call that neither looks at the pause nor takes money brings nothing in. -/
theorem exec_frozen (h : exec env call s = .ok ((), s')) (hwf : Wf s.escrow)
    (hlooks : ¬ call.LooksAtPause) (htakes : ¬ TakesMoney s call) :
    Frozen s.escrow s'.escrow := by
  by_cases hmay : call.MayTake
  · cases call with
    | escrowDeposit | placeBid | submitInstallmentPayment => exact absurd trivial htakes
    | batchEscrowDeposit ids =>
      obtain rfl := not_not.mp htakes
      simp [exec, batchEscrowDeposit] at h
      rw [h.2]
      exact .refl _
    | finalizeAuction j => exact finalizeAuction_frozen h htakes
    | makeScheduledPayment j index =>
      obtain ⟨hfree, hlast⟩ := not_or.mp htakes
      refine makeScheduledPayment_frozen h hfree ?_
      intro hdone r hr
      by_contra hne
      exact hlast ⟨hdone, r, hr, hne⟩
    | _ => exact hmay.elim
  · obtain ⟨q, hmoves⟩ := exec_answers h
    exact frozen_of_moves (hmoves.mono fun m hm => Call.yields_bringsNothing hm.1 hlooks hmay) hwf

section Taking

variable {r : SwapRecord} {buyer : Address} {ids : List ℕ} {amount : ℤ}

def PaidIn (s s' : State) : Prop :=
  ∃ x ∈ newTransfers s s', x.dst = currentContractAddress ∧ x.src ≠ currentContractAddress ∧
    x.amount ≠ 0

theorem PaidIn.not_stops (h : PaidIn s s') : ¬ StopsMoney s s' := by
  intro hstops
  obtain ⟨x, hx, hdst, hsrc, hne⟩ := h
  exact hne (hstops.payments x hx hdst hsrc)

theorem paidIn_of_price (i : ℕ) {ms : List TokenTransfer} (henv : env.Hosted)
    (hauth : r.buyer ∈ env.auths) (hne : amount ≠ 0)
    (e : s'.escrow.transfers = s.escrow.transfers ++ ms) (hmem : priceOf i r amount ∈ ms) :
    PaidIn s s' := by
  have hnew : newTransfers s s' = ms := by simp [newTransfers, e]
  refine ⟨priceOf i r amount, hnew ▸ hmem, rfl, ?_, hne⟩
  intro hsrc
  exact henv (hsrc ▸ hauth)

theorem escrowDeposit_paidIn (h : escrowDeposit env i s = .ok (u, s')) (hwf : Wf s.escrow)
    (henv : env.Hosted) : PaidIn s s' := by
  obtain ⟨r, hr, hauth, hdeposit⟩ := escrowDeposit_ok.mp h
  obtain ⟨-, -, e⟩ := depositEscrow_escrow hdeposit
  have hprice := (hwf.stored i r hr).2.price
  exact paidIn_of_price i henv hauth hprice.ne' (by rw [e]; rfl) (List.mem_singleton.mpr rfl)

theorem grown_of_moves {P : Move → Prop} {c c' : Escrow} (hmoves : Emits (Step env) P c c') :
    ∃ ms, c'.transfers = c.transfers ++ ms := by
  refine hmoves.invariant (I := fun c' => ∃ ms, c'.transfers = c.transfers ++ ms) ?_ ⟨[], by simp⟩
  intro c₁ m c₂ _ hI hstep
  obtain ⟨ms, hms⟩ := hI
  obtain ⟨ns, hns, -⟩ := hstep.moves
  exact ⟨ms ++ ns, by rw [hns, hms, List.append_assoc]⟩

theorem batchEscrowDeposit_paidIn (h : batchEscrowDeposit env ids buyer s = .ok (u, s'))
    (hwf : Wf s.escrow) (henv : env.Hosted) (hids : ids ≠ []) : PaidIn s s' := by
  obtain ⟨hauth, us, hloop⟩ := batchEscrowDeposit_ok.mp h
  cases ids with
  | nil => exact absurd rfl hids
  | cons i ids =>
    obtain ⟨_, s₁, _, hfirst, hrest, -⟩ := Tx.forEach_cons_ok.mp hloop
    obtain ⟨ms, hms⟩ := grown_of_moves (Tx.forEach_rel (R := fun s s' =>
      Emits (Step env) (fun _ => True) s.escrow s'.escrow) (fun _ => .refl _) .trans
      (fun j _ _ _ _ hbody => .single (depositOwn_step hauth hbody) trivial) hrest)
    obtain ⟨r, hr, rfl, hdeposit⟩ := depositOwn_ok.mp hfirst
    obtain ⟨-, -, e⟩ := depositEscrow_escrow hdeposit
    have hprice := (hwf.stored i r hr).2.price
    have hgrown : s'.escrow.transfers = s.escrow.transfers ++ priceOf i r r.price :: ms := by
      rw [hms, e]
      simp [Escrow.pay, Escrow.setSwap, Escrow.setEscrowDeposit]
    exact paidIn_of_price i henv hauth hprice.ne' hgrown (by simp)

theorem placeBid_paidIn {bidder : Address} (h : placeBid env i bidder amount s = .ok (u, s'))
    (hwf : Wf s.escrow) (henv : env.Hosted) : PaidIn s s' := by
  obtain ⟨a, ha, -, -, hauth, hmin, -, -, e⟩ := placeBid_escrow h
  have hpos := (hwf.auction i a ha).2.minBid
  refine ⟨⟨a.token, bidder, currentContractAddress, amount, .bid i⟩, ?_, rfl, ?_, ?_⟩
  · simp [newTransfers, e, Escrow.pay, Escrow.setAuction, AuctionRecord.exchange]
  · intro hsrc
    have hbidder : bidder = currentContractAddress := hsrc
    exact henv (hbidder ▸ hauth)
  · exact (hpos.trans_le hmin).ne'

theorem submitInstallmentPayment_paidIn (h : submitInstallmentPayment env i amount s = .ok (u, s'))
    (henv : env.Hosted) : PaidIn s s' := by
  obtain ⟨r, r', hpays⟩ := submitInstallmentPayment_pays h
  exact paidIn_of_price i henv hpays.auth hpays.pos.ne' (by rw [hpays.escrow]; rfl)
    (List.mem_singleton.mpr rfl)

theorem makeScheduledPayment_not_stops (h : makeScheduledPayment env i index s = .ok (u, s'))
    (henv : env.Hosted) (htakes : TakesMoney s (.makeScheduledPayment i index)) :
    ¬ StopsMoney s s' := by
  obtain ⟨r, r', payment, hpays⟩ := makeScheduledPayment_pays h
  rcases htakes with ⟨schedule, payment', hschedule, hentry, hne⟩ | ⟨hdone, r₁, hr₁, hfrom⟩
  · obtain ⟨schedule', hschedule', hentry'⟩ := hpays.scheduled
    obtain rfl := Option.some.inj (hschedule.symm.trans hschedule')
    obtain rfl := Option.some.inj (hentry.symm.trans hentry')
    exact (paidIn_of_price i henv hpays.auth hne (by rw [hpays.escrow]; rfl)
      (List.mem_singleton.mpr rfl)).not_stops
  · intro hstops
    obtain rfl := Option.some.inj (hr₁.symm.trans hpays.stored)
    have hr' : s'.swap i = some r' := by simp [hpays.escrow, Escrow.setSwap, Escrow.pay]
    exact hfrom (hstops.acceptances i r₁ r' hr₁ hr' (by rw [hpays.done hdone]; rfl))

theorem finalizeAuction_not_stops (h : finalizeAuction env i s = .ok (u, s')) (hwf : Wf s.escrow)
    (hbid : ∃ a bidder, s.auction i = some a ∧ a.highestBidder = some bidder) :
    ¬ StopsMoney s s' := by
  obtain ⟨a, ha, -, -, s₁, rfl, hwinner⟩ := finalizeAuction_closes h
  obtain ⟨a', bidder, ha', hbidder⟩ := hbid
  obtain rfl := Option.some.inj (ha.symm.trans ha')
  rcases hwinner with ⟨hnone, -⟩ | ⟨buyer, -, hsold⟩
  · cases hbidder.symm.trans hnone
  obtain ⟨r, -, e⟩ := sellToWinner_escrow hsold
  intro hstops
  have hnone := hstops.swaps s.escrow.count hwf.fresh
  have hcount : (((s.escrow.setAuction i (some a.close)).setActiveAuction a.ipId none).count) =
    s.escrow.count := rfl
  simp [e, swap_enlist, hcount] at hnone

theorem TakesMoney.not_stops (h : TakesMoney s call) (hexec : exec env call s = .ok ((), s'))
    (hwf : Wf s.escrow) (henv : env.Hosted) : ¬ StopsMoney s s' := by
  cases call with
  | escrowDeposit => exact (escrowDeposit_paidIn hexec hwf henv).not_stops
  | batchEscrowDeposit => exact (batchEscrowDeposit_paidIn hexec hwf henv h).not_stops
  | placeBid => exact (placeBid_paidIn hexec hwf henv).not_stops
  | submitInstallmentPayment => exact (submitInstallmentPayment_paidIn hexec henv).not_stops
  | makeScheduledPayment => exact makeScheduledPayment_not_stops hexec henv h
  | finalizeAuction => exact finalizeAuction_not_stops hexec hwf h
  | _ => exact h.elim

end Taking

end Paused

/-- While the contract is paused, money stops but for the calls that never look at the pause. -/
theorem pause_stops_iff {tr : List (Act × State)} {s s' : State} {env : Env} {call : Call}
    (hreach : Reaches Always tr s) (hpaused : s.paused = some true) (henv : env.Hosted)
    (hexec : exec env call s = .ok ((), s')) : StopsMoney s s' ↔ ¬ TakesMoney s call := by
  constructor
  · intro hstops htakes
    exact htakes.not_stops hexec hreach.wf henv hstops
  · intro htakes
    have hlooks : ¬ call.LooksAtPause := fun hlooks => hlooks.aborts hpaused hexec
    exact (exec_frozen hexec hreach.wf hlooks htakes).stops

section Sales

open Scenario

def pausedOffer : List (Env × Call) :=
  [(env [] 0, .initializeContract registry), (env [stranger] 0, .setAdmin stranger),
    (env [seller] 1, .initiateEscrowSwap token 1 seller 1000 buyer 10),
    (env [stranger] 2, .pause stranger)]

/-- Under a pause the seller can still take the offer back, which brings no money in. -/
theorem paused_cancellation_stops : ∃ (tr : List (Act × State)) (s s' : State),
    Reaches Always tr s ∧ s.paused = some true ∧
    exec (env [seller] 3) (.cancelSwap 0 seller) s = .ok ((), s') ∧ StopsMoney s s' := by
  obtain ⟨tr, s, s', hrun, hexec, hseen⟩ := watched Always funds pausedOffer (env [seller] 3)
    (.cancelSwap 0 seller) (fun s _ => s.paused = some true) (by decide) (by simp [Always])
  have hreach : Reaches Always tr s := ⟨funds, funds_contract, hrun⟩
  refine ⟨tr, s, s', hreach, of_decide_eq_true hseen, hexec, ?_⟩
  exact (pause_stops_iff hreach (of_decide_eq_true hseen) (by simp [Env.Hosted, env,
    currentContractAddress, seller]) hexec).mpr id

/-- The buyer pays a paused contract for an escrow swap. -/
theorem paused_deposit_accepted : ∃ tr s s', Reaches Always tr s ∧ s.paused = some true ∧
    exec (env [buyer] 3) (.escrowDeposit 0) s = .ok ((), s') ∧ ¬ StopsMoney s s' := by
  obtain ⟨tr, s, s', hrun, hexec, hseen⟩ := watched Always funds pausedOffer (env [buyer] 3)
    (.escrowDeposit 0) (fun s s' => s.paused = some true ∧
      ((s.swap 0).any fun r => r.status = .pending) ∧
      (s'.swap 0).any fun r => r.status = .accepted) (by decide) (by simp [Always])
  simp only [decide_eq_true_eq, Option.any_eq_true] at hseen
  obtain ⟨hpaused, ⟨r, hr, hfrom⟩, r', hr', hto⟩ := hseen
  refine ⟨tr, s, s', ⟨funds, funds_contract, hrun⟩, hpaused, hexec, ?_⟩
  intro hstops
  rw [hstops.acceptances 0 r r' hr hr' hto] at hfrom
  cases hfrom

end Sales

end AtomicIp.AtomicSwap
