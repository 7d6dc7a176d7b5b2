import AtomicIp.Swap.Collateral

/-!
The deposit record of escrow mode. A swap in escrow mode is an ordinary record to every other
call, and those that accept or settle it leave the deposit as it is.
-/

set_option autoImplicit false

namespace AtomicIp.AtomicSwap

open Function

/-- In escrow mode the deposit is there exactly while the swap is funded, and it is the price. -/
def DepositsKept (s : State) : Prop :=
  ∀ i r, s.swap i = some r → s.swapMode i = some .escrow →
    (r.status.Funded ↔ s.escrowDeposit i = some r.price) ∧
    (¬ r.status.Live → s.escrowDeposit i = none)

/-- A withdrawal pays the price back to the buyer, and nothing else. -/
def WithdrawsPrice (s s' : State) (act : Act) : Prop :=
  ∀ i, act.call = some (.escrowWithdraw i) → ∃ r, s.swap i = some r ∧
    newTransfers s s' = [⟨r.token, currentContractAddress, r.buyer, r.price, .price i⟩]

/-- A swap in escrow mode is accepted by its deposit only and settled by its withdrawal only. -/
def SparesDeposits (s : State) (_env : Env) : Call → Prop
  | .acceptSwap i | .acceptSwapConditional i _ | .acceptSwapPartial i _ =>
      s.swapMode i ≠ some .escrow
  | .batchAcceptSwaps ids _ => ∀ i ∈ ids, s.swapMode i ≠ some .escrow
  | .revealKey i _ _ _ | .verifyAndCompleteSwap i _ _ _ | .resolveDispute i _ _
  | .autoResolveDispute i | .autoRefundTimeout i | .arbitrateSwap i _ _ | .cancelExpiredSwap i _
  | .adminRollbackSwap i _ _ => s.escrowDeposit i = none
  | .batchRevealKeys ids _ _ _ | .batchArbitrateSwaps ids _ _ | .batchRollbackSwaps ids _ _ =>
      ∀ i ∈ ids, s.escrowDeposit i = none
  | _ => True

/-- The deposit of a swap, when `E` are those in escrow mode. -/
structure Deposited (E : ℕ → Prop) (i : ℕ) (p : Position) : Prop where
  held : E i → p.record.status.Funded → p.deposit = some p.record.price
  bare : ¬ (E i ∧ p.record.status.Funded) → p.deposit = none

def Move.SparesDeposit (E : ℕ → Prop) (c : Escrow) : Move → Prop
  | .accepted _ => False
  | .installment i _ | .scheduled i _ => ¬ E i
  | .released i _ | .refunded i _ | .adminRolledBack i => c.escrowDeposit i = none
  | .finalized _ => ¬ E c.count
  | _ => True

section Moves

variable {env : Env} {c c' : Escrow} {m : Move} {i : ℕ} {r r' : SwapRecord} {E E' : ℕ → Prop}
  {escrowed : Bool}

theorem Deposited.unfunded {p : Position} (hdeposit : p.deposit = none)
    (h : E i → ¬ p.record.status.Funded) : Deposited E i p where
  held hE hfunded := absurd hfunded (h hE)
  bare _ := hdeposit

/-- A move that spares the deposits leaves the swap funded or not, as it was, or there is
nothing to spare. -/
theorem Guard.funded (h : Guard env c i r m) (hm : m.SparesDeposit E c) (hE : E i)
    (hw : m ≠ .withdrawn i) :
    ((m.aims.getD r.status).Funded ↔ r.status.Funded) ∧ m.aims ≠ some .accepted ∨
      c.escrowDeposit i = none ∧ ¬ (m.aims.getD r.status).Funded := by
  cases h with
  | accepted => exact hm.elim
  | installment => exact absurd hE hm
  | scheduled => exact absurd hE hm
  | offered => simp [Move.aims]
  | amended => simp [Move.aims]
  | disputed hfrom => simp [Move.aims, SwapStatus.Funded, hfrom]
  | cancelled hfrom => simp [Move.aims, SwapStatus.Funded, hfrom]
  | released w => exact .inr ⟨hm, by simp [Move.aims, SwapStatus.Funded]⟩
  | refunded w => exact .inr ⟨hm, by simp [Move.aims, SwapStatus.Funded]⟩
  | withdrawn => exact absurd rfl hw
  | rolledBack hfrom => simp [Move.aims, SwapStatus.Funded, hfrom]
  | adminRolledBack => exact .inr ⟨hm, by simp [Move.aims, SwapStatus.Funded]⟩
  | claimed => simp [Move.aims]

theorem Step.deposit (hstep : Step env c m c') (hmove : m.swap? = some i)
    (hm : m ≠ .accepted i) :
    m ≠ .withdrawn i ∧ c'.escrowDeposit i = c.escrowDeposit i ∨
      m = .withdrawn i ∧ c'.escrowDeposit i = none := by
  cases hstep with
  | accepted =>
    obtain rfl := Option.some.inj hmove
    exact absurd rfl hm
  | withdrawn =>
    obtain rfl := Option.some.inj hmove
    exact .inr ⟨rfl, by simp [Escrow.pay, Escrow.setEscrowDeposit]⟩
  | _ => exact .inl ⟨by simp, rfl⟩

theorem Step.deposited (hstep : Step env c m c') (hm : m.SparesDeposit E c) (hwf : Wf c)
    (hmove : m.swap? = some i) (hr : c.swap i = some r) (hr' : c'.swap i = some r')
    (h : Deposited E i (c.position i r)) : Deposited E i (c'.position i r') := by
  have hmoved := hstep.moved hwf hmove hr hr'
  have hnew : m ≠ .accepted i := by
    intro e
    exact (e ▸ hm : (Move.accepted i).SparesDeposit E c)
  obtain ⟨r₀, hr₀, hguard⟩ := hstep.guard hmove
  obtain rfl := Option.some.inj (hr.symm.trans hr₀)
  cases hstep.deposit hmove hnew with
  | inr hwithdrawn =>
    obtain ⟨rfl, hnone⟩ := hwithdrawn
    refine ⟨fun _ hfunded => ?_, fun _ => hnone⟩
    have hst : r'.status = .cancelled := hmoved.status
    simp [Escrow.position, SwapStatus.Funded, hst] at hfunded
  | inl hkept =>
    obtain ⟨hw, hsame⟩ := hkept
    have hfunded := fun hE => hguard.funded hm hE hw
    rw [← hmoved.status] at hfunded
    refine ⟨fun hE hto => ?_, fun hnot => hsame.trans ?_⟩
    · cases hfunded hE with
      | inl hkept =>
        have hheld := h.held hE (hkept.1.mp hto)
        have hprice : r'.price = r.price := by
          rcases hmoved.price with hprice | ⟨hpending, -⟩ | haims
          · exact hprice
          · have hst := hkept.1.mp hto
            simp [SwapStatus.Funded, hpending] at hst
          · exact absurd haims hkept.2
        exact (hsame.trans hheld).trans (congrArg some hprice.symm)
      | inr hnone => exact absurd hto hnone.2
    · by_cases hE : E i
      · cases hfunded hE with
        | inl hkept => exact h.bare fun hboth => hnot ⟨hE, hkept.1.mpr hboth.2⟩
        | inr hnone => exact hnone.1
      · exact h.bare fun hboth => hE hboth.1

theorem EachSwap.deposited (h : EachSwap (Deposited E) c) (hstep : Step env c m c')
    (hm : m.SparesDeposit E c) : EachSwap (Deposited E) c' := by
  refine h.step hstep ?_ ?_
  · intro r hadds
    rcases hadds with ⟨-, hfresh⟩ | ⟨_, _, _, rfl, -⟩
    · exact .unfunded rfl fun _ => by simp [SwapStatus.Funded, hfresh.status]
    · exact .unfunded rfl fun hE => absurd hE hm
  · intro i r r' hmove hr hr' hdeposited
    exact hstep.deposited hm h.wf hmove hr hr' hdeposited

theorem Accepts.undeposited {deposits premium : Bool}
    (h : Accepts env c deposits premium false i r r' c') (hE : ¬ E i)
    (heach : EachSwap (Deposited E) c) : EachSwap (Deposited E) c' := by
  refine heach.step h.step (fun _ hadds => by cases hadds.apart) ?_
  intro j rj rj' hj hrj hrj' hdeposited
  obtain rfl := Option.some.inj hj
  have hnone : c.escrowDeposit i = none := hdeposited.bare fun hboth => hE hboth.1
  refine ⟨fun hE' => absurd hE' hE, fun _ => ?_⟩
  rw [h.escrow]
  exact hnone

theorem Accepts.deposited {deposits premium : Bool}
    (h : Accepts env c deposits premium true i r r' c') (hE : E i)
    (heach : EachSwap (Deposited E) c) : EachSwap (Deposited E) c' := by
  refine heach.step h.step (fun _ hadds => by cases hadds.apart) ?_
  intro j rj rj' hj hrj hrj' hdeposited
  obtain rfl := Option.some.inj hj
  have hto : r' = rj' := by
    rw [h.escrow] at hrj'
    simpa [Escrow.accept, Escrow.pay, Escrow.setSwap] using hrj'
  subst hto
  refine ⟨fun _ _ => ?_, fun hnot => absurd ⟨hE, .inl h.target⟩ hnot⟩
  rw [h.escrow]
  simp [Escrow.position, Escrow.accept, Escrow.pay, Escrow.setSwap, Escrow.recordDeposit,
    Escrow.collectPremium, Escrow.lockCollateral]

theorem EachSwap.agree (h : EachSwap (Deposited E) c)
    (hE : ∀ i r, c.swap i = some r → (E i ↔ E' i)) : EachSwap (Deposited E') c where
  wf := h.wf
  each i r hr := by
    have hsame := hE i r hr
    have hdeposited := h.each i r hr
    exact ⟨fun hE' => hdeposited.held (hsame.mpr hE'),
      fun hnot => hdeposited.bare fun hboth => hnot ⟨hsame.mp hboth.1, hboth.2⟩⟩
  idle := h.idle

end Moves

def Call.Funds : Call → Prop
  | .acceptSwap _ | .acceptSwapConditional .. | .acceptSwapPartial .. | .batchAcceptSwaps ..
  | .escrowDeposit _ | .batchEscrowDeposit .. | .makeScheduledPayment ..
  | .submitInstallmentPayment .. | .finalizeAuction _ => True
  | _ => False

section Calls

variable {env : Env} {s s' : State} {call : Call} {m : Move} {act : Act} {i j : ℕ}
  {r : SwapRecord} {u : Unit} {E : ℕ → Prop} {c : Escrow}

def State.InEscrow (s : State) (i : ℕ) : Prop := s.docket.swapMode i = some .escrow

theorem verdict_spares {refund : Bool} {w : Warrant} (h : c.escrowDeposit i = none) :
    (verdict refund w i).SparesDeposit E c := by
  cases refund <;> exact h

theorem Call.yields_spares (h : call.yields m) (hplain : ¬ call.Funds)
    (hcond : SparesDeposits s env call)
    (hnone : ∀ i, s.escrowDeposit i = none → c.escrowDeposit i = none) :
    m.SparesDeposit E c := by
  cases call with
  | acceptSwap | acceptSwapConditional | acceptSwapPartial | batchAcceptSwaps | escrowDeposit
  | batchEscrowDeposit | makeScheduledPayment | submitInstallmentPayment | finalizeAuction =>
    exact absurd trivial hplain
  | revealKey | autoResolveDispute | autoRefundTimeout | cancelExpiredSwap | adminRollbackSwap =>
    obtain rfl := h
    exact hnone _ hcond
  | verifyAndCompleteSwap =>
    rcases h with rfl | rfl <;> exact hnone _ hcond
  | resolveDispute | arbitrateSwap =>
    obtain rfl := h
    exact verdict_spares (hnone _ hcond)
  | batchRevealKeys =>
    obtain ⟨i, hi, k, -, rfl⟩ := h
    exact hnone i (hcond i hi)
  | batchArbitrateSwaps =>
    obtain ⟨i, hi, rfl⟩ := h
    exact verdict_spares (hnone i (hcond i hi))
  | batchRollbackSwaps =>
    obtain ⟨i, hi, rfl⟩ := h
    exact hnone i (hcond i hi)
  | initiateSwap | initiateSwapWithOraclePrice | batchInitiateSwap | batchInitiateSwapWithInsurance
  | initiateSwapWithSchedule | initiateEscrowSwap | batchInitiateEscrow | initiateSwapWithSigners =>
    obtain ⟨r, rfl, -⟩ := h
    trivial
  | batchCancelSwaps =>
    obtain ⟨i, -, rfl⟩ := h
    trivial
  | validateAndRollbackSwap =>
    obtain ⟨-, rfl⟩ := h
    trivial
  | startIpAuction =>
    obtain ⟨a, rfl, -⟩ := h
    trivial
  | initializeContract | setAdmin | renegotiateSwap | acceptRenegotiation | extendSwapExpiry
  | raiseDispute | cancelSwap | cancelPendingSwap | escrowWithdraw | claimInsurance | placeBid =>
    obtain rfl := h
    trivial
  | _ => exact h.elim

theorem Step.undeposited {c' : Escrow} (hstep : Step env c m c') (hm : m.SparesDeposit E c)
    (h : c.escrowDeposit i = none) : c'.escrowDeposit i = none := by
  by_cases hmove : m.swap? = some i
  · have hnew : m ≠ .accepted i := by
      intro e
      exact (e ▸ hm : (Move.accepted i).SparesDeposit E c)
    cases hstep.deposit hmove hnew with
    | inl hkept => exact hkept.2.trans h
    | inr hwithdrawn => exact hwithdrawn.2
  · exact (hstep.apart hmove).2.1.trans h

theorem exec_spares (h : exec env call s = .ok ((), s')) (hplain : ¬ call.Funds)
    (hcond : SparesDeposits s env call) (heach : EachSwap (Deposited E) s.escrow) :
    EachSwap (Deposited E) s'.escrow := by
  obtain ⟨q, hmoves⟩ := exec_answers h
  have hall := hmoves.invariant (I := fun c => EachSwap (Deposited E) c ∧
    ∀ i, s.escrowDeposit i = none → c.escrowDeposit i = none) ?_ ⟨heach, fun _ hnone => hnone⟩
  · exact hall.1
  · intro c m c' hm hc hstep
    have hspares := Call.yields_spares (E := E) hm.1 hplain hcond hc.2
    exact ⟨hc.1.deposited hstep hspares, fun i hnone => hstep.undeposited hspares (hc.2 i hnone)⟩

theorem Collecting.undeposited {c' : Escrow} (h : Collecting env c (.accepted i) c')
    (hE : ¬ E i) (heach : EachSwap (Deposited E) c) : EachSwap (Deposited E) c' := by
  obtain ⟨_, r, r', deposits, premium, hi, haccepts, -⟩ := h
  obtain rfl := Move.accepted.inj hi
  exact haccepts.undeposited hE heach

theorem Charging.undeposited {c' : Escrow} (h : Charging false env c (.accepted i) c')
    (hE : ¬ E i) (heach : EachSwap (Deposited E) c) : EachSwap (Deposited E) c' := by
  obtain ⟨_, r, r', hi, -, haccepts⟩ := h
  obtain rfl := Move.accepted.inj hi
  exact haccepts.undeposited hE heach

theorem Charging.deposited {c' : Escrow} (h : Charging true env c (.accepted i) c')
    (hE : E i) (heach : EachSwap (Deposited E) c) : EachSwap (Deposited E) c' := by
  obtain ⟨_, r, r', hi, -, haccepts⟩ := h
  obtain rfl := Move.accepted.inj hi
  exact haccepts.deposited hE heach

theorem makeScheduledPayment_mode (h : makeScheduledPayment env i j s = .ok (u, s'))
    (harranged : Arranged s) : ¬ s.InEscrow i := by
  intro hmode
  obtain ⟨r, r', payment, hpays⟩ := makeScheduledPayment_pays h
  obtain ⟨schedule, hschedule, -⟩ := hpays.scheduled
  have hnone := (harranged.single_of_mode hpays.stored hmode).2
  cases hnone.symm.trans hschedule

theorem submitInstallmentPayment_mode {amount : ℤ}
    (h : submitInstallmentPayment env i amount s = .ok (u, s')) (harranged : Arranged s) :
    ¬ s.InEscrow i := by
  intro hmode
  obtain ⟨r, r', hpays⟩ := submitInstallmentPayment_pays h
  have hsingle := (harranged.single_of_mode hpays.stored hmode).1
  rw [hpays.installment] at hsingle
  cases hsingle

theorem exec_deposited (h : exec env call s = .ok ((), s')) (harranged : Arranged s)
    (hcond : SparesDeposits s env call) (heach : EachSwap (Deposited s.InEscrow) s.escrow) :
    EachSwap (Deposited s.InEscrow) s'.escrow := by
  cases call with
  | acceptSwap => exact (acceptSwap_collecting h).undeposited hcond heach
  | acceptSwapConditional => exact (acceptSwapConditional_charging h).undeposited hcond heach
  | acceptSwapPartial => exact (acceptSwapPartial_charging h).undeposited hcond heach
  | batchAcceptSwaps =>
    refine (batchAcceptSwaps_collecting h).invariant ?_ heach
    intro c m c' hm hc hstep
    obtain ⟨i, hi, rfl⟩ := hm
    exact hstep.undeposited (hcond i hi) hc
  | escrowDeposit => exact (escrowDeposit_charging h).deposited (escrowDeposit_mode h) heach
  | batchEscrowDeposit =>
    refine (batchEscrowDeposit_charging h).invariant ?_ heach
    intro c m c' hm hc hstep
    obtain ⟨i, hi, rfl⟩ := hm
    exact hstep.deposited (batchEscrowDeposit_modes h i hi) hc
  | makeScheduledPayment =>
    obtain ⟨last, -, hstep⟩ := makeScheduledPayment_step h
    exact heach.deposited hstep (makeScheduledPayment_mode h harranged)
  | submitInstallmentPayment =>
    obtain ⟨last, -, hstep⟩ := submitInstallmentPayment_step h
    exact heach.deposited hstep (submitInstallmentPayment_mode h harranged)
  | finalizeAuction =>
    refine heach.deposited (finalizeAuction_step h) ?_
    intro hmode
    obtain ⟨r, hr, -⟩ := harranged.escrowed _ hmode
    have hfresh : s.swap s.escrow.count = none := harranged.wf.fresh
    simp [hfresh] at hr
  | _ => exact exec_spares h id hcond heach

/-- Only the initiators of escrow swaps put swaps in escrow mode, and only new ones. -/
theorem ActStep.modes (hact : ActStep s act s') : s'.docket.swapMode = s.docket.swapMode ∨
    OpensInEscrow s s' ∧ ∃ call, act.call = some call ∧ call.InEscrow := by
  cases hact.filing with
  | same _ hdocket => exact .inl (by rw [hdocket])
  | approved _ _ _ _ _ _ hdocket => exact .inl (by rw [hdocket]; rfl)
  | signed _ _ _ _ _ _ _ hdocket => exact .inl (by rw [hdocket]; rfl)
  | withSigners _ _ _ _ _ _ _ _ hdocket => exact .inl (by rw [hdocket]; rfl)
  | withSchedule _ _ _ _ _ _ _ hdocket => exact .inl (by rw [hdocket]; rfl)
  | inEscrow call hcall hescrow hopens => exact .inr ⟨hopens, call, hcall, hescrow⟩

theorem OpensInEscrow.mode (h : OpensInEscrow s s') (hwf : Wf s.escrow) (hr : s.swap i = some r) :
    s.InEscrow i ↔ s'.InEscrow i := by
  have hlt := (hwf.stored i r hr).1
  have hnot : ¬ (s.escrow.count ≤ i ∧ i < s'.escrow.count) := by omega
  simp [State.InEscrow, h.docket, Docket.inEscrow, hnot]

theorem ActStep.deposited (hact : ActStep s act s') (harranged : Arranged s)
    (hcond : OnCalls SparesDeposits s act) (heach : EachSwap (Deposited s.InEscrow) s.escrow) :
    EachSwap (Deposited s'.InEscrow) s'.escrow := by
  have hmodes := hact.modes
  cases hact with
  | @elsewhere env balance hbalance =>
    have hstep : Step env s.escrow .received _ := .received balance hbalance
    exact heach.deposited hstep trivial
  | @call _ env call hexec =>
    have hspares := hcond call rfl
    cases hmodes with
    | inl hmodes =>
      have hsame : s'.InEscrow = s.InEscrow := by
        unfold State.InEscrow
        rw [hmodes]
      rw [hsame]
      exact exec_deposited hexec harranged hspares heach
    | inr hopens =>
      obtain ⟨hopens, call', hcall, hescrow⟩ := hopens
      obtain rfl := Option.some.inj hcall
      have hplain : ¬ call.Funds := by cases call <;> first | exact id | exact hescrow.elim
      exact exec_spares hexec hplain hspares
        (heach.agree fun i r hr => hopens.mode harranged.wf hr)

theorem escrowWithdraw_pays (h : escrowWithdraw env i s = .ok (u, s')) :
    ∃ r, s.swap i = some r ∧ r.status = .accepted ∧ s.InEscrow i ∧
      ∀ x, s.escrowDeposit i = some x → 0 < x →
        newTransfers s s' = [⟨r.token, currentContractAddress, r.buyer, x, .price i⟩] := by
  obtain ⟨r, hr, -, hmode, hfrom, -, e⟩ := escrowWithdraw_escrow h
  refine ⟨r, hr, hfrom, hmode, ?_⟩
  intro x hx hpos
  have hpaid : s.escrow.withdrawal i r = [refundOf i r x] := Escrow.withdrawal_of_deposit hx hpos
  have hnew : s'.transfers = s.transfers ++ [refundOf i r x] := by
    rw [State.transfers_escrow, e, hpaid]
    rfl
  rw [newTransfers, hnew, List.drop_left]
  rfl

/-- The deposit of an accepted swap in escrow mode is its price, so that is what comes back. -/
theorem withdrawsPrice_of_deposited (hact : ActStep s act s')
    (heach : EachSwap (Deposited s.InEscrow) s.escrow) : WithdrawsPrice s s' act := by
  intro i hcall
  cases hact with
  | elsewhere => cases hcall
  | call hexec =>
    obtain rfl := Option.some.inj hcall
    obtain ⟨r, hr, hfrom, hmode, hpays⟩ := escrowWithdraw_pays hexec
    have hheld := (heach.each i r hr).held hmode (.inl hfrom)
    exact ⟨r, hr, hpays r.price hheld (heach.wf.stored i r hr).2.price⟩

theorem EachSwap.depositsKept (h : EachSwap (Deposited s.InEscrow) s.escrow) :
    DepositsKept s := by
  intro i r hr hmode
  have hdeposited := h.each i r hr
  refine ⟨⟨fun hfunded => hdeposited.held hmode hfunded, fun hheld => ?_⟩, fun hsettled => ?_⟩
  · by_contra hnot
    have hnone : s.escrowDeposit i = none := hdeposited.bare fun hboth => hnot hboth.2
    rw [hnone] at hheld
    cases hheld
  · exact hdeposited.bare fun hboth => hsettled hboth.2.live

end Calls

/-- In runs where escrow mode has its own calls, the deposits are right and come back in full. -/
theorem deposits_kept {balance : Address → Address → ℤ} {tr : List (Act × State)} {s : State}
    (hrun : Run (Restrict ActStep (OnCalls SparesDeposits)) (State.empty balance) tr s) :
    (∀ s' ∈ visited (State.empty balance) tr, DepositsKept s') ∧
    ∀ past s₁ act s₂, (past, s₁, act, s₂) ∈ steps (State.empty balance) tr →
      WithdrawsPrice s₁ s₂ act := by
  have hinit : Arranged (State.empty balance) ∧
      EachSwap (Deposited (State.empty balance).InEscrow) (State.empty balance).escrow :=
    ⟨.empty balance, .empty balance⟩
  have hnext : ∀ s act s', Arranged s ∧ EachSwap (Deposited s.InEscrow) s.escrow →
      Restrict ActStep (OnCalls SparesDeposits) s act s' →
      (Arranged s' ∧ EachSwap (Deposited s'.InEscrow) s'.escrow) ∧ WithdrawsPrice s s' act := by
    intro s act s' hI hact
    exact ⟨⟨hI.1.step hact.1, hact.1.deposited hI.1 hact.2 hI.2⟩,
      withdrawsPrice_of_deposited hact.1 hI.2⟩
  constructor
  · intro s' hs'
    have hI := hrun.forall_visited
      (I := fun s => Arranged s ∧ EachSwap (Deposited s.InEscrow) s.escrow) hinit
      (fun s act s' hI hact => (hnext s act s' hI hact).1) s' hs'
    exact hI.2.depositsKept
  · exact (hrun.forall_steps
      (I := fun _ s => Arranged s ∧ EachSwap (Deposited s.InEscrow) s.escrow) hinit
      fun _ s act s' hI hact => hnext s act s' hI hact).2

section Sales

open Scenario

def escrowOffer : List (Env × Call) :=
  [(env [] 0, .initializeContract registry),
    (env [seller] 1, .initiateEscrowSwap token 1 seller 1000 buyer 100)]

/-- The swap 0 is an accepted one in escrow mode with the deposit `x`. -/
def seenDeposit (x : Option ℤ) (s : State) : Bool :=
  s.swapMode 0 = some .escrow && s.escrowDeposit 0 = x &&
    (s.swap 0).any fun r => r.status = .accepted

theorem deposit_of_seen {x : Option ℤ} {s : State} (h : seenDeposit x s = true) :
    ∃ r, s.swap 0 = some r ∧ r.status = .accepted ∧ s.swapMode 0 = some .escrow ∧
      s.escrowDeposit 0 = x := by
  simp only [seenDeposit, Bool.and_eq_true, Option.any_eq_true, decide_eq_true_eq] at h
  obtain ⟨⟨hmode, hdeposit⟩, r, hr, hst⟩ := h
  exact ⟨r, hr, hst, hmode, hdeposit⟩

theorem deposit_withdrawn : ∃ (s₁ s₂ : State) (r : SwapRecord), s₁.swap 0 = some r ∧
    (r.status.Funded ↔ s₁.escrowDeposit 0 = some r.price) ∧ r.status = .accepted ∧
    ∃ r₁, s₁.swap 0 = some r₁ ∧ newTransfers s₁ s₂ =
      [⟨r₁.token, currentContractAddress, r₁.buyer, r₁.price, .price 0⟩] := by
  obtain ⟨tr, s₁, s₂, hrun, hexec, hseen⟩ := watched (OnCalls SparesDeposits) funds
    (escrowOffer ++ [(env [buyer] 2, Call.escrowDeposit 0)]) (env [buyer] 101) (.escrowWithdraw 0)
    (fun s _ => seenDeposit (some 1000) s) (by decide)
    (by simp [escrowOffer, OnCalls, SparesDeposits])
  obtain ⟨r, hr, hst, hmode, -⟩ := deposit_of_seen hseen
  have hrun' := hrun.next (k := ⟨env [buyer] 101, some (.escrowWithdraw 0)⟩)
    ⟨.call hexec, by simp [OnCalls, SparesDeposits]⟩
  obtain ⟨hkept, hwithdraws⟩ := deposits_kept hrun'
  have hone := hkept s₁ (by simpa using .inr hrun.mem_visited) 0 r hr hmode
  exact ⟨s₁, s₂, r, hr, hone.1, hst, hwithdraws _ _ _ _ hrun.mem_steps_last 0 rfl⟩

/-- The buyer accepts a swap in escrow mode as any other, and gets nothing back. -/
theorem accepted_without_deposit : ∃ balance tr s past s₁ act s₂,
    Run (Restrict ActStep Always) (State.empty balance) tr s ∧
    (past, s₁, act, s₂) ∈ steps (State.empty balance) tr ∧
    ¬ DepositsKept s₁ ∧ ¬ WithdrawsPrice s₁ s₂ act := by
  obtain ⟨tr, s₁, s₂, hrun, hexec, hseen⟩ := watched Always funds
    (escrowOffer ++ [(env [buyer] 2, Call.acceptSwap 0)]) (env [buyer] 101) (.escrowWithdraw 0)
    (fun s s' => seenDeposit none s && newTransfers s s' = []) (by decide) (by simp [Always])
  simp only [Bool.and_eq_true, decide_eq_true_eq] at hseen
  obtain ⟨r, hr, hst, hmode, hdeposit⟩ := deposit_of_seen hseen.1
  refine ⟨funds, _, s₂, tr, s₁, ⟨env [buyer] 101, some (.escrowWithdraw 0)⟩, s₂,
    hrun.next ⟨.call hexec, trivial⟩, hrun.mem_steps_last, ?_, ?_⟩
  · intro hkept
    rw [(hkept 0 r hr hmode).1.mp (.inl hst)] at hdeposit
    cases hdeposit
  · intro hwithdraws
    obtain ⟨r₁, -, hpaid⟩ := hwithdraws 0 rfl
    rw [hseen.2] at hpaid
    cases hpaid

end Sales

end AtomicIp.AtomicSwap
