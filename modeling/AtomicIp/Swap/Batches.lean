import AtomicIp.Lib.Batch
import AtomicIp.Lib.Index
import AtomicIp.Swap.Accounts
import AtomicIp.Swap.LockHolders

set_option autoImplicit false

namespace AtomicIp.AtomicSwap

open Function Tx

/-- The storage and the balances without the log of events. -/
def State.silent (s : State) : State := { s with events := [] }

/-- The same without the reasons of the cancellations. -/
def State.unreasoned (s : State) : State := { s with events := [], cancelReason := fun _ => none }

section Cancellation

variable {env : Env} {i : ℕ} {ids : List ℕ} {canceller : Address} {reason : Bytes}
  {reasons : List Bytes} {s : State}

theorem cancelWithReason_alike (hauth : canceller ∈ env.auths) :
    Alike State.unreasoned (cancelWithReason env canceller i reason)
      (cancelSwap env i canceller) := by
  refine .bind (.bind (.load fun _ => rfl) fun _ => .orAbort) fun swap => ?_
  refine .bind .ensure fun _ => (Alike.passed hauth ?_).symm
  refine (Alike.bind .ensure fun _ => ?_).symm
  refine .bind (.bind (.store fun _ => rfl) fun _ => .store fun _ => rfl) fun _ => ?_
  refine .unseen (k := fun s : State => s.setCancelReason i (some reason)) (fun _ => rfl) ?_
  refine .bind (.store fun _ => rfl) fun _ => .bind (.store fun _ => rfl) fun _ => ?_
  exact .unseen_end fun _ => rfl

theorem cancelSwap_refused (hauth : canceller ∉ env.auths) :
    ∃ e, cancelSwap env i canceller s = .error e := by
  refine refused fun _ s' hrun => ?_
  simp [cancelSwap] at hrun
  obtain ⟨r, -, -, h, -⟩ := hrun
  exact hauth h

/-- The batch asks for the authorisation once, also for no swap at all. -/
theorem batchCancelSwaps_folds (hlength : reasons.length = ids.length)
    (hcaller : ids ≠ [] ∨ canceller ∈ env.auths) :
    outcome State.unreasoned (batchCancelSwaps env ids canceller reasons s) =
      outcome State.unreasoned (Tx.forEach ids (fun i => cancelSwap env i canceller) s) := by
  by_cases hauth : canceller ∈ env.auths
  · have hloop : outcome State.unreasoned
        (Tx.forEach₂ .unwrap ids reasons (cancelWithReason env canceller) s) =
          outcome State.unreasoned (Tx.forEach ids (fun i => cancelSwap env i canceller) s) :=
      forEach₂_alike (by omega) (fun _ _ => cancelWithReason_alike hauth) rfl
    rw [batchCancelSwaps, requireAuth, outcome_ensure, if_pos hauth, require, outcome_ensure,
      if_pos hlength, ← hloop]
    exact outcome_bind fun _ _ => rfl
  · obtain ⟨i, rest, rfl⟩ := List.exists_cons_of_ne_nil (hcaller.resolve_right hauth)
    obtain ⟨e, hone⟩ := cancelSwap_refused (i := i) (s := s) hauth
    rw [batchCancelSwaps, requireAuth, outcome_ensure, if_neg hauth, Tx.forEach, bind_of_error hone]
    rfl

end Cancellation

section Deposits

variable {env : Env} {i : ℕ} {ids : List ℕ} {buyer : Address} {s s' : State} {u : Unit}
  {r : SwapRecord}

theorem requireSwapExists_missing {β : Type} {f : SwapRecord → SwapTx β} (hr : s.swap i = none) :
    ∃ e, (requireSwapExists i >>= f) s = .error e := by
  refine ⟨.contract .swapNotFound, bind_of_error ?_⟩
  change Tx.orAbort (s.swap i) _ s = _
  rw [hr]
  rfl

def BoughtBy (buyer : Address) (ids : List ℕ) (s : State) : Prop :=
  ∀ i ∈ ids, ∀ r, s.swap i = some r → r.buyer = buyer

theorem depositOwn_boughtBy (h : depositOwn env buyer i s = .ok (u, s'))
    (hbought : BoughtBy buyer ids s) : BoughtBy buyer ids s' := by
  obtain ⟨r, hr, hbuyer, h⟩ := depositOwn_ok.mp h
  have hswap : s'.swap = update s.swap i (some (r.acceptedAt env.timestamp)) :=
    congrArg Escrow.swap (depositEscrow_escrow h).2.2
  intro j hj r' hr'
  rw [hswap] at hr'
  rcases update_eq_some hr' with ⟨-, rfl⟩ | ⟨-, hold⟩
  · exact hbuyer
  · exact hbought j hj r' hold

theorem depositOwn_eq (hauth : buyer ∈ env.auths) (hr : s.swap i = some r)
    (hbuyer : r.buyer = buyer) : depositOwn env buyer i s = escrowDeposit env i s := by
  have hexists : requireSwapExists i s = .ok (r, s) := requireSwapExists_ok.mpr ⟨hr, rfl⟩
  have hrequire : (require (r.buyer = buyer) .unauthorized : SwapTx Unit) s = .ok ((), s) :=
    require_ok.mpr ⟨hbuyer, rfl⟩
  have hallowed : (requireAuth env.auths r.buyer : SwapTx Unit) s = .ok ((), s) :=
    requireAuth_ok.mpr ⟨hbuyer ▸ hauth, rfl⟩
  rw [depositOwn, escrowDeposit, bind_of_ok hexists, bind_of_ok hexists, bind_of_ok hrequire,
    bind_of_ok hallowed]

theorem escrowDeposit_refused (hauth : buyer ∉ env.auths) (hbought : BoughtBy buyer [i] s) :
    ∃ e, escrowDeposit env i s = .error e := by
  refine refused fun _ s' hrun => ?_
  obtain ⟨r, hr, h, -⟩ := escrowDeposit_ok.mp hrun
  rw [hbought i (by simp) r hr] at h
  exact hauth h

theorem batchEscrowDeposit_folds (hbought : BoughtBy buyer ids s)
    (hcaller : ids ≠ [] ∨ buyer ∈ env.auths) :
    outcome id (batchEscrowDeposit env ids buyer s) =
      outcome id (Tx.forEach ids (escrowDeposit env) s) := by
  by_cases hauth : buyer ∈ env.auths
  · have hloop : outcome id (Tx.forEach ids (depositOwn env buyer) s) =
        outcome id (Tx.forEach ids (escrowDeposit env) s) := by
      refine forEach_alike (I := BoughtBy buyer ids)
        (fun i _ s u s' hI h => depositOwn_boughtBy h hI) (fun i hi s t hI hst => ?_) hbought rfl
      obtain rfl : s = t := hst
      cases hr : s.swap i with
      | none =>
        obtain ⟨e, hbatch⟩ := requireSwapExists_missing hr
        obtain ⟨e', hsingle⟩ := requireSwapExists_missing hr
        rw [depositOwn, escrowDeposit, hbatch, hsingle]
        rfl
      | some r => rw [depositOwn_eq hauth hr (hI i hi r hr)]
    rw [batchEscrowDeposit, requireAuth, outcome_ensure, if_pos hauth, ← hloop]
    exact outcome_bind fun _ _ => rfl
  · obtain ⟨i, rest, rfl⟩ := List.exists_cons_of_ne_nil (hcaller.resolve_right hauth)
    obtain ⟨e, hone⟩ := escrowDeposit_refused (i := i) (s := s) hauth
      fun j hj => hbought j (by simp [List.mem_singleton.mp hj])
    rw [batchEscrowDeposit, requireAuth, outcome_ensure, if_neg hauth, Tx.forEach,
      bind_of_error hone]
    rfl

end Deposits

section Rollback

variable {env : Env} {i : ℕ} {ids : List ℕ} {caller : Address} {reason : Bytes} {s s' t : State}
  {r : SwapRecord} {x : ℤ}

theorem returnCollateral_untallied {total y : ℤ}
    (h : returnCollateral tallied i r total s = .ok (x, s')) :
    ∃ y', returnCollateral untallied i r y s = .ok (y', s') := by
  cases hheld : s.escrow.swapCollateral i with
  | none =>
    simp [returnCollateral, hheld] at h ⊢
    exact h.2
  | some amount =>
    simp [returnCollateral, hheld, tallied, untallied, payOut, forgetCollateral] at h ⊢
    exact ⟨h.2.1, h.2.2.1⟩

theorem returnPremium_untallied {total y : ℤ}
    (h : returnPremium tallied i r total s = .ok (x, s')) :
    ∃ y', returnPremium untallied i r y s = .ok (y', s') := by
  by_cases hpremium : 0 < r.insurancePremium
  · simp [returnPremium, hpremium, tallied, untallied, payOut] at h ⊢
    exact ⟨h.2.1, h.2.2⟩
  · simp [returnPremium, hpremium] at h ⊢
    exact h.2

theorem refundEscrow_untallied (h : refundEscrow tallied i r s = .ok (x, s')) :
    ∃ y, refundEscrow untallied i r s = .ok (y, s') := by
  by_cases hfunded : r.status = .accepted ∨ r.status = .disputed
  · simp only [refundEscrow, if_pos hfunded, Tx.bind_ok] at h ⊢
    obtain ⟨t₁, s₁, ht, _, s₂, hrefund, t₂, s₃, hcollateral, hpremium⟩ := h
    obtain rfl := tallied_readOnly _ _ _ _ _ ht
    obtain ⟨y₂, hcollateral⟩ := returnCollateral_untallied (y := 0) hcollateral
    obtain ⟨y₃, hpremium⟩ := returnPremium_untallied (y := y₂) hpremium
    exact ⟨y₃, 0, s₁, rfl, (), s₂, hrefund, y₂, s₃, hcollateral, hpremium⟩
  · simp only [refundEscrow, if_neg hfunded] at h ⊢
    exact ⟨x, h⟩

/-- The sum so far and what the contract still has are no more than a token balance may be. -/
structure Fits (r : SwapRecord) (total : ℤ) (s : State) : Prop where
  nonneg : 0 ≤ total
  held : total + s.balance r.token currentContractAddress ≤ i128Max

theorem Fits.paid {total amount : ℤ} {p : Purpose} (h : Fits r total s)
    (hbuyer : r.buyer ≠ currentContractAddress) (hpos : 0 ≤ amount) :
    Fits r (total + amount)
      (s.transferred ⟨r.token, currentContractAddress, r.buyer, amount, p⟩) where
  nonneg := Int.add_nonneg h.nonneg hpos
  held := by
    have hheld := h.held
    have hpost : (s.transferred ⟨r.token, currentContractAddress, r.buyer, amount, p⟩).balance
        r.token currentContractAddress = s.balance r.token currentContractAddress - amount := by
      simp [State.transferred, post, Transfer.flow, hbuyer, Int.sub_eq_add_neg]
    rw [hpost]
    omega

theorem Fits.tallied {total amount : ℤ} (h : Fits r total s) (hpos : 0 ≤ amount)
    (hheld : amount ≤ s.balance r.token currentContractAddress) :
    i128Min ≤ total + amount ∧ total + amount ≤ i128Max := by
  have hnonneg := h.nonneg
  have hmax := h.held
  unfold i128Min
  omega

theorem returnCollateral_tallied {total y : ℤ} (hfits : Fits r total s)
    (hbuyer : r.buyer ≠ currentContractAddress)
    (h : returnCollateral untallied i r y s = .ok (x, s')) :
    ∃ total', returnCollateral tallied i r total s = .ok (total', s') ∧ Fits r total' s' := by
  cases hheld : s.escrow.swapCollateral i with
  | none =>
    simp [returnCollateral, hheld] at h ⊢
    exact ⟨h.2, h.2 ▸ hfits⟩
  | some amount =>
    simp [returnCollateral, hheld, untallied, payOut, forgetCollateral] at h
    obtain ⟨⟨hpos, hle⟩, rfl, -⟩ := h
    have hpaid := hfits.paid (p := .collateral i) hbuyer hpos
    refine ⟨total + amount, ?_, ⟨hpaid.nonneg, hpaid.held⟩⟩
    simpa [returnCollateral, hheld, tallied, payOut, forgetCollateral, hpos, hle] using
      hfits.tallied hpos hle

theorem returnPremium_tallied {total y : ℤ} (hfits : Fits r total s)
    (h : returnPremium untallied i r y s = .ok (x, s')) :
    ∃ total', returnPremium tallied i r total s = .ok (total', s') := by
  by_cases hpremium : 0 < r.insurancePremium
  · simp [returnPremium, hpremium, untallied, payOut] at h
    obtain ⟨⟨⟨hpos, hle⟩, rfl⟩, -⟩ := h
    refine ⟨total + r.insurancePremium, ?_⟩
    simpa [returnPremium, hpremium, tallied, payOut, hpos, hle] using hfits.tallied hpos hle
  · simp [returnPremium, hpremium] at h ⊢
    exact h.2

theorem refundEscrow_tallied (hheld : s.balance r.token currentContractAddress ≤ i128Max)
    (hbuyer : r.status = .accepted ∨ r.status = .disputed → r.buyer ≠ currentContractAddress)
    (h : refundEscrow untallied i r s = .ok (x, s')) :
    ∃ y, refundEscrow tallied i r s = .ok (y, s') := by
  by_cases hfunded : r.status = .accepted ∨ r.status = .disputed
  · have hbuyer := hbuyer hfunded
    have hfits : Fits r 0 s := ⟨le_rfl, by omega⟩
    simp only [refundEscrow, if_pos hfunded, Tx.bind_ok] at h ⊢
    obtain ⟨t₁, s₁, ht, _, s₂, hrefund, t₂, s₃, hcollateral, hpremium⟩ := h
    obtain ⟨rfl, rfl⟩ := Tx.pure_ok.mp ht
    obtain ⟨⟨hpos, hle⟩, rfl⟩ := transfer_ok.mp hrefund
    obtain ⟨total, hcollateral, hfits'⟩ :=
      returnCollateral_tallied (hfits.paid (p := .price i) hbuyer hpos) hbuyer hcollateral
    obtain ⟨total', hpremium⟩ := returnPremium_tallied hfits' hpremium
    exact ⟨total', _, s₁, i128_ok.mpr ⟨hfits.tallied hpos hle, rfl, rfl⟩, (), _, hrefund, total,
      s₃, hcollateral, hpremium⟩
  · simp only [refundEscrow, if_neg hfunded] at h ⊢
    exact ⟨x, h⟩

/-- The contract is not its own customer, neither with a swap that is paid for nor with a bid. -/
structure Customers (c : Escrow) : Prop where
  buyer : ∀ i r, c.swap i = some r → r.status = .accepted ∨ r.status = .disputed →
    r.buyer ≠ currentContractAddress
  bidder : ∀ i a b, c.auction i = some a → a.highestBidder = some b → b ≠ currentContractAddress

/-- What a rollback needs of the state: the contract's balances are token amounts besides. -/
structure Payable (c : Escrow) : Prop extends Customers c where
  held : ∀ t, c.balance t currentContractAddress ≤ i128Max

theorem Customers.moved {c c' : Escrow} {r' : SwapRecord} (h : Customers c)
    (hswap : ∀ j, c'.swap j = if j = i then some r' else c.swap j)
    (hauction : c'.auction = c.auction)
    (hbuyer : r'.status = .accepted ∨ r'.status = .disputed → r'.buyer ≠ currentContractAddress) :
    Customers c' where
  buyer j rj hj := by
    by_cases hji : j = i
    · obtain rfl : r' = rj := by simpa [hswap, hji] using hj
      exact hbuyer
    · exact h.buyer j rj (by simpa [hswap, hji] using hj)
  bidder := hauction ▸ h.bidder

theorem Step.payable {c c' : Escrow} (hstep : Step env c (.adminRolledBack i) c') (h : Payable c) :
    Payable c' := by
  cases hstep with
  | @adminRolledBack _ r returned total ms hr hfrom hauth hpaid =>
    refine ⟨h.moved (fun j => swap_close c i j _ _) rfl (by simp), fun t => ?_⟩
    have hout : ∀ m ∈ ms, m.src = currentContractAddress ∧ 0 ≤ m.amount :=
      fun m hm => ⟨(hpaid.escrowed m hm).2.1, (hpaid.escrowed m hm).2.2.2⟩
    exact (postAll_le_of_out hout).trans (h.held t)

theorem rollBack_tally (h : Payable s.escrow) (hr : s.swap i = some r) :
    (∃ x, rollBack env tallied i r reason s = .ok (x, s')) ↔
      ∃ x, rollBack env untallied i r reason s = .ok (x, s') := by
  simp only [rollBack, Tx.bind_ok]
  constructor
  · intro hrun
    obtain ⟨x, y, s₁, hrefund, u, s₂, hclose, v, s₃, hreason, w, s₄, hhistory, hend⟩ := hrun
    obtain ⟨y', hrefund⟩ := refundEscrow_untallied hrefund
    obtain ⟨-, rfl⟩ := Tx.pure_ok.mp hend
    exact ⟨y', y', s₁, hrefund, u, s₂, hclose, v, s₃, hreason, w, s', hhistory, rfl⟩
  · intro hrun
    obtain ⟨x, y, s₁, hrefund, u, s₂, hclose, v, s₃, hreason, w, s₄, hhistory, hend⟩ := hrun
    obtain ⟨y', hrefund⟩ := refundEscrow_tallied (h.held r.token) (h.buyer i r hr) hrefund
    obtain ⟨-, rfl⟩ := Tx.pure_ok.mp hend
    exact ⟨y', y', s₁, hrefund, u, s₂, hclose, v, s₃, hreason, w, s', hhistory, rfl⟩

def validateAndRollBack (env : Env) (reason : Bytes) (i : ℕ) : SwapTx Unit :=
  validateRollback i >>= fun _ => rollBackValidated env reason i

theorem adminRollbackSwap_outcome (hauth : caller ∈ env.auths) (hadmin : s.admin = some caller)
    (h : Payable s.escrow) : outcome State.silent (validateAndRollBack env reason i s) =
      outcome State.silent (adminRollbackSwap env i caller reason s) := by
  have hallowed : requireAdmin caller s = .ok ((), s) := by simpa using hadmin
  rw [adminRollbackSwap, requireAuth, outcome_ensure, if_pos hauth, bind_of_ok hallowed,
    validateAndRollBack]
  cases hr : s.swap i with
  | none =>
    obtain ⟨e, hsingle⟩ := requireSwapExists_missing hr
    obtain ⟨e', hcheck⟩ : ∃ e', validateRollback i s = .error e' := requireSwapExists_missing hr
    rw [hsingle, bind_of_error hcheck]
    rfl
  | some r =>
    have hexists : requireSwapExists i s = .ok (r, s) := requireSwapExists_ok.mpr ⟨hr, rfl⟩
    have hcheck : validateRollback i s = require (r.status ≠ .completed) .notInAccepted s :=
      bind_of_ok hexists
    rw [bind_of_ok hexists, require, outcome_ensure]
    by_cases hfrom : r.status ≠ .completed
    · have hpass : validateRollback i s = .ok ((), s) := hcheck.trans (require_ok.mpr ⟨hfrom, rfl⟩)
      rw [if_pos hfrom, bind_of_ok hpass, rollBackValidated, bind_of_ok hexists]
      refine outcome_congr (fun u s' hrun => ?_) fun u s' hrun => ?_
      · obtain ⟨x, s₁, hrun, hend⟩ := Tx.bind_ok.mp hrun
        obtain ⟨-, rfl⟩ := Tx.pure_ok.mp hend
        obtain ⟨y, hrun⟩ := (rollBack_tally h hr).mpr ⟨x, hrun⟩
        exact ⟨(), _, (bind_of_ok hrun).trans rfl, rfl⟩
      · obtain ⟨x, s₁, hrun, hend⟩ := Tx.bind_ok.mp hrun
        obtain ⟨y, hrun⟩ := (rollBack_tally h hr).mp ⟨x, hrun⟩
        exact ⟨(), s₁, bind_of_ok hrun⟩
    · rw [if_neg hfrom, bind_of_error (hcheck.trans (ensure_error hfrom))]
      rfl

theorem transfer_through {token src dst : Address} {amount : ℤ} {p : Purpose} :
    Through State.silent (transfer token src dst amount p) :=
  .bind .ensure fun _ => .bind (.load fun _ => rfl) fun _ => .bind .ensure fun _ =>
    .store fun _ => rfl

theorem validateAndRollBack_through :
    Through State.silent (validateAndRollBack env reason i) := by
  have hexists : Through State.silent (requireSwapExists i) :=
    .bind (.load fun _ => rfl) fun _ => .orAbort
  have hcollateral : ∀ (r : SwapRecord) y,
      Through State.silent (returnCollateral untallied i r y) := by
    intro r y
    refine .bind (.load fun _ => rfl) fun held => ?_
    cases held with
    | none => exact .pure
    | some amount =>
      exact .bind .pure fun _ => .bind transfer_through fun _ =>
        .bind (.store fun _ => rfl) fun _ => .pure
  have hpremium : ∀ (r : SwapRecord) y, Through State.silent (returnPremium untallied i r y) := by
    intro r y
    unfold returnPremium
    split
    · exact .bind .pure fun _ => .bind transfer_through fun _ => .pure
    · exact .pure
  have hrefund : ∀ r : SwapRecord, Through State.silent (refundEscrow untallied i r) := by
    intro r
    unfold refundEscrow
    split
    · exact .bind .pure fun _ => .bind transfer_through fun _ =>
        .bind (hcollateral r _) fun _ => hpremium r _
    · exact .pure
  refine .bind (.bind hexists fun _ => .ensure) fun _ => .bind hexists fun r => ?_
  refine .bind ?_ fun _ => .pure
  exact .bind (hrefund r) fun _ => .bind (.bind (.store fun _ => rfl) fun _ => .store fun _ => rfl)
    fun _ => .bind (.store fun _ => rfl) fun _ => .bind (.store fun _ => rfl) fun _ => .pure

theorem validateAndRollBack_step {u : Unit} (hauth : caller ∈ env.auths)
    (hadmin : s.admin = some caller) (h : validateAndRollBack env reason i s = .ok (u, s')) :
    s'.admin = some caller ∧ Step env s.escrow (.adminRolledBack i) s'.escrow := by
  obtain ⟨_, s₁, hcheck, hrun⟩ := Tx.bind_ok.mp h
  obtain ⟨rfl, hone⟩ := validateRollback_ok hcheck
  have hids : RollableBy caller [i] s₁.escrow := ⟨hadmin, by simpa using hone⟩
  obtain ⟨hkept, hstep⟩ := rollBackValidated_step hauth (by simp) hids hrun
  exact ⟨hkept.1, hstep⟩

theorem rollBackValidated_keeps {u : Unit} (h : rollBackValidated env reason i s = .ok (u, s'))
    (hcheck : ∃ r, s.swap i = some r ∧ r.status ≠ .completed) (j : ℕ) :
    (∃ r, s'.swap j = some r ∧ r.status ≠ .completed) ↔
      ∃ r, s.swap j = some r ∧ r.status ≠ .completed := by
  obtain ⟨r, hswap⟩ := rollBackValidated_swap h
  have hj : s'.swap j = if j = i then some (r.withStatus .cancelled) else s.swap j :=
    (congrFun hswap j).trans (swap_setSwap _ _ _ _)
  by_cases hji : j = i
  · rw [hj, if_pos hji, hji]
    exact iff_of_true ⟨_, rfl, by simp⟩ hcheck
  · rw [hj, if_neg hji]

theorem validateRollback_pass (h : ∃ r, s.swap i = some r ∧ r.status ≠ .completed) :
    validateRollback i s = .ok ((), s) := by
  obtain ⟨r, hr, hfrom⟩ := h
  exact (bind_of_ok (requireSwapExists_ok.mpr ⟨hr, rfl⟩)).trans (require_ok.mpr ⟨hfrom, rfl⟩)

theorem validateRollback_fail (h : ¬ ∃ r, s.swap i = some r ∧ r.status ≠ .completed) :
    ∃ e, validateRollback i s = .error e := by
  refine refused fun _ s' hrun => ?_
  exact h (validateRollback_ok hrun).2

theorem adminRollbackSwap_refused (h : caller ∉ env.auths ∨ s.admin ≠ some caller) :
    ∃ e, adminRollbackSwap env i caller reason s = .error e := by
  refine refused fun _ s' hrun => ?_
  simp [adminRollbackSwap] at hrun
  obtain ⟨hauth, hadmin, -⟩ := hrun
  exact h.elim (absurd hauth) (absurd hadmin)

theorem batchRollbackSwaps_refused (h : caller ∉ env.auths ∨ s.admin ≠ some caller) :
    ∃ e, batchRollbackSwaps env ids caller reason s = .error e := by
  refine refused fun _ s' hrun => ?_
  simp [batchRollbackSwaps] at hrun
  obtain ⟨hauth, hadmin, -⟩ := hrun
  exact h.elim (absurd hauth) (absurd hadmin)

/-- The checks that the batch makes first are made again before each rollback of the loop. -/
theorem batchRollbackSwaps_folds (h : Payable s.escrow) (hsome : 1 ≤ ids.length)
    (hsize : ids.length ≤ maxBatchSize) :
    outcome State.silent (batchRollbackSwaps env ids caller reason s) =
      outcome State.silent (Tx.forEach ids
        (fun i => adminRollbackSwap env i caller reason) s) := by
  by_cases hcaller : caller ∈ env.auths ∧ s.admin = some caller
  · obtain ⟨hauth, hadmin⟩ := hcaller
    have hallowed : requireAdmin caller s = .ok ((), s) := by simpa using hadmin
    have hloop : outcome State.silent (Tx.forEach ids (validateAndRollBack env reason) s) =
        outcome State.silent (Tx.forEach ids
          (fun i => adminRollbackSwap env i caller reason) s) := by
      refine forEach_alike (I := fun s => Payable s.escrow ∧ s.admin = some caller) ?_ ?_
        ⟨h, hadmin⟩ rfl
      · intro i _ s _ s' hI hrun
        obtain ⟨hkept, hstep⟩ := validateAndRollBack_step hauth hI.2 hrun
        exact ⟨hstep.payable hI.1, hkept⟩
      · intro i _ s t hI hst
        have hescrow : s.escrow = t.escrow :=
          show s.silent.escrow = t.silent.escrow from congrArg _ hst
        have hadmin : t.admin = some caller := (congrArg Escrow.admin hescrow).symm.trans hI.2
        exact (outcome_of_answer (validateAndRollBack_through s t hst)).trans
          (adminRollbackSwap_outcome hauth hadmin (hescrow ▸ hI.1))
    have hhoist : outcome State.silent ((Tx.forEach ids validateRollback >>= fun _ =>
        Tx.forEach ids (rollBackValidated env reason)) s) =
          outcome State.silent (Tx.forEach ids (validateAndRollBack env reason) s) :=
      forEach_hoist (P := fun i s => ∃ r, s.swap i = some r ∧ r.status ≠ .completed)
        (fun _ _ => validateRollback_pass) (fun _ _ => validateRollback_fail)
        fun _ _ _ _ hcheck hrun => rollBackValidated_keeps hrun hcheck
    rw [batchRollbackSwaps, requireAuth, outcome_ensure, if_pos hauth, bind_of_ok hallowed, require,
      outcome_ensure, if_pos (by omega), require, outcome_ensure, if_pos hsize, ← bind_assoc,
      outcome_bind fun _ _ => rfl, hhoist]
    exact hloop
  · have hrefused : caller ∉ env.auths ∨ s.admin ≠ some caller := by tauto
    obtain ⟨i, rest, rfl⟩ := List.exists_cons_of_length_pos (l := ids) (by omega)
    obtain ⟨e, hone⟩ : ∃ e, adminRollbackSwap env i caller reason s = .error e :=
      adminRollbackSwap_refused hrefused
    obtain ⟨e', hbatch⟩ : ∃ e, batchRollbackSwaps env (i :: rest) caller reason s = .error e :=
      batchRollbackSwaps_refused hrefused
    rw [hbatch, Tx.forEach, bind_of_error hone]
    rfl

end Rollback

section Runs

variable {env : Env} {c c' : Escrow} {m : Move} {s s' : State} {act : Act}

theorem Customers.auctioned {i : ℕ} {a : AuctionRecord} (h : Customers c)
    (hswap : c'.swap = c.swap) (hauction : c'.auction = update c.auction i (some a))
    (hbidder : ∀ b, a.highestBidder = some b → b ≠ currentContractAddress) : Customers c' where
  buyer := hswap ▸ h.buyer
  bidder j aj b hj := by
    rw [hauction] at hj
    rcases update_eq_some hj with ⟨-, rfl⟩ | ⟨-, hold⟩
    · exact hbidder b
    · exact h.bidder j aj b hold

theorem Customers.bought {i : ℕ} {r r' : SwapRecord} (h : Customers c) (henv : env.Hosted)
    (hauth : r.buyer ∈ env.auths) (hterms : r'.terms = r.terms)
    (hswap : ∀ j, c'.swap j = if j = i then some r' else c.swap j)
    (hauction : c'.auction = c.auction) : Customers c' := by
  have hbuyer : r'.buyer = r.buyer := congrArg Terms.buyer hterms
  refine h.moved hswap hauction fun _ heq => ?_
  rw [hbuyer] at heq
  exact henv (heq ▸ hauth)

theorem Step.customers (hstep : Step env c m c') (henv : env.Hosted) (h : Customers c) :
    Customers c' := by
  cases hstep with
  | configured | received | offered | claimed => exact ⟨h.buyer, h.bidder⟩
  | @initiated r hfresh =>
    exact h.moved (fun j => swap_enlist c j r) rfl (by simp [hfresh.status])
  | accepted _ _ _ _ _ _ hauth hterms =>
    exact h.bought henv hauth hterms (fun j => swap_setSwap c _ j _) rfl
  | installment _ _ _ _ hauth hterms =>
    exact h.bought henv hauth hterms (fun j => swap_setSwap c _ j _) rfl
  | scheduled _ _ _ hauth _ hterms =>
    exact h.bought henv hauth hterms (fun j => swap_setSwap c _ j _) rfl
  | repriced hr hfrom => exact h.moved (fun j => swap_setSwap c _ j _) rfl (by simp [hfrom])
  | extended _ hr hfrom => exact h.moved (fun j => swap_setSwap c _ j _) rfl (by simp [hfrom])
  | disputed hr hfrom =>
    have hbuyer := h.buyer _ _ hr (.inl hfrom)
    exact h.moved (fun j => swap_setSwap c _ j _) rfl fun _ => hbuyer
  | cancelled => exact h.moved (fun j => swap_close c _ j _ _) rfl (by simp)
  | released => exact h.moved (fun j => swap_close c _ j _ _) rfl (by simp)
  | refunded => exact h.moved (fun j => swap_close c _ j _ _) rfl (by simp)
  | withdrawn => exact h.moved (fun j => swap_close c _ j _ _) rfl (by simp)
  | adminRolledBack => exact h.moved (fun j => swap_close c _ j _ _) rfl (by simp)
  | rolledBack => exact h.moved (fun j => swap_setSwap c _ j _) rfl (by simp)
  | auctionStarted hfresh => exact h.auctioned rfl rfl (by simp [hfresh.highestBidder])
  | bid ha hopen hauth =>
    refine h.auctioned rfl rfl fun b hb => ?_
    obtain rfl := Option.some.inj hb
    exact fun heq => henv (heq ▸ hauth)
  | unsold ha hopen hnone => exact h.auctioned rfl rfl (by simp [AuctionRecord.close, hnone])
  | @sold i a buyer r ha hopen hwon hr =>
    have hbuyer : r.buyer ≠ currentContractAddress := hr.buyer ▸ h.bidder _ _ _ ha hwon
    have hclosed : Customers ((c.setAuction i (some a.close)).setActiveAuction a.ipId none) :=
      h.auctioned rfl rfl fun b hb => h.bidder i a b ha hb
    exact hclosed.moved (fun j => swap_enlist _ j r) rfl fun _ => hbuyer

theorem ActStep.customers (hact : ActStep s act s')
    (hcond : OnCalls (fun _ env _ => env.Hosted) s act)
    (h : Customers s.escrow) : Customers s'.escrow := by
  obtain ⟨q, hmoves⟩ := hact.answers
  cases hact with
  | elsewhere balance hbalance => exact ⟨h.buyer, h.bidder⟩
  | @call _ env call hexec =>
    exact hmoves.invariant (I := Customers)
      (fun _ _ _ _ hc hstep => hstep.customers (hcond call rfl) hc) h

theorem Customers.empty (balance : Address → Address → ℤ) :
    Customers (State.empty balance).escrow :=
  ⟨by simp [State.escrow, State.empty], by simp [State.escrow, State.empty]⟩

/-- The batches that cancel, roll back and deposit are the loops over their single forms: they
succeed on the same inputs, and leave the same storage and balances. -/
theorem batches_fold {balance : Address → Address → ℤ} {tr : List (Act × State)} {ids : List ℕ}
    {caller : Address} (hrun : Run (Restrict ActStep (OnCalls fun _ env _ => env.Hosted))
      (State.empty balance) tr s)
    (hheld : ∀ t, s.balance t currentContractAddress ≤ i128Max)
    (hcaller : ids ≠ [] ∨ caller ∈ env.auths) :
    (∀ reason, 1 ≤ ids.length → ids.length ≤ maxBatchSize →
      outcome State.silent (batchRollbackSwaps env ids caller reason s) =
        outcome State.silent (Tx.forEach ids
          (fun i => adminRollbackSwap env i caller reason) s)) ∧
    (∀ reasons : List Bytes, reasons.length = ids.length →
      outcome State.unreasoned (batchCancelSwaps env ids caller reasons s) =
        outcome State.unreasoned (Tx.forEach ids (fun i => cancelSwap env i caller) s)) ∧
    (BoughtBy caller ids s →
      outcome id (batchEscrowDeposit env ids caller s) =
        outcome id (Tx.forEach ids (escrowDeposit env) s)) := by
  have hcustomers : Customers s.escrow := hrun.invariant (I := fun s => Customers s.escrow)
    (.empty balance) fun _ _ _ hs hact => hact.1.customers hact.2 hs
  refine ⟨?_, ?_, ?_⟩
  · intro reason hsome hsize
    exact batchRollbackSwaps_folds ⟨hcustomers, hheld⟩ hsome hsize
  · intro reasons hlength
    exact batchCancelSwaps_folds hlength hcaller
  · intro hbought
    exact batchEscrowDeposit_folds hbought hcaller

end Runs

section Sales

open Scenario

def twoOffers : List (Env × Call) :=
  offer ++ [(env [seller] 2, Call.initiateSwap token 2 seller 1000 buyer 0 none 0 false)]

theorem both_offers_cancelled : ∃ s : State,
    outcome State.unreasoned (batchCancelSwaps (env [seller] 3) [0, 1] seller [[], []] s) =
      outcome State.unreasoned (Tx.forEach [0, 1] (fun i => cancelSwap (env [seller] 3) i seller) s)
    ∧ s.activeSwap 1 = some 0 ∧ s.activeSwap 2 = some 1 := by
  have hplay : ∃ s, play (State.empty funds) twoOffers = .ok s ∧ s.balance = funds ∧
      s.activeSwap 1 = some 0 ∧ s.activeSwap 2 = some 1 := ⟨_, rfl, rfl, rfl, rfl⟩
  obtain ⟨s, hs, hbalance, hlocks⟩ := hplay
  obtain ⟨tr, hrun⟩ : ∃ tr, Run (Restrict ActStep (OnCalls fun _ env _ => env.Hosted))
      (State.empty funds) tr s := play_run hs
    (by simp [twoOffers, offer, OnCalls, Env.Hosted, env, seller, currentContractAddress]) .start
  have hheld : ∀ t, s.balance t currentContractAddress ≤ i128Max := by
    intro t
    rw [hbalance]
    simp [funds, currentContractAddress, buyer, stranger, i128Max]
  have hcaller : [0, 1] ≠ [] ∨ seller ∈ (env [seller] 3).auths := .inl (by simp)
  exact ⟨s, (batches_fold hrun hheld hcaller).2.1 [[], []] rfl, hlocks⟩

/-- No swaps to cancel, and nobody who has authorised it. -/
theorem empty_batch_refused : ∃ tr s,
    Run (Restrict ActStep (OnCalls fun _ env _ => env.Hosted)) (State.empty funds) tr s ∧
    outcome State.unreasoned (batchCancelSwaps (env [] 1) [] seller [] s) ≠
      outcome State.unreasoned (Tx.forEach [] (fun i => cancelSwap (env [] 1) i seller) s) := by
  refine ⟨[], State.empty funds, .start, ?_⟩
  rw [batchCancelSwaps, requireAuth, outcome_ensure, if_neg (by simp [env])]
  exact (Option.some_ne_none _).symm

end Sales

end AtomicIp.AtomicSwap
