import AtomicIp.Swap.Shares
import AtomicIp.Swap.WaysOut

set_option autoImplicit false

namespace AtomicIp.AtomicSwap

open Function Tx

def SwapRecord.feeShare (r : SwapRecord) : ℤ := r.price * protocolConfig.protocolFeeBps / 10000

def SwapRecord.referralShare (r : SwapRecord) : ℤ :=
  if r.referrer.isSome then r.price * protocolConfig.referralFeeBps / 10000 else 0

def paymentOf (i : ℕ) (r : SwapRecord) (x : ℤ) : TokenTransfer :=
  ⟨r.token, currentContractAddress, r.seller, x, .price i⟩

def Collects (env : Env) (s : State) (i : ℕ) (r : SwapRecord) (call : Call) (x : ℤ) : Prop :=
  ∃ s', exec env call s = .ok ((), s') ∧ s'.swap i = some (r.withStatus .completed) ∧
    paymentOf i r x ∈ newTransfers s s'

/-- The seller has authorised the call, the registry takes his key, and the fee can be computed. -/
structure Deliverable (env : Env) (s : State) (r : SwapRecord) (k : Key) : Prop where
  authorised : r.seller ∈ env.auths
  key : KeyCheck env s.ipRegistry r.ipId k.secret k.blindingFactor true
  priced : r.price * protocolConfig.protocolFeeBps ≤ i128Max

/-- As many have signed as are listed, and the conditions hold. -/
structure Cleared (env : Env) (s : State) (i : ℕ) (r : SwapRecord) : Prop where
  signed : ∀ signers, s.swapSigners i = some signers →
    signers.length ≤ ((s.swapSignatures i).getD []).length
  conditions : ∀ condition ∈ r.conditions, condition.holds env r

section Purses

variable {s : State} {i : ℕ} {r : SwapRecord} {t a : Address} {held : Option ℤ} {x y : ℤ}

/-- The contract has this much of the token, and this collateral of the swap. -/
structure Purse (i : ℕ) (t : Address) (held : Option ℤ) (y : ℤ) (s : State) : Prop where
  balance : y ≤ s.balance t currentContractAddress
  collateral : s.escrow.swapCollateral i = held

theorem Purse.less (h : Purse i t held y s) (hle : x ≤ y) : Purse i t held x s :=
  ⟨hle.trans h.balance, h.collateral⟩

theorem payOut_succeeds {purpose : Purpose} (hx : 0 ≤ x) (hy : 0 ≤ y)
    (h : Purse i r.token held (x + y) s) :
    Succeeds s (payOut r a x purpose) fun _ => Purse i r.token held y := by
  have hbalance := h.balance
  refine .of_ok (a := ()) (transfer_ok.mpr ⟨⟨hx, by omega⟩, rfl⟩) ⟨?_, h.collateral⟩
  have hflow : -x ≤ Transfer.flow r.token currentContractAddress
      (⟨r.token, currentContractAddress, a, x, purpose⟩ : TokenTransfer) := by
    simp only [Transfer.flow]
    split_ifs <;> omega
  change y ≤ s.balance r.token currentContractAddress + _
  omega

theorem payTreasury_succeeds (hx : 0 ≤ x) (hy : 0 ≤ y) (h : Purse i r.token held (x + y) s) :
    Succeeds s (payTreasury i r x) fun _ => Purse i r.token held y :=
  .onlyIf (fun _ => payOut_succeeds hx hy h) fun _ => h.less (by omega)

theorem payReferrer_succeeds (hx : 0 ≤ x) (hy : 0 ≤ y) (h : Purse i r.token held (x + y) s) :
    Succeeds s (payReferrer i r x) fun _ => Purse i r.token held y := by
  unfold payReferrer
  cases r.referrer with
  | none => exact .of_ok rfl (h.less (by omega))
  | some referrer =>
    refine .onlyIf (fun _ => .bind (payOut_succeeds hx hy h) fun _ _ hpaid => ?_) fun _ =>
      h.less (by omega)
    exact .of_ok rfl ⟨hpaid.balance, hpaid.collateral⟩

theorem Purse.releases {log : ℤ → List Event} (h : Purse i r.token held (held.getD 0) s)
    (hheld : 0 ≤ held.getD 0) :
    Succeeds s (releaseCollateral i r a log) fun _ _ => True := by
  obtain rfl := h.collateral
  obtain ⟨s', hrelease⟩ := releaseCollateral_succeeds hheld h.balance
  exact .of_ok hrelease trivial

end Purses

section Fees

variable {s s' : State} {i : ℕ} {r : SwapRecord} {x : ℤ}

theorem i128_exact (hnonneg : 0 ≤ x) (hmax : x ≤ i128Max) : (i128 x : SwapTx ℤ) s = .ok (x, s) :=
  checked_ok.mpr ⟨FitsI128.of_nonneg hnonneg hmax, rfl, rfl⟩

theorem bpsOf_eq {bps : ℕ} (hbps : 0 < bps) (hpos : 0 < x) (hmax : x * bps ≤ i128Max) :
    bpsOf bps x s = .ok (x * bps / 10000, s) := by
  have hnonneg : 0 ≤ x * bps := by positivity
  rw [bpsOf, if_pos ⟨hbps, hpos⟩, bind_of_ok (i128_exact hnonneg hmax),
    Int.tdiv_eq_ediv_of_nonneg hnonneg]
  rfl

theorem SwapRecord.Feasible.protocolFee_eq (h : r.Feasible) :
    AtomicSwap.protocolFee r s = .ok (r.feeShare, s) := bpsOf_eq (by decide) h.1 h.2

theorem SwapRecord.Feasible.referralFee_eq (h : r.Feasible) :
    AtomicSwap.referralFee r s = .ok (r.referralShare, s) := by
  have hmax : r.price * protocolConfig.referralFeeBps ≤ i128Max := by
    have hfee := h.2
    have hpos := h.1
    simp only [protocolConfig] at hfee ⊢
    omega
  unfold AtomicSwap.referralFee SwapRecord.referralShare
  by_cases hreferrer : r.referrer.isSome
  · rw [if_pos hreferrer, if_pos hreferrer]
    exact bpsOf_eq (by decide) h.1 hmax
  · rw [if_neg hreferrer, if_neg hreferrer]
    rfl

theorem protocolFee_feasible (hpos : 0 < r.price) (h : protocolFee r s = .ok (x, s')) :
    r.Feasible := by
  refine ⟨hpos, ?_⟩
  by_contra hout
  have hfails : protocolFee r s = .error .overflow := bpsOf_overflows (by decide) hpos hout
  simp [hfails] at h

/-- The shares of the treasury and the referrer leave most of the price to the seller. -/
theorem SwapRecord.Feasible.split (h : r.Feasible) :
    0 ≤ r.feeShare ∧ 0 ≤ r.referralShare ∧ r.feeShare + r.referralShare ≤ r.price := by
  obtain ⟨-, hfee, hfee'⟩ := protocolFee_share h.1 (h.protocolFee_eq (s := .empty fun _ _ => 0))
  obtain ⟨-, hreferral, hreferral'⟩ :=
    referralFee_share h.1 (h.referralFee_eq (s := .empty fun _ _ => 0))
  exact ⟨hfee, hreferral, by omega⟩

end Fees

section Held

variable {s : State} {i : ℕ} {r : SwapRecord}

theorem Covered.redeemable (h : Covered s.escrow) (hpool : ∀ t, 0 ≤ s.escrow.pool t)
    (hr : s.swap i = some r) (hheld : r.status = .accepted ∨ r.status = .disputed) :
    Redeemable s i r := by
  obtain ⟨hi, hsound⟩ := h.wf.stored i r hr
  have hdue : r.due = r.price := by rcases hheld with hst | hst <;> simp [SwapRecord.due, hst]
  have hle := swapDue_le (t := r.token) h hpool hi
  rw [swapDue_of hr, if_pos rfl, hdue] at hle
  exact ⟨hsound.price.le, held_nonneg h.wf, hle⟩

end Held

section Reveals

variable {env : Env} {s s' : State} {u : Unit} {i : ℕ} {r : SwapRecord} {k : Key}

theorem Redeemable.purse (h : Redeemable s i r) {s₁ : State} (hbalance : s₁.balance = s.balance)
    (hheld : s₁.escrow.swapCollateral i = s.escrow.swapCollateral i) :
    Purse i r.token (s.escrow.swapCollateral i)
      (r.price + (s.escrow.swapCollateral i).getD 0) s₁ :=
  ⟨by rw [hbalance]; exact h.covered, hheld⟩

theorem revealKey_succeeds (h : Redeemable s i r) (hr : s.swap i = some r)
    (hfrom : r.status = .accepted) (hpos : 0 < r.price) (hkey : Deliverable env s r k)
    (hclear : Cleared env s i r) :
    Succeeds s (revealKey env i r.seller k.secret k.blindingFactor) fun _ _ => True := by
  have hfeasible : r.Feasible := ⟨hpos, hkey.priced⟩
  have hmax := hfeasible.price_le
  obtain ⟨hfee, hreferral, hsum⟩ := hfeasible.split
  have hheld := h.held
  have h₁ : requireSwapExists i s = .ok (r, s) := requireSwapExists_ok.mpr ⟨hr, rfl⟩
  have h₂ : requireSeller r.seller r s = .ok ((), s) := requireSeller_ok.mpr ⟨rfl, rfl⟩
  have h₃ : (requireAuth env.auths r.seller : SwapTx Unit) s = .ok ((), s) :=
    requireAuth_ok.mpr ⟨hkey.authorised, rfl⟩
  have h₄ : requireSwapStatus r .accepted .notAccepted s = .ok ((), s) :=
    requireSwapStatus_ok.mpr ⟨hfrom, rfl⟩
  have h₅ : requireAllSigned i s = .ok ((), s) := by
    rw [requireAllSigned_ok, Option.all_eq_true]
    exact ⟨fun signers hsigners => decide_eq_true (hclear.signed signers hsigners), rfl⟩
  have h₆ : verifyCommitment env r.ipId k.secret k.blindingFactor s = .ok (true, s) :=
    verifyCommitment_ok.mpr ⟨hkey.key, rfl⟩
  have h₇ : rejectInvalidKey i r true s = .ok ((), s) := rejectInvalidKey_ok.mpr ⟨rfl, rfl⟩
  have h₈ : evaluateConditions env r s = .ok ((), s) :=
    evaluateConditions_ok.mpr ⟨hclear.conditions, rfl⟩
  obtain ⟨s₁, hclose⟩ : ∃ s₁, closeSwap i r .completed s = .ok ((), s₁) := ⟨_, rfl⟩
  obtain ⟨s₂, hhistory⟩ : ∃ s₂, appendHistory env i .completed
      (s₁.setCompletionTimestamp i (some env.timestamp)) = .ok ((), s₂) := ⟨_, rfl⟩
  have hpurse : Purse i r.token _ _ s₂ := h.purse (by cases hclose; cases hhistory; rfl)
    (by cases hclose; cases hhistory; rfl)
  have hall : r.price + (s.escrow.swapCollateral i).getD 0 = r.feeShare + (r.referralShare +
      (r.price - r.feeShare - r.referralShare + (s.escrow.swapCollateral i).getD 0)) := by ring
  rw [hall] at hpurse
  refine .after h₁ (.after h₂ (.after h₃ (.after h₄ (.after h₅ (.after h₆ (.after h₇ (.after h₈
    (.after hclose (.after rfl (.after hhistory (.after hfeasible.protocolFee_eq
    (.after hfeasible.referralFee_eq (.after (i128_exact (by omega) (by omega))
    (.after (i128_exact (by omega) (by omega)) ?_))))))))))))))
  refine .bind (payTreasury_succeeds hfee (by omega) hpurse) fun _ s₃ h₉ => ?_
  have hlogged : Succeeds s₃ (Tx.onlyIf (0 < r.feeShare) (publish "proto_fee"
      (.protocolFee i r.feeShare protocolConfig.treasury))) fun _ => Purse i r.token
        (s.escrow.swapCollateral i) (r.referralShare + (r.price - r.feeShare - r.referralShare +
          (s.escrow.swapCollateral i).getD 0)) :=
    .onlyIf (fun _ => .of_ok rfl ⟨h₉.balance, h₉.collateral⟩) fun _ => h₉
  refine .bind hlogged fun _ s₄ h₁₀ => .bind (payReferrer_succeeds hreferral (by omega) h₁₀)
    fun _ s₅ h₁₁ => .bind (payOut_succeeds (by omega) hheld h₁₁) fun _ s₆ h₁₂ => ?_
  exact .bind (h₁₂.releases hheld) fun _ _ _ => .of_ok rfl trivial

theorem completeVerified_succeeds (h : Redeemable s i r) (hfeasible : r.Feasible) :
    Succeeds s (completeVerified i r) fun _ _ => True := by
  have hmax := hfeasible.price_le
  obtain ⟨hfee, hreferral, hsum⟩ := hfeasible.split
  have hheld := h.held
  obtain ⟨s₁, hclose⟩ : ∃ s₁, closeSwap i r .completed s = .ok ((), s₁) := ⟨_, rfl⟩
  have hpurse : Purse i r.token _ _ s₁ := h.purse (by cases hclose; rfl) (by cases hclose; rfl)
  have hall : r.price + (s.escrow.swapCollateral i).getD 0 = r.price - r.feeShare +
      (r.feeShare + (s.escrow.swapCollateral i).getD 0) := by ring
  rw [hall] at hpurse
  refine .after hclose (.after hfeasible.protocolFee_eq
    (.after (i128_exact (by omega) (by omega)) ?_))
  refine .bind (payOut_succeeds (by omega) (by omega) hpurse) fun _ s₂ hpaid =>
    .bind (payTreasury_succeeds hfee hheld hpaid) fun _ s₃ htaxed => ?_
  exact .bind (htaxed.releases hheld) fun _ _ _ => .of_ok rfl trivial

theorem verifyAndCompleteSwap_opened (hr : s.swap i = some r) (hfrom : r.status = .accepted)
    (hkey : Deliverable env s r k) : verifyAndCompleteSwap env i r.seller k.secret k.blindingFactor
      s = completeVerified i r s := by
  have h₁ : requireSwapExists i s = .ok (r, s) := requireSwapExists_ok.mpr ⟨hr, rfl⟩
  have h₂ : requireSeller r.seller r s = .ok ((), s) := requireSeller_ok.mpr ⟨rfl, rfl⟩
  have h₃ : (requireAuth env.auths r.seller : SwapTx Unit) s = .ok ((), s) :=
    requireAuth_ok.mpr ⟨hkey.authorised, rfl⟩
  have h₄ : requireSwapStatus r .accepted .notAccepted s = .ok ((), s) :=
    requireSwapStatus_ok.mpr ⟨hfrom, rfl⟩
  have h₅ : verifyCommitment env r.ipId k.secret k.blindingFactor s = .ok (true, s) :=
    verifyCommitment_ok.mpr ⟨hkey.key, rfl⟩
  rw [verifyAndCompleteSwap, bind_of_ok h₁, bind_of_ok h₂, bind_of_ok h₃, bind_of_ok h₄,
    bind_of_ok h₅, if_neg (by simp)]

theorem Shared.grows {P : Address → Prop} {x : ℤ} {c c' : Escrow} (h : Shared i r P x c c') :
    c.transfers <+: c'.transfers := by
  obtain ⟨ms, hms, -⟩ := h
  exact ⟨ms, hms.symm⟩

theorem mem_newTransfers (s₁ : State) {m : TokenTransfer} (hbefore : s.transfers <+: s₁.transfers)
    (hafter : s₁.transfers ++ [m] <+: s'.transfers) : m ∈ newTransfers s s' := by
  obtain ⟨ms, hms⟩ := hbefore
  obtain ⟨ns, hns⟩ := hafter
  rw [newTransfers, ← hns, ← hms, List.append_assoc, List.append_assoc, List.drop_left]
  simp

theorem protocolFee_share_eq {s₁ : State} {x : ℤ} (hpos : 0 < r.price)
    (h : protocolFee r s = .ok (x, s₁)) : r.Feasible ∧ x = r.feeShare ∧ s₁ = s := by
  have hfeasible := protocolFee_feasible hpos h
  cases hfeasible.protocolFee_eq.symm.trans h
  exact ⟨hfeasible, rfl, rfl⟩

theorem SwapRecord.Feasible.referralFee_share_eq {s₁ : State} {x : ℤ} (hfeasible : r.Feasible)
    (h : AtomicSwap.referralFee r s = .ok (x, s₁)) : x = r.referralShare ∧ s₁ = s := by
  cases hfeasible.referralFee_eq.symm.trans h
  exact ⟨rfl, rfl⟩

theorem revealKey_delivers (hr : s.swap i = some r) (hpos : 0 < r.price)
    (h : revealKey env i r.seller k.secret k.blindingFactor s = .ok (u, s')) :
    (Deliverable env s r k ∧ Cleared env s i r) ∧
      paymentOf i r (r.price - r.feeShare - r.referralShare) ∈ newTransfers s s' := by
  simp [revealKey, paySeller, -requireAllSigned_ok] at h
  obtain ⟨r₁, hr₁, -, hauth, hfrom, s₀, hsigned, hkey, hconditions, s₁, hclose, s₂, hhistory, fee,
    s₃, hfee, referral, s₄, hreferral, -, -, s₅, htreasury, s₆, hevent, s₇, hreferrer, s₈, hseller,
    s₉, hcollateral, s₁₀, hrep₁, s₁₁, hrep₂, rfl⟩ := h
  obtain rfl := Option.some.inj (hr.symm.trans hr₁)
  obtain ⟨hsigned, rfl⟩ := requireAllSigned_ok.mp hsigned
  obtain ⟨hfeasible, rfl, rfl⟩ := protocolFee_share_eq hpos hfee
  obtain ⟨rfl, rfl⟩ := hfeasible.referralFee_share_eq hreferral
  obtain ⟨hfee₀, hreferral₀, -⟩ := hfeasible.split
  refine ⟨⟨⟨hauth, hkey, hfeasible.2⟩, ?_, hconditions⟩, ?_⟩
  · intro signers hsigners
    rw [Option.all_eq_true] at hsigned
    exact of_decide_eq_true (hsigned signers hsigners)
  · have h₁ := payTreasury_shared (P := r.Shareholder .completed) holder_treasury hfee₀ htreasury
    have h₂ := payReferrer_shared (P := r.Shareholder .completed) (fun _ => holder_referrer)
      hreferral₀ (fun hnone => by simp [SwapRecord.referralShare, hnone]) hreferrer
    have h₃ := releaseCollateral_shared (P := r.Shareholder .completed) hcollateral
    have hclosed : s₄.transfers = s₀.transfers := by
      cases hclose
      cases hhistory
      rfl
    have hlogged : s₆.escrow.transfers = s₅.escrow.transfers := by
      rcases hevent with ⟨-, rfl⟩ | ⟨-, rfl⟩ <;> rfl
    have hpaid : s₈.transfers = s₇.transfers ++
        [paymentOf i r (r.price - r.feeShare - r.referralShare)] := by
      obtain ⟨-, rfl⟩ := transfer_ok.mp hseller
      rfl
    have hended : s₁₁.transfers = s₉.transfers := by
      cases hrep₁
      cases hrep₂
      rfl
    refine mem_newTransfers s₇ ?_ ?_
    · have hreferred := h₂.grows
      rw [hlogged] at hreferred
      rw [← hclosed]
      exact h₁.grows.trans hreferred
    · rw [← hpaid]
      exact h₃.grows.trans (hended ▸ List.prefix_rfl)

theorem verifyAndCompleteSwap_delivers (hr : s.swap i = some r) (hpos : 0 < r.price)
    (hdone : s'.swap i = some (r.withStatus .completed))
    (h : verifyAndCompleteSwap env i r.seller k.secret k.blindingFactor s = .ok (u, s')) :
    Deliverable env s r k ∧ paymentOf i r (r.price - r.feeShare) ∈ newTransfers s s' := by
  simp [verifyAndCompleteSwap] at h
  obtain ⟨r₁, hr₁, -, hauth, hfrom, ⟨hkey, h⟩ | ⟨hkey, h⟩⟩ := h
  · obtain rfl := Option.some.inj (hr.symm.trans hr₁)
    have hstep := refundInvalidKey_step hr hfrom hauth h
    have hcancelled := refunded_swap hstep hr
    rw [State.swap_escrow] at hdone
    simp [SwapRecord.withStatus, hcancelled] at hdone
  · obtain rfl := Option.some.inj (hr.symm.trans hr₁)
    simp [completeVerified, paySeller] at h
    obtain ⟨s₁, hclose, fee, s₂, hfee, -, s₃, hseller, s₄, htreasury, s₅, hcollateral, rfl⟩ := h
    obtain ⟨hfeasible, rfl, rfl⟩ := protocolFee_share_eq hpos hfee
    obtain ⟨hfee₀, -, -⟩ := hfeasible.split
    refine ⟨⟨hauth, hkey, hfeasible.2⟩, ?_⟩
    have h₁ := payTreasury_shared (P := r.Shareholder .completed) holder_treasury hfee₀ htreasury
    have h₂ := releaseCollateral_shared (P := r.Shareholder .completed) hcollateral
    have hpaid : s₃.transfers = s₂.transfers ++ [paymentOf i r (r.price - r.feeShare)] := by
      obtain ⟨-, rfl⟩ := transfer_ok.mp hseller
      rfl
    refine mem_newTransfers s₂ ?_ ?_
    · cases hclose
      exact List.prefix_rfl
    · rw [← hpaid]
      exact h₁.grows.trans h₂.grows

end Reveals

section Runs

variable {tr : List (Act × State)} {s : State} {i : ℕ} {r : SwapRecord}

/-- What the escrow holds for a swap can be paid out of it, whatever was called before. -/
theorem held_redeemable (h : Reaches (OnCalls fun _ _ call => call.KeepsEscrow) tr s)
    (hr : s.swap i = some r) (hheld : r.status = .accepted ∨ r.status = .disputed) :
    Redeemable s i r ∧ 0 < r.price := by
  obtain ⟨balance, hbalance, hrun⟩ := h
  obtain ⟨hsolvent, hpool⟩ := hrun.invariant
    (I := fun s => Solvent s.escrow ∧ ∀ t, 0 ≤ s.escrow.pool t)
    ⟨.empty hbalance, fun _ => le_rfl⟩ fun _ _ _ hs hact =>
      ⟨hact.1.solvent hact.2 hs.1, (hact.1.pool_nonneg hs.1.wf hs.2).2⟩
  exact ⟨hsolvent.covers.redeemable hpool hr hheld, (hsolvent.wf.stored i r hr).2.price⟩

theorem collects_iff (hredeemable : Redeemable s i r) (hr : s.swap i = some r)
    (hfrom : r.status = .accepted) (hpos : 0 < r.price) (env : Env) (k : Key) :
    (Collects env s i r (.revealKey i r.seller k.secret k.blindingFactor)
        (r.price - r.feeShare - r.referralShare) ↔ Deliverable env s r k ∧ Cleared env s i r) ∧
    (Collects env s i r (.verifyAndCompleteSwap i r.seller k.secret k.blindingFactor)
        (r.price - r.feeShare) ↔ Deliverable env s r k) := by
  constructor
  · constructor
    · intro hcollects
      obtain ⟨s', hexec, -, -⟩ := hcollects
      exact (revealKey_delivers hr hpos hexec).1
    · intro hready
      obtain ⟨hkey, hclear⟩ := hready
      obtain ⟨u, s', hexec, -⟩ := revealKey_succeeds hredeemable hr hfrom hpos hkey hclear
      exact ⟨s', hexec, released_swap (revealKey_step hexec) hr,
        (revealKey_delivers hr hpos hexec).2⟩
  · constructor
    · intro hcollects
      obtain ⟨s', hexec, hdone, -⟩ := hcollects
      exact (verifyAndCompleteSwap_delivers hr hpos hdone hexec).1
    · intro hkey
      obtain ⟨u, s', hcomplete, -⟩ := completeVerified_succeeds hredeemable ⟨hpos, hkey.priced⟩
      have hstep := completeVerified_step hr hfrom hkey.authorised hkey.key hcomplete
      have hdone := released_swap hstep hr
      have hexec := (verifyAndCompleteSwap_opened hr hfrom hkey).trans hcomplete
      exact ⟨s', hexec, hdone, (verifyAndCompleteSwap_delivers hr hpos hdone hexec).2⟩

/-- In every run of calls that keep the escrow, the seller of an accepted swap is paid by
`reveal_key` if and only if his key is good, the list has signed and the conditions hold, and by
`verify_and_complete_swap` if and only if his key is good. What he gets is the price without the
treasury's share, and without the referrer's where the key is only revealed. -/
theorem seller_paid_iff (h : Reaches (OnCalls fun _ _ call => call.KeepsEscrow) tr s)
    (hr : s.swap i = some r) (hfrom : r.status = .accepted) (env : Env) (k : Key) :
    (Collects env s i r (.revealKey i r.seller k.secret k.blindingFactor)
        (r.price - r.feeShare - r.referralShare) ↔ Deliverable env s r k ∧ Cleared env s i r) ∧
    (Collects env s i r (.verifyAndCompleteSwap i r.seller k.secret k.blindingFactor)
        (r.price - r.feeShare) ↔ Deliverable env s r k) := by
  obtain ⟨hredeemable, hpos⟩ := held_redeemable h hr (.inl hfrom)
  exact collects_iff hredeemable hr hfrom hpos env k

end Runs

section Sales

open Scenario

def referredOffer : List (Env × Call) :=
  [(env [] 0, .initializeContract registry),
    (env [seller] 1, .initiateSwap token 1 seller 1000 buyer 0 (some stranger) 100 true)]

def Referred (s : State) (r : SwapRecord) : Prop :=
  (r.status = .accepted ∧ r.seller = seller ∧ r.referrer = some stranger ∧ r.price = 1000) ∧
    r.conditions = [] ∧ s.swapSigners 0 = none ∧ s.ipRegistry = some registry

instance (s : State) (r : SwapRecord) : Decidable (Referred s r) := by
  unfold Referred
  infer_instance

/-- Of a thousand the seller gets 965, or 975 if the key is verified at once. -/
theorem referred_sale_paid : ∃ tr s r, Reaches (OnCalls fun _ _ call => call.KeepsEscrow) tr s ∧
    s.swap 0 = some r ∧ Collects (env [seller] 3) s 0 r (.revealKey 0 seller secret secret) 965 ∧
    Collects (env [seller] 3) s 0 r (.verifyAndCompleteSwap 0 seller secret secret) 975 := by
  obtain ⟨tr, s₁, s, hrun, hexec, hseen⟩ := watched (OnCalls fun _ _ call => call.KeepsEscrow) funds
    referredOffer (env [buyer] 2) (.acceptSwap 0)
    (fun _ s => (s.swap 0).any fun r => Referred s r) (by decide)
    (by simp [referredOffer, OnCalls, Call.KeepsEscrow, Call.parties, currentContractAddress,
      seller, buyer, stranger])
  have hreach : Reaches (OnCalls fun _ _ call => call.KeepsEscrow) _ s :=
    ⟨funds, funds_contract, hrun.next (k := ⟨env [buyer] 2, some (.acceptSwap 0)⟩)
      ⟨.call hexec, by simp [OnCalls, Call.KeepsEscrow, Call.parties]⟩⟩
  simp only [Option.any_eq_true, decide_eq_true_eq] at hseen
  obtain ⟨r, hr, ⟨hfrom, hseller, hreferrer, hprice⟩, hconditions, hsigners, hregistry⟩ := hseen
  have hkey : Deliverable (env [seller] 3) s r ⟨secret, secret⟩ :=
    ⟨by simp [hseller, env], ⟨registry, hregistry, rfl⟩, by rw [hprice]; decide⟩
  have hclear : Cleared (env [seller] 3) s 0 r := ⟨by simp [hsigners], by simp [hconditions]⟩
  have hfee : r.feeShare = 25 := by rw [SwapRecord.feeShare, hprice]; decide
  have hreferral : r.referralShare = 10 := by
    rw [SwapRecord.referralShare, hprice, hreferrer]
    decide
  have hpaid := seller_paid_iff hreach hr hfrom (env [seller] 3) ⟨secret, secret⟩
  rw [hfee, hreferral, hprice, hseller] at hpaid
  exact ⟨_, s, r, hreach, hr, hpaid.1.mpr ⟨hkey, hclear⟩, hpaid.2.mpr hkey⟩

end Sales

end AtomicIp.AtomicSwap
