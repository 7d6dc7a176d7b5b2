import AtomicIp.Swap.Tables
import AtomicIp.Swap.Records
import AtomicIp.Swap.Refine.Initiation

set_option autoImplicit false

namespace AtomicIp.AtomicSwap

open Function Tx

structure Docket where
  swapApprovals : ℕ → Option (List Address)
  swapSigners : ℕ → Option (List Address)
  swapSignatures : ℕ → Option (List Address)
  paymentSchedule : ℕ → Option (List PaymentSchedule)
  swapMode : ℕ → Option SwapMode

def State.docket (s : State) : Docket where
  swapApprovals := s.swapApprovals
  swapSigners := s.swapSigners
  swapSignatures := s.swapSignatures
  paymentSchedule := s.paymentSchedule
  swapMode := s.swapMode

namespace Docket

variable (d : Docket) (i : ℕ)

def approved (a : Address) : Docket :=
  { d with swapApprovals := update d.swapApprovals i (some ((d.swapApprovals i).getD [] ++ [a])) }

def signed (a : Address) : Docket :=
  { d with
    swapSignatures := update d.swapSignatures i (some ((d.swapSignatures i).getD [] ++ [a])) }

def withSigners (signers : List Address) : Docket :=
  { d with swapSigners := update d.swapSigners i (some signers) }

def withSchedule (schedule : List PaymentSchedule) : Docket :=
  { d with paymentSchedule := update d.paymentSchedule i (some schedule) }

def withEscrow : Docket := { d with swapMode := update d.swapMode i (some .escrow) }

/-- Every swap from `i` to `j` is an escrow one. -/
def inEscrow (j : ℕ) : Docket :=
  { d with swapMode := fun k => if i ≤ k ∧ k < j then some .escrow else d.swapMode k }

end Docket

instance : Aside State.docket := ⟨fun _ _ _ => rfl⟩

section Blind

instance : Blind .paused State.docket := ⟨fun _ => rfl⟩

instance : Blind .persistentAdmin State.docket := ⟨fun _ => rfl⟩

instance : Blind .indexes State.docket := ⟨fun _ => rfl⟩

instance : Blind .history State.docket := ⟨fun _ => rfl⟩

instance : Blind .reasons State.docket := ⟨fun _ => rfl⟩

instance : Blind .currencies State.docket := ⟨fun _ => rfl⟩

instance : Blind .oracle State.docket := ⟨fun _ => rfl⟩

instance : Blind .paymentsMade State.docket := ⟨fun _ => rfl⟩

instance : Blind .insurance State.docket := ⟨fun _ => rfl⟩

instance : Blind .reputation State.docket := ⟨fun _ => rfl⟩

instance : Blind .multipliers State.docket := ⟨fun _ => rfl⟩

instance : Blind .arbitration State.docket := ⟨fun _ => rfl⟩

instance : Blind .completions State.docket := ⟨fun _ => rfl⟩

end Blind

def Call.Files : Call → Prop
  | .approveSwap .. | .signSwapReveal .. | .initiateSwapWithSigners ..
  | .initiateSwapWithSchedule .. | .initiateEscrowSwap .. | .batchInitiateEscrow .. => True
  | _ => False

section Filings

variable {env : Env} {s s' : State} {u : Unit} {i ipId id : ℕ} {a token seller buyer : Address}
  {price : ℤ}

theorem exec_docket {call : Call} (h : exec env call s = .ok (u, s')) (hfiles : ¬ call.Files) :
    s'.docket = s.docket := by
  cases call <;> first
    | exact absurd trivial hfiles
    | (unfold exec at h; exact Keeps.eq State.docket h)

theorem approveSwap_docket (h : approveSwap env i a s = .ok (u, s')) :
    a ∈ env.auths ∧ (∃ r, s.swap i = some r ∧ r.status = .pending) ∧
      a ∉ (s.docket.swapApprovals i).getD [] ∧
      s'.docket = s.docket.approved i a := by
  simp [approveSwap] at h
  obtain ⟨hauth, r, hr, hst, hnew, rfl⟩ := h
  exact ⟨hauth, ⟨r, hr, hst⟩, hnew, rfl⟩

theorem signSwapReveal_docket (h : signSwapReveal env i a s = .ok (u, s')) :
    (a ∈ env.auths ∧ ∃ r, s.swap i = some r) ∧
      (∃ signers, s.docket.swapSigners i = some signers ∧ a ∈ signers) ∧
      a ∉ (s.docket.swapSignatures i).getD [] ∧
      s'.docket = s.docket.signed i a := by
  simp [signSwapReveal] at h
  obtain ⟨hauth, r, hr, hst, signers, hsigners, hmem, hnew, rfl⟩ := h
  exact ⟨⟨hauth, r, hr⟩, ⟨signers, hsigners, hmem⟩, hnew, rfl⟩

/-- Nobody has to approve the swap, and the buyer pays nothing but its price. -/
def SwapRecord.Bare (r : SwapRecord) : Prop :=
  r.requiredApprovals = 0 ∧ r.collateralAmount = 0 ∧ r.insurancePremium = 0

def OpensNext (installments : Bool) (s s' : State) : Prop :=
  ∃ r, (r.Bare ∧ r.isInstallment = installments) ∧
    s'.escrow = (s.escrow.enlist r).setActiveSwap r.ipId (some s.escrow.count)

variable {installments : Bool}

theorem OpensNext.count (h : OpensNext installments s s') :
    s'.escrow.count = s.escrow.count + 1 := by
  obtain ⟨r, -, hescrow⟩ := h
  rw [hescrow]
  rfl

theorem OpensNext.swap (h : OpensNext installments s s') :
    ∃ r, (r.Bare ∧ r.isInstallment = installments) ∧
      ∀ j, s'.swap j = if j = s.escrow.count then some r else s.swap j := by
  obtain ⟨r, hbare, hescrow⟩ := h
  refine ⟨r, hbare, ?_⟩
  intro j
  change s'.escrow.swap j = _
  rw [hescrow]
  exact swap_enlist s.escrow j r

theorem initiateSwapWithSigners_docket {signers : List Address}
    (h : initiateSwapWithSigners env token ipId seller price buyer signers s = .ok (id, s')) :
    OpensNext false s s' ∧ s'.docket = s.docket.withSigners s.escrow.count signers := by
  obtain ⟨-, -, -, -, rfl, _, s₁, s₂, rfl, hopen, hindex, hannounce⟩ :=
    initiateSwapWithSigners_opening h
  have e₂ := appendIpSwap_escrow hindex
  refine ⟨⟨_, ⟨⟨rfl, rfl, rfl⟩, rfl⟩, opening_escrow rfl hopen (by simpa using e₂) hannounce⟩, ?_⟩
  have hopened := Keeps.eq State.docket hopen
  rw [Keeps.eq State.docket hannounce, Keeps.eq State.docket hindex, ← hopened]
  rfl

theorem initiateSwapWithSchedule_docket {schedule : List PaymentSchedule}
    (h : initiateSwapWithSchedule env token ipId seller schedule buyer s = .ok (id, s')) :
    OpensNext true s s' ∧ s'.docket = s.docket.withSchedule s.escrow.count schedule := by
  obtain ⟨-, -, -, -, rfl, _, s₁, s₂, rfl, hopen, hindex, hannounce⟩ :=
    initiateSwapWithSchedule_opening h
  have e₂ := appendIpSwap_escrow hindex
  refine ⟨⟨_, ⟨⟨rfl, rfl, rfl⟩, rfl⟩, opening_escrow rfl hopen (by simpa using e₂) hannounce⟩, ?_⟩
  have hopened := Keeps.eq State.docket hopen
  rw [Keeps.eq State.docket hannounce, Keeps.eq State.docket hindex, ← hopened]
  rfl

structure OpensInEscrow (s s' : State) : Prop where
  grows : s.escrow.count ≤ s'.escrow.count
  docket : s'.docket = s.docket.inEscrow s.escrow.count s'.escrow.count
  opened : ∀ j, s.escrow.count ≤ j → j < s'.escrow.count → ∃ r, s'.swap j = some r ∧
    r.Bare ∧ r.isInstallment = false
  kept : ∀ j, j < s.escrow.count → s'.swap j = s.swap j

theorem OpensInEscrow.refl (s : State) : OpensInEscrow s s where
  grows := Nat.le_refl _
  docket := by
    have hempty : ∀ j, ¬ (s.escrow.count ≤ j ∧ j < s.escrow.count) := by omega
    simp [Docket.inEscrow, hempty]
  opened j hle hlt := by omega
  kept _ _ := rfl

theorem OpensInEscrow.trans {s'' : State} (h : OpensInEscrow s s') (h' : OpensInEscrow s' s'') :
    OpensInEscrow s s'' where
  grows := Nat.le_trans h.grows h'.grows
  docket := by
    have hgrows := h.grows
    have hgrows' := h'.grows
    rw [h'.docket, h.docket]
    simp only [Docket.inEscrow, Docket.mk.injEq, true_and]
    funext j
    split_ifs <;> first | rfl | omega
  opened j hle hlt := by
    by_cases hj : j < s'.escrow.count
    · rw [h'.kept j hj]
      exact h.opened j hle hj
    · exact h'.opened j (by omega) hlt
  kept j hj := by
    have hgrows := h.grows
    rw [h'.kept j (by omega), h.kept j hj]

theorem OpensNext.inEscrow (h : OpensNext false s s')
    (hdocket : s'.docket = s.docket.withEscrow s.escrow.count) : OpensInEscrow s s' := by
  have hcount := h.count
  obtain ⟨r, hbare, hswap⟩ := h.swap
  refine ⟨by omega, ?_, ?_, ?_⟩
  · rw [hdocket, hcount]
    simp only [Docket.withEscrow, Docket.inEscrow, Docket.mk.injEq, true_and]
    funext j
    by_cases hj : j = s.escrow.count
    · simp [hj]
    · have hnot : ¬ (s.escrow.count ≤ j ∧ j < s.escrow.count + 1) := by omega
      rw [update_of_ne hj, if_neg hnot]
  · intro j hle hlt
    obtain rfl : j = s.escrow.count := by omega
    exact ⟨r, by simp [hswap], hbare⟩
  · intro j hj
    rw [hswap, if_neg (by omega)]

theorem initiateEscrowSwap_docket {timeout : ℕ}
    (h : initiateEscrowSwap env token ipId seller price buyer timeout s = .ok (id, s')) :
    OpensInEscrow s s' := by
  obtain ⟨-, -, -, -, rfl, _, s₁, rfl, hopen, hannounce⟩ := initiateEscrowSwap_opening h
  refine OpensNext.inEscrow
    ⟨_, ⟨⟨rfl, rfl, rfl⟩, rfl⟩, opening_escrow rfl hopen (by simp) hannounce⟩ ?_
  have hopened := Keeps.eq State.docket hopen
  rw [Keeps.eq State.docket hannounce, ← hopened]
  rfl

theorem openInEscrow_docket {item : ℤ × ℕ}
    (h : openInEscrow env token seller buyer ipId item s = .ok (id, s')) : OpensInEscrow s s' := by
  obtain ⟨-, -, -, rfl, _, s₁, s₂, rfl, hopen, hindex, hannounce⟩ := openInEscrow_opening h
  have e₂ := appendIpSwap_escrow hindex
  refine OpensNext.inEscrow
    ⟨_, ⟨⟨rfl, rfl, rfl⟩, rfl⟩, opening_escrow rfl hopen (by simpa using e₂) hannounce⟩ ?_
  have hopened := Keeps.eq State.docket hopen
  rw [Keeps.eq State.docket hannounce, Keeps.eq State.docket hindex, ← hopened]
  rfl

theorem batchInitiateEscrow_docket {ipIds : List ℕ} {prices : List ℤ} {timeouts ids : List ℕ}
    (h : batchInitiateEscrow env token ipIds seller prices buyer timeouts s = .ok (ids, s')) :
    OpensInEscrow s s' := by
  simp [batchInitiateEscrow] at h
  obtain ⟨-, -, -, hloop⟩ := h
  exact forEach₂_rel OpensInEscrow.refl OpensInEscrow.trans
    (fun _ _ _ _ _ _ _ hbody => openInEscrow_docket hbody) hloop

end Filings

def Call.InEscrow : Call → Prop
  | .initiateEscrowSwap .. | .batchInitiateEscrow .. => True
  | _ => False

inductive Filing (act : Act) (s s' : State) : Prop where
  | same (hcall : ∀ call, act.call = some call → ¬ call.Files) (h : s'.docket = s.docket)
  | approved (i : ℕ) (a : Address) (hcall : act.call = some (.approveSwap i a))
      (hauth : a ∈ act.env.auths) (hpending : ∃ r, s.swap i = some r ∧ r.status = .pending)
      (hnew : a ∉ (s.docket.swapApprovals i).getD []) (h : s'.docket = s.docket.approved i a)
  | signed (i : ℕ) (a : Address) (hcall : act.call = some (.signSwapReveal i a))
      (hauth : a ∈ act.env.auths) (hstored : ∃ r, s.swap i = some r)
      (hlisted : ∃ signers, s.docket.swapSigners i = some signers ∧ a ∈ signers)
      (hnew : a ∉ (s.docket.swapSignatures i).getD []) (h : s'.docket = s.docket.signed i a)
  | withSigners (token : Address) (ipId : ℕ) (seller : Address) (price : ℤ) (buyer : Address)
      (signers : List Address)
      (hcall : act.call = some (.initiateSwapWithSigners token ipId seller price buyer signers))
      (hopens : OpensNext false s s') (h : s'.docket = s.docket.withSigners s.escrow.count signers)
  | withSchedule (token : Address) (ipId : ℕ) (seller : Address) (schedule : List PaymentSchedule)
      (buyer : Address)
      (hcall : act.call = some (.initiateSwapWithSchedule token ipId seller schedule buyer))
      (hopens : OpensNext true s s') (h : s'.docket = s.docket.withSchedule s.escrow.count schedule)
  | inEscrow (call : Call) (hcall : act.call = some call) (hescrow : call.InEscrow)
      (hopens : OpensInEscrow s s')

theorem ActStep.filing {act : Act} {s s' : State} (hact : ActStep s act s') : Filing act s s' := by
  cases hact with
  | elsewhere => exact .same (by simp) rfl
  | @call _ env call hexec =>
    by_cases hfiles : call.Files
    · cases call with
      | approveSwap i a =>
        obtain ⟨hauth, hpending, hnew, h⟩ := approveSwap_docket hexec
        exact .approved i a rfl hauth hpending hnew h
      | signSwapReveal i a =>
        obtain ⟨⟨hauth, hstored⟩, hlisted, hnew, h⟩ := signSwapReveal_docket hexec
        exact .signed i a rfl hauth hstored hlisted hnew h
      | initiateSwapWithSigners token ipId seller price buyer signers =>
        obtain ⟨id, hexec⟩ := void_ok.mp hexec
        obtain ⟨hopens, h⟩ := initiateSwapWithSigners_docket hexec
        exact .withSigners token ipId seller price buyer signers rfl hopens h
      | initiateSwapWithSchedule token ipId seller schedule buyer =>
        obtain ⟨id, hexec⟩ := void_ok.mp hexec
        obtain ⟨hopens, h⟩ := initiateSwapWithSchedule_docket hexec
        exact .withSchedule token ipId seller schedule buyer rfl hopens h
      | initiateEscrowSwap =>
        obtain ⟨id, hexec⟩ := void_ok.mp hexec
        exact .inEscrow _ rfl trivial (initiateEscrowSwap_docket hexec)
      | batchInitiateEscrow =>
        obtain ⟨ids, hexec⟩ := void_ok.mp hexec
        exact .inEscrow _ rfl trivial (batchInitiateEscrow_docket hexec)
      | _ => exact hfiles.elim
    · refine .same ?_ (exec_docket hexec hfiles)
      intro call' hcall'
      obtain rfl := Option.some.inj hcall'
      exact hfiles

end AtomicIp.AtomicSwap
