import AtomicIp.Composition
import AtomicIp.Reference.Swap
import AtomicIp.Registry.Differential

set_option autoImplicit false

namespace AtomicIp

open Function
open AtomicSwap (Escrow SwapRecord Move Warrant Key)
open Reference (SwapCall SwapStep)
open IpRegistry (Crypto)

/-- The reference knows no rolled back swaps. -/
def AtomicSwap.SwapStatus.mirrored : AtomicSwap.SwapStatus → Reference.SwapStatus
  | .pending => .pending
  | .accepted => .accepted
  | .completed => .completed
  | .disputed => .disputed
  | .cancelled | .rolledBack => .cancelled

def AtomicSwap.SwapRecord.mirrored (i : ℕ) (r : SwapRecord) : Reference.SwapRecord :=
  ⟨i, r.ipId, r.seller, r.buyer, r.price, r.status.mirrored⟩

def mirror (registry : IpRegistry.State) (c : Escrow) : Reference.AtomicSwap where
  registry := registry.mirrored
  swaps i := (c.swap i).map (SwapRecord.mirrored i)
  activeSwaps := c.activeSwap
  nextId := c.nextId.getD 0

def World.mirrored (w : World) : Reference.AtomicSwap := mirror w.registry w.swaps.escrow

/-- The calls that do something the reference cannot: batches, sales at a price that is not named,
payments in parts, new prices, disputes, rollbacks and auctioned swaps. -/
def AtomicSwap.Call.unmatched : AtomicSwap.Call → Bool
  | .initiateSwapWithOraclePrice .. | .batchInitiateSwap .. | .batchInitiateSwapWithInsurance ..
  | .initiateSwapWithSchedule .. | .batchInitiateEscrow .. | .acceptSwapPartial ..
  | .batchAcceptSwaps .. | .batchEscrowDeposit .. | .makeScheduledPayment ..
  | .submitInstallmentPayment .. | .acceptRenegotiation .. | .batchRevealKeys ..
  | .raiseDispute .. | .resolveDispute .. | .autoResolveDispute .. | .autoRefundTimeout ..
  | .arbitrateSwap .. | .batchArbitrateSwaps .. | .batchCancelSwaps ..
  | .validateAndRollbackSwap .. | .adminRollbackSwap .. | .batchRollbackSwaps ..
  | .finalizeAuction .. => true
  | _ => false

def World.Act.unmatched : World.Act → Bool
  | .swaps act => act.call.any AtomicSwap.Call.unmatched
  | .registry act => act.call.unmatched

/-- What the reference is called with in place of the call. A refused key cancels, and so do an
expired acceptance and a withdrawn deposit. -/
def matchedCall (sha256 : Bytes → BytesN 32) (a : Reference.AtomicSwap) :
    AtomicSwap.Call → List SwapCall
  | .initiateSwap _ ipId seller price buyer _ _ _ _
  | .initiateEscrowSwap _ ipId seller price buyer _
  | .initiateSwapWithSigners _ ipId seller price buyer _ =>
      [.initiateSwap ipId seller price buyer]
  | .acceptSwap i | .acceptSwapConditional i _ | .escrowDeposit i => [.acceptSwap i]
  | .revealKey i caller secret blindingFactor => [.revealKey i caller secret blindingFactor]
  | .verifyAndCompleteSwap i caller secret blindingFactor =>
      (a.swaps i).toList.map fun swap =>
        match a.registry.verifyCommitment sha256 swap.ipId secret blindingFactor with
        | .ok true => .revealKey i caller secret blindingFactor
        | _ => .cancelSwap i caller
  | .cancelSwap i caller | .cancelPendingSwap i caller => [.cancelSwap i caller]
  | .cancelExpiredSwap i _ => (a.swaps i).toList.map fun swap => .cancelSwap i swap.seller
  | .escrowWithdraw i => (a.swaps i).toList.map fun swap => .cancelSwap i swap.buyer
  | _ => []

def World.matched (crypto : Crypto) (w : World) : World.Act → List SwapCall
  | .swaps act => act.call.toList.flatMap (matchedCall crypto.sha256 w.mirrored)
  | .registry act => (act.matched w.registry).map .registry

section Mirror

variable {registry : IpRegistry.State} {c c' : Escrow} {i : ℕ} {r r' : SwapRecord}

@[simp] theorem mirror_swaps :
    (mirror registry c).swaps i = (c.swap i).map (SwapRecord.mirrored i) := rfl

theorem mirrored_update (i : ℕ) (r : SwapRecord) (swap : ℕ → Option SwapRecord) :
    (fun j => (update swap i (some r) j).map (SwapRecord.mirrored j)) =
      update (fun j => (swap j).map (SwapRecord.mirrored j)) i (some (r.mirrored i)) := by
  funext j
  by_cases hj : j = i
  · subst hj
    simp
  · simp [hj]

theorem mirror_setSwap
    (hsame : r'.mirrored i = { r.mirrored i with status := r'.status.mirrored }) :
    mirror registry (c.setSwap i (some r')) =
      (mirror registry c).setStatus i (r.mirrored i) r'.status.mirrored := by
  have hswaps := mirrored_update i r' c.swap
  rw [hsame] at hswaps
  simp only [mirror, Escrow.setSwap, Reference.AtomicSwap.setStatus, hswaps]

theorem mirror_amend (hr : c.swap i = some r) (hsame : r'.mirrored i = r.mirrored i) :
    mirror registry (c.setSwap i (some r')) = mirror registry c := by
  have hkept : update (fun j => (c.swap j).map (SwapRecord.mirrored j)) i
      (some (r.mirrored i)) = fun j => (c.swap j).map (SwapRecord.mirrored j) :=
    update_eq_self_iff.mpr (by rw [hr]; rfl)
  have hswaps := mirrored_update i r' c.swap
  rw [hsame, hkept] at hswaps
  simp only [mirror, Escrow.setSwap, hswaps]

theorem mirror_close (status : AtomicSwap.SwapStatus) :
    mirror registry (c.close i r status) =
      ((mirror registry c).setStatus i (r.mirrored i) status.mirrored).unlock r.ipId := by
  have hset : mirror registry (c.setSwap i (some (r.withStatus status))) = _ :=
    mirror_setSwap (r := r) rfl
  exact congrArg (Reference.AtomicSwap.unlock · r.ipId) hset

theorem mirror_enlist (hpending : r.status = .pending) :
    mirror registry ((c.enlist r).setActiveSwap r.ipId (some c.count)) =
      (mirror registry c).enlist
        ⟨(mirror registry c).nextId, r.ipId, r.seller, r.buyer, r.price, .pending⟩ := by
  have hnew : r.mirrored c.count = ⟨c.count, r.ipId, r.seller, r.buyer, r.price, .pending⟩ := by
    simp [SwapRecord.mirrored, hpending, AtomicSwap.SwapStatus.mirrored]
  have hswaps := mirrored_update c.count r c.swap
  rw [hnew] at hswaps
  simp only [mirror, Escrow.enlist, Escrow.setActiveSwap, Escrow.setNextId, Escrow.setSwap, hswaps]
  rfl

end Mirror

section Calls

variable {crypto : Crypto} {registryAddr : Address} {registry : IpRegistry.State}
  {s s' : AtomicSwap.State} {env : AtomicSwap.Env} {i : ℕ} {r r' : SwapRecord} {c c' : Escrow}

theorem accept_matched (r' : SwapRecord) (hr : c.swap i = some r) (hfrom : r.status = .pending)
    (hto : r'.status = .accepted)
    (hsame : r'.mirrored i = { r.mirrored i with status := r'.status.mirrored })
    (hc : mirror registry c' = mirror registry (c.setSwap i (some r'))) :
    SwapStep crypto.sha256 (mirror registry c) (.acceptSwap i) (mirror registry c') := by
  refine Reference.acceptSwap_returns.mpr ⟨r.mirrored i, ?_, ?_, ?_⟩
  · rw [mirror_swaps, hr, Option.map_some]
  · simp [SwapRecord.mirrored, hfrom, AtomicSwap.SwapStatus.mirrored]
  · rw [hc, mirror_setSwap hsame, hto]
    rfl

theorem cancel_matched (crypto : Crypto) {caller : Address} (hr : c.swap i = some r)
    (hfrom : r.status = .pending ∨ r.status = .accepted)
    (hparty : caller = r.seller ∨ caller = r.buyer)
    (hc : mirror registry c' = mirror registry (c.close i r .cancelled)) :
    SwapStep crypto.sha256 (mirror registry c) (.cancelSwap i caller) (mirror registry c') := by
  refine Reference.cancelSwap_returns.mpr ⟨r.mirrored i, ?_, hparty, ?_, ?_⟩
  · rw [mirror_swaps, hr, Option.map_some]
  · rcases hfrom with hst | hst <;>
      simp [SwapRecord.mirrored, hst, AtomicSwap.SwapStatus.mirrored, Reference.SwapStatus.Open]
  · rw [hc, mirror_close]
    rfl

theorem reveal_matched {caller : Address} {secret blindingFactor : BytesN 32}
    (hlocked : (mirror registry c).Locked) (hr : c.swap i = some r) (hfrom : r.status = .accepted)
    (hcaller : caller = r.seller)
    (hkey : registry.mirrored.verifyCommitment crypto.sha256 r.ipId secret blindingFactor =
      .ok true)
    (hc : mirror registry c' = mirror registry (c.close i r .completed)) :
    SwapStep crypto.sha256 (mirror registry c) (.revealKey i caller secret blindingFactor)
      (mirror registry c') := by
  have hfound : (mirror registry c).swaps i = some (r.mirrored i) := by
    rw [mirror_swaps, hr, Option.map_some]
  have haccepted : (r.mirrored i).status = .accepted := by
    simp [SwapRecord.mirrored, hfrom, AtomicSwap.SwapStatus.mirrored]
  refine Reference.revealKey_returns.mpr ⟨r.mirrored i, hfound, haccepted, hcaller, hkey,
    hlocked.deletes hfound haccepted, ?_⟩
  rw [hc, mirror_close]
  rfl

theorem initiate_matched (hpending : r.status = .pending) (hprice : 0 < r.price)
    (hheld : registry.HeldBy r.ipId r.seller) (hfree : c.activeSwap r.ipId = none)
    (hc : c' = (c.enlist r).setActiveSwap r.ipId (some c.count)) :
    SwapStep crypto.sha256 (mirror registry c)
      (.initiateSwap r.ipId r.seller r.price r.buyer) (mirror registry c') := by
  obtain ⟨record, hrecord, howner, hlive⟩ := hheld
  refine Reference.initiateSwap_returns.mpr
    ⟨hprice, ⟨record.mirrored, ?_, howner, hlive⟩, hfree, ?_⟩
  · exact congrArg (Option.map IpRegistry.IpRecord.mirrored) hrecord
  · rw [hc, mirror_enlist hpending]

/-- The moves of which the reference sees nothing. -/
def AtomicSwap.Move.Silent : Move → Prop
  | .configured | .received | .offered _ | .claimed _ | .auctionStarted _ | .bid _ _ => True
  | _ => False

theorem silent_matched {m : Move} (hstep : AtomicSwap.Step env c m c') (hm : m.Silent) :
    mirror registry c' = mirror registry c := by
  cases hstep <;> first | exact hm.elim | rfl

theorem silent_call_matched {call : AtomicSwap.Call}
    (h : AtomicSwap.exec env call s = .ok ((), s')) (hsilent : ∀ m, call.yields m → m.Silent) :
    mirror registry s'.escrow = mirror registry s.escrow := by
  obtain ⟨q, hmoves⟩ := AtomicSwap.exec_answers h
  refine hmoves.invariant (I := fun c => mirror registry c = mirror registry s.escrow) ?_ rfl
  intro c m c' hm hsame hstep
  exact (silent_matched hstep (hsilent m hm.1)).trans hsame

theorem revealKey_caller {caller : Address} {secret blindingFactor : BytesN 32} {u : Unit}
    (h : AtomicSwap.revealKey env i caller secret blindingFactor s = .ok (u, s'))
    (hr : s.escrow.swap i = some r) : caller = r.seller := by
  simp only [AtomicSwap.revealKey, Tx.bind_ok, AtomicSwap.requireSwapExists_ok,
    AtomicSwap.requireSeller_ok] at h
  obtain ⟨r', _, ⟨hr', rfl⟩, _, _, ⟨hcaller, rfl⟩, -⟩ := h
  obtain rfl := Option.some.inj (hr.symm.trans hr')
  exact hcaller

theorem released_closes {w : Warrant} (h : AtomicSwap.Step env c (.released i w) c') :
    ∃ r, c.swap i = some r ∧ AtomicSwap.Releases env c i r w ∧
      mirror registry c' = mirror registry (c.close i r .completed) := by
  cases h with
  | released hr hw => exact ⟨_, hr, hw, rfl⟩

theorem refunded_closes {w : Warrant} (h : AtomicSwap.Step env c (.refunded i w) c') :
    ∃ r, c.swap i = some r ∧ AtomicSwap.Refunds env c r w ∧
      mirror registry c' = mirror registry (c.close i r .cancelled) := by
  cases h with
  | refunded hr hw => exact ⟨_, hr, hw, rfl⟩

theorem cancelled_closes (h : AtomicSwap.Step env c (.cancelled i) c') :
    ∃ r, c.swap i = some r ∧ r.status = .pending ∧
      mirror registry c' = mirror registry (c.close i r .cancelled) := by
  cases h with
  | cancelled hr hfrom => exact ⟨_, hr, hfrom, rfl⟩

theorem cancelSwap_caller {caller : Address} {u : Unit}
    (h : AtomicSwap.cancelSwap env i caller s = .ok (u, s')) (hr : s.escrow.swap i = some r) :
    caller = r.seller ∨ caller = r.buyer := by
  simp only [AtomicSwap.cancelSwap, Tx.bind_ok, AtomicSwap.requireSwapExists_ok,
    AtomicSwap.requireSellerOrBuyer_ok] at h
  obtain ⟨r', _, ⟨hr', rfl⟩, _, _, ⟨hcaller, rfl⟩, -⟩ := h
  obtain rfl := Option.some.inj (hr.symm.trans hr')
  exact hcaller

theorem cancelPendingSwap_caller {caller : Address} {u : Unit}
    (h : AtomicSwap.cancelPendingSwap env i caller s = .ok (u, s'))
    (hr : s.escrow.swap i = some r) : caller = r.buyer := by
  simp only [AtomicSwap.cancelPendingSwap, Tx.bind_ok, AtomicSwap.requireSwapExists_ok,
    AtomicSwap.requireBuyer_ok] at h
  obtain ⟨r', _, ⟨hr', rfl⟩, _, _, ⟨hcaller, rfl⟩, -⟩ := h
  obtain rfl := Option.some.inj (hr.symm.trans hr')
  exact hcaller

/-- Every call the reference has a match for is matched, when the registry answers the contract as
it answers the reference. -/
theorem call_matched {call : AtomicSwap.Call} (h : AtomicSwap.exec env call s = .ok ((), s'))
    (hcall : call.unmatched = false)
    (hheld : ∀ ipId seller, AtomicSwap.OwnsActiveIp env s ipId seller →
      registry.HeldBy ipId seller)
    (hkeys : ∀ ipId secret blindingFactor valid,
      AtomicSwap.KeyCheck env s.ipRegistry ipId secret blindingFactor valid →
      registry.mirrored.verifyCommitment crypto.sha256 ipId secret blindingFactor = .ok valid)
    (hlocked : (mirror registry s.escrow).Locked) :
    Path (SwapStep crypto.sha256) (mirror registry s.escrow)
      (matchedCall crypto.sha256 (mirror registry s.escrow) call) (mirror registry s'.escrow) := by
  have hfound : ∀ i r, s.escrow.swap i = some r →
      (mirror registry s.escrow).swaps i = some (r.mirrored i) := by
    intro i r hr
    rw [mirror_swaps, hr, Option.map_some]
  cases call with
  | initiateSwap =>
    obtain ⟨id, h⟩ := Tx.void_ok.mp h
    obtain ⟨-, hprice, howns, hfree, rfl, premium, r, s₁, s₂, s₃, -, rfl, hinsure, hopen, hindex,
      hannounce⟩ := AtomicSwap.initiateSwap_opening h
    have e := AtomicSwap.opening_escrow (AtomicSwap.storeInsurance_escrow hinsure) hopen
      (AtomicSwap.appendIpSwap_escrow hindex) hannounce
    exact .single (initiate_matched rfl hprice (hheld _ _ howns) hfree e)
  | initiateEscrowSwap =>
    obtain ⟨id, h⟩ := Tx.void_ok.mp h
    obtain ⟨-, hprice, howns, hfree, rfl, r, s₁, rfl, hopen, hannounce⟩ :=
      AtomicSwap.initiateEscrowSwap_opening h
    have e := AtomicSwap.opening_escrow rfl hopen (by rfl) hannounce
    exact .single (initiate_matched rfl hprice (hheld _ _ howns) hfree e)
  | initiateSwapWithSigners =>
    obtain ⟨id, h⟩ := Tx.void_ok.mp h
    obtain ⟨-, hprice, howns, hfree, rfl, r, s₁, s₂, rfl, hopen, hindex, hannounce⟩ :=
      AtomicSwap.initiateSwapWithSigners_opening h
    have e₂ := AtomicSwap.appendIpSwap_escrow hindex
    have e := AtomicSwap.opening_escrow rfl hopen e₂ hannounce
    exact .single (initiate_matched rfl hprice (hheld _ _ howns) hfree e)
  | acceptSwap i =>
    obtain ⟨r, deposits, premium, hr, hfrom, -, -, -, -, -, e⟩ := AtomicSwap.acceptSwap_escrow h
    rw [e]
    exact .single (accept_matched (r.acceptedAt env.timestamp) hr hfrom rfl rfl rfl)
  | acceptSwapConditional i conditions =>
    obtain ⟨r, hr, hfrom, -, -, -, -, e⟩ := AtomicSwap.acceptSwapConditional_escrow h
    rw [e]
    exact .single (accept_matched (SwapRecord.acceptedAt { r with conditions } env.timestamp) hr
      hfrom rfl rfl rfl)
  | escrowDeposit i =>
    obtain ⟨r, hr, -, hdeposit⟩ := AtomicSwap.escrowDeposit_ok.mp h
    obtain ⟨hfrom, -, e⟩ := AtomicSwap.depositEscrow_escrow hdeposit
    rw [e]
    exact .single (accept_matched (r.acceptedAt env.timestamp) hr hfrom rfl rfl rfl)
  | revealKey i caller secret blindingFactor =>
    obtain ⟨r, hr, hw, hc⟩ := released_closes (AtomicSwap.revealKey_step h)
    obtain ⟨hfrom, -, hkey⟩ := hw
    exact .single (reveal_matched hlocked hr hfrom (revealKey_caller h hr) (hkeys _ _ _ _ hkey) hc)
  | verifyAndCompleteSwap i caller secret blindingFactor =>
    change AtomicSwap.verifyAndCompleteSwap env i caller secret blindingFactor s = _ at h
    simp [AtomicSwap.verifyAndCompleteSwap] at h
    obtain ⟨r, hr, rfl, hauth, hfrom, ⟨hkey, h⟩ | ⟨hkey, h⟩⟩ := h
    · have hrefused := hkeys _ _ _ _ hkey
      obtain ⟨r', hr', -, hc⟩ := refunded_closes (AtomicSwap.refundInvalidKey_step hr hfrom hauth h)
      obtain rfl := Option.some.inj (hr.symm.trans hr')
      have hword : matchedCall crypto.sha256 (mirror registry s.escrow)
          (.verifyAndCompleteSwap i r.seller secret blindingFactor) = [.cancelSwap i r.seller] := by
        simp only [matchedCall, hfound i r hr, Option.toList_some, List.map_cons, List.map_nil]
        rw [show (mirror registry s.escrow).registry.verifyCommitment crypto.sha256
          (r.mirrored i).ipId secret blindingFactor = .ok false from hrefused]
      rw [hword]
      exact .single (cancel_matched crypto hr (.inr hfrom) (.inl rfl) hc)
    · have haccepted := hkeys _ _ _ _ hkey
      obtain ⟨r', hr', -, hc⟩ := released_closes (AtomicSwap.completeVerified_step
        (k := ⟨secret, blindingFactor⟩) hr hfrom hauth hkey h)
      obtain rfl := Option.some.inj (hr.symm.trans hr')
      have hword : matchedCall crypto.sha256 (mirror registry s.escrow)
          (.verifyAndCompleteSwap i r.seller secret blindingFactor) =
            [.revealKey i r.seller secret blindingFactor] := by
        simp only [matchedCall, hfound i r hr, Option.toList_some, List.map_cons, List.map_nil]
        rw [show (mirror registry s.escrow).registry.verifyCommitment crypto.sha256
          (r.mirrored i).ipId secret blindingFactor = .ok true from haccepted]
      rw [hword]
      exact .single (reveal_matched hlocked hr hfrom rfl haccepted hc)
  | cancelSwap i caller =>
    obtain ⟨r, hr, hfrom, hc⟩ := cancelled_closes (AtomicSwap.cancelSwap_step h)
    exact .single (cancel_matched crypto hr (.inl hfrom) (cancelSwap_caller h hr) hc)
  | cancelPendingSwap i caller =>
    obtain ⟨r, hr, hfrom, hc⟩ := cancelled_closes (AtomicSwap.cancelPendingSwap_step h)
    exact .single (cancel_matched crypto hr (.inl hfrom) (.inr (cancelPendingSwap_caller h hr)) hc)
  | cancelExpiredSwap i caller =>
    obtain ⟨r, hr, hw, hc⟩ := refunded_closes (AtomicSwap.cancelExpiredSwap_step h)
    rw [matchedCall, hfound i r hr]
    exact .single (cancel_matched crypto hr (.inr hw.1) (.inl rfl) hc)
  | escrowWithdraw i =>
    obtain ⟨r, hr, -, -, hfrom, -, e⟩ := AtomicSwap.escrowWithdraw_escrow h
    rw [matchedCall, hfound i r hr, e]
    exact .single (cancel_matched crypto hr (.inr hfrom) (.inr rfl) rfl)
  | extendSwapExpiry i newExpiry =>
    obtain ⟨r, hr, -, -, -, e⟩ := AtomicSwap.extendSwapExpiry_escrow h
    have hkept : mirror registry (s.escrow.setSwap i (some { r with expiry := newExpiry })) = _ :=
      mirror_amend hr rfl
    rw [e, hkept]
    exact .nil
  | initiateSwapWithOraclePrice | batchInitiateSwap | batchInitiateSwapWithInsurance
  | initiateSwapWithSchedule | batchInitiateEscrow | acceptSwapPartial | batchAcceptSwaps
  | batchEscrowDeposit | makeScheduledPayment | submitInstallmentPayment | acceptRenegotiation
  | batchRevealKeys | raiseDispute | resolveDispute | autoResolveDispute | autoRefundTimeout
  | arbitrateSwap | batchArbitrateSwaps | batchCancelSwaps | validateAndRollbackSwap
  | adminRollbackSwap | batchRollbackSwaps | finalizeAuction => cases hcall
  | initializeContract | setAdmin | renegotiateSwap | claimInsurance | placeBid =>
    rw [silent_call_matched h (by rintro m rfl; trivial)]
    exact .nil
  | startIpAuction =>
    rw [silent_call_matched h (by rintro m ⟨a, rfl, -⟩; trivial)]
    exact .nil
  | _ =>
    rw [silent_call_matched h fun m hm => hm.elim]
    exact .nil

end Calls

section Worlds

variable {crypto : Crypto} {registryAddr : Address} {w w' : World} {act : World.Act}
  {registry registry' : Reference.IpRegistry} {tr : List (World.Act × World)}

theorem keyCheck_matched {o : Option Address} {act : AtomicSwap.Act} {s : IpRegistry.State}
    {ipId : ℕ} {secret blindingFactor : BytesN 32} {valid : Bool}
    (hnamed : ∀ a, o = some a → a = registryAddr)
    (h : AtomicSwap.KeyCheck (facing crypto registryAddr s act).env o ipId secret blindingFactor
      valid) :
    s.mirrored.verifyCommitment crypto.sha256 ipId secret blindingFactor = .ok valid := by
  obtain ⟨a, ha, hkey⟩ := h
  obtain rfl := hnamed a ha
  rw [facing_registry] at hkey
  have hanswer := (IpRegistry.verifyCommitment_matches ⟨crypto, 0, [], 0⟩).symm.trans hkey
  cases hreference : s.mirrored.verifyCommitment crypto.sha256 ipId secret blindingFactor with
  | error e => simp [hreference, Except.toOption] at hanswer
  | ok valid' => simpa [hreference, Except.toOption] using hanswer

theorem registry_path {sha256 : Bytes → BytesN 32} {calls : List Reference.RegistryCall}
    (a : Reference.AtomicSwap) (h : Path Reference.RegistryStep registry calls registry') :
    Path (SwapStep sha256) { a with registry := registry } (calls.map .registry)
      { a with registry := registry' } := by
  induction h with
  | nil => exact .nil
  | cons hstep _ ih =>
    refine .cons ?_ ih
    rw [SwapStep, SwapCall.perform, show _ = _ from hstep]

theorem World.Step.matched (hstep : World.Step crypto registryAddr w act w')
    (hact : act.unmatched = false) (hnamed : ∀ a, w.swaps.ipRegistry = some a → a = registryAddr)
    (hlocked : w.mirrored.Locked) :
    Path (SwapStep crypto.sha256) w.mirrored (w.matched crypto act) w'.mirrored := by
  cases hstep with
  | @registry act s' hexec =>
    exact registry_path w.mirrored (IpRegistry.ActStep.matched hexec hact)
  | @swaps act s' hexec =>
    obtain ⟨env, call⟩ := act
    have hheld : ∀ ipId seller, AtomicSwap.OwnsActiveIp
        (facing crypto registryAddr w.registry ⟨env, call⟩).env w.swaps ipId seller →
        w.registry.HeldBy ipId seller := fun _ _ => OwnsActiveIp.heldBy hnamed
    have hkeys : ∀ ipId secret blindingFactor valid, AtomicSwap.KeyCheck
        (facing crypto registryAddr w.registry ⟨env, call⟩).env w.swaps.ipRegistry ipId secret
        blindingFactor valid → w.registry.mirrored.verifyCommitment crypto.sha256 ipId secret
        blindingFactor = .ok valid := fun _ _ _ _ => keyCheck_matched hnamed
    generalize hfacing : facing crypto registryAddr w.registry ⟨env, call⟩ = facingAct at *
    obtain rfl : facingAct.call = call := hfacing ▸ rfl
    cases hexec with
    | elsewhere balance => exact .nil
    | call h =>
      have hword := call_matched h hact hheld hkeys hlocked
      simpa [World.matched, World.mirrored] using hword

theorem World.Step.named (hstep : World.Step crypto registryAddr w act w')
    (hnamed : ∀ a, w.swaps.ipRegistry = some a → a = registryAddr) :
    ∀ a, w'.swaps.ipRegistry = some a → a = registryAddr := by
  intro a ha
  cases hstep with
  | registry => exact hnamed a ha
  | swaps hexec hcalled =>
    rcases hexec.ipRegistry with hsame | ⟨a', hcall, ha'⟩
    · exact hnamed a (hsame.symm.trans ha)
    · obtain rfl := Option.some.inj (ha.symm.trans ha')
      exact hcalled a hcall

/-- However the calls of both contracts are interleaved, the reference follows, and shows the same
records, swaps and locks. -/
theorem contracts_mirror_reference {balance : Address → Address → ℤ}
    (hrun : Run (Restrict (World.Step crypto registryAddr) fun _ act => act.unmatched = false)
      (World.empty balance) tr w) :
    ∃ a, Path (SwapStep crypto.sha256) .empty
        (words (fun w act => w.matched crypto act) (World.empty balance) tr) a ∧
      (∀ i, (IpRegistry.getIp i w.registry).toOption.map (·.1.mirrored) =
        (a.registry.getIp i).toOption) ∧
      (∀ i, (w.swaps.swap i).map (SwapRecord.mirrored i) = (a.getSwap i).toOption) ∧
      (∀ ipId, w.swaps.activeSwap ipId = a.activeSwaps ipId) ∧ a.Locked := by
  obtain ⟨a, hpath, rfl, hlocked⟩ := hrun.refines_of
    (I := fun w => ∀ a, w.swaps.ipRegistry = some a → a = registryAddr)
    (R := fun w a => a = w.mirrored ∧ a.Locked) (fun a ha => by cases ha)
    (fun w act w' hnamed hstep => hstep.1.named hnamed)
    (fun w act w' a hnamed hrel hstep => by
      obtain ⟨rfl, hlocked⟩ := hrel
      have hword := hstep.1.matched hstep.2 hnamed hlocked
      exact ⟨_, hword, rfl, hword.invariant (P := fun _ => True)
        (fun _ _ _ _ hl hs => hs.locked hl) (fun _ _ => trivial) hlocked⟩)
    ⟨show Reference.AtomicSwap.empty = _ from rfl, .empty⟩
  refine ⟨w.mirrored, hpath, fun i => IpRegistry.getIp_matches, fun i => ?_, fun _ => rfl, hlocked⟩
  rw [Reference.AtomicSwap.getSwap, World.mirrored, mirror_swaps]
  cases hr : w.swaps.escrow.swap i <;> simp [hr, Except.toOption]

end Worlds

section Sales

open AtomicSwap.Scenario (funds registry)
open IpRegistry.Scenario (crypto)

/-- The sale of the design, from the commitment to the reveal, on both sides. -/
theorem paid_sale_mirrored : ∃ (tr : List (World.Act × World)) (w : World)
    (a : Reference.AtomicSwap), tr.map Prod.fst = (paidSale ++ [reveal]).reverse ∧
      Path (SwapStep crypto.sha256) .empty
        (words (fun w act => w.matched crypto act) (World.empty funds) tr) a ∧
      (w.swaps.swap 0).map AtomicSwap.SwapRecord.status = some .completed ∧
      (a.getSwap 0).toOption.map Reference.SwapRecord.status = some .completed := by
  have hplayed : endsIn turn (paidSale ++ [reveal]) (World.empty funds) isRevealed = true := by
    decide +kernel
  have hmatched : ∀ w act w', act ∈ paidSale ++ [reveal] → turn act w = .ok ((), w') →
      Restrict (World.Step crypto registry) (fun _ act => act.unmatched = false) w act w' := by
    intro w act w' hmem h
    refine ⟨(sale_spared h hmem).1, ?_⟩
    simp only [paidSale, registeredOffer, List.cons_append, List.nil_append, List.mem_cons,
      List.not_mem_nil, or_false] at hmem
    rcases hmem with rfl | rfl | rfl | rfl | rfl <;> rfl
  obtain ⟨tr, w, hrun, hcalls, hrevealed⟩ := endsIn_run hplayed hmatched
  obtain ⟨a, hpath, -, hswap, -⟩ := contracts_mirror_reference hrun
  have hcompleted : (w.swaps.swap 0).map AtomicSwap.SwapRecord.status = some .completed :=
    of_decide_eq_true hrevealed
  refine ⟨tr, w, a, hcalls, hpath, hcompleted, ?_⟩
  rw [← hswap 0]
  obtain ⟨r, hr, hst⟩ := Option.map_eq_some_iff.mp hcompleted
  simp only [hr, Option.map_some, SwapRecord.mirrored, hst]
  rfl

end Sales

end AtomicIp
