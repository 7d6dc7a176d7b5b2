import AtomicIp.Swap.Locks

/-!
Whose lock a settlement frees. The locks are keyed by the IP and the settlements by the swap, so
settling an old swap of an IP again can free the lock that a newer swap holds.
-/

set_option autoImplicit false

namespace AtomicIp.AtomicSwap

open Function

def Call.Auctions : Call → Prop
  | .startIpAuction .. | .placeBid .. | .finalizeAuction .. => True
  | _ => False

def Call.ActsOn : Call → ℕ → Prop
  | .acceptSwap j, i | .acceptSwapConditional j _, i | .acceptSwapPartial j _, i
  | .escrowDeposit j, i | .makeScheduledPayment j _, i | .submitInstallmentPayment j _, i
  | .renegotiateSwap j _, i | .acceptRenegotiation j, i | .extendSwapExpiry j _, i
  | .approveSwap j _, i | .setReputationMultiplier j _, i | .signSwapReveal j _, i
  | .revealKey j _ _ _, i | .verifyAndCompleteSwap j _ _ _, i | .raiseDispute j, i
  | .resolveDispute j _ _, i | .autoResolveDispute j, i | .requestArbitration j _ _, i
  | .autoRefundTimeout j, i | .arbitrateSwap j _ _, i | .cancelSwap j _, i
  | .cancelExpiredSwap j _, i | .cancelPendingSwap j _, i | .escrowWithdraw j, i
  | .claimInsurance j, i | .validateAndRollbackSwap j _, i | .adminRollbackSwap j _ _, i => i = j
  | .batchAcceptSwaps ids _, i | .batchEscrowDeposit ids _, i | .batchRevealKeys ids _ _ _, i
  | .batchArbitrateSwaps ids _ _, i | .batchCancelSwaps ids _ _, i
  | .batchRollbackSwaps ids _ _, i => i ∈ ids
  | _, _ => False

/-- Nobody but a swap of the list holds the lock of a settled one of them. -/
def HoldNoLock (ids : List ℕ) (c : Escrow) : Prop :=
  ∀ i ∈ ids, ∀ r, c.swap i = some r → ¬ r.status.Live →
    ∀ j, c.activeSwap r.ipId = some j → j ∈ ids

/-- The calls that settle a swap in any status, and the payment that accepts one in any status,
are made where that frees no other swap's lock and brings no settled swap back. -/
def SparesLocks (s : State) (_env : Env) : Call → Prop
  | .adminRollbackSwap i _ _ | .arbitrateSwap i _ _ => HoldNoLock [i] s.escrow
  | .batchRollbackSwaps ids _ _ => HoldNoLock ids s.escrow
  | .makeScheduledPayment i index =>
      ScheduleDone s i index → ∀ r, s.swap i = some r → r.status.Live
  | _ => True

section Moves

variable {call : Call} {m : Move} {i : ℕ}

theorem verdict_swap {refund : Bool} {w : Warrant} (j : ℕ) :
    (verdict refund w j).swap? = some j := by cases refund <;> rfl

theorem Call.yields_actsOn (h : call.yields m) (hm : m.swap? = some i) : call.ActsOn i := by
  cases call with
  | acceptSwap | acceptSwapConditional | acceptSwapPartial | escrowDeposit | renegotiateSwap
  | acceptRenegotiation | extendSwapExpiry | revealKey | raiseDispute | autoResolveDispute
  | autoRefundTimeout | cancelSwap | cancelPendingSwap | cancelExpiredSwap | escrowWithdraw
  | claimInsurance | adminRollbackSwap =>
    obtain rfl := h
    exact (Option.some.inj hm).symm
  | resolveDispute | arbitrateSwap =>
    obtain rfl := h
    exact (Option.some.inj ((verdict_swap _).symm.trans hm)).symm
  | batchAcceptSwaps | batchEscrowDeposit | batchCancelSwaps | batchRollbackSwaps =>
    obtain ⟨j, hj, rfl⟩ := h
    exact Option.some.inj hm ▸ hj
  | batchArbitrateSwaps =>
    obtain ⟨j, hj, rfl⟩ := h
    exact Option.some.inj ((verdict_swap _).symm.trans hm) ▸ hj
  | batchRevealKeys =>
    obtain ⟨j, hj, k, -, rfl⟩ := h
    exact Option.some.inj hm ▸ hj
  | makeScheduledPayment | submitInstallmentPayment =>
    obtain ⟨last, rfl⟩ := h
    exact (Option.some.inj hm).symm
  | verifyAndCompleteSwap =>
    rcases h with rfl | rfl <;> exact (Option.some.inj hm).symm
  | validateAndRollbackSwap =>
    obtain ⟨-, rfl⟩ := h
    exact (Option.some.inj hm).symm
  | initiateSwap | initiateSwapWithOraclePrice | batchInitiateSwap | batchInitiateSwapWithInsurance
  | initiateSwapWithSchedule | initiateEscrowSwap | batchInitiateEscrow | initiateSwapWithSigners =>
    obtain ⟨r, rfl, -⟩ := h
    cases hm
  | initializeContract | setAdmin | placeBid | finalizeAuction =>
    obtain rfl := h
    cases hm
  | startIpAuction =>
    obtain ⟨a, rfl, -⟩ := h
    cases hm
  | _ => exact h.elim

end Moves

section Step

variable {env : Env} {c c' : Escrow} {m : Move} {i j ip : ℕ} {r : SwapRecord} {q : SwapStatus}

/-- A move that keeps the locks right frees the lock of the swap it is about at most. -/
theorem Step.keepsLock (hstep : Step env c m c') (hm : m.KeepsLocks) (h : Locked c)
    (hj : m.swap? ≠ some j) (hlock : c.activeSwap ip = some j) : c'.activeSwap ip = some j := by
  have hclose : ∀ i r q, c.swap i = some r → i ≠ j →
      (r.status.Live ∨ c.activeSwap r.ipId = none) → (c.close i r q).activeSwap ip = some j := by
    intro i r q hr hij hfrom
    have hip : ip ≠ r.ipId := by
      intro e
      rw [e] at hlock
      rcases hfrom with hlive | hfree
      · rw [(h r.ipId i).mpr ⟨r, hr, rfl, hlive⟩] at hlock
        exact hij (Option.some.inj hlock)
      · simp [hfree] at hlock
    simpa [Escrow.close, Escrow.setActiveSwap, Escrow.setSwap, hip] using hlock
  cases hstep with
  | @initiated r hfresh hfree =>
    have hip : ip ≠ r.ipId := by
      intro e
      simp [e, hfree] at hlock
    simpa [Escrow.setActiveSwap, Escrow.enlist, Escrow.setSwap, Escrow.setNextId, hip] using hlock
  | cancelled hr hfrom =>
    exact hclose _ _ _ hr (fun e => hj (e ▸ rfl)) (.inl (by rw [hfrom]; trivial))
  | @released i r w ms hr hw =>
    have hnot : w ≠ .arbitration := by
      rintro rfl
      exact hm
    exact hclose _ _ .completed hr (fun e => hj (e ▸ rfl)) (hw.free_or_live hnot)
  | @refunded i r w ms hr hw =>
    have hnot : w ≠ .arbitration := by
      rintro rfl
      exact hm
    exact hclose _ _ .cancelled hr (fun e => hj (e ▸ rfl)) (.inl (hw.live hnot))
  | withdrawn hr hfrom =>
    exact hclose _ _ .cancelled hr (fun e => hj (e ▸ rfl)) (.inl (by rw [hfrom]; trivial))
  | adminRolledBack | sold | unsold => exact hm.elim
  | _ => exact hlock

theorem Step.scheduled_locked {last : Bool} (hstep : Step env c (.scheduled i last) c')
    (hlocked : Locked c) {r : SwapRecord} (hr₀ : c.swap i = some r) (hlive : r.status.Live) :
    Locked c' := by
  cases hstep with
  | @scheduled _ r r' amount _ hr hauth hpos hterms hprice hquantity hpaid hto =>
    obtain rfl := Option.some.inj (hr₀.symm.trans hr)
    have hlive' : r'.status.Live := by
      rw [hto]
      cases last with
      | true => trivial
      | false => exact hlive
    exact hlocked.rewrite hr hterms (iff_of_true hlive' hlive)

def Closes (ids : List ℕ) (c c' : Escrow) : Prop :=
  ∃ i ∈ ids, ∃ r q, c.swap i = some r ∧ ¬ q.Live ∧ c'.swap = (c.close i r q).swap ∧
    c'.activeSwap = (c.close i r q).activeSwap

theorem Step.closes {ids : List ℕ} (hstep : Step env c m c') (hi : i ∈ ids)
    (hm : m = .adminRolledBack i ∨ m = .released i .arbitration ∨ m = .refunded i .arbitration) :
    Closes ids c c' := by
  rcases hm with rfl | rfl | rfl
  · cases hstep with
    | adminRolledBack hr => exact ⟨i, hi, _, .cancelled, hr, id, rfl, rfl⟩
  · cases hstep with
    | released hr => exact ⟨i, hi, _, .completed, hr, id, rfl, rfl⟩
  · cases hstep with
    | refunded hr => exact ⟨i, hi, _, .cancelled, hr, id, rfl, rfl⟩

/-- The locks in the middle of a call that settles the swaps of a list: only they may be live
without holding a lock. -/
structure LockedBut (ids : List ℕ) (c : Escrow) : Prop where
  named : ∀ ip k, c.activeSwap ip = some k → LiveFor c.swap ip k
  held : ∀ ip k, LiveFor c.swap ip k →
    c.activeSwap ip = some k ∨ c.activeSwap ip = none ∧ k ∈ ids
  spared : HoldNoLock ids c

theorem Locked.but {ids : List ℕ} (h : Locked c) (hspared : HoldNoLock ids c) :
    LockedBut ids c where
  named ip k := (h ip k).mp
  held ip k hk := .inl ((h ip k).mpr hk)
  spared := hspared

def Settled (c : Escrow) (i : ℕ) : Prop := ∃ r, c.swap i = some r ∧ ¬ r.status.Live

theorem LockedBut.locked {ids : List ℕ} (h : LockedBut ids c) (hids : ∀ i ∈ ids, Settled c i) :
    Locked c := by
  intro ip k
  refine ⟨h.named ip k, ?_⟩
  intro hk
  rcases h.held ip k hk with hlock | ⟨-, hmem⟩
  · exact hlock
  · obtain ⟨r, hr, hdead⟩ := hids k hmem
    exact absurd ((LiveFor.of_stored hr).mp hk).2 hdead

theorem Closes.settled {ids : List ℕ} (h : Closes ids c c') (hi : Settled c i) : Settled c' i := by
  obtain ⟨k, hk, r, q, hr, hq, hswap, hlock⟩ := h
  obtain ⟨r₁, hr₁, hdead⟩ := hi
  by_cases hik : i = k
  · exact ⟨r.withStatus q, by simp [hswap, swap_close, hik], hq⟩
  · exact ⟨r₁, by simp [hswap, swap_close, hik, hr₁], hdead⟩

theorem Closes.one (h : Closes [i] c c') : Settled c' i := by
  obtain ⟨k, hk, r, q, hr, hq, hswap, hlock⟩ := h
  obtain rfl := List.mem_singleton.mp hk
  exact ⟨r.withStatus q, by simp [hswap, swap_close], hq⟩

theorem Closes.keepsLock {ids : List ℕ} (h : Closes ids c c') (hbut : LockedBut ids c)
    (hj : j ∉ ids) (hlock : c.activeSwap ip = some j) : c'.activeSwap ip = some j := by
  obtain ⟨i, hi, r, q, hr, hq, hswap, hactive⟩ := h
  have hip : ip ≠ r.ipId := by
    intro e
    rw [e] at hlock
    by_cases hlive : r.status.Live
    · rcases hbut.held r.ipId i ⟨r, hr, rfl, hlive⟩ with hown | ⟨hfree, -⟩
      · rw [hown] at hlock
        exact hj (Option.some.inj hlock ▸ hi)
      · simp [hfree] at hlock
    · exact hj (hbut.spared i hi r hr hlive j hlock)
  rw [hactive]
  simpa [Escrow.close, Escrow.setActiveSwap, Escrow.setSwap, hip] using hlock

theorem Closes.lockedBut {ids : List ℕ} (h : Closes ids c c') (hbut : LockedBut ids c) :
    LockedBut ids c' := by
  have hkeeps : ∀ ip j, j ∉ ids → c.activeSwap ip = some j → c'.activeSwap ip = some j :=
    fun _ _ => h.keepsLock hbut
  obtain ⟨i, hi, r, q, hr, hq, hswap, hactive⟩ := h
  have hfreed : c'.activeSwap r.ipId = none := by
    simp [hactive, Escrow.close, Escrow.setActiveSwap]
  have hother : ∀ ip, ip ≠ r.ipId → c'.activeSwap ip = c.activeSwap ip := by
    intro ip hip
    simp [hactive, Escrow.close, Escrow.setActiveSwap, Escrow.setSwap, hip]
  have hlive : ∀ ip k, LiveFor c'.swap ip k ↔ k ≠ i ∧ LiveFor c.swap ip k := by
    intro ip k
    by_cases hki : k = i
    · simp [LiveFor, hswap, swap_close, hki, hq]
    · simp [LiveFor, hswap, swap_close, hki]
  refine ⟨?_, ?_, ?_⟩
  · intro ip k hk
    have hip : ip ≠ r.ipId := by
      intro e
      simp [e, hfreed] at hk
    rw [hother ip hip] at hk
    refine (hlive ip k).mpr ⟨?_, hbut.named ip k hk⟩
    intro e
    subst e
    exact hip ((LiveFor.of_stored hr).mp (hbut.named ip k hk)).1.symm
  · intro ip k hk
    rcases hbut.held ip k ((hlive ip k).mp hk).2 with hlock | ⟨hfree, hmem⟩
    · by_cases hmem : k ∈ ids
      · by_cases hip : ip = r.ipId
        · exact .inr ⟨hip ▸ hfreed, hmem⟩
        · exact .inl (by rw [hother ip hip, hlock])
      · exact .inl (hkeeps ip k hmem hlock)
    · by_cases hip : ip = r.ipId
      · exact .inr ⟨hip ▸ hfreed, hmem⟩
      · exact .inr ⟨by rw [hother ip hip, hfree], hmem⟩
  · intro k hk rk hrk hdead j hlock
    have hip : rk.ipId ≠ r.ipId := by
      intro e
      simp [e, hfreed] at hlock
    have hki : k ≠ i := by
      intro e
      obtain rfl : r.withStatus q = rk := by simpa [e, hswap, swap_close] using hrk
      exact hip rfl
    rw [hother _ hip] at hlock
    exact hbut.spared k hk rk (by simpa [hswap, swap_close, hki] using hrk) hdead j hlock

end Step

section Calls

variable {env : Env} {s s' : State} {act : Act} {call : Call} {i : ℕ} {r : SwapRecord} {u : Unit}
  {tally : Tally} {reason : Bytes} {total : ℤ} {ids : List ℕ} {caller : Address}

theorem rollBack_swap (htally : tally.ReadOnly)
    (h : rollBack env tally i r reason s = .ok (total, s')) :
    s'.swap = (s.escrow.setSwap i (some (r.withStatus .cancelled))).swap := by
  simp [rollBack] at h
  obtain ⟨s₁, hrefund, s₂, hclose, s₃, hreason, _, hhistory⟩ := h
  obtain ⟨returned, total', ms, e₁, -⟩ := refundEscrow_escrow htally hrefund
  have e₂ := closeSwap_escrow hclose
  have e₃ := setCancelReason_escrow hreason
  have e₄ := appendHistory_escrow hhistory
  rw [State.swap_escrow, e₄, e₃, e₂, e₁]
  rfl

theorem rollBackValidated_swap (h : rollBackValidated env reason i s = .ok (u, s')) :
    ∃ r : SwapRecord,
      s'.swap = (s.escrow.setSwap i (some (r.withStatus .cancelled))).swap := by
  simp only [rollBackValidated, Tx.bind_ok, requireSwapExists_ok] at h
  obtain ⟨r, _, ⟨-, rfl⟩, total, _, hrollback, -, rfl⟩ := h
  exact ⟨r, rollBack_swap untallied_readOnly hrollback⟩

theorem forEach_rollBackValidated_settled {us : List Unit}
    (h : Tx.forEach ids (rollBackValidated env reason) s = .ok (us, s')) :
    (∀ i, Settled s.escrow i → Settled s'.escrow i) ∧ ∀ i ∈ ids, Settled s'.escrow i := by
  induction ids generalizing s us with
  | nil =>
    obtain ⟨-, rfl⟩ := Tx.forEach_nil_ok.mp h
    exact ⟨fun _ hi => hi, by simp⟩
  | cons k ids ih =>
    obtain ⟨_, s₁, _, hk, hrest, -⟩ := Tx.forEach_cons_ok.mp h
    obtain ⟨r, hswap⟩ := rollBackValidated_swap hk
    obtain ⟨hkept, hsettled⟩ := ih hrest
    have hswap₁ : ∀ i, s₁.escrow.swap i =
        if i = k then some (r.withStatus .cancelled) else s.escrow.swap i := by
      intro i
      exact (congrFun hswap i).trans (swap_setSwap _ _ _ _)
    have hhead : Settled s₁.escrow k := ⟨_, by rw [hswap₁, if_pos rfl], id⟩
    refine ⟨?_, ?_⟩
    · intro i hi
      by_cases hik : i = k
      · exact hkept i (hik ▸ hhead)
      · obtain ⟨ri, hri, hdead⟩ := hi
        exact hkept i ⟨ri, by rw [hswap₁, if_neg hik, hri], hdead⟩
    · simpa using ⟨hkept k hhead, hsettled⟩

theorem batchRollbackSwaps_settled (h : batchRollbackSwaps env ids caller reason s = .ok (u, s')) :
    ∀ i ∈ ids, Settled s'.escrow i := by
  simp [batchRollbackSwaps] at h
  obtain ⟨-, -, -, -, _, s₁, -, _, s₂, hrollback, rfl⟩ := h
  simpa using (forEach_rollBackValidated_settled hrollback).2

/-- The locks are right after the call, and those of the swaps it does not act on still stand. -/
structure LocksKept (acts : ℕ → Prop) (c c' : Escrow) : Prop where
  locked : Locked c'
  others : ∀ ip j, ¬ acts j → c.activeSwap ip = some j → c'.activeSwap ip = some j

theorem locksKept_of_closes {c c' : Escrow} {P : Move → Prop}
    (hmoves : Emits (Step env) P c c')
    (hP : ∀ m, P m → ∃ i ∈ ids, m = .adminRolledBack i ∨ m = .released i .arbitration ∨
      m = .refunded i .arbitration)
    (h : Locked c) (hspared : HoldNoLock ids c)
    (hsettled : c' = c ∨ ∀ i ∈ ids, Settled c' i) : LocksKept (· ∈ ids) c c' := by
  rcases hsettled with rfl | hsettled
  · exact ⟨h, fun _ _ _ hlock => hlock⟩
  have hbut : LockedBut ids c' := by
    refine hmoves.invariant (I := LockedBut ids) ?_ (h.but hspared)
    intro c m c' hm hc hstep
    obtain ⟨i, hi, hkind⟩ := hP m hm
    exact (hstep.closes hi hkind).lockedBut hc
  refine ⟨hbut.locked hsettled, ?_⟩
  intro ip j hj hlock
  have hboth := hmoves.invariant (I := fun c => LockedBut ids c ∧ c.activeSwap ip = some j) ?_
    ⟨h.but hspared, hlock⟩
  · exact hboth.2
  · intro c m c' hm hc hstep
    obtain ⟨i, hi, hkind⟩ := hP m hm
    have hcloses := hstep.closes hi hkind
    exact ⟨hcloses.lockedBut hc.1, hcloses.keepsLock hc.1 hj hc.2⟩

theorem locksKept_of_close {c c' : Escrow} {m : Move} (hstep : Step env c m c')
    (hm : m = .adminRolledBack i ∨ m = .released i .arbitration ∨ m = .refunded i .arbitration)
    (h : Locked c) (hspared : HoldNoLock [i] c) : LocksKept (· = i) c c' := by
  have hcloses : Closes [i] c c' := hstep.closes (by simp) hm
  have hkept : LocksKept (· ∈ [i]) c c' := locksKept_of_closes (.single hstep rfl)
    (fun _ e => ⟨i, by simp, e ▸ hm⟩) h hspared (.inr (by simpa using hcloses.one))
  exact ⟨hkept.locked, fun ip j hj => hkept.others ip j (by simpa using hj)⟩

theorem makeScheduledPayment_locks {index : ℕ}
    (h : makeScheduledPayment env i index s = .ok (u, s')) (hlocked : Locked s.escrow)
    (hlive : ScheduleDone s i index → ∀ r, s.swap i = some r → r.status.Live) :
    LocksKept (· = i) s.escrow s'.escrow := by
  obtain ⟨last, -, hstep⟩ := makeScheduledPayment_step h
  have hactive : s'.escrow.activeSwap = s.escrow.activeSwap := by
    generalize s'.escrow = c' at hstep
    cases hstep
    rfl
  by_cases hdone : ScheduleDone s i index
  · obtain ⟨r, _, _, hpays⟩ := makeScheduledPayment_pays h
    have hkept := hstep.scheduled_locked hlocked hpays.stored (hlive hdone r hpays.stored)
    exact ⟨hkept, fun _ _ _ hlock => by rw [hactive, hlock]⟩
  · have hswap := makeScheduledPayment_open h hdone
    refine ⟨?_, fun _ _ _ hlock => by rw [hactive, hlock]⟩
    intro ip k
    rw [hactive, hswap]
    exact hlocked ip k

theorem locksKept_of_keepsLocks (hact : ActStep s act s') (hcall : act.call = some call)
    (hkeeps : call.KeepsLocks) (hwf : Wf s.escrow) (h : Locked s.escrow) :
    LocksKept call.ActsOn s.escrow s'.escrow := by
  have hcalls : ∀ call', act.call = some call' → call'.KeepsLocks := by
    intro call' hcall'
    obtain rfl := Option.some.inj (hcall.symm.trans hcall')
    exact hkeeps
  refine ⟨hact.locked hcalls hwf h, ?_⟩
  intro ip j hj hlock
  obtain ⟨q, hmoves⟩ := hact.answers
  have hall := hmoves.invariant
    (I := fun c => (Wf c ∧ Locked c) ∧ c.activeSwap ip = some j) ?_ ⟨⟨hwf, h⟩, hlock⟩
  · exact hall.2
  · intro c m c' hm hc hstep
    have hyields : call.yields m := by simpa [Act.yields, hcall] using hm.1
    have hkind := hkeeps.move hyields
    have hother : m.swap? ≠ some j := fun e => hj (Call.yields_actsOn hyields e)
    exact ⟨⟨hstep.wf hc.1.1, hstep.locked hkind hc.1.1 hc.1.2⟩,
      hstep.keepsLock hkind hc.1.2 hother hc.2⟩

theorem ActStep.locksKept (hact : ActStep s act s') (hcall : act.call = some call)
    (hauctions : ¬ call.Auctions) (hcond : SparesLocks s act.env call) (hwf : Wf s.escrow)
    (h : Locked s.escrow) : LocksKept call.ActsOn s.escrow s'.escrow := by
  have hplain := fun hkeeps => locksKept_of_keepsLocks hact hcall hkeeps hwf h
  cases hact with
  | elsewhere => cases hcall
  | @call _ env call' hexec =>
    obtain rfl := Option.some.inj hcall
    cases call' with
    | adminRollbackSwap i =>
      exact locksKept_of_close (adminRollbackSwap_step hexec) (.inl rfl) h hcond
    | arbitrateSwap i a refund =>
      refine locksKept_of_close (arbitrateSwap_step hexec) ?_ h hcond
      cases refund with
      | true => exact .inr (.inr rfl)
      | false => exact .inr (.inl rfl)
    | batchRollbackSwaps ids =>
      refine locksKept_of_closes (batchRollbackSwaps_moves hexec) ?_ h hcond
        (.inr (batchRollbackSwaps_settled hexec))
      intro m hm
      obtain ⟨i, hi, rfl⟩ := hm
      exact ⟨i, hi, .inl rfl⟩
    | makeScheduledPayment i index => exact makeScheduledPayment_locks hexec h hcond
    | startIpAuction | placeBid | finalizeAuction => exact absurd trivial hauctions
    | _ => exact hplain trivial

end Calls

def SparesOthers (s s' : State) (act : Act) : Prop :=
  ∀ ip j, s.activeSwap ip = some j → (∀ call, act.call = some call → ¬ call.ActsOn j) →
    s'.activeSwap ip = some j

theorem ActStep.sparesOthers {s s' : State} {act : Act} (hact : ActStep s act s')
    (hcond : OnCalls (fun s env call => ¬ call.Auctions ∧ SparesLocks s env call) s act)
    (hwf : Wf s.escrow) (h : Locked s.escrow) : Locked s'.escrow ∧ SparesOthers s s' act := by
  cases hcall : act.call with
  | none =>
    cases hact with
    | call => cases hcall
    | elsewhere => exact ⟨h, fun _ _ hlock _ => hlock⟩
  | some call =>
    obtain ⟨hauctions, hspares⟩ := hcond call hcall
    have hkept := hact.locksKept hcall hauctions hspares hwf h
    exact ⟨hkept.locked, fun ip j hlock hj => hkept.others ip j (hj call hcall) hlock⟩

/-- In runs without auctions that settle no swap past its lock, a lock stands until a call acts
on the swap that holds it. -/
theorem locks_stand {balance : Address → Address → ℤ} {tr : List (Act × State)} {s : State}
    (hrun : Run (Restrict ActStep (OnCalls fun s env call =>
      ¬ call.Auctions ∧ SparesLocks s env call)) (State.empty balance) tr s) :
    ∀ past s₁ act s₂, (past, s₁, act, s₂) ∈ steps (State.empty balance) tr →
      SparesOthers s₁ s₂ act := by
  refine (hrun.forall_steps (I := fun _ s => Wf s.escrow ∧ Locked s.escrow)
    ⟨.empty balance, .empty balance⟩ ?_).2
  intro past s act s' hI hact
  obtain ⟨hlocked, hspares⟩ := hact.1.sparesOthers hact.2 hI.1 hI.2
  exact ⟨⟨hact.1.wf hI.1, hlocked⟩, hspares⟩

section Sales

open Scenario

def seenLock (ip : ℕ) (before after : Option ℕ) (s s' : State) : Bool :=
  s.activeSwap ip = before && s'.activeSwap ip = after

theorem lock_stands_beside_cancellation : ∃ s₁ s₂ : State,
    s₁.activeSwap 1 = some 0 ∧ s₂.activeSwap 1 = some 0 ∧
    s₁.activeSwap 2 = some 1 ∧ s₂.activeSwap 2 = none := by
  obtain ⟨tr, s₁, s₂, hrun, hexec, hseen⟩ := watched
    (OnCalls fun s env call => ¬ call.Auctions ∧ SparesLocks s env call) funds
    (offer ++ [(env [seller] 2, Call.initiateSwap token 2 seller 1000 buyer 0 none 0 false)])
    (env [seller] 3) (.cancelSwap 1 seller)
    (fun s s' => seenLock 1 (some 0) (some 0) s s' && seenLock 2 (some 1) none s s') (by decide)
    (by simp [offer, OnCalls, SparesLocks, Call.Auctions])
  simp only [seenLock, Bool.and_eq_true, decide_eq_true_eq] at hseen
  have hrun' := hrun.next (k := ⟨env [seller] 3, some (.cancelSwap 1 seller)⟩)
    ⟨.call hexec, by simp [OnCalls, SparesLocks, Call.Auctions]⟩
  refine ⟨s₁, s₂, hseen.1.1, ?_, hseen.2.1, hseen.2.2⟩
  exact locks_stand hrun' _ _ _ _ hrun.mem_steps_last 1 0 hseen.1.1 (by simp [Call.ActsOn])

/-- An offer is taken back and the IP offered again; then the admin rolls the first offer back. -/
theorem rollback_frees_newer_lock : ∃ balance tr s past s₁ act s₂,
    Run (Restrict ActStep (OnCalls fun _ _ call => ¬ call.Auctions)) (State.empty balance) tr s ∧
    (past, s₁, act, s₂) ∈ steps (State.empty balance) tr ∧ ¬ SparesOthers s₁ s₂ act := by
  obtain ⟨tr, s₁, s₂, hrun, hexec, hseen⟩ := watched
    (OnCalls fun _ _ call => ¬ call.Auctions) funds
    (offer ++ [(env [seller] 2, Call.cancelSwap 0 seller),
      (env [seller] 3, Call.initiateSwap token 1 seller 1000 buyer 0 none 0 false),
      (env [stranger] 4, Call.setAdmin stranger)])
    (env [stranger] 5) (.adminRollbackSwap 0 stranger []) (seenLock 1 (some 1) none) (by decide)
    (by simp [offer, OnCalls, Call.Auctions])
  simp only [seenLock, Bool.and_eq_true, decide_eq_true_eq] at hseen
  refine ⟨funds, _, s₂, tr, s₁, _, s₂, hrun.next (k := ⟨env [stranger] 5,
    some (.adminRollbackSwap 0 stranger [])⟩) ⟨.call hexec, by simp [OnCalls, Call.Auctions]⟩,
    hrun.mem_steps_last, ?_⟩
  intro hspares
  have hlock := hspares 1 1 hseen.1 (by simp [Call.ActsOn])
  rw [hseen.2] at hlock
  cases hlock

end Sales

end AtomicIp.AtomicSwap
