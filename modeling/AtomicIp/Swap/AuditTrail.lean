import AtomicIp.Swap.Openings
import AtomicIp.Swap.Transitions

/-!
The history of a swap against the statuses it goes through. Each operation appends its own
entry; the dispute operations, `verify_and_complete_swap` and `arbitrate_swap` append none.
-/

set_option autoImplicit false

namespace AtomicIp.AtomicSwap

open Function Tx

def State.statusOf (s : State) (i : ℕ) : Option SwapStatus := (s.swap i).map (·.status)

def State.history (s : State) (i : ℕ) : List SwapHistoryEntry := (s.swapHistory i).getD []

/-- The statuses the swap has gone through so far, each as often as it came to it. -/
def passed (i : ℕ) : List (Act × State) → List SwapStatus
  | [] => []
  | (_, s) :: past =>
    match s.statusOf i with
    | none => passed i past
    | some q =>
      if (passed i past).getLast? = some q then passed i past else passed i past ++ [q]

/-- The ledger time never went back, newest step first. -/
def InTime (past : List (Act × State)) : Prop :=
  (past.map fun p => p.1.env.timestamp).Pairwise (· ≥ ·)

structure AuditTrail (past : List (Act × State)) (s : State) (i : ℕ) (r : SwapRecord) : Prop where
  stored : ∃ entries, s.swapHistory i = some entries ∧ entries ≠ []
  last : (s.history i).getLast?.map (·.status) = some r.status
  statuses : (s.history i).map (·.status) = passed i past
  ordered : InTime past → ((s.history i).map (·.timestamp)).Pairwise (· ≤ ·)

/-- The history has one more entry for the status the swap now has, or both are as before. -/
def RecordedAs (env : Env) (q : SwapStatus) (s s' : State) (i : ℕ) : Prop :=
  s'.swapHistory i = s.swapHistory i ∧ s'.statusOf i = s.statusOf i ∨
    s'.statusOf i = some q ∧ s.statusOf i ≠ some q ∧
      s'.swapHistory i = some (s.history i ++ [⟨q, env.timestamp⟩])

/-- The swap comes to the status and its history gets the entry. -/
structure Enters (env : Env) (q : SwapStatus) (i : ℕ) (s s' : State) : Prop where
  status : s'.statusOf i = some q
  others : ∀ j, j ≠ i → s'.statusOf j = s.statusOf j
  history : s'.swapHistory = logged env i q s.swapHistory

section Recording

variable {env : Env} {q : SwapStatus} {s s' s'' : State} {i j : ℕ} {m : Move}

theorem RecordedAs.refl (s : State) (i : ℕ) : RecordedAs env q s s i := .inl ⟨rfl, rfl⟩

theorem RecordedAs.trans (h : RecordedAs env q s s' i) (h' : RecordedAs env q s' s'' i) :
    RecordedAs env q s s'' i := by
  rcases h with ⟨hhistory, hstatus⟩ | ⟨hstatus, hnew, hhistory⟩
  · rcases h' with ⟨hhistory', hstatus'⟩ | ⟨hstatus', hnew', hhistory'⟩
    · exact .inl ⟨hhistory'.trans hhistory, hstatus'.trans hstatus⟩
    · refine .inr ⟨hstatus', hstatus ▸ hnew', ?_⟩
      rw [hhistory', State.history, hhistory]
      rfl
  · rcases h' with ⟨hhistory', hstatus'⟩ | ⟨-, hnew', -⟩
    · exact .inr ⟨hstatus'.trans hstatus, hnew, hhistory'.trans hhistory⟩
    · exact absurd hstatus hnew'

theorem Enters.recorded (h : Enters env q i s s') (hnew : s.statusOf i ≠ some q) (j : ℕ) :
    RecordedAs env q s s' j := by
  by_cases hj : j = i
  · subst hj
    refine .inr ⟨h.status, hnew, ?_⟩
    rw [h.history]
    exact update_self ..
  · refine .inl ⟨?_, h.others j hj⟩
    rw [h.history]
    exact update_of_ne hj ..

theorem statusOf_after (hstep : Step env s.escrow m s'.escrow) (hm : m.swap? = some i)
    (hq : m.aims = some q) (j : ℕ) :
    s'.statusOf j = if j = i then some q else s.statusOf j := by
  change (s'.escrow.swap j).map _ = _
  cases hstep.rewrites with
  | same _ haims | added _ haims => simp [haims] at hq
  | moved k r r' hk _ hswap hmoved =>
    obtain rfl := Option.some.inj (hk.symm.trans hm)
    by_cases hj : j = k
    · simp [hswap, hj, hmoved.status, hq]
    · simp only [hswap, hj, if_false]
      rfl

theorem Enters.of_step (hstep : Step env s.escrow m s'.escrow) (hm : m.swap? = some i)
    (hq : m.aims = some q) (hhistory : s'.swapHistory = logged env i q s.swapHistory) :
    Enters env q i s s' where
  status := by simp [statusOf_after hstep hm hq]
  others j hj := by simp [statusOf_after hstep hm hq, hj]
  history := hhistory

theorem statusOf_of_step (hstep : Step env s.escrow m s'.escrow) (haims : m.aims = none)
    (hadds : ∀ r, ¬ Adds m s.escrow r) (j : ℕ) : s'.statusOf j = s.statusOf j := by
  change (s'.escrow.swap j).map _ = (s.escrow.swap j).map _
  cases hstep.rewrites with
  | same hswap => rw [hswap]
  | added r _ h => exact absurd h (hadds r)
  | moved k r r' _ hr hswap hmoved =>
    by_cases hj : j = k
    · simp [hswap, hj, hr, hmoved.status, haims]
    · simp [hswap, hj]

section Loops

variable {α β : Type} {I : State → Prop} {items : List α} {body : α → SwapTx β}
  {bs : List β}

theorem forEach_recorded (key : α → ℕ)
    (hbody : ∀ a ∈ items, ∀ s b s', I s → body a s = .ok (b, s') →
      I s' ∧ Enters env q (key a) s s')
    (hnodup : (items.map key).Nodup) (hI : I s) (hnew : ∀ a ∈ items, s.statusOf (key a) ≠ some q)
    (h : Tx.forEach items body s = .ok (bs, s')) (j : ℕ) : RecordedAs env q s s' j := by
  induction items generalizing s bs with
  | nil =>
    rw [(Tx.forEach_nil_ok.mp h).2]
    exact .refl s j
  | cons a rest ih =>
    obtain ⟨b, s₁, cs, hhead, htail, -⟩ := Tx.forEach_cons_ok.mp h
    obtain ⟨hI₁, henters⟩ := hbody a (by simp) s b s₁ hI hhead
    simp only [List.map_cons, List.nodup_cons] at hnodup
    have hnew₁ : ∀ a' ∈ rest, s₁.statusOf (key a') ≠ some q := by
      intro a' ha'
      have hne : key a' ≠ key a := fun e => hnodup.1 (List.mem_map.mpr ⟨a', ha', e⟩)
      rw [henters.others _ hne]
      exact hnew a' (by simp [ha'])
    have hrest := ih (fun a' ha' => hbody a' (by simp [ha'])) hnodup.2 hI₁ hnew₁ htail
    exact (henters.recorded (hnew a (by simp)) j).trans hrest

end Loops

end Recording

section Histories

variable {env : Env} {i : ℕ} {r : SwapRecord} {a : Address} {reason : Bytes}

instance : Blind .reasons State.swapHistory := ⟨fun _ => rfl⟩

instance : Blind .indexes State.swapHistory := ⟨fun _ => rfl⟩

instance : Blind .insurance State.swapHistory := ⟨fun _ => rfl⟩

instance : Blind .arbitration State.swapHistory := ⟨fun _ => rfl⟩

instance : Blind .persistentAdmin State.swapHistory := ⟨fun _ => rfl⟩

theorem blind_swapHistory {t : Table} (h : t ≠ .history) : Blind t State.swapHistory := by
  cases t with
  | history => exact absurd rfl h
  | _ => exact ⟨fun _ => rfl⟩

section Acceptances

instance : Turns State.swapHistory (logged env i .accepted) (markAccepted env i r) := by
  unfold markAccepted; infer_instance

instance : Turns State.swapHistory (logged env i .accepted) (acceptSwap env i) := by
  unfold acceptSwap
  repeat refine Turns.step fun _ => ?_
  refine Turns.here fun _ => ?_
  infer_instance

instance {conditions : List SwapCondition} : Turns State.swapHistory (logged env i .accepted)
    (acceptSwapConditional env i conditions) := by
  unfold acceptSwapConditional
  repeat refine Turns.step fun _ => ?_
  refine Turns.here fun _ => ?_
  infer_instance

instance {quantity : ℕ} : Turns State.swapHistory (logged env i .accepted)
    (acceptSwapPartial env i quantity) := by
  unfold acceptSwapPartial
  repeat refine Turns.step fun _ => ?_
  refine Turns.here fun _ => ?_
  infer_instance

instance : Turns State.swapHistory (logged env i .accepted) (acceptValidated env i) := by
  unfold acceptValidated; infer_instance

instance : Turns State.swapHistory (logged env i .accepted) (depositEscrow env i r) := by
  unfold depositEscrow
  repeat refine Turns.step fun _ => ?_
  refine Turns.here fun _ => ?_
  infer_instance

instance : Turns State.swapHistory (logged env i .accepted) (escrowDeposit env i) := by
  unfold escrowDeposit; infer_instance

instance : Turns State.swapHistory (logged env i .accepted) (depositOwn env a i) := by
  unfold depositOwn; infer_instance

end Acceptances

section Endings

instance : Turns State.swapHistory (logged env i .cancelled) (cancelPendingSwap env i a) := by
  unfold cancelPendingSwap
  repeat refine Turns.step fun _ => ?_
  refine Turns.here fun _ => ?_
  infer_instance

instance : Turns State.swapHistory (logged env i .cancelled) (cancelSwap env i a) := by
  unfold cancelSwap
  repeat refine Turns.step fun _ => ?_
  refine Turns.here fun _ => ?_
  repeat refine Keeps.step fun _ => ?_
  infer_instance

instance : Turns State.swapHistory (logged env i .cancelled) (cancelExpiredSwap env i a) := by
  unfold cancelExpiredSwap
  repeat refine Turns.step fun _ => ?_
  refine Turns.here fun _ => ?_
  repeat refine Keeps.step fun _ => ?_
  infer_instance

instance : Turns State.swapHistory (logged env i .cancelled)
    (cancelWithReason env a i reason) := by
  unfold cancelWithReason
  repeat refine Turns.step fun _ => ?_
  refine Turns.here fun _ => ?_
  repeat refine Keeps.step fun _ => ?_
  infer_instance

instance : Turns State.swapHistory (logged env i .cancelled) (escrowWithdraw env i) := by
  unfold escrowWithdraw
  repeat refine Turns.step fun _ => ?_
  refine Turns.here fun _ => ?_
  repeat refine Keeps.step fun _ => ?_
  infer_instance

instance : Turns State.swapHistory (logged env i .cancelled) (autoRefundTimeout env i) := by
  unfold autoRefundTimeout
  repeat refine Turns.step fun _ => ?_
  refine Turns.here fun _ => ?_
  infer_instance

instance : Turns State.swapHistory (logged env i .cancelled)
    (adminRollbackSwap env i a reason) := by
  unfold adminRollbackSwap rollBack refundEscrow
  repeat refine Turns.step fun _ => ?_
  refine Turns.here fun _ => ?_
  infer_instance

instance : Turns State.swapHistory (logged env i .cancelled)
    (rollBackValidated env reason i) := by
  unfold rollBackValidated rollBack refundEscrow; infer_instance

instance : Turns State.swapHistory (logged env i .rolledBack) (rollBackCompleted env i r) := by
  unfold rollBackCompleted
  repeat refine Turns.step fun _ => ?_
  refine Turns.here fun _ => ?_
  infer_instance

instance : Turns State.swapHistory (logged env i .completed) (completeRevealed env i) := by
  unfold completeRevealed
  repeat refine Turns.step fun _ => ?_
  refine Turns.here fun _ => ?_
  repeat refine Keeps.step fun _ => ?_
  infer_instance

instance {refund : Bool} : Turns State.swapHistory (logged env i (verdictStatus refund))
    (arbitrateDisputed env a refund i) := by
  unfold arbitrateDisputed; infer_instance

end Endings

end Histories

/-- The moves that are only made on a swap in another status than the one they aim at. -/
def Move.Proceeds : Move → Prop
  | .accepted _ | .scheduled .. | .released _ (.batchKey _) | .released _ .arbitration
  | .refunded _ .arbitration | .adminRolledBack _ => False
  | _ => True

/-- Every swap's status and history agree before and after about what happened. -/
def Recorded (env : Env) (s s' : State) : Prop := ∃ q, ∀ j, RecordedAs env q s s' j

section Calls

variable {env : Env} {s s' : State} {i : ℕ} {r : SwapRecord} {q : SwapStatus} {m : Move}
  {u : Unit} {caller : Address}

theorem Guard.proceeds {c : Escrow} (h : Guard env c i r m) (hm : m.Proceeds)
    (hq : m.aims = some q) : r.status ≠ q := by
  cases h with
  | accepted | scheduled | adminRolledBack => exact hm.elim
  | offered | amended | claimed => cases hq
  | installment last hfrom =>
    cases last with
    | true => rw [hfrom, ← Option.some.inj hq]; decide
    | false => cases hq
  | released w hw =>
    obtain rfl := Option.some.inj hq
    cases w with
    | batchKey | arbitration => exact hm.elim
    | key | ruling => rw [hw.1]; decide
    | batchArbitration => rw [show r.status = .disputed from hw]; decide
    | _ => exact hw.elim
  | refunded w hw =>
    obtain rfl := Option.some.inj hq
    cases w with
    | arbitration => exact hm.elim
    | refusedKey | ruling | expiry => rw [hw.1]; decide
    | batchArbitration | timeout => rw [show r.status = .disputed from hw]; decide
    | _ => exact hw.elim
  | disputed hfrom | cancelled hfrom | withdrawn hfrom | rolledBack hfrom =>
    obtain rfl := Option.some.inj hq
    rw [hfrom]
    decide

theorem statusOf_of_swap (hr : s.escrow.swap i = some r) : s.statusOf i = some r.status := by
  change (s.escrow.swap i).map _ = _
  rw [hr]
  rfl

theorem recordedAs_of_step (hstep : Step env s.escrow m s'.escrow) (hi : m.swap? = some i)
    (hq : m.aims = some q) (hm : m.Proceeds)
    (hhistory : s'.swapHistory = logged env i q s.swapHistory) (j : ℕ) :
    RecordedAs env q s s' j := by
  obtain ⟨r, hr, hguard⟩ := hstep.guard hi
  refine (Enters.of_step hstep hi hq hhistory).recorded ?_ j
  rw [statusOf_of_swap hr]
  exact fun e => hguard.proceeds hm hq (Option.some.inj e)

theorem accepted_recorded (hstep : Step env s.escrow (.accepted i) s'.escrow)
    (hr : s.escrow.swap i = some r) (hfrom : r.status = .pending)
    (hhistory : s'.swapHistory = logged env i .accepted s.swapHistory) (j : ℕ) :
    RecordedAs env .accepted s s' j := by
  refine (Enters.of_step hstep rfl rfl hhistory).recorded ?_ j
  simp [statusOf_of_swap hr, hfrom]

section Acceptances

theorem acceptSwap_recorded (h : acceptSwap env i s = .ok (u, s')) (j : ℕ) :
    RecordedAs env .accepted s s' j := by
  obtain ⟨r, _, _, hr, hfrom, -⟩ := acceptSwap_escrow h
  exact accepted_recorded (acceptSwap_step h) hr hfrom
    (Turns.eq State.swapHistory (logged env i .accepted) h) j

theorem acceptSwapConditional_recorded {conditions : List SwapCondition}
    (h : acceptSwapConditional env i conditions s = .ok (u, s')) (j : ℕ) :
    RecordedAs env .accepted s s' j := by
  obtain ⟨r, hr, hfrom, -⟩ := acceptSwapConditional_escrow h
  exact accepted_recorded (acceptSwapConditional_step h) hr hfrom
    (Turns.eq State.swapHistory (logged env i .accepted) h) j

theorem acceptSwapPartial_recorded {quantity : ℕ}
    (h : acceptSwapPartial env i quantity s = .ok (u, s')) (j : ℕ) :
    RecordedAs env .accepted s s' j := by
  obtain ⟨r, _, hr, hfrom, -⟩ := acceptSwapPartial_escrow h
  exact accepted_recorded (acceptSwapPartial_step h) hr hfrom
    (Turns.eq State.swapHistory (logged env i .accepted) h) j

theorem escrowDeposit_recorded (h : escrowDeposit env i s = .ok (u, s')) (j : ℕ) :
    RecordedAs env .accepted s s' j := by
  obtain ⟨r, hr, -, hdeposit⟩ := escrowDeposit_ok.mp h
  exact accepted_recorded (escrowDeposit_step h) hr (depositEscrow_escrow hdeposit).1
    (Turns.eq State.swapHistory (logged env i .accepted) h) j

theorem depositOwn_recorded (hauth : caller ∈ env.auths)
    (h : depositOwn env caller i s = .ok (u, s')) (j : ℕ) : RecordedAs env .accepted s s' j := by
  obtain ⟨r, hr, -, hdeposit⟩ := depositOwn_ok.mp h
  exact accepted_recorded (depositOwn_step hauth h) hr (depositEscrow_escrow hdeposit).1
    (Turns.eq State.swapHistory (logged env i .accepted) h) j

theorem batchEscrowDeposit_recorded {ids : List ℕ}
    (h : batchEscrowDeposit env ids caller s = .ok (u, s')) (j : ℕ) :
    RecordedAs env .accepted s s' j := by
  obtain ⟨hauth, _, hloop⟩ := batchEscrowDeposit_ok.mp h
  exact Tx.forEach_rel (R := fun s s' => RecordedAs env .accepted s s' j) (fun s => .refl s j)
    .trans (fun i _ _ _ _ hbody => depositOwn_recorded hauth hbody j) hloop

theorem batchAcceptSwaps_recorded {ids : List ℕ} (hnodup : ids.Nodup)
    (h : batchAcceptSwaps env ids caller s = .ok (u, s')) (j : ℕ) :
    RecordedAs env .accepted s s' j := by
  obtain ⟨hauth, hall, hids, _, s₁, haccept, rfl⟩ := batchAcceptSwaps_passes h
  refine forEach_recorded id (I := fun s => AcceptableBy caller ids s.escrow) ?_
    (by simpa using hnodup) hids ?_ haccept j
  · intro i hi s _ s' hI hbody
    obtain ⟨hI', hstep⟩ := acceptValidated_step hauth hi hI hbody
    exact ⟨hI', .of_step hstep rfl rfl
      (Turns.eq State.swapHistory (logged env i .accepted) hbody)⟩
  · intro i hi
    obtain ⟨r, hr, -, hfrom⟩ := hall i hi
    simp [statusOf_of_swap hr, hfrom]

end Acceptances

section Payments

theorem recordedAs_of_kept (hstep : Step env s.escrow m s'.escrow) (haims : m.aims = none)
    (hadds : ∀ r, ¬ Adds m s.escrow r) (hhistory : s'.swapHistory = s.swapHistory) (j : ℕ) :
    RecordedAs env q s s' j :=
  .inl ⟨by rw [hhistory], statusOf_of_step hstep haims hadds j⟩

theorem submitInstallmentPayment_recorded {amount : ℤ}
    (h : submitInstallmentPayment env i amount s = .ok (u, s')) (j : ℕ) :
    RecordedAs env .accepted s s' j := by
  obtain ⟨last, hlast, hstep⟩ := submitInstallmentPayment_step h
  simp [submitInstallmentPayment] at h
  obtain ⟨r, hr, -, -, hfrom, -, -, -, s₁, hbranch, rfl⟩ := h
  rcases hbranch with ⟨hpaid, s₂, hmark, rfl⟩ | ⟨hpaid, rfl⟩
  · obtain rfl := hlast.mpr ⟨r, hr, hpaid⟩
    have hhistory := Turns.eq State.swapHistory (logged env i .accepted) hmark
    exact recordedAs_of_step hstep rfl rfl trivial hhistory j
  · have hopen : last = false := by
      rw [← Bool.not_eq_true, hlast]
      intro hdone
      obtain ⟨r', hr', hdone⟩ := hdone
      obtain rfl := Option.some.inj (hr.symm.trans hr')
      exact absurd hdone (not_le.mpr hpaid)
    subst hopen
    exact recordedAs_of_kept hstep rfl (by simp [Adds]) rfl j

theorem makeScheduledPayment_recorded {index : ℕ}
    (h : makeScheduledPayment env i index s = .ok (u, s'))
    (hnew : ScheduleDone s i index → s.statusOf i ≠ some .accepted) (j : ℕ) :
    RecordedAs env .accepted s s' j := by
  obtain ⟨last, hlast, hstep⟩ := makeScheduledPayment_step h
  simp [makeScheduledPayment] at h
  obtain ⟨r, hr, -, schedule, -, -, -, payment, -, -, -, -, s₁, hbranch, rfl⟩ := h
  rcases hbranch with ⟨hdone, s₂, hmark, rfl⟩ | ⟨hopen, rfl⟩
  · have hdone' : ScheduleDone s i index := by simpa [ScheduleDone] using hdone
    obtain rfl := hlast.mpr hdone'
    have hhistory := Turns.eq State.swapHistory (logged env i .accepted) hmark
    exact (Enters.of_step hstep rfl rfl hhistory).recorded (hnew hdone') j
  · have hopen' : last = false := by
      rw [← Bool.not_eq_true, hlast]
      simpa [ScheduleDone] using hopen
    subst hopen'
    exact recordedAs_of_kept hstep rfl (by simp [Adds]) rfl j

end Payments

section Endings

theorem cancelSwap_recorded (h : cancelSwap env i caller s = .ok (u, s')) (j : ℕ) :
    RecordedAs env .cancelled s s' j :=
  recordedAs_of_step (cancelSwap_step h) rfl rfl trivial
    (Turns.eq State.swapHistory (logged env i .cancelled) h) j

theorem cancelPendingSwap_recorded (h : cancelPendingSwap env i caller s = .ok (u, s')) (j : ℕ) :
    RecordedAs env .cancelled s s' j :=
  recordedAs_of_step (cancelPendingSwap_step h) rfl rfl trivial
    (Turns.eq State.swapHistory (logged env i .cancelled) h) j

theorem cancelExpiredSwap_recorded (h : cancelExpiredSwap env i caller s = .ok (u, s')) (j : ℕ) :
    RecordedAs env .cancelled s s' j :=
  recordedAs_of_step (cancelExpiredSwap_step h) rfl rfl trivial
    (Turns.eq State.swapHistory (logged env i .cancelled) h) j

theorem escrowWithdraw_recorded (h : escrowWithdraw env i s = .ok (u, s')) (j : ℕ) :
    RecordedAs env .cancelled s s' j :=
  recordedAs_of_step (escrowWithdraw_step h) rfl rfl trivial
    (Turns.eq State.swapHistory (logged env i .cancelled) h) j

theorem autoRefundTimeout_recorded (h : autoRefundTimeout env i s = .ok (u, s')) (j : ℕ) :
    RecordedAs env .cancelled s s' j :=
  recordedAs_of_step (autoRefundTimeout_step h) rfl rfl trivial
    (Turns.eq State.swapHistory (logged env i .cancelled) h) j

theorem revealKey_recorded {secret blindingFactor : BytesN 32}
    (h : revealKey env i caller secret blindingFactor s = .ok (u, s')) (j : ℕ) :
    RecordedAs env .completed s s' j :=
  recordedAs_of_step (revealKey_step h) rfl rfl trivial
    (Turns.eq State.swapHistory (logged env i .completed) h) j

theorem batchCancelSwaps_recorded {ids cancelled : List ℕ} {reasons : List Bytes}
    (h : batchCancelSwaps env ids caller reasons s = .ok (cancelled, s')) (j : ℕ) :
    RecordedAs env .cancelled s s' j := by
  simp [batchCancelSwaps] at h
  obtain ⟨hauth, -, s₁, hloop, rfl⟩ := h
  have hrecorded : RecordedAs env .cancelled s s₁ j :=
    Tx.forEach₂_rel (R := fun s s' => RecordedAs env .cancelled s s' j) (fun s => .refl s j)
      .trans (fun i _ _ _ _ _ _ hbody => recordedAs_of_step (cancelWithReason_step hauth hbody)
        rfl rfl trivial (Turns.eq State.swapHistory (logged env i .cancelled) hbody) j) hloop
  exact hrecorded

theorem verdict_recorded {refund : Bool} (hstep : Step env s.escrow
      (verdict refund .batchArbitration i) s'.escrow)
    (hhistory : s'.swapHistory = logged env i (verdictStatus refund) s.swapHistory) (j : ℕ) :
    RecordedAs env (verdictStatus refund) s s' j := by
  cases refund with
  | true => exact recordedAs_of_step hstep rfl rfl trivial hhistory j
  | false => exact recordedAs_of_step hstep rfl rfl trivial hhistory j

theorem batchArbitrateSwaps_recorded {ids : List ℕ} {refund : Bool}
    (h : batchArbitrateSwaps env ids caller refund s = .ok (u, s')) (j : ℕ) :
    RecordedAs env (verdictStatus refund) s s' j := by
  simp [batchArbitrateSwaps] at h
  obtain ⟨-, _, hloop⟩ := h
  exact Tx.forEach_rel (R := fun s s' => RecordedAs env (verdictStatus refund) s s' j)
    (fun s => .refl s j) .trans (fun i _ _ _ _ hbody =>
      verdict_recorded (arbitrateDisputed_step hbody)
        (Turns.eq State.swapHistory (logged env i (verdictStatus refund)) hbody) j) hloop

theorem validateAndRollbackSwap_recorded {valid rolledBack : Bool}
    (h : validateAndRollbackSwap env i valid s = .ok (rolledBack, s')) (j : ℕ) :
    RecordedAs env .rolledBack s s' j := by
  simp [validateAndRollbackSwap] at h
  obtain ⟨r, hr, hauth, hfrom, -, ⟨_, ⟨hvalid, h⟩ | ⟨-, rfl⟩⟩, -⟩ := h
  · exact recordedAs_of_step (rollBackCompleted_step hr hfrom hauth h) rfl rfl trivial
      (Turns.eq State.swapHistory (logged env i .rolledBack) h) j
  · exact .refl s' j

theorem adminRollbackSwap_recorded {reason : Bytes}
    (h : adminRollbackSwap env i caller reason s = .ok (u, s'))
    (hnew : s.statusOf i ≠ some .cancelled) (j : ℕ) : RecordedAs env .cancelled s s' j :=
  (Enters.of_step (adminRollbackSwap_step h) rfl rfl
    (Turns.eq State.swapHistory (logged env i .cancelled) h)).recorded hnew j

theorem batchRollbackSwaps_recorded {ids : List ℕ} {reason : Bytes} (hnodup : ids.Nodup)
    (hnew : ∀ i ∈ ids, s.statusOf i ≠ some .cancelled)
    (h : batchRollbackSwaps env ids caller reason s = .ok (u, s')) (j : ℕ) :
    RecordedAs env .cancelled s s' j := by
  simp [batchRollbackSwaps] at h
  obtain ⟨hauth, hadmin, -, -, _, s₁, hvalid, _, s₂, hrollback, rfl⟩ := h
  obtain ⟨rfl, hall⟩ := Tx.forEach_checks (fun _ _ _ _ _ hi => validateRollback_ok hi) hvalid
  refine forEach_recorded id (I := fun s => RollableBy caller ids s.escrow) ?_
    (by simpa using hnodup) ⟨hadmin, hall⟩ hnew hrollback j
  intro i hi s _ s' hI hbody
  obtain ⟨hI', hstep⟩ := rollBackValidated_step hauth hi hI hbody
  exact ⟨hI', .of_step hstep rfl rfl (Turns.eq State.swapHistory (logged env i .cancelled) hbody)⟩

theorem batchRevealKeys_recorded {ids : List ℕ} {secrets blindingFactors : List (BytesN 32)}
    (hnodup : ids.Nodup)
    (h : batchRevealKeys env ids secrets blindingFactors caller s = .ok (u, s')) (j : ℕ) :
    RecordedAs env .completed s s' j := by
  obtain ⟨-, -, -, hids, -⟩ := batchRevealKeys_path h
  simp [batchRevealKeys] at h
  obtain ⟨hauth, -, -, -, _, s₁, hvalid, fees, s₂, hreveal, rfl⟩ := h
  obtain ⟨rfl, hall⟩ := Tx.forEach₂_checks_mem (fun _ _ _ _ _ => validateReveal_ok) hvalid
  refine forEach_recorded id (I := fun s => RevealableBy env caller
    (List.zipWith Key.mk secrets blindingFactors) ids s.escrow) ?_ (by simpa using hnodup) hids ?_
    hreveal j
  · intro i hi s _ s' hI hbody
    obtain ⟨r, hr, rfl, ⟨k, -, hkey⟩, hst⟩ := hI i hi
    have hstep := completeRevealed_step hr ⟨hst, hauth, hkey⟩ hbody
    exact ⟨hI.step hstep, .of_step hstep rfl rfl
      (Turns.eq State.swapHistory (logged env i .completed) hbody)⟩
  · intro i hi
    obtain ⟨k, -, r, hr, -, hfrom, -⟩ := hall i hi
    simp [statusOf_of_swap hr, hfrom]

end Endings

end Calls

section Openings

variable {env : Env} {s s' : State} {call : Call} {q : SwapStatus} {byIp : Bool} {u : Unit}

theorem OpensAll.recorded (h : OpensAll env q byIp s s') (hwf : Wf s.escrow) (j : ℕ) :
    RecordedAs env q s s' j := by
  cases h.listedTo.listed j with
  | same hswap hhistory => exact .inl ⟨hhistory, congrArg (Option.map SwapRecord.status) hswap⟩
  | new r hnew hoffer hswap hhistory =>
    refine .inr ⟨?_, ?_, ?_⟩
    · rw [← hoffer.status]
      exact congrArg (Option.map SwapRecord.status) hswap
    · change (s.escrow.swap j).map _ ≠ _
      simp [hwf.unused hnew]
    · rw [logged, update_self] at hhistory
      exact hhistory

end Openings

/-- The calls append the right entry, or rightly none. -/
def KeepsTrail (s : State) (_env : Env) : Call → Prop
  | .raiseDispute _ | .resolveDispute .. | .autoResolveDispute _ | .verifyAndCompleteSwap .. =>
    False
  | .arbitrateSwap i _ refund => s.statusOf i = some (verdictStatus refund)
  | .batchAcceptSwaps ids _ | .batchRevealKeys ids .. => ids.Nodup
  | .batchRollbackSwaps ids .. => ids.Nodup ∧ ∀ i ∈ ids, s.statusOf i ≠ some .cancelled
  | .adminRollbackSwap i .. => s.statusOf i ≠ some .cancelled
  | .makeScheduledPayment i index => ScheduleDone s i index → s.statusOf i ≠ some .accepted
  | _ => True

section Steps

variable {env : Env} {s s' : State} {call : Call} {i : ℕ}

theorem quiet_recorded (h : exec env call s = .ok ((), s')) (hwrites : .history ∉ call.writes)
    (hyields : ∀ m, call.yields m → m.aims = none ∧ ∀ c r, ¬ Adds m c r) : Recorded env s s' := by
  refine ⟨.pending, fun j => .inl ⟨?_, ?_⟩⟩
  · have hhistory := exec_frame State.swapHistory h fun t ht =>
      blind_swapHistory fun e => hwrites (e ▸ ht)
    rw [hhistory]
  · obtain ⟨q, hmoves⟩ := exec_answers h
    change (s'.escrow.swap j).map _ = (s.escrow.swap j).map _
    refine hmoves.invariant (I := fun c => (c.swap j).map SwapRecord.status =
      (s.escrow.swap j).map SwapRecord.status) ?_ rfl
    intro c m c' hm hsame hstep
    obtain ⟨haims, hadds⟩ := hyields m hm.1
    rw [← hsame]
    cases hstep.rewrites with
    | same hswap => rw [hswap]
    | added r _ h => exact absurd h (hadds c r)
    | moved k r r' _ hr hswap hmoved =>
      by_cases hj : j = k
      · simp [hswap, hj, hr, hmoved.status, haims]
      · simp [hswap, hj]

theorem arbitrateSwap_recorded {arbitrator : Address} {refund : Bool}
    (h : arbitrateSwap env i arbitrator refund s = .ok ((), s'))
    (hsame : s.statusOf i = some (verdictStatus refund)) : Recorded env s s' := by
  have hhistory := Keeps.eq State.swapHistory h
  have hstep := arbitrateSwap_step h
  have hq : (verdict refund .arbitration i).aims = some (verdictStatus refund) := by
    cases refund <;> rfl
  have hi : (verdict refund .arbitration i).swap? = some i := by cases refund <;> rfl
  refine ⟨.pending, fun j => .inl ⟨by rw [hhistory], ?_⟩⟩
  rw [statusOf_after hstep hi hq]
  by_cases hj : j = i
  · simp [hj, hsame]
  · simp [hj]

theorem exec_recorded (h : exec env call s = .ok ((), s')) (hcond : KeepsTrail s env call)
    (hwf : Wf s.escrow) : Recorded env s s' := by
  cases hlists : call.lists with
  | true => exact ⟨_, (exec_lists h hlists).recorded hwf⟩
  | false =>
    cases call with
    | raiseDispute | resolveDispute | autoResolveDispute | verifyAndCompleteSwap => exact hcond.elim
    | arbitrateSwap => exact arbitrateSwap_recorded h hcond
    | acceptSwap => exact ⟨_, acceptSwap_recorded h⟩
    | acceptSwapConditional => exact ⟨_, acceptSwapConditional_recorded h⟩
    | acceptSwapPartial => exact ⟨_, acceptSwapPartial_recorded h⟩
    | batchAcceptSwaps => exact ⟨_, batchAcceptSwaps_recorded hcond h⟩
    | escrowDeposit => exact ⟨_, escrowDeposit_recorded h⟩
    | batchEscrowDeposit => exact ⟨_, batchEscrowDeposit_recorded h⟩
    | submitInstallmentPayment => exact ⟨_, submitInstallmentPayment_recorded h⟩
    | makeScheduledPayment => exact ⟨_, makeScheduledPayment_recorded h hcond⟩
    | revealKey => exact ⟨_, revealKey_recorded h⟩
    | batchRevealKeys => exact ⟨_, batchRevealKeys_recorded hcond h⟩
    | autoRefundTimeout => exact ⟨_, autoRefundTimeout_recorded h⟩
    | batchArbitrateSwaps => exact ⟨_, batchArbitrateSwaps_recorded h⟩
    | cancelSwap => exact ⟨_, cancelSwap_recorded h⟩
    | cancelExpiredSwap => exact ⟨_, cancelExpiredSwap_recorded h⟩
    | cancelPendingSwap => exact ⟨_, cancelPendingSwap_recorded h⟩
    | batchCancelSwaps =>
      obtain ⟨ids, h⟩ := Tx.void_ok.mp h
      exact ⟨_, batchCancelSwaps_recorded h⟩
    | escrowWithdraw => exact ⟨_, escrowWithdraw_recorded h⟩
    | validateAndRollbackSwap =>
      obtain ⟨rolledBack, h⟩ := Tx.void_ok.mp h
      exact ⟨_, validateAndRollbackSwap_recorded h⟩
    | adminRollbackSwap => exact ⟨_, adminRollbackSwap_recorded h hcond⟩
    | batchRollbackSwaps => exact ⟨_, batchRollbackSwaps_recorded hcond.1 hcond.2 h⟩
    | startIpAuction =>
      refine quiet_recorded h (by simp [Call.writes]) ?_
      intro m hm
      obtain ⟨a, rfl, -⟩ := hm
      simp [Move.aims, Adds]
    | initiateSwap | initiateSwapWithOraclePrice | batchInitiateSwap | initiateEscrowSwap
    | batchInitiateSwapWithInsurance | initiateSwapWithSchedule | batchInitiateEscrow
    | initiateSwapWithSigners | finalizeAuction => cases hlists
    | _ =>
      exact quiet_recorded h (by simp [Call.writes]) (by simp [Call.yields, Move.aims, Adds])

variable {past : List (Act × State)} {act : Act} {r : SwapRecord}

theorem ActStep.recorded (hact : ActStep s act s') (hcond : OnCalls KeepsTrail s act)
    (hwf : Wf s.escrow) : Recorded act.env s s' := by
  cases hact with
  | @call _ env call hexec => exact exec_recorded hexec (hcond call rfl) hwf
  | elsewhere => exact ⟨.pending, fun j => .inl ⟨rfl, rfl⟩⟩

structure Chronicle (past : List (Act × State)) (s : State) : Prop where
  wf : Wf s.escrow
  statuses : ∀ i, (s.history i).map (·.status) = passed i past
  last : ∀ i, (passed i past).getLast? = s.statusOf i
  dated : ∀ i, ∀ e ∈ s.history i, ∃ p ∈ past, p.1.env.timestamp = e.timestamp
  ordered : InTime past → ∀ i, ((s.history i).map (·.timestamp)).Pairwise (· ≤ ·)

theorem passed_kept (hlast : (passed i past).getLast? = s'.statusOf i) :
    passed i ((act, s') :: past) = passed i past := by
  cases hstatus : s'.statusOf i with
  | none => simp [passed, hstatus]
  | some q => simp [passed, hstatus, hlast]

theorem passed_entered {q : SwapStatus} (hstatus : s'.statusOf i = some q)
    (hlast : (passed i past).getLast? ≠ some q) :
    passed i ((act, s') :: past) = passed i past ++ [q] := by
  simp [passed, hstatus, hlast]

theorem Recorded.history (h : Recorded act.env s s') (i : ℕ) :
    s'.history i = s.history i ∧ s'.statusOf i = s.statusOf i ∨
      ∃ q, s'.statusOf i = some q ∧ s.statusOf i ≠ some q ∧
        s'.history i = s.history i ++ [⟨q, act.env.timestamp⟩] := by
  obtain ⟨q, hrecorded⟩ := h
  rcases hrecorded i with ⟨hsame, hstatus⟩ | ⟨hstatus, hnew, hentry⟩
  · exact .inl ⟨by rw [State.history, hsame]; rfl, hstatus⟩
  · exact .inr ⟨q, hstatus, hnew, by rw [State.history, hentry]; rfl⟩

theorem Chronicle.passed_step (h : Chronicle past s) (hrecorded : Recorded act.env s s') (i : ℕ) :
    (s'.history i).map (·.status) = passed i ((act, s') :: past) ∧
      (passed i ((act, s') :: past)).getLast? = s'.statusOf i := by
  rcases hrecorded.history i with ⟨hhistory, hstatus⟩ | ⟨q, hstatus, hnew, hhistory⟩
  · have hlast : (passed i past).getLast? = s'.statusOf i := by rw [h.last, hstatus]
    rw [passed_kept hlast, hhistory]
    exact ⟨h.statuses i, hlast⟩
  · rw [passed_entered hstatus (by rw [h.last]; exact hnew), hhistory, hstatus, ← h.statuses]
    simp

theorem Chronicle.dated_step (h : Chronicle past s) (hrecorded : Recorded act.env s s') (i : ℕ) :
    ∀ e ∈ s'.history i, ∃ p ∈ (act, s') :: past, p.1.env.timestamp = e.timestamp := by
  intro e he
  rcases hrecorded.history i with ⟨hhistory, -⟩ | ⟨q, -, -, hhistory⟩
  · rw [hhistory] at he
    obtain ⟨p, hp, htime⟩ := h.dated i e he
    exact ⟨p, by simp [hp], htime⟩
  · rw [hhistory] at he
    rcases List.mem_append.mp he with he | he
    · obtain ⟨p, hp, htime⟩ := h.dated i e he
      exact ⟨p, by simp [hp], htime⟩
    · obtain rfl := List.mem_singleton.mp he
      exact ⟨(act, s'), by simp, rfl⟩

theorem Chronicle.ordered_step (h : Chronicle past s) (hrecorded : Recorded act.env s s')
    (htime : InTime ((act, s') :: past)) (i : ℕ) :
    ((s'.history i).map (·.timestamp)).Pairwise (· ≤ ·) := by
  simp only [InTime, List.map_cons, List.pairwise_cons] at htime
  obtain ⟨hlater, hearlier⟩ := htime
  have hordered := h.ordered hearlier i
  rcases hrecorded.history i with ⟨hhistory, -⟩ | ⟨q, -, -, hhistory⟩
  · rw [hhistory]
    exact hordered
  · rw [hhistory, List.map_append, List.pairwise_append]
    refine ⟨hordered, by simp, ?_⟩
    intro t ht t' ht'
    obtain ⟨e, he, rfl⟩ := List.mem_map.mp ht
    obtain rfl := by simpa using ht'
    obtain ⟨p, hp, hsame⟩ := h.dated i e he
    have hle := hlater p.1.env.timestamp (List.mem_map.mpr ⟨p, hp, rfl⟩)
    omega

theorem Chronicle.step (h : Chronicle past s) (hact : ActStep s act s')
    (hcond : OnCalls KeepsTrail s act) : Chronicle ((act, s') :: past) s' := by
  have hrecorded := hact.recorded hcond h.wf
  exact ⟨hact.wf h.wf, fun i => (h.passed_step hrecorded i).1,
    fun i => (h.passed_step hrecorded i).2, h.dated_step hrecorded,
    fun htime => h.ordered_step hrecorded htime⟩

theorem Chronicle.auditTrail (h : Chronicle past s) (hr : s.swap i = some r) :
    AuditTrail past s i r := by
  have hlast := h.last i
  have hstatus : s.statusOf i = some r.status := by simp [State.statusOf, hr]
  rw [← h.statuses, hstatus, List.getLast?_map] at hlast
  refine ⟨?_, hlast, h.statuses i, fun htime => h.ordered htime i⟩
  cases hstored : s.swapHistory i with
  | none => simp [State.history, hstored] at hlast
  | some entries =>
    refine ⟨entries, rfl, ?_⟩
    rintro rfl
    simp [State.history, hstored] at hlast

end Steps

/-- The audit law, over runs in which every call appends the right entry. -/
theorem audit_trail_complete {balance : Address → Address → ℤ} {tr : List (Act × State)}
    {s : State} (hrun : Run (Restrict ActStep (OnCalls KeepsTrail)) (State.empty balance) tr s)
    (i : ℕ) (r : SwapRecord) (hr : s.swap i = some r) : AuditTrail tr s i r := by
  have hstart : Chronicle [] (State.empty balance) := by
    refine ⟨.empty balance, fun i => rfl, fun i => rfl, ?_, ?_⟩
    · intro i e he
      cases he
    · intro _ i
      exact List.Pairwise.nil
  exact (hrun.trace_invariant hstart fun _ _ _ _ h hact => h.step hact.1 hact.2).auditTrail hr

section Runs

open Scenario

theorem sale_audited : ∃ tr s, ∃ r : SwapRecord,
    Run (Restrict ActStep (OnCalls KeepsTrail)) (State.empty funds) tr s ∧ s.swap 0 = some r ∧
    r.status = .completed ∧ AuditTrail tr s 0 r := by
  obtain ⟨tr, s, s', hrun, hexec, hseen⟩ := watched (OnCalls KeepsTrail) funds sale
    (env [seller] 3) (.revealKey 0 seller secret secret) (seenMoving 0 .accepted .completed)
    (by decide) (by simp [sale, offer, OnCalls, KeepsTrail])
  obtain ⟨r, r', hr, hr', hq, hq'⟩ := moves_of_seen hseen
  have hrun' := hrun.next (k := ⟨env [seller] 3, some (.revealKey 0 seller secret secret)⟩)
    ⟨.call hexec, by simp [OnCalls, KeepsTrail]⟩
  exact ⟨_, s', r', hrun', hr', hq', audit_trail_complete hrun' 0 r' hr'⟩

/-- The history of a disputed swap ends with its acceptance. -/
theorem dispute_unrecorded : ∃ balance tr s i, ∃ r : SwapRecord,
    Run ActStep (State.empty balance) tr s ∧ s.swap i = some r ∧ r.status = .disputed ∧
    ¬ AuditTrail tr s i r := by
  obtain ⟨tr, s, s', hrun, hexec, hseen⟩ := watched Always funds sale (env [buyer] 3)
    (.raiseDispute 0) (fun s s' => seenMoving 0 .accepted .disputed s s' &&
      (s'.history 0).getLast?.map (·.status) = some .accepted) (by decide) (by simp [Always])
  simp only [Bool.and_eq_true, decide_eq_true_eq] at hseen
  obtain ⟨hmoving, hlast⟩ := hseen
  obtain ⟨r, r', hr, hr', hq, hq'⟩ := moves_of_seen hmoving
  refine ⟨funds, _, s', 0, r', (hrun.mono fun _ _ _ h => h.1).next
    (k := ⟨env [buyer] 3, some (.raiseDispute 0)⟩) (.call hexec), hr', hq', ?_⟩
  intro htrail
  have hends := htrail.last
  rw [hlast, hq'] at hends
  cases hends

end Runs

end AtomicIp.AtomicSwap
