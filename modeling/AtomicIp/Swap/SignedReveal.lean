import AtomicIp.Swap.SignOff
import AtomicIp.Swap.Aborts

set_option autoImplicit false

namespace AtomicIp.AtomicSwap

open Function Tx

def Otherwise (e : Abort ContractError) : Prop := e ≠ .contract .notAllSigned

/-- Every signature given on the swap is on the list. -/
def SignaturesKept (s₀ : State) (past : List (Act × State)) (s : State) : Prop :=
  ∀ i a, Happened (SignedOff i a) s₀ past → a ∈ (s.docket.swapSignatures i).getD []

section Gate

variable {env : Env} {s : State} {i : ℕ} {r : SwapRecord} {signers : List Address}
  {secret blindingFactor : BytesN 32}

theorem revealKey_gate (hr : s.swap i = some r) (hfrom : r.status = .accepted)
    (hauth : r.seller ∈ env.auths) (hsigners : s.swapSigners i = some signers) :
    revealKey env i r.seller secret blindingFactor s ≠ .error (.contract .notAllSigned) ↔
      signers.length ≤ ((s.swapSignatures i).getD []).length := by
  have h₁ : requireSwapExists i s = .ok (r, s) := requireSwapExists_ok.mpr ⟨hr, rfl⟩
  have h₂ : requireSeller r.seller r s = .ok ((), s) := requireSeller_ok.mpr ⟨rfl, rfl⟩
  have h₃ : (requireAuth env.auths r.seller : SwapTx Unit) s = .ok ((), s) :=
    requireAuth_ok.mpr ⟨hauth, rfl⟩
  have h₄ : requireSwapStatus r .accepted .notAccepted s = .ok ((), s) :=
    requireSwapStatus_ok.mpr ⟨hfrom, rfl⟩
  rw [revealKey, bind_of_ok h₁, bind_of_ok h₂, bind_of_ok h₃, bind_of_ok h₄]
  by_cases hcount : signers.length ≤ ((s.swapSignatures i).getD []).length
  · refine iff_of_true (fun herror => ?_) hcount
    have hpass : requireAllSigned i s = .ok ((), s) := by
      rw [requireAllSigned_ok, hsigners]
      simpa using hcount
    rw [bind_of_ok hpass] at herror
    refine (show AbortsWith Otherwise s _ from ?_) _ herror rfl
    have htoken : Otherwise .token := by simp [Otherwise]
    have hoverflow : Otherwise .overflow := by simp [Otherwise]
    exact .bind (verifyCommitment_aborts (by simp [Otherwise]) (by simp [Otherwise])) fun _ _ _ =>
      .bind (rejectInvalidKey_aborts (by simp [Otherwise])) fun _ _ _ =>
      .bind (evaluateConditions_aborts (by simp [Otherwise])) fun _ _ _ =>
      .bind (.of_ok rfl) fun _ _ _ => .bind (.of_ok rfl) fun _ _ _ =>
      .bind (.of_ok rfl) fun _ _ _ => .bind (bpsOf_aborts fun _ _ => hoverflow) fun _ _ _ =>
      .bind (referralFee_aborts fun _ _ => hoverflow) fun _ _ _ =>
      .bind (i128_aborts fun _ => hoverflow) fun _ _ _ =>
      .bind (i128_aborts fun _ => hoverflow) fun _ _ _ =>
      .bind (payTreasury_aborts htoken) fun _ _ _ =>
      .bind (.onlyIf fun _ => .of_ok rfl) fun _ _ _ =>
      .bind (payReferrer_aborts htoken) fun _ _ _ => .bind (payOut_aborts htoken) fun _ _ _ =>
      .bind (releaseCollateral_aborts htoken) fun _ _ _ => .of_ok rfl
  · refine iff_of_false (fun hother => hother ?_) hcount
    have hblocked : requireAllSigned i s = .error (.contract .notAllSigned) := by
      refine (bind_of_ok rfl).trans ((bind_of_ok rfl).trans (ensure_error fun hall => hcount ?_))
      simpa [hsigners] using hall
    rw [bind_of_error hblocked]

end Gate

section Signatures

variable {s₀ s s' : State} {past : List (Act × State)} {act : Act} {i : ℕ} {a : Address}
  {signers : Option (List Address)} {listed signed : List Address}

/-- If all who are listed have signed, there are as many signatures as listings just when nobody
is listed twice. -/
theorem Signatures.enough_iff (h : Signatures s₀ past i (some listed) signed)
    (hall : ∀ a ∈ listed, a ∈ signed) : listed.length ≤ signed.length ↔ listed.Nodup := by
  have hsub : signed ⊆ listed := by
    intro b hb
    obtain ⟨required, hrequired, hmem⟩ := h.required b hb
    obtain rfl := Option.some.inj hrequired
    exact hmem
  constructor
  · intro hcount
    have hperm := (h.distinct.subperm hsub).perm_of_length_le hcount
    exact hperm.nodup_iff.mp h.distinct
  · intro hnodup
    exact (hnodup.subperm hall).length_le

theorem ActStep.signatures_kept (hact : ActStep s act s')
    (ha : a ∈ (s.docket.swapSignatures i).getD []) : a ∈ (s'.docket.swapSignatures i).getD [] := by
  cases hact.filing with
  | same _ hdocket => rwa [hdocket]
  | approved _ _ _ _ _ _ hdocket => rwa [hdocket]
  | signed j b _ _ _ _ _ hdocket =>
    rw [hdocket]
    by_cases hi : i = j
    · subst hi
      simpa [Docket.signed] using .inl ha
    · simpa [Docket.signed, hi] using ha
  | withSigners _ _ _ _ _ _ _ _ hdocket => rwa [hdocket]
  | withSchedule _ _ _ _ _ _ _ hdocket => rwa [hdocket]
  | inEscrow _ _ _ hopens => rwa [hopens.docket]

theorem ActStep.signature_given (hact : ActStep s act s') (hsigned : SignedOff i a s act s') :
    a ∈ (s'.docket.swapSignatures i).getD [] := by
  obtain ⟨hcall, -⟩ := hsigned
  cases hact.filing with
  | signed j b hsigns _ _ _ _ hdocket =>
    obtain ⟨rfl, rfl⟩ : i = j ∧ a = b := by simpa [hcall] using hsigns
    rw [hdocket]
    simp [Docket.signed]
  | same hother => exact absurd trivial (hother _ hcall)
  | approved _ _ hother => simp [hcall] at hother
  | withSigners _ _ _ _ _ _ hother => simp [hcall] at hother
  | withSchedule _ _ _ _ _ hother => simp [hcall] at hother
  | inEscrow call hother hescrow =>
    rw [hcall] at hother
    obtain rfl := Option.some.inj hother
    exact hescrow.elim

theorem SignaturesKept.step (h : SignaturesKept s₀ past s) (hnow : now s₀ past = s)
    (hact : ActStep s act s') : SignaturesKept s₀ ((act, s') :: past) s' := by
  intro i a hhappened
  rcases happened_cons.mp hhappened with hlast | hearlier
  · rw [hnow] at hlast
    exact hact.signature_given hlast
  · exact hact.signatures_kept (h i a hearlier)

end Signatures

section Runs

variable {env : Env} {s : State} {tr : List (Act × State)} {i : ℕ} {r : SwapRecord}
  {signers : List Address} {secret blindingFactor : BytesN 32}
  {balance : Address → Address → ℤ}

theorem signed_off (hrun : Run ActStep (State.empty balance) tr s) :
    SignOffs (State.empty balance) tr s ∧ SignaturesKept (State.empty balance) tr s := by
  refine (hrun.forall_steps (Q := fun _ _ _ _ => True)
    (I := fun past s => SignOffs (State.empty balance) past s ∧
      SignaturesKept (State.empty balance) past s)
    ⟨.empty balance, fun i a h => absurd h happened_nil⟩ ?_).1
  intro past s act s' hI hact
  exact ⟨⟨hI.1.step hact, hI.2.step hI.1.here hact⟩, trivial⟩

/-- Once everybody listed has signed, the seller is asked for no more signatures if and only if
nobody is listed twice. -/
theorem reveal_unblocked_iff (hrun : Run ActStep (State.empty balance) tr s)
    (hmade : Happened (MadeWithSigners i signers) (State.empty balance) tr)
    (hr : s.swap i = some r) (hfrom : r.status = .accepted)
    (hsigned : ∀ a ∈ signers, Happened (SignedOff i a) (State.empty balance) tr)
    (hauth : r.seller ∈ env.auths) :
    revealKey env i r.seller secret blindingFactor s ≠ .error (.contract .notAllSigned) ↔
      signers.Nodup := by
  obtain ⟨hoffs, hkept⟩ := signed_off hrun
  have hsigners : s.docket.swapSigners i = some signers := hoffs.recorded i signers hmade
  have hlist := hoffs.signatures i
  rw [hsigners] at hlist
  rw [revealKey_gate hr hfrom hauth hsigners]
  exact hlist.enough_iff fun a ha => hkept i a (hsigned a ha)

end Runs

section Sales

open Scenario

theorem joint_sale_unblocked : ∃ s : State, ([seller, stranger] : List Address).Nodup ∧
    revealKey (env [seller] 5) 0 seller secret secret s ≠ .error (.contract .notAllSigned) := by
  have hcalls : ∃ s₁ s₂ s₃ s₄ s₅ r,
      exec (env [] 0) (.initializeContract registry) (State.empty funds) = .ok ((), s₁) ∧
      exec (env [seller] 1) (.initiateSwapWithSigners token 1 seller 1000 buyer [seller, stranger])
        s₁ = .ok ((), s₂) ∧
      exec (env [buyer] 2) (.acceptSwap 0) s₂ = .ok ((), s₃) ∧
      exec (env [seller] 3) (.signSwapReveal 0 seller) s₃ = .ok ((), s₄) ∧
      exec (env [stranger] 4) (.signSwapReveal 0 stranger) s₄ = .ok ((), s₅) ∧
      s₁.swap 0 = none ∧ (s₂.swap 0).isSome ∧ s₅.swap 0 = some r ∧ r.status = .accepted ∧
      r.seller = seller := ⟨_, _, _, _, _, _, rfl, rfl, rfl, rfl, rfl, rfl, rfl, rfl, rfl, rfl⟩
  obtain ⟨s₁, s₂, s₃, s₄, s₅, r, h₁, h₂, h₃, h₄, h₅, hnone, hsome, hr, hfrom, hseller⟩ := hcalls
  have hrun := ((((Run.start.next (ActStep.call h₁)).next (ActStep.call h₂)).next
    (ActStep.call h₃)).next (ActStep.call h₄)).next (ActStep.call h₅)
  have hnodup : ([seller, stranger] : List Address).Nodup := by decide
  have hauth : r.seller ∈ (env [seller] 5).auths := by simp [hseller, env]
  have hunblocked : revealKey (env [seller] 5) 0 r.seller secret secret s₅ ≠
      .error (.contract .notAllSigned) ↔ ([seller, stranger] : List Address).Nodup := by
    refine reveal_unblocked_iff hrun ?_ hr hfrom (fun a ha => ?_) hauth
    · exact happened_cons.mpr (.inr (happened_cons.mpr (.inr (happened_cons.mpr (.inr
        (happened_cons.mpr (.inl ⟨⟨_, _, _, _, _, rfl⟩, hnone, hsome⟩)))))))
    · rcases List.mem_pair.mp ha with rfl | rfl
      · exact happened_cons.mpr (.inr (happened_cons.mpr (.inl ⟨rfl, by simp [env]⟩)))
      · exact happened_cons.mpr (.inl ⟨rfl, by simp [env]⟩)
  rw [hseller] at hunblocked
  exact ⟨s₅, hnodup, hunblocked.mpr hnodup⟩

/-- The only co-inventor is listed twice, and has signed. -/
theorem reveal_blocked : ∃ balance tr s i signers r env secret blindingFactor,
    Run ActStep (State.empty balance) tr s ∧
    Happened (MadeWithSigners i signers) (State.empty balance) tr ∧
    s.swap i = some r ∧ r.status = .accepted ∧
    (∀ a ∈ signers, Happened (SignedOff i a) (State.empty balance) tr) ∧
    r.seller ∈ env.auths ∧
    (∃ s', verifyCommitment env r.ipId secret blindingFactor s = .ok (true, s')) ∧
    revealKey env i r.seller secret blindingFactor s = .error (.contract .notAllSigned) := by
  have hcalls : ∃ s₁ s₂ s₃ s₄ r,
      exec (env [] 0) (.initializeContract registry) (State.empty funds) = .ok ((), s₁) ∧
      exec (env [seller] 1) (.initiateSwapWithSigners token 1 seller 1000 buyer [seller, seller])
        s₁ = .ok ((), s₂) ∧
      exec (env [buyer] 2) (.acceptSwap 0) s₂ = .ok ((), s₃) ∧
      exec (env [seller] 3) (.signSwapReveal 0 seller) s₃ = .ok ((), s₄) ∧
      s₁.swap 0 = none ∧ (s₂.swap 0).isSome ∧ s₄.swap 0 = some r ∧ r.status = .accepted ∧
      r.seller = seller ∧
      (∃ s', verifyCommitment (env [seller] 5) r.ipId secret secret s₄ = .ok (true, s')) ∧
      revealKey (env [seller] 5) 0 r.seller secret secret s₄ = .error (.contract .notAllSigned) :=
    ⟨_, _, _, _, _, rfl, rfl, rfl, rfl, rfl, rfl, rfl, rfl, rfl, ⟨_, rfl⟩, rfl⟩
  obtain ⟨s₁, s₂, s₃, s₄, r, h₁, h₂, h₃, h₄, hnone, hsome, hr, hfrom, hseller, hvalid, hblocked⟩ :=
    hcalls
  have hrun := (((Run.start.next (ActStep.call h₁)).next (ActStep.call h₂)).next
    (ActStep.call h₃)).next (ActStep.call h₄)
  refine ⟨funds, _, s₄, 0, [seller, seller], r, env [seller] 5, secret, secret, hrun, ?_, hr, hfrom,
    fun a ha => ?_, by simp [hseller, env], hvalid, hblocked⟩
  · exact happened_cons.mpr (.inr (happened_cons.mpr (.inr (happened_cons.mpr
      (.inl ⟨⟨_, _, _, _, _, rfl⟩, hnone, hsome⟩)))))
  · obtain rfl : a = seller := by simpa using ha
    exact happened_cons.mpr (.inl ⟨rfl, by simp [env]⟩)

end Sales

end AtomicIp.AtomicSwap
