import AtomicIp.Swap.Transitions

/-!
Settlement authority: whose authorisation a change of status or a payout needs. Expired
swaps are cancelled, and disputes arbitrated, on anybody's call.
-/

set_option autoImplicit false

namespace AtomicIp.AtomicSwap

open Function

def Authorised (env : Env) (s : State) (r : SwapRecord) : Prop :=
  r.seller ∈ env.auths ∨ r.buyer ∈ env.auths ∨ ∃ admin ∈ env.auths, s.admin = some admin

/-- One of the two calls that need nobody, after its timeout. -/
def TimedOut (s : State) (act : Act) (i : ℕ) (r : SwapRecord) : Prop :=
  (act.call = some (.autoResolveDispute i) ∧
    protocolConfig.disputeTimeoutSecs ≤ act.env.timestamp - r.disputeTimestamp) ∨
  (act.call = some (.autoRefundTimeout i) ∧ ∃ requested, s.arbitrationTimestamp i = some requested ∧
    protocolConfig.arbitrationTimeoutSeconds ≤ act.env.timestamp - requested)

/-- A call changes the status of the swap or pays out on account of it. -/
def Settles (s s' : State) (i : ℕ) (r : SwapRecord) : Prop :=
  (∃ r', s'.swap i = some r' ∧ r'.status ≠ r.status) ∨ PaysOut s s' i

/-- The three calls that ask for no authorisation of a party are made with one. -/
def AsksParties (s : State) (env : Env) : Call → Prop
  | .cancelExpiredSwap i _ | .arbitrateSwap i _ _ =>
      ∀ r, s.swap i = some r → Authorised env s r
  | .batchArbitrateSwaps ids _ _ => ∀ i ∈ ids, ∀ r, s.swap i = some r → Authorised env s r
  | _ => True

section Step

variable {s s' : State} {env : Env} {act : Act} {i : ℕ} {r r₁ : SwapRecord} {c₁ : Escrow}
  {m : Move} {q : SwapStatus} {u : Unit}

theorem autoResolveDispute_timeout (h : autoResolveDispute env i s = .ok (u, s'))
    (hr : s.swap i = some r) :
    protocolConfig.disputeTimeoutSecs ≤ env.timestamp - r.disputeTimestamp := by
  obtain ⟨r₁, hr₁, -, hdue, -⟩ := autoResolveDispute_due h
  obtain rfl := Option.some.inj (hr.symm.trans hr₁)
  exact hdue

theorem autoRefundTimeout_timeout (h : autoRefundTimeout env i s = .ok (u, s')) :
    ∃ requested, s.arbitrationTimestamp i = some requested ∧
      protocolConfig.arbitrationTimeoutSeconds ≤ env.timestamp - requested := by
  obtain ⟨r, requested, -, -, hrequested, hdue, -⟩ := autoRefundTimeout_due h
  exact ⟨requested, hrequested, hdue⟩

theorem ActStep.timedOut (hact : ActStep s act s') (hr : s.swap i = some r)
    (hcall : act.call = some (.autoResolveDispute i) ∨ act.call = some (.autoRefundTimeout i)) :
    TimedOut s act i r := by
  obtain ⟨env, call⟩ := act
  rcases hcall with hcall | hcall <;> simp only at hcall <;> subst hcall <;> cases hact with
  | call hexec => ?_
  · exact .inl ⟨rfl, autoResolveDispute_timeout hexec hr⟩
  · exact .inr ⟨rfl, autoRefundTimeout_timeout hexec⟩

theorem Touches.authorised (h : Touches s.escrow act i r m c₁ r₁) (hact : ActStep s act s')
    (hcond : OnCalls AsksParties s act) (haims : m.aims = some q) :
    Authorised act.env s r ∨ TimedOut s act i r := by
  obtain ⟨call, hcall, hyields⟩ :=
    Act.yields_call h.yields (by rintro rfl; simp [Move.aims] at haims)
  have hseller : r₁.seller = r.seller := congrArg Terms.seller h.terms
  have hbuyer : r₁.buyer = r.buyer := congrArg Terms.buyer h.terms
  have hby_seller : r₁.seller ∈ act.env.auths → Authorised act.env s r :=
    fun hauth => .inl (hseller ▸ hauth)
  have hby_buyer : r₁.buyer ∈ act.env.auths → Authorised act.env s r :=
    fun hauth => .inr (.inl (hbuyer ▸ hauth))
  have hby_admin : (∃ admin ∈ act.env.auths, c₁.admin = some admin) → Authorised act.env s r := by
    intro hadmin
    rw [h.admin] at hadmin
    exact .inr (.inr hadmin)
  have hguard := h.guard
  cases hguard with
  | accepted _ hauth => exact .inl (hby_buyer hauth)
  | installment _ _ hauth => exact .inl (hby_buyer hauth)
  | scheduled _ hauth => exact .inl (hby_buyer hauth)
  | offered _ hauth => exact .inl (hby_seller hauth)
  | amended _ hauth => exact .inl (hauth.elim hby_seller hby_buyer)
  | disputed _ hauth => exact .inl (hby_buyer hauth)
  | cancelled _ hauth => exact .inl (hauth.elim hby_seller hby_buyer)
  | withdrawn _ hauth => exact .inl (hby_buyer hauth)
  | rolledBack _ hauth => exact .inl (hby_buyer hauth)
  | adminRolledBack _ hauth => exact .inl (hby_admin hauth)
  | claimed _ hauth => exact .inl (hby_buyer hauth)
  | released w hw =>
    cases w with
    | key => exact .inl (hby_seller hw.2.1)
    | batchKey => exact .inl (hby_seller hw.2.1)
    | ruling => exact .inl (hby_admin hw.2)
    | batchArbitration =>
      obtain ⟨ids, a, hi, rfl⟩ := Call.yields_source hyields
      exact .inl (hcond _ hcall i hi r h.before)
    | arbitration =>
      obtain ⟨a, rfl⟩ := Call.yields_source hyields
      exact .inl (hcond _ hcall r h.before)
    | _ => exact hw.elim
  | refunded w hw =>
    rcases Call.yields_refunded hyields with rfl | rfl | ⟨rfl, ids, a, hi, rfl⟩ | ⟨rfl, a, rfl⟩ |
      ⟨rfl, caller, rfl⟩ | ⟨rfl, rfl | rfl⟩
    · exact .inl (hby_seller hw.2)
    · exact .inl (hby_admin hw.2)
    · exact .inl (hcond _ hcall i hi r h.before)
    · exact .inl (hcond _ hcall r h.before)
    · exact .inl (hcond _ hcall r h.before)
    · exact .inr (hact.timedOut h.before (.inl hcall))
    · exact .inr (hact.timedOut h.before (.inr hcall))

theorem ActStep.authorised (hact : ActStep s act s') (hwf : Wf s.escrow)
    (hcond : OnCalls AsksParties s act) (hr : s.swap i = some r) (hsettles : Settles s s' i r) :
    Authorised act.env s r ∨ TimedOut s act i r := by
  rcases hsettles with ⟨r', hr', hne⟩ | ⟨x, hx, href, hsrc, hdst⟩
  · obtain ⟨r₂, hr₂, -, hst⟩ := hact.keeps hwf hr
    obtain rfl := Option.some.inj (hr'.symm.trans hr₂)
    obtain ⟨m, c₁, r₁, htouches, haims, -⟩ := hst.resolve_left hne
    exact htouches.authorised hact hcond haims
  · cases hact.transfers hwf x hx with
    | funding _ _ _ _ hdst' => exact absurd hdst' hdst
    | bidding j href' => simp [href', Purpose.swap?] at href
    | payout j r₀ m c₁ r₁ q h haims _ _ href' _ =>
      obtain rfl := Option.some.inj (href.symm.trans href')
      obtain rfl := Option.some.inj (hr.symm.trans h.before)
      exact h.authorised hact hcond haims

end Step

/-- The authority law, over runs in which the three calls are made with a party or the
admin. -/
theorem settlements_authorised {balance : Address → Address → ℤ} {tr : List (Act × State)}
    {s : State}
    (hrun : Run (Restrict ActStep (OnCalls AsksParties)) (State.empty balance) tr s) :
    ∀ past s₁ act s₂, (past, s₁, act, s₂) ∈ steps (State.empty balance) tr →
      ∀ i r, s₁.swap i = some r → Settles s₁ s₂ i r →
        Authorised act.env s₁ r ∨ TimedOut s₁ act i r := by
  refine (hrun.forall_steps (I := fun _ s => Wf s.escrow) (.empty balance) ?_).2
  intro past s₁ act s₂ hwf hact
  refine ⟨hact.1.wf hwf, ?_⟩
  intro i r hr hsettles
  exact hact.1.authorised hwf hact.2 hr hsettles

section Runs

open Scenario

theorem sale_authorised : ∃ (tr : List (Act × State)) (s₁ s₂ : State) (r : SwapRecord),
    Run (Restrict ActStep (OnCalls AsksParties)) (State.empty funds) tr s₂ ∧
    s₁.swap 0 = some r ∧ Settles s₁ s₂ 0 r ∧ Authorised (env [seller] 3) s₁ r := by
  obtain ⟨tr, s₁, s₂, hrun, hexec, hseen⟩ := watched (OnCalls AsksParties) funds sale
    (env [seller] 3) (.revealKey 0 seller secret secret) (seenMoving 0 .accepted .completed)
    (by decide) (by simp [sale, offer, OnCalls, AsksParties])
  obtain ⟨r, r', hr, hr', hq, hq'⟩ := moves_of_seen hseen
  have hrun' := hrun.next (k := ⟨env [seller] 3, some (.revealKey 0 seller secret secret)⟩)
    ⟨.call hexec, by simp [OnCalls, AsksParties]⟩
  have hsettles : Settles s₁ s₂ 0 r := .inl ⟨r', hr', by simp [hq, hq']⟩
  have hlaw := settlements_authorised hrun' _ _ _ _ hrun.mem_steps_last 0 r hr hsettles
  exact ⟨_, s₁, s₂, r, hrun', hr, hsettles, hlaw.resolve_right (by simp [TimedOut])⟩

/-- After the expiry nobody needs to authorise the refund of an accepted swap. -/
theorem expired_swap_refunded : ∃ balance tr s past s₁ act s₂ i r,
    Run (Restrict ActStep Always) (State.empty balance) tr s ∧
    (past, s₁, act, s₂) ∈ steps (State.empty balance) tr ∧ s₁.swap i = some r ∧
    Settles s₁ s₂ i r ∧ ¬ (Authorised act.env s₁ r ∨ TimedOut s₁ act i r) := by
  obtain ⟨tr, s₁, s₂, hrun, hexec, hseen⟩ := watched Always funds sale (env [] 604802)
    (.cancelExpiredSwap 0 buyer) (seenMoving 0 .accepted .cancelled) (by decide) (by simp [Always])
  obtain ⟨r, r', hr, hr', hq, hq'⟩ := moves_of_seen hseen
  refine ⟨funds, _, s₂, tr, s₁, ⟨env [] 604802, some (.cancelExpiredSwap 0 buyer)⟩, s₂, 0, r,
    hrun.next ⟨.call hexec, trivial⟩, hrun.mem_steps_last, hr,
    .inl ⟨r', hr', by simp [hq, hq']⟩, ?_⟩
  simp [Authorised, TimedOut, env]

end Runs

end AtomicIp.AtomicSwap
