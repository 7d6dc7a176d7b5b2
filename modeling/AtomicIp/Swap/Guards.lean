import AtomicIp.Swap.Records

set_option autoImplicit false

namespace AtomicIp.AtomicSwap

open Function

/-- The status a swap must have and the word it takes to move it. -/
inductive Guard (env : Env) (c : Escrow) (i : ℕ) (r : SwapRecord) : Move → Prop where
  | accepted (hfrom : r.status = .pending ∨ r.status = .accepted)
      (hauth : r.buyer ∈ env.auths) : Guard env c i r (.accepted i)
  | installment (last : Bool) (hfrom : r.status = .pending) (hauth : r.buyer ∈ env.auths) :
      Guard env c i r (.installment i last)
  | scheduled (last : Bool) (hauth : r.buyer ∈ env.auths) : Guard env c i r (.scheduled i last)
  | offered (hfrom : r.status = .pending) (hauth : r.seller ∈ env.auths) :
      Guard env c i r (.offered i)
  | amended (hfrom : r.status = .pending) (hauth : r.seller ∈ env.auths ∨ r.buyer ∈ env.auths) :
      Guard env c i r (.amended i)
  | disputed (hfrom : r.status = .accepted) (hauth : r.buyer ∈ env.auths) :
      Guard env c i r (.disputed i)
  | cancelled (hfrom : r.status = .pending)
      (hauth : r.seller ∈ env.auths ∨ r.buyer ∈ env.auths) : Guard env c i r (.cancelled i)
  | released (w : Warrant) (hw : Releases env c i r w) : Guard env c i r (.released i w)
  | refunded (w : Warrant) (hw : Refunds env c r w) : Guard env c i r (.refunded i w)
  | withdrawn (hfrom : r.status = .accepted) (hauth : r.buyer ∈ env.auths) :
      Guard env c i r (.withdrawn i)
  | rolledBack (hfrom : r.status = .completed) (hauth : r.buyer ∈ env.auths) :
      Guard env c i r (.rolledBack i)
  | adminRolledBack (hfrom : r.status ≠ .completed)
      (hauth : ∃ admin ∈ env.auths, c.admin = some admin) : Guard env c i r (.adminRolledBack i)
  | claimed (hclaim : (c.insuranceClaimable i).isSome) (hauth : r.buyer ∈ env.auths) :
      Guard env c i r (.claimed i)

/-- Whom a move about the swap `r` pays out of the escrow. -/
def Move.Pays (r : SwapRecord) : Move → Address → Prop
  | .released _ _, a => r.Payee a
  | .refunded _ _, a | .withdrawn _, a | .claimed _, a => a = r.buyer
  | .rolledBack _, a => a = r.buyer ∨ a = protocolConfig.treasury
  | .adminRolledBack _, a => a = r.buyer ∧ (r.status = .accepted ∨ r.status = .disputed)
  | _, _ => False

/-- The transfers of a move: payments of buyers into the escrow, bids and their refunds,
and payouts on account of the swap the move is about. -/
inductive Moves (c : Escrow) (m : Move) (x : TokenTransfer) : Prop where
  | funding (i : ℕ) (r : SwapRecord) (hr : c.swap i = some r) (hsrc : x.src = r.buyer)
      (hdst : x.dst = currentContractAddress) (href : x.ref.swap? = some i)
  | bidding (j : ℕ) (href : x.ref = .bid j)
  | payout (i : ℕ) (r : SwapRecord) (hr : c.swap i = some r) (hm : m.swap? = some i)
      (hsrc : x.src = currentContractAddress) (href : x.ref.swap? = some i)
      (hdst : m.Pays r x.dst)

def Call.Presents : Call → Key → Prop
  | .revealKey _ _ secret blindingFactor, k => k = ⟨secret, blindingFactor⟩
  | .verifyAndCompleteSwap _ _ secret blindingFactor, k => k = ⟨secret, blindingFactor⟩
  | .batchRevealKeys _ secrets blindingFactors _, k =>
      k ∈ List.zipWith Key.mk secrets blindingFactors
  | _, _ => False

def Call.Accepts : Call → ℕ → Prop
  | .acceptSwap j, i | .acceptSwapConditional j _, i | .acceptSwapPartial j _, i
  | .escrowDeposit j, i | .makeScheduledPayment j _, i | .submitInstallmentPayment j _, i => j = i
  | .batchAcceptSwaps ids _, i | .batchEscrowDeposit ids _, i => i ∈ ids
  | _, _ => False

/-- The calls that settle the swap `i` in favour of the seller on the warrant. -/
def Warrant.ReleaseCall (i : ℕ) : Warrant → Call → Prop
  | .key k, call => ∃ caller, call = .revealKey i caller k.secret k.blindingFactor ∨
      call = .verifyAndCompleteSwap i caller k.secret k.blindingFactor
  | .batchKey k, call => ∃ ids secrets blindingFactors seller, i ∈ ids ∧
      k ∈ List.zipWith Key.mk secrets blindingFactors ∧
      call = .batchRevealKeys ids secrets blindingFactors seller
  | .ruling, call => ∃ caller, call = .resolveDispute i caller false
  | .arbitration, call => ∃ arbitrator, call = .arbitrateSwap i arbitrator false
  | .batchArbitration, call => ∃ ids arbitrator, i ∈ ids ∧
      call = .batchArbitrateSwaps ids arbitrator false
  | _, _ => False

/-- The calls that pay the buyer of the swap `i` back on the warrant. -/
def Warrant.RefundCall (i : ℕ) : Warrant → Call → Prop
  | .refusedKey, call => ∃ caller secret blindingFactor,
      call = .verifyAndCompleteSwap i caller secret blindingFactor
  | .ruling, call => ∃ caller, call = .resolveDispute i caller true
  | .arbitration, call => ∃ arbitrator, call = .arbitrateSwap i arbitrator true
  | .batchArbitration, call => ∃ ids arbitrator, i ∈ ids ∧
      call = .batchArbitrateSwaps ids arbitrator true
  | .expiry, call => ∃ caller, call = .cancelExpiredSwap i caller
  | .timeout, call => call = .autoResolveDispute i ∨ call = .autoRefundTimeout i
  | _, _ => False

def Move.Source : Move → Call → Prop
  | .configured, call => (∃ a, call = .initializeContract a) ∨ ∃ a, call = .setAdmin a
  | .accepted i, call => call.Accepts i
  | .installment i _, call => ∃ amount, call = .submitInstallmentPayment i amount
  | .scheduled i _, call => ∃ index, call = .makeScheduledPayment i index
  | .offered i, call => ∃ price, call = .renegotiateSwap i price
  | .amended i, call => call = .acceptRenegotiation i ∨ ∃ expiry, call = .extendSwapExpiry i expiry
  | .released i w, call => w.ReleaseCall i call
  | .refunded i w, call => w.RefundCall i call
  | .rolledBack i, call => call = .validateAndRollbackSwap i false
  | .adminRolledBack i, call => (∃ caller reason, call = .adminRollbackSwap i caller reason) ∨
      ∃ ids caller reason, i ∈ ids ∧ call = .batchRollbackSwaps ids caller reason
  | .auctionStarted a, call => ∃ token minBid duration,
      call = .startIpAuction token a.ipId a.seller minBid duration
  | .bid j bidder, call => ∃ amount, call = .placeBid j bidder amount
  | .finalized j, call => call = .finalizeAuction j
  | _, _ => True

section Yields

variable {call : Call} {m : Move} {i : ℕ} {w : Warrant} {last : Bool}

theorem Call.yields_source (h : call.yields m) : m.Source call := by
  cases call with
  | initializeContract a =>
    obtain rfl := h
    exact .inl ⟨a, rfl⟩
  | setAdmin a =>
    obtain rfl := h
    exact .inr ⟨a, rfl⟩
  | initiateSwap | initiateSwapWithOraclePrice | batchInitiateSwap | batchInitiateSwapWithInsurance
  | initiateSwapWithSchedule | initiateEscrowSwap | batchInitiateEscrow | initiateSwapWithSigners =>
    obtain ⟨r, rfl, -⟩ := h
    trivial
  | acceptSwap | acceptSwapConditional | acceptSwapPartial | escrowDeposit =>
    obtain rfl := h
    exact rfl
  | batchAcceptSwaps | batchEscrowDeposit =>
    obtain ⟨i, hi, rfl⟩ := h
    exact hi
  | makeScheduledPayment i index =>
    obtain ⟨last, rfl⟩ := h
    exact ⟨index, rfl⟩
  | submitInstallmentPayment i amount =>
    obtain ⟨last, rfl⟩ := h
    exact ⟨amount, rfl⟩
  | renegotiateSwap i price =>
    obtain rfl := h
    exact ⟨price, rfl⟩
  | acceptRenegotiation =>
    obtain rfl := h
    exact .inl rfl
  | extendSwapExpiry i expiry =>
    obtain rfl := h
    exact .inr ⟨expiry, rfl⟩
  | revealKey i caller =>
    obtain rfl := h
    exact ⟨caller, .inl rfl⟩
  | verifyAndCompleteSwap i caller secret blindingFactor =>
    rcases h with rfl | rfl
    · exact ⟨caller, .inr rfl⟩
    · exact ⟨caller, secret, blindingFactor, rfl⟩
  | batchRevealKeys ids secrets blindingFactors seller =>
    obtain ⟨i, hi, k, hk, rfl⟩ := h
    exact ⟨ids, secrets, blindingFactors, seller, hi, hk, rfl⟩
  | resolveDispute i a refund | arbitrateSwap i a refund =>
    obtain rfl := h
    cases refund with
    | true => exact ⟨a, rfl⟩
    | false => exact ⟨a, rfl⟩
  | batchArbitrateSwaps ids a refund =>
    obtain ⟨i, hi, rfl⟩ := h
    cases refund with
    | true => exact ⟨ids, a, hi, rfl⟩
    | false => exact ⟨ids, a, hi, rfl⟩
  | autoResolveDispute =>
    obtain rfl := h
    exact .inl rfl
  | autoRefundTimeout =>
    obtain rfl := h
    exact .inr rfl
  | cancelExpiredSwap i caller =>
    obtain rfl := h
    exact ⟨caller, rfl⟩
  | validateAndRollbackSwap =>
    obtain ⟨rfl, rfl⟩ := h
    rfl
  | adminRollbackSwap i caller reason =>
    obtain rfl := h
    exact .inl ⟨caller, reason, rfl⟩
  | batchRollbackSwaps ids caller reason =>
    obtain ⟨i, hi, rfl⟩ := h
    exact .inr ⟨ids, caller, reason, hi, rfl⟩
  | startIpAuction token ipId seller minBid duration =>
    obtain ⟨a, rfl, rfl, rfl⟩ := h
    exact ⟨token, minBid, duration, rfl⟩
  | placeBid j bidder amount =>
    obtain rfl := h
    exact ⟨amount, rfl⟩
  | raiseDispute | cancelSwap | cancelPendingSwap | escrowWithdraw | claimInsurance
  | finalizeAuction =>
    obtain rfl := h
    trivial
  | batchCancelSwaps =>
    obtain ⟨i, -, rfl⟩ := h
    trivial
  | _ => exact h.elim

theorem Call.yields_released (h : call.yields (.released i w)) :
    (∃ k, (w = .key k ∨ w = .batchKey k) ∧ call.Presents k) ∨
    (w = .ruling ∧ ∃ caller, call = .resolveDispute i caller false) ∨
    (w = .arbitration ∧ ∃ a, call = .arbitrateSwap i a false) ∨
    (w = .batchArbitration ∧ ∃ ids a, i ∈ ids ∧ call = .batchArbitrateSwaps ids a false) := by
  have hsource := Call.yields_source h
  cases w with
  | key k =>
    obtain ⟨caller, rfl | rfl⟩ := hsource
    · exact .inl ⟨k, .inl rfl, rfl⟩
    · exact .inl ⟨k, .inl rfl, rfl⟩
  | batchKey k =>
    obtain ⟨ids, secrets, blindingFactors, seller, -, hk, rfl⟩ := hsource
    exact .inl ⟨k, .inr rfl, hk⟩
  | ruling => exact .inr (.inl ⟨rfl, hsource⟩)
  | arbitration => exact .inr (.inr (.inl ⟨rfl, hsource⟩))
  | batchArbitration => exact .inr (.inr (.inr ⟨rfl, hsource⟩))
  | _ => exact hsource.elim

theorem Call.yields_refunded (h : call.yields (.refunded i w)) :
    w = .refusedKey ∨ w = .ruling ∨
    (w = .batchArbitration ∧ ∃ ids a, i ∈ ids ∧ call = .batchArbitrateSwaps ids a true) ∨
    (w = .arbitration ∧ ∃ a, call = .arbitrateSwap i a true) ∨
    (w = .expiry ∧ ∃ caller, call = .cancelExpiredSwap i caller) ∨
    (w = .timeout ∧ (call = .autoResolveDispute i ∨ call = .autoRefundTimeout i)) := by
  have hsource := Call.yields_source h
  cases w with
  | refusedKey => exact .inl rfl
  | ruling => exact .inr (.inl rfl)
  | batchArbitration => exact .inr (.inr (.inl ⟨rfl, hsource⟩))
  | arbitration => exact .inr (.inr (.inr (.inl ⟨rfl, hsource⟩)))
  | expiry => exact .inr (.inr (.inr (.inr (.inl ⟨rfl, hsource⟩))))
  | timeout => exact .inr (.inr (.inr (.inr (.inr ⟨rfl, hsource⟩))))
  | _ => exact hsource.elim

theorem Act.yields_call {act : Act} {m : Move} (h : act.yields m) (hm : m ≠ .received) :
    ∃ call, act.call = some call ∧ call.yields m := by
  cases hcall : act.call with
  | none =>
    simp [Act.yields, hcall] at h
    exact absurd h hm
  | some call =>
    simp only [Act.yields, hcall] at h
    exact ⟨call, rfl, h⟩

end Yields

section Step

variable {env : Env} {c c' : Escrow} {m : Move} {i : ℕ} {r : SwapRecord}

theorem Step.guard (hstep : Step env c m c') (hm : m.swap? = some i) :
    ∃ r, c.swap i = some r ∧ Guard env c i r m := by
  cases hstep with
  | configured | received | initiated | auctionStarted | bid | unsold | sold =>
    simp [Move.swap?] at hm
  | accepted r' _ _ _ hr hfrom hauth =>
    obtain rfl := Option.some.inj hm
    exact ⟨_, hr, .accepted hfrom hauth⟩
  | installment r' last hr hfrom hauth =>
    obtain rfl := Option.some.inj hm
    exact ⟨_, hr, .installment last hfrom hauth⟩
  | scheduled r' last hr hauth =>
    obtain rfl := Option.some.inj hm
    exact ⟨_, hr, .scheduled last hauth⟩
  | offered hr hfrom hauth =>
    obtain rfl := Option.some.inj hm
    exact ⟨_, hr, .offered hfrom hauth⟩
  | repriced hr hfrom hauth =>
    obtain rfl := Option.some.inj hm
    exact ⟨_, hr, .amended hfrom (.inr hauth)⟩
  | extended _ hr hfrom hauth =>
    obtain rfl := Option.some.inj hm
    exact ⟨_, hr, .amended hfrom (.inl hauth)⟩
  | disputed hr hfrom hauth =>
    obtain rfl := Option.some.inj hm
    exact ⟨_, hr, .disputed hfrom hauth⟩
  | cancelled hr hfrom hauth =>
    obtain rfl := Option.some.inj hm
    exact ⟨_, hr, .cancelled hfrom hauth⟩
  | released hr hw =>
    obtain rfl := Option.some.inj hm
    exact ⟨_, hr, .released _ hw⟩
  | refunded hr hw =>
    obtain rfl := Option.some.inj hm
    exact ⟨_, hr, .refunded _ hw⟩
  | withdrawn hr hfrom hauth =>
    obtain rfl := Option.some.inj hm
    exact ⟨_, hr, .withdrawn hfrom hauth⟩
  | rolledBack hr hfrom hauth =>
    obtain rfl := Option.some.inj hm
    exact ⟨_, hr, .rolledBack hfrom hauth⟩
  | adminRolledBack hr hfrom hauth =>
    obtain rfl := Option.some.inj hm
    exact ⟨_, hr, .adminRolledBack hfrom hauth⟩
  | claimed hr hauth hclaim =>
    obtain rfl := Option.some.inj hm
    exact ⟨_, hr, .claimed hclaim hauth⟩

theorem funding_moves {price : ℤ} {deposits premium : Bool} (hr : c.swap i = some r) :
    ∀ x ∈ funding i r price deposits premium, Moves c m x := by
  intro x hx
  refine .funding i r hr ?_ ?_ ?_ <;> revert x <;> cases deposits <;> cases premium <;>
    simp [funding, depositOf, premiumOf, priceOf, Purpose.swap?]

theorem PaidFor.moves {P : Address → Prop} {total : ℤ} {ms : List TokenTransfer}
    (h : PaidFor i r P total ms) (hr : c.swap i = some r) (hm : m.swap? = some i)
    (hP : ∀ a, P a → m.Pays r a) : ∀ x ∈ ms, Moves c m x := by
  intro x hx
  obtain ⟨-, hsrc, href, -⟩ := h.escrowed x hx
  exact .payout i r hr hm hsrc href (hP _ (h.recipient x hx))

theorem Step.moves (hstep : Step env c m c') :
    ∃ ms, c'.transfers = c.transfers ++ ms ∧ ∀ x ∈ ms, Moves c m x := by
  cases hstep with
  | accepted r' _ _ _ hr => exact ⟨_, rfl, funding_moves hr⟩
  | installment r' last hr =>
    exact ⟨_, rfl, by simpa using Moves.funding _ _ hr rfl rfl rfl⟩
  | scheduled r' last hr =>
    exact ⟨_, rfl, by simpa using Moves.funding _ _ hr rfl rfl rfl⟩
  | released hr hw hpaid => exact ⟨_, rfl, hpaid.moves hr rfl fun _ h => h⟩
  | refunded hr hw hpaid => exact ⟨_, rfl, hpaid.moves hr rfl fun _ h => h⟩
  | withdrawn hr hfrom hauth hpaid => exact ⟨_, rfl, hpaid.moves hr rfl fun _ h => h⟩
  | rolledBack hr hfrom hauth hpaid => exact ⟨_, rfl, hpaid.moves hr rfl fun _ h => h⟩
  | @adminRolledBack i r returned total ms hr hfrom hauth hpaid hfunded =>
    refine ⟨ms, rfl, ?_⟩
    by_cases hst : r.status = .accepted ∨ r.status = .disputed
    · exact hpaid.moves hr rfl fun _ h => ⟨h, hst⟩
    · rw [if_neg hst] at hfunded
      simp [hfunded.2.2]
  | claimed hr =>
    refine ⟨_, rfl, ?_⟩
    intro x hx
    obtain rfl := List.mem_singleton.mp hx
    exact .payout _ _ hr rfl rfl rfl rfl
  | @bid i a bidder amount =>
    refine ⟨_, rfl, ?_⟩
    intro x hx
    refine .bidding i ?_
    unfold AuctionRecord.refund at hx
    cases hbidder : a.highestBidder with
    | none =>
      simp [hbidder] at hx
      rw [hx]
    | some old =>
      simp [hbidder] at hx
      rcases hx with rfl | rfl <;> rfl
  | _ => exact ⟨[], by simp [Escrow.enlist, Escrow.setActiveSwap, Escrow.setSwap, Escrow.close,
      Escrow.setAuction, Escrow.setActiveAuction, Escrow.setSwapRenegotiations, Escrow.setAdmin,
      Escrow.setIpRegistry, Escrow.setNextId, Escrow.setNextAuctionId], by simp⟩

theorem Step.configuration (hstep : Step env c m c') (hm : m ≠ .configured) :
    c'.admin = c.admin ∧ c'.ipRegistry = c.ipRegistry := by
  cases hstep with
  | configured => exact absurd rfl hm
  | _ => exact ⟨rfl, rfl⟩

end Step

/-- A move a call makes about the swap `i`, seen from before the call. -/
structure Touches (c : Escrow) (act : Act) (i : ℕ) (r : SwapRecord) (m : Move) (c₁ : Escrow)
    (r₁ : SwapRecord) : Prop where
  yields : act.yields m
  before : c.swap i = some r
  terms : r₁.terms = r.terms
  admin : c₁.admin = c.admin
  ipRegistry : c₁.ipRegistry = c.ipRegistry
  guard : Guard act.env c₁ i r₁ m

/-- The call moves the swap from the status it had before the call to `q`. -/
def MovedTo (c : Escrow) (act : Act) (i : ℕ) (r : SwapRecord) (q : SwapStatus) : Prop :=
  ∃ m c₁ r₁, Touches c act i r m c₁ r₁ ∧ m.aims = some q ∧ r₁.status = r.status

/-- The status of a record in a call that aims at `o`, seen from before the call. -/
def StatusAlong (c : Escrow) (act : Act) (o : Option SwapStatus) (i : ℕ)
    (r r₁ : SwapRecord) : Prop :=
  r₁.status = r.status ∨ o = some r₁.status ∧ MovedTo c act i r r₁.status

/-- The escrow in the middle of a call whose moves aim at `o`, seen from before the call. -/
structure Along (act : Act) (o : Option SwapStatus) (c c₁ : Escrow) : Prop where
  wf : Wf c₁
  configured : o.isSome → c₁.admin = c.admin ∧ c₁.ipRegistry = c.ipRegistry
  absent : o.isSome → ∀ i, c.swap i = none → c₁.swap i = none
  present : ∀ i r, c.swap i = some r →
    ∃ r₁, c₁.swap i = some r₁ ∧ r₁.terms = r.terms ∧ StatusAlong c act o i r r₁

/-- The transfers of a call, seen from before and after it. -/
inductive Transfers (c c' : Escrow) (act : Act) (x : TokenTransfer) : Prop where
  | funding (i : ℕ) (r : SwapRecord) (hr : c'.swap i = some r) (hsrc : x.src = r.buyer)
      (hdst : x.dst = currentContractAddress) (href : x.ref.swap? = some i)
  | bidding (j : ℕ) (href : x.ref = .bid j)
  | payout (i : ℕ) (r : SwapRecord) (m : Move) (c₁ : Escrow) (r₁ : SwapRecord) (q : SwapStatus)
      (h : Touches c act i r m c₁ r₁) (haims : m.aims = some q)
      (hst : StatusAlong c act (some q) i r r₁)
      (hsrc : x.src = currentContractAddress) (href : x.ref.swap? = some i)
      (hdst : m.Pays r₁ x.dst)

section Call

variable {act : Act} {c c₁ c₂ c' : Escrow} {m : Move} {as : List Move}
  {o : Option SwapStatus} {q : SwapStatus} {i : ℕ} {r r₁ : SwapRecord}

theorem StatusAlong.same (h : StatusAlong c act (some q) i r r₁) (hne : r₁.status ≠ q) :
    r₁.status = r.status := by
  rcases h with hst | ⟨hq, -⟩
  · exact hst
  · exact absurd (Option.some.inj hq).symm hne

theorem Move.Pays.aims {a : Address} (h : m.Pays r a) (hclaim : ∀ i, m ≠ .claimed i) :
    ∃ q, m.aims = some q := by
  cases m with
  | released => exact ⟨_, rfl⟩
  | refunded => exact ⟨_, rfl⟩
  | withdrawn => exact ⟨_, rfl⟩
  | rolledBack => exact ⟨_, rfl⟩
  | adminRolledBack => exact ⟨_, rfl⟩
  | claimed i => exact absurd rfl (hclaim i)
  | _ => exact h.elim

theorem Guard.not_claimed {env : Env} (h : Guard env c i r m) (hwf : Wf c) (j : ℕ) :
    m ≠ .claimed j := by
  cases h with
  | claimed hclaim => simp [hwf.claimable] at hclaim
  | _ => simp

namespace Along

theorem refl (hwf : Wf c) : Along act o c c :=
  ⟨hwf, fun _ => ⟨rfl, rfl⟩, fun _ _ h => h, fun _ r hr => ⟨r, hr, rfl, .inl rfl⟩⟩

theorem touches (h : Along act o c c₁) (hyields : act.yields m) (ho : o.isSome)
    (hr₁ : c₁.swap i = some r₁) (hguard : Guard act.env c₁ i r₁ m) :
    ∃ r, Touches c act i r m c₁ r₁ ∧ StatusAlong c act o i r r₁ := by
  obtain ⟨hadmin, hregistry⟩ := h.configured ho
  cases hr : c.swap i with
  | none => simp [h.absent ho i hr] at hr₁
  | some r =>
    obtain ⟨r₂, hr₂, hterms, hst⟩ := h.present i r hr
    obtain rfl := Option.some.inj (hr₁.symm.trans hr₂)
    exact ⟨r, ⟨hyields, hr, hterms, hadmin, hregistry, hguard⟩, hst⟩

theorem step (h : Along act o c c₁) (hstep : Step act.env c₁ m c₂) (hyields : act.yields m)
    (hm : m.aims = o) : Along act o c c₂ where
  wf := hstep.wf h.wf
  configured ho := by
    have hne : m ≠ .configured := by
      intro e
      simp [← hm, e, Move.aims] at ho
    obtain ⟨hadmin, hregistry⟩ := hstep.configuration hne
    obtain ⟨hadmin₁, hregistry₁⟩ := h.configured ho
    exact ⟨hadmin.trans hadmin₁, hregistry.trans hregistry₁⟩
  absent ho j hj := by
    have hj₁ := h.absent ho j hj
    cases hstep.rewrites with
    | same hswap => rw [hswap, hj₁]
    | moved k r₁ r' _ hr₁ hswap =>
      have hjk : j ≠ k := by
        intro e
        simp [e ▸ hj₁] at hr₁
      rw [hswap, if_neg hjk, hj₁]
    | added r' haims => simp [← hm, haims] at ho
  present j r hr := by
    obtain ⟨r₁, hr₁, hterms, hst⟩ := h.present j r hr
    obtain ⟨r₂, hr₂, ⟨rfl, -⟩ | ⟨habout, hmoved⟩⟩ := hstep.keeps h.wf hr₁
    · exact ⟨r₂, hr₂, hterms, hst⟩
    · refine ⟨r₂, hr₂, hmoved.terms.trans hterms, ?_⟩
      cases o with
      | none =>
        have hsame : r₂.status = r₁.status := by rw [hmoved.status, hm]; rfl
        simpa [StatusAlong, hsame] using hst
      | some q =>
        have hst₂ : r₂.status = q := by rw [hmoved.status, hm]; rfl
        obtain ⟨r₀, hr₀, hguard⟩ := hstep.guard habout
        obtain rfl := Option.some.inj (hr₁.symm.trans hr₀)
        obtain ⟨r₃, htouches, -⟩ := h.touches hyields rfl hr₁ hguard
        obtain rfl := Option.some.inj (hr.symm.trans htouches.before)
        rcases hst with hst | ⟨hq, hmovedTo⟩
        · exact .inr ⟨by rw [hst₂], m, c₁, r₁, htouches, by rw [hm, hst₂], hst⟩
        · obtain rfl := Option.some.inj hq
          exact .inr ⟨by rw [hst₂], hst₂ ▸ hmovedTo⟩

end Along

theorem path_along (hpath : Path (Step act.env) c₁ as c')
    (hlabels : ∀ m ∈ as, act.yields m ∧ m.aims = o) (halong : Along act o c c₁) :
    Along act o c c' := by
  induction hpath with
  | nil => exact halong
  | @cons c₁ c₂ c' m as hstep _ ih =>
    obtain ⟨hyields, haims⟩ := hlabels m (by simp)
    exact ih (fun m' hm' => hlabels m' (by simp [hm'])) (halong.step hstep hyields haims)

theorem path_keeps {env : Env} (hpath : Path (Step env) c as c') (hwf : Wf c)
    (hr : c.swap i = some r) : ∃ r', c'.swap i = some r' ∧ r'.terms = r.terms := by
  induction hpath generalizing r with
  | nil => exact ⟨r, hr, rfl⟩
  | cons hstep _ ih =>
    obtain ⟨r₁, hr₁, hone⟩ := hstep.keeps hwf hr
    have hterms : r₁.terms = r.terms := by
      rcases hone with ⟨rfl, -⟩ | ⟨-, hmoved⟩
      · rfl
      · exact hmoved.terms
    obtain ⟨r', hr', hrest⟩ := ih (hstep.wf hwf) hr₁
    exact ⟨r', hr', hrest.trans hterms⟩

theorem path_transfers (hpath : Path (Step act.env) c₁ as c')
    (hlabels : ∀ m ∈ as, act.yields m ∧ m.aims = o) (halong : Along act o c c₁) :
    ∃ ms, c'.transfers = c₁.transfers ++ ms ∧ ∀ x ∈ ms, Transfers c c' act x := by
  induction hpath with
  | nil => exact ⟨[], by simp, by simp⟩
  | @cons c₁ c₂ c' m as hstep hrest ih =>
    obtain ⟨hyields, haims⟩ := hlabels m (by simp)
    obtain ⟨ms, hms, hmoves⟩ := hstep.moves
    obtain ⟨ns, hns, htail⟩ := ih (fun m' hm' => hlabels m' (by simp [hm']))
      (halong.step hstep hyields haims)
    refine ⟨ms ++ ns, by rw [hns, hms, List.append_assoc], ?_⟩
    intro x hx
    rcases List.mem_append.mp hx with hx | hx
    · cases hmoves x hx with
      | funding i r hr hsrc hdst href =>
        obtain ⟨r', hr', hterms⟩ := path_keeps (hrest.cons hstep) halong.wf hr
        have hbuyer : r'.buyer = r.buyer := congrArg Terms.buyer hterms
        exact .funding i r' hr' (hsrc.trans hbuyer.symm) hdst href
      | bidding j href => exact .bidding j href
      | payout i r hr hm hsrc href hdst =>
        obtain ⟨r₁, hr₁, hguard⟩ := hstep.guard hm
        obtain rfl := Option.some.inj (hr.symm.trans hr₁)
        obtain ⟨q, hq⟩ := hdst.aims (hguard.not_claimed halong.wf)
        have hsome : o.isSome := by rw [← haims, hq]; rfl
        obtain ⟨r₀, htouches, hst⟩ := halong.touches hyields hsome hr hguard
        rw [← haims, hq] at hst
        exact .payout i r₀ m c₁ r q htouches hq hst hsrc href hdst
    · exact htail x hx

/-- A record made by a call is pending, or accepted when an auction is finalised. -/
theorem path_added {env : Env} (hpath : Path (Step env) c as c')
    (haims : ∀ m ∈ as, m.aims = none)
    (hc : ∀ r, c.swap i = some r → r.status = .pending ∨ r.status = .accepted)
    (hr : c'.swap i = some r) : r.status = .pending ∨ r.status = .accepted := by
  induction hpath with
  | nil => exact hc r hr
  | @cons c₁ c₂ c' m as hstep _ ih =>
    refine ih (fun m' hm' => haims m' (by simp [hm'])) ?_ hr
    intro r₂ hr₂
    cases hstep.rewrites with
    | same hswap =>
      rw [hswap] at hr₂
      exact hc r₂ hr₂
    | moved j r₁ r' _ hr₁ hswap hmoved =>
      rw [hswap] at hr₂
      by_cases hij : i = j
      · rw [if_pos hij] at hr₂
        obtain rfl := Option.some.inj hr₂
        have hsame : r'.status = r₁.status := by rw [hmoved.status, haims m (by simp)]; rfl
        rw [hsame]
        exact hc r₁ (hij ▸ hr₁)
      · rw [if_neg hij] at hr₂
        exact hc r₂ hr₂
    | added r' _ horigin hswap =>
      rw [hswap] at hr₂
      by_cases hi : i = c₁.count
      · rw [if_pos hi] at hr₂
        obtain rfl := Option.some.inj hr₂
        rcases horigin with ⟨-, hfresh⟩ | ⟨_, _, _, -, -, -, hwon⟩
        · exact .inl hfresh.status
        · exact .inr hwon.status
      · rw [if_neg hi] at hr₂
        exact hc r₂ hr₂

end Call

section Act

variable {s s' : State} {act : Act} {i : ℕ} {r : SwapRecord}

theorem ActStep.transfers (hact : ActStep s act s') (hwf : Wf s.escrow) :
    ∀ x ∈ newTransfers s s', Transfers s.escrow s'.escrow act x := by
  obtain ⟨o, as, hpath, hlabels⟩ := hact.answers
  obtain ⟨ms, hms, hall⟩ := path_transfers hpath hlabels (.refl hwf)
  intro x hx
  refine hall x ?_
  simpa [newTransfers, hms] using hx

theorem ActStep.keeps (hact : ActStep s act s') (hwf : Wf s.escrow)
    (hr : s.swap i = some r) : ∃ r', s'.swap i = some r' ∧ r'.terms = r.terms ∧
      (r'.status = r.status ∨ MovedTo s.escrow act i r r'.status) := by
  obtain ⟨o, as, hpath, hlabels⟩ := hact.answers
  obtain ⟨r', hr', hterms, hst⟩ := (path_along hpath hlabels (.refl hwf)).present i r hr
  exact ⟨r', hr', hterms, hst.imp id And.right⟩

theorem ActStep.absent (hact : ActStep s act s') (hwf : Wf s.escrow) (hi : s'.swap i = none) :
    s.swap i = none := by
  cases hr : s.swap i with
  | none => rfl
  | some r =>
    obtain ⟨r', hr', -⟩ := hact.keeps hwf hr
    simp [hi] at hr'

theorem ActStep.added (hact : ActStep s act s') (hwf : Wf s.escrow) (hnone : s.swap i = none)
    (hr : s'.swap i = some r) : r.status = .pending ∨ r.status = .accepted := by
  obtain ⟨o, as, hpath, hlabels⟩ := hact.answers
  cases o with
  | none =>
    refine path_added hpath (fun m hm => (hlabels m hm).2) ?_ hr
    intro r₀ hr₀
    have hnone' : s.escrow.swap i = none := hnone
    simp [hnone'] at hr₀
  | some q =>
    have habsent := (path_along hpath hlabels (.refl hwf)).absent rfl i hnone
    have hr' : s'.escrow.swap i = some r := hr
    simp [habsent] at hr'

end Act

end AtomicIp.AtomicSwap
