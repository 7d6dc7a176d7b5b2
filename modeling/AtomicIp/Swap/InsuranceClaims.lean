import AtomicIp.Swap.Solvency

/-!
Insurance claims. A refused key marks the swap as claimable and then aborts the call, so the mark
is gone with the rest of it and no claim is ever paid.
-/

set_option autoImplicit false

namespace AtomicIp.AtomicSwap

/-- The state after a call, which leaves nothing behind when it aborts. -/
def attempted (env : Env) (call : Call) (s : State) : State :=
  match exec env call s with
  | .ok (_, s') => s'
  | .error _ => s

/-- The claim succeeds once and moves what the pool has of the price to the buyer. -/
structure PaysOutOnce (env : Env) (i : ℕ) (s s' : State) (r : SwapRecord) : Prop where
  stored : s.swap i = some r
  claims : exec env (.claimInsurance i) s = .ok ((), s')
  paid : newTransfers s s' = [⟨r.token, currentContractAddress, r.buyer,
    min (s.escrow.pool r.token) r.price, .claim i⟩]
  pool : s'.escrow.pool r.token = s.escrow.pool r.token - min (s.escrow.pool r.token) r.price
  once : ∀ env' s'', exec env' (.claimInsurance i) s' ≠ .ok ((), s'')

section Claims

variable {env : Env} {s s' : State} {call : Call} {i : ℕ} {r : SwapRecord} {u : Unit}
  {tr : List (Act × State)} {secret blindingFactor : BytesN 32} {caller : Address}

theorem claimInsurance_claimable (h : claimInsurance env i s = .ok (u, s')) :
    (s.insuranceClaimable i).isSome = true := by
  simp only [claimInsurance, Tx.bind_ok, requireSwapExists_ok, requireAuth_ok, require_ok,
    Tx.load_ok] at h
  obtain ⟨r, _, ⟨-, rfl⟩, _, _, ⟨-, rfl⟩, _, _, ⟨-, rfl⟩, _, _, ⟨rfl, rfl⟩, _, _, ⟨hclaim, rfl⟩,
    -⟩ := h
  exact hclaim

theorem claimInsurance_refused (hwf : Wf s.escrow) : claimInsurance env i s ≠ .ok (u, s') := by
  intro h
  have hclaim := claimInsurance_claimable h
  have hnone : s.insuranceClaimable i = none := hwf.claimable i
  simp [hnone] at hclaim

theorem attempted_wf (hwf : Wf s.escrow) : Wf (attempted env call s).escrow := by
  unfold attempted
  cases hexec : exec env call s with
  | ok p =>
    have hact : ActStep s ⟨env, some call⟩ p.2 := .call hexec
    exact hact.wf hwf
  | error e => exact hwf

/-- Whatever key the seller presents, the claim of the buyer fails. -/
theorem insurance_never_paid (h : Reaches Always tr s) (envReveal envClaim : Env) (i : ℕ)
    (seller : Address) (secret blindingFactor : BytesN 32) :
    ¬ ∃ s' r, PaysOutOnce envClaim i
      (attempted envReveal (.revealKey i seller secret blindingFactor) s) s' r := by
  intro hpays
  obtain ⟨s', r, hpays⟩ := hpays
  exact claimInsurance_refused (attempted_wf h.wf) hpays.claims

end Claims

section Sales

open Scenario

def wrongKey : BytesN 32 := .fill 32 8

def seenInsured (s : State) : Bool :=
  ((s.swap 0).any fun r => r.status = .accepted ∧ r.insuranceEnabled = true ∧ r.ipId = 1 ∧
    r.insurancePremium = 20) && s.escrow.pool token = 20 && s.ipRegistry = some registry

theorem insured_of_seen {s : State} (h : seenInsured s = true) :
    ∃ r, s.swap 0 = some r ∧ r.status = .accepted ∧ r.insuranceEnabled = true ∧
      s.escrow.pool token = r.insurancePremium ∧
      KeyCheck (env [seller] 3) s.ipRegistry r.ipId wrongKey wrongKey false := by
  simp only [seenInsured, Bool.and_eq_true, Option.any_eq_true, decide_eq_true_eq] at h
  obtain ⟨⟨⟨r, hr, hst, hinsured, hip, hpremium⟩, hpool⟩, hregistry⟩ := h
  refine ⟨r, hr, hst, hinsured, by rw [hpool, hpremium], registry, hregistry, ?_⟩
  rw [hip]
  decide

theorem insured_sale_unpaid : ∃ tr s, Reaches Always tr s ∧ seenInsured s = true ∧
    ¬ ∃ s' r, PaysOutOnce (env [buyer] 4) 0
      (attempted (env [seller] 3) (.revealKey 0 seller wrongKey wrongKey) s) s' r := by
  obtain ⟨tr, s, s', hrun, hexec, hseen⟩ := watched Always funds offer (env [buyer] 2)
    (.acceptSwap 0) (fun _ s => seenInsured s) (by decide) (by simp [Always])
  have hreach : Reaches Always _ s' := ⟨funds, funds_contract,
    hrun.next (k := ⟨env [buyer] 2, some (.acceptSwap 0)⟩) ⟨.call hexec, trivial⟩⟩
  exact ⟨_, s', hreach, hseen, insurance_never_paid hreach _ _ 0 seller wrongKey wrongKey⟩

/-- The buyer of an insured swap gets nothing after the seller's key was refused. -/
theorem refused_key_uninsured : ∃ (tr : List (Act × State)) (s : State) (r : SwapRecord),
    Reaches Always tr s ∧ s.swap 0 = some r ∧ r.status = .accepted ∧
    r.insuranceEnabled = true ∧ s.escrow.pool token = r.insurancePremium ∧
    KeyCheck (env [seller] 3) s.ipRegistry r.ipId wrongKey wrongKey false ∧
    ¬ ∃ s' r', PaysOutOnce (env [buyer] 4) 0
      (attempted (env [seller] 3) (.revealKey 0 r.seller wrongKey wrongKey) s) s' r' := by
  obtain ⟨tr, s, s', hrun, hexec, hseen⟩ := watched Always funds offer (env [buyer] 2)
    (.acceptSwap 0) (fun _ s => seenInsured s) (by decide) (by simp [Always])
  have hreach : Reaches Always _ s' := ⟨funds, funds_contract,
    hrun.next (k := ⟨env [buyer] 2, some (.acceptSwap 0)⟩) ⟨.call hexec, trivial⟩⟩
  obtain ⟨r, hr, hst, hinsured, hpool, hkey⟩ := insured_of_seen hseen
  refine ⟨_, s', r, hreach, hr, hst, hinsured, hpool, hkey, ?_⟩
  intro hpays
  obtain ⟨s'', r', hpays⟩ := hpays
  exact claimInsurance_refused (attempted_wf hreach.wf) hpays.claims

end Sales

end AtomicIp.AtomicSwap
