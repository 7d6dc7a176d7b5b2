import AtomicIp.Composition
import AtomicIp.Swap.Deliveries

set_option autoImplicit false

namespace AtomicIp

open AtomicSwap (Key Collects Cleared Deliverable protocolConfig currentContractAddress)
open IpRegistry (Crypto)

/-- The calls of the swap contract keep the escrow. Those of the registry are free. -/
def World.Funds (w : World) : World.Act → Prop
  | .swaps act => AtomicSwap.OnCalls (fun _ _ call => call.KeepsEscrow) w.swaps act
  | .registry _ => True

/-- And the hash of the IP is not rotated. -/
def World.FundsUnrotated (ipId : ℕ) (w : World) (act : World.Act) : Prop :=
  w.Funds act ∧ ∀ a, act = .registry a → ¬ a.call.Rotates ipId

section Steps

variable {crypto : Crypto} {registryAddr : Address} {w w' : World} {act : World.Act} {ipId : ℕ}
  {k : Key}

theorem Unlocks.verifies {s : IpRegistry.State} (h : Unlocks crypto s ipId k) :
    (registryClient crypto s).verifyCommitment ipId k.secret k.blindingFactor = some true := by
  change Option.map Prod.fst (((orFail (s.ipRecord ipId) .ipNotFound : IpRegistry.RegistryTx _) >>=
    fun record => pure (decide (record.commitmentHash =
      crypto.sha256 (k.secret.bytes ++ k.blindingFactor.bytes)))) s).toOption = some true
  rw [Unlocks, IpRegistry.State.hashOf, Option.map_eq_some_iff] at h
  obtain ⟨r, hr, hopens⟩ := h
  rw [hr, ← hopens]
  change some (decide _) = some true
  simp

structure Ran (registryAddr : Address) (w : World) : Prop where
  swaps : ∃ tr, AtomicSwap.Reaches (AtomicSwap.OnCalls fun _ _ call => call.KeepsEscrow) tr w.swaps
  ledger : w.registry.ledger.Wf
  named : ∀ a, w.swaps.ipRegistry = some a → a = registryAddr

theorem Ran.empty {balance : Address → Address → ℤ}
    (hbalance : ∀ t, 0 ≤ balance t currentContractAddress) :
    Ran registryAddr (World.empty balance) :=
  ⟨⟨[], balance, hbalance, .start⟩, .empty, fun a ha => by cases ha⟩

theorem Ran.step (h : Ran registryAddr w) (hstep : World.Step crypto registryAddr w act w')
    (hfunds : w.Funds act) : Ran registryAddr w' := by
  cases hstep with
  | @swaps act s' hact hnamed =>
    obtain ⟨tr, balance, hbalance, hrun⟩ := h.swaps
    refine ⟨⟨_, balance, hbalance, hrun.next ⟨hact, hfunds⟩⟩, h.ledger, fun a ha => ?_⟩
    rcases hact.ipRegistry with hsame | ⟨a', hcall, ha'⟩
    · exact h.named a (hsame.symm.trans ha)
    · obtain rfl := Option.some.inj (ha.symm.trans ha')
      exact hnamed a hcall
  | @registry act s' hact =>
    exact ⟨h.swaps, IpRegistry.ActStep.wf hact h.ledger, h.named⟩

theorem Unlocks.step (hkey : Unlocks crypto w.registry ipId k) (h : Ran registryAddr w)
    (hstep : World.Step crypto registryAddr w act w') (hunrotated : w.FundsUnrotated ipId act) :
    Unlocks crypto w'.registry ipId k := by
  cases hstep with
  | swaps => exact hkey
  | @registry act s' hact =>
    rw [Unlocks, IpRegistry.State.hashOf, Option.map_eq_some_iff] at hkey
    obtain ⟨r, hr, hopens⟩ := hkey
    obtain ⟨r', hr', hedits⟩ := IpRegistry.exec_edits hact h.ledger hr
    have hstored : s'.ipRecord ipId = some r' := hr'
    rw [Unlocks, IpRegistry.State.hashOf, hstored, Option.map_some, ← hopens]
    rcases hedits.commitmentHash with hsame | ⟨secret, blindingFactor, hcall, -⟩
    · rw [hsame]
    · exact absurd ⟨_, secret, blindingFactor, hcall⟩ (hunrotated.2 act rfl)

end Steps

section Runs

variable {crypto : Crypto} {registryAddr : Address} {balance : Address → Address → ℤ}
  {w w' : World} {tr more : List (World.Act × World)} {ipId i : ℕ} {k : Key}
  {r : AtomicSwap.SwapRecord}

def World.env (crypto : Crypto) (registryAddr : Address) (w : World) (env : AtomicSwap.Env) :
    AtomicSwap.Env := (facing crypto registryAddr w.registry ⟨env, none⟩).env

theorem Ran.deliverable_iff (h : Ran registryAddr w) (hr : w.swaps.swap i = some r)
    (hkey : Unlocks crypto w.registry r.ipId k) (env : AtomicSwap.Env) :
    Deliverable (w.env crypto registryAddr env) w.swaps r k ↔
      r.seller ∈ env.auths ∧ r.price * protocolConfig.protocolFeeBps ≤ i128Max := by
  constructor
  · intro hdeliverable
    exact ⟨hdeliverable.authorised, hdeliverable.priced⟩
  · intro hready
    obtain ⟨hauth, hpriced⟩ := hready
    obtain ⟨_, _, _, hrun⟩ := h.swaps
    obtain ⟨a, ha⟩ := AtomicSwap.registry_named (hrun.mono fun _ _ _ hact => hact.1) hr
    obtain rfl := h.named a ha
    refine ⟨hauth, ⟨a, ha, ?_⟩, hpriced⟩
    rw [World.env, facing_registry]
    exact hkey.verifies

theorem cleared_env {s : AtomicSwap.State} {env : AtomicSwap.Env} :
    Cleared (w.env crypto registryAddr env) s i r ↔ Cleared env s i r := by
  have hholds : ∀ condition : AtomicSwap.SwapCondition,
      condition.holds (w.env crypto registryAddr env) r ↔ condition.holds env r := by
    intro condition
    cases condition <;> exact Iff.rfl
  constructor
  · intro h
    exact ⟨h.signed, fun condition hmem => (hholds condition).mp (h.conditions condition hmem)⟩
  · intro h
    exact ⟨h.signed, fun condition hmem => (hholds condition).mpr (h.conditions condition hmem)⟩

/-- In every interleaving of the contracts whose swap calls keep the escrow: a key that opened the
hash of an IP at some time, and whose hash has not been rotated since, gets the seller of any
accepted swap of the IP his price without the fee, whoever owns the IP by then and whether or not
it is revoked, if and only if he authorises the call and the fee can be computed; and by
`reveal_key` if and only if besides all have signed and the conditions hold. -/
theorem keyholder_paid_iff (hbalance : ∀ t, 0 ≤ balance t currentContractAddress)
    (hrun : Run (Restrict (World.Step crypto registryAddr) World.Funds) (World.empty balance) tr w)
    (hkey : Unlocks crypto w.registry ipId k)
    (hmore : Run (Restrict (World.Step crypto registryAddr) (World.FundsUnrotated ipId)) w more w')
    (hr : w'.swaps.swap i = some r) (hip : r.ipId = ipId) (hfrom : r.status = .accepted)
    (env : AtomicSwap.Env) :
    (Collects (w'.env crypto registryAddr env) w'.swaps i r
        (.verifyAndCompleteSwap i r.seller k.secret k.blindingFactor) (r.price - r.feeShare) ↔
      r.seller ∈ env.auths ∧ r.price * protocolConfig.protocolFeeBps ≤ i128Max) ∧
    (Collects (w'.env crypto registryAddr env) w'.swaps i r
        (.revealKey i r.seller k.secret k.blindingFactor)
        (r.price - r.feeShare - r.referralShare) ↔
      (r.seller ∈ env.auths ∧ r.price * protocolConfig.protocolFeeBps ≤ i128Max) ∧
        Cleared env w'.swaps i r) := by
  subst hip
  have hran := hrun.invariant (I := Ran registryAddr) (.empty hbalance)
    fun _ _ _ h hstep => h.step hstep.1 hstep.2
  have hlater := hmore.invariant
    (I := fun w => Ran registryAddr w ∧ Unlocks crypto w.registry r.ipId k) ⟨hran, hkey⟩
    fun _ _ _ h hstep => ⟨h.1.step hstep.1 hstep.2.1, h.2.step h.1 hstep.1 hstep.2⟩
  obtain ⟨hran', hkey'⟩ := hlater
  obtain ⟨_, hreaches⟩ := hran'.swaps
  obtain ⟨hredeemable, hpos⟩ := AtomicSwap.held_redeemable hreaches hr (.inl hfrom)
  have hpaid := AtomicSwap.collects_iff hredeemable hr hfrom hpos (w'.env crypto registryAddr env) k
  rw [hran'.deliverable_iff hr hkey', cleared_env] at hpaid
  exact ⟨hpaid.2, hpaid.1⟩

end Runs

section Sales

open AtomicSwap.Scenario (env buyer seller token secret funds registry funds_contract)
open IpRegistry.Scenario (crypto)

def revokedSale : List World.Act := paidSale ++ [revocation]

def Sold (w : World) (r : AtomicSwap.SwapRecord) : Prop :=
  (r.status = .accepted ∧ r.ipId = 1 ∧ r.seller = seller ∧ r.price = 1000) ∧
    (w.registry.ipRecord 1).map IpRegistry.IpRecord.revoked = some true

instance (w : World) (r : AtomicSwap.SwapRecord) : Decidable (Sold w r) := by
  unfold Sold
  infer_instance

theorem revokedSale_funds {w : World} {act : World.Act} (h : act ∈ revokedSale) :
    w.FundsUnrotated 1 act := by
  simp only [revokedSale, paidSale, registeredOffer, List.cons_append, List.nil_append,
    List.mem_cons, List.not_mem_nil, or_false] at h
  rcases h with rfl | rfl | rfl | rfl | rfl <;>
    simp [World.FundsUnrotated, World.Funds, acceptance, revocation, IpRegistry.Scenario.act,
      IpRegistry.Call.Rotates, AtomicSwap.OnCalls, AtomicSwap.Call.KeepsEscrow,
      AtomicSwap.Call.parties, currentContractAddress, seller, buyer]

theorem revoked_sale_paid : ∃ tr w more w' r,
    Run (Restrict (World.Step crypto registry) World.Funds) (World.empty funds) tr w ∧
    Run (Restrict (World.Step crypto registry) (World.FundsUnrotated 1)) w more w' ∧
    w'.swaps.swap 0 = some r ∧ Sold w' r ∧
    Collects (w'.env crypto registry (env [seller] 4)) w'.swaps 0 r
      (.verifyAndCompleteSwap 0 seller secret secret) 975 := by
  have hplayed : endsIn turn (revokedSale.take 1) (World.empty funds) (fun w =>
      decide (w.registry.hashOf 1 = some (crypto.sha256 (secret.bytes ++ secret.bytes))) &&
        endsIn turn (revokedSale.drop 1) w fun w' =>
          (w'.swaps.swap 0).any fun r => Sold w' r) = true := by
    decide +kernel
  have hstep : ∀ w act w', act ∈ revokedSale → turn act w = .ok ((), w') →
      Restrict (World.Step crypto registry) (World.FundsUnrotated 1) w act w' := by
    intro w act w' hmem h
    refine ⟨sale_step h ?_, revokedSale_funds hmem⟩
    simp only [revokedSale, List.mem_append, List.mem_singleton] at hmem ⊢
    rcases hmem with hpaid | rfl
    · exact .inl hpaid
    · exact .inr (by simp)
  obtain ⟨tr, w, hrun, -, hseen⟩ := endsIn_run hplayed fun w act w' hmem h =>
    hstep w act w' (List.mem_of_mem_take hmem) h
  rw [Bool.and_eq_true_iff, decide_eq_true_eq] at hseen
  obtain ⟨hkey, hlater⟩ := hseen
  obtain ⟨more, w', hmore, -, hsold⟩ := endsIn_run hlater fun w act w' hmem h =>
    hstep w act w' (List.mem_of_mem_drop hmem) h
  simp only [Option.any_eq_true, decide_eq_true_eq] at hsold
  obtain ⟨r, hr, ⟨hfrom, hip, hseller, hprice⟩, hrevoked⟩ := hsold
  have hfunds : Run (Restrict (World.Step crypto registry) World.Funds) (World.empty funds) tr w :=
    hrun.mono fun _ _ _ h => ⟨h.1, h.2.1⟩
  have hpaid := keyholder_paid_iff (k := ⟨secret, secret⟩) funds_contract hfunds
    hkey hmore hr hip hfrom (env [seller] 4)
  have hfee : r.feeShare = 25 := by rw [AtomicSwap.SwapRecord.feeShare, hprice]; decide
  rw [hfee, hprice, hseller] at hpaid
  exact ⟨tr, w, more, w', r, hfunds, hmore, hr, ⟨⟨hfrom, hip, hseller, hprice⟩, hrevoked⟩,
    hpaid.1.mpr ⟨by simp [env], by decide⟩⟩

end Sales

end AtomicIp
