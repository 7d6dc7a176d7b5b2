import AtomicIp.Registry.Standing
import AtomicIp.Swap.Listings

/-!
The two contracts together: the swap contract asks the registry about an IP when a sale starts and
about a key when it is revealed, and the registry moves on in between. A sale is bound to its IP as
long as nobody disturbs the IP while it is on sale.
-/

set_option autoImplicit false

namespace AtomicIp

open AtomicSwap (Key currentContractAddress newTransfers)
open IpRegistry (Crypto)

structure World where
  swaps : AtomicSwap.State
  registry : IpRegistry.State

inductive World.Act where
  | swaps (act : AtomicSwap.Act)
  | registry (act : IpRegistry.Act)

/-- The registry in the state `s`, as the swap contract sees it. -/
def registryClient (crypto : Crypto) (s : IpRegistry.State) : AtomicSwap.IpRegistryClient where
  getIp ipId := (IpRegistry.getIp ipId s).toOption.map Prod.fst
  verifyCommitment ipId secret blindingFactor :=
    (IpRegistry.verifyCommitment ⟨crypto, 0, [], 0⟩ ipId secret blindingFactor s).toOption.map
      Prod.fst

def facing (crypto : Crypto) (registryAddr : Address) (s : IpRegistry.State)
    (act : AtomicSwap.Act) : AtomicSwap.Act :=
  { act with env.registry :=
      Function.update act.env.registry registryAddr (registryClient crypto s) }

/-- The contracts take turns; the swap contract is initialised with this registry or not at all. -/
inductive World.Step (crypto : Crypto) (registryAddr : Address) : World → World.Act → World → Prop
    where
  | swaps {w : World} {act : AtomicSwap.Act} {s' : AtomicSwap.State}
      (hact : AtomicSwap.ActStep w.swaps (facing crypto registryAddr w.registry act) s')
      (hnamed : ∀ a, act.call = some (.initializeContract a) → a = registryAddr) :
      Step crypto registryAddr w (.swaps act) ⟨s', w.registry⟩
  | registry {w : World} {act : IpRegistry.Act} {s' : IpRegistry.State}
      (hact : IpRegistry.ActStep crypto w.registry act s') :
      Step crypto registryAddr w (.registry act) ⟨w.swaps, s'⟩

def World.empty (balance : Address → Address → ℤ) : World := ⟨.empty balance, .empty⟩

/-- A live swap or an open auction of the seller's holds the IP. -/
def World.OnSale (w : World) (ipId : ℕ) (seller : Address) : Prop :=
  (∃ i r, w.swaps.swap i = some r ∧ r.status.Live ∧ r.ipId = ipId ∧ r.seller = seller) ∨
    ∃ j a, w.swaps.auction j = some a ∧ a.finalized = false ∧ a.ipId = ipId ∧ a.seller = seller

/-- An IP that is on sale keeps its owner and its hash and is not revoked, and no scheduled
payment revives a settled swap. -/
def World.Spares (w : World) : World.Act → Prop
  | .swaps act => AtomicSwap.OnCalls AtomicSwap.RevivesNone w.swaps act
  | .registry act => ∀ ipId seller, w.OnSale ipId seller → ¬ act.call.Disturbs ipId seller

def Unlocks (crypto : Crypto) (s : IpRegistry.State) (ipId : ℕ) (k : Key) : Prop :=
  s.hashOf ipId = some (crypto.sha256 (k.secret.bytes ++ k.blindingFactor.bytes))

def BecameSwap (w₀ : World) (past : List (World.Act × World)) (j i : ℕ) : Prop :=
  Happened (fun a act b => (∃ env, act = .swaps ⟨env, some (.finalizeAuction j)⟩) ∧
    a.swaps.swap i = none ∧ (b.swaps.swap i).isSome = true) w₀ past

def TakesPrice (i : ℕ) (a b : World) : Prop :=
  ∃ x ∈ newTransfers a.swaps b.swaps, x.ref = .price i ∧ x.dst = currentContractAddress

def TakesBid (j : ℕ) (act : World.Act) : Prop :=
  ∃ env bidder amount, act = .swaps ⟨env, some (.placeBid j bidder amount)⟩

/-- The contract takes in money for the swap: part of its price, or a bid in the auction that
has ended in it. -/
def TakesPayment (w₀ : World) (past : List (World.Act × World)) (i : ℕ) (a : World)
    (act : World.Act) (b : World) : Prop :=
  TakesPrice i a b ∨ ∃ j, TakesBid j act ∧ BecameSwap w₀ past j i

def CompletesOn (i : ℕ) (k : Key) (act : World.Act) (b : World) : Prop :=
  ∃ env call, act = .swaps ⟨env, some call⟩ ∧ call.PresentsFor i k ∧
    (b.swaps.swap i).map AtomicSwap.SwapRecord.status = some .completed

/-- The IP behind the swap is the seller's, not revoked, and under a hash the key opens, now as
whenever money came in. -/
def Bound (crypto : Crypto) (w₀ : World) (past : List (World.Act × World)) (a : World) (i : ℕ)
    (k : Key) : Prop :=
  ∃ r, a.swaps.swap i = some r ∧ a.registry.HeldBy r.ipId r.seller ∧
    ∀ past' v act v', (past', v, act, v') ∈ steps w₀ past → TakesPayment w₀ past i v act v' →
      Unlocks crypto v.registry r.ipId k

section Client

variable {crypto : Crypto} {s : IpRegistry.State} {ipId : ℕ}

@[simp] theorem registryClient_getIp : (registryClient crypto s).getIp ipId = s.ipRecord ipId := by
  change ((orFail (s.ipRecord ipId) .ipNotFound : IpRegistry.RegistryTx _) s).toOption.map
    Prod.fst = s.ipRecord ipId
  cases s.ipRecord ipId <;> rfl

theorem registryClient_verifyCommitment {k : Key} (h : (registryClient crypto s).verifyCommitment
    ipId k.secret k.blindingFactor = some true) : Unlocks crypto s ipId k := by
  change Option.map Prod.fst (((orFail (s.ipRecord ipId) .ipNotFound : IpRegistry.RegistryTx _) >>=
    fun record => pure (decide (record.commitmentHash =
      crypto.sha256 (k.secret.bytes ++ k.blindingFactor.bytes)))) s).toOption = some true at h
  rw [Unlocks, IpRegistry.State.hashOf]
  cases hr : s.ipRecord ipId with
  | none =>
    rw [hr] at h
    cases h
  | some r =>
    rw [hr] at h
    have hopens := of_decide_eq_true (Option.some.inj h)
    rw [Option.map_some, hopens]

theorem facing_registry {registryAddr : Address} {act : AtomicSwap.Act} :
    (facing crypto registryAddr s act).env.registry registryAddr = registryClient crypto s :=
  Function.update_self ..

theorem OwnsActiveIp.heldBy {registryAddr seller : Address} {swaps : AtomicSwap.State}
    {act : AtomicSwap.Act} (hnamed : ∀ a, swaps.ipRegistry = some a → a = registryAddr)
    (h : AtomicSwap.OwnsActiveIp (facing crypto registryAddr s act).env swaps ipId seller) :
    s.HeldBy ipId seller := by
  obtain ⟨a, r, ha, hr, howner, hlive⟩ := h
  obtain rfl := hnamed a ha
  rw [facing_registry, registryClient_getIp] at hr
  exact ⟨r, hr, howner, hlive⟩

theorem KeyCheck.unlocks {registryAddr : Address} {o : Option Address} {act : AtomicSwap.Act}
    {k : Key} (hnamed : ∀ a, o = some a → a = registryAddr)
    (h : AtomicSwap.KeyCheck (facing crypto registryAddr s act).env o ipId k.secret
      k.blindingFactor true) : Unlocks crypto s ipId k := by
  obtain ⟨a, ha, hkey⟩ := h
  obtain rfl := hnamed a ha
  rw [facing_registry] at hkey
  exact registryClient_verifyCommitment hkey

end Client

/-- What holds between the contracts while the IPs on sale are left alone. -/
structure Guarded (registryAddr : Address) (w : World) : Prop where
  swaps : AtomicSwap.Wf w.swaps.escrow
  ledger : w.registry.ledger.Wf
  named : ∀ a, w.swaps.ipRegistry = some a → a = registryAddr
  held : ∀ ipId seller, w.OnSale ipId seller → w.registry.HeldBy ipId seller

section Steps

variable {crypto : Crypto} {registryAddr : Address} {w w' : World} {act : World.Act}

theorem Guarded.empty (balance : Address → Address → ℤ) :
    Guarded registryAddr (World.empty balance) := by
  refine ⟨.empty balance, .empty, fun a ha => (by cases ha), fun ipId seller hsale => ?_⟩
  rcases hsale with ⟨i, r, hr, -⟩ | ⟨j, a, ha, -⟩
  · cases hr
  · cases ha

theorem Guarded.step (h : Guarded registryAddr w) (hstep : World.Step crypto registryAddr w act w')
    (hspared : w.Spares act) : Guarded registryAddr w' := by
  cases hstep with
  | @swaps act s' hact hnamed =>
    refine ⟨hact.wf h.swaps, h.ledger, fun a ha => ?_, fun ipId seller hsale => ?_⟩
    · rcases hact.ipRegistry with hsame | ⟨a', hcall, ha'⟩
      · exact h.named a (hsame.symm.trans ha)
      · obtain rfl := Option.some.inj (ha.symm.trans ha')
        exact hnamed a hcall
    · rcases hsale with ⟨i, r, hr, hlive, rfl, rfl⟩ | ⟨j, a, ha, hopen, rfl, rfl⟩
      · rcases hact.begins h.swaps hspared hr hlive with ⟨r₀, hr₀, hlive₀, hip, hseller⟩ |
          ⟨-, howns | ⟨j, a, -, ha, hopen, hip, hseller⟩⟩
        · exact h.held _ _ (.inl ⟨i, r₀, hr₀, hlive₀, hip, hseller⟩)
        · exact OwnsActiveIp.heldBy h.named howns
        · exact h.held _ _ (.inr ⟨j, a, ha, hopen, hip, hseller⟩)
      · rcases hact.opens h.swaps ha hopen with ⟨a₀, ha₀, hopen₀, hip, hseller⟩ | ⟨-, howns⟩
        · exact h.held _ _ (.inr ⟨j, a₀, ha₀, hopen₀, hip, hseller⟩)
        · exact OwnsActiveIp.heldBy h.named howns
  | @registry act s' hact =>
    refine ⟨h.swaps, IpRegistry.ActStep.wf hact h.ledger, h.named, fun ipId seller hsale => ?_⟩
    exact IpRegistry.exec_heldBy hact h.ledger (hspared ipId seller hsale)
      (h.held ipId seller hsale)

def SwapKept (v : IpRegistry.State) (w : World) (i : ℕ) : Prop :=
  ∃ r, w.swaps.swap i = some r ∧
    (r.status.Live → w.registry.hashOf r.ipId = v.hashOf r.ipId)

/-- The auction is there, and while it is open its IP has the hash it had before. -/
def AuctionKept (v : IpRegistry.State) (w : World) (j : ℕ) : Prop :=
  ∃ a, w.swaps.auction j = some a ∧
    (a.finalized = false → w.registry.hashOf a.ipId = v.hashOf a.ipId)

theorem SwapKept.step {v : IpRegistry.State} {i : ℕ} (hkept : SwapKept v w i)
    (h : Guarded registryAddr w) (hstep : World.Step crypto registryAddr w act w')
    (hspared : w.Spares act) : SwapKept v w' i := by
  obtain ⟨r, hr, hhash⟩ := hkept
  cases hstep with
  | @swaps act s' hact =>
    obtain ⟨r', hr', hterms, -⟩ := hact.keeps h.swaps hr
    have hip : r'.ipId = r.ipId := congrArg AtomicSwap.Terms.ipId hterms
    refine ⟨r', hr', fun hlive => ?_⟩
    rcases hact.begins h.swaps hspared hr' hlive with ⟨r₀, hr₀, hlive₀, -⟩ | ⟨hnew, -⟩
    · obtain rfl := Option.some.inj (hr.symm.trans hr₀)
      rw [hip]
      exact hhash hlive₀
    · cases hr.symm.trans hnew
  | @registry act s' hact =>
    refine ⟨r, hr, fun hlive => ?_⟩
    have hsale : w.OnSale r.ipId r.seller := .inl ⟨i, r, hr, hlive, rfl, rfl⟩
    have hsame := IpRegistry.exec_hashOf hact h.ledger (hspared _ _ hsale) (h.held _ _ hsale)
    exact hsame.trans (hhash hlive)

theorem AuctionKept.step {v : IpRegistry.State} {j : ℕ} (hkept : AuctionKept v w j)
    (h : Guarded registryAddr w) (hstep : World.Step crypto registryAddr w act w')
    (hspared : w.Spares act) : AuctionKept v w' j := by
  obtain ⟨a, ha, hhash⟩ := hkept
  cases hstep with
  | @swaps act s' hact =>
    obtain ⟨a', ha'⟩ := Option.isSome_iff_exists.mp
      (hact.auction_lasts (Option.isSome_of_eq_some ha))
    refine ⟨a', ha', fun hopen => ?_⟩
    rcases hact.opens h.swaps ha' hopen with ⟨a₀, ha₀, hopen₀, hip, -⟩ | ⟨hnew, -⟩
    · obtain rfl := Option.some.inj (ha.symm.trans ha₀)
      rw [← hip]
      exact hhash hopen₀
    · cases ha.symm.trans hnew
  | @registry act s' hact =>
    refine ⟨a, ha, fun hopen => ?_⟩
    have hsale : w.OnSale a.ipId a.seller := .inr ⟨j, a, ha, hopen, rfl, rfl⟩
    have hsame := IpRegistry.exec_hashOf hact h.ledger (hspared _ _ hsale) (h.held _ _ hsale)
    exact hsame.trans (hhash hopen)

theorem TakesPrice.kept {i : ℕ} (h : TakesPrice i w w') (hguarded : Guarded registryAddr w)
    (hstep : World.Step crypto registryAddr w act w') : SwapKept w.registry w' i := by
  obtain ⟨x, hx, href, -⟩ := h
  cases hstep with
  | @swaps act s' hact =>
    cases hact.transfers hguarded.swaps x hx with
    | funding k r hr _ _ href' =>
      rw [href] at href'
      obtain rfl := Option.some.inj href'
      exact ⟨r, hr, fun _ => rfl⟩
    | bidding k href' => simp [href] at href'
    | payout k r _ _ _ _ htouches _ _ _ href' =>
      rw [href] at href'
      obtain rfl := Option.some.inj href'
      obtain ⟨r', hr', -⟩ := hact.keeps hguarded.swaps htouches.before
      exact ⟨r', hr', fun _ => rfl⟩
  | registry => simp [newTransfers] at hx

theorem TakesBid.kept {j : ℕ} (h : TakesBid j act)
    (hstep : World.Step crypto registryAddr w act w') : AuctionKept w.registry w' j := by
  obtain ⟨env, bidder, amount, rfl⟩ := h
  cases hstep with
  | @swaps _ s' hact =>
    have hlasts : (s'.auction j).isSome = true := by
      refine hact.auction_lasts ?_
      cases hact with
      | call hexec => exact AtomicSwap.placeBid_auction hexec
    obtain ⟨a, ha⟩ := Option.isSome_iff_exists.mp hlasts
    exact ⟨a, ha, fun _ => rfl⟩

theorem AuctionKept.becomes {v : IpRegistry.State} {i j : ℕ} {env : AtomicSwap.Env}
    (hkept : AuctionKept v w j) (h : Guarded registryAddr w)
    (hstep : World.Step crypto registryAddr w (.swaps ⟨env, some (.finalizeAuction j)⟩) w')
    (hnew : w.swaps.swap i = none) (hsome : (w'.swaps.swap i).isSome = true) :
    SwapKept v w' i := by
  obtain ⟨a, ha, hhash⟩ := hkept
  obtain ⟨r, hr⟩ := Option.isSome_iff_exists.mp hsome
  refine ⟨r, hr, fun hlive => ?_⟩
  cases hstep with
  | @swaps _ s' hact =>
    cases hact with
    | call hexec =>
      rcases AtomicSwap.finalizeAuction_begins hexec h.swaps hr hlive with ⟨r₀, hr₀, -⟩ |
        ⟨-, a₀, ha₀, hopen, hip, -⟩
      · cases hnew.symm.trans hr₀
      · obtain rfl := Option.some.inj (ha.symm.trans ha₀)
        rw [← hip]
        exact hhash hopen

end Steps

/-- Where money came in for a swap, and what has become of it. -/
structure Steady (w₀ : World) (tr : List (World.Act × World)) (w : World) : Prop where
  now : now w₀ tr = w
  became : ∀ j i, BecameSwap w₀ tr j i → (w.swaps.swap i).isSome = true
  price : ∀ past v act v', (past, v, act, v') ∈ steps w₀ tr → ∀ i, TakesPrice i v v' →
    SwapKept v.registry w i
  bid : ∀ past v act v', (past, v, act, v') ∈ steps w₀ tr → ∀ j, TakesBid j act →
    AuctionKept v.registry w j
  won : ∀ past v act v', (past, v, act, v') ∈ steps w₀ tr → ∀ j, TakesBid j act →
    ∀ i, BecameSwap w₀ tr j i → SwapKept v.registry w i

section Runs

variable {crypto : Crypto} {registryAddr : Address} {w₀ w w' : World} {act : World.Act}
  {tr : List (World.Act × World)}

theorem Steady.start : Steady w₀ [] w₀ := by
  refine ⟨rfl, fun j i hbecame => ?_, ?_, ?_, ?_⟩
  · exact absurd hbecame happened_nil
  · simp [steps]
  · simp [steps]
  · simp [steps]

theorem World.Step.swap_lasts {i : ℕ} (h : Guarded registryAddr w)
    (hstep : World.Step crypto registryAddr w act w') (hi : (w.swaps.swap i).isSome = true) :
    (w'.swaps.swap i).isSome = true := by
  cases hstep with
  | swaps hact =>
    obtain ⟨r, hr⟩ := Option.isSome_iff_exists.mp hi
    obtain ⟨r', hr', -⟩ := hact.keeps h.swaps hr
    exact Option.isSome_of_eq_some hr'
  | registry => exact hi

theorem Steady.became_step (h : Steady w₀ tr w) (hguarded : Guarded registryAddr w)
    (hstep : World.Step crypto registryAddr w act w') {j i : ℕ}
    (hbecame : BecameSwap w₀ ((act, w') :: tr) j i) : (w'.swaps.swap i).isSome = true := by
  rcases happened_cons.mp hbecame with ⟨-, -, hsome⟩ | hearlier
  · exact hsome
  · exact hstep.swap_lasts hguarded (h.became j i hearlier)

theorem Steady.won_step (h : Steady w₀ tr w) (hguarded : Guarded registryAddr w)
    (hstep : World.Step crypto registryAddr w act w') (hspared : w.Spares act)
    {past : List (World.Act × World)} {v v' : World} {bid : World.Act}
    (hmem : (past, v, bid, v') ∈ steps w₀ tr) {j i : ℕ} (hbid : TakesBid j bid)
    (hbecame : BecameSwap w₀ ((act, w') :: tr) j i) : SwapKept v.registry w' i := by
  rcases happened_cons.mp hbecame with ⟨⟨env, rfl⟩, hnew, hsome⟩ | hearlier
  · rw [h.now] at hnew
    exact (h.bid past v bid v' hmem j hbid).becomes hguarded hstep hnew hsome
  · exact (h.won past v bid v' hmem j hbid i hearlier).step hguarded hstep hspared

theorem Steady.step (h : Steady w₀ tr w) (hguarded : Guarded registryAddr w)
    (hstep : World.Step crypto registryAddr w act w') (hspared : w.Spares act) :
    Steady w₀ ((act, w') :: tr) w' := by
  have hlast : ∀ past v bid v', (past, v, bid, v') ∈ steps w₀ ((act, w') :: tr) →
      v = w ∧ bid = act ∧ v' = w' ∨ (past, v, bid, v') ∈ steps w₀ tr := by
    intro past v bid v' hmem
    simp only [steps, h.now, List.mem_cons, Prod.mk.injEq] at hmem
    rcases hmem with ⟨-, rfl, rfl, rfl⟩ | hearlier
    · exact .inl ⟨rfl, rfl, rfl⟩
    · exact .inr hearlier
  refine ⟨rfl, fun j i => h.became_step hguarded hstep, ?_, ?_, ?_⟩
  · intro past v bid v' hmem i hprice
    rcases hlast past v bid v' hmem with ⟨rfl, rfl, rfl⟩ | hearlier
    · exact hprice.kept hguarded hstep
    · exact (h.price past v bid v' hearlier i hprice).step hguarded hstep hspared
  · intro past v bid v' hmem j hbid
    rcases hlast past v bid v' hmem with ⟨rfl, rfl, rfl⟩ | hearlier
    · exact hbid.kept hstep
    · exact (h.bid past v bid v' hearlier j hbid).step hguarded hstep hspared
  · intro past v bid v' hmem j hbid i hbecame
    rcases hlast past v bid v' hmem with ⟨rfl, rfl, rfl⟩ | hearlier
    · obtain ⟨r, hr⟩ := Option.isSome_iff_exists.mp (h.became_step hguarded hstep hbecame)
      obtain ⟨env, bidder, amount, rfl⟩ := hbid
      cases hstep
      exact ⟨r, hr, fun _ => rfl⟩
    · exact h.won_step hguarded hstep hspared hearlier hbid hbecame

theorem Steady.bound {i : ℕ} {k : Key} (h : Steady w₀ tr w) (hguarded : Guarded registryAddr w)
    (hstep : World.Step crypto registryAddr w act w') (hreveal : CompletesOn i k act w') :
    Bound crypto w₀ tr w i k := by
  obtain ⟨env, call, rfl, hk, hdone⟩ := hreveal
  cases hstep with
  | @swaps _ s' hact =>
    cases hact with
    | call hexec =>
      obtain ⟨r, hr, hfrom, hkey⟩ := AtomicSwap.exec_reveals hexec hk hdone
      have hlive : r.status.Live := .of_eq hfrom trivial
      have hunlocks := KeyCheck.unlocks hguarded.named hkey
      refine ⟨r, hr, hguarded.held _ _ (.inl ⟨i, r, hr, hlive, rfl, rfl⟩), ?_⟩
      intro past v pay v' hmem hpayment
      have hkept : SwapKept v.registry w i := by
        rcases hpayment with hprice | ⟨j, hbid, hbecame⟩
        · exact h.price past v pay v' hmem i hprice
        · exact h.won past v pay v' hmem j hbid i hbecame
      obtain ⟨r₁, hr₁, hhash⟩ := hkept
      obtain rfl := Option.some.inj (hr.symm.trans hr₁)
      exact (hhash hlive).symm.trans hunlocks

/-- While no registry call disturbs an IP that is on sale, every reveal that completes a swap is
bound to the IP that was paid for. -/
theorem spared_sales_bound {balance : Address → Address → ℤ}
    (hrun : Run (Restrict (World.Step crypto registryAddr) World.Spares) (World.empty balance) tr w)
    {past : List (World.Act × World)} {a b : World}
    (hmem : (past, a, act, b) ∈ steps (World.empty balance) tr) {i : ℕ} {k : Key}
    (hreveal : CompletesOn i k act b) : Bound crypto (World.empty balance) past a i k := by
  have hall := hrun.forall_steps
    (I := fun tr w => Guarded registryAddr w ∧ Steady (World.empty balance) tr w)
    (Q := fun past a act b => ∀ i k, CompletesOn i k act b →
      Bound crypto (World.empty balance) past a i k)
    ⟨.empty balance, .start⟩ ?_
  · exact hall.2 past a act b hmem i k hreveal
  · intro tr w act w' h hstep
    obtain ⟨hguarded, hsteady⟩ := h
    exact ⟨⟨hguarded.step hstep.1 hstep.2, hsteady.step hguarded hstep.1 hstep.2⟩,
      fun i k hreveal => hsteady.bound hguarded hstep.1 hreveal⟩

end Runs

section Sales

open AtomicSwap.Scenario (env buyer seller token secret funds registry)
open IpRegistry.Scenario (crypto design)

def turn : World.Act → Tx Unit World Unit
  | .swaps ⟨env, some call⟩ => fun w =>
    match AtomicSwap.exec (facing crypto registry w.registry ⟨env, some call⟩).env call w.swaps with
    | .ok (_, s) => .ok ((), ⟨s, w.registry⟩)
    | .error _ => .error ()
  | .swaps ⟨_, none⟩ => fun _ => .error ()
  | .registry act => fun w =>
    match IpRegistry.Scenario.perform act w.registry with
    | .ok (_, s) => .ok ((), ⟨w.swaps, s⟩)
    | .error _ => .error ()

theorem turn_step {w w' : World} {act : World.Act}
    (h : turn act w = .ok ((), w'))
    (hnamed : ∀ env a, act = .swaps ⟨env, some (.initializeContract a)⟩ → a = registry) :
    World.Step crypto registry w act w' := by
  unfold turn at h
  split at h
  next env call =>
    split at h
    next s hexec =>
      cases h
      refine .swaps (.call hexec) fun a ha => ?_
      exact hnamed env a (congrArg (fun o => World.Act.swaps ⟨env, o⟩) ha)
    next => cases h
  next => cases h
  next act =>
    split at h
    next s hexec =>
      cases h
      exact .registry hexec
    next => cases h

def registeredOffer : List World.Act :=
  [.registry (IpRegistry.Scenario.act 1 seller (.commitIp seller design 0)),
    .swaps ⟨env [] 1, some (.initializeContract registry)⟩,
    .swaps ⟨env [seller] 1, some (.initiateSwap token 1 seller 1000 buyer 0 none 100 false)⟩]

def acceptance : World.Act := .swaps ⟨env [buyer] 2, some (.acceptSwap 0)⟩

def paidSale : List World.Act := registeredOffer ++ [acceptance]

def reveal : World.Act := .swaps ⟨env [seller] 3, some (.revealKey 0 seller secret secret)⟩

def revocation : World.Act := .registry (IpRegistry.Scenario.act 3 seller (.revokeIp 1))

def handover : World.Act :=
  .registry (IpRegistry.Scenario.act 3 seller (.transferIp 1 IpRegistry.Scenario.rival))

def isRevealed (w : World) : Bool :=
  decide ((w.swaps.swap 0).map AtomicSwap.SwapRecord.status = some .completed)

/-- The IP of the swap is revoked, or not the seller's. -/
def isDisturbed (w : World) : Bool :=
  (w.swaps.swap 0).all fun r => (w.registry.ipRecord r.ipId).all fun record =>
    decide (record.owner = r.seller → record.revoked = true)

instance {i : ℕ} {a b : World} : Decidable (TakesPrice i a b) :=
  inferInstanceAs (Decidable (∃ x ∈ newTransfers a.swaps b.swaps, _))

theorem reveal_completes {w : World} (h : isRevealed w = true) :
    CompletesOn 0 ⟨secret, secret⟩ reveal w :=
  ⟨_, _, rfl, ⟨rfl, rfl⟩, of_decide_eq_true h⟩

theorem sale_step {w w' : World} {act : World.Act} (h : turn act w = .ok ((), w'))
    (hact : act ∈ paidSale ++ [reveal, revocation, handover]) :
    World.Step crypto registry w act w' := by
  refine turn_step h fun env a hinit => ?_
  subst hinit
  simp [paidSale, registeredOffer, acceptance, reveal, revocation, handover] at hact
  exact hact.2

theorem sale_spares {act : World.Act} (h : act ∈ paidSale ++ [reveal]) (w : World) :
    w.Spares act := by
  simp only [paidSale, registeredOffer, List.cons_append, List.nil_append, List.mem_cons,
    List.not_mem_nil, or_false] at h
  rcases h with rfl | rfl | rfl | rfl | rfl
  · intro ipId seller _ hdisturbs
    simp [IpRegistry.Scenario.act, IpRegistry.Call.Disturbs, IpRegistry.Call.Transfers,
      IpRegistry.Call.Revokes, IpRegistry.Call.Rotates] at hdisturbs
  all_goals
    intro call hcall
    obtain rfl := Option.some.inj hcall
    trivial

theorem sale_spared {w w' : World} {act : World.Act} (h : turn act w = .ok ((), w'))
    (hact : act ∈ paidSale ++ [reveal]) :
    Restrict (World.Step crypto registry) World.Spares w act w' := by
  refine ⟨sale_step h ?_, sale_spares hact w⟩
  rcases List.mem_append.mp hact with hpaid | hreveal
  · exact List.mem_append_left _ hpaid
  · exact List.mem_append_right _ (List.mem_cons.mpr (.inl (List.mem_singleton.mp hreveal)))

theorem paid_sale_bound : ∃ tr a b,
    Run (Restrict (World.Step crypto registry) World.Spares) (World.empty funds)
      ((reveal, b) :: tr) b ∧
    CompletesOn 0 ⟨secret, secret⟩ reveal b ∧
    Happened (fun v _ v' => TakesPrice 0 v v') (World.empty funds) tr ∧
    Bound crypto (World.empty funds) tr a 0 ⟨secret, secret⟩ := by
  have hplayed : endsIn turn registeredOffer (World.empty funds) (fun v =>
      endsIn turn [acceptance] v fun a =>
        decide (TakesPrice 0 v a) && endsIn turn [reveal] a isRevealed) = true := by
    decide +kernel
  obtain ⟨tr, v, hrun, -, hlater⟩ := endsIn_run hplayed fun w act w' hmem h =>
    sale_spared h (List.mem_append_left _ (List.mem_append_left _ hmem))
  obtain ⟨a, haccept, hseen⟩ := endsIn_one hlater
  obtain ⟨hpaid, hlast⟩ := Bool.and_eq_true_iff.mp hseen
  obtain ⟨b, hreveal, hdone⟩ := endsIn_one hlast
  have hrun' := hrun.next (sale_spared haccept (by simp [paidSale]))
  have hrun'' := hrun'.next (sale_spared hreveal (by simp))
  exact ⟨_, a, b, hrun'', reveal_completes hdone,
    ⟨tr, v, acceptance, a, hrun.mem_steps_last, of_decide_eq_true hpaid⟩,
    spared_sales_bound hrun'' hrun'.mem_steps_last (reveal_completes hdone)⟩

/-- The act comes between payment and reveal, and the seller is paid for an unbound IP. -/
def SoldDespite (act : World.Act) : Prop :=
  ∃ tr a b, Run (World.Step crypto registry) (World.empty funds) ((reveal, b) :: (act, a) :: tr) b ∧
    CompletesOn 0 ⟨secret, secret⟩ reveal b ∧
    a.swaps.balance token seller < b.swaps.balance token seller ∧
    ¬ Bound crypto (World.empty funds) ((act, a) :: tr) a 0 ⟨secret, secret⟩

theorem sold_despite {act : World.Act} (hact : act ∈ [revocation, handover]) :
    SoldDespite act := by
  have hplayed : ∀ act ∈ [revocation, handover],
      endsIn turn paidSale (World.empty funds) (fun v =>
        endsIn turn [act] v fun a => isDisturbed a && endsIn turn [reveal] a fun b =>
          isRevealed b && decide (a.swaps.balance token seller < b.swaps.balance token seller))
        = true := by
    decide +kernel
  obtain ⟨tr, v, hrun, -, hlater⟩ := endsIn_run (hplayed act hact) fun w act w' hmem h =>
    sale_step h (List.mem_append_left _ hmem)
  obtain ⟨a, hdisturbs, hseen⟩ := endsIn_one hlater
  obtain ⟨hdisturbed, hlast⟩ := Bool.and_eq_true_iff.mp hseen
  obtain ⟨b, hreveal, hdone⟩ := endsIn_one hlast
  obtain ⟨hrevealed, hpaid⟩ := Bool.and_eq_true_iff.mp hdone
  have hmem := List.mem_append_right paidSale (List.mem_cons_of_mem reveal hact)
  have hrun' := hrun.next (sale_step hdisturbs hmem)
  have hrun'' := hrun'.next (sale_step hreveal (by simp))
  refine ⟨tr, a, b, hrun'', reveal_completes hrevealed, of_decide_eq_true hpaid, fun hbound => ?_⟩
  obtain ⟨r, hr, ⟨record, hrecord, howner, hlive⟩, -⟩ := hbound
  rw [isDisturbed, hr, Option.all_some, hrecord, Option.all_some] at hdisturbed
  have hrevoked := of_decide_eq_true hdisturbed howner
  cases hlive.symm.trans hrevoked

/-- The seller is paid for an IP that is revoked or somebody else's by then. -/
theorem disturbed_sales_unbound : SoldDespite revocation ∧ SoldDespite handover :=
  ⟨sold_despite (by simp), sold_despite (by simp)⟩

end Sales

end AtomicIp
