import AtomicIp.Swap.AdminRights
import AtomicIp.Swap.BatchReveal
import AtomicIp.Swap.OneSale

set_option autoImplicit false

namespace AtomicIp.AtomicSwap

open Function

section Openings

variable {env : Env} {s s₁ s' : State} {ipId : ℕ} {seller buyer token : Address}

theorem OwnsActiveIp.congr (h : OwnsActiveIp env s ipId seller)
    (hsame : s₁.ipRegistry = s.ipRegistry) : OwnsActiveIp env s₁ ipId seller := by
  obtain ⟨a, record, ha, hrecord⟩ := h
  exact ⟨a, record, hsame.trans ha, hrecord⟩

theorem Emits.opens_ipRegistry {c c' : Escrow} {ipIds : List ℕ} {referrer : Option Address}
    (h : Emits (Step env) (Opens ipIds seller buyer referrer) c c') :
    c'.ipRegistry = c.ipRegistry := by
  refine h.invariant (I := fun c₁ => c₁.ipRegistry = c.ipRegistry) ?_ rfl
  intro c₁ m c₂ hm hsame hstep
  obtain ⟨r, rfl, -⟩ := hm
  cases hstep
  exact hsame

theorem initiateSwapWithOraclePrice_owns {approvals : ℕ} {referrer : Option Address}
    {collateral minPrice maxPrice : ℤ} {insured : Bool} {id : ℕ}
    (h : initiateSwapWithOraclePrice env token ipId seller buyer approvals referrer collateral
      insured minPrice maxPrice s = .ok (id, s')) : OwnsActiveIp env s ipId seller := by
  simp [initiateSwapWithOraclePrice, fetchOraclePrice, loadOracleConfig, validatePriceBounds] at h
  obtain ⟨config, -, -, price, -, -, -, -, s₁, hinitiate, -⟩ := h
  exact (initiateSwap_opening hinitiate).2.2.1

theorem validateBatch_owns {items : List (ℕ × ℤ)} {u : Unit}
    (h : validateBatch env seller items s = .ok (u, s')) :
    ∀ item ∈ items, OwnsActiveIp env s item.1 seller := by
  induction items with
  | nil => simp
  | cons item rest ih =>
    simp [validateBatch] at h
    obtain ⟨-, howns, -, -, hrest⟩ := h
    intro item' hmem
    rcases List.mem_cons.mp hmem with rfl | hmem
    · exact howns
    · exact ih hrest item' hmem

theorem batchInitiateSwap_owns {ipIds : List ℕ} {prices : List ℤ} {approvals : ℕ}
    {referrer : Option Address} {ids : List ℕ}
    (h : batchInitiateSwap env token ipIds seller prices buyer approvals referrer s
      = .ok (ids, s')) : ∀ ip ∈ ipIds, OwnsActiveIp env s ip seller := by
  simp [batchInitiateSwap] at h
  obtain ⟨-, -, -, hlength, -, s₁, hvalid, -⟩ := h
  have howns := validateBatch_owns hvalid
  intro ip hip
  have hfst : (ipIds.zip prices).map Prod.fst = ipIds := List.map_fst_zip (by omega)
  rw [← hfst] at hip
  obtain ⟨item, hitem, rfl⟩ := List.mem_map.mp hip
  exact howns item hitem

theorem batchInitiateSwapWithInsurance_owns {ipIds : List ℕ} {prices : List ℤ} {approvals : ℕ}
    {referrer : Option Address} {insured : Bool} {ids : List ℕ}
    (h : batchInitiateSwapWithInsurance env token ipIds seller prices buyer approvals referrer
      insured s = .ok (ids, s')) : ∀ ip ∈ ipIds, OwnsActiveIp env s ip seller := by
  simp [batchInitiateSwapWithInsurance] at h
  obtain ⟨-, hauth, hloop⟩ := h
  refine Tx.forEach₂_each (I := fun s₁ => s₁.ipRegistry = s.ipRegistry) ?_ hloop rfl
  intro ip price s₁ id s₂ hsame hbody
  have hmoves := openInsured_moves hauth (List.mem_singleton_self ip) hbody
  refine ⟨(Emits.opens_ipRegistry hmoves).trans hsame, ?_⟩
  exact (openInsured_opening hbody).2.1.congr hsame.symm

theorem batchInitiateEscrow_owns {ipIds : List ℕ} {prices : List ℤ} {timeouts ids : List ℕ}
    (h : batchInitiateEscrow env token ipIds seller prices buyer timeouts s = .ok (ids, s')) :
    ∀ ip ∈ ipIds, OwnsActiveIp env s ip seller := by
  simp [batchInitiateEscrow] at h
  obtain ⟨-, hauth, -, hloop⟩ := h
  refine Tx.forEach₂_each (I := fun s₁ => s₁.ipRegistry = s.ipRegistry) ?_ hloop rfl
  intro ip item s₁ id s₂ hsame hbody
  have hmoves := openInEscrow_moves hauth (List.mem_singleton_self ip) hbody
  refine ⟨(Emits.opens_ipRegistry hmoves).trans hsame, ?_⟩
  exact (openInEscrow_opening hbody).2.1.congr hsame.symm

theorem startIpAuction_owns {minBid : ℤ} {duration id : ℕ}
    (h : startIpAuction env token ipId seller minBid duration s = .ok (id, s')) :
    OwnsActiveIp env s ipId seller := by
  simp [startIpAuction] at h
  obtain ⟨-, -, -, howns, -⟩ := h
  exact howns

theorem Opens.owns {ipIds : List ℕ} {referrer : Option Address} {r : SwapRecord}
    (hm : Opens ipIds seller buyer referrer (.initiated r))
    (howns : ∀ ip ∈ ipIds, OwnsActiveIp env s ip seller) : OwnsActiveIp env s r.ipId r.seller := by
  obtain ⟨r', hr', hip, hseller, -⟩ := hm
  obtain rfl := Move.initiated.inj hr'
  exact hseller ▸ howns r.ipId hip

theorem exec_owns {call : Call} {r : SwapRecord} (h : exec env call s = .ok ((), s'))
    (hm : call.yields (.initiated r)) : OwnsActiveIp env s r.ipId r.seller := by
  cases call with
  | initiateSwap =>
    obtain ⟨id, h⟩ := Tx.void_ok.mp h
    exact Opens.owns hm (by simpa using (initiateSwap_opening h).2.2.1)
  | initiateSwapWithOraclePrice =>
    obtain ⟨id, h⟩ := Tx.void_ok.mp h
    exact Opens.owns hm (by simpa using initiateSwapWithOraclePrice_owns h)
  | batchInitiateSwap =>
    obtain ⟨ids, h⟩ := Tx.void_ok.mp h
    exact Opens.owns hm (batchInitiateSwap_owns h)
  | batchInitiateSwapWithInsurance =>
    obtain ⟨ids, h⟩ := Tx.void_ok.mp h
    exact Opens.owns hm (batchInitiateSwapWithInsurance_owns h)
  | initiateSwapWithSchedule =>
    obtain ⟨id, h⟩ := Tx.void_ok.mp h
    exact Opens.owns hm (by simpa using (initiateSwapWithSchedule_opening h).2.2.1)
  | initiateEscrowSwap =>
    obtain ⟨id, h⟩ := Tx.void_ok.mp h
    exact Opens.owns hm (by simpa using (initiateEscrowSwap_opening h).2.2.1)
  | batchInitiateEscrow =>
    obtain ⟨ids, h⟩ := Tx.void_ok.mp h
    exact Opens.owns hm (batchInitiateEscrow_owns h)
  | initiateSwapWithSigners =>
    obtain ⟨id, h⟩ := Tx.void_ok.mp h
    exact Opens.owns hm (by simpa using (initiateSwapWithSigners_opening h).2.2.1)
  | resolveDispute _ _ refunded => cases refunded <;> simp [Call.yields, verdict] at hm
  | arbitrateSwap _ _ refund => cases refund <;> simp [Call.yields, verdict] at hm
  | batchArbitrateSwaps _ _ refund => cases refund <;> simp [Call.yields, verdict] at hm
  | _ => simp [Call.yields] at hm

theorem exec_owns_auction {call : Call} {a : AuctionRecord} (h : exec env call s = .ok ((), s'))
    (hm : call.yields (.auctionStarted a)) : OwnsActiveIp env s a.ipId a.seller := by
  obtain ⟨token, minBid, duration, rfl⟩ := Call.yields_source hm
  obtain ⟨id, h⟩ := Tx.void_ok.mp h
  exact startIpAuction_owns h

end Openings

section Origins

variable {env : Env} {c c' : Escrow} {m : Move} {i j : ℕ} {r r' : SwapRecord} {a a' : AuctionRecord}

theorem SwapStatus.Live.of_eq {q : SwapStatus} (hst : r.status = q) (hq : q.Live) :
    r.status.Live := by
  rwa [hst]

/-- A live swap was live before, unless a scheduled payment has revived it, or it is new. -/
theorem Step.live_origin (hstep : Step env c m c') (hwf : Wf c) (hr' : c'.swap i = some r')
    (hlive : r'.status.Live) :
    (∃ r, c.swap i = some r ∧ r'.terms = r.terms ∧
      (r.status.Live ∨ ∃ last, m = .scheduled i last)) ∨ c.swap i = none ∧ Adds m c r' := by
  cases hstep.rewrites with
  | same h =>
    rw [h] at hr'
    exact .inl ⟨r', hr', rfl, .inl hlive⟩
  | moved k r₀ r₁ hm hr₀ hswap h =>
    rw [hswap] at hr'
    by_cases hik : i = k
    · subst hik
      rw [if_pos rfl] at hr'
      obtain rfl := Option.some.inj hr'
      refine .inl ⟨r₀, hr₀, h.terms, ?_⟩
      obtain ⟨r, hr, hguard⟩ := hstep.guard hm
      obtain rfl := Option.some.inj (hr₀.symm.trans hr)
      have hst := h.status
      cases hguard with
      | accepted hfrom =>
        rcases hfrom with hfrom | hfrom
        · exact .inl (.of_eq hfrom trivial)
        · exact .inl (.of_eq hfrom trivial)
      | installment last hfrom => exact .inl (.of_eq hfrom trivial)
      | scheduled last => exact .inr ⟨last, rfl⟩
      | offered hfrom => exact .inl (.of_eq hfrom trivial)
      | amended hfrom => exact .inl (.of_eq hfrom trivial)
      | disputed hfrom => exact .inl (.of_eq hfrom trivial)
      | cancelled hfrom => exact .inl (.of_eq hfrom trivial)
      | withdrawn hfrom => exact .inl (.of_eq hfrom trivial)
      | released | refunded | rolledBack | adminRolledBack =>
        rw [hst] at hlive
        exact hlive.elim
      | claimed =>
        rw [hst] at hlive
        exact .inl hlive
    · rw [if_neg hik] at hr'
      exact .inl ⟨r', hr', rfl, .inl hlive⟩
  | added r₁ hm h hswap =>
    rw [hswap] at hr'
    by_cases hi : i = c.count
    · rw [if_pos hi] at hr'
      obtain rfl := Option.some.inj hr'
      exact .inr ⟨hi ▸ hwf.fresh, h⟩
    · rw [if_neg hi] at hr'
      exact .inl ⟨r', hr', rfl, .inl hlive⟩

theorem Step.open_origin (hstep : Step env c m c') (hwf : Wf c) (ha' : c'.auction j = some a')
    (hopen : a'.finalized = false) :
    (∃ a, c.auction j = some a ∧ a.finalized = false ∧ a'.ipId = a.ipId ∧ a'.seller = a.seller) ∨
      c.auction j = none ∧ m = .auctionStarted a' := by
  cases hstep with
  | @auctionStarted a =>
    change update c.auction c.auctionCount (some a) j = some a' at ha'
    by_cases hj : j = c.auctionCount
    · subst hj
      rw [update_self] at ha'
      obtain rfl := Option.some.inj ha'
      refine .inr ⟨?_, rfl⟩
      cases hold : c.auction c.auctionCount with
      | none => rfl
      | some a => exact absurd (hwf.auction _ _ hold).1 (Nat.lt_irrefl _)
    · rw [update_of_ne hj] at ha'
      exact .inl ⟨a', ha', hopen, rfl, rfl⟩
  | @bid k a bidder amount ha hopen' =>
    change update c.auction k (some _) j = some a' at ha'
    by_cases hj : j = k
    · subst hj
      rw [update_self] at ha'
      obtain rfl := Option.some.inj ha'
      exact .inl ⟨a, ha, hopen', rfl, rfl⟩
    · rw [update_of_ne hj] at ha'
      exact .inl ⟨a', ha', hopen, rfl, rfl⟩
  | @unsold k a ha | @sold k a _ _ ha =>
    change update c.auction k (some a.close) j = some a' at ha'
    by_cases hj : j = k
    · subst hj
      rw [update_self] at ha'
      obtain rfl := Option.some.inj ha'
      cases hopen
    · rw [update_of_ne hj] at ha'
      exact .inl ⟨a', ha', hopen, rfl, rfl⟩
  | _ => exact .inl ⟨a', ha', hopen, rfl, rfl⟩

theorem Step.auction_lasts (hstep : Step env c m c') (h : (c.auction j).isSome = true) :
    (c'.auction j).isSome = true := by
  have hset : ∀ k a, (update c.auction k (some a) j).isSome = true := by
    intro k a
    by_cases hj : j = k
    · subst hj
      rw [update_self]
      rfl
    · rwa [update_of_ne hj]
  cases hstep with
  | auctionStarted => exact hset _ _
  | bid => exact hset _ _
  | unsold => exact hset _ _
  | sold => exact hset _ _
  | _ => exact h

theorem Step.finalized_open (hstep : Step env c (.finalized j) c') :
    ∃ a, c.auction j = some a ∧ a.finalized = false := by
  cases hstep with
  | unsold ha hopen => exact ⟨_, ha, hopen⟩
  | sold ha hopen => exact ⟨_, ha, hopen⟩

end Origins

/-- No scheduled payment revives a settled swap. -/
def RevivesNone (s : State) (_env : Env) : Call → Prop
  | .makeScheduledPayment i _ => ∀ r, s.swap i = some r → r.status.Live
  | _ => True

/-- Where a live swap comes from: it was one before, or the registry was asked about its IP, or
its auction has ended. -/
def Begins (env : Env) (call : Option Call) (s : State) (i : ℕ) (r : SwapRecord) : Prop :=
  (∃ r₀, s.swap i = some r₀ ∧ r₀.status.Live ∧ r₀.ipId = r.ipId ∧ r₀.seller = r.seller) ∨
    s.swap i = none ∧ (OwnsActiveIp env s r.ipId r.seller ∨
      ∃ j a, call = some (.finalizeAuction j) ∧ s.auction j = some a ∧ a.finalized = false ∧
        a.ipId = r.ipId ∧ a.seller = r.seller)

section Acts

variable {env : Env} {s s' : State} {c : Escrow} {m : Move} {i j : ℕ} {r r' : SwapRecord}
  {a' : AuctionRecord} {call : Call} {act : Act}

def BegunBy (call : Call) (s : State) (i : ℕ) (r : SwapRecord) : Prop :=
  (∃ r₀, s.swap i = some r₀ ∧ r₀.status.Live ∧ r₀.ipId = r.ipId ∧ r₀.seller = r.seller) ∨
    s.swap i = none ∧ ∃ r₀, call.yields (.initiated r₀) ∧ r₀.ipId = r.ipId ∧ r₀.seller = r.seller

theorem exec_begunBy (h : exec env call s = .ok ((), s')) (hwf : Wf s.escrow)
    (hfinal : ∀ j, call ≠ .finalizeAuction j) (hsched : ∀ j n, call ≠ .makeScheduledPayment j n)
    (hr' : s'.swap i = some r') (hlive : r'.status.Live) : BegunBy call s i r' := by
  obtain ⟨q, hmoves⟩ := exec_answers h
  have hall := hmoves.invariant (I := fun c => Wf c ∧ (∀ i, c.swap i = none → s.swap i = none) ∧
    ∀ i r, c.swap i = some r → r.status.Live → BegunBy call s i r) ?_
    ⟨hwf, fun _ hi => hi, fun i r hr hlive => .inl ⟨r, hr, hlive, rfl, rfl⟩⟩
  · exact hall.2.2 i r' hr' hlive
  · intro c m c' hm hc hstep
    obtain ⟨hwf, hnone, hbegun⟩ := hc
    refine ⟨hstep.wf hwf, fun i hi => ?_, fun i r hr hlive => ?_⟩
    · cases hold : c.swap i with
      | none => exact hnone i hold
      | some r =>
        obtain ⟨r', hr', -⟩ := hstep.keeps hwf hold
        rw [hi] at hr'
        cases hr'
    · rcases hstep.live_origin hwf hr hlive with ⟨r₀, hr₀, hterms, hlive₀ | ⟨last, rfl⟩⟩ |
        ⟨hnew, hadds⟩
      · have hip : r.ipId = r₀.ipId := congrArg Terms.ipId hterms
        have hseller : r.seller = r₀.seller := congrArg Terms.seller hterms
        rw [BegunBy, hip, hseller]
        exact hbegun i r₀ hr₀ hlive₀
      · obtain ⟨n, hcall⟩ := Call.yields_source hm.1
        exact absurd hcall (hsched _ _)
      · rcases hadds with ⟨rfl, -⟩ | ⟨j, a, buyer, rfl, -⟩
        · exact .inr ⟨hnone i hnew, r, hm.1, rfl, rfl⟩
        · exact absurd (Call.yields_source hm.1) (hfinal j)

theorem finalizeAuction_begins (h : finalizeAuction env j s = .ok ((), s')) (hwf : Wf s.escrow)
    (hr' : s'.swap i = some r') (hlive : r'.status.Live) :
    (∃ r, s.swap i = some r ∧ r.status.Live ∧ r.ipId = r'.ipId ∧ r.seller = r'.seller) ∨
      s.swap i = none ∧ ∃ a, s.auction j = some a ∧ a.finalized = false ∧ a.ipId = r'.ipId ∧
        a.seller = r'.seller := by
  have hstep := finalizeAuction_step h
  rcases hstep.live_origin hwf hr' hlive with ⟨r, hr, hterms, hlive₀ | ⟨last, hm⟩⟩ | ⟨hnew, hadds⟩
  · have hip : r'.ipId = r.ipId := congrArg Terms.ipId hterms
    have hseller : r'.seller = r.seller := congrArg Terms.seller hterms
    exact .inl ⟨r, hr, hlive₀, hip.symm, hseller.symm⟩
  · cases hm
  · rcases hadds with ⟨hm, -⟩ | ⟨k, a, buyer, hm, ha, -, hwon⟩
    · cases hm
    · obtain rfl := Move.finalized.inj hm
      obtain ⟨a₁, ha₁, hopen⟩ := hstep.finalized_open
      obtain rfl := Option.some.inj (ha.symm.trans ha₁)
      exact .inr ⟨hnew, a, ha, hopen, hwon.ipId.symm, hwon.seller.symm⟩

theorem ActStep.begins (hact : ActStep s act s') (hwf : Wf s.escrow)
    (hcond : OnCalls RevivesNone s act) (hr' : s'.swap i = some r') (hlive : r'.status.Live) :
    Begins act.env act.call s i r' := by
  cases hact with
  | elsewhere => exact .inl ⟨r', hr', hlive, rfl, rfl⟩
  | @call _ env call hexec =>
    by_cases hfinal : ∃ j, call = .finalizeAuction j
    · obtain ⟨j, rfl⟩ := hfinal
      rcases finalizeAuction_begins hexec hwf hr' hlive with ⟨r, hr, hlive₀, hip, hseller⟩ |
        ⟨hnew, a, ha, hopen, hip, hseller⟩
      · exact .inl ⟨r, hr, hlive₀, hip, hseller⟩
      · exact .inr ⟨hnew, .inr ⟨j, a, rfl, ha, hopen, hip, hseller⟩⟩
    · by_cases hsched : ∃ j n, call = .makeScheduledPayment j n
      · obtain ⟨j, n, rfl⟩ := hsched
        obtain ⟨last, -, hstep⟩ := makeScheduledPayment_step hexec
        rcases hstep.live_origin hwf hr' hlive with ⟨r, hr, hterms, hbefore⟩ | ⟨-, hadds⟩
        · have hip : r'.ipId = r.ipId := congrArg Terms.ipId hterms
          have hseller : r'.seller = r.seller := congrArg Terms.seller hterms
          have hlive₀ : r.status.Live := by
            rcases hbefore with hlive₀ | ⟨last', hm⟩
            · exact hlive₀
            · obtain ⟨rfl, -⟩ := Move.scheduled.inj hm
              exact hcond _ rfl r hr
          exact .inl ⟨r, hr, hlive₀, hip.symm, hseller.symm⟩
        · have happart := hadds.apart
          cases happart
      · have hbegun := exec_begunBy hexec hwf (fun j hj => hfinal ⟨j, hj⟩)
          (fun j n hj => hsched ⟨j, n, hj⟩) hr' hlive
        rcases hbegun with hbefore | ⟨hnew, r₀, hm, hip, hseller⟩
        · exact .inl hbefore
        · have howns := exec_owns hexec hm
          rw [hip, hseller] at howns
          exact .inr ⟨hnew, .inl howns⟩

theorem ActStep.opens (hact : ActStep s act s') (hwf : Wf s.escrow)
    (ha' : s'.auction j = some a') (hopen : a'.finalized = false) :
    (∃ a, s.auction j = some a ∧ a.finalized = false ∧ a.ipId = a'.ipId ∧ a.seller = a'.seller) ∨
      s.auction j = none ∧ OwnsActiveIp act.env s a'.ipId a'.seller := by
  cases hact with
  | elsewhere => exact .inl ⟨a', ha', hopen, rfl, rfl⟩
  | @call _ env call hexec =>
    obtain ⟨q, hmoves⟩ := exec_answers hexec
    have hall := hmoves.invariant (I := fun c => Wf c ∧
      (∀ j, c.auction j = none → s.auction j = none) ∧ ∀ j a', c.auction j = some a' →
        a'.finalized = false →
        (∃ a, s.auction j = some a ∧ a.finalized = false ∧ a.ipId = a'.ipId ∧
          a.seller = a'.seller) ∨ s.auction j = none ∧ OwnsActiveIp env s a'.ipId a'.seller) ?_
      ⟨hwf, fun _ hj => hj, fun j a ha hopen => .inl ⟨a, ha, hopen, rfl, rfl⟩⟩
    · exact hall.2.2 j a' ha' hopen
    · intro c m c' hm hc hstep
      obtain ⟨hwf, hnone, hopens⟩ := hc
      refine ⟨hstep.wf hwf, fun j hj => ?_, fun j a' ha' hopen => ?_⟩
      · cases hold : c.auction j with
        | none => exact hnone j hold
        | some a =>
          have hlasts := hstep.auction_lasts (Option.isSome_of_eq_some hold)
          rw [hj] at hlasts
          cases hlasts
      · rcases hstep.open_origin hwf ha' hopen with ⟨a, ha, hopen₀, hip, hseller⟩ | ⟨hnew, rfl⟩
        · rw [hip, hseller]
          exact hopens j a ha hopen₀
        · exact .inr ⟨hnone j hnew, exec_owns_auction hexec hm.1⟩

theorem ActStep.auction_lasts (hact : ActStep s act s') (h : (s.auction j).isSome = true) :
    (s'.auction j).isSome = true := by
  obtain ⟨q, hmoves⟩ := hact.answers
  exact hmoves.invariant (I := fun c => (c.auction j).isSome = true)
    (fun _ _ _ _ hc hstep => hstep.auction_lasts hc) h

theorem ActStep.ipRegistry (hact : ActStep s act s') : s'.ipRegistry = s.ipRegistry ∨
    ∃ a, act.call = some (.initializeContract a) ∧ s'.ipRegistry = some a := by
  cases hact with
  | elsewhere => exact .inl rfl
  | @call _ env call hexec =>
    by_cases hconf : call.yields .configured
    · rcases Call.yields_source hconf with ⟨a, rfl⟩ | ⟨a, rfl⟩
      · simp [exec, initializeContract] at hexec
        rw [hexec.2]
        exact .inr ⟨a, rfl, rfl⟩
      · simp [exec, setAdmin] at hexec
        rw [hexec.2.2]
        exact .inl rfl
    · obtain ⟨q, hmoves⟩ := exec_answers hexec
      refine .inl (hmoves.invariant (I := fun c => c.ipRegistry = s.ipRegistry) ?_ rfl)
      intro c m c' hm hsame hstep
      have hne : m ≠ .configured := by
        rintro rfl
        exact hconf hm.1
      rw [(hstep.configuration hne).2, hsame]

end Acts

section Named

variable {env : Env} {s s' : State} {c c' : Escrow} {m : Move} {act : Act} {i : ℕ} {r : SwapRecord}
  {tr : List (Act × State)} {balance : Address → Address → ℤ}

/-- Nothing was ever offered, by itself or in an auction. -/
structure Unlisted (c : Escrow) : Prop where
  swaps : ∀ i, c.swap i = none
  auctions : ∀ j, c.auction j = none

theorem Step.unlisted (hstep : Step env c m c') (hswap : ∀ r, m ≠ .initiated r)
    (hauction : ∀ a, m ≠ .auctionStarted a) (h : Unlisted c) : Unlisted c' := by
  cases hstep with
  | configured => exact ⟨h.swaps, h.auctions⟩
  | received => exact ⟨h.swaps, h.auctions⟩
  | initiated => exact absurd rfl (hswap _)
  | auctionStarted => exact absurd rfl (hauction _)
  | bid ha | unsold ha | sold ha => cases (h.auctions _).symm.trans ha
  | accepted _ _ _ _ hr | installment _ _ hr | scheduled _ _ hr | offered hr | repriced hr
  | extended _ hr | disputed hr | cancelled hr | released hr | refunded hr | withdrawn hr
  | rolledBack hr | adminRolledBack hr | claimed hr => cases (h.swaps _).symm.trans hr

theorem ActStep.unlisted (hact : ActStep s act s') (hnone : s'.ipRegistry = none)
    (h : s.ipRegistry = none → Unlisted s.escrow) : Unlisted s'.escrow := by
  have hbefore : s.ipRegistry = none := by
    rcases hact.ipRegistry with hsame | ⟨a, -, hnamed⟩
    · exact hsame.symm.trans hnone
    · cases hnone.symm.trans hnamed
  cases hact with
  | elsewhere => exact ⟨(h hbefore).swaps, (h hbefore).auctions⟩
  | @call _ env call hexec =>
    have hunowned : ∀ ip seller, ¬ OwnsActiveIp env s ip seller := by
      rintro ip seller ⟨a, -, ha, -⟩
      cases hbefore.symm.trans ha
    obtain ⟨q, hmoves⟩ := exec_answers hexec
    refine hmoves.invariant (I := Unlisted) (fun c m c' hm hc hstep => hstep.unlisted ?_ ?_ hc)
      (h hbefore)
    · rintro r rfl
      exact hunowned _ _ (exec_owns hexec hm.1)
    · rintro a rfl
      exact hunowned _ _ (exec_owns_auction hexec hm.1)

theorem registry_named (hrun : Run ActStep (State.empty balance) tr s) (hr : s.swap i = some r) :
    ∃ a, s.ipRegistry = some a := by
  cases hnone : s.ipRegistry with
  | some a => exact ⟨a, rfl⟩
  | none =>
    have hunlisted : Unlisted s.escrow := hrun.invariant
      (I := fun s => s.ipRegistry = none → Unlisted s.escrow)
      (fun _ => ⟨fun _ => rfl, fun _ => rfl⟩)
      (fun _ _ _ hI hact hnone => hact.unlisted hnone hI) hnone
    cases (hunlisted.swaps i).symm.trans hr

end Named

theorem placeBid_auction {env : Env} {s s' : State} {j : ℕ} {bidder : Address} {amount : ℤ}
    {u : Unit} (h : placeBid env j bidder amount s = .ok (u, s')) :
    (s.auction j).isSome = true := by
  obtain ⟨a, ha, -⟩ := placeBid_escrow h
  exact Option.isSome_of_eq_some ha

section Reveals

variable {env : Env} {s s' : State} {i : ℕ} {k : Key} {call : Call}

def Call.PresentsFor (call : Call) (i : ℕ) (k : Key) : Prop :=
  match call with
  | .revealKey j _ secret blindingFactor | .verifyAndCompleteSwap j _ secret blindingFactor =>
      j = i ∧ k = ⟨secret, blindingFactor⟩
  | .batchRevealKeys ids secrets blindingFactors _ =>
      (i, k) ∈ ids.zip (List.zipWith Key.mk secrets blindingFactors)
  | _ => False

/-- A swap that is completed on a key was accepted, and the registry took every key that was
presented for it. -/
theorem exec_reveals (h : exec env call s = .ok ((), s')) (hk : call.PresentsFor i k)
    (hdone : (s'.swap i).map SwapRecord.status = some .completed) :
    ∃ r, s.swap i = some r ∧ r.status = .accepted ∧
      KeyCheck env s.ipRegistry r.ipId k.secret k.blindingFactor true := by
  cases call with
  | revealKey j caller secret blindingFactor =>
    obtain ⟨rfl, rfl⟩ := hk
    exact released_checked (revealKey_step h)
  | verifyAndCompleteSwap j caller secret blindingFactor =>
    obtain ⟨rfl, rfl⟩ := hk
    exact verifyAndCompleteSwap_checked h hdone
  | batchRevealKeys ids secrets blindingFactors seller =>
    simp [exec, batchRevealKeys] at h
    obtain ⟨-, -, -, -, _, s₁, hvalid, -⟩ := h
    obtain ⟨-, -, hall⟩ := Tx.forEach₂_checks (fun _ _ _ _ _ => validateReveal_ok) hvalid
    obtain ⟨r, hr, -, hfrom, hkey⟩ := hall _ hk
    exact ⟨r, hr, hfrom, hkey⟩
  | _ => exact hk.elim

end Reveals

end AtomicIp.AtomicSwap
