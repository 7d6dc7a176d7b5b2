import AtomicIp.Swap.Initiation
import AtomicIp.Swap.Refine.Effects

set_option autoImplicit false

namespace AtomicIp.AtomicSwap

open Function

variable {env : Env} {s s' : State} {u : Unit} {i ipId : ℕ} {r : SwapRecord}
  {token seller buyer : Address}

def Opens (ipIds : List ℕ) (seller buyer : Address) (referrer : Option Address)
    (m : Move) : Prop :=
  ∃ r, m = .initiated r ∧ r.ipId ∈ ipIds ∧ r.seller = seller ∧ r.buyer = buyer ∧
    r.referrer = referrer

theorem Opens.mono {ipIds ipIds' : List ℕ} {referrer : Option Address} {m : Move}
    (h : Opens ipIds seller buyer referrer m) (hle : ipIds ⊆ ipIds') :
    Opens ipIds' seller buyer referrer m := by
  obtain ⟨r, hm, hip, hrest⟩ := h
  exact ⟨r, hm, hle hip, hrest⟩

section Steps

@[simp] theorem nextSwapId_ok : nextSwapId s = .ok (i, s') ↔ i = s.escrow.count ∧ s' = s :=
  Tx.load_ok

def premiumOn (insured : Bool) (price : ℤ) : ℤ := if insured then (price * 2).tdiv 100 else 0

theorem premiumFor_ok {insured : Bool} {price premium : ℤ}
    (h : premiumFor insured price s = .ok (premium, s')) :
    premium = premiumOn insured price ∧ s' = s := by
  cases insured with
  | false =>
    simp [premiumFor] at h
    exact h
  | true =>
    simp [premiumFor] at h
    exact ⟨h.2, h.1.2⟩

theorem premiumOn_share {insured : Bool} {price : ℤ} (hprice : 0 < price) :
    0 ≤ premiumOn insured price ∧ premiumOn insured price < price := by
  cases insured with
  | false => exact ⟨le_rfl, hprice⟩
  | true =>
    simp only [premiumOn, if_true]
    rw [Int.tdiv_eq_ediv_of_nonneg (by omega)]
    omega

theorem storeInsurance_escrow {insured : Bool} {premium : ℤ}
    (h : storeInsurance insured i premium s = .ok (u, s')) : s'.escrow = s.escrow := by
  rcases Tx.onlyIf_ok.mp h with ⟨-, h⟩ | ⟨-, rfl⟩
  · rw [Tx.store_ok.mp h]; rfl
  · rfl

theorem openSwap_escrow (h : openSwap i r s = .ok (u, s')) :
    s'.escrow = (s.escrow.setSwap i (some r)).setActiveSwap r.ipId (some i) := by
  simp [openSwap] at h
  simp [appendSwapForParty_escrow h]

theorem announceSwap_escrow {topic : String} (h : announceSwap env topic i r s = .ok (u, s')) :
    s'.escrow = s.escrow.setNextId (some (i + 1)) := by
  simp [announceSwap] at h
  obtain ⟨s₁, hhistory, -, rfl⟩ := h
  simp [appendHistory_escrow hhistory]

section Opening

variable {topic : String} {s₁ s₂ s₃ : State} {v : Unit}

theorem opening_escrow (e₁ : s₁.escrow = s.escrow)
    (hopen : openSwap s.escrow.count r s₁ = .ok (u, s₂)) (e₂ : s₃.escrow = s₂.escrow)
    (hannounce : announceSwap env topic s.escrow.count r s₃ = .ok (v, s')) :
    s'.escrow = (s.escrow.enlist r).setActiveSwap r.ipId (some s.escrow.count) := by
  rw [announceSwap_escrow hannounce, e₂, openSwap_escrow hopen, e₁]
  rfl

theorem opening_step {ipIds : List ℕ} (hfresh : FreshSwap r)
    (hfree : s.escrow.activeSwap r.ipId = none) (hauth : r.seller ∈ env.auths)
    (hip : r.ipId ∈ ipIds) (e₁ : s₁.escrow = s.escrow)
    (hopen : openSwap s.escrow.count r s₁ = .ok (u, s₂)) (e₂ : s₃.escrow = s₂.escrow)
    (hannounce : announceSwap env topic s.escrow.count r s₃ = .ok (v, s')) :
    ∃ m, Opens ipIds r.seller r.buyer r.referrer m ∧ Step env s.escrow m s'.escrow := by
  rw [opening_escrow e₁ hopen e₂ hannounce]
  exact ⟨_, ⟨r, rfl, hip, rfl, rfl, rfl⟩, .initiated hfresh hfree hauth⟩

theorem opening_moves {ipIds : List ℕ} (hfresh : FreshSwap r)
    (hfree : s.escrow.activeSwap r.ipId = none) (hauth : r.seller ∈ env.auths)
    (hip : r.ipId ∈ ipIds) (e₁ : s₁.escrow = s.escrow)
    (hopen : openSwap s.escrow.count r s₁ = .ok (u, s₂)) (e₂ : s₃.escrow = s₂.escrow)
    (hannounce : announceSwap env topic s.escrow.count r s₃ = .ok (v, s')) :
    Emits (Step env) (Opens ipIds r.seller r.buyer r.referrer) s.escrow s'.escrow := by
  obtain ⟨m, hm, hstep⟩ := opening_step hfresh hfree hauth hip e₁ hopen e₂ hannounce
  exact .single hstep hm

end Opening

end Steps

section Openings

variable {price : ℤ} {approvals id : ℕ} {referrer : Option Address} {insured : Bool}

theorem initiateSwap_opening {collateral : ℤ}
    (h : initiateSwap env token ipId seller price buyer approvals referrer collateral insured s
      = .ok (id, s')) :
    seller ∈ env.auths ∧ 0 < price ∧ OwnsActiveIp env s ipId seller ∧
      s.escrow.activeSwap ipId = none ∧ id = s.escrow.count ∧
      ∃ premium r s₁ s₂ s₃, premium = premiumOn insured price ∧
        r = (pendingSwap token ipId seller price buyer (env.timestamp + 604800)).withOptions
          approvals referrer collateral premium insured ∧
        storeInsurance insured id premium
          (s.setPersistentAdmin (some (s.persistentAdmin.getD seller))) = .ok ((), s₁) ∧
        openSwap id r s₁ = .ok ((), s₂) ∧ appendIpSwap ipId id s₂ = .ok ((), s₃) ∧
        announceSwap env "swap_init" id r s₃ = .ok ((), s') := by
  simp [initiateSwap, initPersistentAdmin, defaultExpiry] at h
  obtain ⟨-, hauth, hprice, howns, hfree, -, premium, s₀, hpremium, s₁, hinsure, s₂, hopen, s₃,
    hindex, ⟨_, hannounce⟩, rfl⟩ := h
  obtain ⟨hshare, rfl⟩ := premiumFor_ok hpremium
  exact ⟨hauth, hprice, howns, hfree, rfl, premium, _, s₁, s₂, s₃, hshare, rfl, hinsure, hopen,
    hindex, hannounce⟩

theorem initiateSwapWithSchedule_opening {schedule : List PaymentSchedule}
    (h : initiateSwapWithSchedule env token ipId seller schedule buyer s = .ok (id, s')) :
    seller ∈ env.auths ∧
      0 < schedule.foldl (fun total payment => saturatingI128 (total + payment.amount)) 0 ∧
      OwnsActiveIp env s ipId seller ∧ s.escrow.activeSwap ipId = none ∧ id = s.escrow.count ∧
      ∃ r s₁ s₂, r = (pendingSwap token ipId seller
          (schedule.foldl (fun total payment => saturatingI128 (total + payment.amount)) 0) buyer
          (env.timestamp + 604800)).inInstallments ∧
        openSwap id r s = .ok ((), s₁) ∧
        appendIpSwap ipId id ((s₁.setPaymentSchedule id (some schedule)).setPaymentsMade id
          (some (List.replicate schedule.length false))) = .ok ((), s₂) ∧
        announceSwap env "swap_init" id r s₂ = .ok ((), s') := by
  simp [initiateSwapWithSchedule, defaultExpiry] at h
  obtain ⟨-, hauth, -, hprice, howns, hfree, -, s₁, hopen, s₂, hindex, ⟨_, hannounce⟩, rfl⟩ := h
  exact ⟨hauth, hprice, howns, hfree, rfl, _, s₁, s₂, rfl, hopen, hindex, hannounce⟩

theorem initiateEscrowSwap_opening {timeout : ℕ}
    (h : initiateEscrowSwap env token ipId seller price buyer timeout s = .ok (id, s')) :
    seller ∈ env.auths ∧ 0 < price ∧ OwnsActiveIp env s ipId seller ∧
      s.escrow.activeSwap ipId = none ∧ id = s.escrow.count ∧
      ∃ r s₁, r = pendingSwap token ipId seller price buyer timeout ∧
        openSwap id r s = .ok ((), s₁) ∧
        announceSwap env "esc_ini" id r (s₁.setSwapMode id (some .escrow)) = .ok ((), s') := by
  simp [initiateEscrowSwap, setEscrowMode] at h
  obtain ⟨-, hauth, hprice, howns, hfree, s₁, hopen, ⟨_, hannounce⟩, rfl⟩ := h
  exact ⟨hauth, hprice, howns, hfree, rfl, _, s₁, rfl, hopen, hannounce⟩

theorem initiateSwapWithSigners_opening {signers : List Address}
    (h : initiateSwapWithSigners env token ipId seller price buyer signers s = .ok (id, s')) :
    seller ∈ env.auths ∧ 0 < price ∧ OwnsActiveIp env s ipId seller ∧
      s.escrow.activeSwap ipId = none ∧ id = s.escrow.count ∧
      ∃ r s₁ s₂, r = pendingSwap token ipId seller price buyer (env.timestamp + 604800) ∧
        openSwap id r s = .ok ((), s₁) ∧
        appendIpSwap ipId id (s₁.setSwapSigners id (some signers)) = .ok ((), s₂) ∧
        announceSwap env "swap_init" id r s₂ = .ok ((), s') := by
  simp [initiateSwapWithSigners, defaultExpiry] at h
  obtain ⟨-, hauth, hprice, howns, hfree, -, -, s₁, hopen, s₂, hindex, ⟨_, hannounce⟩, rfl⟩ := h
  exact ⟨hauth, hprice, howns, hfree, rfl, _, s₁, s₂, rfl, hopen, hindex, hannounce⟩

theorem openValidated_opening {item : ℕ × ℤ}
    (h : openValidated env token seller buyer approvals referrer item s = .ok (id, s')) :
    id = s.escrow.count ∧ ∃ r s₁ s₂,
      r = (pendingSwap token item.1 seller item.2 buyer (env.timestamp + 604800)).withOptions
        approvals referrer 0 0 false ∧
      openSwap id r s = .ok ((), s₁) ∧ appendIpSwap item.1 id s₁ = .ok ((), s₂) ∧
      announceSwap env "swap_init" id r s₂ = .ok ((), s') := by
  simp [openValidated, defaultExpiry] at h
  obtain ⟨-, s₁, hopen, s₂, hindex, ⟨_, hannounce⟩, rfl⟩ := h
  exact ⟨rfl, _, s₁, s₂, rfl, hopen, hindex, hannounce⟩

theorem openInsured_opening
    (h : openInsured env token seller buyer approvals referrer insured ipId price s
      = .ok (id, s')) :
    0 < price ∧ OwnsActiveIp env s ipId seller ∧ s.escrow.activeSwap ipId = none ∧
      id = s.escrow.count ∧
      ∃ premium r s₁ s₂ s₃, premium = premiumOn insured price ∧
        r = (pendingSwap token ipId seller price buyer (env.timestamp + 604800)).withOptions
          approvals referrer 0 premium insured ∧
        storeInsurance insured id premium s = .ok ((), s₁) ∧
        openSwap id r s₁ = .ok ((), s₂) ∧ appendIpSwap ipId id s₂ = .ok ((), s₃) ∧
        announceSwap env "swap_init" id r s₃ = .ok ((), s') := by
  simp [openInsured, defaultExpiry] at h
  obtain ⟨hprice, howns, hfree, premium, s₀, hpremium, -, s₁, hinsure, s₂, hopen, s₃, hindex,
    ⟨_, hannounce⟩, rfl⟩ := h
  obtain ⟨hshare, rfl⟩ := premiumFor_ok hpremium
  exact ⟨hprice, howns, hfree, rfl, premium, _, s₁, s₂, s₃, hshare, rfl, hinsure, hopen, hindex,
    hannounce⟩

theorem openInEscrow_opening {item : ℤ × ℕ}
    (h : openInEscrow env token seller buyer ipId item s = .ok (id, s')) :
    0 < item.1 ∧ OwnsActiveIp env s ipId seller ∧ s.escrow.activeSwap ipId = none ∧
      id = s.escrow.count ∧
      ∃ r s₁ s₂, r = pendingSwap token ipId seller item.1 buyer item.2 ∧
        openSwap id r s = .ok ((), s₁) ∧
        appendIpSwap ipId id (s₁.setSwapMode id (some .escrow)) = .ok ((), s₂) ∧
        announceSwap env "esc_ini" id r s₂ = .ok ((), s') := by
  simp [openInEscrow, setEscrowMode] at h
  obtain ⟨hprice, howns, hfree, s₁, hopen, s₂, hindex, ⟨_, hannounce⟩, rfl⟩ := h
  exact ⟨hprice, howns, hfree, rfl, _, s₁, s₂, rfl, hopen, hindex, hannounce⟩

end Openings

section Single

variable {price : ℤ} {expiry : ℕ}

theorem freshSwap_pending (h : 0 < price) :
    FreshSwap (pendingSwap token ipId seller price buyer expiry) :=
  ⟨rfl, h, rfl, rfl, le_rfl, h, fun _ => ⟨rfl, rfl, rfl⟩⟩

theorem freshSwap_withOptions {approvals : ℕ} {referrer : Option Address}
    {collateral premium : ℤ} {insured : Bool} (hprice : 0 < price)
    (hpremium : 0 ≤ premium ∧ premium < price) :
    FreshSwap ((pendingSwap token ipId seller price buyer expiry).withOptions approvals referrer
      collateral premium insured) :=
  ⟨rfl, hprice, rfl, rfl, hpremium.1, hpremium.2, fun h => by cases h⟩

theorem freshSwap_inInstallments (hprice : 0 < price) :
    FreshSwap (pendingSwap token ipId seller price buyer expiry).inInstallments :=
  ⟨rfl, hprice, rfl, rfl, le_rfl, hprice, fun _ => ⟨rfl, rfl, rfl⟩⟩

theorem initiateSwap_step {approvals : ℕ} {referrer : Option Address} {collateral : ℤ}
    {insured : Bool} {id : ℕ}
    (h : initiateSwap env token ipId seller price buyer approvals referrer collateral insured s
      = .ok (id, s')) :
    ∃ m, Opens [ipId] seller buyer referrer m ∧ Step env s.escrow m s'.escrow := by
  obtain ⟨hauth, hprice, -, hfree, rfl, premium, _, s₁, s₂, s₃, rfl, rfl, hinsure, hopen,
    hindex, hannounce⟩ := initiateSwap_opening h
  have e₁ := storeInsurance_escrow hinsure
  exact opening_step (freshSwap_withOptions hprice (premiumOn_share hprice)) hfree hauth
    (List.mem_singleton_self _) e₁ hopen (appendIpSwap_escrow hindex) hannounce

theorem initiateSwap_moves {approvals : ℕ} {referrer : Option Address} {collateral : ℤ}
    {insured : Bool} {id : ℕ}
    (h : initiateSwap env token ipId seller price buyer approvals referrer collateral insured s
      = .ok (id, s')) :
    Emits (Step env) (Opens [ipId] seller buyer referrer) s.escrow s'.escrow := by
  obtain ⟨m, hm, hstep⟩ := initiateSwap_step h
  exact .single hstep hm

theorem initiateSwapWithOraclePrice_moves {approvals : ℕ} {referrer : Option Address}
    {collateral minPrice maxPrice : ℤ} {insured : Bool} {id : ℕ}
    (h : initiateSwapWithOraclePrice env token ipId seller buyer approvals referrer collateral
      insured minPrice maxPrice s = .ok (id, s')) :
    Emits (Step env) (Opens [ipId] seller buyer referrer) s.escrow s'.escrow := by
  simp [initiateSwapWithOraclePrice, fetchOraclePrice, loadOracleConfig,
    validatePriceBounds] at h
  obtain ⟨config, -, -, price, -, -, -, -, s₁, hinitiate, rfl⟩ := h
  simpa using initiateSwap_moves hinitiate

theorem initiateSwapWithSchedule_moves {schedule : List PaymentSchedule} {id : ℕ}
    (h : initiateSwapWithSchedule env token ipId seller schedule buyer s = .ok (id, s')) :
    Emits (Step env) (Opens [ipId] seller buyer none) s.escrow s'.escrow := by
  obtain ⟨hauth, hprice, -, hfree, rfl, _, s₁, s₂, rfl, hopen, hindex, hannounce⟩ :=
    initiateSwapWithSchedule_opening h
  have e₂ := appendIpSwap_escrow hindex
  exact opening_moves (freshSwap_inInstallments hprice) hfree hauth
    (List.mem_singleton_self _) rfl hopen (by simpa using e₂) hannounce

theorem initiateEscrowSwap_moves {timeout id : ℕ}
    (h : initiateEscrowSwap env token ipId seller price buyer timeout s = .ok (id, s')) :
    Emits (Step env) (Opens [ipId] seller buyer none) s.escrow s'.escrow := by
  obtain ⟨hauth, hprice, -, hfree, rfl, _, s₁, rfl, hopen, hannounce⟩ :=
    initiateEscrowSwap_opening h
  exact opening_moves (freshSwap_pending hprice) hfree hauth (List.mem_singleton_self _) rfl
    hopen (by simp) hannounce

theorem initiateSwapWithSigners_moves {signers : List Address} {id : ℕ}
    (h : initiateSwapWithSigners env token ipId seller price buyer signers s = .ok (id, s')) :
    Emits (Step env) (Opens [ipId] seller buyer none) s.escrow s'.escrow := by
  obtain ⟨hauth, hprice, -, hfree, rfl, _, s₁, s₂, rfl, hopen, hindex, hannounce⟩ :=
    initiateSwapWithSigners_opening h
  have e₂ := appendIpSwap_escrow hindex
  exact opening_moves (freshSwap_pending hprice) hfree hauth (List.mem_singleton_self _) rfl
    hopen (by simpa using e₂) hannounce

end Single

section Batch

theorem validateBatch_ok {items : List (ℕ × ℤ)}
    (h : validateBatch env seller items s = .ok (u, s')) :
    s' = s ∧ (items.map Prod.fst).Nodup ∧
      ∀ item ∈ items, 0 < item.2 ∧ s.escrow.activeSwap item.1 = none := by
  induction items with
  | nil =>
    simp [validateBatch] at h
    simp [h]
  | cons item rest ih =>
    simp [validateBatch] at h
    obtain ⟨hprice, -, hfree, hnew, hrest⟩ := h
    obtain ⟨hs, hnodup, hall⟩ := ih hrest
    refine ⟨hs, ?_, ?_⟩
    · simpa using ⟨hnew, by simpa using hnodup⟩
    · intro item' hmem
      rcases List.mem_cons.mp hmem with rfl | hmem
      · exact ⟨hprice, hfree⟩
      · exact hall item' hmem

theorem openValidated_escrow {approvals : ℕ} {referrer : Option Address} {item : ℕ × ℤ}
    {id : ℕ} (h : openValidated env token seller buyer approvals referrer item s = .ok (id, s'))
    (hprice : 0 < item.2) :
    ∃ r, FreshSwap r ∧ r.ipId = item.1 ∧ r.seller = seller ∧ r.buyer = buyer ∧
      r.referrer = referrer ∧
      s'.escrow = (s.escrow.enlist r).setActiveSwap r.ipId (some s.escrow.count) := by
  obtain ⟨rfl, _, s₁, s₂, rfl, hopen, hindex, hannounce⟩ := openValidated_opening h
  have e := opening_escrow rfl hopen (appendIpSwap_escrow hindex) hannounce
  exact ⟨_, freshSwap_withOptions hprice ⟨le_rfl, hprice⟩, rfl, rfl, rfl, rfl, e⟩

/-- The second pass relies on the first: an opening takes only the lock of its own IP. -/
theorem openAll_moves {approvals : ℕ} {referrer : Option Address} {items : List (ℕ × ℤ)}
    {ids : List ℕ} (hauth : seller ∈ env.auths) (hnodup : (items.map Prod.fst).Nodup)
    (hall : ∀ item ∈ items, 0 < item.2 ∧ s.escrow.activeSwap item.1 = none)
    (h : Tx.forEach items (openValidated env token seller buyer approvals referrer) s
      = .ok (ids, s')) :
    Emits (Step env) (Opens (items.map Prod.fst) seller buyer referrer) s.escrow s'.escrow := by
  induction items generalizing s ids with
  | nil =>
    rw [(Tx.forEach_nil_ok.mp h).2]
    exact .refl _
  | cons item rest ih =>
    obtain ⟨id, s₁, cs, hhead, htail, -⟩ := Tx.forEach_cons_ok.mp h
    obtain ⟨hprice, hfree⟩ := hall item (by simp)
    obtain ⟨r, hfresh, hip, rfl, rfl, rfl, e₁⟩ := openValidated_escrow hhead hprice
    simp only [List.map_cons, List.nodup_cons] at hnodup ⊢
    have hrest : ∀ item' ∈ rest, 0 < item'.2 ∧ s₁.escrow.activeSwap item'.1 = none := by
      intro item' hmem
      obtain ⟨hprice', hfree'⟩ := hall item' (by simp [hmem])
      have hne : item'.1 ≠ r.ipId := by
        intro heq
        exact hnodup.1 (List.mem_map.mpr ⟨item', hmem, heq.trans hip⟩)
      exact ⟨hprice', by simp [e₁, Escrow.setActiveSwap, Escrow.enlist, Escrow.setSwap,
        Escrow.setNextId, hne, hfree']⟩
    have hstep : Emits (Step env) (Opens (item.1 :: rest.map Prod.fst) r.seller r.buyer r.referrer)
        s.escrow s₁.escrow := by
      rw [e₁]
      exact .single (.initiated hfresh (hip ▸ hfree) hauth) ⟨r, rfl, by simp [hip], rfl, rfl, rfl⟩
    exact hstep.trans ((ih hnodup.2 hrest htail).mono fun m hm => hm.mono (by simp))

theorem batchInitiateSwap_moves {ipIds : List ℕ} {prices : List ℤ} {approvals : ℕ}
    {referrer : Option Address} {ids : List ℕ}
    (h : batchInitiateSwap env token ipIds seller prices buyer approvals referrer s
      = .ok (ids, s')) :
    Emits (Step env) (Opens ipIds seller buyer referrer) s.escrow s'.escrow := by
  simp [batchInitiateSwap] at h
  obtain ⟨-, hauth, -, hlength, -, s₁, hvalid, s₂, hopen, rfl⟩ := h
  obtain ⟨rfl, hnodup, hall⟩ := validateBatch_ok hvalid
  have hmoves := openAll_moves hauth hnodup hall hopen
  rw [List.map_fst_zip (by omega)] at hmoves
  simpa using hmoves

theorem openInsured_moves {ipIds : List ℕ} {approvals : ℕ} {referrer : Option Address}
    {insured : Bool} {price : ℤ} {id : ℕ} (hauth : seller ∈ env.auths) (hip : ipId ∈ ipIds)
    (h : openInsured env token seller buyer approvals referrer insured ipId price s
      = .ok (id, s')) :
    Emits (Step env) (Opens ipIds seller buyer referrer) s.escrow s'.escrow := by
  obtain ⟨hprice, -, hfree, rfl, premium, _, s₁, s₂, s₃, rfl, rfl, hinsure, hopen, hindex,
    hannounce⟩ := openInsured_opening h
  have e₁ := storeInsurance_escrow hinsure
  exact opening_moves (freshSwap_withOptions hprice (premiumOn_share hprice)) hfree hauth hip e₁
    hopen (appendIpSwap_escrow hindex) hannounce

theorem batchInitiateSwapWithInsurance_moves {ipIds : List ℕ} {prices : List ℤ}
    {approvals : ℕ} {referrer : Option Address} {insured : Bool} {ids : List ℕ}
    (h : batchInitiateSwapWithInsurance env token ipIds seller prices buyer approvals referrer
      insured s = .ok (ids, s')) :
    Emits (Step env) (Opens ipIds seller buyer referrer) s.escrow s'.escrow := by
  simp [batchInitiateSwapWithInsurance] at h
  obtain ⟨-, hauth, hloop⟩ := h
  exact Tx.forEach₂_rel (R := fun s s' => Emits (Step env) (Opens ipIds seller buyer referrer)
    s.escrow s'.escrow) (fun _ => .refl _) .trans
    (fun ipId hip _ _ _ _ _ hbody => openInsured_moves hauth hip hbody) hloop

theorem openInEscrow_moves {ipIds : List ℕ} {item : ℤ × ℕ} {id : ℕ}
    (hauth : seller ∈ env.auths) (hip : ipId ∈ ipIds)
    (h : openInEscrow env token seller buyer ipId item s = .ok (id, s')) :
    Emits (Step env) (Opens ipIds seller buyer none) s.escrow s'.escrow := by
  obtain ⟨hprice, -, hfree, rfl, _, s₁, s₂, rfl, hopen, hindex, hannounce⟩ :=
    openInEscrow_opening h
  have e₂ := appendIpSwap_escrow hindex
  exact opening_moves (freshSwap_pending hprice) hfree hauth hip rfl hopen (by simpa using e₂)
    hannounce

theorem batchInitiateEscrow_moves {ipIds : List ℕ} {prices : List ℤ} {timeouts ids : List ℕ}
    (h : batchInitiateEscrow env token ipIds seller prices buyer timeouts s = .ok (ids, s')) :
    Emits (Step env) (Opens ipIds seller buyer none) s.escrow s'.escrow := by
  simp [batchInitiateEscrow] at h
  obtain ⟨-, hauth, -, hloop⟩ := h
  exact Tx.forEach₂_rel (R := fun s s' => Emits (Step env) (Opens ipIds seller buyer none)
    s.escrow s'.escrow) (fun _ => .refl _) .trans
    (fun ipId hip _ _ _ _ _ hbody => openInEscrow_moves hauth hip hbody) hloop

end Batch

end AtomicIp.AtomicSwap
