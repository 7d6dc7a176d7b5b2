import AtomicIp.Swap.Batches
import AtomicIp.Swap.Listings

set_option autoImplicit false

namespace AtomicIp.AtomicSwap

open Function Tx

/-- The storage without the admin that the first single offer may set. -/
def State.adminless (s : State) : State := { s with events := [], persistentAdmin := none }

def checkOffer (env : Env) (seller : Address) (item : ℕ × ℤ) : SwapTx Unit := do
  requirePositivePrice item.2
  ensureSellerOwnsActiveIp env item.1 seller
  requireNoActiveSwap item.1

def checkAndOpen (env : Env) (token seller buyer : Address) (requiredApprovals : ℕ)
    (referrer : Option Address) (item : ℕ × ℤ) : SwapTx ℕ :=
  checkOffer env seller item >>= fun _ =>
    openValidated env token seller buyer requiredApprovals referrer item

structure Offerable (env : Env) (seller : Address) (item : ℕ × ℤ) (s : State) : Prop where
  price : 0 < item.2
  owned : OwnsActiveIp env s item.1 seller
  free : s.activeSwap item.1 = none

section Offers

variable {env : Env} {token seller buyer : Address} {approvals : ℕ} {referrer : Option Address}
  {item item' : ℕ × ℤ} {items : List (ℕ × ℤ)} {s s' t : State} {id : ℕ}

theorem checkOffer_ok {u : Unit} :
    checkOffer env seller item s = .ok (u, s') ↔ Offerable env seller item s ∧ s' = s := by
  simp only [checkOffer, Tx.bind_ok, requirePositivePrice_ok, ensureSellerOwnsActiveIp_ok,
    requireNoActiveSwap_ok]
  constructor
  · intro h
    obtain ⟨_, _, ⟨hprice, rfl⟩, _, _, ⟨howned, rfl⟩, hfree, rfl⟩ := h
    exact ⟨⟨hprice, howned, hfree⟩, rfl⟩
  · intro h
    obtain ⟨⟨hprice, howned, hfree⟩, rfl⟩ := h
    exact ⟨(), _, ⟨hprice, rfl⟩, (), _, ⟨howned, rfl⟩, hfree, rfl⟩

theorem openInsured_eq : openInsured env token seller buyer approvals referrer false item.1 item.2 =
    checkAndOpen env token seller buyer approvals referrer item := by
  simp [openInsured, checkAndOpen, checkOffer, openValidated, premiumFor, storeInsurance, Tx.onlyIf,
    bind_assoc]

theorem initiateSwap_eq :
    initiateSwap env token item.1 seller item.2 buyer approvals referrer 0 false =
      requireNotPaused >>= fun _ => requireAuth env.auths seller >>= fun _ =>
        initPersistentAdmin seller >>= fun _ =>
          checkAndOpen env token seller buyer approvals referrer item := by
  simp [initiateSwap, checkAndOpen, checkOffer, openValidated, premiumFor, storeInsurance,
    Tx.onlyIf, bind_assoc]

def Apart (item item' : ℕ × ℤ) : Prop := item.1 ≠ item'.1

theorem validateBatch_passes {u : Unit} : validateBatch env seller items s = .ok (u, s') ↔
    s' = s ∧ (∀ item ∈ items, Offerable env seller item s) ∧ items.Pairwise Apart := by
  induction items generalizing s with
  | nil => simp [validateBatch]
  | cons item rest ih =>
    obtain ⟨ipId, price⟩ := item
    have hnew : ipId ∉ rest.map Prod.fst ↔ ∀ item' ∈ rest, Apart (ipId, price) item' := by
      constructor
      · intro h item' hmem heq
        exact h (List.mem_map.mpr ⟨item', hmem, heq.symm⟩)
      · intro h hmem
        obtain ⟨item', hmem, heq⟩ := List.mem_map.mp hmem
        exact h item' hmem heq.symm
    simp only [validateBatch, Tx.bind_ok, requirePositivePrice_ok, ensureSellerOwnsActiveIp_ok,
      requireNoActiveSwap_ok, require_ok, ih, List.forall_mem_cons, List.pairwise_cons, hnew]
    constructor
    · intro h
      obtain ⟨_, _, ⟨hprice, rfl⟩, _, _, ⟨howned, rfl⟩, _, _, ⟨hfree, rfl⟩, _, _, ⟨hnew, rfl⟩, rfl,
        hall, hapart⟩ := h
      exact ⟨rfl, ⟨⟨hprice, howned, hfree⟩, hall⟩, hnew, hapart⟩
    · intro h
      obtain ⟨rfl, ⟨⟨hprice, howned, hfree⟩, hall⟩, hnew, hapart⟩ := h
      exact ⟨(), _, ⟨hprice, rfl⟩, (), _, ⟨howned, rfl⟩, (), _, ⟨hfree, rfl⟩, (), _, ⟨hnew, rfl⟩,
        rfl, hall, hapart⟩

theorem openValidated_keeps
    (h : openValidated env token seller buyer approvals referrer item s = .ok (id, s')) :
    Offerable env seller item' s' ↔ Offerable env seller item' s ∧ Apart item item' := by
  obtain ⟨rfl, r, s₁, s₂, rfl, hopen, hindex, hannounce⟩ := openValidated_opening h
  have hescrow := opening_escrow rfl hopen (appendIpSwap_escrow hindex) hannounce
  have hregistry : s'.ipRegistry = s.ipRegistry := congrArg Escrow.ipRegistry hescrow
  have hactive : s'.activeSwap = update s.activeSwap item.1 (some s.escrow.count) :=
    congrArg Escrow.activeSwap hescrow
  constructor
  · intro hitem
    have hfree := hitem.free
    have hapart : Apart item item' := by
      intro heq
      rw [hactive, heq, update_self] at hfree
      cases hfree
    rw [hactive, update_of_ne hapart.symm] at hfree
    exact ⟨⟨hitem.price, hitem.owned.congr hregistry.symm, hfree⟩, hapart⟩
  · intro h
    obtain ⟨hitem, hapart⟩ := h
    refine ⟨hitem.price, hitem.owned.congr hregistry, ?_⟩
    rw [hactive, update_of_ne hapart.symm, hitem.free]

theorem checkAndOpen_pause
    (h : checkAndOpen env token seller buyer approvals referrer item s = .ok (id, s')) :
    s'.paused = s.paused := by
  obtain ⟨_, s₁, hcheck, hbody⟩ := Tx.bind_ok.mp h
  obtain ⟨-, rfl⟩ := checkOffer_ok.mp hcheck
  obtain ⟨-, r, s₂, s₃, -, hopen, hindex, hannounce⟩ := openValidated_opening hbody
  simp [openSwap, saveSwap, appendSwapForParty] at hopen
  simp [appendIpSwap] at hindex
  simp [announceSwap, appendHistory, publish] at hannounce
  have hopened : s₂.paused = s₁.paused := by rw [hopen]; rfl
  have hindexed : s₃.paused = s₂.paused := by rw [hindex]; rfl
  have hannounced : s'.paused = s₃.paused := by rw [hannounce.2]; rfl
  rw [hannounced, hindexed, hopened]

theorem checkAndOpen_through :
    Through State.adminless (checkAndOpen env token seller buyer approvals referrer item) := by
  have hregistry : Through State.adminless ipRegistry :=
    .bind (.load fun _ => rfl) fun _ => .orAbort
  have hchecks : Through State.adminless (checkOffer env seller item) :=
    .bind .ensure fun _ => .bind (.bind hregistry fun _ => .bind .orAbort fun _ =>
      .bind .ensure fun _ => .ensure) fun _ => .bind (.load fun _ => rfl) fun _ => .ensure
  have hopen : ∀ id r, Through State.adminless (openSwap id r) := fun id r =>
    .bind (.store fun _ => rfl) fun _ => .bind (.store fun _ => rfl) fun _ =>
      .bind (.store fun _ => rfl) fun _ => .store fun _ => rfl
  have hcounter : ∀ x, Through State.adminless (u64 x : SwapTx ℕ) := by
    intro x
    unfold u64 checked
    split
    · exact .pure
    · exact .abort
  have hannounce : ∀ topic id r, Through State.adminless (announceSwap env topic id r) :=
    fun topic id r => .bind (.store fun _ => rfl) fun _ => .bind (hcounter _)
      fun _ => .bind (.store fun _ => rfl) fun _ => .store fun _ => rfl
  exact .bind hchecks fun _ => .bind (.load fun _ => rfl) fun id => .bind (hcounter _) fun expiry =>
    .bind (hopen _ _) fun _ => .bind (.store fun _ => rfl) fun _ => .bind (hannounce _ _ _)
      fun _ => .pure

theorem initiateSwap_outcome (hauth : seller ∈ env.auths) (hopen : s.paused.getD false = false)
    (hst : s.adminless = t.adminless) :
    outcome State.adminless (checkAndOpen env token seller buyer approvals referrer item s) =
      outcome State.adminless
        (initiateSwap env token item.1 seller item.2 buyer approvals referrer 0 false t) := by
  have hpaused : s.paused = t.paused :=
    show s.adminless.paused = t.adminless.paused from congrArg _ hst
  have hpass : requireNotPaused t = .ok ((), t) := requireNotPaused_ok.mpr ⟨hpaused ▸ hopen, rfl⟩
  have hadmin : initPersistentAdmin seller t =
      .ok ((), t.setPersistentAdmin (some (t.persistentAdmin.getD seller))) := rfl
  rw [initiateSwap_eq, bind_of_ok hpass, requireAuth, outcome_ensure, if_pos hauth,
    bind_of_ok hadmin]
  exact outcome_of_answer (checkAndOpen_through _ _ hst)

theorem initiateSwap_refused (h : seller ∉ env.auths ∨ s.paused.getD false ≠ false) :
    ∃ e, initiateSwap env token item.1 seller item.2 buyer approvals referrer 0 false s
      = .error e := by
  refine refused fun _ s' hrun => ?_
  rw [initiateSwap_eq] at hrun
  simp only [Tx.bind_ok, requireNotPaused_ok, requireAuth_ok] at hrun
  obtain ⟨_, _, ⟨hopen, rfl⟩, _, _, ⟨hauth, rfl⟩, -⟩ := hrun
  exact h.elim (absurd hauth) (absurd hopen)

end Offers

section Batch

variable {env : Env} {token seller buyer : Address} {approvals : ℕ} {referrer : Option Address}
  {ipIds : List ℕ} {prices : List ℤ} {s : State}

theorem openAllInsured_eq (hlength : prices.length = ipIds.length) :
    Tx.forEach₂ (.unwrap : Abort ContractError) ipIds prices
        (openInsured env token seller buyer approvals referrer false) =
      Tx.forEach (ipIds.zip prices) (checkAndOpen env token seller buyer approvals referrer) := by
  rw [forEach₂_zip (by omega)]
  congr 1
  funext item
  exact openInsured_eq

theorem batchInsured_refused (h : seller ∉ env.auths ∨ s.paused.getD false ≠ false) :
    ∃ e, batchInitiateSwapWithInsurance env token ipIds seller prices buyer approvals referrer
      false s = .error e := by
  refine refused fun _ s' hrun => ?_
  simp [batchInitiateSwapWithInsurance] at hrun
  obtain ⟨hopen, hauth, -⟩ := hrun
  exact h.elim (absurd hauth) (absurd hopen)

theorem batchInitiateSwap_refused (h : seller ∉ env.auths ∨ s.paused.getD false ≠ false) :
    ∃ e, batchInitiateSwap env token ipIds seller prices buyer approvals referrer s = .error e := by
  refine refused fun _ s' hrun => ?_
  simp [batchInitiateSwap] at hrun
  obtain ⟨hopen, hauth, -⟩ := hrun
  exact h.elim (absurd hauth) (absurd hopen)

theorem batchInsured_folds (hlength : prices.length = ipIds.length) (hsome : 1 ≤ ipIds.length) :
    outcome State.adminless (batchInitiateSwapWithInsurance env token ipIds seller prices buyer
        approvals referrer false s) =
      outcome State.adminless (Tx.forEach (ipIds.zip prices) (fun item =>
        initiateSwap env token item.1 seller item.2 buyer approvals referrer 0 false) s) := by
  by_cases hcall : seller ∈ env.auths ∧ s.paused.getD false = false
  · obtain ⟨hauth, hopen⟩ := hcall
    have hpass : requireNotPaused s = .ok ((), s) := requireNotPaused_ok.mpr ⟨hopen, rfl⟩
    rw [batchInitiateSwapWithInsurance, bind_of_ok hpass, requireAuth, outcome_ensure, if_pos hauth,
      openAllInsured_eq hlength]
    refine forEach_alike (I := fun s => s.paused.getD false = false) ?_ ?_ hopen rfl
    · intro item _ s id s' hopen hbody
      rw [checkAndOpen_pause hbody]
      exact hopen
    · intro item _ s t hopen hst
      exact initiateSwap_outcome hauth hopen hst
  · have hrefused : seller ∉ env.auths ∨ s.paused.getD false ≠ false := by tauto
    obtain ⟨e, hbatch⟩ : ∃ e, batchInitiateSwapWithInsurance env token ipIds seller prices buyer
      approvals referrer false s = .error e := batchInsured_refused hrefused
    have hitems : 0 < (ipIds.zip prices).length := by
      rw [List.length_zip]
      omega
    obtain ⟨item, rest, hzip⟩ := List.exists_cons_of_length_pos hitems
    obtain ⟨e', hone⟩ : ∃ e, initiateSwap env token item.1 seller item.2 buyer approvals referrer 0
      false s = .error e := initiateSwap_refused hrefused
    rw [hbatch, hzip, Tx.forEach, bind_of_error hone]
    rfl

/-- The duplicates of the list are those whose lock an earlier offer has taken. -/
theorem openAll_hoists {items : List (ℕ × ℤ)} :
    outcome State.silent ((validateBatch env seller items >>= fun _ =>
        Tx.forEach items (openValidated env token seller buyer approvals referrer)) s) =
      outcome State.silent
        (Tx.forEach items (checkAndOpen env token seller buyer approvals referrer) s) := by
  have hpass : ∀ item s, Offerable env seller item s → checkOffer env seller item s = .ok ((), s) :=
    fun _ _ h => checkOffer_ok.mpr ⟨h, rfl⟩
  have hfail : ∀ item s, ¬ Offerable env seller item s →
      ∃ e, checkOffer env seller item s = .error e :=
    fun _ _ h => refused fun _ _ hrun => h (checkOffer_ok.mp hrun).1
  have hkeeps : ∀ item s id s', Offerable env seller item s →
      openValidated env token seller buyer approvals referrer item s = .ok (id, s') →
        ∀ item', Offerable env seller item' s' ↔ Offerable env seller item' s ∧ Apart item item' :=
    fun _ _ _ _ _ hbody _ => openValidated_keeps hbody
  by_cases hall : (∀ item ∈ items, Offerable env seller item s) ∧ items.Pairwise Apart
  · have hvalid : validateBatch env seller items s = .ok ((), s) :=
      validateBatch_passes.mpr ⟨rfl, hall⟩
    rw [bind_of_ok hvalid]
    exact forEach_checked hpass hkeeps hall.1 hall.2
  · obtain ⟨e, hvalid⟩ : ∃ e, validateBatch env seller items s = .error e :=
      refused fun _ _ hrun => hall (validateBatch_passes.mp hrun).2
    obtain ⟨e', hloop⟩ := forEach_unchecked hpass hfail hkeeps hall
    rw [bind_of_error hvalid]
    exact (congrArg (outcome State.silent) hloop).symm

theorem batchInitiateSwap_hoists (hlength : prices.length = ipIds.length)
    (hsome : 1 ≤ ipIds.length) (hsize : ipIds.length ≤ maxBatchSize) :
    outcome State.silent
        (batchInitiateSwap env token ipIds seller prices buyer approvals referrer s) =
      outcome State.silent (batchInitiateSwapWithInsurance env token ipIds seller prices buyer
        approvals referrer false s) := by
  by_cases hcall : seller ∈ env.auths ∧ s.paused.getD false = false
  · obtain ⟨hauth, hopen⟩ := hcall
    have hpass : requireNotPaused s = .ok ((), s) := requireNotPaused_ok.mpr ⟨hopen, rfl⟩
    rw [batchInitiateSwapWithInsurance, bind_of_ok hpass, requireAuth, outcome_ensure, if_pos hauth,
      openAllInsured_eq hlength, batchInitiateSwap, bind_of_ok hpass, requireAuth, outcome_ensure,
      if_pos hauth, require, outcome_ensure, if_pos (by omega), require, outcome_ensure,
      if_pos hlength, require, outcome_ensure, if_pos hsize, ← openAll_hoists, ← bind_assoc]
    exact outcome_bind fun _ _ => rfl
  · have hrefused : seller ∉ env.auths ∨ s.paused.getD false ≠ false := by tauto
    obtain ⟨e, hbatch⟩ : ∃ e, batchInitiateSwap env token ipIds seller prices buyer approvals
      referrer s = .error e := batchInitiateSwap_refused hrefused
    obtain ⟨e', hinsured⟩ : ∃ e, batchInitiateSwapWithInsurance env token ipIds seller prices buyer
      approvals referrer false s = .error e := batchInsured_refused hrefused
    rw [hbatch, hinsured]
    rfl

/-- Of lists with one price for each IP and no more of them than a batch may have, the three ways
accept the same ones, and they leave the same storage but for the admin. -/
theorem batch_offers_agree (hlength : prices.length = ipIds.length) (hsome : 1 ≤ ipIds.length)
    (hsize : ipIds.length ≤ maxBatchSize) :
    outcome State.silent
        (batchInitiateSwap env token ipIds seller prices buyer approvals referrer s) =
      outcome State.silent (batchInitiateSwapWithInsurance env token ipIds seller prices buyer
        approvals referrer false s) ∧
    outcome State.adminless (batchInitiateSwapWithInsurance env token ipIds seller prices buyer
        approvals referrer false s) =
      outcome State.adminless (Tx.forEach (ipIds.zip prices) (fun item =>
        initiateSwap env token item.1 seller item.2 buyer approvals referrer 0 false) s) :=
  ⟨batchInitiateSwap_hoists hlength hsome hsize, batchInsured_folds hlength hsome⟩

end Batch

section Sales

open Scenario

theorem two_ips_offered : ∃ s : State,
    (batchInitiateSwap (env [seller] 1) token [1, 2] seller [1000, 2000] buyer 0 none s).isOk ∧
    outcome State.silent
        (batchInitiateSwap (env [seller] 1) token [1, 2] seller [1000, 2000] buyer 0 none s) =
      outcome State.silent (batchInitiateSwapWithInsurance (env [seller] 1) token [1, 2] seller
        [1000, 2000] buyer 0 none false s) ∧
    outcome State.adminless (batchInitiateSwapWithInsurance (env [seller] 1) token [1, 2] seller
        [1000, 2000] buyer 0 none false s) =
      outcome State.adminless (Tx.forEach ([1, 2].zip [1000, 2000]) (fun item =>
        initiateSwap (env [seller] 1) token item.1 seller item.2 buyer 0 none 0 false) s) :=
  ⟨(State.empty funds).setIpRegistry (some registry), rfl,
    batch_offers_agree rfl (by simp) (by simp [maxBatchSize])⟩

end Sales

end AtomicIp.AtomicSwap
