import AtomicIp.Lib.Overlay
import AtomicIp.Swap.Locks

set_option autoImplicit false

namespace AtomicIp.AtomicSwap

open Function

def State.relock (s : State) (locks : ℕ → Option ℕ) : State := { s with activeSwap := locks }

/-- The same storage with no IP locked. -/
def State.unlocked (s : State) : State := s.relock fun _ => none

/-- Further locks, where the storage has none of its own. -/
def State.over (locks : ℕ → Option ℕ) (s : State) : State :=
  s.relock fun ip => (s.activeSwap ip).or (locks ip)

def Call.offers : Call → Option (List ℕ)
  | .initiateSwap _ ipId .. | .initiateSwapWithOraclePrice _ ipId ..
  | .initiateSwapWithSchedule _ ipId .. | .initiateEscrowSwap _ ipId ..
  | .initiateSwapWithSigners _ ipId .. => some [ipId]
  | .batchInitiateSwap _ ipIds .. | .batchInitiateSwapWithInsurance _ ipIds ..
  | .batchInitiateEscrow _ ipIds .. => some ipIds
  | _ => none

theorem State.unlocked_over (s : State) : s.unlocked.over s.activeSwap = s := by
  rfl

section Helpers

variable {locks : ℕ → Option ℕ} {env : Env} {seller buyer token : Address} {ipId id : ℕ}
  {price : ℤ} {r : SwapRecord} {topic : String} {insured : Bool}

theorem over_setActiveSwap (s : State) :
    (s.setActiveSwap ipId (some id)).over locks = (s.over locks).setActiveSwap ipId (some id) := by
  have hlocks : (fun ip => (update s.activeSwap ipId (some id) ip).or (locks ip)) =
      update (fun ip => (s.activeSwap ip).or (locks ip)) ipId (some id) := by
    funext ip
    by_cases hip : ip = ipId <;> simp [hip]
  simp only [State.over, State.relock, State.setActiveSwap, hlocks]

theorem requireNoActiveSwap_gated : Tx.Gated (State.over locks) (.contract .swapExists)
    (locks ipId = none) (requireNoActiveSwap ipId) := by
  intro s u s' h
  obtain ⟨hfree, rfl⟩ := requireNoActiveSwap_ok.mp h
  have hlock : (s'.over locks).activeSwap ipId = locks ipId := by
    change (s'.activeSwap ipId).or (locks ipId) = locks ipId
    rw [hfree]
    rfl
  by_cases hnone : locks ipId = none
  · exact .inl ⟨hnone, requireNoActiveSwap_ok.mpr ⟨hlock.trans hnone, rfl⟩⟩
  · refine .inr ⟨hnone, ?_⟩
    have hrefused : requireNoActiveSwap ipId (s'.over locks) =
        require ((s'.over locks).activeSwap ipId = none) .swapExists (s'.over locks) := rfl
    rw [hrefused, hlock, require, Tx.ensure, if_neg hnone]
    rfl

theorem requireNotPaused_blind : Tx.Blind (State.over locks) requireNotPaused :=
  .bind (.load fun _ => rfl) fun _ => .ensure

theorem requireAuth_blind {auths : List Address} :
    Tx.Blind (State.over locks) (requireAuth auths seller : SwapTx Unit) := .ensure

theorem require_blind {p : Prop} [Decidable p] {e : ContractError} :
    Tx.Blind (State.over locks) (require p e : SwapTx Unit) := .ensure

theorem initPersistentAdmin_blind : Tx.Blind (State.over locks) (initPersistentAdmin seller) :=
  .store fun _ => rfl

theorem ipRegistry_blind : Tx.Blind (State.over locks) ipRegistry :=
  .bind (.load fun _ => rfl) fun _ => .orAbort

theorem ensureSellerOwnsActiveIp_blind :
    Tx.Blind (State.over locks) (ensureSellerOwnsActiveIp env ipId seller) :=
  .bind ipRegistry_blind fun _ => .bind .orAbort fun _ => .bind require_blind fun _ =>
    require_blind

theorem nextSwapId_blind : Tx.Blind (State.over locks) nextSwapId := .load fun _ => rfl

theorem u64_blind {x : ℕ} : Tx.Blind (State.over locks) (u64 x : SwapTx ℕ) := by
  unfold u64 checked
  split
  · exact .pure
  · exact .abort

theorem premiumFor_blind : Tx.Blind (State.over locks) (premiumFor insured price) := by
  unfold premiumFor i128 checked
  split
  · split
    · exact .bind .pure fun _ => .pure
    · exact .bind .abort fun _ => .pure
  · exact .pure

theorem storeInsurance_blind : Tx.Blind (State.over locks) (storeInsurance insured id price) :=
  .onlyIf (.store fun _ => rfl)

theorem openSwap_blind : Tx.Blind (State.over locks) (openSwap id r) := by
  have hparties : Tx.Blind (State.over locks) (appendSwapForParty r.seller r.buyer id) :=
    .bind (.store fun _ => rfl) fun _ => .store fun _ => rfl
  exact .bind (.store fun _ => rfl) fun _ => .bind (.store over_setActiveSwap) fun _ => hparties

theorem appendIpSwap_blind : Tx.Blind (State.over locks) (appendIpSwap ipId id) :=
  .store fun _ => rfl

theorem setEscrowMode_blind : Tx.Blind (State.over locks) (setEscrowMode id) :=
  .store fun _ => rfl

theorem publish_blind {payload : Payload} :
    Tx.Blind (State.over locks) (publish topic payload) := .store fun _ => rfl

theorem announceSwap_blind : Tx.Blind (State.over locks) (announceSwap env topic id r) :=
  .bind (.store fun _ => rfl) fun _ => .bind u64_blind fun _ => .bind (.store fun _ => rfl)
    fun _ => publish_blind

theorem fetchOraclePrice_blind : Tx.Blind (State.over locks) (fetchOraclePrice env token) := by
  have hconfig : Tx.Blind (State.over locks) loadOracleConfig := .load fun _ => rfl
  exact .bind hconfig fun _ => .bind .orAbort fun _ => .bind require_blind fun _ =>
    .bind .orAbort fun _ => .bind require_blind fun _ => .pure

end Helpers

section Initiators

variable {locks : ℕ → Option ℕ} {env : Env} {seller buyer token : Address} {ipId : ℕ}
  {price : ℤ} {approvals : ℕ} {referrer : Option Address} {collateral minPrice maxPrice : ℤ}
  {insured : Bool}

theorem initiateSwap_gated : Tx.Gated (State.over locks) (.contract .swapExists)
    (locks ipId = none) (initiateSwap env token ipId seller price buyer approvals referrer
      collateral insured) :=
  .after requireNotPaused_blind fun _ => .after requireAuth_blind fun _ =>
    .after initPersistentAdmin_blind fun _ => .after require_blind fun _ =>
    .after ensureSellerOwnsActiveIp_blind fun _ => .then_blind requireNoActiveSwap_gated fun _ =>
    .bind nextSwapId_blind fun _ => .bind u64_blind fun _ => .bind premiumFor_blind fun _ =>
    .bind storeInsurance_blind fun _ => .bind openSwap_blind fun _ =>
    .bind appendIpSwap_blind fun _ => .bind announceSwap_blind fun _ => .pure

theorem initiateSwapWithOraclePrice_gated : Tx.Gated (State.over locks) (.contract .swapExists)
    (locks ipId = none) (initiateSwapWithOraclePrice env token ipId seller buyer approvals referrer
      collateral insured minPrice maxPrice) := by
  have hbounds : ∀ price : ℤ, Tx.Blind (State.over locks)
      (validatePriceBounds price minPrice maxPrice) :=
    fun price => .bind require_blind fun _ => require_blind
  exact .after fetchOraclePrice_blind fun price => .after (hbounds price) fun _ =>
    .then_blind initiateSwap_gated fun _ => .bind publish_blind fun _ => .pure

theorem initiateSwapWithSchedule_gated {schedule : List PaymentSchedule} :
    Tx.Gated (State.over locks) (.contract .swapExists) (locks ipId = none)
      (initiateSwapWithSchedule env token ipId seller schedule buyer) :=
  .after requireNotPaused_blind fun _ => .after requireAuth_blind fun _ =>
    .after require_blind fun _ => .after require_blind fun _ =>
    .after ensureSellerOwnsActiveIp_blind fun _ => .then_blind requireNoActiveSwap_gated fun _ =>
    .bind nextSwapId_blind fun _ => .bind u64_blind fun _ => .bind openSwap_blind fun _ =>
    .bind (.store fun _ => rfl) fun _ => .bind (.store fun _ => rfl) fun _ =>
    .bind appendIpSwap_blind fun _ => .bind announceSwap_blind fun _ => .pure

theorem initiateEscrowSwap_gated {timeout : ℕ} :
    Tx.Gated (State.over locks) (.contract .swapExists) (locks ipId = none)
      (initiateEscrowSwap env token ipId seller price buyer timeout) :=
  .after requireNotPaused_blind fun _ => .after requireAuth_blind fun _ =>
    .after require_blind fun _ => .after ensureSellerOwnsActiveIp_blind fun _ =>
    .then_blind requireNoActiveSwap_gated fun _ => .bind nextSwapId_blind fun _ =>
    .bind openSwap_blind fun _ => .bind setEscrowMode_blind fun _ =>
    .bind announceSwap_blind fun _ => .pure

theorem initiateSwapWithSigners_gated {signers : List Address} :
    Tx.Gated (State.over locks) (.contract .swapExists) (locks ipId = none)
      (initiateSwapWithSigners env token ipId seller price buyer signers) :=
  .after requireNotPaused_blind fun _ => .after requireAuth_blind fun _ =>
    .after require_blind fun _ => .after ensureSellerOwnsActiveIp_blind fun _ =>
    .then_blind requireNoActiveSwap_gated fun _ => .bind require_blind fun _ =>
    .bind nextSwapId_blind fun _ => .bind u64_blind fun _ => .bind openSwap_blind fun _ =>
    .bind (.store fun _ => rfl) fun _ => .bind appendIpSwap_blind fun _ =>
    .bind announceSwap_blind fun _ => .pure

end Initiators

section Batches

variable {locks : ℕ → Option ℕ} {env : Env} {seller buyer token : Address} {approvals : ℕ}
  {referrer : Option Address} {insured : Bool} {ipIds : List ℕ} {prices : List ℤ}

theorem validateBatch_gated {items : List (ℕ × ℤ)} :
    Tx.Gated (State.over locks) (.contract .swapExists) (∀ item ∈ items, locks item.1 = none)
      (validateBatch env seller items) := by
  induction items with
  | nil => exact .of_blind .pure (by simp)
  | cons item rest ih =>
    have hcons : Tx.Gated (State.over locks) (.contract .swapExists)
        (locks item.1 = none ∧ ∀ item ∈ rest, locks item.1 = none)
        (validateBatch env seller (item :: rest)) :=
      .after require_blind fun _ => .after ensureSellerOwnsActiveIp_blind fun _ =>
        .bind requireNoActiveSwap_gated fun _ => .after require_blind fun _ => ih
    exact hcons.congr (by simp)

theorem openValidated_blind {item : ℕ × ℤ} : Tx.Blind (State.over locks)
    (openValidated env token seller buyer approvals referrer item) :=
  .bind nextSwapId_blind fun _ => .bind u64_blind fun _ => .bind openSwap_blind fun _ =>
    .bind appendIpSwap_blind fun _ => .bind announceSwap_blind fun _ => .pure

theorem openInsured_gated {ipId : ℕ} {price : ℤ} :
    Tx.Gated (State.over locks) (.contract .swapExists) (locks ipId = none)
      (openInsured env token seller buyer approvals referrer insured ipId price) :=
  .after require_blind fun _ => .after ensureSellerOwnsActiveIp_blind fun _ =>
    .then_blind requireNoActiveSwap_gated fun _ => .bind nextSwapId_blind fun _ =>
    .bind premiumFor_blind fun _ => .bind u64_blind fun _ => .bind storeInsurance_blind fun _ =>
    .bind openSwap_blind fun _ => .bind appendIpSwap_blind fun _ =>
    .bind announceSwap_blind fun _ => .pure

theorem openInEscrow_gated {ipId : ℕ} {item : ℤ × ℕ} :
    Tx.Gated (State.over locks) (.contract .swapExists) (locks ipId = none)
      (openInEscrow env token seller buyer ipId item) :=
  .after require_blind fun _ => .after ensureSellerOwnsActiveIp_blind fun _ =>
    .then_blind requireNoActiveSwap_gated fun _ => .bind nextSwapId_blind fun _ =>
    .bind openSwap_blind fun _ => .bind setEscrowMode_blind fun _ =>
    .bind appendIpSwap_blind fun _ => .bind announceSwap_blind fun _ => .pure

theorem batchInitiateSwap_lengths {s s' : State} {ids : List ℕ}
    (h : batchInitiateSwap env token ipIds seller prices buyer approvals referrer s
      = .ok (ids, s')) : prices.length = ipIds.length := by
  simp [batchInitiateSwap] at h
  exact h.2.2.2.1

theorem batchInitiateSwap_gated : Tx.Gated (State.over locks) (.contract .swapExists)
    (∀ ipId ∈ ipIds, locks ipId = none)
      (batchInitiateSwap env token ipIds seller prices buyer approvals referrer) := by
  have hitems : Tx.Gated (State.over locks) (.contract .swapExists)
      (∀ item ∈ ipIds.zip prices, locks item.1 = none)
      (batchInitiateSwap env token ipIds seller prices buyer approvals referrer) :=
    .after requireNotPaused_blind fun _ => .after requireAuth_blind fun _ =>
      .after require_blind fun _ => .after require_blind fun _ => .after require_blind fun _ =>
      .then_blind validateBatch_gated fun _ =>
      .bind (.forEach fun _ => openValidated_blind) fun _ => .bind publish_blind fun _ => .pure
  refine hitems.congr_of_ok ?_
  intro s ids s' h
  have hfst : (ipIds.zip prices).map Prod.fst = ipIds :=
    List.map_fst_zip (batchInitiateSwap_lengths h).ge
  rw [← List.forall_mem_map (P := fun ipId => locks ipId = none), hfst]

theorem batchInitiateSwapWithInsurance_gated :
    Tx.Gated (State.over locks) (.contract .swapExists) (∀ ipId ∈ ipIds, locks ipId = none)
      (batchInitiateSwapWithInsurance env token ipIds seller prices buyer approvals referrer
        insured) :=
  .after requireNotPaused_blind fun _ => .after requireAuth_blind fun _ =>
    .forEach₂ fun _ _ => openInsured_gated

theorem batchInitiateEscrow_gated {timeouts : List ℕ} :
    Tx.Gated (State.over locks) (.contract .swapExists) (∀ ipId ∈ ipIds, locks ipId = none)
      (batchInitiateEscrow env token ipIds seller prices buyer timeouts) :=
  .after requireNotPaused_blind fun _ => .after requireAuth_blind fun _ =>
    .after require_blind fun _ => .forEach₂ fun _ _ => openInEscrow_gated

end Batches

section Calls

variable {locks : ℕ → Option ℕ} {env : Env} {call : Call} {ips : List ℕ} {s s' : State}

theorem exec_gated (hips : call.offers = some ips) : Tx.Gated (State.over locks)
    (.contract .swapExists) (∀ ip ∈ ips, locks ip = none) (exec env call) := by
  cases call with
  | initiateSwap =>
    obtain rfl := Option.some.inj hips
    exact initiateSwap_gated.void.congr (by simp)
  | initiateSwapWithOraclePrice =>
    obtain rfl := Option.some.inj hips
    exact initiateSwapWithOraclePrice_gated.void.congr (by simp)
  | initiateSwapWithSchedule =>
    obtain rfl := Option.some.inj hips
    exact initiateSwapWithSchedule_gated.void.congr (by simp)
  | initiateEscrowSwap =>
    obtain rfl := Option.some.inj hips
    exact initiateEscrowSwap_gated.void.congr (by simp)
  | initiateSwapWithSigners =>
    obtain rfl := Option.some.inj hips
    exact initiateSwapWithSigners_gated.void.congr (by simp)
  | batchInitiateSwap =>
    obtain rfl := Option.some.inj hips
    exact batchInitiateSwap_gated.void
  | batchInitiateSwapWithInsurance =>
    obtain rfl := Option.some.inj hips
    exact batchInitiateSwapWithInsurance_gated.void
  | batchInitiateEscrow =>
    obtain rfl := Option.some.inj hips
    exact batchInitiateEscrow_gated.void
  | _ => simp [Call.offers] at hips

/-- An initiation that every other check lets through. -/
def OtherwiseValid (env : Env) (call : Call) (s : State) : Prop :=
  ∃ s', exec env call s.unlocked = .ok ((), s')

theorem OtherwiseValid.decided (h : OtherwiseValid env call s) (hips : call.offers = some ips) :
    (∀ ip ∈ ips, s.activeSwap ip = none) ∧ (∃ s', exec env call s = .ok ((), s')) ∨
    ¬ (∀ ip ∈ ips, s.activeSwap ip = none) ∧
      exec env call s = .error (.contract .swapExists) := by
  obtain ⟨s', hexec⟩ := h
  have hgated : Tx.Gated (State.over s.activeSwap) _ _ (exec env call) := exec_gated hips
  have hdecided := hgated _ _ _ hexec
  rw [s.unlocked_over] at hdecided
  exact hdecided.imp (fun hok => ⟨hok.1, _, hok.2⟩) id

end Calls

/-- The lock law, over runs without the calls that write a status past the lock. -/
theorem one_live_swap {tr : List (Act × State)} {s : State}
    (h : Reaches (OnCalls fun _ _ call => call.KeepsLocks) tr s) :
    (∀ ip i, s.activeSwap ip = some i ↔ LiveFor s.swap ip i) ∧
    (∀ ip i j, LiveFor s.swap ip i → LiveFor s.swap ip j → i = j) ∧
    ∀ env call ips, call.offers = some ips → OtherwiseValid env call s →
      (exec env call s = .error (.contract .swapExists) ↔
        ∃ ip ∈ ips, ∃ i, LiveFor s.swap ip i) ∧
      ((∃ s', exec env call s = .ok ((), s')) ↔ ¬ ∃ ip ∈ ips, ∃ i, LiveFor s.swap ip i) := by
  have hlocked := h.locked
  refine ⟨hlocked, fun ip i j => hlocked.unique, ?_⟩
  intro env call ips hips hvalid
  have hfree : (∀ ip ∈ ips, s.activeSwap ip = none) ↔ ¬ ∃ ip ∈ ips, ∃ i, LiveFor s.swap ip i := by
    push Not
    exact forall₂_congr fun ip _ => hlocked.free_iff
  rcases hvalid.decided hips with ⟨hnone, s', hok⟩ | ⟨hsome, herror⟩
  · have hnolive := hfree.mp hnone
    exact ⟨⟨fun e => absurd (hok.symm.trans e) (by simp), fun hlive => absurd hlive hnolive⟩,
      ⟨fun _ => hnolive, fun _ => ⟨s', hok⟩⟩⟩
  · rw [hfree, not_not] at hsome
    refine ⟨⟨fun _ => hsome, fun _ => herror⟩, ⟨?_, fun hnot => absurd hsome hnot⟩⟩
    rintro ⟨s', hok⟩
    exact absurd (hok.symm.trans herror) (by simp)

section Runs

open Scenario

def resale : Call := .initiateSwap token 1 seller 2000 buyer 0 none 0 false

theorem resale_refused : ∃ s, play (State.empty funds) sale = .ok s ∧
    LiveFor s.swap 1 0 ∧ exec (env [seller] 3) resale s = .error (.contract .swapExists) := by
  obtain ⟨s, hplay⟩ : ∃ s, play (State.empty funds) sale = .ok s :=
    played_of_isOk (by decide)
  obtain ⟨tr, hreaches⟩ : ∃ tr, Reaches (OnCalls fun _ _ call => call.KeepsLocks) tr s :=
    play_reaches hplay (by simp [sale, offer, OnCalls, Call.KeepsLocks]) funds_contract
  have hseen : (play (State.empty funds) sale).toOption.all (fun s =>
      decide (s.activeSwap 1 = some 0) && (exec (env [seller] 3) resale s.unlocked).isOk) := by
    decide
  simp only [hplay, Except.toOption, Option.all_some, Bool.and_eq_true, decide_eq_true_eq] at hseen
  obtain ⟨hlock, hok⟩ := hseen
  have hvalid : OtherwiseValid (env [seller] 3) resale s := by
    cases hexec : exec (env [seller] 3) resale s.unlocked with
    | error e => simp [hexec, Except.isOk, Except.toBool] at hok
    | ok p => exact ⟨p.2, hexec⟩
  obtain ⟨hlocks, -, hdecided⟩ := one_live_swap hreaches
  have hlive := (hlocks 1 0).mp hlock
  exact ⟨s, hplay, hlive, (hdecided _ _ [1] rfl hvalid).1.mpr ⟨1, by simp, 0, hlive⟩⟩

end Runs

end AtomicIp.AtomicSwap
