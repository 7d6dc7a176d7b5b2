import AtomicIp.Lib.Index
import AtomicIp.Swap.Completions
import AtomicIp.Swap.Guards
import AtomicIp.Swap.Records
import AtomicIp.Swap.Tables

set_option autoImplicit false

namespace AtomicIp.AtomicSwap

open Function Tx

structure Listing where
  count : ℕ
  swap : ℕ → Option SwapRecord
  swapInsurance : ℕ → Option ℤ
  swapHistory : ℕ → Option (List SwapHistoryEntry)
  sellerSwaps : Address → Option (List ℕ)
  buyerSwaps : Address → Option (List ℕ)
  ipSwaps : ℕ → Option (List ℕ)
  transfers : List TokenTransfer

def State.listing (s : State) : Listing where
  count := s.escrow.count
  swap := s.swap
  swapInsurance := s.swapInsurance
  swapHistory := s.swapHistory
  sellerSwaps := s.sellerSwaps
  buyerSwaps := s.buyerSwaps
  ipSwaps := s.ipSwaps
  transfers := s.transfers

/-- A record to list, and whether it is filed under its IP. -/
structure Lot where
  record : SwapRecord
  byIp : Bool

def Listing.opened (l : Listing) (env : Env) (x : Lot) : Listing where
  count := l.count + 1
  swap := update l.swap l.count (some x.record)
  swapInsurance := if x.record.insuranceEnabled then
    update l.swapInsurance l.count (some x.record.insurancePremium) else l.swapInsurance
  swapHistory := logged env l.count x.record.status l.swapHistory
  sellerSwaps := filed l.sellerSwaps x.record.seller l.count
  buyerSwaps := filed l.buyerSwaps x.record.buyer l.count
  ipSwaps := if x.byIp then filed l.ipSwaps x.record.ipId l.count else l.ipSwaps
  transfers := l.transfers

inductive Enlists (env : Env) : Listing → Lot → Listing → Prop where
  | opened (l : Listing) (x : Lot) : Enlists env l x (l.opened env x)

structure Offer (q : SwapStatus) (r : SwapRecord) : Prop where
  status : r.status = q
  conditions : r.conditions = []
  premium : r.insurancePremium = premiumOn r.insuranceEnabled r.price

def Lot.Opens (q : SwapStatus) (byIp : Bool) (x : Lot) : Prop :=
  Offer q x.record ∧ x.byIp = byIp

def OpensOne (env : Env) (q : SwapStatus) (byIp : Bool) (s s' : State) : Prop :=
  ∃ r, Offer q r ∧ s'.listing = s.listing.opened env ⟨r, byIp⟩

def OpensAll (env : Env) (q : SwapStatus) (byIp : Bool) (s s' : State) : Prop :=
  Emits (Enlists env) (Lot.Opens q byIp) s.listing s'.listing

section Offers

variable {env : Env} {s s' s₁ s₂ s₃ : State} {u v : Unit} {ipId id : ℕ} {r : SwapRecord}
  {token seller buyer : Address} {price : ℤ} {approvals : ℕ} {referrer : Option Address}
  {insured byIp : Bool} {topic : String} {q : SwapStatus}

theorem OpensOne.all (h : OpensOne env q byIp s s') : OpensAll env q byIp s s' := by
  obtain ⟨r, hoffer, e⟩ := h
  have hstep : Enlists env s.listing ⟨r, byIp⟩ s'.listing := by
    rw [e]
    exact .opened ..
  exact .single hstep ⟨hoffer, rfl⟩

theorem OpensAll.refl (s : State) : OpensAll env q byIp s s := Emits.refl _

theorem OpensAll.trans (h : OpensAll env q byIp s s₁) (h' : OpensAll env q byIp s₁ s') :
    OpensAll env q byIp s s' := Emits.trans h h'

section Writes

theorem appendSwapForParty_listing (h : appendSwapForParty seller buyer id s = .ok (u, s')) :
    s'.listing = { s.listing with
      sellerSwaps := filed s.listing.sellerSwaps seller id
      buyerSwaps := filed s.listing.buyerSwaps buyer id } := by
  simp only [appendSwapForParty, store_bind_ok, store_ok] at h
  rw [h]
  rfl

theorem appendIpSwap_listing (h : appendIpSwap ipId id s = .ok (u, s')) :
    s'.listing = { s.listing with ipSwaps := filed s.listing.ipSwaps ipId id } := by
  rw [store_ok.mp h]
  rfl

theorem appendHistory_listing (h : appendHistory env id q s = .ok (u, s')) :
    s'.listing = { s.listing with swapHistory := logged env id q s.listing.swapHistory } := by
  rw [store_ok.mp h]
  rfl

theorem openSwap_listing (h : openSwap id r s = .ok (u, s')) :
    s'.listing = { s.listing with
      swap := update s.listing.swap id (some r)
      sellerSwaps := filed s.listing.sellerSwaps r.seller id
      buyerSwaps := filed s.listing.buyerSwaps r.buyer id } := by
  simp only [openSwap, saveSwap, store_bind_ok] at h
  rw [appendSwapForParty_listing h]
  rfl

theorem announceSwap_listing (h : announceSwap env topic id r s = .ok (u, s')) :
    s'.listing = { s.listing with
      count := id + 1
      swapHistory := logged env id .pending s.listing.swapHistory } := by
  simp [announceSwap] at h
  obtain ⟨s₁, hhistory, -, rfl⟩ := h
  change { s₁.listing with count := id + 1 } = _
  rw [appendHistory_listing hhistory]

theorem storeInsurance_listing {premium : ℤ}
    (h : storeInsurance insured id premium s = .ok (u, s')) :
    s'.listing = { s.listing with
      swapInsurance := if insured then update s.listing.swapInsurance id (some premium)
        else s.listing.swapInsurance } := by
  cases insured with
  | true =>
    rw [storeInsurance, onlyIf, if_pos rfl] at h
    rw [store_ok.mp h]
    rfl
  | false =>
    simp [storeInsurance] at h
    rw [h]
    rfl

theorem listing_of_opening (hopen : openSwap s.escrow.count r s₁ = .ok (u, s₂))
    (hannounce : announceSwap env topic s.escrow.count r s₃ = .ok (v, s'))
    (k₁ : s₁.listing = { s.listing with
      swapInsurance := if r.insuranceEnabled
        then update s.listing.swapInsurance s.escrow.count (some r.insurancePremium)
        else s.listing.swapInsurance })
    (k₂ : s₃.listing = { s₂.listing with
      ipSwaps := if byIp then filed s₂.listing.ipSwaps r.ipId s.escrow.count
        else s₂.listing.ipSwaps })
    (hoffer : Offer .pending r) : s'.listing = s.listing.opened env ⟨r, byIp⟩ := by
  rw [announceSwap_listing hannounce, k₂, openSwap_listing hopen, k₁, Listing.opened, hoffer.status]
  rfl

end Writes

theorem initiateSwap_lists {collateral : ℤ}
    (h : initiateSwap env token ipId seller price buyer approvals referrer collateral insured s
      = .ok (id, s')) : OpensOne env .pending true s s' := by
  obtain ⟨-, -, -, -, rfl, premium, _, s₁, s₂, s₃, rfl, rfl, hinsure, hopen, hindex, hannounce⟩ :=
    initiateSwap_opening h
  have k₁ := storeInsurance_listing hinsure
  have k₂ := appendIpSwap_listing hindex
  exact ⟨_, ⟨rfl, rfl, rfl⟩, listing_of_opening hopen hannounce k₁ k₂ ⟨rfl, rfl, rfl⟩⟩

theorem initiateSwapWithOraclePrice_lists {collateral low high : ℤ}
    (h : initiateSwapWithOraclePrice env token ipId seller buyer approvals referrer collateral
      insured low high s = .ok (id, s')) : OpensOne env .pending true s s' := by
  simp [initiateSwapWithOraclePrice, fetchOraclePrice, loadOracleConfig, validatePriceBounds] at h
  obtain ⟨config, -, -, price, -, -, -, -, s₁, hinitiate, rfl⟩ := h
  obtain ⟨r, hoffer, e⟩ := initiateSwap_lists hinitiate
  exact ⟨r, hoffer, e⟩

theorem initiateSwapWithSchedule_lists {schedule : List PaymentSchedule}
    (h : initiateSwapWithSchedule env token ipId seller schedule buyer s = .ok (id, s')) :
    OpensOne env .pending true s s' := by
  obtain ⟨-, -, -, -, rfl, _, s₁, s₂, rfl, hopen, hindex, hannounce⟩ :=
    initiateSwapWithSchedule_opening h
  have k := appendIpSwap_listing hindex
  exact ⟨_, ⟨rfl, rfl, rfl⟩, listing_of_opening hopen hannounce rfl k ⟨rfl, rfl, rfl⟩⟩

theorem initiateSwapWithSigners_lists {signers : List Address}
    (h : initiateSwapWithSigners env token ipId seller price buyer signers s = .ok (id, s')) :
    OpensOne env .pending true s s' := by
  obtain ⟨-, -, -, -, rfl, _, s₁, s₂, rfl, hopen, hindex, hannounce⟩ :=
    initiateSwapWithSigners_opening h
  have k := appendIpSwap_listing hindex
  exact ⟨_, ⟨rfl, rfl, rfl⟩, listing_of_opening hopen hannounce rfl k ⟨rfl, rfl, rfl⟩⟩

theorem initiateEscrowSwap_lists {timeout : ℕ}
    (h : initiateEscrowSwap env token ipId seller price buyer timeout s = .ok (id, s')) :
    ∃ r, Offer .pending r ∧ r.ipId = ipId ∧ s'.listing = s.listing.opened env ⟨r, false⟩ := by
  obtain ⟨-, -, -, -, rfl, _, s₁, rfl, hopen, hannounce⟩ := initiateEscrowSwap_opening h
  have k : (s₁.setSwapMode s.escrow.count (some .escrow)).listing = s₁.listing := rfl
  exact ⟨_, ⟨rfl, rfl, rfl⟩, rfl, listing_of_opening hopen hannounce rfl k ⟨rfl, rfl, rfl⟩⟩

theorem openValidated_lists {item : ℕ × ℤ}
    (h : openValidated env token seller buyer approvals referrer item s = .ok (id, s')) :
    OpensOne env .pending true s s' := by
  obtain ⟨rfl, _, s₁, s₂, rfl, hopen, hindex, hannounce⟩ := openValidated_opening h
  have k := appendIpSwap_listing hindex
  exact ⟨_, ⟨rfl, rfl, rfl⟩, listing_of_opening hopen hannounce rfl k ⟨rfl, rfl, rfl⟩⟩

theorem openInsured_lists
    (h : openInsured env token seller buyer approvals referrer insured ipId price s
      = .ok (id, s')) : OpensOne env .pending true s s' := by
  obtain ⟨-, -, -, rfl, premium, _, s₁, s₂, s₃, rfl, rfl, hinsure, hopen, hindex, hannounce⟩ :=
    openInsured_opening h
  have k₁ := storeInsurance_listing hinsure
  have k₂ := appendIpSwap_listing hindex
  exact ⟨_, ⟨rfl, rfl, rfl⟩, listing_of_opening hopen hannounce k₁ k₂ ⟨rfl, rfl, rfl⟩⟩

theorem openInEscrow_lists {item : ℤ × ℕ}
    (h : openInEscrow env token seller buyer ipId item s = .ok (id, s')) :
    OpensOne env .pending true s s' := by
  obtain ⟨-, -, -, rfl, _, s₁, s₂, rfl, hopen, hindex, hannounce⟩ := openInEscrow_opening h
  have k := appendIpSwap_listing hindex
  exact ⟨_, ⟨rfl, rfl, rfl⟩, listing_of_opening hopen hannounce rfl k ⟨rfl, rfl, rfl⟩⟩

theorem sellToWinner_lists {auction : AuctionRecord}
    (h : sellToWinner env auction buyer s = .ok (u, s')) : OpensOne env .accepted true s s' := by
  simp [sellToWinner, defaultExpiry] at h
  obtain ⟨-, s₁, hparties, s₂, hindex, s₃, hhistory, -, rfl⟩ := h
  refine ⟨(pendingSwap auction.token auction.ipId auction.seller auction.highestBid buyer
    (env.timestamp + 604800)).acceptedAt env.timestamp, ⟨rfl, rfl, rfl⟩, ?_⟩
  change { s₃.listing with count := s.escrow.count + 1 } = _
  rw [appendHistory_listing hhistory, appendIpSwap_listing hindex,
    appendSwapForParty_listing hparties]
  rfl

theorem batchInitiateSwap_lists {ipIds ids : List ℕ} {prices : List ℤ}
    (h : batchInitiateSwap env token ipIds seller prices buyer approvals referrer s
      = .ok (ids, s')) : OpensAll env .pending true s s' := by
  simp [batchInitiateSwap] at h
  obtain ⟨-, -, -, -, -, s₁, hvalid, s₂, hloop, rfl⟩ := h
  obtain ⟨rfl, -⟩ := validateBatch_ok hvalid
  have hall : OpensAll env .pending true s₁ s₂ := Tx.forEach_rel OpensAll.refl OpensAll.trans
    (fun _ _ _ _ _ hbody => (openValidated_lists hbody).all) hloop
  exact hall

theorem batchInitiateSwapWithInsurance_lists {ipIds ids : List ℕ} {prices : List ℤ}
    (h : batchInitiateSwapWithInsurance env token ipIds seller prices buyer approvals referrer
      insured s = .ok (ids, s')) : OpensAll env .pending true s s' := by
  simp [batchInitiateSwapWithInsurance] at h
  obtain ⟨-, -, hloop⟩ := h
  exact Tx.forEach₂_rel OpensAll.refl OpensAll.trans
    (fun _ _ _ _ _ _ _ hbody => (openInsured_lists hbody).all) hloop

theorem batchInitiateEscrow_lists {ipIds timeouts ids : List ℕ} {prices : List ℤ}
    (h : batchInitiateEscrow env token ipIds seller prices buyer timeouts s = .ok (ids, s')) :
    OpensAll env .pending true s s' := by
  simp [batchInitiateEscrow] at h
  obtain ⟨-, -, -, hloop⟩ := h
  exact Tx.forEach₂_rel OpensAll.refl OpensAll.trans
    (fun _ _ _ _ _ _ _ hbody => (openInEscrow_lists hbody).all) hloop

theorem finalizeAuction_lists {i : ℕ} (h : finalizeAuction env i s = .ok (u, s')) :
    OpensAll env .accepted true s s' := by
  obtain ⟨a, -, -, -, s₁, rfl, ⟨-, rfl⟩ | ⟨buyer, -, hsold⟩⟩ := finalizeAuction_closes h
  · exact .refl s
  · have hone := (sellToWinner_lists hsold).all
    exact hone

end Offers

def Call.lists : Call → Bool
  | .initiateSwap .. | .initiateSwapWithOraclePrice .. | .batchInitiateSwap ..
  | .batchInitiateSwapWithInsurance .. | .initiateSwapWithSchedule .. | .initiateEscrowSwap ..
  | .batchInitiateEscrow .. | .initiateSwapWithSigners .. | .finalizeAuction _ => true
  | _ => false

/-- The calls that do not file the swaps they list under their IPs. -/
def Call.filesByIp : Call → Bool
  | .initiateEscrowSwap .. => false
  | _ => true

def Call.firstStatus : Call → SwapStatus
  | .finalizeAuction _ => .accepted
  | _ => .pending

section Swaps

variable {env : Env} {s s' : State} {l l' l₁ : Listing} {q : SwapStatus} {byIp : Bool} {x : Lot}
  {j : ℕ}

/-- A swap is as it was, or it is a new one, with its history begun and its premium stored. -/
inductive ListedAt (env : Env) (q : SwapStatus) (l l' : Listing) (j : ℕ) : Prop where
  | same (hswap : l'.swap j = l.swap j) (hhistory : l'.swapHistory j = l.swapHistory j)
      (hinsurance : l'.swapInsurance j = l.swapInsurance j)
  | new (r : SwapRecord) (hnew : l.count ≤ j) (hoffer : Offer q r) (hswap : l'.swap j = some r)
      (hhistory : l'.swapHistory j = logged env j q l.swapHistory j)
      (hinsurance : r.insuranceEnabled = true → l'.swapInsurance j = some r.insurancePremium)

/-- What is listed between `l` and `l'` has the ids from the one counter to the other. -/
structure ListedTo (env : Env) (q : SwapStatus) (l l' : Listing) : Prop where
  count : l.count ≤ l'.count
  transfers : l'.transfers = l.transfers
  listed : ∀ j, ListedAt env q l l' j
  ahead : ∀ j, l'.count ≤ j → l'.swap j = l.swap j ∧ l'.swapHistory j = l.swapHistory j ∧
    l'.swapInsurance j = l.swapInsurance j

theorem ListedTo.refl (l : Listing) : ListedTo env q l l :=
  ⟨Nat.le_refl _, rfl, fun _ => .same rfl rfl rfl, fun _ _ => ⟨rfl, rfl, rfl⟩⟩

theorem Listing.opened_new (l : Listing) (env : Env) (x : Lot) :
    (l.opened env x).swap l.count = some x.record ∧
      (l.opened env x).swapHistory l.count =
        logged env l.count x.record.status l.swapHistory l.count ∧
      (x.record.insuranceEnabled = true →
        (l.opened env x).swapInsurance l.count = some x.record.insurancePremium) := by
  refine ⟨update_self .., rfl, fun hinsured => ?_⟩
  simp [Listing.opened, hinsured]

theorem Listing.opened_of_ne (l : Listing) (env : Env) (x : Lot) (hj : j ≠ l.count) :
    (l.opened env x).swap j = l.swap j ∧ (l.opened env x).swapHistory j = l.swapHistory j ∧
      (l.opened env x).swapInsurance j = l.swapInsurance j := by
  refine ⟨update_of_ne hj .., update_of_ne hj .., ?_⟩
  cases hinsured : x.record.insuranceEnabled <;> simp [Listing.opened, hinsured, hj]

theorem ListedTo.step (h : ListedTo env q l l₁) (hx : x.Opens q byIp)
    (hstep : Enlists env l₁ x l') : ListedTo env q l l' := by
  cases hstep
  refine ⟨Nat.le_succ_of_le h.count, h.transfers, ?_, ?_⟩
  · intro j
    by_cases hj : j = l₁.count
    · subst hj
      obtain ⟨hswap, hhistory, hinsurance⟩ := l₁.opened_new env x
      obtain ⟨-, hbefore, -⟩ := h.ahead l₁.count (Nat.le_refl _)
      refine .new x.record h.count hx.1 hswap ?_ hinsurance
      rw [hhistory, hx.1.status, logged, logged, update_self, update_self, hbefore]
    · obtain ⟨hswap, hhistory, hinsurance⟩ := l₁.opened_of_ne env x hj
      cases h.listed j with
      | same hswap₁ hhistory₁ hinsurance₁ =>
        exact .same (hswap.trans hswap₁) (hhistory.trans hhistory₁) (hinsurance.trans hinsurance₁)
      | new r hnew hoffer hswap₁ hhistory₁ hinsurance₁ =>
        exact .new r hnew hoffer (hswap.trans hswap₁) (hhistory.trans hhistory₁)
          fun hinsured => hinsurance.trans (hinsurance₁ hinsured)
  · intro j hj
    change l₁.count + 1 ≤ j at hj
    have hne : j ≠ l₁.count := by omega
    obtain ⟨hswap, hhistory, hinsurance⟩ := l₁.opened_of_ne env x hne
    obtain ⟨hswap₁, hhistory₁, hinsurance₁⟩ := h.ahead j (by omega)
    exact ⟨hswap.trans hswap₁, hhistory.trans hhistory₁, hinsurance.trans hinsurance₁⟩

theorem OpensAll.listedTo (h : OpensAll env q byIp s s') : ListedTo env q s.listing s'.listing := by
  refine Emits.invariant ?_ h (.refl _)
  exact fun _ _ _ hx hl hstep => hl.step hx hstep

end Swaps

section Calls

variable {env : Env} {s s' : State} {call : Call} {u : Unit}

theorem exec_lists (h : exec env call s = .ok (u, s')) (hcall : call.lists = true) :
    OpensAll env call.firstStatus call.filesByIp s s' := by
  cases call with
  | initiateSwap =>
    obtain ⟨_, h⟩ := void_ok.mp h
    exact (initiateSwap_lists h).all
  | initiateSwapWithOraclePrice =>
    obtain ⟨_, h⟩ := void_ok.mp h
    exact (initiateSwapWithOraclePrice_lists h).all
  | batchInitiateSwap =>
    obtain ⟨_, h⟩ := void_ok.mp h
    exact batchInitiateSwap_lists h
  | batchInitiateSwapWithInsurance =>
    obtain ⟨_, h⟩ := void_ok.mp h
    exact batchInitiateSwapWithInsurance_lists h
  | initiateSwapWithSchedule =>
    obtain ⟨_, h⟩ := void_ok.mp h
    exact (initiateSwapWithSchedule_lists h).all
  | initiateEscrowSwap =>
    obtain ⟨_, h⟩ := void_ok.mp h
    obtain ⟨r, hoffer, -, e⟩ := initiateEscrowSwap_lists h
    exact OpensOne.all ⟨r, hoffer, e⟩
  | batchInitiateEscrow =>
    obtain ⟨_, h⟩ := void_ok.mp h
    exact batchInitiateEscrow_lists h
  | initiateSwapWithSigners =>
    obtain ⟨_, h⟩ := void_ok.mp h
    exact (initiateSwapWithSigners_lists h).all
  | finalizeAuction => exact finalizeAuction_lists h
  | _ => cases hcall

theorem Call.lists_of_writes (h : .indexes ∈ call.writes ∨ .insurance ∈ call.writes) :
    call.lists = true := by
  cases call <;> simp [Call.writes] at h <;> rfl

def Move.opens : Move → Bool
  | .initiated _ | .finalized _ => true
  | _ => false

theorem Adds.opens {c : Escrow} {m : Move} {r : SwapRecord} (h : Adds m c r) : m.opens = true := by
  cases h with
  | inl h => rw [h.1, Move.opens]
  | inr h =>
    obtain ⟨j, a, buyer, hm, -⟩ := h
    rw [hm, Move.opens]

theorem Call.yields_lists {m : Move} (hm : call.yields m) (hopens : m.opens = true) :
    call.lists = true := by
  cases m with
  | finalized =>
    obtain rfl := Call.yields_source hm
    rfl
  | initiated =>
    cases call with
    | resolveDispute _ _ refunded => cases refunded <;> simp [Call.yields, verdict] at hm
    | arbitrateSwap _ _ refund => cases refund <;> simp [Call.yields, verdict] at hm
    | batchArbitrateSwaps _ _ refund => cases refund <;> simp [Call.yields, verdict] at hm
    | _ => first | rfl | simp [Call.yields] at hm
  | _ => cases hopens

end Calls

end AtomicIp.AtomicSwap
