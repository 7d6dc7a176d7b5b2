import AtomicIp.Lib.Run
import AtomicIp.Reference.Registry

/-!
The reference implementation of the swaps, over the registry's. A swap that can still go either
way holds the lock of its IP, so the lock that `reveal_key` deletes is there.
-/

set_option autoImplicit false

namespace AtomicIp.Reference

open Function

inductive SwapStatus where
  | pending | accepted | completed | cancelled | disputed
  deriving DecidableEq

structure SwapRecord where
  swapId : ℕ
  ipId : ℕ
  seller : Address
  buyer : Address
  price : ℤ
  status : SwapStatus
  deriving DecidableEq

structure AtomicSwap where
  registry : IpRegistry
  swaps : ℕ → Option SwapRecord
  activeSwaps : ℕ → Option ℕ
  nextId : ℕ

namespace AtomicSwap

def empty : AtomicSwap where
  registry := .empty
  swaps _ := none
  activeSwaps _ := none
  nextId := 0

variable (sha256 : Bytes → BytesN 32) (self : AtomicSwap)

def getSwap (swapId : ℕ) : Except Raised SwapRecord :=
  match self.swaps swapId with
  | some swap => .ok swap
  | none => .error (.swapNotFound swapId)

def setStatus (swapId : ℕ) (swap : SwapRecord) (status : SwapStatus) : AtomicSwap :=
  { self with swaps := update self.swaps swapId (some { swap with status }) }

def unlock (ipId : ℕ) : AtomicSwap :=
  { self with activeSwaps := update self.activeSwaps ipId none }

def enlist (r : SwapRecord) : AtomicSwap :=
  { self with
    nextId := self.nextId + 1
    swaps := update self.swaps self.nextId (some r)
    activeSwaps := update self.activeSwaps r.ipId (some self.nextId) }

def initiateSwap (ipId : ℕ) (seller : Address) (price : ℤ) (buyer : Address) :
    Outcome AtomicSwap ℕ :=
  if price ≤ 0 then (.error .priceMustBeGreaterThanZero, self)
  else
    match self.registry.getIp ipId with
    | .error e => (.error e, self)
    | .ok record =>
      if record.owner ≠ seller then (.error .sellerIsNotTheIPOwner, self)
      else if record.revoked then (.error .ipIsRevoked, self)
      else if (self.activeSwaps ipId).isSome then
        (.error .activeSwapAlreadyExistsForThisIpId, self)
      else
        let swapId := self.nextId
        (.ok swapId, self.enlist ⟨swapId, ipId, seller, buyer, price, .pending⟩)

def acceptSwap (swapId : ℕ) : Outcome AtomicSwap Unit :=
  match self.getSwap swapId with
  | .error e => (.error e, self)
  | .ok swap =>
    if swap.status ≠ .pending then (.error .swapNotPending, self)
    else (.ok (), self.setStatus swapId swap .accepted)

/-- The status is written before the lock is deleted, and stays if there is none. -/
def revealKey (swapId : ℕ) (caller : Address) (secret blindingFactor : BytesN 32) :
    Outcome AtomicSwap Unit :=
  match self.getSwap swapId with
  | .error e => (.error e, self)
  | .ok swap =>
    if swap.status ≠ .accepted then (.error .swapNotAccepted, self)
    else if caller ≠ swap.seller then (.error .onlyTheSellerCanRevealTheKey, self)
    else
      match self.registry.verifyCommitment sha256 swap.ipId secret blindingFactor with
      | .error e => (.error e, self)
      | .ok false => (.error .invalidKey, self)
      | .ok true =>
        let completed := self.setStatus swapId swap .completed
        if (completed.activeSwaps swap.ipId).isSome then (.ok (), completed.unlock swap.ipId)
        else (.error (.keyError swap.ipId), completed)

def cancelSwap (swapId : ℕ) (caller : Address) : Outcome AtomicSwap Unit :=
  match self.getSwap swapId with
  | .error e => (.error e, self)
  | .ok swap =>
    if caller ≠ swap.seller ∧ caller ≠ swap.buyer then
      (.error .onlyTheSellerOrBuyerCanCancel, self)
    else if swap.status ≠ .pending ∧ swap.status ≠ .accepted then
      (.error .cannotCancelInCurrentState, self)
    else (.ok (), (self.setStatus swapId swap .cancelled).unlock swap.ipId)

end AtomicSwap

/-- The calls that change the swaps, or the registry under them. -/
inductive SwapCall where
  | registry (call : RegistryCall)
  | initiateSwap (ipId : ℕ) (seller : Address) (price : ℤ) (buyer : Address)
  | acceptSwap (swapId : ℕ)
  | revealKey (swapId : ℕ) (caller : Address) (secret blindingFactor : BytesN 32)
  | cancelSwap (swapId : ℕ) (caller : Address)
  deriving DecidableEq

def SwapCall.perform (sha256 : Bytes → BytesN 32) :
    SwapCall → AtomicSwap → Outcome AtomicSwap Unit
  | .registry call, self =>
    let (answer, changed) := call.perform self.registry
    (answer, { self with registry := changed })
  | .initiateSwap ipId seller price buyer, self =>
    let (answer, self') := self.initiateSwap ipId seller price buyer
    (answer.map fun _ => (), self')
  | .acceptSwap swapId, self => self.acceptSwap swapId
  | .revealKey swapId caller secret blindingFactor, self =>
    self.revealKey sha256 swapId caller secret blindingFactor
  | .cancelSwap swapId caller, self => self.cancelSwap swapId caller

def SwapStep (sha256 : Bytes → BytesN 32) (a : AtomicSwap) (call : SwapCall) (a' : AtomicSwap) :
    Prop := call.perform sha256 a = (.ok (), a')

section Returns

variable {sha256 : Bytes → BytesN 32} {a a' : AtomicSwap} {i ipId : ℕ} {r : SwapRecord}
  {seller buyer caller : Address} {price : ℤ} {secret blindingFactor : BytesN 32}

def SwapStatus.Open (q : SwapStatus) : Prop := q = .pending ∨ q = .accepted

theorem initiateSwap_returns : SwapStep sha256 a (.initiateSwap ipId seller price buyer) a' ↔
    0 < price ∧ (∃ record, a.registry.records ipId = some record ∧ record.owner = seller ∧
      record.revoked = false) ∧ a.activeSwaps ipId = none ∧
      a' = a.enlist ⟨a.nextId, ipId, seller, buyer, price, .pending⟩ := by
  unfold SwapStep SwapCall.perform AtomicSwap.initiateSwap IpRegistry.getIp
  by_cases hprice : 0 < price
  · have hsome : ¬ price ≤ 0 := by omega
    cases hr : a.registry.records ipId with
    | none => simp [hsome, hr, Except.map]
    | some record =>
      by_cases howner : record.owner = seller
      · by_cases hrevoked : record.revoked = false
        · by_cases hfree : a.activeSwaps ipId = none
          · simp [hsome, hprice, hr, howner, hrevoked, hfree, Except.map]
            exact eq_comm
          · simp [hsome, hr, howner, hrevoked, hfree, Except.map, Option.isSome_iff_ne_none]
        · simp [hsome, hr, howner, hrevoked, Except.map]
      · simp [hsome, hr, howner, Except.map]
  · have hnone : price ≤ 0 := by omega
    simp [hnone, hprice, Except.map]

theorem acceptSwap_returns : SwapStep sha256 a (.acceptSwap i) a' ↔
    ∃ r, a.swaps i = some r ∧ r.status = .pending ∧ a' = a.setStatus i r .accepted := by
  unfold SwapStep SwapCall.perform AtomicSwap.acceptSwap AtomicSwap.getSwap
  cases hr : a.swaps i with
  | none => simp [hr]
  | some r =>
    by_cases hst : r.status = .pending
    · simp [hr, hst]
      exact eq_comm
    · simp [hr, hst]

theorem revealKey_returns : SwapStep sha256 a (.revealKey i caller secret blindingFactor) a' ↔
    ∃ r, a.swaps i = some r ∧ r.status = .accepted ∧ caller = r.seller ∧
      a.registry.verifyCommitment sha256 r.ipId secret blindingFactor = .ok true ∧
      (a.activeSwaps r.ipId).isSome = true ∧
      a' = (a.setStatus i r .completed).unlock r.ipId := by
  unfold SwapStep SwapCall.perform AtomicSwap.revealKey AtomicSwap.getSwap
  cases hr : a.swaps i with
  | none => simp [hr]
  | some r =>
    by_cases hst : r.status = .accepted
    · by_cases hcaller : caller = r.seller
      · cases hkey : a.registry.verifyCommitment sha256 r.ipId secret blindingFactor with
        | error e => simp [hr, hst, hcaller, hkey]
        | ok valid =>
          cases valid
          · simp [hr, hst, hcaller, hkey]
          · cases hlock : (a.activeSwaps r.ipId).isSome with
            | false => simp [hr, hst, hcaller, hkey, hlock, AtomicSwap.setStatus]
            | true =>
              simp [hr, hst, hcaller, hkey, hlock, AtomicSwap.setStatus]
              exact eq_comm
      · simp [hr, hst, hcaller]
    · simp [hr, hst]

theorem cancelSwap_returns : SwapStep sha256 a (.cancelSwap i caller) a' ↔
    ∃ r, a.swaps i = some r ∧ (caller = r.seller ∨ caller = r.buyer) ∧ r.status.Open ∧
      a' = (a.setStatus i r .cancelled).unlock r.ipId := by
  unfold SwapStep SwapCall.perform AtomicSwap.cancelSwap AtomicSwap.getSwap SwapStatus.Open
  cases hr : a.swaps i with
  | none => simp [hr]
  | some r =>
    by_cases hparty : caller = r.seller ∨ caller = r.buyer
    · by_cases hst : r.status = .pending ∨ r.status = .accepted
      · simp [hr, hparty, hst, ← not_or]
        exact eq_comm
      · simp [hr, hparty, hst, ← not_or]
    · simp [hr, hparty, ← not_or]

end Returns

section Locks

variable {sha256 : Bytes → BytesN 32} {a a' : AtomicSwap} {call : SwapCall} {i : ℕ}
  {r : SwapRecord} {status : SwapStatus}

def AtomicSwap.Locked (a : AtomicSwap) : Prop :=
  ∀ i r, a.swaps i = some r → r.status.Open → a.activeSwaps r.ipId = some i

theorem AtomicSwap.Locked.empty : AtomicSwap.empty.Locked := by
  intro i r hr
  cases hr

theorem AtomicSwap.Locked.accept (h : a.Locked) (hr : a.swaps i = some r)
    (hpending : r.status = .pending) : (a.setStatus i r .accepted).Locked := by
  intro j r' hr' hopen
  by_cases hj : j = i
  · subst hj
    obtain rfl : { r with status := .accepted } = r' := by
      simpa [AtomicSwap.setStatus] using hr'
    exact h j r hr (.inl hpending)
  · exact h j r' (by simpa [AtomicSwap.setStatus, hj] using hr') hopen

theorem AtomicSwap.Locked.close (h : a.Locked) (hr : a.swaps i = some r) (hopen : r.status.Open)
    (hclosed : ¬ status.Open) : ((a.setStatus i r status).unlock r.ipId).Locked := by
  intro j r' hr' hopen'
  by_cases hj : j = i
  · subst hj
    obtain rfl : { r with status } = r' := by
      simpa [AtomicSwap.setStatus, AtomicSwap.unlock] using hr'
    exact absurd hopen' hclosed
  · have hold : a.swaps j = some r' := by
      simpa [AtomicSwap.setStatus, AtomicSwap.unlock, hj] using hr'
    have hlock := h j r' hold hopen'
    have hip : r'.ipId ≠ r.ipId := by
      intro hsame
      rw [hsame, h i r hr hopen] at hlock
      exact hj (Option.some.inj hlock).symm
    simpa [AtomicSwap.setStatus, AtomicSwap.unlock, hip] using hlock

theorem AtomicSwap.Locked.enlist (h : a.Locked) (hfree : a.activeSwaps r.ipId = none) :
    (a.enlist r).Locked := by
  intro j r' hr' hopen
  by_cases hj : j = a.nextId
  · subst hj
    obtain rfl : r = r' := by simpa [AtomicSwap.enlist] using hr'
    simp [AtomicSwap.enlist]
  · have hold : a.swaps j = some r' := by simpa [AtomicSwap.enlist, hj] using hr'
    have hlock := h j r' hold hopen
    have hne : r'.ipId ≠ r.ipId := by
      intro hsame
      rw [hsame, hfree] at hlock
      cases hlock
    simpa [AtomicSwap.enlist, hne] using hlock

theorem SwapStep.locked (h : SwapStep sha256 a call a') (hlocked : a.Locked) : a'.Locked := by
  cases call with
  | registry call =>
    obtain ⟨-, rfl⟩ := Prod.mk.inj h
    exact hlocked
  | initiateSwap =>
    obtain ⟨-, -, hfree, rfl⟩ := initiateSwap_returns.mp h
    exact hlocked.enlist hfree
  | acceptSwap =>
    obtain ⟨r, hr, hpending, rfl⟩ := acceptSwap_returns.mp h
    exact hlocked.accept hr hpending
  | revealKey =>
    obtain ⟨r, hr, haccepted, -, -, -, rfl⟩ := revealKey_returns.mp h
    exact hlocked.close hr (.inr haccepted) (by simp [SwapStatus.Open])
  | cancelSwap =>
    obtain ⟨r, hr, -, hopen, rfl⟩ := cancelSwap_returns.mp h
    exact hlocked.close hr hopen (by simp [SwapStatus.Open])

theorem AtomicSwap.Locked.deletes (h : a.Locked) (hr : a.swaps i = some r)
    (haccepted : r.status = .accepted) : (a.activeSwaps r.ipId).isSome = true := by
  rw [h i r hr (.inr haccepted)]
  rfl

end Locks

end AtomicIp.Reference
