import AtomicIp.Lib.Frame
import AtomicIp.Swap.Contract

set_option autoImplicit false

namespace AtomicIp.AtomicSwap

open Tx

section Guards

variable {ω α : Type} {view : State → ω}

instance (e : ContractError) : Keeps view (fail e : SwapTx α) :=
  inferInstanceAs (Keeps view (Tx.abort _))

instance (p : Prop) [Decidable p] (e : ContractError) : Keeps view (require p e : SwapTx Unit) :=
  inferInstanceAs (Keeps view (Tx.ensure p _))

instance (o : Option α) (e : ContractError) : Keeps view (orFail o e : SwapTx α) :=
  inferInstanceAs (Keeps view (Tx.orAbort o _))

instance (auths : List Address) (a : Address) : Keeps view (requireAuth auths a : SwapTx Unit) :=
  inferInstanceAs (Keeps view (Tx.ensure (a ∈ auths) _))

instance (p : Prop) [Decidable p] (x : α) : Keeps view (checked p x : SwapTx α) :=
  inferInstanceAs (Keeps view (if p then Pure.pure x else Tx.abort _))

instance (x : ℤ) : Keeps view (i128 x : SwapTx ℤ) :=
  inferInstanceAs (Keeps view (checked _ x))

instance (x : ℕ) : Keeps view (u64 x : SwapTx ℕ) :=
  inferInstanceAs (Keeps view (checked _ x))

variable {env : Env} {i : ℕ} {r : SwapRecord} {a : Address}

instance : Keeps view requireNotPaused := by unfold requireNotPaused; infer_instance

instance : Keeps view (requireSwapExists i) := by unfold requireSwapExists; infer_instance

instance {q : SwapStatus} {e : ContractError} : Keeps view (requireSwapStatus r q e) := by
  unfold requireSwapStatus; infer_instance

instance {x : ℤ} : Keeps view (requirePositivePrice x) := by
  unfold requirePositivePrice; infer_instance

instance : Keeps view (requireSeller a r) := by unfold requireSeller; infer_instance

instance : Keeps view (requireBuyer a r) := by unfold requireBuyer; infer_instance

instance : Keeps view (requireSellerOrBuyer a r) := by unfold requireSellerOrBuyer; infer_instance

instance : Keeps view (requireSwapExpired env r) := by unfold requireSwapExpired; infer_instance

instance : Keeps view (requireNoActiveSwap i) := by unfold requireNoActiveSwap; infer_instance

instance : Keeps view (requireAdmin a) := by unfold requireAdmin; infer_instance

instance : Keeps view ipRegistry := by unfold ipRegistry; infer_instance

instance : Keeps view (ensureSellerOwnsActiveIp env i a) := by
  unfold ensureSellerOwnsActiveIp; infer_instance

instance {secret blindingFactor : BytesN 32} :
    Keeps view (verifyCommitment env i secret blindingFactor) := by
  unfold verifyCommitment; infer_instance

instance : Keeps view (evaluateConditions env r) := by unfold evaluateConditions; infer_instance

instance : Keeps view (requireApprovals i r) := by unfold requireApprovals; infer_instance

instance : Keeps view (requireReputation i r) := by unfold requireReputation; infer_instance

instance : Keeps view (requireAllSigned i) := by unfold requireAllSigned; infer_instance

instance : Keeps view (requireEscrowMode i) := by unfold requireEscrowMode; infer_instance

instance {bps : ℕ} {x : ℤ} : Keeps view (bpsOf bps x) := by unfold bpsOf; infer_instance

instance : Keeps view (protocolFee r) := by unfold protocolFee; infer_instance

instance : Keeps view (referralFee r) := by unfold referralFee; infer_instance

instance : Keeps view (rulingFee r) := by unfold rulingFee; infer_instance

instance : Keeps view (validateAcceptance a i) := by unfold validateAcceptance; infer_instance

instance : Keeps view nextSwapId := by unfold nextSwapId; infer_instance

instance : Keeps view (defaultExpiry env) := by unfold defaultExpiry; infer_instance

instance {insured : Bool} {x : ℤ} : Keeps view (premiumFor insured x) := by
  unfold premiumFor; infer_instance

instance {items : List (ℕ × ℤ)} : Keeps view (validateBatch env a items) := by
  induction items with
  | nil => unfold validateBatch; infer_instance
  | cons item rest ih => unfold validateBatch; infer_instance

instance : Keeps view loadOracleConfig := by unfold loadOracleConfig; infer_instance

instance : Keeps view (fetchOraclePrice env a) := by unfold fetchOraclePrice; infer_instance

instance {x lower upper : ℤ} : Keeps view (validatePriceBounds x lower upper) := by
  unfold validatePriceBounds; infer_instance

instance : Keeps view (requireAuctionExists i) := by unfold requireAuctionExists; infer_instance

instance {key : Key} : Keeps view (validateReveal env a i key) := by
  unfold validateReveal; infer_instance

instance : Keeps view (validateRollback i) := by unfold validateRollback; infer_instance

end Guards

def State.withEscrow (s : State) (c : Escrow) (events : List Event) : State :=
  { s with
    admin := c.admin
    ipRegistry := c.ipRegistry
    swap := c.swap
    activeSwap := c.activeSwap
    nextId := c.nextId
    auction := c.auction
    activeAuction := c.activeAuction
    nextAuctionId := c.nextAuctionId
    swapCollateral := c.swapCollateral
    insuranceClaimable := c.insuranceClaimable
    insurancePool := c.insurancePool
    escrowDeposit := c.escrowDeposit
    swapRenegotiations := c.swapRenegotiations
    balance := c.balance
    transfers := c.transfers
    events := events }

/-- The view shows nothing of the escrow and the event log. -/
class Aside {ω : Type} (view : State → ω) : Prop where
  same : ∀ s c events, view (s.withEscrow c events) = view s

section Aside

variable {ω : Type} {view : State → ω} [Aside view]

instance (k : State → ℕ) (o : State → Option SwapRecord) :
    Spares view fun s => s.setSwap (k s) (o s) :=
  ⟨fun s => Aside.same s (s.escrow.setSwap (k s) (o s)) s.events⟩

instance (k : State → ℕ) (o : State → Option ℕ) :
    Spares view fun s => s.setActiveSwap (k s) (o s) :=
  ⟨fun s => Aside.same s (s.escrow.setActiveSwap (k s) (o s)) s.events⟩

instance (o : State → Option ℕ) : Spares view fun s => s.setNextId (o s) :=
  ⟨fun s => Aside.same s (s.escrow.setNextId (o s)) s.events⟩

instance (o : State → Option Address) : Spares view fun s => s.setAdmin (o s) :=
  ⟨fun s => Aside.same s (s.escrow.setAdmin (o s)) s.events⟩

instance (o : State → Option Address) : Spares view fun s => s.setIpRegistry (o s) :=
  ⟨fun s => Aside.same s (s.escrow.setIpRegistry (o s)) s.events⟩

instance (k : State → ℕ) (o : State → Option AuctionRecord) :
    Spares view fun s => s.setAuction (k s) (o s) :=
  ⟨fun s => Aside.same s (s.escrow.setAuction (k s) (o s)) s.events⟩

instance (k : State → ℕ) (o : State → Option ℕ) :
    Spares view fun s => s.setActiveAuction (k s) (o s) :=
  ⟨fun s => Aside.same s (s.escrow.setActiveAuction (k s) (o s)) s.events⟩

instance (o : State → Option ℕ) : Spares view fun s => s.setNextAuctionId (o s) :=
  ⟨fun s => Aside.same s (s.escrow.setNextAuctionId (o s)) s.events⟩

instance (k : State → ℕ) (o : State → Option ℤ) :
    Spares view fun s => s.setSwapCollateral (k s) (o s) :=
  ⟨fun s => Aside.same s (s.escrow.setSwapCollateral (k s) (o s)) s.events⟩

instance (k : State → ℕ) (o : State → Option Bool) :
    Spares view fun s => s.setInsuranceClaimable (k s) (o s) :=
  ⟨fun s => Aside.same s (s.escrow.setInsuranceClaimable (k s) (o s)) s.events⟩

instance (k : State → Address) (o : State → Option ℤ) :
    Spares view fun s => s.setInsurancePool (k s) (o s) :=
  ⟨fun s => Aside.same s (s.escrow.setInsurancePool (k s) (o s)) s.events⟩

instance (k : State → ℕ) (o : State → Option ℤ) :
    Spares view fun s => s.setEscrowDeposit (k s) (o s) :=
  ⟨fun s => Aside.same s (s.escrow.setEscrowDeposit (k s) (o s)) s.events⟩

instance (k : State → ℕ) (o : State → Option RenegotiationOffer) :
    Spares view fun s => s.setSwapRenegotiations (k s) (o s) :=
  ⟨fun s => Aside.same s (s.escrow.setSwapRenegotiations (k s) (o s)) s.events⟩

instance (m : State → TokenTransfer) : Spares view fun s => s.transferred (m s) :=
  ⟨fun s => Aside.same s (s.escrow.pay [m s]) s.events⟩

instance (log : State → List Event) : Spares view fun s => s.published (log s) :=
  ⟨fun s => Aside.same s s.escrow (s.events ++ log s)⟩

variable {i : ℕ} {r : SwapRecord} {a : Address} {x : ℤ}

instance {topic : String} {payload : Payload} : Keeps view (publish topic payload) := by
  unfold publish; infer_instance

instance {t b : Address} {purpose : Purpose} : Keeps view (transfer t a b x purpose) := by
  unfold transfer; infer_instance

instance : Keeps view (saveSwap i r) := by unfold saveSwap; infer_instance

instance : Keeps view (removeActiveSwap i) := by unfold removeActiveSwap; infer_instance

instance {q : SwapStatus} : Keeps view (closeSwap i r q) := by unfold closeSwap; infer_instance

instance : Keeps view (payPrice i r) := by unfold payPrice; infer_instance

instance : Keeps view (lockCollateral i r) := by unfold lockCollateral; infer_instance

instance : Keeps view (depositCollateral i r) := by unfold depositCollateral; infer_instance

instance : Keeps view (depositCollateralOnce i r) := by
  unfold depositCollateralOnce; infer_instance

instance : Keeps view (collectPremium i r) := by unfold collectPremium; infer_instance

instance {purpose : Purpose} : Keeps view (payOut r a x purpose) := by
  unfold payOut; infer_instance

instance : Keeps view (refundPrice i r) := by unfold refundPrice; infer_instance

instance : Keeps view (payTreasury i r x) := by unfold payTreasury; infer_instance

instance : Keeps view (paySeller i r x) := by unfold paySeller; infer_instance

instance : Keeps view (payReferrer i r x) := by
  unfold payReferrer
  cases r.referrer <;> infer_instance

instance : Keeps view (forgetCollateral i) := by unfold forgetCollateral; infer_instance

instance {log : ℤ → List Event} : Keeps view (releaseCollateral i r a log) := by
  have hheld : ∀ held : Option ℤ, Keeps view (match held with
      | some collateral => do
          payOut r a collateral (.collateral i)
          forgetCollateral i
          Tx.store fun s => s.published (log collateral)
      | none => pure () : SwapTx Unit) := by
    intro held
    cases held <;> infer_instance
  unfold releaseCollateral
  infer_instance

instance {valid : Bool} : Keeps view (rejectInvalidKey i r valid) := by
  unfold rejectInvalidKey; infer_instance

end Aside

end AtomicIp.AtomicSwap
