import AtomicIp.Lib.Frame
import AtomicIp.Registry.Refine

/-!
The tables of the registry, and which of them a call writes. A view that does not look at
those tables shows the same before and after the call.
-/

set_option autoImplicit false

namespace AtomicIp.IpRegistry

open Tx

inductive Table where
  | admin | ledger | ownerIps | derived | ratings | renewals | disclosures | licenses | prices
  | grants | challenges | notary | delegations | disputes | stakes | reputations | arbitrations
  | categories | thresholds | metadata | compressions | encryptions | events
  deriving DecidableEq

def State.without (s : State) : Table → State
  | .admin => { s with admin := none }
  | .ledger =>
    { s with
      nextId := none
      ipRecord _ := none
      commitmentOwner _ := none
      encryptionKeyRotation _ := none }
  | .ownerIps => { s with ownerIps _ := none }
  | .derived =>
    { s with
      anonymousOwner _ := none
      ipVersions _ := none
      ipVersionChain _ := none
      ipCommitmentChecksum := none
      commitmentHashes := none
      shardIps _ := none
      ipAuditTrail _ := none
      compressedCommitment _ := none }
  | .ratings => { s with ipPowDifficulty _ := none }
  | .renewals => { s with renewalCount _ := none }
  | .disclosures => { s with partialDisclosure _ := none }
  | .licenses => { s with ipLicenses _ := none }
  | .prices => { s with suggestedPrice _ := none }
  | .grants => { s with ipAccessGrants _ := none }
  | .challenges => { s with ownershipChallenge _ := none, nextChallengeId := none }
  | .notary => { s with notaryPublicKey := none }
  | .delegations => { s with delegates _ := none, delegateDepth _ := none }
  | .disputes => { s with ipDisputes _ := none, nextDisputeId := none }
  | .stakes => { s with ipStake _ := none }
  | .reputations => { s with ownerReputation _ := none }
  | .arbitrations =>
    { s with
      arbitrationCase _ := none
      nextArbitrationId := none
      arbitratorPool := none }
  | .categories => { s with hierarchyNode _ := none, ownerCategories _ := none }
  | .thresholds => { s with thresholdConfig _ := none, thresholdSignatures _ := none }
  | .metadata => { s with batchMetadata _ := none }
  | .compressions => { s with compressionSelection _ := none }
  | .encryptions => { s with encryptedCommitment _ := none }
  | .events => { s with events := [] }

/-- The view shows nothing of the table. -/
abbrev Blind {ω : Type} (t : Table) (view : State → ω) : Prop := Ignores State.without t view

section Writes

variable {ω : Type} {view : State → ω}

instance [Blind .admin view] (o : State → Option Address) :
    Spares view fun s => s.setAdmin (o s) := Ignores.spares State.without .admin fun _ => rfl

instance [Blind .ledger view] (o : State → Option ℕ) :
    Spares view fun s => s.setNextId (o s) := Ignores.spares State.without .ledger fun _ => rfl

instance [Blind .derived view] (o : State → Option (BytesN 32)) :
    Spares view fun s => s.setIpCommitmentChecksum (o s) :=
  Ignores.spares State.without .derived fun _ => rfl

instance [Blind .challenges view] (o : State → Option ℕ) :
    Spares view fun s => s.setNextChallengeId (o s) :=
  Ignores.spares State.without .challenges fun _ => rfl

instance [Blind .notary view] (o : State → Option (BytesN 32)) :
    Spares view fun s => s.setNotaryPublicKey (o s) :=
  Ignores.spares State.without .notary fun _ => rfl

instance [Blind .derived view] (o : State → Option (List (BytesN 32))) :
    Spares view fun s => s.setCommitmentHashes (o s) :=
  Ignores.spares State.without .derived fun _ => rfl

instance [Blind .disputes view] (o : State → Option ℕ) :
    Spares view fun s => s.setNextDisputeId (o s) :=
  Ignores.spares State.without .disputes fun _ => rfl

instance [Blind .arbitrations view] (o : State → Option ℕ) :
    Spares view fun s => s.setNextArbitrationId (o s) :=
  Ignores.spares State.without .arbitrations fun _ => rfl

instance [Blind .arbitrations view] (o : State → Option (List Address)) :
    Spares view fun s => s.setArbitratorPool (o s) :=
  Ignores.spares State.without .arbitrations fun _ => rfl

instance [Blind .ledger view] (k : State → ℕ) (o : State → Option IpRecord) :
    Spares view fun s => s.setIpRecord (k s) (o s) :=
  Ignores.spares State.without .ledger fun _ => rfl

instance [Blind .ownerIps view] (k : State → Address) (o : State → Option (List ℕ)) :
    Spares view fun s => s.setOwnerIps (k s) (o s) :=
  Ignores.spares State.without .ownerIps fun _ => rfl

instance [Blind .ledger view] (k : State → BytesN 32) (o : State → Option Address) :
    Spares view fun s => s.setCommitmentOwner (k s) (o s) :=
  Ignores.spares State.without .ledger fun _ => rfl

instance [Blind .derived view] (k : State → BytesN 32) (o : State → Option (BytesN 32)) :
    Spares view fun s => s.setAnonymousOwner (k s) (o s) :=
  Ignores.spares State.without .derived fun _ => rfl

instance [Blind .disclosures view] (k : State → ℕ) (o : State → Option (BytesN 32)) :
    Spares view fun s => s.setPartialDisclosure (k s) (o s) :=
  Ignores.spares State.without .disclosures fun _ => rfl

instance [Blind .licenses view] (k : State → ℕ) (o : State → Option (List LicenseEntry)) :
    Spares view fun s => s.setIpLicenses (k s) (o s) :=
  Ignores.spares State.without .licenses fun _ => rfl

instance [Blind .derived view] (k : State → ℕ) (o : State → Option (List ℕ)) :
    Spares view fun s => s.setIpVersions (k s) (o s) :=
  Ignores.spares State.without .derived fun _ => rfl

instance [Blind .prices view] (k : State → ℕ) (o : State → Option ℤ) :
    Spares view fun s => s.setSuggestedPrice (k s) (o s) :=
  Ignores.spares State.without .prices fun _ => rfl

instance [Blind .grants view] (k : State → ℕ) (o : State → Option (List IpAccessGrant)) :
    Spares view fun s => s.setIpAccessGrants (k s) (o s) :=
  Ignores.spares State.without .grants fun _ => rfl

instance [Blind .derived view] (k : State → ℕ) (o : State → Option (List ℕ)) :
    Spares view fun s => s.setIpVersionChain (k s) (o s) :=
  Ignores.spares State.without .derived fun _ => rfl

instance [Blind .challenges view] (k : State → ℕ) (o : State → Option OwnershipChallenge) :
    Spares view fun s => s.setOwnershipChallenge (k s) (o s) :=
  Ignores.spares State.without .challenges fun _ => rfl

instance [Blind .ledger view] (k : State → ℕ) (o : State → Option (List (BytesN 32))) :
    Spares view fun s => s.setEncryptionKeyRotation (k s) (o s) :=
  Ignores.spares State.without .ledger fun _ => rfl

instance [Blind .ratings view] (k : State → ℕ) (o : State → Option ℕ) :
    Spares view fun s => s.setIpPowDifficulty (k s) (o s) :=
  Ignores.spares State.without .ratings fun _ => rfl

instance [Blind .derived view] (k : State → ℕ) (o : State → Option (List ℕ)) :
    Spares view fun s => s.setShardIps (k s) (o s) :=
  Ignores.spares State.without .derived fun _ => rfl

instance [Blind .derived view] (k : State → ℕ) (o : State → Option (List AuditEntry)) :
    Spares view fun s => s.setIpAuditTrail (k s) (o s) :=
  Ignores.spares State.without .derived fun _ => rfl

instance [Blind .renewals view] (k : State → ℕ) (o : State → Option ℕ) :
    Spares view fun s => s.setRenewalCount (k s) (o s) :=
  Ignores.spares State.without .renewals fun _ => rfl

instance [Blind .delegations view] (k : State → Address)
    (o : State → Option (List DelegationRecord)) :
    Spares view fun s => s.setDelegates (k s) (o s) :=
  Ignores.spares State.without .delegations fun _ => rfl

instance [Blind .delegations view] (k : State → Address) (o : State → Option ℕ) :
    Spares view fun s => s.setDelegateDepth (k s) (o s) :=
  Ignores.spares State.without .delegations fun _ => rfl

instance [Blind .disputes view] (k : State → ℕ) (o : State → Option DisputeRecord) :
    Spares view fun s => s.setIpDisputes (k s) (o s) :=
  Ignores.spares State.without .disputes fun _ => rfl

instance [Blind .stakes view] (k : State → ℕ) (o : State → Option StakeRecord) :
    Spares view fun s => s.setIpStake (k s) (o s) :=
  Ignores.spares State.without .stakes fun _ => rfl

instance [Blind .reputations view] (k : State → Address) (o : State → Option ReputationRecord) :
    Spares view fun s => s.setOwnerReputation (k s) (o s) :=
  Ignores.spares State.without .reputations fun _ => rfl

instance [Blind .arbitrations view] (k : State → ℕ) (o : State → Option ArbitrationRecord) :
    Spares view fun s => s.setArbitrationCase (k s) (o s) :=
  Ignores.spares State.without .arbitrations fun _ => rfl

instance [Blind .derived view] (k : State → ℕ) (o : State → Option (BytesN 16)) :
    Spares view fun s => s.setCompressedCommitment (k s) (o s) :=
  Ignores.spares State.without .derived fun _ => rfl

instance [Blind .categories view] (k : State → Address × BytesN 32)
    (o : State → Option (List ℕ)) :
    Spares view fun s => s.setHierarchyNode (k s) (o s) :=
  Ignores.spares State.without .categories fun _ => rfl

instance [Blind .categories view] (k : State → Address) (o : State → Option (List (BytesN 32))) :
    Spares view fun s => s.setOwnerCategories (k s) (o s) :=
  Ignores.spares State.without .categories fun _ => rfl

instance [Blind .thresholds view] (k : State → ℕ) (o : State → Option ThresholdConfig) :
    Spares view fun s => s.setThresholdConfig (k s) (o s) :=
  Ignores.spares State.without .thresholds fun _ => rfl

instance [Blind .thresholds view] (k : State → ℕ) (o : State → Option (List ThresholdSignature)) :
    Spares view fun s => s.setThresholdSignatures (k s) (o s) :=
  Ignores.spares State.without .thresholds fun _ => rfl

instance [Blind .metadata view] (k : State → ℕ) (o : State → Option BatchMetadata) :
    Spares view fun s => s.setBatchMetadata (k s) (o s) :=
  Ignores.spares State.without .metadata fun _ => rfl

instance [Blind .compressions view] (k : State → ℕ) (o : State → Option CompressionSelection) :
    Spares view fun s => s.setCompressionSelection (k s) (o s) :=
  Ignores.spares State.without .compressions fun _ => rfl

instance [Blind .encryptions view] (k : State → ℕ)
    (o : State → Option EncryptedCommitmentRecord) :
    Spares view fun s => s.setEncryptedCommitment (k s) (o s) :=
  Ignores.spares State.without .encryptions fun _ => rfl

instance [Blind .events view] (event : State → Event) :
    Spares view fun s => s.published (event s) := Ignores.spares State.without .events fun _ => rfl

end Writes

section Programs

variable {ω α : Type} {view : State → ω} {env : Env} {ipId id budget current : ℕ}
  {owner a b : Address} {hash : BytesN 32} {r : IpRecord} {visited : List ℕ}

instance (p : Prop) [Decidable p] (e : ContractError) :
    Keeps view (require p e : RegistryTx Unit) :=
  inferInstanceAs (Keeps view (Tx.ensure p _))

instance (o : Option α) (e : ContractError) : Keeps view (orFail o e : RegistryTx α) :=
  inferInstanceAs (Keeps view (Tx.orAbort o _))

instance (auths : List Address) (a : Address) :
    Keeps view (requireAuth auths a : RegistryTx Unit) :=
  inferInstanceAs (Keeps view (Tx.ensure (a ∈ auths) _))

instance (p : Prop) [Decidable p] (x : α) : Keeps view (checked p x : RegistryTx α) :=
  inferInstanceAs (Keeps view (if p then Pure.pure x else Tx.abort _))

instance (x : ℕ) : Keeps view (u64 x : RegistryTx ℕ) := inferInstanceAs (Keeps view (checked _ x))

instance (x : ℕ) : Keeps view (u32 x : RegistryTx ℕ) := inferInstanceAs (Keeps view (checked _ x))

instance [Blind .events view] (topic : String) (payload : Payload) :
    Keeps view (publish topic payload) := by unfold publish; infer_instance

section Guards

instance : Keeps view (requireIpExists ipId) := by unfold requireIpExists; infer_instance

instance : Keeps view (requireNonZeroCommitment hash) := by
  unfold requireNonZeroCommitment; infer_instance

instance : Keeps view (requireUniqueCommitment hash) := by
  unfold requireUniqueCommitment; infer_instance

instance : Keeps view (requireNotRevoked r) := by unfold requireNotRevoked; infer_instance

instance {bytes : Bytes} {difficulty : ℕ} : Keeps view (meetsPow bytes difficulty) where
  same s met s' h := by
    rw [meetsPow_eq] at h
    cases h
    rfl

instance {difficulty : ℕ} : Keeps view (requirePow hash difficulty) := by
  unfold requirePow; infer_instance

instance {e : ContractError} : Keeps view (requireStoredAdmin env e) := by
  unfold requireStoredAdmin; infer_instance

instance : Keeps view nextIpId := by unfold nextIpId; infer_instance

instance : Keeps view (requireAcyclic budget visited current) := by
  induction budget generalizing visited current with
  | zero => unfold requireAcyclic; infer_instance
  | succ budget ih =>
    refine ⟨fun s u s' h => ?_⟩
    simp only [requireAcyclic, Tx.bind_ok, require_ok, Tx.load_ok] at h
    obtain ⟨_, _, ⟨-, rfl⟩, record, _, ⟨-, rfl⟩, h⟩ := h
    cases hparent : record.bind IpRecord.parentIpId with
    | none =>
      simp only [hparent, Tx.pure_ok] at h
      rw [h.2]
    | some parent =>
      simp only [hparent] at h
      exact ih.same _ _ _ h

instance : Keeps view (findRoot budget current) := by
  induction budget generalizing current with
  | zero => unfold findRoot; infer_instance
  | succ budget ih =>
    refine ⟨fun s u s' h => ?_⟩
    simp only [findRoot, Tx.bind_ok, Tx.load_ok] at h
    obtain ⟨record, _, ⟨-, rfl⟩, h⟩ := h
    cases hparent : record.bind IpRecord.parentIpId with
    | none =>
      simp only [hparent, Tx.pure_ok] at h
      rw [h.2]
    | some parent =>
      simp only [hparent] at h
      exact ih.same _ _ _ h

instance : Keeps view (requireChallenge id) := by unfold requireChallenge; infer_instance

instance : Keeps view (requireDispute id) := by unfold requireDispute; infer_instance

instance : Keeps view (requireStake id) := by unfold requireStake; infer_instance

instance : Keeps view (reputationOf owner) := by unfold reputationOf; infer_instance

instance : Keeps view (requireOpenCase id) := by unfold requireOpenCase; infer_instance

instance : Keeps view (delegationDepth a b) := by unfold delegationDepth; infer_instance

end Guards

section Helpers

instance [Blind .admin view] : Keeps view initAdmin := by unfold initAdmin; infer_instance

instance [Blind .ledger view] : Keeps view (advanceId id) := by unfold advanceId; infer_instance

instance [Blind .ledger view] : Keeps view (saveIp id r) := by unfold saveIp; infer_instance

instance [Blind .ledger view] : Keeps view (indexCommitment hash owner) := by
  unfold indexCommitment; infer_instance

instance [Blind .ownerIps view] : Keeps view (appendOwnerIp owner id) := by
  unfold appendOwnerIp; infer_instance

instance [Blind .ownerIps view] : Keeps view (removeOwnerIp owner id) := by
  unfold removeOwnerIp; infer_instance

variable [Blind .derived view]

instance {action : String} : Keeps view (appendAuditEntry env id action a) := by
  unfold appendAuditEntry; infer_instance

instance : Keeps view (assignToShard id hash) := by unfold assignToShard; infer_instance

instance : Keeps view (storeCompressedCommitment id hash) := by
  unfold storeCompressedCommitment; infer_instance

instance : Keeps view (updateCommitmentChecksum env) := by
  refine ⟨fun s u s' h => ?_⟩
  simp only [updateCommitmentChecksum, Tx.bind_ok, nextIpId, Tx.load_ok] at h
  obtain ⟨next, s₁, ⟨-, rfl⟩, h⟩ := h
  rcases Tx.onlyIf_ok.mp h with ⟨-, h⟩ | ⟨-, rfl⟩
  · simp only [Tx.load_bind_ok] at h
    cases hlast : s₁.ipRecord (next - 1) with
    | none =>
      simp only [hlast, Tx.pure_ok] at h
      rw [h.2]
    | some record =>
      simp only [hlast] at h
      exact Keeps.eq view h
  · rfl

instance {parent : ℕ} : Keeps view (appendVersion parent id) := by
  unfold appendVersion; infer_instance

instance {root : ℕ} : Keeps view (appendToChain root id) := by
  unfold appendToChain; infer_instance

end Helpers

section Commitments

variable {hashes : List (BytesN 32)} {blindedOwner : BytesN 32} {difficulty parent : ℕ}
  {secret blindingFactor : BytesN 32}

instance [Blind .admin view] [Blind .ledger view] [Blind .ownerIps view] [Blind .derived view]
    [Blind .ratings view] [Blind .events view] :
    Keeps view (commitIp env owner hash difficulty) := by
  unfold commitIp
  repeat refine Keeps.step fun _ => ?_
  infer_instance

instance [Blind .ledger view] [Blind .ownerIps view] [Blind .events view] :
    Keeps view (commitOne env owner hash) := by
  unfold commitOne
  repeat refine Keeps.step fun _ => ?_
  infer_instance

instance [Blind .admin view] [Blind .ledger view] [Blind .ownerIps view] [Blind .derived view]
    [Blind .events view] : Keeps view (batchCommitIp env owner hashes) := by
  unfold batchCommitIp; infer_instance

instance [Blind .ledger view] [Blind .derived view] [Blind .events view] :
    Keeps view (commitOneAnonymous env blindedOwner hash) := by
  unfold commitOneAnonymous
  repeat refine Keeps.step fun _ => ?_
  infer_instance

instance [Blind .admin view] [Blind .ledger view] [Blind .derived view] [Blind .events view] :
    Keeps view (batchCommitIpAnonymous env blindedOwner hashes) := by
  unfold batchCommitIpAnonymous; infer_instance

variable [Blind .ledger view]

instance [Blind .ownerIps view] [Blind .derived view] [Blind .events view] :
    Keeps view (commitIpDelegated env owner hash difficulty) := by
  unfold commitIpDelegated
  repeat refine Keeps.step fun _ => ?_
  infer_instance

instance [Blind .ownerIps view] [Blind .derived view] [Blind .events view] :
    Keeps view (createIpVersion env parent hash) := by
  unfold createIpVersion
  repeat refine Keeps.step fun _ => ?_
  infer_instance

instance [Blind .ownerIps view] [Blind .derived view] [Blind .events view] :
    Keeps view (commitIpVersion env owner hash parent) := by
  unfold commitIpVersion; infer_instance

instance [Blind .ownerIps view] [Blind .derived view] [Blind .events view] :
    Keeps view (transferIp env id owner) := by
  unfold transferIp
  repeat refine Keeps.step fun _ => ?_
  infer_instance

instance [Blind .ownerIps view] [Blind .derived view] [Blind .events view] :
    Keeps view (transferIpOwnership env id owner) := by
  unfold transferIpOwnership; infer_instance

instance [Blind .derived view] [Blind .events view] : Keeps view (revokeIp env id) := by
  unfold revokeIp; infer_instance

instance : Keeps view (adoptCoOwner id r a) := by unfold adoptCoOwner; infer_instance

instance [Blind .derived view] [Blind .events view] :
    Keeps view (mergeDuplicateCommitment env id ipId) := by
  unfold mergeDuplicateCommitment
  repeat refine Keeps.step fun _ => ?_
  infer_instance

instance [Blind .events view] :
    Keeps view (rotateCommitmentKey env id hash secret blindingFactor) := by
  unfold rotateCommitmentKey
  repeat refine Keeps.step fun _ => ?_
  infer_instance

end Commitments

section SideData

variable {threshold level : ℕ} {signers : List Address} {batchId termsHash : BytesN 32}
  {bytes : Bytes} {algorithm : CompressionAlgo} {price : ℤ} {keyHint blindingFactor : BytesN 32}

instance [Blind .thresholds view] :
    Keeps view (requireThresholdSignatures id threshold signers) := by
  unfold requireThresholdSignatures; infer_instance

instance [Blind .thresholds view] : Keeps view (addThresholdSignature env id a hash) := by
  unfold addThresholdSignature; infer_instance

instance [Blind .metadata view] : Keeps view (setBatchMetadata env id batchId bytes) := by
  unfold setBatchMetadata; infer_instance

instance [Blind .compressions view] : Keeps view (setCommitmentCompression id algorithm) := by
  unfold setCommitmentCompression; infer_instance

instance [Blind .encryptions view] : Keeps view (encryptCommitment env id bytes keyHint) := by
  unfold encryptCommitment; infer_instance

instance [Blind .disclosures view] [Blind .events view] :
    Keeps view (revealPartial env id hash blindingFactor) := by
  unfold revealPartial; infer_instance

instance [Blind .licenses view] : Keeps view (grantLicense env id a termsHash) := by
  unfold grantLicense; infer_instance

instance [Blind .licenses view] : Keeps view (revokeLicense env id a) := by
  unfold revokeLicense; infer_instance

instance [Blind .prices view] : Keeps view (setIpSuggestedPrice env id price) := by
  unfold setIpSuggestedPrice; infer_instance

instance [Blind .ledger view] [Blind .events view] : Keeps view (addCoOwner env id a) := by
  unfold addCoOwner; infer_instance

instance [Blind .ledger view] [Blind .events view] : Keeps view (removeCoOwner env id a) := by
  unfold removeCoOwner; infer_instance

instance [Blind .grants view] [Blind .events view] : Keeps view (grantIpAccess env id a level) := by
  unfold grantIpAccess; infer_instance

instance [Blind .grants view] [Blind .events view] : Keeps view (revokeIpAccess env id a) := by
  unfold revokeIpAccess; infer_instance

instance [Blind .notary view] : Keeps view (setNotaryPublicKey env hash) := by
  unfold setNotaryPublicKey; infer_instance

instance [Blind .ledger view] [Blind .events view] :
    Keeps view (notarizeIpTimestamp env id bytes) := by
  unfold notarizeIpTimestamp; infer_instance

instance [Blind .events view] : Keeps view (checkExpirationWarning env id threshold) := by
  unfold checkExpirationWarning; infer_instance

instance [Blind .renewals view] [Blind .events view] : Keeps view (renewIp env id) := by
  unfold renewIp
  repeat refine Keeps.step fun _ => ?_
  infer_instance

instance [Blind .categories view] [Blind .events view] :
    Keeps view (assignIpToCategory env id hash) := by unfold assignIpToCategory; infer_instance

instance [Blind .challenges view] : Keeps view (issueOwnershipChallenge env id a hash) := by
  unfold issueOwnershipChallenge; infer_instance

instance [Blind .challenges view] : Keeps view (respondToOwnershipChallenge env id hash) := by
  unfold respondToOwnershipChallenge; infer_instance

instance [Blind .challenges view] : Keeps view (verifyOwnershipChallenge env id) := by
  refine ⟨fun s u s' h => ?_⟩
  simp only [verifyOwnershipChallenge, Tx.bind_ok, requireChallenge_ok] at h
  obtain ⟨challenge, s₁, ⟨-, rfl⟩, h⟩ := h
  cases hresponse : challenge.responseHash with
  | none =>
    simp only [hresponse, Tx.pure_ok] at h
    rw [h.2]
  | some response =>
    simp only [hresponse] at h
    exact Keeps.eq view h

end SideData

section Disputes

variable {amount : ℤ} {forOwner : Bool}

instance [Blind .disputes view] [Blind .events view] :
    Keeps view (initiateDispute env id a hash) := by
  unfold initiateDispute
  repeat refine Keeps.step fun _ => ?_
  infer_instance

instance [Blind .disputes view] [Blind .events view] :
    Keeps view (submitDisputeEvidence env id a hash) := by
  unfold submitDisputeEvidence; infer_instance

instance [Blind .disputes view] [Blind .events view] : Keeps view (resolveDispute env id a) := by
  unfold resolveDispute; infer_instance

instance [Blind .stakes view] [Blind .events view] :
    Keeps view (stakeCommitment env id amount) := by
  unfold stakeCommitment; infer_instance

instance [Blind .stakes view] [Blind .reputations view] [Blind .events view] :
    Keeps view (slashStake env id) := by
  unfold slashStake
  repeat refine Keeps.step fun _ => ?_
  infer_instance

instance [Blind .stakes view] [Blind .events view] : Keeps view (unstake env id) := by
  unfold unstake; infer_instance

instance [Blind .reputations view] : Keeps view (updateReputation env owner amount) := by
  unfold updateReputation; infer_instance

variable [Blind .arbitrations view]

instance [Blind .events view] : Keeps view (nominateArbitrator env a) := by
  unfold nominateArbitrator; infer_instance

instance : Keeps view (openArbitration env id) := by
  unfold openArbitration
  repeat refine Keeps.step fun _ => ?_
  infer_instance

instance [Blind .events view] : Keeps view (voteOnDispute env id a forOwner) := by
  unfold voteOnDispute
  repeat refine Keeps.step fun _ => ?_
  infer_instance

instance [Blind .disputes view] [Blind .events view] : Keeps view (finalizeArbitration env id) := by
  unfold finalizeArbitration; infer_instance

end Disputes

instance [Blind .delegations view] [Blind .events view] :
    Keeps view (delegateCommitmentAuthority env owner a b) := by
  unfold delegateCommitmentAuthority; infer_instance

instance [Blind .delegations view] [Blind .events view] :
    Keeps view (revokeDelegation env owner a) := by unfold revokeDelegation; infer_instance

instance [Blind .events view] : Keeps view (upgrade env hash) := by unfold upgrade; infer_instance

end Programs

def Call.writes : Call → List Table
  | .commitIp .. => [.admin, .ledger, .ownerIps, .derived, .ratings, .events]
  | .batchCommitIp .. => [.admin, .ledger, .ownerIps, .derived, .events]
  | .batchCommitIpAnonymous .. => [.admin, .ledger, .derived, .events]
  | .commitIpDelegated .. | .createIpVersion .. | .commitIpVersion .. | .transferIp ..
  | .transferIpOwnership .. => [.ledger, .ownerIps, .derived, .events]
  | .revokeIp .. | .mergeDuplicateCommitment .. => [.ledger, .derived, .events]
  | .rotateCommitmentKey .. | .addCoOwner .. | .removeCoOwner .. | .notarizeIpTimestamp .. =>
      [.ledger, .events]
  | .setNotaryPublicKey .. => [.notary]
  | .requireThresholdSignatures .. | .addThresholdSignature .. => [.thresholds]
  | .setBatchMetadata .. => [.metadata]
  | .setCommitmentCompression .. => [.compressions]
  | .encryptCommitment .. => [.encryptions]
  | .revealPartial .. => [.disclosures, .events]
  | .grantLicense .. | .revokeLicense .. => [.licenses]
  | .setIpSuggestedPrice .. => [.prices]
  | .grantIpAccess .. | .revokeIpAccess .. => [.grants, .events]
  | .checkExpirationWarning .. | .upgrade .. => [.events]
  | .renewIp .. => [.renewals, .events]
  | .assignIpToCategory .. => [.categories, .events]
  | .issueOwnershipChallenge .. | .respondToOwnershipChallenge ..
  | .verifyOwnershipChallenge .. => [.challenges]
  | .initiateDispute .. | .submitDisputeEvidence .. | .resolveDispute .. => [.disputes, .events]
  | .stakeCommitment .. | .unstake .. => [.stakes, .events]
  | .slashStake .. => [.stakes, .reputations, .events]
  | .updateReputation .. => [.reputations]
  | .nominateArbitrator .. | .voteOnDispute .. => [.arbitrations, .events]
  | .openArbitration .. => [.arbitrations]
  | .finalizeArbitration .. => [.arbitrations, .disputes, .events]
  | .delegateCommitmentAuthority .. | .revokeDelegation .. => [.delegations, .events]

/-- A view that does not look at the tables a call writes shows the same after it. -/
theorem exec_frame {ω : Type} (view : State → ω) {env : Env} {s s' : State} {call : Call} {u : Unit}
    (h : exec env call s = .ok (u, s')) (hblind : ∀ t ∈ call.writes, Blind t view) :
    view s' = view s := by
  cases call <;> simp only [Call.writes, List.forall_mem_cons, List.not_mem_nil, false_imp_iff,
    implies_true, and_true] at hblind <;> unfold exec at h <;>
    (repeat obtain ⟨_, hblind⟩ := hblind) <;> exact Keeps.eq view h

end AtomicIp.IpRegistry
