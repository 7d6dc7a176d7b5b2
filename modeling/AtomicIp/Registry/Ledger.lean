import AtomicIp.Lib.Run
import AtomicIp.Registry.Commitments

set_option autoImplicit false

namespace AtomicIp.IpRegistry

open Function

structure Ledger where
  ipRecord : ℕ → Option IpRecord
  nextId : Option ℕ
  commitmentOwner : BytesN 32 → Option Address
  encryptionKeyRotation : ℕ → Option (List (BytesN 32))

def State.ledger (s : State) : Ledger where
  ipRecord := s.ipRecord
  nextId := s.nextId
  commitmentOwner := s.commitmentOwner
  encryptionKeyRotation := s.encryptionKeyRotation

namespace Ledger

variable (c : Ledger)

def setIpRecord (key : ℕ) (entry : Option IpRecord) : Ledger :=
  { c with ipRecord := update c.ipRecord key entry }

def setNextId (entry : Option ℕ) : Ledger := { c with nextId := entry }

def setCommitmentOwner (key : BytesN 32) (entry : Option Address) : Ledger :=
  { c with commitmentOwner := update c.commitmentOwner key entry }

def setEncryptionKeyRotation (key : ℕ) (entry : Option (List (BytesN 32))) : Ledger :=
  { c with encryptionKeyRotation := update c.encryptionKeyRotation key entry }

def count : ℕ := c.nextId.getD 1

def enroll (record : IpRecord) : Ledger :=
  ((c.setIpRecord c.count (some record)).setCommitmentOwner record.commitmentHash
    (some record.owner)).setNextId (some (c.count + 1))

/-- Give a record a new hash; the old one goes into its history and out of the index. -/
def rotate (ipId : ℕ) (record : IpRecord) (commitmentHash : BytesN 32) : Ledger :=
  (((c.setEncryptionKeyRotation ipId
    (some ((c.encryptionKeyRotation ipId).getD [] ++ [record.commitmentHash]))).setCommitmentOwner
      record.commitmentHash none).setCommitmentOwner commitmentHash
      (some record.owner)).setIpRecord ipId (some (record.rehashed commitmentHash))

def transfer (ipId : ℕ) (record : IpRecord) (owner : Address) : Ledger :=
  (c.setCommitmentOwner record.commitmentHash (some owner)).setIpRecord ipId
    (some (record.ownedBy owner))

def rotatedAway (ipId : ℕ) : List (BytesN 32) := (c.encryptionKeyRotation ipId).getD []

end Ledger

section Projection

/-! Which entries the ledger sees, and which writes it does not notice. -/

namespace State

variable (s : State)

@[simp] theorem ipRecord_ledger : s.ipRecord = s.ledger.ipRecord := rfl

@[simp] theorem nextId_ledger : s.nextId = s.ledger.nextId := rfl

@[simp] theorem commitmentOwner_ledger : s.commitmentOwner = s.ledger.commitmentOwner := rfl

@[simp] theorem encryptionKeyRotation_ledger :
    s.encryptionKeyRotation = s.ledger.encryptionKeyRotation := rfl

@[simp] theorem ledger_setIpRecord (key : ℕ) (entry : Option IpRecord) :
    (s.setIpRecord key entry).ledger = s.ledger.setIpRecord key entry := rfl

@[simp] theorem ledger_setNextId (entry : Option ℕ) :
    (s.setNextId entry).ledger = s.ledger.setNextId entry := rfl

@[simp] theorem ledger_setCommitmentOwner (key : BytesN 32) (entry : Option Address) :
    (s.setCommitmentOwner key entry).ledger = s.ledger.setCommitmentOwner key entry := rfl

@[simp] theorem ledger_setEncryptionKeyRotation (key : ℕ) (entry : Option (List (BytesN 32))) :
    (s.setEncryptionKeyRotation key entry).ledger =
      s.ledger.setEncryptionKeyRotation key entry := rfl

@[simp] theorem ledger_setAdmin (entry : Option Address) :
    (s.setAdmin entry).ledger = s.ledger := rfl

@[simp] theorem ledger_setOwnerIps (key : Address) (entry : Option (List ℕ)) :
    (s.setOwnerIps key entry).ledger = s.ledger := rfl

@[simp] theorem ledger_setAnonymousOwner (key : BytesN 32) (entry : Option (BytesN 32)) :
    (s.setAnonymousOwner key entry).ledger = s.ledger := rfl

@[simp] theorem ledger_setPartialDisclosure (key : ℕ) (entry : Option (BytesN 32)) :
    (s.setPartialDisclosure key entry).ledger = s.ledger := rfl

@[simp] theorem ledger_setIpLicenses (key : ℕ) (entry : Option (List LicenseEntry)) :
    (s.setIpLicenses key entry).ledger = s.ledger := rfl

@[simp] theorem ledger_setIpVersions (key : ℕ) (entry : Option (List ℕ)) :
    (s.setIpVersions key entry).ledger = s.ledger := rfl

@[simp] theorem ledger_setSuggestedPrice (key : ℕ) (entry : Option ℤ) :
    (s.setSuggestedPrice key entry).ledger = s.ledger := rfl

@[simp] theorem ledger_setIpCommitmentChecksum (entry : Option (BytesN 32)) :
    (s.setIpCommitmentChecksum entry).ledger = s.ledger := rfl

@[simp] theorem ledger_setIpAccessGrants (key : ℕ) (entry : Option (List IpAccessGrant)) :
    (s.setIpAccessGrants key entry).ledger = s.ledger := rfl

@[simp] theorem ledger_setIpVersionChain (key : ℕ) (entry : Option (List ℕ)) :
    (s.setIpVersionChain key entry).ledger = s.ledger := rfl

@[simp] theorem ledger_setOwnershipChallenge (key : ℕ) (entry : Option OwnershipChallenge) :
    (s.setOwnershipChallenge key entry).ledger = s.ledger := rfl

@[simp] theorem ledger_setNextChallengeId (entry : Option ℕ) :
    (s.setNextChallengeId entry).ledger = s.ledger := rfl

@[simp] theorem ledger_setNotaryPublicKey (entry : Option (BytesN 32)) :
    (s.setNotaryPublicKey entry).ledger = s.ledger := rfl

@[simp] theorem ledger_setCommitmentHashes (entry : Option (List (BytesN 32))) :
    (s.setCommitmentHashes entry).ledger = s.ledger := rfl

@[simp] theorem ledger_setIpPowDifficulty (key : ℕ) (entry : Option ℕ) :
    (s.setIpPowDifficulty key entry).ledger = s.ledger := rfl

@[simp] theorem ledger_setShardIps (key : ℕ) (entry : Option (List ℕ)) :
    (s.setShardIps key entry).ledger = s.ledger := rfl

@[simp] theorem ledger_setIpAuditTrail (key : ℕ) (entry : Option (List AuditEntry)) :
    (s.setIpAuditTrail key entry).ledger = s.ledger := rfl

@[simp] theorem ledger_setRenewalCount (key : ℕ) (entry : Option ℕ) :
    (s.setRenewalCount key entry).ledger = s.ledger := rfl

@[simp] theorem ledger_setDelegates (key : Address) (entry : Option (List DelegationRecord)) :
    (s.setDelegates key entry).ledger = s.ledger := rfl

@[simp] theorem ledger_setDelegateDepth (key : Address) (entry : Option ℕ) :
    (s.setDelegateDepth key entry).ledger = s.ledger := rfl

@[simp] theorem ledger_setIpDisputes (key : ℕ) (entry : Option DisputeRecord) :
    (s.setIpDisputes key entry).ledger = s.ledger := rfl

@[simp] theorem ledger_setNextDisputeId (entry : Option ℕ) :
    (s.setNextDisputeId entry).ledger = s.ledger := rfl

@[simp] theorem ledger_setIpStake (key : ℕ) (entry : Option StakeRecord) :
    (s.setIpStake key entry).ledger = s.ledger := rfl

@[simp] theorem ledger_setOwnerReputation (key : Address) (entry : Option ReputationRecord) :
    (s.setOwnerReputation key entry).ledger = s.ledger := rfl

@[simp] theorem ledger_setArbitrationCase (key : ℕ) (entry : Option ArbitrationRecord) :
    (s.setArbitrationCase key entry).ledger = s.ledger := rfl

@[simp] theorem ledger_setNextArbitrationId (entry : Option ℕ) :
    (s.setNextArbitrationId entry).ledger = s.ledger := rfl

@[simp] theorem ledger_setArbitratorPool (entry : Option (List Address)) :
    (s.setArbitratorPool entry).ledger = s.ledger := rfl

@[simp] theorem ledger_setCompressedCommitment (key : ℕ) (entry : Option (BytesN 16)) :
    (s.setCompressedCommitment key entry).ledger = s.ledger := rfl

@[simp] theorem ledger_setHierarchyNode (key : Address × BytesN 32) (entry : Option (List ℕ)) :
    (s.setHierarchyNode key entry).ledger = s.ledger := rfl

@[simp] theorem ledger_setOwnerCategories (key : Address) (entry : Option (List (BytesN 32))) :
    (s.setOwnerCategories key entry).ledger = s.ledger := rfl

@[simp] theorem ledger_setThresholdConfig (key : ℕ) (entry : Option ThresholdConfig) :
    (s.setThresholdConfig key entry).ledger = s.ledger := rfl

@[simp] theorem ledger_setThresholdSignatures (key : ℕ) (entry : Option (List ThresholdSignature)) :
    (s.setThresholdSignatures key entry).ledger = s.ledger := rfl

@[simp] theorem ledger_setBatchMetadata (key : ℕ) (entry : Option BatchMetadata) :
    (s.setBatchMetadata key entry).ledger = s.ledger := rfl

@[simp] theorem ledger_setCompressionSelection (key : ℕ) (entry : Option CompressionSelection) :
    (s.setCompressionSelection key entry).ledger = s.ledger := rfl

@[simp] theorem ledger_setEncryptedCommitment (key : ℕ) (entry : Option EncryptedCommitmentRecord) :
    (s.setEncryptedCommitment key entry).ledger = s.ledger := rfl

@[simp] theorem ledger_published (event : Event) : (s.published event).ledger = s.ledger := rfl

end State

end Projection

inductive Move where
  | registered (record : IpRecord)
  | rotated (ipId : ℕ) (commitmentHash : BytesN 32)
  | transferred (ipId : ℕ) (owner : Address)
  | revised (ipId : ℕ)

structure Revises (record record' : IpRecord) : Prop where
  ipId : record'.ipId = record.ipId
  owner : record'.owner = record.owner
  commitmentHash : record'.commitmentHash = record.commitmentHash
  timestamp : record'.timestamp = record.timestamp
  parentIpId : record'.parentIpId = record.parentIpId
  revoked : record.revoked = true → record'.revoked = true

inductive Step (env : Env) : Ledger → Move → Ledger → Prop where
  | registered {c : Ledger} {owner : Address} {commitmentHash : BytesN 32} {parent : Option ℕ}
      (hzero : commitmentHash ≠ .zero 32) (hfree : c.commitmentOwner commitmentHash = none)
      (hauth : owner ∈ env.auths ∨ owner = currentContractAddress ∧ parent = none)
      (hparent : ∀ p, parent = some p → ∃ r, c.ipRecord p = some r ∧ r.owner = owner) :
      Step env c (.registered (newRecord c.count owner commitmentHash env.timestamp parent))
        (c.enroll (newRecord c.count owner commitmentHash env.timestamp parent))
  | rotated {c : Ledger} {ipId : ℕ} {r : IpRecord} {commitmentHash : BytesN 32}
      (hr : c.ipRecord ipId = some r) (hauth : r.owner ∈ env.auths)
      (hlive : r.revoked = false)
      (hopens : ∃ secret blindingFactor, commitmentOf env secret blindingFactor = r.commitmentHash)
      (hzero : commitmentHash ≠ .zero 32) (hfree : c.commitmentOwner commitmentHash = none) :
      Step env c (.rotated ipId commitmentHash) (c.rotate ipId r commitmentHash)
  | transferred {c : Ledger} {ipId : ℕ} {r : IpRecord} {owner : Address}
      (hr : c.ipRecord ipId = some r) (hauth : r.owner ∈ env.auths) :
      Step env c (.transferred ipId owner) (c.transfer ipId r owner)
  | revised {c : Ledger} {ipId : ℕ} {r : IpRecord} (r' : IpRecord)
      (hr : c.ipRecord ipId = some r) (hrevises : Revises r r') :
      Step env c (.revised ipId) (c.setIpRecord ipId (some r'))

end AtomicIp.IpRegistry
