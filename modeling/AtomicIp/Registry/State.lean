import AtomicIp.Registry.Types
import Mathlib.Logic.Function.Basic

/-!
The storage of the registry, one field for each of its keys. Everything is persistent; the
last five keys are used by the code and missing from its `DataKey`.
-/

set_option autoImplicit false

namespace AtomicIp.IpRegistry

open Function

structure State where
  admin : Option Address
  nextId : Option ℕ
  ipRecord : ℕ → Option IpRecord
  ownerIps : Address → Option (List ℕ)
  commitmentOwner : BytesN 32 → Option Address
  anonymousOwner : BytesN 32 → Option (BytesN 32)
  partialDisclosure : ℕ → Option (BytesN 32)
  ipLicenses : ℕ → Option (List LicenseEntry)
  powDifficulty : Option ℕ
  ipVersions : ℕ → Option (List ℕ)
  suggestedPrice : ℕ → Option ℤ
  ipCommitmentChecksum : Option (BytesN 32)
  ipAccessGrants : ℕ → Option (List IpAccessGrant)
  ipVersionChain : ℕ → Option (List ℕ)
  ownershipChallenge : ℕ → Option OwnershipChallenge
  nextChallengeId : Option ℕ
  encryptionKeyRotation : ℕ → Option (List (BytesN 32))
  notaryPublicKey : Option (BytesN 32)
  commitmentHashes : Option (List (BytesN 32))
  ipPowDifficulty : ℕ → Option ℕ
  shardIps : ℕ → Option (List ℕ)
  ipAuditTrail : ℕ → Option (List AuditEntry)
  renewalCount : ℕ → Option ℕ
  delegates : Address → Option (List DelegationRecord)
  delegateDepth : Address → Option ℕ
  ipDisputes : ℕ → Option DisputeRecord
  nextDisputeId : Option ℕ
  ipStake : ℕ → Option StakeRecord
  ownerReputation : Address → Option ReputationRecord
  arbitrationCase : ℕ → Option ArbitrationRecord
  nextArbitrationId : Option ℕ
  arbitratorPool : Option (List Address)
  compressedCommitment : ℕ → Option (BytesN 16)
  hierarchyNode : Address × BytesN 32 → Option (List ℕ)
  ownerCategories : Address → Option (List (BytesN 32))
  thresholdConfig : ℕ → Option ThresholdConfig
  thresholdSignatures : ℕ → Option (List ThresholdSignature)
  batchMetadata : ℕ → Option BatchMetadata
  compressionSelection : ℕ → Option CompressionSelection
  encryptedCommitment : ℕ → Option EncryptedCommitmentRecord
  events : List Event

def State.empty : State where
  admin := none
  nextId := none
  ipRecord _ := none
  ownerIps _ := none
  commitmentOwner _ := none
  anonymousOwner _ := none
  partialDisclosure _ := none
  ipLicenses _ := none
  powDifficulty := none
  ipVersions _ := none
  suggestedPrice _ := none
  ipCommitmentChecksum := none
  ipAccessGrants _ := none
  ipVersionChain _ := none
  ownershipChallenge _ := none
  nextChallengeId := none
  encryptionKeyRotation _ := none
  notaryPublicKey := none
  commitmentHashes := none
  ipPowDifficulty _ := none
  shardIps _ := none
  ipAuditTrail _ := none
  renewalCount _ := none
  delegates _ := none
  delegateDepth _ := none
  ipDisputes _ := none
  nextDisputeId := none
  ipStake _ := none
  ownerReputation _ := none
  arbitrationCase _ := none
  nextArbitrationId := none
  arbitratorPool := none
  compressedCommitment _ := none
  hierarchyNode _ := none
  ownerCategories _ := none
  thresholdConfig _ := none
  thresholdSignatures _ := none
  batchMetadata _ := none
  compressionSelection _ := none
  encryptedCommitment _ := none
  events := []

namespace State

section Entries

/-! Writing or removing one entry. -/

variable (s : State)

def setAdmin (entry : Option Address) : State := { s with admin := entry }

def setNextId (entry : Option ℕ) : State := { s with nextId := entry }

def setIpCommitmentChecksum (entry : Option (BytesN 32)) : State :=
  { s with ipCommitmentChecksum := entry }

def setNextChallengeId (entry : Option ℕ) : State := { s with nextChallengeId := entry }

def setNotaryPublicKey (entry : Option (BytesN 32)) : State := { s with notaryPublicKey := entry }

def setCommitmentHashes (entry : Option (List (BytesN 32))) : State :=
  { s with commitmentHashes := entry }

def setNextDisputeId (entry : Option ℕ) : State := { s with nextDisputeId := entry }

def setNextArbitrationId (entry : Option ℕ) : State := { s with nextArbitrationId := entry }

def setArbitratorPool (entry : Option (List Address)) : State := { s with arbitratorPool := entry }

def setIpRecord (key : ℕ) (entry : Option IpRecord) : State :=
  { s with ipRecord := update s.ipRecord key entry }

def setOwnerIps (key : Address) (entry : Option (List ℕ)) : State :=
  { s with ownerIps := update s.ownerIps key entry }

def setCommitmentOwner (key : BytesN 32) (entry : Option Address) : State :=
  { s with commitmentOwner := update s.commitmentOwner key entry }

def setAnonymousOwner (key : BytesN 32) (entry : Option (BytesN 32)) : State :=
  { s with anonymousOwner := update s.anonymousOwner key entry }

def setPartialDisclosure (key : ℕ) (entry : Option (BytesN 32)) : State :=
  { s with partialDisclosure := update s.partialDisclosure key entry }

def setIpLicenses (key : ℕ) (entry : Option (List LicenseEntry)) : State :=
  { s with ipLicenses := update s.ipLicenses key entry }

def setIpVersions (key : ℕ) (entry : Option (List ℕ)) : State :=
  { s with ipVersions := update s.ipVersions key entry }

def setSuggestedPrice (key : ℕ) (entry : Option ℤ) : State :=
  { s with suggestedPrice := update s.suggestedPrice key entry }

def setIpAccessGrants (key : ℕ) (entry : Option (List IpAccessGrant)) : State :=
  { s with ipAccessGrants := update s.ipAccessGrants key entry }

def setIpVersionChain (key : ℕ) (entry : Option (List ℕ)) : State :=
  { s with ipVersionChain := update s.ipVersionChain key entry }

def setOwnershipChallenge (key : ℕ) (entry : Option OwnershipChallenge) : State :=
  { s with ownershipChallenge := update s.ownershipChallenge key entry }

def setEncryptionKeyRotation (key : ℕ) (entry : Option (List (BytesN 32))) : State :=
  { s with encryptionKeyRotation := update s.encryptionKeyRotation key entry }

def setIpPowDifficulty (key : ℕ) (entry : Option ℕ) : State :=
  { s with ipPowDifficulty := update s.ipPowDifficulty key entry }

def setShardIps (key : ℕ) (entry : Option (List ℕ)) : State :=
  { s with shardIps := update s.shardIps key entry }

def setIpAuditTrail (key : ℕ) (entry : Option (List AuditEntry)) : State :=
  { s with ipAuditTrail := update s.ipAuditTrail key entry }

def setRenewalCount (key : ℕ) (entry : Option ℕ) : State :=
  { s with renewalCount := update s.renewalCount key entry }

def setDelegates (key : Address) (entry : Option (List DelegationRecord)) : State :=
  { s with delegates := update s.delegates key entry }

def setDelegateDepth (key : Address) (entry : Option ℕ) : State :=
  { s with delegateDepth := update s.delegateDepth key entry }

def setIpDisputes (key : ℕ) (entry : Option DisputeRecord) : State :=
  { s with ipDisputes := update s.ipDisputes key entry }

def setIpStake (key : ℕ) (entry : Option StakeRecord) : State :=
  { s with ipStake := update s.ipStake key entry }

def setOwnerReputation (key : Address) (entry : Option ReputationRecord) : State :=
  { s with ownerReputation := update s.ownerReputation key entry }

def setArbitrationCase (key : ℕ) (entry : Option ArbitrationRecord) : State :=
  { s with arbitrationCase := update s.arbitrationCase key entry }

def setCompressedCommitment (key : ℕ) (entry : Option (BytesN 16)) : State :=
  { s with compressedCommitment := update s.compressedCommitment key entry }

def setHierarchyNode (key : Address × BytesN 32) (entry : Option (List ℕ)) : State :=
  { s with hierarchyNode := update s.hierarchyNode key entry }

def setOwnerCategories (key : Address) (entry : Option (List (BytesN 32))) : State :=
  { s with ownerCategories := update s.ownerCategories key entry }

def setThresholdConfig (key : ℕ) (entry : Option ThresholdConfig) : State :=
  { s with thresholdConfig := update s.thresholdConfig key entry }

def setThresholdSignatures (key : ℕ) (entry : Option (List ThresholdSignature)) : State :=
  { s with thresholdSignatures := update s.thresholdSignatures key entry }

def setBatchMetadata (key : ℕ) (entry : Option BatchMetadata) : State :=
  { s with batchMetadata := update s.batchMetadata key entry }

def setCompressionSelection (key : ℕ) (entry : Option CompressionSelection) : State :=
  { s with compressionSelection := update s.compressionSelection key entry }

def setEncryptedCommitment (key : ℕ) (entry : Option EncryptedCommitmentRecord) : State :=
  { s with encryptedCommitment := update s.encryptedCommitment key entry }

def published (event : Event) : State := { s with events := s.events ++ [event] }

end Entries

end State

abbrev RegistryTx (α : Type) := Tx (Abort ContractError) State α

structure Crypto where
  sha256 : Bytes → BytesN 32
  ed25519Verify : BytesN 32 → Bytes → Bytes → Bool

/-- What one call finds around it. The budget is the number of records a walk through the
storage may read before the host stops the call. -/
structure Env where
  crypto : Crypto
  timestamp : ℕ
  auths : List Address
  budget : ℕ

def currentContractAddress : Address := .contract 1

def publish (topic : String) (payload : Payload) : RegistryTx Unit :=
  Tx.store fun s => s.published ⟨topic, payload⟩

@[simp] theorem publish_ok {topic : String} {payload : Payload} {s s' : State} {u : Unit} :
    publish topic payload s = .ok (u, s') ↔ s' = s.published ⟨topic, payload⟩ := Tx.store_ok

end AtomicIp.IpRegistry
