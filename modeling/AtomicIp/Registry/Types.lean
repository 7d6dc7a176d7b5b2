import AtomicIp.Host

/-! The data of the registry (`contracts/ip_registry/src/types.rs` and the head of `lib.rs`). -/

set_option autoImplicit false

namespace AtomicIp.IpRegistry

inductive ContractError where
  | ipNotFound | zeroCommitmentHash | commitmentAlreadyRegistered | ipAlreadyRevoked
  | unauthorizedUpgrade | unauthorized | ipExpired | metadataTooLarge | licenseeNotFound
  | insufficientPoW | invalidExpiry | ipInDispute | coOwnerNotFound
  | invalidOwnershipPercentage | onlyOwnerCanManageCoOwners | disputeNotFound
  | disputeAlreadyResolved | stakeNotFound | alreadyStaked | stakeAlreadySlashed
  | arbitrationNotFound | arbitrationAlreadyFinalized | notAnArbitrator | thresholdNotMet
  | signerNotAuthorized | alreadySigned | batchMetadataTooLarge | encryptedDataTooLarge
  deriving DecidableEq, Repr

def maxMetadataBytes : ℕ := 1024

def numShards : ℕ := 16

def maxDelegationDepth : ℕ := 5

def ledgerBump : ℕ := 6307200

structure IpRecord where
  ipId : ℕ
  owner : Address
  commitmentHash : BytesN 32
  timestamp : ℕ
  revoked : Bool
  coOwners : List Address
  parentIpId : Option ℕ
  notarySignature : Option Bytes
  deriving DecidableEq

structure DelegationRecord where
  delegate : Address
  depth : ℕ
  deriving DecidableEq

structure AuditEntry where
  action : String
  actor : Address
  timestamp : ℕ
  deriving DecidableEq

structure LicenseEntry where
  licensee : Address
  termsHash : BytesN 32
  deriving DecidableEq

structure IpAccessGrant where
  grantee : Address
  accessLevel : ℕ
  deriving DecidableEq

structure OwnershipChallenge where
  challengeId : ℕ
  ipId : ℕ
  challenger : Address
  nonce : BytesN 32
  responseHash : Option (BytesN 32)
  verified : Bool
  timestamp : ℕ
  deriving DecidableEq

structure DisputeRecord where
  disputeId : ℕ
  ipId : ℕ
  challenger : Address
  evidenceHash : BytesN 32
  timestamp : ℕ
  resolved : Bool
  winner : Option Address
  deriving DecidableEq

structure StakeRecord where
  ipId : ℕ
  owner : Address
  amount : ℤ
  slashed : Bool
  deriving DecidableEq

structure ReputationRecord where
  owner : Address
  score : ℤ
  commitments : ℕ
  disputesLost : ℕ
  deriving DecidableEq

structure ArbitrationRecord where
  arbitrationId : ℕ
  disputeId : ℕ
  arbitrators : List Address
  votesOwner : ℕ
  votesChallenger : ℕ
  finalized : Bool
  winner : Option Address
  deriving DecidableEq

structure ThresholdConfig where
  ipId : ℕ
  threshold : ℕ
  total : ℕ
  signers : List Address
  deriving DecidableEq

structure ThresholdSignature where
  signer : Address
  signatureHash : BytesN 32
  timestamp : ℕ
  deriving DecidableEq

structure BatchMetadata where
  ipId : ℕ
  batchId : BytesN 32
  description : Bytes
  timestamp : ℕ
  deriving DecidableEq

inductive CompressionAlgo where
  | none | truncate16 | xor8
  deriving DecidableEq

structure CompressionSelection where
  ipId : ℕ
  algorithm : CompressionAlgo
  deriving DecidableEq

structure EncryptedCommitmentRecord where
  ipId : ℕ
  encryptedHash : Bytes
  keyHint : BytesN 32
  timestamp : ℕ
  deriving DecidableEq

inductive Payload where
  | ipCommitted (owner : Address) (ipId timestamp : ℕ)
  | ipCommittedAnonymously (ipId timestamp : ℕ) (blindedOwner : BytesN 32)
  | ipTransferred (ipId : ℕ) (oldOwner newOwner : Address)
  | ipRevoked (owner : Address) (ipId timestamp : ℕ)
  | wasmUpdated (newWasmHash : BytesN 32)
  | partiallyDisclosed (owner : Address) (ipId : ℕ) (partialHash : BytesN 32)
  | coOwnerAdded (owner : Address) (ipId : ℕ) (coOwner : Address)
  | coOwnerRemoved (owner : Address) (ipId : ℕ) (coOwner : Address)
  | versionCreated (owner : Address) (parentIpId ipId : ℕ)
  | accessGranted (ipId : ℕ) (grantee : Address) (accessLevel : ℕ)
  | accessRevoked (ipId : ℕ) (grantee : Address)
  | notarized (owner : Address) (ipId timestamp : ℕ)
  | merged (primaryIpId duplicateIpId : ℕ) (duplicateOwner : Address)
  | expirationWarning (ipId : ℕ) (owner : Address) (remainingTtl : ℕ)
  | keyRotated (owner : Address) (ipId : ℕ) (newCommitmentHash : BytesN 32)
  | disputeInitiated (challenger : Address) (disputeId ipId : ℕ)
  | disputeEvidence (submitter : Address) (disputeId : ℕ)
  | disputeResolved (winner : Address) (disputeId ipId : ℕ)
  | staked (owner : Address) (ipId : ℕ) (amount : ℤ)
  | slashed (owner : Address) (ipId : ℕ)
  | unstaked (owner : Address) (ipId : ℕ)
  | arbitratorNominated (admin arbitrator : Address)
  | arbitrationVote (voter : Address) (arbitrationId : ℕ) (voteForOwner : Bool)
  | arbitrationFinalized (winner : Address) (arbitrationId : ℕ)
  | renewed (owner : Address) (ipId newCount : ℕ)
  | delegated (rootOwner delegate : Address) (newDepth : ℕ)
  | delegationRevoked (owner delegate : Address)
  | ipCategorised (owner : Address) (ipId : ℕ) (categoryHash : BytesN 32)

structure Event where
  topic : String
  payload : Payload

end AtomicIp.IpRegistry
