import AtomicIp.Registry.Validation

set_option autoImplicit false

namespace AtomicIp.IpRegistry

open Function

def newRecord (ipId : ℕ) (owner : Address) (commitmentHash : BytesN 32) (timestamp : ℕ)
    (parentIpId : Option ℕ) : IpRecord where
  ipId := ipId
  owner := owner
  commitmentHash := commitmentHash
  timestamp := timestamp
  revoked := false
  coOwners := []
  parentIpId := parentIpId
  notarySignature := none

def IpRecord.ownedBy (record : IpRecord) (owner : Address) : IpRecord := { record with owner }

def IpRecord.rehashed (record : IpRecord) (commitmentHash : BytesN 32) : IpRecord :=
  { record with commitmentHash }

def IpRecord.revoke (record : IpRecord) : IpRecord := { record with revoked := true }

def IpRecord.withCoOwners (record : IpRecord) (coOwners : List Address) : IpRecord :=
  { record with coOwners }

def commitIp (env : Env) (owner : Address) (commitmentHash : BytesN 32) (powDifficulty : ℕ) :
    RegistryTx ℕ := do
  requireAuth env.auths owner
  initAdmin
  requireNonZeroCommitment commitmentHash
  requireUniqueCommitment commitmentHash
  requirePow commitmentHash powDifficulty
  let id ← nextIpId
  saveIp id (newRecord id owner commitmentHash env.timestamp none)
  Tx.store fun s => s.setIpPowDifficulty id (some powDifficulty)
  appendOwnerIp owner id
  indexCommitment commitmentHash owner
  advanceId id
  indexCommitment commitmentHash owner
  publish "ip_commit" (.ipCommitted owner id env.timestamp)
  appendAuditEntry env id "committed" owner
  assignToShard id commitmentHash
  storeCompressedCommitment id commitmentHash
  updateCommitmentChecksum env
  pure id

def commitOne (env : Env) (owner : Address) (commitmentHash : BytesN 32) : RegistryTx ℕ := do
  requireNonZeroCommitment commitmentHash
  requireUniqueCommitment commitmentHash
  let id ← nextIpId
  saveIp id (newRecord id owner commitmentHash env.timestamp none)
  appendOwnerIp owner id
  indexCommitment commitmentHash owner
  publish "ip_commit" (.ipCommitted owner id env.timestamp)
  advanceId id
  pure id

/-- The checksum is updated once, for the last element. -/
def batchCommitIp (env : Env) (owner : Address) (commitmentHashes : List (BytesN 32)) :
    RegistryTx (List ℕ) := do
  requireAuth env.auths owner
  initAdmin
  let ids ← Tx.forEach commitmentHashes (commitOne env owner)
  updateCommitmentChecksum env
  pure ids

/-- Nobody is listed as the owner; the record names the contract. -/
def commitOneAnonymous (env : Env) (blindedOwner : BytesN 32) (commitmentHash : BytesN 32) :
    RegistryTx ℕ := do
  requireNonZeroCommitment commitmentHash
  requireUniqueCommitment commitmentHash
  let id ← nextIpId
  saveIp id (newRecord id currentContractAddress commitmentHash env.timestamp none)
  indexCommitment commitmentHash currentContractAddress
  Tx.store fun s => s.setAnonymousOwner commitmentHash (some blindedOwner)
  publish "ip_cmt_a" (.ipCommittedAnonymously id env.timestamp blindedOwner)
  advanceId id
  pure id

def batchCommitIpAnonymous (env : Env) (blindedOwner : BytesN 32)
    (commitmentHashes : List (BytesN 32)) : RegistryTx (List ℕ) := do
  require (commitmentHashes ≠ []) .zeroCommitmentHash
  initAdmin
  let ids ← Tx.forEach commitmentHashes (commitOneAnonymous env blindedOwner)
  updateCommitmentChecksum env
  pure ids

/-- The owner commits, once anybody has been made a delegate. -/
def commitIpDelegated (env : Env) (owner : Address) (commitmentHash : BytesN 32)
    (powDifficulty : ℕ) : RegistryTx ℕ := do
  requireAuth env.auths owner
  let delegates ← Tx.load fun s => (s.delegates owner).getD []
  require (delegates ≠ []) .unauthorized
  requireNonZeroCommitment commitmentHash
  requireUniqueCommitment commitmentHash
  requirePow commitmentHash powDifficulty
  let id ← nextIpId
  saveIp id (newRecord id owner commitmentHash env.timestamp none)
  appendOwnerIp owner id
  indexCommitment commitmentHash owner
  advanceId id
  publish "ip_commit" (.ipCommitted owner id env.timestamp)
  updateCommitmentChecksum env
  pure id

def requireAcyclic : ℕ → List ℕ → ℕ → RegistryTx Unit
  | 0, _, _ => Tx.abort .budget
  | budget + 1, visited, current => do
    require (current ∉ visited) .unauthorized
    let record ← Tx.load fun s => s.ipRecord current
    match record.bind IpRecord.parentIpId with
    | some parent => requireAcyclic budget (visited ++ [current]) parent
    | none => pure ()

/-- Walk up the parents to a record without one. -/
def findRoot : ℕ → ℕ → RegistryTx ℕ
  | 0, _ => Tx.abort .budget
  | budget + 1, current => do
    let record ← Tx.load fun s => s.ipRecord current
    match record.bind IpRecord.parentIpId with
    | some parent => findRoot budget parent
    | none => pure current

def appendVersion (parentIpId ipId : ℕ) : RegistryTx Unit :=
  Tx.store fun s => s.setIpVersions parentIpId
    (some ((s.ipVersions parentIpId).getD [] ++ [ipId]))

def appendToChain (rootId ipId : ℕ) : RegistryTx Unit :=
  Tx.store fun s => s.setIpVersionChain rootId
    (some ((s.ipVersionChain rootId).getD [rootId] ++ [ipId]))

def createIpVersion (env : Env) (parentIpId : ℕ) (newCommitmentHash : BytesN 32) :
    RegistryTx ℕ := do
  let parent ← requireIpExists parentIpId
  requireAuth env.auths parent.owner
  requireNonZeroCommitment newCommitmentHash
  requireUniqueCommitment newCommitmentHash
  requireAcyclic env.budget [] parentIpId
  let id ← nextIpId
  saveIp id (newRecord id parent.owner newCommitmentHash env.timestamp (some parentIpId))
  appendOwnerIp parent.owner id
  indexCommitment newCommitmentHash parent.owner
  appendVersion parentIpId id
  let rootId ← findRoot env.budget parentIpId
  appendToChain rootId id
  advanceId id
  publish "version" (.versionCreated parent.owner parentIpId id)
  pure id

def commitIpVersion (env : Env) (owner : Address) (commitmentHash : BytesN 32)
    (parentIpId : ℕ) : RegistryTx ℕ := do
  requireAuth env.auths owner
  createIpVersion env parentIpId commitmentHash

def transferIp (env : Env) (ipId : ℕ) (newOwner : Address) : RegistryTx Unit := do
  let record ← requireIpExists ipId
  requireAuth env.auths record.owner
  removeOwnerIp record.owner ipId
  appendOwnerIp newOwner ipId
  indexCommitment record.commitmentHash newOwner
  saveIp ipId (record.ownedBy newOwner)
  publish "ip_xfer" (.ipTransferred ipId record.owner newOwner)
  appendAuditEntry env ipId "xferred" newOwner

def transferIpOwnership (env : Env) (ipId : ℕ) (newOwner : Address) : RegistryTx Unit :=
  transferIp env ipId newOwner

def revokeIp (env : Env) (ipId : ℕ) : RegistryTx Unit := do
  let record ← requireIpExists ipId
  requireAuth env.auths record.owner
  requireNotRevoked record
  saveIp ipId record.revoke
  publish "revoke" (.ipRevoked record.owner ipId env.timestamp)
  appendAuditEntry env ipId "revoked" record.owner

def adoptCoOwner (primaryIpId : ℕ) (primary : IpRecord) (duplicateOwner : Address) :
    RegistryTx Unit :=
  Tx.onlyIf (duplicateOwner ∉ primary.coOwners ∧ duplicateOwner ≠ primary.owner)
    (saveIp primaryIpId (primary.withCoOwners (primary.coOwners ++ [duplicateOwner])))

def mergeDuplicateCommitment (env : Env) (primaryIpId duplicateIpId : ℕ) : RegistryTx Unit := do
  let primary ← requireIpExists primaryIpId
  requireAuth env.auths primary.owner
  let duplicate ← requireIpExists duplicateIpId
  require (primary.commitmentHash = duplicate.commitmentHash) .commitmentAlreadyRegistered
  adoptCoOwner primaryIpId primary duplicate.owner
  saveIp duplicateIpId duplicate.revoke
  appendAuditEntry env primaryIpId "merged" primary.owner
  appendAuditEntry env duplicateIpId "revoked" primary.owner
  publish "dedup" (.merged primaryIpId duplicateIpId duplicate.owner)

/-- The record keeps its timestamp, and the old hash is free again. -/
def rotateCommitmentKey (env : Env) (ipId : ℕ)
    (newCommitmentHash oldSecret oldBlindingFactor : BytesN 32) : RegistryTx Unit := do
  let record ← requireIpExists ipId
  requireAuth env.auths record.owner
  requireNotRevoked record
  require (commitmentOf env oldSecret oldBlindingFactor = record.commitmentHash) .unauthorized
  requireNonZeroCommitment newCommitmentHash
  requireUniqueCommitment newCommitmentHash
  Tx.store fun s => s.setEncryptionKeyRotation ipId
    (some ((s.encryptionKeyRotation ipId).getD [] ++ [record.commitmentHash]))
  Tx.store fun s => s.setCommitmentOwner record.commitmentHash none
  indexCommitment newCommitmentHash record.owner
  saveIp ipId (record.rehashed newCommitmentHash)
  publish "key_rot" (.keyRotated record.owner ipId newCommitmentHash)

def getIp (ipId : ℕ) : RegistryTx IpRecord := requireIpExists ipId

def verifyCommitment (env : Env) (ipId : ℕ) (secret blindingFactor : BytesN 32) :
    RegistryTx Bool := do
  let record ← requireIpExists ipId
  pure (decide (record.commitmentHash = commitmentOf env secret blindingFactor))

end AtomicIp.IpRegistry
