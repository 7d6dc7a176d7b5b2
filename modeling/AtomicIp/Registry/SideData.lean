import AtomicIp.Registry.Commitments

/-!
What is stored next to a record: signatures, metadata, licences, grants, challenges and
categories. Several of these entry points ask for nobody's authorisation.
-/

set_option autoImplicit false

namespace AtomicIp.IpRegistry

open Function

def requireThresholdSignatures (ipId threshold : ℕ) (signers : List Address) :
    RegistryTx Unit := do
  let _ ← requireIpExists ipId
  require (¬ (threshold = 0 ∨ signers.length < threshold)) .thresholdNotMet
  Tx.store fun s => s.setThresholdConfig ipId (some ⟨ipId, threshold, signers.length, signers⟩)
  Tx.store fun s => s.setThresholdSignatures ipId (some [])

def addThresholdSignature (env : Env) (ipId : ℕ) (signer : Address)
    (signatureHash : BytesN 32) : RegistryTx Unit := do
  let _ ← requireIpExists ipId
  let stored ← Tx.load fun s => s.thresholdConfig ipId
  let config ← orFail stored .signerNotAuthorized
  require (signer ∈ config.signers) .signerNotAuthorized
  let signatures ← Tx.load fun s => (s.thresholdSignatures ipId).getD []
  require (signer ∉ signatures.map ThresholdSignature.signer) .alreadySigned
  Tx.store fun s => s.setThresholdSignatures ipId
    (some (signatures ++ [⟨signer, signatureHash, env.timestamp⟩]))

def getThresholdSignatures (ipId : ℕ) : RegistryTx (List ThresholdSignature) := do
  let _ ← requireIpExists ipId
  Tx.load fun s => (s.thresholdSignatures ipId).getD []

def verifyThresholdSignatures (ipId : ℕ) : RegistryTx Bool := do
  let _ ← requireIpExists ipId
  let config ← Tx.load fun s => s.thresholdConfig ipId
  match config with
  | none => pure false
  | some config => do
    let signatures ← getThresholdSignatures ipId
    pure (decide (config.threshold ≤ signatures.length))

def setBatchMetadata (env : Env) (ipId : ℕ) (batchId : BytesN 32) (description : Bytes) :
    RegistryTx Unit := do
  let _ ← requireIpExists ipId
  require (description.length ≤ maxMetadataBytes) .batchMetadataTooLarge
  Tx.store fun s => s.setBatchMetadata ipId (some ⟨ipId, batchId, description, env.timestamp⟩)

def setCommitmentCompression (ipId : ℕ) (algorithm : CompressionAlgo) : RegistryTx Unit := do
  let _ ← requireIpExists ipId
  Tx.store fun s => s.setCompressionSelection ipId (some ⟨ipId, algorithm⟩)

def encryptCommitment (env : Env) (ipId : ℕ) (encryptedHash : Bytes) (keyHint : BytesN 32) :
    RegistryTx Unit := do
  let _ ← requireIpExists ipId
  require (encryptedHash.length ≤ 256) .encryptedDataTooLarge
  Tx.store fun s => s.setEncryptedCommitment ipId
    (some ⟨ipId, encryptedHash, keyHint, env.timestamp⟩)

/-- Disclose the hash of the design to whoever opens the commitment with it. -/
def revealPartial (env : Env) (ipId : ℕ) (partialHash blindingFactor : BytesN 32) :
    RegistryTx Bool := do
  let record ← requireIpExists ipId
  requireAuth env.auths record.owner
  if commitmentOf env partialHash blindingFactor ≠ record.commitmentHash then pure false
  else do
    Tx.store fun s => s.setPartialDisclosure ipId (some partialHash)
    publish "partial" (.partiallyDisclosed record.owner ipId partialHash)
    pure true

def upsert {α β : Type} [DecidableEq β] (key : α → β) (entry : α) : List α → List α
  | [] => [entry]
  | a :: rest => if key a = key entry then entry :: rest else a :: upsert key entry rest

def grantLicense (env : Env) (ipId : ℕ) (licensee : Address) (termsHash : BytesN 32) :
    RegistryTx Unit := do
  let record ← requireIpExists ipId
  requireAuth env.auths record.owner
  Tx.store fun s => s.setIpLicenses ipId
    (some (upsert LicenseEntry.licensee ⟨licensee, termsHash⟩ ((s.ipLicenses ipId).getD [])))

def revokeLicense (env : Env) (ipId : ℕ) (licensee : Address) : RegistryTx Unit := do
  let record ← requireIpExists ipId
  requireAuth env.auths record.owner
  let licenses ← Tx.load fun s => (s.ipLicenses ipId).getD []
  require (licensee ∈ licenses.map LicenseEntry.licensee) .licenseeNotFound
  Tx.store fun s => s.setIpLicenses ipId
    (some (licenses.eraseP fun entry => entry.licensee = licensee))

def setIpSuggestedPrice (env : Env) (ipId : ℕ) (price : ℤ) : RegistryTx Unit := do
  let record ← requireIpExists ipId
  requireAuth env.auths record.owner
  Tx.store fun s => s.setSuggestedPrice ipId (if price = 0 then none else some price)

def addCoOwner (env : Env) (ipId : ℕ) (coOwner : Address) : RegistryTx Unit := do
  let record ← requireIpExists ipId
  requireAuth env.auths record.owner
  Tx.onlyIf (coOwner ∉ record.coOwners) do
    saveIp ipId (record.withCoOwners (record.coOwners ++ [coOwner]))
    publish "co_add" (.coOwnerAdded record.owner ipId coOwner)

def removeCoOwner (env : Env) (ipId : ℕ) (coOwner : Address) : RegistryTx Unit := do
  let record ← requireIpExists ipId
  requireAuth env.auths record.owner
  Tx.onlyIf (coOwner ∈ record.coOwners) do
    saveIp ipId (record.withCoOwners (record.coOwners.erase coOwner))
    publish "co_rem" (.coOwnerRemoved record.owner ipId coOwner)

def grantIpAccess (env : Env) (ipId : ℕ) (grantee : Address) (accessLevel : ℕ) :
    RegistryTx Unit := do
  let record ← requireIpExists ipId
  requireAuth env.auths record.owner
  require (¬ (accessLevel < 1 ∨ 3 < accessLevel)) .unauthorized
  Tx.store fun s => s.setIpAccessGrants ipId
    (some (upsert IpAccessGrant.grantee ⟨grantee, accessLevel⟩ ((s.ipAccessGrants ipId).getD [])))
  publish "ac_grant" (.accessGranted ipId grantee accessLevel)

def revokeIpAccess (env : Env) (ipId : ℕ) (grantee : Address) : RegistryTx Unit := do
  let record ← requireIpExists ipId
  requireAuth env.auths record.owner
  let grants ← Tx.load fun s => (s.ipAccessGrants ipId).getD []
  Tx.onlyIf (grantee ∈ grants.map IpAccessGrant.grantee) do
    Tx.store fun s => s.setIpAccessGrants ipId
      (some (grants.eraseP fun grant => grant.grantee = grantee))
    publish "ac_revoke" (.accessRevoked ipId grantee)

def setNotaryPublicKey (env : Env) (publicKey : BytesN 32) : RegistryTx Unit := do
  let admin ← Tx.load fun s => s.admin.getD currentContractAddress
  requireAuth env.auths admin
  Tx.store fun s => s.setNotaryPublicKey (some publicKey)

def IpRecord.notarized (record : IpRecord) (signature : Bytes) : IpRecord :=
  { record with notarySignature := some signature }

def notarizeIpTimestamp (env : Env) (ipId : ℕ) (notarySignature : Bytes) : RegistryTx Unit := do
  let record ← requireIpExists ipId
  let stored ← Tx.load fun s => s.notaryPublicKey
  let publicKey ← orFail stored .unauthorized
  require (notarySignature.length = 64) .unauthorized
  Tx.ensure (env.crypto.ed25519Verify publicKey
    (u64BeBytes ipId ++ u64BeBytes record.timestamp) notarySignature = true) .signature
  saveIp ipId (record.notarized notarySignature)
  publish "notary" (.notarized record.owner ipId env.timestamp)

def checkExpirationWarning (env : Env) (ipId warningThresholdLedgers : ℕ) :
    RegistryTx Bool := do
  let record ← requireIpExists ipId
  let elapsedLedgers := (env.timestamp - record.timestamp) / 5 % 2 ^ 32
  let remainingTtl := ledgerBump - elapsedLedgers
  if remainingTtl ≤ warningThresholdLedgers then do
    publish "exp_warn" (.expirationWarning ipId record.owner remainingTtl)
    pure true
  else pure false

/-- The time to live of the record is not part of the model; the counter is. -/
def renewIp (env : Env) (ipId : ℕ) : RegistryTx Unit := do
  let record ← requireIpExists ipId
  requireAuth env.auths record.owner
  requireNotRevoked record
  let count ← Tx.load fun s => (s.renewalCount ipId).getD 0
  let newCount ← u32 (count + 1)
  Tx.store fun s => s.setRenewalCount ipId (some newCount)
  publish "renewed" (.renewed record.owner ipId newCount)

def assignIpToCategory (env : Env) (ipId : ℕ) (categoryHash : BytesN 32) : RegistryTx Unit := do
  let record ← requireIpExists ipId
  requireAuth env.auths record.owner
  let ids ← Tx.load fun s => (s.hierarchyNode (record.owner, categoryHash)).getD []
  Tx.onlyIf (ipId ∉ ids) do
    Tx.store fun s => s.setHierarchyNode (record.owner, categoryHash) (some (ids ++ [ipId]))
    let categories ← Tx.load fun s => (s.ownerCategories record.owner).getD []
    Tx.onlyIf (categoryHash ∉ categories)
      (Tx.store fun s => s.setOwnerCategories record.owner (some (categories ++ [categoryHash])))
    publish "ip_cat" (.ipCategorised record.owner ipId categoryHash)

def issueOwnershipChallenge (env : Env) (ipId : ℕ) (challenger : Address) (nonce : BytesN 32) :
    RegistryTx ℕ := do
  requireAuth env.auths challenger
  let _ ← requireIpExists ipId
  let challengeId ← Tx.load fun s => s.nextChallengeId.getD 1
  Tx.store fun s => s.setOwnershipChallenge challengeId
    (some ⟨challengeId, ipId, challenger, nonce, none, false, env.timestamp⟩)
  let next ← u64 (challengeId + 1)
  Tx.store fun s => s.setNextChallengeId (some next)
  pure challengeId

def requireChallenge (challengeId : ℕ) : RegistryTx OwnershipChallenge := do
  let challenge ← Tx.load fun s => s.ownershipChallenge challengeId
  orFail challenge .ipNotFound

def respondToOwnershipChallenge (env : Env) (challengeId : ℕ) (responseHash : BytesN 32) :
    RegistryTx Unit := do
  let challenge ← requireChallenge challengeId
  let record ← requireIpExists challenge.ipId
  requireAuth env.auths record.owner
  Tx.store fun s => s.setOwnershipChallenge challengeId
    (some { challenge with responseHash := some responseHash })

def verifyOwnershipChallenge (env : Env) (challengeId : ℕ) : RegistryTx Bool := do
  let challenge ← requireChallenge challengeId
  match challenge.responseHash with
  | none => pure false
  | some responseHash => do
    let record ← requireIpExists challenge.ipId
    let expected := env.crypto.sha256 (record.commitmentHash.bytes ++ challenge.nonce.bytes)
    Tx.onlyIf (responseHash = expected) (Tx.store fun s => s.setOwnershipChallenge challengeId
      (some { challenge with verified := true }))
    pure (decide (responseHash = expected))

end AtomicIp.IpRegistry
