import AtomicIp.Registry.State

/-!
The guards of `validation.rs` and the private helpers of `lib.rs`.
-/

set_option autoImplicit false

namespace AtomicIp.IpRegistry

open Function

def requireIpExists (ipId : ℕ) : RegistryTx IpRecord := do
  let record ← Tx.load fun s => s.ipRecord ipId
  orFail record .ipNotFound

def requireNonZeroCommitment (commitmentHash : BytesN 32) : RegistryTx Unit :=
  require (commitmentHash ≠ .zero 32) .zeroCommitmentHash

/-- The collision event published before the panic is rolled back with it. -/
def requireUniqueCommitment (commitmentHash : BytesN 32) : RegistryTx Unit := do
  let existing ← Tx.load fun s => s.commitmentOwner commitmentHash
  require (existing = none) .commitmentAlreadyRegistered

def requireNotRevoked (record : IpRecord) : RegistryTx Unit :=
  require (record.revoked = false) .ipAlreadyRevoked

/-- The mask of the leading `bits` bits of a byte. -/
def leadingMask (bits : ℕ) : UInt8 := ~~~(((1 : UInt8) <<< (8 - bits).toUInt8) - 1)

/-- The leading `remaining` bits are zero. -/
def leadingZeros : Bytes → ℕ → Bool
  | [], _ => true
  | byte :: rest, remaining =>
    if remaining = 0 then true
    else if byte &&& leadingMask (min 8 remaining) ≠ 0 then false
    else leadingZeros rest (remaining - 8)

def checkedMask (bits : ℕ) : RegistryTx UInt8 := do
  let shift ← checked (bits ≤ 8) (8 - bits)
  let bit ← checked (shift < 8) ((1 : UInt8) <<< shift.toUInt8)
  pure (~~~(bit - 1))

/-- The loop over the bytes, up to the first bit that is not zero. -/
def meetsPow : Bytes → ℕ → RegistryTx Bool
  | [], _ => pure true
  | byte :: rest, remaining =>
    if remaining = 0 then pure true
    else do
      let mask ← checkedMask (if 8 ≤ remaining then 8 else remaining)
      if byte &&& mask ≠ 0 then pure false else meetsPow rest (remaining - 8)

def requirePow (commitmentHash : BytesN 32) (difficulty : ℕ) : RegistryTx Unit :=
  Tx.onlyIf (difficulty ≠ 0) do
    let met ← meetsPow commitmentHash.bytes difficulty
    require (met = true) .insufficientPoW

/-- The first commitment makes the contract its own admin. -/
def initAdmin : RegistryTx Unit :=
  Tx.store fun s => s.setAdmin (some (s.admin.getD currentContractAddress))

def requireStoredAdmin (env : Env) (error : ContractError) : RegistryTx Address := do
  let stored ← Tx.load fun s => s.admin
  let admin ← orFail stored error
  requireAuth env.auths admin
  pure admin

def nextIpId : RegistryTx ℕ := Tx.load fun s => s.nextId.getD 1

def advanceId (ipId : ℕ) : RegistryTx Unit := do
  let next ← u64 (ipId + 1)
  Tx.store fun s => s.setNextId (some next)

def saveIp (ipId : ℕ) (record : IpRecord) : RegistryTx Unit :=
  Tx.store fun s => s.setIpRecord ipId (some record)

def appendOwnerIp (owner : Address) (ipId : ℕ) : RegistryTx Unit :=
  Tx.store fun s => s.setOwnerIps owner (some ((s.ownerIps owner).getD [] ++ [ipId]))

def removeOwnerIp (owner : Address) (ipId : ℕ) : RegistryTx Unit :=
  Tx.store fun s => s.setOwnerIps owner (some (((s.ownerIps owner).getD []).erase ipId))

def indexCommitment (commitmentHash : BytesN 32) (owner : Address) : RegistryTx Unit :=
  Tx.store fun s => s.setCommitmentOwner commitmentHash (some owner)

def appendAuditEntry (env : Env) (ipId : ℕ) (action : String) (actor : Address) :
    RegistryTx Unit :=
  Tx.store fun s => s.setIpAuditTrail ipId
    (some ((s.ipAuditTrail ipId).getD [] ++ [⟨action, actor, env.timestamp⟩]))

def commitmentShard (commitmentHash : BytesN 32) : ℕ :=
  (commitmentHash.bytes.headD 0).toNat % numShards

def assignToShard (ipId : ℕ) (commitmentHash : BytesN 32) : RegistryTx Unit :=
  Tx.store fun s => s.setShardIps (commitmentShard commitmentHash)
    (some ((s.shardIps (commitmentShard commitmentHash)).getD [] ++ [ipId]))

theorem compressedSize_le : 16 ≤ 32 := by decide

def storeCompressedCommitment (ipId : ℕ) (commitmentHash : BytesN 32) : RegistryTx Unit :=
  Tx.store fun s =>
    s.setCompressedCommitment ipId (some (commitmentHash.truncate compressedSize_le))

def updateCommitmentChecksum (env : Env) : RegistryTx Unit := do
  let nextId ← nextIpId
  Tx.onlyIf (1 < nextId) do
    let lastRecord ← Tx.load fun s => s.ipRecord (nextId - 1)
    match lastRecord with
    | none => pure ()
    | some record => do
      let logged ← Tx.load fun s => s.commitmentHashes.getD []
      let hashes := logged ++ [record.commitmentHash]
      Tx.store fun s => s.setCommitmentHashes (some hashes)
      Tx.store fun s => s.setIpCommitmentChecksum
        (some (env.crypto.sha256 (hashes.flatMap BytesN.bytes)))

def commitmentOf (env : Env) (secret blindingFactor : BytesN 32) : BytesN 32 :=
  env.crypto.sha256 (secret.bytes ++ blindingFactor.bytes)

end AtomicIp.IpRegistry
