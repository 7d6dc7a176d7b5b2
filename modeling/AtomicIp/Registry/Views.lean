import AtomicIp.Registry.Books

set_option autoImplicit false

namespace AtomicIp.IpRegistry

open Tx

/-- Walk up the parents to a record without one; every record on the way has to exist. -/
def lineageRoot : ℕ → ℕ → RegistryTx ℕ
  | 0, _ => Tx.abort .budget
  | budget + 1, current => do
    let record ← requireIpExists current
    match record.parentIpId with
    | some parent => lineageRoot budget parent
    | none => pure current

def getIpLineage (env : Env) (ipId : ℕ) : RegistryTx (List ℕ) := do
  let _ ← requireIpExists ipId
  let rootId ← lineageRoot env.budget ipId
  let versions ← Tx.load fun s => (s.ipVersions rootId).getD []
  pure (rootId :: versions)

def getIpVersions (ipId : ℕ) : RegistryTx (List ℕ) := do
  let _ ← requireIpExists ipId
  Tx.load fun s => (s.ipVersions ipId).getD []

def getIpVersionChain (env : Env) (ipId : ℕ) : RegistryTx (List ℕ) := do
  let _ ← requireIpExists ipId
  let rootId ← findRoot env.budget ipId
  Tx.load fun s => (s.ipVersionChain rootId).getD [rootId]

def getCompressedCommitment (ipId : ℕ) : RegistryTx (BytesN 16) := do
  let _ ← requireIpExists ipId
  Tx.load fun s => (s.compressedCommitment ipId).getD (.zero 16)

def getCommitmentShard (commitmentHash : BytesN 32) : ℕ := commitmentShard commitmentHash

def getShardIpIds (shardId : ℕ) : RegistryTx (List ℕ) :=
  Tx.load fun s => (s.shardIps shardId).getD []

def getCommitmentCompression (ipId : ℕ) : RegistryTx CompressionAlgo := do
  let _ ← requireIpExists ipId
  Tx.load fun s => ((s.compressionSelection ipId).map CompressionSelection.algorithm).getD
    .truncate16

def CompressionAlgo.compress (commitmentHash : BytesN 32) : CompressionAlgo → Bytes
  | .none => commitmentHash.bytes
  | .truncate16 => commitmentHash.bytes.take 16
  | .xor8 => List.replicate 8 (commitmentHash.bytes.foldl (· ^^^ ·) 0)

def getCompressedBytes (ipId : ℕ) : RegistryTx Bytes := do
  let record ← requireIpExists ipId
  let algorithm ← getCommitmentCompression ipId
  pure (algorithm.compress record.commitmentHash)

def getIpAuditTrail (ipId : ℕ) : RegistryTx (List AuditEntry) := do
  let _ ← requireIpExists ipId
  Tx.load fun s => (s.ipAuditTrail ipId).getD []

/-- The log is hashed again and compared with the stored checksum, if there is one. -/
def verifyCommitmentIntegrity (sha256 : Bytes → BytesN 32) (s : State) : Bool :=
  s.ipCommitmentChecksum.all fun checksum =>
    checksum = sha256 ((s.commitmentHashes.getD []).flatMap BytesN.bytes)

section Views

variable {env : Env} {s s' : State} {ipId budget root : ℕ}

theorem findRoot_ok : findRoot budget ipId s = .ok (root, s') ↔
    walk s.ledger.parentOf budget ipId = some root ∧ s' = s := by
  constructor
  · intro h
    exact ⟨findRoot_walk h, findRoot_state h⟩
  · intro h
    obtain ⟨hwalk, rfl⟩ := h
    induction budget generalizing ipId with
    | zero => cases hwalk
    | succ budget ih =>
      rw [findRoot, Tx.load_bind_ok]
      cases hparent : (s'.ipRecord ipId).bind IpRecord.parentIpId with
      | none =>
        have hup : s'.ledger.parentOf ipId = none := hparent
        simp only [walk, hup, Option.some.injEq] at hwalk
        rw [hwalk]
        rfl
      | some parent =>
        have hup : s'.ledger.parentOf ipId = some parent := hparent
        simp only [walk, hup] at hwalk
        exact ih hwalk

theorem getIpVersionChain_ok {chain : List ℕ} :
    getIpVersionChain env ipId s = .ok (chain, s') ↔
      (∃ r, s.ledger.ipRecord ipId = some r) ∧
        ∃ root, walk s.ledger.parentOf env.budget ipId = some root ∧
          chain = (s.ipVersionChain root).getD [root] ∧ s' = s := by
  simp only [getIpVersionChain, Tx.bind_ok, requireIpExists_ok, findRoot_ok, Tx.load_ok]
  constructor
  · intro h
    obtain ⟨r, _, ⟨hr, rfl⟩, root, _, ⟨hroot, rfl⟩, rfl, rfl⟩ := h
    exact ⟨⟨r, hr⟩, root, hroot, rfl, rfl⟩
  · intro h
    obtain ⟨⟨r, hr⟩, root, hroot, rfl, rfl⟩ := h
    exact ⟨r, s', ⟨hr, rfl⟩, root, s', ⟨hroot, rfl⟩, rfl, rfl⟩

theorem getCompressedCommitment_ok {compressed : BytesN 16} :
    getCompressedCommitment ipId s = .ok (compressed, s') ↔
      (∃ r, s.ledger.ipRecord ipId = some r) ∧
        compressed = (s.compressedCommitment ipId).getD (.zero 16) ∧ s' = s := by
  simp only [getCompressedCommitment, Tx.bind_ok, requireIpExists_ok, Tx.load_ok]
  constructor
  · intro h
    obtain ⟨r, _, ⟨hr, rfl⟩, rfl, rfl⟩ := h
    exact ⟨⟨r, hr⟩, rfl, rfl⟩
  · intro h
    obtain ⟨⟨r, hr⟩, rfl, rfl⟩ := h
    exact ⟨r, s', ⟨hr, rfl⟩, rfl, rfl⟩

end Views

end AtomicIp.IpRegistry
