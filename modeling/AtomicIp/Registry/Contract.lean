import AtomicIp.Lib.Run
import AtomicIp.Registry.Disputes
import AtomicIp.Registry.SideData

set_option autoImplicit false

namespace AtomicIp.IpRegistry

inductive Call where
  | commitIp (owner : Address) (commitmentHash : BytesN 32) (powDifficulty : ℕ)
  | batchCommitIp (owner : Address) (commitmentHashes : List (BytesN 32))
  | batchCommitIpAnonymous (blindedOwner : BytesN 32) (commitmentHashes : List (BytesN 32))
  | commitIpDelegated (owner : Address) (commitmentHash : BytesN 32) (powDifficulty : ℕ)
  | createIpVersion (parentIpId : ℕ) (newCommitmentHash : BytesN 32)
  | commitIpVersion (owner : Address) (commitmentHash : BytesN 32) (parentIpId : ℕ)
  | rotateCommitmentKey (ipId : ℕ) (newCommitmentHash oldSecret oldBlindingFactor : BytesN 32)
  | transferIp (ipId : ℕ) (newOwner : Address)
  | transferIpOwnership (ipId : ℕ) (newOwner : Address)
  | revokeIp (ipId : ℕ)
  | mergeDuplicateCommitment (primaryIpId duplicateIpId : ℕ)
  | addCoOwner (ipId : ℕ) (coOwner : Address)
  | removeCoOwner (ipId : ℕ) (coOwner : Address)
  | setNotaryPublicKey (publicKey : BytesN 32)
  | notarizeIpTimestamp (ipId : ℕ) (notarySignature : Bytes)
  | requireThresholdSignatures (ipId threshold : ℕ) (signers : List Address)
  | addThresholdSignature (ipId : ℕ) (signer : Address) (signatureHash : BytesN 32)
  | setBatchMetadata (ipId : ℕ) (batchId : BytesN 32) (description : Bytes)
  | setCommitmentCompression (ipId : ℕ) (algorithm : CompressionAlgo)
  | encryptCommitment (ipId : ℕ) (encryptedHash : Bytes) (keyHint : BytesN 32)
  | revealPartial (ipId : ℕ) (partialHash blindingFactor : BytesN 32)
  | grantLicense (ipId : ℕ) (licensee : Address) (termsHash : BytesN 32)
  | revokeLicense (ipId : ℕ) (licensee : Address)
  | setIpSuggestedPrice (ipId : ℕ) (price : ℤ)
  | grantIpAccess (ipId : ℕ) (grantee : Address) (accessLevel : ℕ)
  | revokeIpAccess (ipId : ℕ) (grantee : Address)
  | checkExpirationWarning (ipId warningThresholdLedgers : ℕ)
  | renewIp (ipId : ℕ)
  | assignIpToCategory (ipId : ℕ) (categoryHash : BytesN 32)
  | issueOwnershipChallenge (ipId : ℕ) (challenger : Address) (nonce : BytesN 32)
  | respondToOwnershipChallenge (challengeId : ℕ) (responseHash : BytesN 32)
  | verifyOwnershipChallenge (challengeId : ℕ)
  | initiateDispute (ipId : ℕ) (challenger : Address) (evidenceHash : BytesN 32)
  | submitDisputeEvidence (disputeId : ℕ) (submitter : Address) (evidenceHash : BytesN 32)
  | resolveDispute (disputeId : ℕ) (winner : Address)
  | stakeCommitment (ipId : ℕ) (amount : ℤ)
  | slashStake (ipId : ℕ)
  | unstake (ipId : ℕ)
  | updateReputation (owner : Address) (scoreDelta : ℤ)
  | nominateArbitrator (arbitrator : Address)
  | openArbitration (disputeId : ℕ)
  | voteOnDispute (arbitrationId : ℕ) (voter : Address) (voteForOwner : Bool)
  | finalizeArbitration (arbitrationId : ℕ)
  | delegateCommitmentAuthority (rootOwner delegator delegateAddress : Address)
  | revokeDelegation (owner delegateAddress : Address)
  | upgrade (newWasmHash : BytesN 32)

def exec (env : Env) : Call → RegistryTx Unit
  | .commitIp owner hash difficulty => (commitIp env owner hash difficulty).void
  | .batchCommitIp owner hashes => (batchCommitIp env owner hashes).void
  | .batchCommitIpAnonymous blindedOwner hashes =>
      (batchCommitIpAnonymous env blindedOwner hashes).void
  | .commitIpDelegated owner hash difficulty => (commitIpDelegated env owner hash difficulty).void
  | .createIpVersion parentIpId hash => (createIpVersion env parentIpId hash).void
  | .commitIpVersion owner hash parentIpId => (commitIpVersion env owner hash parentIpId).void
  | .rotateCommitmentKey ipId hash oldSecret oldBlindingFactor =>
      rotateCommitmentKey env ipId hash oldSecret oldBlindingFactor
  | .transferIp ipId newOwner => transferIp env ipId newOwner
  | .transferIpOwnership ipId newOwner => transferIpOwnership env ipId newOwner
  | .revokeIp ipId => revokeIp env ipId
  | .mergeDuplicateCommitment primaryIpId duplicateIpId =>
      mergeDuplicateCommitment env primaryIpId duplicateIpId
  | .addCoOwner ipId coOwner => addCoOwner env ipId coOwner
  | .removeCoOwner ipId coOwner => removeCoOwner env ipId coOwner
  | .setNotaryPublicKey publicKey => setNotaryPublicKey env publicKey
  | .notarizeIpTimestamp ipId signature => notarizeIpTimestamp env ipId signature
  | .requireThresholdSignatures ipId threshold signers =>
      requireThresholdSignatures ipId threshold signers
  | .addThresholdSignature ipId signer signatureHash =>
      addThresholdSignature env ipId signer signatureHash
  | .setBatchMetadata ipId batchId description => setBatchMetadata env ipId batchId description
  | .setCommitmentCompression ipId algorithm => setCommitmentCompression ipId algorithm
  | .encryptCommitment ipId encryptedHash keyHint =>
      encryptCommitment env ipId encryptedHash keyHint
  | .revealPartial ipId partialHash blindingFactor =>
      (revealPartial env ipId partialHash blindingFactor).void
  | .grantLicense ipId licensee termsHash => grantLicense env ipId licensee termsHash
  | .revokeLicense ipId licensee => revokeLicense env ipId licensee
  | .setIpSuggestedPrice ipId price => setIpSuggestedPrice env ipId price
  | .grantIpAccess ipId grantee accessLevel => grantIpAccess env ipId grantee accessLevel
  | .revokeIpAccess ipId grantee => revokeIpAccess env ipId grantee
  | .checkExpirationWarning ipId threshold => (checkExpirationWarning env ipId threshold).void
  | .renewIp ipId => renewIp env ipId
  | .assignIpToCategory ipId categoryHash => assignIpToCategory env ipId categoryHash
  | .issueOwnershipChallenge ipId challenger nonce =>
      (issueOwnershipChallenge env ipId challenger nonce).void
  | .respondToOwnershipChallenge challengeId responseHash =>
      respondToOwnershipChallenge env challengeId responseHash
  | .verifyOwnershipChallenge challengeId => (verifyOwnershipChallenge env challengeId).void
  | .initiateDispute ipId challenger evidenceHash =>
      (initiateDispute env ipId challenger evidenceHash).void
  | .submitDisputeEvidence disputeId submitter evidenceHash =>
      submitDisputeEvidence env disputeId submitter evidenceHash
  | .resolveDispute disputeId winner => resolveDispute env disputeId winner
  | .stakeCommitment ipId amount => stakeCommitment env ipId amount
  | .slashStake ipId => slashStake env ipId
  | .unstake ipId => unstake env ipId
  | .updateReputation owner scoreDelta => updateReputation env owner scoreDelta
  | .nominateArbitrator arbitrator => nominateArbitrator env arbitrator
  | .openArbitration disputeId => (openArbitration env disputeId).void
  | .voteOnDispute arbitrationId voter voteForOwner =>
      voteOnDispute env arbitrationId voter voteForOwner
  | .finalizeArbitration arbitrationId => finalizeArbitration env arbitrationId
  | .delegateCommitmentAuthority rootOwner delegator delegateAddress =>
      delegateCommitmentAuthority env rootOwner delegator delegateAddress
  | .revokeDelegation owner delegateAddress => revokeDelegation env owner delegateAddress
  | .upgrade newWasmHash => upgrade env newWasmHash

structure Act where
  timestamp : ℕ
  auths : List Address
  budget : ℕ
  call : Call

def Act.env (crypto : Crypto) (act : Act) : Env := ⟨crypto, act.timestamp, act.auths, act.budget⟩

def ActStep (crypto : Crypto) (s : State) (act : Act) (s' : State) : Prop :=
  exec (act.env crypto) act.call s = .ok ((), s')

def Call.submits : Call → List (BytesN 32)
  | .commitIp _ hash _ | .commitIpDelegated _ hash _ | .createIpVersion _ hash
  | .commitIpVersion _ hash _ | .rotateCommitmentKey _ hash _ _ => [hash]
  | .batchCommitIp _ hashes | .batchCommitIpAnonymous _ hashes => hashes
  | _ => []

/-- Ledger time never runs back; the newest call comes first. -/
def Chronological (tr : List (Act × State)) : Prop :=
  tr.Pairwise fun later earlier => earlier.1.timestamp ≤ later.1.timestamp

namespace Scenario

/-! An inventor, a rival and two designs. -/

def inventor : Address := .account 1

def rival : Address := .account 2

def secret : BytesN 32 := .fill 32 7

/-- SHA-256 of 64 bytes 7, which `secret` opens with itself for a blinding factor. -/
def design : BytesN 32 :=
  ⟨[108, 254, 235, 58, 162, 93, 63, 65, 29, 174, 94, 236, 23, 215, 54, 156, 167, 21, 62, 114,
    220, 245, 75, 207, 76, 61, 174, 192, 245, 178, 31, 199], rfl⟩

def laterDesign : BytesN 32 := .fill 32 1

def crypto : Crypto where
  sha256 data := if data = secret.bytes ++ secret.bytes then design else .zero 32
  ed25519Verify _ _ _ := false

def act (timestamp : ℕ) (owner : Address) (call : Call) : Act where
  timestamp := timestamp
  auths := [owner]
  budget := 10
  call := call

def perform (a : Act) : RegistryTx Unit := exec (a.env crypto) a.call

theorem played (s₀ : State) (acts : List Act) (seen : State → Bool)
    (h : endsIn perform acts s₀ seen = true) : ∃ tr s, Run (ActStep crypto) s₀ tr s ∧
      tr.map Prod.fst = acts.reverse ∧ seen s = true :=
  endsIn_run h fun _ _ _ _ hexec => hexec

end Scenario

end AtomicIp.IpRegistry
