import AtomicIp.Registry.Commitments

set_option autoImplicit false

namespace AtomicIp.IpRegistry

open Function

def requireDispute (disputeId : ℕ) : RegistryTx DisputeRecord := do
  let dispute ← Tx.load fun s => s.ipDisputes disputeId
  orFail dispute .disputeNotFound

def DisputeRecord.resolve (dispute : DisputeRecord) (winner : Address) : DisputeRecord :=
  { dispute with resolved := true, winner := some winner }

def initiateDispute (env : Env) (ipId : ℕ) (challenger : Address) (evidenceHash : BytesN 32) :
    RegistryTx ℕ := do
  requireAuth env.auths challenger
  let _ ← requireIpExists ipId
  let disputeId ← Tx.load fun s => s.nextDisputeId.getD 1
  Tx.store fun s => s.setIpDisputes disputeId
    (some ⟨disputeId, ipId, challenger, evidenceHash, env.timestamp, false, none⟩)
  let next ← u64 (disputeId + 1)
  Tx.store fun s => s.setNextDisputeId (some next)
  publish "dispute" (.disputeInitiated challenger disputeId ipId)
  pure disputeId

def submitDisputeEvidence (env : Env) (disputeId : ℕ) (submitter : Address)
    (evidenceHash : BytesN 32) : RegistryTx Unit := do
  requireAuth env.auths submitter
  let dispute ← requireDispute disputeId
  require (dispute.resolved = false) .disputeAlreadyResolved
  let record ← requireIpExists dispute.ipId
  require (submitter = record.owner ∨ submitter = dispute.challenger) .unauthorized
  Tx.store fun s => s.setIpDisputes disputeId (some { dispute with evidenceHash })
  publish "disp_ev" (.disputeEvidence submitter disputeId)

/-- The verdict is recorded; the owner of the IP stays the owner. -/
def resolveDispute (env : Env) (disputeId : ℕ) (winner : Address) : RegistryTx Unit := do
  let _ ← requireStoredAdmin env .unauthorized
  let dispute ← requireDispute disputeId
  require (dispute.resolved = false) .disputeAlreadyResolved
  Tx.store fun s => s.setIpDisputes disputeId (some (dispute.resolve winner))
  publish "disp_res" (.disputeResolved winner disputeId dispute.ipId)

def stakeCommitment (env : Env) (ipId : ℕ) (amount : ℤ) : RegistryTx Unit := do
  let record ← requireIpExists ipId
  requireAuth env.auths record.owner
  let staked ← Tx.load fun s => s.ipStake ipId
  require (staked = none) .alreadyStaked
  Tx.store fun s => s.setIpStake ipId (some ⟨ipId, record.owner, amount, false⟩)
  publish "staked" (.staked record.owner ipId amount)

def requireStake (ipId : ℕ) : RegistryTx StakeRecord := do
  let stake ← Tx.load fun s => s.ipStake ipId
  orFail stake .stakeNotFound

def saturatingI64 (x : ℤ) : ℤ := saturate (-2 ^ 63) (2 ^ 63 - 1) x

def reputationOf (owner : Address) : RegistryTx ReputationRecord :=
  Tx.load fun s => (s.ownerReputation owner).getD ⟨owner, 0, 0, 0⟩

def slashStake (env : Env) (ipId : ℕ) : RegistryTx Unit := do
  let _ ← requireStoredAdmin env .unauthorized
  let stake ← requireStake ipId
  require (stake.slashed = false) .stakeAlreadySlashed
  Tx.store fun s => s.setIpStake ipId (some { stake with slashed := true })
  let reputation ← reputationOf stake.owner
  let disputesLost ← u64 (reputation.disputesLost + 1)
  Tx.store fun s => s.setOwnerReputation stake.owner
    (some { reputation with score := saturatingI64 (reputation.score - 10), disputesLost })
  publish "slashed" (.slashed stake.owner ipId)

def unstake (env : Env) (ipId : ℕ) : RegistryTx Unit := do
  let stake ← requireStake ipId
  requireAuth env.auths stake.owner
  require (stake.slashed = false) .stakeAlreadySlashed
  Tx.store fun s => s.setIpStake ipId none
  publish "unstaked" (.unstaked stake.owner ipId)

def updateReputation (env : Env) (owner : Address) (scoreDelta : ℤ) : RegistryTx Unit := do
  let _ ← requireStoredAdmin env .unauthorized
  let reputation ← reputationOf owner
  Tx.store fun s => s.setOwnerReputation owner
    (some { reputation with score := saturatingI64 (reputation.score + scoreDelta) })

def nominateArbitrator (env : Env) (arbitrator : Address) : RegistryTx Unit := do
  let admin ← requireStoredAdmin env .unauthorized
  let pool ← Tx.load fun s => s.arbitratorPool.getD []
  Tx.onlyIf (arbitrator ∉ pool) do
    Tx.store fun s => s.setArbitratorPool (some (pool ++ [arbitrator]))
    publish "arb_nom" (.arbitratorNominated admin arbitrator)

def openArbitration (env : Env) (disputeId : ℕ) : RegistryTx ℕ := do
  let _ ← requireStoredAdmin env .unauthorized
  let _ ← requireDispute disputeId
  let arbitrationId ← Tx.load fun s => s.nextArbitrationId.getD 1
  let pool ← Tx.load fun s => s.arbitratorPool.getD []
  Tx.store fun s => s.setArbitrationCase arbitrationId
    (some ⟨arbitrationId, disputeId, pool, 0, 0, false, none⟩)
  let next ← u64 (arbitrationId + 1)
  Tx.store fun s => s.setNextArbitrationId (some next)
  pure arbitrationId

def requireOpenCase (arbitrationId : ℕ) : RegistryTx ArbitrationRecord := do
  let stored ← Tx.load fun s => s.arbitrationCase arbitrationId
  let case ← orFail stored .arbitrationNotFound
  require (case.finalized = false) .arbitrationAlreadyFinalized
  pure case

def voteOnDispute (env : Env) (arbitrationId : ℕ) (voter : Address) (voteForOwner : Bool) :
    RegistryTx Unit := do
  requireAuth env.auths voter
  let case ← requireOpenCase arbitrationId
  require (voter ∈ case.arbitrators) .notAnArbitrator
  let votesOwner ← if voteForOwner then u32 (case.votesOwner + 1) else pure case.votesOwner
  let votesChallenger ←
    if voteForOwner then pure case.votesChallenger else u32 (case.votesChallenger + 1)
  Tx.store fun s => s.setArbitrationCase arbitrationId
    (some { case with votesOwner, votesChallenger })
  publish "arb_vote" (.arbitrationVote voter arbitrationId voteForOwner)

/-- A tie goes to the owner of the IP. -/
def finalizeArbitration (env : Env) (arbitrationId : ℕ) : RegistryTx Unit := do
  let _ ← requireStoredAdmin env .unauthorized
  let case ← requireOpenCase arbitrationId
  let dispute ← requireDispute case.disputeId
  let record ← requireIpExists dispute.ipId
  let winner := if case.votesOwner < case.votesChallenger then dispute.challenger else record.owner
  Tx.store fun s => s.setArbitrationCase arbitrationId
    (some { case with finalized := true, winner := some winner })
  Tx.store fun s => s.setIpDisputes case.disputeId (some (dispute.resolve winner))
  publish "arb_fin" (.arbitrationFinalized winner arbitrationId)

section Delegation

/-- The depth of a delegate of the delegator: zero under the root owner himself. -/
def delegationDepth (rootOwner delegator : Address) : RegistryTx ℕ :=
  if delegator = rootOwner then pure 0
  else do
    let stored ← Tx.load fun s => s.delegateDepth delegator
    let depth ← orFail stored .unauthorized
    u32 (depth + 1)

def delegateCommitmentAuthority (env : Env) (rootOwner delegator delegateAddress : Address) :
    RegistryTx Unit := do
  requireAuth env.auths delegator
  let newDepth ← delegationDepth rootOwner delegator
  require (newDepth < maxDelegationDepth) .unauthorized
  let delegates ← Tx.load fun s => (s.delegates rootOwner).getD []
  Tx.onlyIf (delegateAddress ∉ delegates.map DelegationRecord.delegate) do
    Tx.store fun s => s.setDelegates rootOwner (some (delegates ++ [⟨delegateAddress, newDepth⟩]))
    Tx.store fun s => s.setDelegateDepth delegateAddress (some newDepth)
    publish "delegated" (.delegated rootOwner delegateAddress newDepth)

def revokeDelegation (env : Env) (owner delegateAddress : Address) : RegistryTx Unit := do
  requireAuth env.auths owner
  Tx.store fun s => s.setDelegates owner
    (some (((s.delegates owner).getD []).filter fun entry => entry.delegate ≠ delegateAddress))
  Tx.store fun s => s.setDelegateDepth delegateAddress none
  publish "revoke" (.delegationRevoked owner delegateAddress)

/-- Look the candidate up in the list of the root and, while hops are left, in the lists of
the delegates found there. -/
def isDelegateInChain (delegates : Address → Option (List DelegationRecord)) :
    ℕ → Address → Address → Bool
  | 0, _, _ => false
  | hops + 1, root, candidate => ((delegates root).getD []).any fun entry =>
      decide (entry.delegate = candidate) ||
        isDelegateInChain delegates hops entry.delegate candidate

def isDelegate (owner delegateAddress : Address) (s : State) : Bool :=
  isDelegateInChain s.delegates maxDelegationDepth owner delegateAddress

end Delegation

/-- The host replaces the code; the storage stays. The source publishes nothing here, the event
stands for the one of the host. -/
def upgrade (env : Env) (newWasmHash : BytesN 32) : RegistryTx Unit := do
  let stored ← Tx.load fun s => s.admin
  let admin ← orFail stored .unauthorizedUpgrade
  require (currentContractAddress = admin) .unauthorizedUpgrade
  requireAuth env.auths admin
  publish "wasm" (.wasmUpdated newWasmHash)

end AtomicIp.IpRegistry
