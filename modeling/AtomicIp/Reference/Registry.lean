import AtomicIp.Host
import Mathlib.Logic.Function.Basic

/-!
The reference implementation of the registry (`tests/reference_impl.py`), which the contracts
are tested against. A method that raises keeps what it has written before.
-/

set_option autoImplicit false

namespace AtomicIp.Reference

open Function

/-- What is raised, under the text it is raised with. -/
inductive Raised where
  | zeroCommitmentHash | commitmentAlreadyRegistered | ipAlreadyRevoked
  | ipNotFound (ipId : ℕ)
  | priceMustBeGreaterThanZero | sellerIsNotTheIPOwner | ipIsRevoked
  | activeSwapAlreadyExistsForThisIpId
  | swapNotPending | swapNotAccepted | onlyTheSellerCanRevealTheKey | invalidKey
  | onlyTheSellerOrBuyerCanCancel | cannotCancelInCurrentState
  | swapNotFound (swapId : ℕ)
  | keyError (ipId : ℕ)
  deriving DecidableEq, Repr

abbrev Outcome (σ α : Type) := Except Raised α × σ

def commitmentHash (sha256 : Bytes → BytesN 32) (secret blindingFactor : BytesN 32) : BytesN 32 :=
  sha256 (secret.bytes ++ blindingFactor.bytes)

def verifyCommitment (sha256 : Bytes → BytesN 32) (storedHash secret blindingFactor : BytesN 32) :
    Bool :=
  decide (commitmentHash sha256 secret blindingFactor = storedHash)

structure IpRecord where
  ipId : ℕ
  owner : Address
  commitmentHash : BytesN 32
  timestamp : ℕ
  revoked : Bool
  deriving DecidableEq

structure IpRegistry where
  records : ℕ → Option IpRecord
  ownerIndex : Address → Option (List ℕ)
  commitmentIndex : BytesN 32 → Option Address
  nextId : ℕ

namespace IpRegistry

def empty : IpRegistry where
  records _ := none
  ownerIndex _ := none
  commitmentIndex _ := none
  nextId := 1

variable (self : IpRegistry)

def commitIp (owner : Address) (hashBytes : BytesN 32) (timestamp : ℕ) : Outcome IpRegistry ℕ :=
  if hashBytes = .zero 32 then (.error .zeroCommitmentHash, self)
  else if (self.commitmentIndex hashBytes).isSome then (.error .commitmentAlreadyRegistered, self)
  else
    let ipId := self.nextId
    (.ok ipId,
      { records := update self.records ipId (some ⟨ipId, owner, hashBytes, timestamp, false⟩)
        commitmentIndex := update self.commitmentIndex hashBytes (some owner)
        ownerIndex := update self.ownerIndex owner
          (some ((self.ownerIndex owner).getD [] ++ [ipId]))
        nextId := ipId + 1 })

def getIp (ipId : ℕ) : Except Raised IpRecord :=
  match self.records ipId with
  | some record => .ok record
  | none => .error (.ipNotFound ipId)

def revokeIp (ipId : ℕ) : Outcome IpRegistry Unit :=
  match self.getIp ipId with
  | .error e => (.error e, self)
  | .ok record =>
    if record.revoked then (.error .ipAlreadyRevoked, self)
    else (.ok (), { self with
      records := update self.records ipId (some { record with revoked := true }) })

def listIpByOwner (owner : Address) : List ℕ := (self.ownerIndex owner).getD []

def verifyCommitment (sha256 : Bytes → BytesN 32) (ipId : ℕ) (secret blindingFactor : BytesN 32) :
    Except Raised Bool :=
  match self.getIp ipId with
  | .error e => .error e
  | .ok record =>
    .ok (Reference.verifyCommitment sha256 record.commitmentHash secret blindingFactor)

end IpRegistry

inductive RegistryCall where
  | commitIp (owner : Address) (hashBytes : BytesN 32) (timestamp : ℕ)
  | revokeIp (ipId : ℕ)
  deriving DecidableEq

def RegistryCall.perform : RegistryCall → IpRegistry → Outcome IpRegistry Unit
  | .commitIp owner hashBytes timestamp, self =>
    let (answer, self') := self.commitIp owner hashBytes timestamp
    (answer.map fun _ => (), self')
  | .revokeIp ipId, self => self.revokeIp ipId

def performAll : List RegistryCall → IpRegistry → Outcome IpRegistry Unit
  | [], self => (.ok (), self)
  | call :: calls, self =>
    match call.perform self with
    | (.ok (), self') => performAll calls self'
    | (.error e, self') => (.error e, self')

def RegistryStep (r : IpRegistry) (call : RegistryCall) (r' : IpRegistry) : Prop :=
  call.perform r = (.ok (), r')

end AtomicIp.Reference
