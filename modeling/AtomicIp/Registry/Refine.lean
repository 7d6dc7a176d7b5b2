import AtomicIp.Registry.Contract
import AtomicIp.Registry.Ledger

set_option autoImplicit false

namespace AtomicIp.IpRegistry

open Function

def Call.yields : Call → Move → Prop
  | .commitIp owner hash _ | .commitIpDelegated owner hash _ => fun m =>
      ∃ r, m = .registered r ∧ r.commitmentHash = hash ∧ r.owner = owner ∧ r.parentIpId = none
  | .batchCommitIp owner hashes => fun m =>
      ∃ r, m = .registered r ∧ r.commitmentHash ∈ hashes ∧ r.owner = owner ∧ r.parentIpId = none
  | .batchCommitIpAnonymous _ hashes => fun m =>
      ∃ r, m = .registered r ∧ r.commitmentHash ∈ hashes ∧ r.owner = currentContractAddress ∧
        r.parentIpId = none
  | .createIpVersion parent hash | .commitIpVersion _ hash parent => fun m =>
      ∃ r, m = .registered r ∧ r.commitmentHash = hash ∧ r.parentIpId = some parent
  | .rotateCommitmentKey ipId hash _ _ => (· = .rotated ipId hash)
  | .transferIp ipId owner | .transferIpOwnership ipId owner => (· = .transferred ipId owner)
  | .revokeIp ipId | .addCoOwner ipId _ | .removeCoOwner ipId _ | .notarizeIpTimestamp ipId _ =>
      (· = .revised ipId)
  | .mergeDuplicateCommitment primary duplicate => fun m =>
      m = .revised primary ∨ m = .revised duplicate
  | _ => fun _ => False

variable {env : Env} {s s' : State} {u : Unit} {id ipId : ℕ} {owner : Address}
  {commitmentHash : BytesN 32} {r : IpRecord}

section Guards

@[simp] theorem requireIpExists_ok :
    requireIpExists ipId s = .ok (r, s') ↔ s.ledger.ipRecord ipId = some r ∧ s' = s := by
  simp [requireIpExists]

@[simp] theorem requireNonZeroCommitment_ok :
    requireNonZeroCommitment commitmentHash s = .ok (u, s') ↔
      commitmentHash ≠ .zero 32 ∧ s' = s := require_ok

@[simp] theorem requireUniqueCommitment_ok :
    requireUniqueCommitment commitmentHash s = .ok (u, s') ↔
      s.ledger.commitmentOwner commitmentHash = none ∧ s' = s := by
  simp [requireUniqueCommitment]

@[simp] theorem requireNotRevoked_ok :
    requireNotRevoked r s = .ok (u, s') ↔ r.revoked = false ∧ s' = s := require_ok

@[simp] theorem leadingZeros_zero {bytes : Bytes} : leadingZeros bytes 0 = true := by
  cases bytes <;> simp [leadingZeros]

theorem checkedMask_eq {bits : ℕ} (hpos : 0 < bits) (hle : bits ≤ 8) :
    checkedMask bits s = .ok (leadingMask bits, s) := by
  have hshift : 8 - bits < 8 := by omega
  simp only [checkedMask, checked, if_pos hle, if_pos hshift, pure_bind]
  rfl

theorem meetsPow_eq {bytes : Bytes} {difficulty : ℕ} :
    meetsPow bytes difficulty s = .ok (leadingZeros bytes difficulty, s) := by
  induction bytes generalizing difficulty with
  | nil => rfl
  | cons byte rest ih =>
    by_cases hzero : difficulty = 0
    · rw [hzero, leadingZeros_zero]
      rfl
    · have hbits : (if 8 ≤ difficulty then 8 else difficulty) = min 8 difficulty := by
        split <;> omega
      rw [meetsPow, leadingZeros, if_neg hzero, if_neg hzero, hbits,
        Tx.bind_of_ok (checkedMask_eq (by omega) (by omega))]
      by_cases hbyte : byte &&& leadingMask (min 8 difficulty) ≠ 0
      · rw [if_pos hbyte, if_pos hbyte]
        rfl
      · rw [if_neg hbyte, if_neg hbyte]
        exact ih

@[simp] theorem requirePow_ok {difficulty : ℕ} :
    requirePow commitmentHash difficulty s = .ok (u, s') ↔
      leadingZeros commitmentHash.bytes difficulty = true ∧ s' = s := by
  rw [requirePow, Tx.onlyIf_ok, Tx.bind_of_ok meetsPow_eq, require_ok]
  by_cases hzero : difficulty = 0
  · simp [hzero]
  · simp [hzero]

@[simp] theorem nextIpId_ok : nextIpId s = .ok (id, s') ↔ id = s.ledger.count ∧ s' = s :=
  Tx.load_ok

@[simp] theorem advanceId_ok :
    advanceId id s = .ok (u, s') ↔ id + 1 < 2 ^ 64 ∧ s' = s.setNextId (some (id + 1)) := by
  simp [advanceId]

@[simp] theorem saveIp_ok : saveIp ipId r s = .ok (u, s') ↔ s' = s.setIpRecord ipId (some r) :=
  Tx.store_ok

@[simp] theorem indexCommitment_ok : indexCommitment commitmentHash owner s = .ok (u, s') ↔
    s' = s.setCommitmentOwner commitmentHash (some owner) := Tx.store_ok

@[simp] theorem requireStoredAdmin_ok {error : ContractError} {admin : Address} :
    requireStoredAdmin env error s = .ok (admin, s') ↔
      (s.admin = some admin ∧ admin ∈ env.auths) ∧ s' = s := by
  rw [requireStoredAdmin, Tx.load_bind_ok]
  simp only [Tx.bind_ok, orFail_ok, requireAuth_ok, Tx.pure_ok]
  constructor
  · rintro ⟨_, _, ⟨hadmin, rfl⟩, _, _, ⟨hauth, rfl⟩, rfl, rfl⟩
    exact ⟨⟨hadmin, hauth⟩, rfl⟩
  · rintro ⟨⟨hadmin, hauth⟩, rfl⟩
    exact ⟨admin, _, ⟨hadmin, rfl⟩, (), _, ⟨hauth, rfl⟩, rfl, rfl⟩

@[simp] theorem requireChallenge_ok {challenge : OwnershipChallenge} :
    requireChallenge id s = .ok (challenge, s') ↔
      s.ownershipChallenge id = some challenge ∧ s' = s := by
  simp [requireChallenge]

@[simp] theorem requireDispute_ok {dispute : DisputeRecord} :
    requireDispute id s = .ok (dispute, s') ↔ s.ipDisputes id = some dispute ∧ s' = s := by
  simp [requireDispute]

@[simp] theorem requireStake_ok {stake : StakeRecord} :
    requireStake ipId s = .ok (stake, s') ↔ s.ipStake ipId = some stake ∧ s' = s := by
  simp [requireStake]

@[simp] theorem reputationOf_ok {reputation : ReputationRecord} :
    reputationOf owner s = .ok (reputation, s') ↔
      reputation = (s.ownerReputation owner).getD ⟨owner, 0, 0, 0⟩ ∧ s' = s := Tx.load_ok

@[simp] theorem requireOpenCase_ok {case : ArbitrationRecord} :
    requireOpenCase id s = .ok (case, s') ↔
      (s.arbitrationCase id = some case ∧ case.finalized = false) ∧ s' = s := by
  rw [requireOpenCase, Tx.load_bind_ok]
  simp only [Tx.bind_ok, orFail_ok, require_ok, Tx.pure_ok]
  constructor
  · rintro ⟨_, _, ⟨hcase, rfl⟩, _, _, ⟨hopen, rfl⟩, rfl, rfl⟩
    exact ⟨⟨hcase, hopen⟩, rfl⟩
  · rintro ⟨⟨hcase, hopen⟩, rfl⟩
    exact ⟨case, _, ⟨hcase, rfl⟩, (), _, ⟨hopen, rfl⟩, rfl, rfl⟩

end Guards

section Frames

theorem initAdmin_ledger (h : initAdmin s = .ok (u, s')) : s'.ledger = s.ledger := by
  rw [Tx.store_ok.mp h]
  rfl

theorem appendOwnerIp_ledger (h : appendOwnerIp owner ipId s = .ok (u, s')) :
    s'.ledger = s.ledger := by
  rw [Tx.store_ok.mp h]
  rfl

theorem removeOwnerIp_ledger (h : removeOwnerIp owner ipId s = .ok (u, s')) :
    s'.ledger = s.ledger := by
  rw [Tx.store_ok.mp h]
  rfl

theorem appendAuditEntry_ledger {action : String} {actor : Address}
    (h : appendAuditEntry env ipId action actor s = .ok (u, s')) : s'.ledger = s.ledger := by
  rw [Tx.store_ok.mp h]
  rfl

theorem assignToShard_ledger (h : assignToShard ipId commitmentHash s = .ok (u, s')) :
    s'.ledger = s.ledger := by
  rw [Tx.store_ok.mp h]
  rfl

theorem storeCompressedCommitment_ledger
    (h : storeCompressedCommitment ipId commitmentHash s = .ok (u, s')) :
    s'.ledger = s.ledger := by
  rw [Tx.store_ok.mp h]
  rfl

theorem appendVersion_ledger {parentIpId : ℕ} (h : appendVersion parentIpId ipId s = .ok (u, s')) :
    s'.ledger = s.ledger := by
  rw [Tx.store_ok.mp h]
  rfl

theorem appendToChain_ledger {rootId : ℕ} (h : appendToChain rootId ipId s = .ok (u, s')) :
    s'.ledger = s.ledger := by
  rw [Tx.store_ok.mp h]
  rfl

theorem updateCommitmentChecksum_ledger (h : updateCommitmentChecksum env s = .ok (u, s')) :
    s'.ledger = s.ledger := by
  simp only [updateCommitmentChecksum, Tx.bind_ok, nextIpId_ok, Tx.onlyIf_ok, Tx.load_ok] at h
  obtain ⟨_, _, ⟨rfl, rfl⟩, ⟨-, h⟩ | ⟨-, rfl⟩⟩ := h
  · obtain ⟨lastRecord, _, ⟨-, rfl⟩, h⟩ := h
    cases lastRecord with
    | none =>
      rw [(Tx.pure_ok.mp h).2]
    | some record =>
      simp only [Tx.load_bind_ok, Tx.store_bind_ok, Tx.store_ok] at h
      rw [h]
      rfl
  · rfl

theorem requireAcyclic_state {budget : ℕ} {visited : List ℕ} {current : ℕ}
    (h : requireAcyclic budget visited current s = .ok (u, s')) : s' = s := by
  induction budget generalizing visited current s with
  | zero => simp [requireAcyclic] at h
  | succ budget ih =>
    simp only [requireAcyclic, Tx.bind_ok, require_ok, Tx.load_ok] at h
    obtain ⟨_, _, ⟨-, rfl⟩, record, _, ⟨-, rfl⟩, h⟩ := h
    cases hparent : record.bind IpRecord.parentIpId with
    | none =>
      simp only [hparent, Tx.pure_ok] at h
      exact h.2
    | some parent =>
      simp only [hparent] at h
      exact ih h

theorem findRoot_state {budget current root : ℕ}
    (h : findRoot budget current s = .ok (root, s')) : s' = s := by
  induction budget generalizing current s with
  | zero => simp [findRoot] at h
  | succ budget ih =>
    simp only [findRoot, Tx.bind_ok, Tx.load_ok] at h
    obtain ⟨record, _, ⟨-, rfl⟩, h⟩ := h
    cases hparent : record.bind IpRecord.parentIpId with
    | none =>
      simp only [hparent, Tx.pure_ok] at h
      exact h.2
    | some parent =>
      simp only [hparent] at h
      exact ih h

end Frames

section Creation

structure Enrolls (env : Env) (owner : Address) (commitmentHash : BytesN 32) (parent : Option ℕ)
    (c c' : Ledger) : Prop where
  zero : commitmentHash ≠ .zero 32
  free : c.commitmentOwner commitmentHash = none
  auth : owner ∈ env.auths ∨ owner = currentContractAddress ∧ parent = none
  parented : ∀ p, parent = some p → ∃ r, c.ipRecord p = some r ∧ r.owner = owner
  ledger : c' = c.enroll (newRecord c.count owner commitmentHash env.timestamp parent)

theorem Enrolls.moves {c c' : Ledger} {call : Call} {parent : Option ℕ}
    (h : Enrolls env owner commitmentHash parent c c')
    (hyields : call.yields
      (.registered (newRecord c.count owner commitmentHash env.timestamp parent))) :
    Emits (Step env) call.yields c c' := by
  rw [h.ledger]
  exact .single (.registered h.zero h.free h.auth h.parented) hyields

theorem Ledger.index_twice (c : Ledger) (owner : Option Address) (next : Option ℕ) :
    ((c.setCommitmentOwner commitmentHash owner).setNextId next).setCommitmentOwner
      commitmentHash owner = (c.setCommitmentOwner commitmentHash owner).setNextId next := by
  simp [Ledger.setCommitmentOwner, Ledger.setNextId]

theorem commitIp_enrolls {powDifficulty : ℕ}
    (h : commitIp env owner commitmentHash powDifficulty s = .ok (id, s')) :
    Enrolls env owner commitmentHash none s.ledger s'.ledger := by
  simp [commitIp] at h
  obtain ⟨hauth, s₁, hadmin, hzero, hfree, -, s₂, howner, -, s₃, haudit, s₄, hshard, s₅,
    hcompress, ⟨_, hchecksum⟩, rfl⟩ := h
  have hfinal := updateCommitmentChecksum_ledger hchecksum
  rw [storeCompressedCommitment_ledger hcompress, assignToShard_ledger hshard,
    appendAuditEntry_ledger haudit] at hfinal
  have hrecord := appendOwnerIp_ledger howner
  simp only [State.ledger_published, State.ledger_setCommitmentOwner, State.ledger_setNextId,
    State.ledger_setIpPowDifficulty, State.ledger_setIpRecord] at hfinal hrecord
  rw [← initAdmin_ledger hadmin]
  refine ⟨hzero, hfree, .inl hauth, by simp, ?_⟩
  rw [hfinal, hrecord, Ledger.index_twice]
  rfl

theorem commitIp_moves {powDifficulty : ℕ}
    (h : commitIp env owner commitmentHash powDifficulty s = .ok (id, s')) :
    Emits (Step env) (Call.commitIp owner commitmentHash powDifficulty).yields
      s.ledger s'.ledger :=
  (commitIp_enrolls h).moves ⟨_, rfl, rfl, rfl, rfl⟩

theorem commitOne_enrolls (hauth : owner ∈ env.auths)
    (h : commitOne env owner commitmentHash s = .ok (id, s')) :
    Enrolls env owner commitmentHash none s.ledger s'.ledger := by
  simp [commitOne] at h
  obtain ⟨hzero, hfree, s₁, howner, ⟨-, rfl⟩, rfl⟩ := h
  have hrecord := appendOwnerIp_ledger howner
  refine ⟨hzero, hfree, .inl hauth, by simp, ?_⟩
  simp only [State.ledger_published, State.ledger_setCommitmentOwner, State.ledger_setNextId,
    State.ledger_setIpRecord] at hrecord ⊢
  rw [hrecord]
  rfl

theorem commitOne_moves {hashes : List (BytesN 32)} (hauth : owner ∈ env.auths)
    (hmem : commitmentHash ∈ hashes) (h : commitOne env owner commitmentHash s = .ok (id, s')) :
    Emits (Step env) (Call.batchCommitIp owner hashes).yields s.ledger s'.ledger :=
  (commitOne_enrolls hauth h).moves ⟨_, rfl, hmem, rfl, rfl⟩

theorem batchCommitIp_moves {hashes : List (BytesN 32)} {ids : List ℕ}
    (h : batchCommitIp env owner hashes s = .ok (ids, s')) :
    Emits (Step env) (Call.batchCommitIp owner hashes).yields s.ledger s'.ledger := by
  simp [batchCommitIp] at h
  obtain ⟨hauth, s₁, hadmin, s₂, hloop, _, hchecksum⟩ := h
  rw [← initAdmin_ledger hadmin, updateCommitmentChecksum_ledger hchecksum]
  have hbody : ∀ hash ∈ hashes, ∀ s b s', commitOne env owner hash s = .ok (b, s') →
      Emits (Step env) (Call.batchCommitIp owner hashes).yields s.ledger s'.ledger :=
    fun _ hmem _ _ _ => commitOne_moves hauth hmem
  exact Tx.forEach_rel (fun s => .refl s.ledger) .trans hbody hloop

theorem commitOneAnonymous_enrolls {blindedOwner : BytesN 32}
    (h : commitOneAnonymous env blindedOwner commitmentHash s = .ok (id, s')) :
    Enrolls env currentContractAddress commitmentHash none s.ledger s'.ledger := by
  simp [commitOneAnonymous] at h
  obtain ⟨hzero, hfree, ⟨-, rfl⟩, rfl⟩ := h
  exact ⟨hzero, hfree, .inr ⟨rfl, rfl⟩, by simp, rfl⟩

theorem commitOneAnonymous_moves {blindedOwner : BytesN 32} {hashes : List (BytesN 32)}
    (hmem : commitmentHash ∈ hashes)
    (h : commitOneAnonymous env blindedOwner commitmentHash s = .ok (id, s')) :
    Emits (Step env) (Call.batchCommitIpAnonymous blindedOwner hashes).yields
      s.ledger s'.ledger :=
  (commitOneAnonymous_enrolls h).moves ⟨_, rfl, hmem, rfl, rfl⟩

theorem batchCommitIpAnonymous_moves {blindedOwner : BytesN 32} {hashes : List (BytesN 32)}
    {ids : List ℕ} (h : batchCommitIpAnonymous env blindedOwner hashes s = .ok (ids, s')) :
    Emits (Step env) (Call.batchCommitIpAnonymous blindedOwner hashes).yields
      s.ledger s'.ledger := by
  simp [batchCommitIpAnonymous] at h
  obtain ⟨-, s₁, hadmin, s₂, hloop, _, hchecksum⟩ := h
  rw [← initAdmin_ledger hadmin, updateCommitmentChecksum_ledger hchecksum]
  have hbody : ∀ hash ∈ hashes, ∀ s b s', commitOneAnonymous env blindedOwner hash s = .ok (b, s') →
      Emits (Step env) (Call.batchCommitIpAnonymous blindedOwner hashes).yields
        s.ledger s'.ledger :=
    fun _ hmem _ _ _ => commitOneAnonymous_moves hmem
  exact Tx.forEach_rel (fun s => .refl s.ledger) .trans hbody hloop

theorem commitIpDelegated_enrolls {powDifficulty : ℕ}
    (h : commitIpDelegated env owner commitmentHash powDifficulty s = .ok (id, s')) :
    Enrolls env owner commitmentHash none s.ledger s'.ledger := by
  simp [commitIpDelegated] at h
  obtain ⟨hauth, -, hzero, hfree, -, s₁, howner, -, ⟨_, hchecksum⟩, rfl⟩ := h
  have hrecord := appendOwnerIp_ledger howner
  rw [updateCommitmentChecksum_ledger hchecksum]
  refine ⟨hzero, hfree, .inl hauth, by simp, ?_⟩
  simp only [State.ledger_published, State.ledger_setCommitmentOwner, State.ledger_setNextId,
    State.ledger_setIpRecord] at hrecord ⊢
  rw [hrecord]
  rfl

theorem commitIpDelegated_moves {powDifficulty : ℕ}
    (h : commitIpDelegated env owner commitmentHash powDifficulty s = .ok (id, s')) :
    Emits (Step env) (Call.commitIpDelegated owner commitmentHash powDifficulty).yields
      s.ledger s'.ledger :=
  (commitIpDelegated_enrolls h).moves ⟨_, rfl, rfl, rfl, rfl⟩

theorem createIpVersion_enrolls {parentIpId : ℕ}
    (h : createIpVersion env parentIpId commitmentHash s = .ok (id, s')) :
    ∃ parent, s.ledger.ipRecord parentIpId = some parent ∧
      Enrolls env parent.owner commitmentHash (some parentIpId) s.ledger s'.ledger := by
  simp [createIpVersion] at h
  obtain ⟨parent, hparent, hauth, hzero, hfree, s₁, hacyclic, s₂, howner, s₃, hversion, root,
    s₄, hroot, s₅, hchain, -, rfl, rfl⟩ := h
  obtain rfl := requireAcyclic_state hacyclic
  obtain rfl := findRoot_state hroot
  have hrecord := appendOwnerIp_ledger howner
  have hversioned := appendVersion_ledger hversion
  refine ⟨parent, hparent, hzero, hfree, .inl hauth, ?_, ?_⟩
  · rintro p ⟨⟩
    exact ⟨parent, hparent, rfl⟩
  · simp only [State.ledger_published, State.ledger_setCommitmentOwner, State.ledger_setNextId,
      State.ledger_setIpRecord] at hrecord hversioned ⊢
    rw [appendToChain_ledger hchain, hversioned, hrecord]
    rfl

theorem createIpVersion_moves {parentIpId : ℕ}
    (h : createIpVersion env parentIpId commitmentHash s = .ok (id, s')) :
    Emits (Step env) (Call.createIpVersion parentIpId commitmentHash).yields
      s.ledger s'.ledger := by
  obtain ⟨parent, -, henrolls⟩ := createIpVersion_enrolls h
  exact henrolls.moves ⟨_, rfl, rfl, rfl⟩

theorem commitIpVersion_moves {parentIpId : ℕ}
    (h : commitIpVersion env owner commitmentHash parentIpId s = .ok (id, s')) :
    Emits (Step env) (Call.commitIpVersion owner commitmentHash parentIpId).yields
      s.ledger s'.ledger := by
  rw [commitIpVersion] at h
  obtain ⟨s₁, hauth, hcreate⟩ := Tx.seq_ok.mp h
  obtain ⟨-, rfl⟩ := requireAuth_ok.mp hauth
  exact createIpVersion_moves hcreate

end Creation

section Changes

theorem transferIp_ledger {newOwner : Address}
    (h : transferIp env ipId newOwner s = .ok (u, s')) :
    ∃ r, s.ledger.ipRecord ipId = some r ∧ r.owner ∈ env.auths ∧
      s'.ledger = s.ledger.transfer ipId r newOwner := by
  simp [transferIp] at h
  obtain ⟨r, hr, hauth, s₁, hremove, s₂, happend, haudit⟩ := h
  refine ⟨r, hr, hauth, ?_⟩
  rw [appendAuditEntry_ledger haudit]
  simp only [State.ledger_published, State.ledger_setIpRecord, State.ledger_setCommitmentOwner]
  rw [appendOwnerIp_ledger happend, removeOwnerIp_ledger hremove]
  rfl

theorem transferIp_moves {newOwner : Address}
    (h : transferIp env ipId newOwner s = .ok (u, s')) :
    Emits (Step env) (Call.transferIp ipId newOwner).yields s.ledger s'.ledger := by
  obtain ⟨r, hr, hauth, hledger⟩ := transferIp_ledger h
  rw [hledger]
  exact .single (.transferred hr hauth) rfl

theorem revokeIp_moves (h : revokeIp env ipId s = .ok (u, s')) :
    Emits (Step env) (Call.revokeIp ipId).yields s.ledger s'.ledger := by
  simp [revokeIp] at h
  obtain ⟨r, hr, -, -, haudit⟩ := h
  rw [appendAuditEntry_ledger haudit]
  exact .single (.revised r.revoke hr ⟨rfl, rfl, rfl, rfl, rfl, fun _ => rfl⟩) rfl

theorem withCoOwners_revises (r : IpRecord) (coOwners : List Address) :
    Revises r (r.withCoOwners coOwners) := ⟨rfl, rfl, rfl, rfl, rfl, fun h => h⟩

theorem addCoOwner_moves {coOwner : Address} (h : addCoOwner env ipId coOwner s = .ok (u, s')) :
    Emits (Step env) (Call.addCoOwner ipId coOwner).yields s.ledger s'.ledger := by
  simp [addCoOwner] at h
  obtain ⟨r, hr, -, ⟨-, rfl⟩ | ⟨-, rfl⟩⟩ := h
  · exact .single (.revised _ hr (withCoOwners_revises r _)) rfl
  · exact .refl _

theorem removeCoOwner_moves {coOwner : Address}
    (h : removeCoOwner env ipId coOwner s = .ok (u, s')) :
    Emits (Step env) (Call.removeCoOwner ipId coOwner).yields s.ledger s'.ledger := by
  simp [removeCoOwner] at h
  obtain ⟨r, hr, -, ⟨-, rfl⟩ | ⟨-, rfl⟩⟩ := h
  · exact .single (.revised _ hr (withCoOwners_revises r _)) rfl
  · exact .refl _

theorem notarizeIpTimestamp_moves {signature : Bytes}
    (h : notarizeIpTimestamp env ipId signature s = .ok (u, s')) :
    Emits (Step env) (Call.notarizeIpTimestamp ipId signature).yields s.ledger s'.ledger := by
  simp [notarizeIpTimestamp] at h
  obtain ⟨r, hr, publicKey, -, -, -, rfl⟩ := h
  exact .single (.revised (r.notarized signature) hr ⟨rfl, rfl, rfl, rfl, rfl, fun h => h⟩) rfl

theorem mergeDuplicateCommitment_moves {primaryIpId duplicateIpId : ℕ}
    (h : mergeDuplicateCommitment env primaryIpId duplicateIpId s = .ok (u, s')) :
    Emits (Step env) (Call.mergeDuplicateCommitment primaryIpId duplicateIpId).yields
      s.ledger s'.ledger := by
  simp [mergeDuplicateCommitment, adoptCoOwner] at h
  obtain ⟨primary, hprimary, -, duplicate, hduplicate, -, s₁, hadopt, s₂, haudit, s₃, haudit',
    rfl⟩ := h
  rw [State.ledger_published, appendAuditEntry_ledger haudit', appendAuditEntry_ledger haudit]
  have hrevoke : Revises duplicate duplicate.revoke := ⟨rfl, rfl, rfl, rfl, rfl, fun _ => rfl⟩
  rcases hadopt with ⟨⟨-, howner⟩, rfl⟩ | ⟨-, rfl⟩
  · have hne : duplicateIpId ≠ primaryIpId := by
      rintro rfl
      rw [hprimary] at hduplicate
      exact howner (congrArg IpRecord.owner (Option.some.inj hduplicate)).symm
    refine (Emits.single (.revised _ hprimary (withCoOwners_revises primary _)) (.inl rfl)).trans
      (.single (.revised _ ?_ hrevoke) (.inr rfl))
    simpa [Ledger.setIpRecord, update_of_ne hne] using hduplicate
  · exact .single (.revised _ hduplicate hrevoke) (.inr rfl)

theorem rotateCommitmentKey_step {oldSecret oldBlindingFactor : BytesN 32}
    (h : rotateCommitmentKey env ipId commitmentHash oldSecret oldBlindingFactor s = .ok (u, s')) :
    Step env s.ledger (.rotated ipId commitmentHash) s'.ledger := by
  simp [rotateCommitmentKey] at h
  obtain ⟨r, hr, hauth, hlive, hopens, hzero, hfree, rfl⟩ := h
  exact .rotated hr hauth hlive ⟨_, _, hopens⟩ hzero hfree

end Changes

section SideData

/-! What stands beside the records never touches them. -/

theorem requireThresholdSignatures_ledger {threshold : ℕ} {signers : List Address} :
    requireThresholdSignatures ipId threshold signers s = .ok (u, s') → s'.ledger = s.ledger := by
  simp +contextual [requireThresholdSignatures]

theorem addThresholdSignature_ledger {signer : Address} {signatureHash : BytesN 32} :
    addThresholdSignature env ipId signer signatureHash s = .ok (u, s') → s'.ledger = s.ledger := by
  simp +contextual [addThresholdSignature]

theorem setBatchMetadata_ledger {batchId : BytesN 32} {description : Bytes} :
    setBatchMetadata env ipId batchId description s = .ok (u, s') → s'.ledger = s.ledger := by
  simp +contextual [setBatchMetadata]

theorem setCommitmentCompression_ledger {algorithm : CompressionAlgo} :
    setCommitmentCompression ipId algorithm s = .ok (u, s') → s'.ledger = s.ledger := by
  simp +contextual [setCommitmentCompression]

theorem encryptCommitment_ledger {encryptedHash : Bytes} {keyHint : BytesN 32} :
    encryptCommitment env ipId encryptedHash keyHint s = .ok (u, s') → s'.ledger = s.ledger := by
  simp +contextual [encryptCommitment]

theorem revealPartial_ledger {partialHash blindingFactor : BytesN 32} {disclosed : Bool} :
    revealPartial env ipId partialHash blindingFactor s = .ok (disclosed, s') →
      s'.ledger = s.ledger := by
  simp +contextual [revealPartial, or_imp]

theorem grantLicense_ledger {licensee : Address} {termsHash : BytesN 32} :
    grantLicense env ipId licensee termsHash s = .ok (u, s') → s'.ledger = s.ledger := by
  simp +contextual [grantLicense]

theorem revokeLicense_ledger {licensee : Address} :
    revokeLicense env ipId licensee s = .ok (u, s') → s'.ledger = s.ledger := by
  simp +contextual [revokeLicense]

theorem setIpSuggestedPrice_ledger {price : ℤ} :
    setIpSuggestedPrice env ipId price s = .ok (u, s') → s'.ledger = s.ledger := by
  simp +contextual [setIpSuggestedPrice]

theorem grantIpAccess_ledger {grantee : Address} {accessLevel : ℕ} :
    grantIpAccess env ipId grantee accessLevel s = .ok (u, s') → s'.ledger = s.ledger := by
  simp +contextual [grantIpAccess]

theorem revokeIpAccess_ledger {grantee : Address} :
    revokeIpAccess env ipId grantee s = .ok (u, s') → s'.ledger = s.ledger := by
  simp +contextual [revokeIpAccess, or_imp]

theorem setNotaryPublicKey_ledger {publicKey : BytesN 32} :
    setNotaryPublicKey env publicKey s = .ok (u, s') → s'.ledger = s.ledger := by
  simp +contextual [setNotaryPublicKey]

theorem checkExpirationWarning_ledger {threshold : ℕ} {warned : Bool} :
    checkExpirationWarning env ipId threshold s = .ok (warned, s') → s'.ledger = s.ledger := by
  simp +contextual [checkExpirationWarning, or_imp]

theorem renewIp_ledger :
    renewIp env ipId s = .ok (u, s') → s'.ledger = s.ledger := by
  simp +contextual [renewIp]

theorem assignIpToCategory_ledger {categoryHash : BytesN 32} :
    assignIpToCategory env ipId categoryHash s = .ok (u, s') → s'.ledger = s.ledger := by
  simp +contextual [assignIpToCategory, or_imp]

theorem issueOwnershipChallenge_ledger {challenger : Address} {nonce : BytesN 32}
    {challengeId : ℕ} :
    issueOwnershipChallenge env ipId challenger nonce s = .ok (challengeId, s') →
      s'.ledger = s.ledger := by
  simp +contextual [issueOwnershipChallenge]

theorem respondToOwnershipChallenge_ledger {responseHash : BytesN 32} :
    respondToOwnershipChallenge env id responseHash s = .ok (u, s') → s'.ledger = s.ledger := by
  simp +contextual [respondToOwnershipChallenge]

theorem verifyOwnershipChallenge_ledger {verified : Bool}
    (h : verifyOwnershipChallenge env id s = .ok (verified, s')) : s'.ledger = s.ledger := by
  rw [verifyOwnershipChallenge] at h
  obtain ⟨challenge, s₁, hchallenge, hanswer⟩ := Tx.bind_ok.mp h
  obtain ⟨-, rfl⟩ := requireChallenge_ok.mp hchallenge
  cases hresponse : challenge.responseHash with
  | none =>
    simp only [hresponse, Tx.pure_ok] at hanswer
    rw [hanswer.2]
  | some responseHash =>
    revert hanswer
    simp +contextual [hresponse, or_imp]

end SideData

section Disputes

theorem initiateDispute_ledger {challenger : Address} {evidenceHash : BytesN 32} {disputeId : ℕ} :
    initiateDispute env ipId challenger evidenceHash s = .ok (disputeId, s') →
      s'.ledger = s.ledger := by
  simp +contextual [initiateDispute]

theorem submitDisputeEvidence_ledger {submitter : Address} {evidenceHash : BytesN 32} :
    submitDisputeEvidence env id submitter evidenceHash s = .ok (u, s') → s'.ledger = s.ledger := by
  simp +contextual [submitDisputeEvidence]

theorem resolveDispute_ledger {winner : Address} :
    resolveDispute env id winner s = .ok (u, s') → s'.ledger = s.ledger := by
  simp +contextual [resolveDispute]

theorem stakeCommitment_ledger {amount : ℤ} :
    stakeCommitment env ipId amount s = .ok (u, s') → s'.ledger = s.ledger := by
  simp +contextual [stakeCommitment]

theorem slashStake_ledger :
    slashStake env ipId s = .ok (u, s') → s'.ledger = s.ledger := by
  simp +contextual [slashStake]

theorem unstake_ledger :
    unstake env ipId s = .ok (u, s') → s'.ledger = s.ledger := by
  simp +contextual [unstake]

theorem updateReputation_ledger {scoreDelta : ℤ} :
    updateReputation env owner scoreDelta s = .ok (u, s') → s'.ledger = s.ledger := by
  simp +contextual [updateReputation]

theorem nominateArbitrator_ledger {arbitrator : Address} :
    nominateArbitrator env arbitrator s = .ok (u, s') → s'.ledger = s.ledger := by
  simp +contextual [nominateArbitrator, or_imp]

theorem openArbitration_ledger {arbitrationId : ℕ} :
    openArbitration env id s = .ok (arbitrationId, s') → s'.ledger = s.ledger := by
  simp +contextual [openArbitration]

theorem voteOnDispute_ledger {voter : Address} {voteForOwner : Bool} :
    voteOnDispute env id voter voteForOwner s = .ok (u, s') → s'.ledger = s.ledger := by
  simp +contextual [voteOnDispute, or_imp]

theorem finalizeArbitration_ledger :
    finalizeArbitration env id s = .ok (u, s') → s'.ledger = s.ledger := by
  simp +contextual [finalizeArbitration]

theorem delegationDepth_state {rootOwner delegator : Address} {depth : ℕ}
    (h : delegationDepth rootOwner delegator s = .ok (depth, s')) : s' = s := by
  unfold delegationDepth at h
  split at h
  · exact (Tx.pure_ok.mp h).2
  · simp at h
    obtain ⟨_, -, -, -, rfl⟩ := h
    rfl

theorem delegateCommitmentAuthority_ledger {rootOwner delegator delegateAddress : Address}
    (h : delegateCommitmentAuthority env rootOwner delegator delegateAddress s = .ok (u, s')) :
    s'.ledger = s.ledger := by
  simp only [delegateCommitmentAuthority, Tx.bind_ok, requireAuth_ok, require_ok, Tx.load_ok] at h
  obtain ⟨_, _, ⟨-, rfl⟩, depth, s₁, hdepth, _, _, ⟨-, rfl⟩, delegates, _, ⟨rfl, rfl⟩, h⟩ := h
  obtain rfl := delegationDepth_state hdepth
  rcases Tx.onlyIf_ok.mp h with ⟨-, h⟩ | ⟨-, rfl⟩
  · simp only [Tx.store_bind_ok, publish_ok] at h
    rw [h]
    rfl
  · rfl

theorem revokeDelegation_ledger {delegateAddress : Address} :
    revokeDelegation env owner delegateAddress s = .ok (u, s') → s'.ledger = s.ledger := by
  simp +contextual [revokeDelegation]

theorem upgrade_ledger {newWasmHash : BytesN 32} :
    upgrade env newWasmHash s = .ok (u, s') → s'.ledger = s.ledger := by
  simp +contextual [upgrade]

end Disputes

theorem kept {P : Move → Prop} (h : s'.ledger = s.ledger) :
    Emits (Step env) P s.ledger s'.ledger := by
  rw [h]
  exact .refl _

/-- A call that succeeds makes its own moves on the ledger and no others. -/
theorem exec_moves {call : Call} (h : exec env call s = .ok ((), s')) :
    Emits (Step env) call.yields s.ledger s'.ledger := by
  cases call with
  | commitIp owner hash difficulty =>
    obtain ⟨_, h⟩ := Tx.void_ok.mp h
    exact commitIp_moves h
  | batchCommitIp owner hashes =>
    obtain ⟨_, h⟩ := Tx.void_ok.mp h
    exact batchCommitIp_moves h
  | batchCommitIpAnonymous blindedOwner hashes =>
    obtain ⟨_, h⟩ := Tx.void_ok.mp h
    exact batchCommitIpAnonymous_moves h
  | commitIpDelegated owner hash difficulty =>
    obtain ⟨_, h⟩ := Tx.void_ok.mp h
    exact commitIpDelegated_moves h
  | createIpVersion parentIpId hash =>
    obtain ⟨_, h⟩ := Tx.void_ok.mp h
    exact createIpVersion_moves h
  | commitIpVersion owner hash parentIpId =>
    obtain ⟨_, h⟩ := Tx.void_ok.mp h
    exact commitIpVersion_moves h
  | rotateCommitmentKey ipId hash oldSecret oldBlindingFactor =>
    exact .single (rotateCommitmentKey_step h) rfl
  | transferIp ipId newOwner => exact transferIp_moves h
  | transferIpOwnership ipId newOwner => exact transferIp_moves h
  | revokeIp ipId => exact revokeIp_moves h
  | mergeDuplicateCommitment primaryIpId duplicateIpId => exact mergeDuplicateCommitment_moves h
  | addCoOwner ipId coOwner => exact addCoOwner_moves h
  | removeCoOwner ipId coOwner => exact removeCoOwner_moves h
  | notarizeIpTimestamp ipId signature => exact notarizeIpTimestamp_moves h
  | setNotaryPublicKey => exact kept (setNotaryPublicKey_ledger h)
  | requireThresholdSignatures => exact kept (requireThresholdSignatures_ledger h)
  | addThresholdSignature => exact kept (addThresholdSignature_ledger h)
  | setBatchMetadata => exact kept (setBatchMetadata_ledger h)
  | setCommitmentCompression => exact kept (setCommitmentCompression_ledger h)
  | encryptCommitment => exact kept (encryptCommitment_ledger h)
  | revealPartial =>
    obtain ⟨_, h⟩ := Tx.void_ok.mp h
    exact kept (revealPartial_ledger h)
  | grantLicense => exact kept (grantLicense_ledger h)
  | revokeLicense => exact kept (revokeLicense_ledger h)
  | setIpSuggestedPrice => exact kept (setIpSuggestedPrice_ledger h)
  | grantIpAccess => exact kept (grantIpAccess_ledger h)
  | revokeIpAccess => exact kept (revokeIpAccess_ledger h)
  | checkExpirationWarning =>
    obtain ⟨_, h⟩ := Tx.void_ok.mp h
    exact kept (checkExpirationWarning_ledger h)
  | renewIp => exact kept (renewIp_ledger h)
  | assignIpToCategory => exact kept (assignIpToCategory_ledger h)
  | issueOwnershipChallenge =>
    obtain ⟨_, h⟩ := Tx.void_ok.mp h
    exact kept (issueOwnershipChallenge_ledger h)
  | respondToOwnershipChallenge => exact kept (respondToOwnershipChallenge_ledger h)
  | verifyOwnershipChallenge =>
    obtain ⟨_, h⟩ := Tx.void_ok.mp h
    exact kept (verifyOwnershipChallenge_ledger h)
  | initiateDispute =>
    obtain ⟨_, h⟩ := Tx.void_ok.mp h
    exact kept (initiateDispute_ledger h)
  | submitDisputeEvidence => exact kept (submitDisputeEvidence_ledger h)
  | resolveDispute => exact kept (resolveDispute_ledger h)
  | stakeCommitment => exact kept (stakeCommitment_ledger h)
  | slashStake => exact kept (slashStake_ledger h)
  | unstake => exact kept (unstake_ledger h)
  | updateReputation => exact kept (updateReputation_ledger h)
  | nominateArbitrator => exact kept (nominateArbitrator_ledger h)
  | openArbitration =>
    obtain ⟨_, h⟩ := Tx.void_ok.mp h
    exact kept (openArbitration_ledger h)
  | voteOnDispute => exact kept (voteOnDispute_ledger h)
  | finalizeArbitration => exact kept (finalizeArbitration_ledger h)
  | delegateCommitmentAuthority => exact kept (delegateCommitmentAuthority_ledger h)
  | revokeDelegation => exact kept (revokeDelegation_ledger h)
  | upgrade => exact kept (upgrade_ledger h)

end AtomicIp.IpRegistry
