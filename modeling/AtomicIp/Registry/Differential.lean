import AtomicIp.Lib.Refinement
import AtomicIp.Reference.Registry
import AtomicIp.Registry.BatchCommits
import AtomicIp.Registry.Ownership
import AtomicIp.Registry.Verification

set_option autoImplicit false

namespace AtomicIp.IpRegistry

open Function Tx
open Reference (Raised RegistryCall RegistryStep performAll)

def IpRecord.mirrored (r : IpRecord) : Reference.IpRecord :=
  ⟨r.ipId, r.owner, r.commitmentHash, r.timestamp, r.revoked⟩

def State.mirrored (s : State) : Reference.IpRegistry where
  records i := (s.ipRecord i).map IpRecord.mirrored
  ownerIndex := s.ownerIps
  commitmentIndex := s.commitmentOwner
  nextId := s.nextId.getD 1

/-- The calls that do something the reference cannot: commit for nobody, transfer, rotate. -/
def Call.unmatched : Call → Bool
  | .batchCommitIpAnonymous .. | .transferIp .. | .transferIpOwnership ..
  | .rotateCommitmentKey .. => true
  | _ => false

def Act.matched (s : State) (act : Act) : List RegistryCall :=
  match act.call with
  | .commitIp owner hash _ | .commitIpDelegated owner hash _ =>
      [.commitIp owner hash act.timestamp]
  | .batchCommitIp owner hashes => hashes.map (.commitIp owner · act.timestamp)
  | .createIpVersion parent hash | .commitIpVersion _ hash parent =>
      ((s.ipRecord parent).toList.map fun r => .commitIp r.owner hash act.timestamp)
  | .revokeIp ipId => [.revokeIp ipId]
  | .mergeDuplicateCommitment _ duplicate =>
      if (s.ipRecord duplicate).any (! ·.revoked) then [.revokeIp duplicate] else []
  | _ => []

section Views

variable {env : Env} {s s' : State} {i : ℕ} {r r' : IpRecord}

theorem mirrored_getIp (hr : s.ipRecord i = some r) : s.mirrored.getIp i = .ok r.mirrored := by
  simp only [Reference.IpRegistry.getIp, State.mirrored, hr, Option.map_some]

theorem mirrored_getIp_missing (hr : s.ipRecord i = none) :
    s.mirrored.getIp i = .error (.ipNotFound i) := by
  simp only [Reference.IpRegistry.getIp, State.mirrored, hr, Option.map_none]

theorem getIp_matches : (getIp i s).toOption.map (IpRecord.mirrored ·.1) =
    (s.mirrored.getIp i).toOption := by
  cases hr : s.ipRecord i with
  | none =>
    rw [mirrored_getIp_missing hr, getIp, requireIpExists_missing hr]
    rfl
  | some r =>
    have hfound : getIp i s = .ok (r, s) := requireIpExists_ok.mpr ⟨hr, rfl⟩
    rw [mirrored_getIp hr, hfound]
    rfl

theorem listIpByOwner_matches {owner : Address} :
    listIpByOwner owner s = s.mirrored.listIpByOwner owner := rfl

theorem verifyCommitment_matches (env : Env) {secret blindingFactor : BytesN 32} :
    (verifyCommitment env i secret blindingFactor s).toOption.map Prod.fst =
      (s.mirrored.verifyCommitment env.crypto.sha256 i secret blindingFactor).toOption := by
  rw [verifyCommitment, Reference.IpRegistry.verifyCommitment]
  cases hr : s.ipRecord i with
  | none =>
    rw [mirrored_getIp_missing hr, bind_of_error (requireIpExists_missing hr)]
    rfl
  | some r =>
    rw [mirrored_getIp hr, bind_of_ok (requireIpExists_ok.mpr ⟨hr, rfl⟩)]
    exact congrArg some (decide_eq_decide.mpr eq_comm)

theorem mirrored_eq (hledger : s'.ledger = s.ledger) (howned : s'.ownerIps = s.ownerIps) :
    s'.mirrored = s.mirrored := by
  have hrecords : s'.ipRecord = s.ipRecord := congrArg Ledger.ipRecord hledger
  have hindex : s'.commitmentOwner = s.commitmentOwner := congrArg Ledger.commitmentOwner hledger
  have hnext : s'.nextId = s.nextId := congrArg Ledger.nextId hledger
  simp only [State.mirrored, hrecords, hindex, hnext, howned]

theorem mirrored_rewrite (hr : s.ipRecord i = some r) (hsame : r'.mirrored = r.mirrored) :
    (s.setIpRecord i (some r')).mirrored = s.mirrored := by
  have hrecords : (fun j => (update s.ipRecord i (some r') j).map IpRecord.mirrored) =
      fun j => (s.ipRecord j).map IpRecord.mirrored := by
    funext j
    by_cases hj : j = i
    · simp [hj, hr, hsame]
    · simp [hj]
  simp only [State.mirrored, State.setIpRecord, hrecords]

theorem mirrored_revoke (hr : s.ipRecord i = some r) (hlive : r.revoked = false) :
    RegistryStep s.mirrored (.revokeIp i) (s.setIpRecord i (some r.revoke)).mirrored := by
  have hrecords : (fun j => (update s.ipRecord i (some r.revoke) j).map IpRecord.mirrored) =
      update (fun j => (s.ipRecord j).map IpRecord.mirrored) i
        (some { r.mirrored with revoked := true }) := by
    funext j
    by_cases hj : j = i
    · simp [hj, IpRecord.mirrored, IpRecord.revoke]
    · simp [hj]
  have hfound := mirrored_getIp hr
  have hopen : r.mirrored.revoked = false := hlive
  simp only [RegistryStep, RegistryCall.perform, Reference.IpRegistry.revokeIp, hfound, hopen,
    Bool.false_eq_true, ↓reduceIte]
  simp only [State.mirrored, State.setIpRecord, hrecords]

end Views

section Calls

variable {env : Env} {s s' : State} {u : Unit} {id ipId : ℕ} {owner : Address}
  {hash : BytesN 32} {parent : Option ℕ}

theorem Enrolls.matched (h : Enrolls env owner hash parent s.ledger s'.ledger)
    (hgranted : Titles.Grants s.titles s'.titles) :
    RegistryStep s.mirrored (.commitIp owner hash env.timestamp) s'.mirrored := by
  have howned : s'.ownerIps = filed s.ownerIps owner s.ledger.count := by
    have hnew : s'.titles.ownerOf s.ledger.count = some owner := by
      change s'.ledger.ownerOf _ = _
      rw [h.ownerOf, update_self]
    generalize htitles : s'.titles = t at hgranted hnew
    cases hgranted with
    | granted owner' =>
      obtain rfl : owner' = owner :=
        Option.some.inj ((update_self s.titles.count _ _).symm.trans hnew)
      exact congrArg Titles.ownerIps htitles
  have hfree : s.mirrored.commitmentIndex hash = none := h.free
  have hrecords : s'.ipRecord = update s.ipRecord s.ledger.count
      (some (newRecord s.ledger.count owner hash env.timestamp parent)) :=
    congrArg Ledger.ipRecord h.ledger
  have hindex : s'.commitmentOwner = update s.commitmentOwner hash (some owner) :=
    congrArg Ledger.commitmentOwner h.ledger
  have hnext : s'.nextId = some (s.ledger.count + 1) := congrArg Ledger.nextId h.ledger
  have hview : (fun j => (s'.ipRecord j).map IpRecord.mirrored) =
      update (fun j => (s.ipRecord j).map IpRecord.mirrored) s.ledger.count
        (some ⟨s.ledger.count, owner, hash, env.timestamp, false⟩) := by
    rw [hrecords]
    funext j
    by_cases hj : j = s.ledger.count
    · simp [hj, IpRecord.mirrored, newRecord]
    · simp [hj]
  simp only [RegistryStep, RegistryCall.perform, Reference.IpRegistry.commitIp, if_neg h.zero,
    hfree, Option.isSome_none, Bool.false_eq_true, ↓reduceIte]
  simp only [State.mirrored, hview, hindex, hnext, howned]
  rfl

theorem appendAuditEntry_mirrored {action : String} {actor : Address}
    (h : appendAuditEntry env ipId action actor s = .ok (u, s')) : s'.mirrored = s.mirrored := by
  rw [Tx.store_ok.mp h]
  rfl

theorem revokeIp_matched (h : revokeIp env ipId s = .ok (u, s')) :
    RegistryStep s.mirrored (.revokeIp ipId) s'.mirrored := by
  simp [revokeIp] at h
  obtain ⟨r, hr, -, hlive, haudit⟩ := h
  rw [appendAuditEntry_mirrored haudit]
  exact mirrored_revoke hr hlive

theorem addCoOwner_mirrored {coOwner : Address} (h : addCoOwner env ipId coOwner s = .ok (u, s')) :
    s'.mirrored = s.mirrored := by
  simp [addCoOwner] at h
  obtain ⟨r, hr, -, ⟨-, rfl⟩ | ⟨-, rfl⟩⟩ := h
  · exact mirrored_rewrite hr rfl
  · rfl

theorem removeCoOwner_mirrored {coOwner : Address}
    (h : removeCoOwner env ipId coOwner s = .ok (u, s')) : s'.mirrored = s.mirrored := by
  simp [removeCoOwner] at h
  obtain ⟨r, hr, -, ⟨-, rfl⟩ | ⟨-, rfl⟩⟩ := h
  · exact mirrored_rewrite hr rfl
  · rfl

theorem notarizeIpTimestamp_mirrored {signature : Bytes}
    (h : notarizeIpTimestamp env ipId signature s = .ok (u, s')) : s'.mirrored = s.mirrored := by
  simp [notarizeIpTimestamp] at h
  obtain ⟨r, hr, publicKey, -, -, -, rfl⟩ := h
  exact mirrored_rewrite hr rfl

theorem mergeDuplicateCommitment_matched {primaryIpId duplicateIpId : ℕ}
    (h : mergeDuplicateCommitment env primaryIpId duplicateIpId s = .ok (u, s')) :
    Path RegistryStep s.mirrored (if (s.ipRecord duplicateIpId).any (! ·.revoked) then
      [.revokeIp duplicateIpId] else []) s'.mirrored := by
  simp [mergeDuplicateCommitment, adoptCoOwner] at h
  obtain ⟨primary, hprimary, -, duplicate, hduplicate, -, s₁, hadopt, s₂, haudit, s₃, haudit',
    rfl⟩ := h
  have hsame : s₁.mirrored = s.mirrored ∧ s₁.ipRecord duplicateIpId = some duplicate := by
    rcases hadopt with ⟨⟨-, howner⟩, rfl⟩ | ⟨-, rfl⟩
    · refine ⟨mirrored_rewrite hprimary rfl, ?_⟩
      have hne : duplicateIpId ≠ primaryIpId := by
        rintro rfl
        rw [hprimary] at hduplicate
        exact howner (congrArg IpRecord.owner (Option.some.inj hduplicate)).symm
      exact (update_of_ne hne _ _).trans hduplicate
    · exact ⟨rfl, hduplicate⟩
  have hend : (s₃.published ⟨"dedup", .merged primaryIpId duplicateIpId duplicate.owner⟩).mirrored =
      (s₁.setIpRecord duplicateIpId (some duplicate.revoke)).mirrored :=
    (appendAuditEntry_mirrored haudit').trans (appendAuditEntry_mirrored haudit)
  have hfound : s.ipRecord duplicateIpId = some duplicate := hduplicate
  rw [hend, ← hsame.1, hfound]
  cases hrevoked : duplicate.revoked with
  | false => simpa [hrevoked] using Path.single (mirrored_revoke hsame.2 hrevoked)
  | true =>
    have hkept : duplicate.revoke.mirrored = duplicate.mirrored := by
      simp [IpRecord.mirrored, IpRecord.revoke, hrevoked]
    rw [mirrored_rewrite hsame.2 hkept]
    simpa [hrevoked] using Path.nil

theorem commits_matched {hashes : List (BytesN 32)} {ids : List ℕ} (hauth : owner ∈ env.auths)
    (h : Tx.forEach hashes (commitOne env owner) s = .ok (ids, s')) :
    Path RegistryStep s.mirrored (hashes.map (.commitIp owner · env.timestamp)) s'.mirrored := by
  induction hashes generalizing s ids with
  | nil =>
    rw [(Tx.forEach_nil_ok.mp h).2]
    exact .nil
  | cons hash hashes ih =>
    obtain ⟨id, s₁, ids', hone, hrest, -⟩ := Tx.forEach_cons_ok.mp h
    exact .cons ((commitOne_enrolls hauth hone).matched (commitOne_titles hauth hone)) (ih hrest)

end Calls

section Steps

variable {crypto : Crypto} {s s' : State} {act : Act}

theorem createIpVersion_matched {env : Env} {parent id : ℕ} {hash : BytesN 32}
    (h : createIpVersion env parent hash s = .ok (id, s')) :
    Path RegistryStep s.mirrored ((s.ipRecord parent).toList.map fun r =>
      RegistryCall.commitIp r.owner hash env.timestamp) s'.mirrored := by
  have hgranted := createIpVersion_titles h
  obtain ⟨r, hr, henrolls⟩ := createIpVersion_enrolls h
  have hfound : s.ipRecord parent = some r := hr
  rw [hfound]
  exact .single (henrolls.matched hgranted)

theorem ActStep.matched (hact : ActStep crypto s act s') (hcall : act.call.unmatched = false) :
    Path RegistryStep s.mirrored (act.matched s) s'.mirrored := by
  obtain ⟨timestamp, auths, budget, call⟩ := act
  have hexec : exec (Act.env crypto ⟨timestamp, auths, budget, call⟩) call s = .ok ((), s') := hact
  cases call with
  | commitIp =>
    obtain ⟨id, h⟩ := void_ok.mp hexec
    exact .single ((commitIp_enrolls h).matched (commitIp_titles h))
  | commitIpDelegated =>
    obtain ⟨id, h⟩ := void_ok.mp hexec
    exact .single ((commitIpDelegated_enrolls h).matched (commitIpDelegated_titles h))
  | batchCommitIp =>
    obtain ⟨ids, h⟩ := void_ok.mp hexec
    simp [batchCommitIp] at h
    obtain ⟨hauth, s₁, hadmin, s₂, hloop, _, hchecksum⟩ := h
    have hbefore := mirrored_eq (initAdmin_ledger hadmin) (Keeps.eq State.ownerIps hadmin)
    have hafter := mirrored_eq (updateCommitmentChecksum_ledger hchecksum)
      (Keeps.eq State.ownerIps hchecksum)
    rw [← hbefore, hafter]
    exact commits_matched hauth hloop
  | createIpVersion =>
    obtain ⟨id, h⟩ := void_ok.mp hexec
    exact createIpVersion_matched h
  | commitIpVersion =>
    obtain ⟨id, h⟩ := void_ok.mp hexec
    rw [commitIpVersion] at h
    obtain ⟨s₁, hauth, hcreate⟩ := Tx.seq_ok.mp h
    obtain ⟨-, rfl⟩ := requireAuth_ok.mp hauth
    exact createIpVersion_matched hcreate
  | revokeIp => exact .single (revokeIp_matched hexec)
  | mergeDuplicateCommitment => exact mergeDuplicateCommitment_matched hexec
  | addCoOwner =>
    rw [addCoOwner_mirrored hexec]
    exact .nil
  | removeCoOwner =>
    rw [removeCoOwner_mirrored hexec]
    exact .nil
  | notarizeIpTimestamp =>
    rw [notarizeIpTimestamp_mirrored hexec]
    exact .nil
  | batchCommitIpAnonymous | transferIp | transferIpOwnership | rotateCommitmentKey => cases hcall
  | _ =>
    have howned := exec_frame State.ownerIps hexec fun t ht =>
      blind_ownerIps fun e => by simp [Call.writes, e] at ht
    have hledger := (exec_moves hexec).invariant (I := (· = s.ledger))
      (fun _ _ _ hm _ _ => hm.elim) rfl
    rw [mirrored_eq hledger howned]
    exact .nil

/-- Every run of matched calls is a run of the reference, and both show the same. -/
theorem registry_mirrors_reference {tr : List (Act × State)}
    (hrun : Run (Restrict (ActStep crypto) fun _ act => act.call.unmatched = false)
      State.empty tr s) :
    ∃ r, Path RegistryStep .empty (words (fun s act => act.matched s) State.empty tr) r ∧
      r.nextId = s.ledger.count ∧
      (∀ i, (getIp i s).toOption.map (IpRecord.mirrored ·.1) = (r.getIp i).toOption) ∧
      (∀ owner, listIpByOwner owner s = r.listIpByOwner owner) ∧
      ∀ (env : Env) (i : ℕ) (secret blindingFactor : BytesN 32),
        (verifyCommitment env i secret blindingFactor s).toOption.map Prod.fst =
          (r.verifyCommitment env.crypto.sha256 i secret blindingFactor).toOption := by
  obtain ⟨r, hpath, rfl⟩ := hrun.refines (R := fun s r => r = s.mirrored)
    (fun s act s' r hr hstep => ⟨s'.mirrored, hr ▸ ActStep.matched hstep.1 hstep.2, rfl⟩)
    (show State.empty.mirrored = _ from rfl)
  exact ⟨s.mirrored, hpath, rfl, fun _ => getIp_matches, fun _ => listIpByOwner_matches,
    fun env _ _ _ => verifyCommitment_matches env⟩

end Steps

section Scripts

/-- The code of the contract under which the reference raises, where the registry raises it. -/
def raisedCode : Raised → Option ContractError
  | .zeroCommitmentHash => some .zeroCommitmentHash
  | .commitmentAlreadyRegistered => some .commitmentAlreadyRegistered
  | .ipAlreadyRevoked => some .ipAlreadyRevoked
  | .ipNotFound _ => some .ipNotFound
  | _ => none

def asked (auths : List Address) : RegistryCall → Act
  | .commitIp owner hash timestamp => ⟨timestamp, auths, 0, .commitIp owner hash 0⟩
  | .revokeIp ipId => ⟨0, auths, 0, .revokeIp ipId⟩

def ask (crypto : Crypto) (auths : List Address) (call : RegistryCall) : RegistryTx Unit :=
  exec ((asked auths call).env crypto) (asked auths call).call

def askAll (crypto : Crypto) (auths : List Address) (calls : List RegistryCall) : RegistryTx Unit :=
  inOrder (ask crypto auths) calls

/-- The contract answers as the reference does: the same state, or the same error. -/
def Agrees (contract : Except (Abort ContractError) (Unit × State))
    (reference : Reference.Outcome Reference.IpRegistry Unit) : Prop :=
  (∃ s, contract = .ok ((), s) ∧ reference = (.ok (), s.mirrored)) ∨
    ∃ e code r, reference = (.error e, r) ∧ raisedCode e = some code ∧
      contract = .error (.contract code)

variable {crypto : Crypto} {s s' : State} {auths : List Address} {calls : List RegistryCall}

theorem commitIp_zero {env : Env} {owner : Address} (hauth : owner ∈ env.auths) :
    commitIp env owner (.zero 32) 0 s = .error (.contract .zeroCommitmentHash) := by
  have hallowed : (requireAuth env.auths owner : RegistryTx Unit) s = .ok ((), s) :=
    requireAuth_ok.mpr ⟨hauth, rfl⟩
  rw [commitIp, bind_of_ok hallowed, bind_of_ok rfl]
  exact bind_of_error (by simp [requireNonZeroCommitment, require, Tx.ensure, Tx.abort])

theorem commitIp_taken {env : Env} {owner owner' : Address} {hash : BytesN 32}
    (hauth : owner ∈ env.auths) (hnonzero : hash ≠ .zero 32)
    (htaken : s.commitmentOwner hash = some owner') :
    commitIp env owner hash 0 s = .error (.contract .commitmentAlreadyRegistered) := by
  have hallowed : (requireAuth env.auths owner : RegistryTx Unit) s = .ok ((), s) :=
    requireAuth_ok.mpr ⟨hauth, rfl⟩
  obtain ⟨t, ht⟩ : ∃ t, t = s.setAdmin (some (s.admin.getD currentContractAddress)) := ⟨_, rfl⟩
  have hadmin : initAdmin s = .ok ((), t) := by rw [ht]; rfl
  have hgood : requireNonZeroCommitment hash t = .ok ((), t) := require_ok.mpr ⟨hnonzero, rfl⟩
  have hkept : t.commitmentOwner hash = some owner' := by rw [ht]; exact htaken
  rw [commitIp, bind_of_ok hallowed, bind_of_ok hadmin, bind_of_ok hgood]
  refine bind_of_error ?_
  rw [requireUniqueCommitment, Tx.load_bind, hkept]
  rfl

theorem commitIp_agrees {owner : Address} {hash : BytesN 32} {timestamp : ℕ}
    (hauth : owner ∈ auths) (hcount : s.ledger.count + 1 < 2 ^ 64) :
    Agrees (exec ((asked auths (.commitIp owner hash timestamp)).env crypto)
        (.commitIp owner hash 0) s)
      ((RegistryCall.commitIp owner hash timestamp).perform s.mirrored) := by
  obtain ⟨env, henv⟩ : ∃ env, env = (asked auths (.commitIp owner hash timestamp)).env crypto :=
    ⟨_, rfl⟩
  have hsigned : owner ∈ env.auths := by rw [henv]; exact hauth
  rw [← henv]
  by_cases hzero : hash = .zero 32
  · subst hzero
    refine .inr ⟨.zeroCommitmentHash, _, s.mirrored, ?_, rfl, ?_⟩
    · simp [RegistryCall.perform, Reference.IpRegistry.commitIp, Except.map]
    · exact bind_of_error (commitIp_zero hsigned)
  cases htaken : s.commitmentOwner hash with
  | some owner' =>
    have hfound : s.mirrored.commitmentIndex hash = some owner' := htaken
    refine .inr ⟨.commitmentAlreadyRegistered, _, s.mirrored, ?_, rfl, ?_⟩
    · simp [RegistryCall.perform, Reference.IpRegistry.commitIp, hzero, hfound, Except.map]
    · exact bind_of_error (commitIp_taken hsigned hzero htaken)
  | none =>
    obtain ⟨id, s', h⟩ := commitIp_runs.mpr ⟨hsigned, hzero, htaken, hcount⟩
    have hmatch := (commitIp_enrolls h).matched (commitIp_titles h)
    rw [henv] at hmatch
    exact .inl ⟨s', void_ok.mpr ⟨id, h⟩, hmatch⟩

theorem revokeIp_agrees {ipId : ℕ} (hsigned : ∀ i r, s.ipRecord i = some r → r.owner ∈ auths) :
    Agrees (exec ((asked auths (.revokeIp ipId)).env crypto) (.revokeIp ipId) s)
      ((RegistryCall.revokeIp ipId).perform s.mirrored) := by
  obtain ⟨env, henv⟩ : ∃ env, env = (asked auths (.revokeIp ipId)).env crypto := ⟨_, rfl⟩
  rw [← henv]
  cases hr : s.ipRecord ipId with
  | none =>
    have hfound := mirrored_getIp_missing hr
    refine .inr ⟨.ipNotFound ipId, _, s.mirrored, ?_, rfl, ?_⟩
    · simp [RegistryCall.perform, Reference.IpRegistry.revokeIp, hfound]
    · exact bind_of_error (requireIpExists_missing hr)
  | some r =>
    have hauth : r.owner ∈ env.auths := by rw [henv]; exact hsigned ipId r hr
    have hexists : requireIpExists ipId s = .ok (r, s) := requireIpExists_ok.mpr ⟨hr, rfl⟩
    have hallowed : (requireAuth env.auths r.owner : RegistryTx Unit) s = .ok ((), s) :=
      requireAuth_ok.mpr ⟨hauth, rfl⟩
    cases hrevoked : r.revoked with
    | true =>
      have hfound := mirrored_getIp hr
      have hgone : r.mirrored.revoked = true := hrevoked
      refine .inr ⟨.ipAlreadyRevoked, _, s.mirrored, ?_, rfl, ?_⟩
      · simp [RegistryCall.perform, Reference.IpRegistry.revokeIp, hfound, hgone]
      · change revokeIp env ipId s = _
        rw [revokeIp, bind_of_ok hexists, bind_of_ok hallowed]
        exact bind_of_error (by simp [requireNotRevoked, require, Tx.ensure, Tx.abort, hrevoked])
    | false =>
      have hopen : requireNotRevoked r s = .ok ((), s) := require_ok.mpr ⟨hrevoked, rfl⟩
      obtain ⟨s', h⟩ : ∃ s', revokeIp env ipId s = .ok ((), s') := by
        rw [revokeIp, bind_of_ok hexists, bind_of_ok hallowed, bind_of_ok hopen]
        exact ⟨_, rfl⟩
      exact .inl ⟨s', h, revokeIp_matched h⟩

def Signed (auths : List Address) (r : Reference.IpRegistry) : Prop :=
  ∀ i record, r.records i = some record → record.owner ∈ auths

def SignedFor (auths : List Address) (calls : List RegistryCall) : Prop :=
  ∀ owner hash timestamp, .commitIp owner hash timestamp ∈ calls → owner ∈ auths

theorem step_signed {r r' : Reference.IpRegistry} {call : RegistryCall} (hsigned : Signed auths r)
    (hcall : SignedFor auths [call]) (h : RegistryStep r call r') :
    Signed auths r' ∧ r'.nextId ≤ r.nextId + 1 := by
  cases call with
  | commitIp owner hash timestamp =>
    simp only [RegistryStep, RegistryCall.perform, Reference.IpRegistry.commitIp] at h
    split_ifs at h
    · simp [Except.map] at h
    · simp [Except.map] at h
    · obtain ⟨-, rfl⟩ := Prod.mk.inj h
      refine ⟨fun i record hi => ?_, Nat.le_refl _⟩
      by_cases hnew : i = r.nextId
      · simp only [hnew, update_self, Option.some.injEq] at hi
        rw [← hi]
        exact hcall owner hash timestamp (by simp)
      · simp only [update_of_ne hnew] at hi
        exact hsigned i record hi
  | revokeIp ipId =>
    simp only [RegistryStep, RegistryCall.perform, Reference.IpRegistry.revokeIp] at h
    cases hfound : r.records ipId with
    | none => simp [Reference.IpRegistry.getIp, hfound] at h
    | some old =>
      simp only [Reference.IpRegistry.getIp, hfound] at h
      split_ifs at h
      · simp at h
      · obtain ⟨-, rfl⟩ := Prod.mk.inj h
        refine ⟨fun i record hi => ?_, Nat.le_succ _⟩
        by_cases hsame : i = ipId
        · simp only [hsame, update_self, Option.some.injEq] at hi
          rw [← hi]
          exact hsigned ipId old hfound
        · simp only [update_of_ne hsame] at hi
          exact hsigned i record hi

theorem call_agrees (crypto : Crypto) {call : RegistryCall} (hsigned : Signed auths s.mirrored)
    (hcall : SignedFor auths [call]) (hcount : s.ledger.count + 1 < 2 ^ 64) :
    Agrees (ask crypto auths call s) (call.perform s.mirrored) := by
  cases call with
  | commitIp owner hash timestamp =>
    exact commitIp_agrees (hcall owner hash timestamp (by simp)) hcount
  | revokeIp ipId =>
    refine revokeIp_agrees fun i r hr => ?_
    refine hsigned i r.mirrored ?_
    simp only [State.mirrored, hr, Option.map_some]

/-- The owners have signed and there are ids for the rest of the script. -/
structure Ready (auths : List Address) (calls : List RegistryCall) (s : State) : Prop where
  signed : Signed auths s.mirrored
  signedFor : SignedFor auths calls
  room : s.ledger.count + calls.length < 2 ^ 64

namespace Ready

variable {call : RegistryCall}

theorem head (h : Ready auths (call :: calls) s) : SignedFor auths [call] :=
  fun owner hash timestamp hmem => h.signedFor owner hash timestamp (by simp_all)

theorem agrees (crypto : Crypto) (h : Ready auths (call :: calls) s) :
    Agrees (ask crypto auths call s) (call.perform s.mirrored) := by
  have hroom := h.room
  rw [List.length_cons] at hroom
  exact call_agrees crypto h.signed h.head (by omega)

theorem next (h : Ready auths (call :: calls) s)
    (hmatch : RegistryStep s.mirrored call s'.mirrored) : Ready auths calls s' := by
  obtain ⟨hsigned, hgrown⟩ := step_signed h.signed h.head hmatch
  refine ⟨hsigned, fun owner hash timestamp hmem => ?_, ?_⟩
  · exact h.signedFor owner hash timestamp (by simp [hmem])
  · have hroom := h.room
    have hgrown' : s'.ledger.count ≤ s.ledger.count + 1 := hgrown
    rw [List.length_cons] at hroom
    omega

theorem all_agree (h : Ready auths calls s) :
    Agrees (askAll crypto auths calls s) (performAll calls s.mirrored) := by
  induction calls generalizing s with
  | nil => exact .inl ⟨s, rfl, rfl⟩
  | cons call calls ih =>
    rcases h.agrees crypto with ⟨s₁, hdone, hmatch⟩ | ⟨e, code, r, hraised, hcode, hfailed⟩
    · rw [askAll, inOrder, bind_of_ok hdone, performAll, hmatch]
      exact ih (h.next hmatch)
    · refine .inr ⟨e, code, r, ?_, hcode, ?_⟩
      · rw [performAll, hraised]
      · rw [askAll, inOrder]
        exact bind_of_error hfailed

/-- What stops a script on the contract is one of its calls: both get through those before it
alike, and raise at it alike. -/
theorem all_stop (h : Ready auths calls s) {e : Abort ContractError}
    (hstop : askAll crypto auths calls s = .error e) :
    ∃ done call rest s₁, calls = done ++ call :: rest ∧
      askAll crypto auths done s = .ok ((), s₁) ∧
      performAll done s.mirrored = (.ok (), s₁.mirrored) ∧
      ask crypto auths call s₁ = .error e ∧
      Agrees (ask crypto auths call s₁) (call.perform s₁.mirrored) := by
  induction calls generalizing s with
  | nil => cases hstop
  | cons call calls ih =>
    rcases h.agrees crypto with ⟨s₁, hdone, hmatch⟩ | hraised
    · rw [askAll, inOrder, bind_of_ok hdone] at hstop
      obtain ⟨done, stop, rest, s₂, rfl, hthrough, hmirrored, hstops⟩ := ih (h.next hmatch) hstop
      refine ⟨call :: done, stop, rest, s₂, rfl, ?_, ?_, hstops⟩
      · rw [askAll, inOrder, bind_of_ok hdone]
        exact hthrough
      · rw [performAll, hmatch]
        exact hmirrored
    · refine ⟨[], call, calls, s, rfl, rfl, rfl, ?_, .inr hraised⟩
      obtain ⟨_, _, _, -, -, hfailed⟩ := hraised
      rw [askAll, inOrder, bind_of_error hfailed] at hstop
      rw [hfailed, ← hstop]

end Ready

/-- A script that the owners have signed does on the contract what it does on the reference, up to
the first call that raises; that is the same call on both, and both raise the same. -/
theorem scripts_agree (hcalls : SignedFor auths calls) (hroom : calls.length + 1 < 2 ^ 64) :
    Agrees (askAll crypto auths calls State.empty) (performAll calls .empty) ∧
    ∀ e, askAll crypto auths calls State.empty = .error e →
      ∃ done call rest s, calls = done ++ call :: rest ∧
        askAll crypto auths done State.empty = .ok ((), s) ∧
        performAll done .empty = (.ok (), s.mirrored) ∧
        ask crypto auths call s = .error e ∧
        Agrees (ask crypto auths call s) (call.perform s.mirrored) := by
  have hempty : Signed auths State.empty.mirrored := by
    intro i record hi
    cases hi
  have hone : State.empty.ledger.count = 1 := rfl
  have hready : Ready auths calls State.empty := ⟨hempty, hcalls, by omega⟩
  exact ⟨hready.all_agree, fun e => hready.all_stop⟩

end Scripts

section Designs

open Scenario

/-- The design is committed, improved on and revoked, by the reference as by the registry. -/
theorem improved_design_mirrored : ∃ (tr : List (Act × State)) (s : State)
    (r : Reference.IpRegistry),
    tr.map Prod.fst = [act 7 inventor (.revokeIp 1),
      act 6 inventor (.createIpVersion 1 laterDesign),
      act 5 inventor (.commitIp inventor design 0)] ∧
    Path RegistryStep .empty (words (fun s act => act.matched s) State.empty tr) r ∧
      r.nextId = 3 ∧ listIpByOwner inventor s = r.listIpByOwner inventor := by
  have hplay : endsIn perform [act 5 inventor (.commitIp inventor design 0),
      act 6 inventor (.createIpVersion 1 laterDesign), act 7 inventor (.revokeIp 1)] State.empty
      (fun s => s.ledger.count = 3) = true := by decide +kernel
  have hmatched : ∀ s a s', a ∈ [act 5 inventor (.commitIp inventor design 0),
      act 6 inventor (.createIpVersion 1 laterDesign), act 7 inventor (.revokeIp 1)] →
      perform a s = .ok ((), s') →
      Restrict (ActStep Scenario.crypto) (fun _ a => a.call.unmatched = false) s a s' := by
    intro s a s' hmem hexec
    refine ⟨hexec, ?_⟩
    simp only [List.mem_cons, List.not_mem_nil, or_false] at hmem
    rcases hmem with rfl | rfl | rfl <;> rfl
  obtain ⟨tr, s, hrun, hcalls, hcount⟩ := endsIn_run hplay hmatched
  obtain ⟨r, hpath, hnext, -, howned, -⟩ := registry_mirrors_reference hrun
  exact ⟨tr, s, r, hcalls, hpath, hnext.trans (of_decide_eq_true hcount), howned inventor⟩

/-- The design is committed, committed again and refused, before the rest of the script. -/
theorem design_refused_alike :
    Agrees (askAll Scenario.crypto [inventor, rival]
        [.commitIp inventor design 5, .commitIp rival design 6, .revokeIp 1] State.empty)
      (performAll [.commitIp inventor design 5, .commitIp rival design 6, .revokeIp 1] .empty) :=
  (scripts_agree (by intro owner hash timestamp hmem; simp_all; tauto) (by decide)).1

end Designs

end AtomicIp.IpRegistry
