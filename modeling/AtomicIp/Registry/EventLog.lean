import AtomicIp.Registry.Arbitration
import AtomicIp.Registry.Delegations

set_option autoImplicit false

namespace AtomicIp.IpRegistry

open Function Tx

structure IndexedIp where
  owner : Address
  revoked : Bool
  coOwners : List Address
  parentIpId : Option ℕ

def IpRecord.indexed (r : IpRecord) : IndexedIp := ⟨r.owner, r.revoked, r.coOwners, r.parentIpId⟩

structure Index where
  ips : ℕ → Option IndexedIp
  grants : ℕ → List IpAccessGrant
  disclosures : ℕ → Option (BytesN 32)
  renewals : ℕ → ℕ
  stakes : ℕ → Option StakeRecord
  categories : Address × BytesN 32 → List ℕ
  delegates : Address → List DelegationRecord
  depths : Address → Option ℕ
  arbitrators : List Address

def State.indexed (s : State) : Index where
  ips i := (s.ipRecord i).map IpRecord.indexed
  grants i := (s.ipAccessGrants i).getD []
  disclosures := s.partialDisclosure
  renewals i := (s.renewalCount i).getD 0
  stakes := s.ipStake
  categories node := (s.hierarchyNode node).getD []
  delegates a := (s.delegates a).getD []
  depths := s.delegateDepth
  arbitrators := s.arbitratorPool.getD []

namespace Index

variable (x : Index)

def enter (ipId : ℕ) (owner : Address) (parentIpId : Option ℕ) : Index :=
  { x with ips := update x.ips ipId (some ⟨owner, false, [], parentIpId⟩) }

def amend (ipId : ℕ) (f : IndexedIp → IndexedIp) : Index :=
  { x with ips := update x.ips ipId ((x.ips ipId).map f) }

def apply : Payload → Index
  | .ipCommitted owner ipId _ => x.enter ipId owner none
  | .ipCommittedAnonymously ipId _ _ => x.enter ipId currentContractAddress none
  | .versionCreated owner parentIpId ipId => x.enter ipId owner (some parentIpId)
  | .ipTransferred ipId _ newOwner => x.amend ipId fun r => { r with owner := newOwner }
  | .ipRevoked _ ipId _ => x.amend ipId fun r => { r with revoked := true }
  | .merged primaryIpId duplicateIpId duplicateOwner =>
    (x.amend primaryIpId fun r =>
      if duplicateOwner ∉ r.coOwners ∧ duplicateOwner ≠ r.owner then
        { r with coOwners := r.coOwners ++ [duplicateOwner] }
      else r).amend duplicateIpId fun r => { r with revoked := true }
  | .coOwnerAdded _ ipId coOwner =>
    x.amend ipId fun r => { r with coOwners := r.coOwners ++ [coOwner] }
  | .coOwnerRemoved _ ipId coOwner =>
    x.amend ipId fun r => { r with coOwners := r.coOwners.erase coOwner }
  | .accessGranted ipId grantee accessLevel =>
    { x with
      grants := update x.grants ipId
        (upsert IpAccessGrant.grantee ⟨grantee, accessLevel⟩ (x.grants ipId)) }
  | .accessRevoked ipId grantee =>
    { x with
      grants := update x.grants ipId
        ((x.grants ipId).eraseP fun grant => grant.grantee = grantee) }
  | .partiallyDisclosed _ ipId partialHash =>
    { x with disclosures := update x.disclosures ipId (some partialHash) }
  | .renewed _ ipId newCount => { x with renewals := update x.renewals ipId newCount }
  | .staked owner ipId amount =>
    { x with stakes := update x.stakes ipId (some ⟨ipId, owner, amount, false⟩) }
  | .slashed _ ipId =>
    { x with
      stakes := update x.stakes ipId
        ((x.stakes ipId).map fun stake => { stake with slashed := true }) }
  | .unstaked _ ipId => { x with stakes := update x.stakes ipId none }
  | .ipCategorised owner ipId categoryHash =>
    { x with
      categories := update x.categories (owner, categoryHash)
        (x.categories (owner, categoryHash) ++ [ipId]) }
  | .delegated rootOwner delegate newDepth =>
    { x with
      delegates := update x.delegates rootOwner (x.delegates rootOwner ++ [⟨delegate, newDepth⟩])
      depths := update x.depths delegate (some newDepth) }
  | .delegationRevoked owner delegate =>
    { x with
      delegates := update x.delegates owner
        ((x.delegates owner).filter fun entry => entry.delegate ≠ delegate)
      depths := update x.depths delegate none }
  | .arbitratorNominated _ arbitrator => { x with arbitrators := x.arbitrators ++ [arbitrator] }
  | _ => x

end Index

def replay (events : List Event) : Index :=
  events.foldl (fun x event => x.apply event.payload) State.empty.indexed

section Logs

variable {s s' s'' : State} {payload : Payload} {topic : String} {i : ℕ} {r r' : IpRecord}

def Logs (s s' : State) : Prop :=
  ∃ events, s'.events = s.events ++ events ∧
    s'.indexed = events.foldl (fun x event => x.apply event.payload) s.indexed

theorem Logs.refl (s : State) : Logs s s := ⟨[], by simp, rfl⟩

theorem Logs.trans (h : Logs s s') (h' : Logs s' s'') : Logs s s'' := by
  obtain ⟨events, hevents, hindexed⟩ := h
  obtain ⟨events', hevents', hindexed'⟩ := h'
  refine ⟨events ++ events', ?_, ?_⟩
  · rw [hevents', hevents, List.append_assoc]
  · rw [List.foldl_append, ← hindexed, hindexed']

theorem Logs.single (hevents : s'.events = s.events ++ [⟨topic, payload⟩])
    (hindexed : s'.indexed = s.indexed.apply payload) : Logs s s' :=
  ⟨[⟨topic, payload⟩], hevents, hindexed⟩

def State.telling (s : State) : List Event × Index := (s.events, s.indexed)

theorem Logs.silent (h : s'.telling = s.telling) : Logs s s' := by
  have hevents : s'.events = s.events := congrArg Prod.fst h
  exact ⟨[], by simpa using hevents, congrArg Prod.snd h⟩

theorem Logs.replayed (h : Logs s s') (hs : replay s.events = s.indexed) :
    replay s'.events = s'.indexed := by
  obtain ⟨events, hevents, hindexed⟩ := h
  rw [hevents, hindexed, replay, List.foldl_append]
  exact congrArg (fun x => events.foldl (fun x event => x.apply event.payload) x) hs

theorem indexed_setIpRecord : (s.setIpRecord i (some r)).indexed =
    { s.indexed with ips := update s.indexed.ips i (some r.indexed) } := by
  have hips : (fun j => (update s.ipRecord i (some r) j).map IpRecord.indexed) =
      update (fun j => (s.ipRecord j).map IpRecord.indexed) i (some r.indexed) := by
    funext j
    by_cases hj : j = i
    · subst hj
      rw [update_self, update_self]
      rfl
    · rw [update_of_ne hj, update_of_ne hj]
  exact congrArg (fun ips => { s.indexed with ips := ips }) hips

theorem indexed_saveIp (hr : s.ipRecord i = some r) (f : IndexedIp → IndexedIp)
    (hf : r'.indexed = f r.indexed) :
    (s.setIpRecord i (some r')).indexed = s.indexed.amend i f := by
  have hold : s.indexed.ips i = some r.indexed := by
    simp only [State.indexed, hr]
    rfl
  rw [indexed_setIpRecord, Index.amend, hold, hf]
  rfl

theorem indexed_same (hr : s.ipRecord i = some r) (hsame : r'.indexed = r.indexed) :
    (s.setIpRecord i (some r')).indexed = s.indexed := by
  have hold : s.indexed.ips i = some r.indexed := by
    simp only [State.indexed, hr]
    rfl
  rw [indexed_setIpRecord, hsame, ← hold, update_eq_self]

theorem getD_update {κ α : Type} [DecidableEq κ] (t : κ → Option α) (k : κ) (v d : α) :
    (fun i => (update t k (some v) i).getD d) = update (fun i => (t i).getD d) k v := by
  funext i
  by_cases hi : i = k
  · subst hi
    simp
  · simp [hi]

end Logs

section Blindness

instance : Blind .admin State.telling := ⟨fun _ => rfl⟩

instance : Blind .ownerIps State.telling := ⟨fun _ => rfl⟩

instance : Blind .derived State.telling := ⟨fun _ => rfl⟩

instance : Blind .ratings State.telling := ⟨fun _ => rfl⟩

/-- The tables that no event tells of. -/
def Table.untold : Table → Bool
  | .admin | .ownerIps | .derived | .ratings | .notary | .thresholds | .metadata | .compressions
  | .encryptions | .licenses | .prices | .challenges | .reputations | .disputes => true
  | _ => false

theorem blind_telling {t : Table} (h : t.untold = true) : Blind t State.telling := by
  cases t with
  | ledger | renewals | disclosures | grants | delegations | stakes | arbitrations | categories
  | events => cases h
  | _ => exact ⟨fun _ => rfl⟩

end Blindness

section Calls

variable {env : Env} {s s' : State} {u : Unit} {id ipId : ℕ} {ids : List ℕ} {owner : Address}
  {hash : BytesN 32} {hashes : List (BytesN 32)}

/-- A record is put and the event that names it published; what happens around it is not told. -/
theorem Logs.entered {a : State} {r : IpRecord} (event : Event)
    (ha : a.telling = (s.setIpRecord id (some r)).telling)
    (hb : s'.telling = (a.published event).telling)
    (hevent : ∀ x : Index,
      x.apply event.payload = { x with ips := update x.ips id (some r.indexed) }) : Logs s s' := by
  have hevents : a.events = s.events := congrArg Prod.fst ha
  have hindexed : a.indexed = (s.setIpRecord id (some r)).indexed := congrArg Prod.snd ha
  have hpublished : s'.events = a.events ++ [event] := congrArg Prod.fst hb
  have hindexed' : s'.indexed = a.indexed := congrArg Prod.snd hb
  refine .single (hpublished.trans (by rw [hevents])) ?_
  rw [hindexed', hindexed, indexed_setIpRecord]
  exact (hevent s.indexed).symm

theorem commitIp_logs {powDifficulty : ℕ}
    (h : commitIp env owner hash powDifficulty s = .ok (id, s')) : Logs s s' := by
  simp [commitIp] at h
  obtain ⟨hauth, s₁, hadmin, hzero, hfree, -, s₂, howner, -, s₃, haudit, s₄, hshard, s₅,
    hcompress, ⟨_, hchecksum⟩, rfl⟩ := h
  have hentered : s₂.telling = (s₁.setIpRecord s₁.ledger.count (some (newRecord s₁.ledger.count
      owner hash env.timestamp none))).telling := (Keeps.eq State.telling howner).trans rfl
  refine (Logs.silent (Keeps.eq State.telling hadmin)).trans
    (.entered ⟨"ip_commit", .ipCommitted owner s₁.ledger.count env.timestamp⟩ hentered ?_
      fun _ => rfl)
  rw [Keeps.eq State.telling hchecksum, Keeps.eq State.telling hcompress,
    Keeps.eq State.telling hshard, Keeps.eq State.telling haudit]
  rfl

theorem commitOne_logs (h : commitOne env owner hash s = .ok (id, s')) : Logs s s' := by
  simp [commitOne] at h
  obtain ⟨hzero, hfree, s₁, howner, ⟨-, rfl⟩, rfl⟩ := h
  exact .entered ⟨"ip_commit", .ipCommitted owner s.ledger.count env.timestamp⟩
    (Keeps.eq State.telling howner) rfl fun _ => rfl

theorem batchCommitIp_logs (h : batchCommitIp env owner hashes s = .ok (ids, s')) :
    Logs s s' := by
  simp [batchCommitIp] at h
  obtain ⟨hauth, s₁, hadmin, s₂, hloop, _, hchecksum⟩ := h
  have hadded := Tx.forEach_rel Logs.refl Logs.trans (fun _ _ _ _ _ => commitOne_logs) hloop
  exact (Logs.silent (Keeps.eq State.telling hadmin)).trans
    (hadded.trans (.silent (Keeps.eq State.telling hchecksum)))

theorem commitOneAnonymous_logs {blindedOwner : BytesN 32}
    (h : commitOneAnonymous env blindedOwner hash s = .ok (id, s')) : Logs s s' := by
  simp [commitOneAnonymous] at h
  obtain ⟨hzero, hfree, ⟨-, rfl⟩, rfl⟩ := h
  exact .entered ⟨"ip_cmt_a", .ipCommittedAnonymously s.ledger.count env.timestamp blindedOwner⟩
    (a := s.setIpRecord s.ledger.count (some (newRecord s.ledger.count currentContractAddress hash
      env.timestamp none))) rfl rfl fun _ => rfl

theorem batchCommitIpAnonymous_logs {blindedOwner : BytesN 32}
    (h : batchCommitIpAnonymous env blindedOwner hashes s = .ok (ids, s')) : Logs s s' := by
  simp [batchCommitIpAnonymous] at h
  obtain ⟨hsome, s₁, hadmin, s₂, hloop, _, hchecksum⟩ := h
  have hadded := Tx.forEach_rel Logs.refl Logs.trans
    (fun _ _ _ _ _ => commitOneAnonymous_logs) hloop
  exact (Logs.silent (Keeps.eq State.telling hadmin)).trans
    (hadded.trans (.silent (Keeps.eq State.telling hchecksum)))

theorem commitIpDelegated_logs {powDifficulty : ℕ}
    (h : commitIpDelegated env owner hash powDifficulty s = .ok (id, s')) : Logs s s' := by
  simp [commitIpDelegated] at h
  obtain ⟨-, -, -, -, -, s₁, howner, -, ⟨_, hchecksum⟩, rfl⟩ := h
  exact .entered ⟨"ip_commit", .ipCommitted owner s.ledger.count env.timestamp⟩
    (Keeps.eq State.telling howner) ((Keeps.eq State.telling hchecksum).trans rfl) fun _ => rfl

theorem createIpVersion_logs {parentIpId : ℕ}
    (h : createIpVersion env parentIpId hash s = .ok (id, s')) : Logs s s' := by
  simp [createIpVersion] at h
  obtain ⟨parent, hparent, -, -, -, s₁, hacyclic, s₂, howner, s₃, hversion, root, s₄, hroot, s₅,
    hchain, -, rfl, rfl⟩ := h
  obtain rfl := requireAcyclic_state hacyclic
  obtain rfl := findRoot_state hroot
  refine .entered ⟨"version", .versionCreated parent.owner parentIpId s₁.ledger.count⟩ (a := s₂)
    (Keeps.eq State.telling howner) ?_ fun _ => rfl
  have hkept : s₅.telling = s₂.telling :=
    (Keeps.eq State.telling hchain).trans ((Keeps.eq State.telling hversion).trans rfl)
  have hevents : s₅.events = s₂.events := congrArg Prod.fst hkept
  have hindexed : s₅.indexed = s₂.indexed := congrArg Prod.snd hkept
  exact Prod.ext (congrArg (· ++ _) hevents) hindexed

theorem transferIp_logs {newOwner : Address} (h : transferIp env ipId newOwner s = .ok (u, s')) :
    Logs s s' := by
  simp [transferIp] at h
  obtain ⟨r, hr, hauth, s₁, hremove, s₂, happend, haudit⟩ := h
  obtain rfl := Tx.store_ok.mp hremove
  obtain rfl := Tx.store_ok.mp happend
  obtain rfl := Tx.store_ok.mp haudit
  exact .single rfl (indexed_saveIp hr (fun r => { r with owner := newOwner }) rfl)

theorem revokeIp_logs (h : revokeIp env ipId s = .ok (u, s')) : Logs s s' := by
  simp [revokeIp] at h
  obtain ⟨r, hr, -, -, haudit⟩ := h
  obtain rfl := Tx.store_ok.mp haudit
  exact .single rfl (indexed_saveIp hr (fun r => { r with revoked := true }) rfl)

theorem addCoOwner_logs {coOwner : Address} (h : addCoOwner env ipId coOwner s = .ok (u, s')) :
    Logs s s' := by
  simp [addCoOwner] at h
  obtain ⟨r, hr, -, ⟨-, rfl⟩ | ⟨-, rfl⟩⟩ := h
  · exact .single rfl
      (indexed_saveIp hr (fun r => { r with coOwners := r.coOwners ++ [coOwner] }) rfl)
  · exact .refl _

theorem removeCoOwner_logs {coOwner : Address}
    (h : removeCoOwner env ipId coOwner s = .ok (u, s')) : Logs s s' := by
  simp [removeCoOwner] at h
  obtain ⟨r, hr, -, ⟨-, rfl⟩ | ⟨-, rfl⟩⟩ := h
  · exact .single rfl
      (indexed_saveIp hr (fun r => { r with coOwners := r.coOwners.erase coOwner }) rfl)
  · exact .refl _

/-- The duplicate is read before the primary is written, and is another record or none of it is
written. -/
theorem mergeDuplicateCommitment_logs {primaryIpId duplicateIpId : ℕ}
    (h : mergeDuplicateCommitment env primaryIpId duplicateIpId s = .ok (u, s')) : Logs s s' := by
  simp [mergeDuplicateCommitment, adoptCoOwner] at h
  obtain ⟨primary, hprimary, -, duplicate, hduplicate, -, s₁, hadopt, s₂, haudit, s₃, haudit',
    rfl⟩ := h
  obtain rfl := Tx.store_ok.mp haudit
  obtain rfl := Tx.store_ok.mp haudit'
  have hadopted : s₁.events = s.events ∧ s₁.ipRecord duplicateIpId = some duplicate ∧
      s₁.indexed = s.indexed.amend primaryIpId fun r =>
        if duplicate.owner ∉ r.coOwners ∧ duplicate.owner ≠ r.owner then
          { r with coOwners := r.coOwners ++ [duplicate.owner] }
        else r := by
    rcases hadopt with ⟨hnew, rfl⟩ | ⟨hold, rfl⟩
    · have hne : duplicateIpId ≠ primaryIpId := by
        rintro rfl
        rw [hprimary] at hduplicate
        exact hnew.2 (congrArg IpRecord.owner (Option.some.inj hduplicate)).symm
      refine ⟨rfl, (update_of_ne hne _ _).trans hduplicate, indexed_saveIp hprimary _ ?_⟩
      exact (if_pos hnew).symm
    · refine ⟨rfl, hduplicate, ?_⟩
      have hsame : s₁.setIpRecord primaryIpId (some primary) = s₁ := by
        rw [State.setIpRecord, ← hprimary]
        exact congrArg (fun t => { s₁ with ipRecord := t }) (update_eq_self ..)
      refine (congrArg State.indexed hsame).symm.trans (indexed_saveIp hprimary _ ?_)
      exact (if_neg fun hnew => hnew.2 (hold hnew.1)).symm
  obtain ⟨hevents, hstored, hindexed⟩ := hadopted
  refine .single (congrArg (· ++ _) hevents) ?_
  rw [Index.apply, ← hindexed]
  exact indexed_saveIp hstored (fun r => { r with revoked := true }) rfl

section SideData

theorem revealPartial_logs {partialHash blindingFactor : BytesN 32} {disclosed : Bool}
    (h : revealPartial env ipId partialHash blindingFactor s = .ok (disclosed, s')) :
    Logs s s' := by
  simp [revealPartial] at h
  obtain ⟨r, hr, hauth, ⟨-, rfl, -⟩ | ⟨-, -, rfl⟩⟩ := h
  · exact .single rfl rfl
  · exact .refl _

theorem grantIpAccess_logs {grantee : Address} {accessLevel : ℕ}
    (h : grantIpAccess env ipId grantee accessLevel s = .ok (u, s')) : Logs s s' := by
  simp [grantIpAccess] at h
  obtain ⟨r, -, -, -, rfl⟩ := h
  refine .single rfl ?_
  exact congrArg (fun grants => { s.indexed with grants }) (getD_update ..)

theorem revokeIpAccess_logs {grantee : Address}
    (h : revokeIpAccess env ipId grantee s = .ok (u, s')) : Logs s s' := by
  simp [revokeIpAccess] at h
  obtain ⟨r, -, -, ⟨-, rfl⟩ | ⟨-, rfl⟩⟩ := h
  · refine .single rfl ?_
    exact congrArg (fun grants => { s.indexed with grants }) (getD_update ..)
  · exact .refl _

theorem notarizeIpTimestamp_logs {signature : Bytes}
    (h : notarizeIpTimestamp env ipId signature s = .ok (u, s')) : Logs s s' := by
  simp [notarizeIpTimestamp] at h
  obtain ⟨r, hr, publicKey, -, -, -, rfl⟩ := h
  have hsame : (s.setIpRecord ipId (some (r.notarized signature))).indexed = s.indexed :=
    indexed_same hr rfl
  exact .single rfl hsame

theorem checkExpirationWarning_logs {threshold : ℕ} {warned : Bool}
    (h : checkExpirationWarning env ipId threshold s = .ok (warned, s')) : Logs s s' := by
  simp [checkExpirationWarning] at h
  obtain ⟨r, -, ⟨-, rfl, -⟩ | ⟨-, -, rfl⟩⟩ := h
  · exact .single rfl rfl
  · exact .refl _

theorem renewIp_logs (h : renewIp env ipId s = .ok (u, s')) : Logs s s' := by
  simp [renewIp] at h
  obtain ⟨r, -, -, -, -, rfl⟩ := h
  refine .single rfl ?_
  exact congrArg (fun renewals => { s.indexed with renewals }) (getD_update ..)

theorem assignIpToCategory_logs {categoryHash : BytesN 32}
    (h : assignIpToCategory env ipId categoryHash s = .ok (u, s')) : Logs s s' := by
  simp [assignIpToCategory] at h
  obtain ⟨r, hr, hauth, ⟨-, s₁, hcategories, rfl⟩ | ⟨-, rfl⟩⟩ := h
  · have hput : (s.setHierarchyNode (r.owner, categoryHash)
        (some ((s.hierarchyNode (r.owner, categoryHash)).getD [] ++ [ipId]))).indexed =
          s.indexed.apply (.ipCategorised r.owner ipId categoryHash) :=
      congrArg (fun categories => { s.indexed with categories }) (getD_update ..)
    rcases hcategories with ⟨-, rfl⟩ | ⟨-, rfl⟩ <;> exact .single rfl hput
  · exact .refl _

theorem rotateCommitmentKey_logs {secret blindingFactor : BytesN 32}
    (h : rotateCommitmentKey env ipId hash secret blindingFactor s = .ok (u, s')) :
    Logs s s' := by
  simp [rotateCommitmentKey] at h
  obtain ⟨r, hr, -, -, -, -, -, rfl⟩ := h
  have hsame : (s.setIpRecord ipId (some (r.rehashed hash))).indexed = s.indexed :=
    indexed_same hr rfl
  exact .single rfl hsame

end SideData

section Disputes

theorem initiateDispute_logs {challenger : Address} {evidenceHash : BytesN 32}
    (h : initiateDispute env ipId challenger evidenceHash s = .ok (id, s')) : Logs s s' := by
  simp [initiateDispute] at h
  obtain ⟨-, -, -, rfl, -⟩ := h
  exact .single rfl rfl

theorem submitDisputeEvidence_logs {submitter : Address} {evidenceHash : BytesN 32}
    (h : submitDisputeEvidence env id submitter evidenceHash s = .ok (u, s')) : Logs s s' := by
  simp [submitDisputeEvidence] at h
  obtain ⟨-, dispute, -, -, r, -, -, rfl⟩ := h
  exact .single rfl rfl

theorem resolveDispute_logs {winner : Address}
    (h : resolveDispute env id winner s = .ok (u, s')) : Logs s s' := by
  simp [resolveDispute] at h
  obtain ⟨-, dispute, -, -, rfl⟩ := h
  exact .single rfl rfl

theorem stakeCommitment_logs {amount : ℤ} (h : stakeCommitment env ipId amount s = .ok (u, s')) :
    Logs s s' := by
  simp [stakeCommitment] at h
  obtain ⟨r, -, -, -, rfl⟩ := h
  exact .single rfl rfl

theorem slashStake_logs (h : slashStake env ipId s = .ok (u, s')) : Logs s s' := by
  simp [slashStake, requireStake, reputationOf] at h
  obtain ⟨-, stake, hstake, -, -, rfl⟩ := h
  refine .single rfl ?_
  have hput : update s.ipStake ipId (some { stake with slashed := true }) =
      update s.ipStake ipId ((s.ipStake ipId).map fun stake => { stake with slashed := true }) := by
    rw [hstake]
    rfl
  exact congrArg (fun stakes => { s.indexed with stakes }) hput

theorem unstake_logs (h : unstake env ipId s = .ok (u, s')) : Logs s s' := by
  simp [unstake, requireStake] at h
  obtain ⟨stake, -, -, -, rfl⟩ := h
  exact .single rfl rfl

theorem nominateArbitrator_logs {arbitrator : Address}
    (h : nominateArbitrator env arbitrator s = .ok (u, s')) : Logs s s' := by
  simp [nominateArbitrator] at h
  obtain ⟨admin, -, ⟨-, rfl⟩ | ⟨-, rfl⟩⟩ := h
  · exact .single rfl rfl
  · exact .refl _

theorem openArbitration_logs {arbitrationId : ℕ}
    (h : openArbitration env id s = .ok (arbitrationId, s')) : Logs s s' := by
  simp [openArbitration] at h
  obtain ⟨-, -, -, rfl, -⟩ := h
  exact .silent rfl

theorem voteOnDispute_logs {voter : Address} {voteForOwner : Bool}
    (h : voteOnDispute env id voter voteForOwner s = .ok (u, s')) : Logs s s' := by
  obtain ⟨-, case, -, -, -, rfl⟩ := voteOnDispute_ok h
  exact .single rfl rfl

theorem finalizeArbitration_logs (h : finalizeArbitration env id s = .ok (u, s')) :
    Logs s s' := by
  simp [finalizeArbitration] at h
  obtain ⟨-, case, -, dispute, -, r, -, rfl⟩ := h
  exact .single rfl rfl

theorem delegateCommitmentAuthority_logs {root delegator delegate : Address}
    (h : delegateCommitmentAuthority env root delegator delegate s = .ok (u, s')) : Logs s s' := by
  obtain ⟨-, depth, -, -, ⟨-, rfl⟩ | ⟨-, rfl⟩⟩ := delegateCommitmentAuthority_ok.mp h
  · refine .single rfl ?_
    exact congrArg (fun delegates => { s.indexed with
      delegates
      depths := update s.delegateDepth delegate (some depth) }) (getD_update ..)
  · exact .refl _

theorem revokeDelegation_logs {delegate : Address}
    (h : revokeDelegation env owner delegate s = .ok (u, s')) : Logs s s' := by
  obtain ⟨-, rfl⟩ := revokeDelegation_ok.mp h
  refine .single rfl ?_
  exact congrArg (fun delegates => { s.indexed with
    delegates
    depths := update s.delegateDepth delegate none }) (getD_update ..)

theorem upgrade_logs (h : upgrade env hash s = .ok (u, s')) : Logs s s' := by
  simp [upgrade] at h
  obtain ⟨-, -, rfl⟩ := h
  exact .single rfl rfl

end Disputes

theorem exec_logged {call : Call} (h : exec env call s = .ok ((), s')) : Logs s s' := by
  cases call with
  | commitIp =>
    obtain ⟨_, h⟩ := Tx.void_ok.mp h
    exact commitIp_logs h
  | batchCommitIp =>
    obtain ⟨_, h⟩ := Tx.void_ok.mp h
    exact batchCommitIp_logs h
  | batchCommitIpAnonymous =>
    obtain ⟨_, h⟩ := Tx.void_ok.mp h
    exact batchCommitIpAnonymous_logs h
  | commitIpDelegated =>
    obtain ⟨_, h⟩ := Tx.void_ok.mp h
    exact commitIpDelegated_logs h
  | createIpVersion =>
    obtain ⟨_, h⟩ := Tx.void_ok.mp h
    exact createIpVersion_logs h
  | commitIpVersion =>
    obtain ⟨_, h⟩ := Tx.void_ok.mp h
    obtain ⟨_, _, hauth, hcreate⟩ := Tx.bind_ok.mp h
    obtain ⟨-, rfl⟩ := requireAuth_ok.mp hauth
    exact createIpVersion_logs hcreate
  | transferIp => exact transferIp_logs h
  | transferIpOwnership => exact transferIp_logs h
  | revokeIp => exact revokeIp_logs h
  | mergeDuplicateCommitment => exact mergeDuplicateCommitment_logs h
  | rotateCommitmentKey => exact rotateCommitmentKey_logs h
  | addCoOwner => exact addCoOwner_logs h
  | removeCoOwner => exact removeCoOwner_logs h
  | notarizeIpTimestamp => exact notarizeIpTimestamp_logs h
  | revealPartial =>
    obtain ⟨_, h⟩ := Tx.void_ok.mp h
    exact revealPartial_logs h
  | grantIpAccess => exact grantIpAccess_logs h
  | revokeIpAccess => exact revokeIpAccess_logs h
  | checkExpirationWarning =>
    obtain ⟨_, h⟩ := Tx.void_ok.mp h
    exact checkExpirationWarning_logs h
  | renewIp => exact renewIp_logs h
  | assignIpToCategory => exact assignIpToCategory_logs h
  | initiateDispute =>
    obtain ⟨_, h⟩ := Tx.void_ok.mp h
    exact initiateDispute_logs h
  | submitDisputeEvidence => exact submitDisputeEvidence_logs h
  | resolveDispute => exact resolveDispute_logs h
  | stakeCommitment => exact stakeCommitment_logs h
  | slashStake => exact slashStake_logs h
  | unstake => exact unstake_logs h
  | nominateArbitrator => exact nominateArbitrator_logs h
  | openArbitration =>
    obtain ⟨_, h⟩ := Tx.void_ok.mp h
    exact openArbitration_logs h
  | voteOnDispute => exact voteOnDispute_logs h
  | finalizeArbitration => exact finalizeArbitration_logs h
  | delegateCommitmentAuthority => exact delegateCommitmentAuthority_logs h
  | revokeDelegation => exact revokeDelegation_logs h
  | upgrade => exact upgrade_logs h
  | _ => exact .silent (exec_frame State.telling h fun t ht => blind_telling (by
      simp only [Call.writes, List.mem_singleton] at ht
      rw [ht]
      rfl))

end Calls

section Runs

variable {crypto : Crypto} {tr : List (Act × State)} {s : State}

/-- In every run the events, replayed in order, give the owners, co-owners, revocations and parents
of all IPs, and the access grants, disclosures, renewals, stakes, categories, delegations and
arbitrators, as the storage has them. -/
theorem events_replay (hrun : Run (ActStep crypto) State.empty tr s) :
    replay s.events = s.indexed :=
  hrun.invariant (I := fun s => replay s.events = s.indexed) rfl
    fun _ _ _ h hact => (exec_logged hact).replayed h

end Runs

section Designs

open Scenario

theorem design_replayed : ∃ (tr : List (Act × State)) (s : State),
    Run (ActStep Scenario.crypto) State.empty tr s ∧ replay s.events = s.indexed ∧
      ((replay s.events).ips 1).map (fun r => (r.owner, r.revoked)) = some (rival, true) := by
  obtain ⟨tr, s, hrun, -, hseen⟩ := played State.empty
    [act 5 inventor (.commitIp inventor design 0), act 6 inventor (.transferIp 1 rival),
      act 7 rival (.revokeIp 1)]
    (fun s => ((replay s.events).ips 1).map (fun r => (r.owner, r.revoked)) = some (rival, true))
    (by decide +kernel)
  exact ⟨tr, s, hrun, events_replay hrun, of_decide_eq_true hseen⟩

end Designs

end AtomicIp.IpRegistry
