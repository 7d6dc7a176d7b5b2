import AtomicIp.Registry.Records
import AtomicIp.Registry.Tables

/-!
What hangs on a record, and whose call it takes to change it. Licences, grants, prices,
disclosures, categories and co-owners take the owner's; metadata, compression and encryption
take anybody's.
-/

set_option autoImplicit false

namespace AtomicIp.IpRegistry

open Function

structure Attachments where
  batchMetadata : Option BatchMetadata
  compressionSelection : Option CompressionSelection
  encryptedCommitment : Option EncryptedCommitmentRecord
  ipLicenses : Option (List LicenseEntry)
  ipAccessGrants : Option (List IpAccessGrant)
  suggestedPrice : Option ℤ
  partialDisclosure : Option (BytesN 32)
  categories : Address × BytesN 32 → Prop

def State.attachments (ipId : ℕ) (s : State) : Attachments where
  batchMetadata := s.batchMetadata ipId
  compressionSelection := s.compressionSelection ipId
  encryptedCommitment := s.encryptedCommitment ipId
  ipLicenses := s.ipLicenses ipId
  ipAccessGrants := s.ipAccessGrants ipId
  suggestedPrice := s.suggestedPrice ipId
  partialDisclosure := s.partialDisclosure ipId
  categories node := ipId ∈ (s.hierarchyNode node).getD []

def Ledger.coOwnersOf (ipId : ℕ) (c : Ledger) : Option (List Address) :=
  (c.ipRecord ipId).map IpRecord.coOwners

/-- Nothing beside the record changes, and neither do its co-owners. -/
structure SameSideData (ipId : ℕ) (s s' : State) : Prop where
  attachments : s'.attachments ipId = s.attachments ipId
  coOwners : s'.ledger.coOwnersOf ipId = s.ledger.coOwnersOf ipId

def Table.attached : Table → Bool
  | .metadata | .compressions | .encryptions | .licenses | .grants | .prices | .disclosures
  | .categories => true
  | _ => false

section Frames

variable {env : Env} {s s' : State} {call : Call} {i j : ℕ} {t : Table} {c : Ledger}
  {r : IpRecord} {u : Unit}

theorem blind_attachments (h : t.attached = false) : Blind t (State.attachments i) := by
  cases t with
  | metadata | compressions | encryptions | licenses | grants | prices | disclosures
  | categories => cases h
  | _ => exact ⟨fun _ => rfl⟩

theorem blind_ledger (h : t ≠ .ledger) : Blind t State.ledger := by
  cases t with
  | ledger => exact absurd rfl h
  | _ => exact ⟨fun _ => rfl⟩

theorem exec_attachments (h : exec env call s = .ok (u, s'))
    (hwrites : ∀ t ∈ call.writes, t.attached = false) (i : ℕ) :
    s'.attachments i = s.attachments i :=
  exec_frame (State.attachments i) h fun t ht => blind_attachments (hwrites t ht)

theorem exec_ledger (h : exec env call s = .ok (u, s')) (hwrites : .ledger ∉ call.writes) :
    s'.ledger = s.ledger :=
  exec_frame State.ledger h fun _ ht => blind_ledger fun e => hwrites (e ▸ ht)

theorem coOwnersOf_setIpRecord_of_ne {entry : Option IpRecord} (hi : i ≠ j) :
    (c.setIpRecord j entry).coOwnersOf i = c.coOwnersOf i := by
  simp [Ledger.coOwnersOf, Ledger.setIpRecord, hi]

theorem coOwnersOf_rewrite (r' : IpRecord) (hr : c.ipRecord j = some r)
    (hsame : r'.coOwners = r.coOwners) :
    (c.setIpRecord j (some r')).coOwnersOf i = c.coOwnersOf i := by
  by_cases hi : i = j
  · subst hi
    simp [Ledger.coOwnersOf, Ledger.setIpRecord, hr, hsame]
  · exact coOwnersOf_setIpRecord_of_ne hi

end Frames

section Records

/-! Which calls leave the co-owners alone, and which take the owner's authorisation. -/

variable {env : Env} {s s' : State} {call : Call} {u : Unit} {i ipId : ℕ} {r : IpRecord}
  {a : Address}

theorem exec_registers (h : exec env call s = .ok ((), s')) (hwf : s.ledger.Wf)
    (hyields : ∀ m, call.yields m → ∃ q, m = .registered q) (hr : s.ledger.ipRecord i = some r) :
    s'.ledger.ipRecord i = some r := by
  have hkept := (exec_moves h).invariant (I := fun c => c.Wf ∧ c.ipRecord i = some r) ?_ ⟨hwf, hr⟩
  · exact hkept.2
  · intro c m c' hm hc hstep
    refine ⟨hstep.wf hc.1, ?_⟩
    obtain ⟨q, rfl⟩ := hyields m hm
    cases hstep with
    | registered =>
      have hne : i ≠ c.count := by
        intro hi
        rw [hi, hc.1.absent] at hc
        cases hc.2
      exact (update_of_ne hne _ _).trans hc.2

theorem transferIp_coOwners (h : transferIp env ipId a s = .ok (u, s')) (i : ℕ) :
    s'.ledger.coOwnersOf i = s.ledger.coOwnersOf i := by
  obtain ⟨r, hr, -, hledger⟩ := transferIp_ledger h
  rw [hledger]
  exact coOwnersOf_rewrite (r.ownedBy a) hr rfl

theorem revokeIp_coOwners (h : revokeIp env ipId s = .ok (u, s')) (i : ℕ) :
    s'.ledger.coOwnersOf i = s.ledger.coOwnersOf i := by
  simp [revokeIp] at h
  obtain ⟨r, hr, -, -, haudit⟩ := h
  rw [appendAuditEntry_ledger haudit]
  exact coOwnersOf_rewrite r.revoke hr rfl

theorem rotateCommitmentKey_coOwners {hash secret blindingFactor : BytesN 32}
    (h : rotateCommitmentKey env ipId hash secret blindingFactor s = .ok (u, s')) (i : ℕ) :
    s'.ledger.coOwnersOf i = s.ledger.coOwnersOf i := by
  simp [rotateCommitmentKey] at h
  obtain ⟨r, hr, -, -, -, -, -, rfl⟩ := h
  exact coOwnersOf_rewrite (r.rehashed hash) hr rfl

theorem notarizeIpTimestamp_coOwners {signature : Bytes}
    (h : notarizeIpTimestamp env ipId signature s = .ok (u, s')) (i : ℕ) :
    s'.ledger.coOwnersOf i = s.ledger.coOwnersOf i := by
  simp [notarizeIpTimestamp] at h
  obtain ⟨r, hr, publicKey, -, -, -, rfl⟩ := h
  exact coOwnersOf_rewrite (r.notarized signature) hr rfl

/-- The owner of the record authorised the call, which leaves other records' co-owners alone. -/
def CoOwnersByOwner (env : Env) (ipId : ℕ) (s s' : State) : Prop :=
  ∃ r, s.ledger.ipRecord ipId = some r ∧ r.owner ∈ env.auths ∧
    ∀ i, i ≠ ipId → s'.ledger.coOwnersOf i = s.ledger.coOwnersOf i

theorem addCoOwner_byOwner (h : addCoOwner env ipId a s = .ok (u, s')) :
    CoOwnersByOwner env ipId s s' := by
  simp [addCoOwner] at h
  obtain ⟨r, hr, hauth, ⟨-, rfl⟩ | ⟨-, rfl⟩⟩ := h
  · exact ⟨r, hr, hauth, fun _ hi => coOwnersOf_setIpRecord_of_ne (c := s.ledger) hi⟩
  · exact ⟨r, hr, hauth, fun _ _ => rfl⟩

theorem removeCoOwner_byOwner (h : removeCoOwner env ipId a s = .ok (u, s')) :
    CoOwnersByOwner env ipId s s' := by
  simp [removeCoOwner] at h
  obtain ⟨r, hr, hauth, ⟨-, rfl⟩ | ⟨-, rfl⟩⟩ := h
  · exact ⟨r, hr, hauth, fun _ hi => coOwnersOf_setIpRecord_of_ne (c := s.ledger) hi⟩
  · exact ⟨r, hr, hauth, fun _ _ => rfl⟩

theorem mergeDuplicateCommitment_byOwner {primaryIpId duplicateIpId : ℕ}
    (h : mergeDuplicateCommitment env primaryIpId duplicateIpId s = .ok (u, s')) :
    CoOwnersByOwner env primaryIpId s s' := by
  simp [mergeDuplicateCommitment, adoptCoOwner] at h
  obtain ⟨primary, hprimary, hauth, duplicate, hduplicate, -, s₁, hadopt, s₂, haudit, s₃, haudit',
    rfl⟩ := h
  refine ⟨primary, hprimary, hauth, ?_⟩
  intro i hi
  rw [State.ledger_published, appendAuditEntry_ledger haudit', appendAuditEntry_ledger haudit]
  rcases hadopt with ⟨⟨-, howner⟩, rfl⟩ | ⟨-, rfl⟩
  · have hne : duplicateIpId ≠ primaryIpId := by
      rintro rfl
      rw [hprimary] at hduplicate
      exact howner (congrArg IpRecord.owner (Option.some.inj hduplicate)).symm
    have hkept : (s.ledger.setIpRecord primaryIpId (some (primary.withCoOwners
        (primary.coOwners ++ [duplicate.owner])))).ipRecord duplicateIpId = some duplicate := by
      simpa [Ledger.setIpRecord, update_of_ne hne] using hduplicate
    exact (coOwnersOf_rewrite duplicate.revoke hkept rfl).trans
      (coOwnersOf_setIpRecord_of_ne hi)
  · exact coOwnersOf_rewrite duplicate.revoke hduplicate rfl

end Records

section Calls

variable {env : Env} {s s' : State} {u : Unit} {ipId : ℕ} {a : Address} {hash : BytesN 32}

/-- The owner of the record authorised the call, which leaves alone what hangs on others. -/
def AttachedByOwner (env : Env) (ipId : ℕ) (s s' : State) : Prop :=
  ∃ r, s.ledger.ipRecord ipId = some r ∧ r.owner ∈ env.auths ∧
    ∀ i, i ≠ ipId → s'.attachments i = s.attachments i

theorem revealPartial_byOwner {blindingFactor : BytesN 32} {disclosed : Bool}
    (h : revealPartial env ipId hash blindingFactor s = .ok (disclosed, s')) :
    AttachedByOwner env ipId s s' := by
  simp [revealPartial] at h
  obtain ⟨r, hr, hauth, ⟨-, rfl, -⟩ | ⟨-, -, rfl⟩⟩ := h
  · refine ⟨r, hr, hauth, ?_⟩
    intro i hi
    simp [State.attachments, State.published, State.setPartialDisclosure, hi]
  · exact ⟨r, hr, hauth, fun _ _ => rfl⟩

theorem grantLicense_byOwner (h : grantLicense env ipId a hash s = .ok (u, s')) :
    AttachedByOwner env ipId s s' := by
  simp [grantLicense] at h
  obtain ⟨r, hr, hauth, rfl⟩ := h
  refine ⟨r, hr, hauth, ?_⟩
  intro i hi
  simp [State.attachments, State.setIpLicenses, hi]

theorem revokeLicense_byOwner (h : revokeLicense env ipId a s = .ok (u, s')) :
    AttachedByOwner env ipId s s' := by
  simp [revokeLicense] at h
  obtain ⟨r, hr, hauth, -, rfl⟩ := h
  refine ⟨r, hr, hauth, ?_⟩
  intro i hi
  simp [State.attachments, State.setIpLicenses, hi]

theorem setIpSuggestedPrice_byOwner {price : ℤ}
    (h : setIpSuggestedPrice env ipId price s = .ok (u, s')) : AttachedByOwner env ipId s s' := by
  simp [setIpSuggestedPrice] at h
  obtain ⟨r, hr, hauth, rfl⟩ := h
  refine ⟨r, hr, hauth, ?_⟩
  intro i hi
  simp [State.attachments, State.setSuggestedPrice, hi]

theorem grantIpAccess_byOwner {level : ℕ} (h : grantIpAccess env ipId a level s = .ok (u, s')) :
    AttachedByOwner env ipId s s' := by
  simp [grantIpAccess] at h
  obtain ⟨r, hr, hauth, -, rfl⟩ := h
  refine ⟨r, hr, hauth, ?_⟩
  intro i hi
  simp [State.attachments, State.published, State.setIpAccessGrants, hi]

theorem revokeIpAccess_byOwner (h : revokeIpAccess env ipId a s = .ok (u, s')) :
    AttachedByOwner env ipId s s' := by
  simp [revokeIpAccess] at h
  obtain ⟨r, hr, hauth, ⟨-, rfl⟩ | ⟨-, rfl⟩⟩ := h
  · refine ⟨r, hr, hauth, ?_⟩
    intro i hi
    simp [State.attachments, State.published, State.setIpAccessGrants, hi]
  · exact ⟨r, hr, hauth, fun _ _ => rfl⟩

theorem attachments_assigned {i : ℕ} (s : State) (node : Address × BytesN 32) (hi : i ≠ ipId) :
    (s.setHierarchyNode node (some ((s.hierarchyNode node).getD [] ++ [ipId]))).attachments i =
      s.attachments i := by
  have hcategories : ∀ other,
      i ∈ ((s.setHierarchyNode node (some ((s.hierarchyNode node).getD [] ++ [ipId]))
        ).hierarchyNode other).getD [] ↔ i ∈ (s.hierarchyNode other).getD [] := by
    intro other
    by_cases hother : other = node
    · subst hother
      simp [State.setHierarchyNode, hi]
    · simp [State.setHierarchyNode, hother]
  simp only [State.attachments, hcategories]
  rfl

theorem assignIpToCategory_byOwner (h : assignIpToCategory env ipId hash s = .ok (u, s')) :
    AttachedByOwner env ipId s s' := by
  simp [assignIpToCategory] at h
  obtain ⟨r, hr, hauth, ⟨-, s₁, hcategories, rfl⟩ | ⟨-, rfl⟩⟩ := h
  · refine ⟨r, hr, hauth, ?_⟩
    intro i hi
    rcases hcategories with ⟨-, rfl⟩ | ⟨-, rfl⟩
    · exact attachments_assigned s (r.owner, hash) hi
    · exact attachments_assigned s (r.owner, hash) hi
  · exact ⟨r, hr, hauth, fun _ _ => rfl⟩

end Calls

section Guard

variable {crypto : Crypto} {s s' : State} {act : Act} {tr : List (Act × State)} {i ipId : ℕ}
  {r : IpRecord} {env : Env} {call : Call} {u : Unit}

/-- Metadata, a compression or an encryption that the IP has not got yet. -/
def Unguarded (s : State) (act : Act) (ipId : ℕ) : Prop :=
  match act.call with
  | .setBatchMetadata i batchId description =>
      i = ipId ∧ s.batchMetadata ipId ≠ some ⟨i, batchId, description, act.timestamp⟩
  | .setCommitmentCompression i algorithm =>
      i = ipId ∧ s.compressionSelection ipId ≠ some ⟨i, algorithm⟩
  | .encryptCommitment i encryptedHash keyHint =>
      i = ipId ∧ s.encryptedCommitment ipId ≠ some ⟨i, encryptedHash, keyHint, act.timestamp⟩
  | _ => False

theorem update_same_iff {α β : Type} [DecidableEq α] {f : α → β} {a b : α} {entry : β} :
    update f a entry b = f b ↔ ¬ (a = b ∧ f b ≠ entry) := by
  by_cases hab : b = a
  · subst hab
    simp [eq_comm]
  · simp [hab, Ne.symm hab]

theorem setBatchMetadata_same {batchId : BytesN 32} {description : Bytes}
    (h : setBatchMetadata env i batchId description s = .ok (u, s')) :
    SameSideData ipId s s' ↔
      ¬ (i = ipId ∧ s.batchMetadata ipId ≠ some ⟨i, batchId, description, env.timestamp⟩) := by
  simp [setBatchMetadata] at h
  obtain ⟨-, -, rfl⟩ := h
  rw [← update_same_iff]
  constructor
  · exact fun hsame => congrArg Attachments.batchMetadata hsame.attachments
  · intro hsame
    refine ⟨?_, rfl⟩
    simp [State.attachments, State.setBatchMetadata, hsame]

theorem setCommitmentCompression_same {algorithm : CompressionAlgo}
    (h : setCommitmentCompression i algorithm s = .ok (u, s')) :
    SameSideData ipId s s' ↔
      ¬ (i = ipId ∧ s.compressionSelection ipId ≠ some ⟨i, algorithm⟩) := by
  simp [setCommitmentCompression] at h
  obtain ⟨-, rfl⟩ := h
  rw [← update_same_iff]
  constructor
  · exact fun hsame => congrArg Attachments.compressionSelection hsame.attachments
  · intro hsame
    refine ⟨?_, rfl⟩
    simp [State.attachments, State.setCompressionSelection, hsame]

theorem encryptCommitment_same {encryptedHash : Bytes} {keyHint : BytesN 32}
    (h : encryptCommitment env i encryptedHash keyHint s = .ok (u, s')) :
    SameSideData ipId s s' ↔ ¬ (i = ipId ∧
      s.encryptedCommitment ipId ≠ some ⟨i, encryptedHash, keyHint, env.timestamp⟩) := by
  simp [encryptCommitment] at h
  obtain ⟨-, -, rfl⟩ := h
  rw [← update_same_iff]
  constructor
  · exact fun hsame => congrArg Attachments.encryptedCommitment hsame.attachments
  · intro hsame
    refine ⟨?_, rfl⟩
    simp [State.attachments, State.setEncryptedCommitment, hsame]

inductive Attaching (act : Act) (s s' : State) : Prop where
  | free (h : ∀ i, SameSideData i s s' ↔ ¬ Unguarded s act i)
  | byOwner (ipId : ℕ) (r : IpRecord) (hguarded : ∀ i, ¬ Unguarded s act i)
      (hr : s.ledger.ipRecord ipId = some r) (hauth : r.owner ∈ act.auths)
      (hothers : ∀ i, i ≠ ipId → SameSideData i s s')
  | kept (hguarded : ∀ i, ¬ Unguarded s act i)
      (h : ∀ i r, s.ledger.ipRecord i = some r → SameSideData i s s')

theorem AttachedByOwner.attaching (h : AttachedByOwner (act.env crypto) ipId s s')
    (hguarded : ∀ i, ¬ Unguarded s act i) (hledger : s'.ledger = s.ledger) :
    Attaching act s s' := by
  obtain ⟨r, hr, hauth, hothers⟩ := h
  refine .byOwner ipId r hguarded hr hauth fun i hi => ⟨hothers i hi, ?_⟩
  rw [hledger]

theorem CoOwnersByOwner.attaching (h : CoOwnersByOwner (act.env crypto) ipId s s')
    (hguarded : ∀ i, ¬ Unguarded s act i)
    (hattached : ∀ i, s'.attachments i = s.attachments i) : Attaching act s s' := by
  obtain ⟨r, hr, hauth, hothers⟩ := h
  exact .byOwner ipId r hguarded hr hauth fun i hi => ⟨hattached i, hothers i hi⟩

theorem Attaching.of_coOwners (hguarded : ∀ i, ¬ Unguarded s act i)
    (hattached : ∀ i, s'.attachments i = s.attachments i)
    (hcoOwners : ∀ i, s'.ledger.coOwnersOf i = s.ledger.coOwnersOf i) : Attaching act s s' :=
  .kept hguarded fun i _ _ => ⟨hattached i, hcoOwners i⟩

theorem Attaching.of_registers (hact : ActStep crypto s act s') (hwf : s.ledger.Wf)
    (hguarded : ∀ i, ¬ Unguarded s act i) (hattached : ∀ i, s'.attachments i = s.attachments i)
    (hyields : ∀ m, act.call.yields m → ∃ q, m = .registered q) : Attaching act s s' := by
  refine .kept hguarded fun i r hr => ⟨hattached i, ?_⟩
  rw [Ledger.coOwnersOf, Ledger.coOwnersOf, hr, exec_registers hact hwf hyields hr]

theorem ActStep.attaching (hact : ActStep crypto s act s') (hwf : s.ledger.Wf) :
    Attaching act s s' := by
  have hexec := hact
  obtain ⟨timestamp, auths, budget, call⟩ := act
  unfold ActStep at hexec
  cases call with
  | setBatchMetadata => exact .free fun i => setBatchMetadata_same hexec
  | setCommitmentCompression => exact .free fun i => setCommitmentCompression_same hexec
  | encryptCommitment => exact .free fun i => encryptCommitment_same hexec
  | revealPartial =>
    obtain ⟨_, hdisclosed⟩ := Tx.void_ok.mp hexec
    exact (revealPartial_byOwner hdisclosed).attaching (fun _ h => h)
      (exec_ledger hexec (by simp [Call.writes]))
  | grantLicense =>
    exact (grantLicense_byOwner hexec).attaching (fun _ h => h)
      (exec_ledger hexec (by simp [Call.writes]))
  | revokeLicense =>
    exact (revokeLicense_byOwner hexec).attaching (fun _ h => h)
      (exec_ledger hexec (by simp [Call.writes]))
  | setIpSuggestedPrice =>
    exact (setIpSuggestedPrice_byOwner hexec).attaching (fun _ h => h)
      (exec_ledger hexec (by simp [Call.writes]))
  | grantIpAccess =>
    exact (grantIpAccess_byOwner hexec).attaching (fun _ h => h)
      (exec_ledger hexec (by simp [Call.writes]))
  | revokeIpAccess =>
    exact (revokeIpAccess_byOwner hexec).attaching (fun _ h => h)
      (exec_ledger hexec (by simp [Call.writes]))
  | assignIpToCategory =>
    exact (assignIpToCategory_byOwner hexec).attaching (fun _ h => h)
      (exec_ledger hexec (by simp [Call.writes]))
  | addCoOwner =>
    exact (addCoOwner_byOwner hexec).attaching (fun _ h => h)
      (exec_attachments hexec (by simp [Call.writes, Table.attached]))
  | removeCoOwner =>
    exact (removeCoOwner_byOwner hexec).attaching (fun _ h => h)
      (exec_attachments hexec (by simp [Call.writes, Table.attached]))
  | mergeDuplicateCommitment =>
    exact (mergeDuplicateCommitment_byOwner hexec).attaching (fun _ h => h)
      (exec_attachments hexec (by simp [Call.writes, Table.attached]))
  | transferIp | transferIpOwnership =>
    exact .of_coOwners (fun _ h => h)
      (exec_attachments hexec (by simp [Call.writes, Table.attached])) (transferIp_coOwners hexec)
  | revokeIp =>
    exact .of_coOwners (fun _ h => h)
      (exec_attachments hexec (by simp [Call.writes, Table.attached])) (revokeIp_coOwners hexec)
  | rotateCommitmentKey =>
    exact .of_coOwners (fun _ h => h)
      (exec_attachments hexec (by simp [Call.writes, Table.attached]))
      (rotateCommitmentKey_coOwners hexec)
  | notarizeIpTimestamp =>
    exact .of_coOwners (fun _ h => h)
      (exec_attachments hexec (by simp [Call.writes, Table.attached]))
      (notarizeIpTimestamp_coOwners hexec)
  | commitIp | batchCommitIp | batchCommitIpAnonymous | commitIpDelegated | createIpVersion
  | commitIpVersion =>
    refine .of_registers hact hwf (fun _ h => h)
      (exec_attachments hexec (by simp [Call.writes, Table.attached])) ?_
    intro m hm
    obtain ⟨q, rfl, -⟩ := hm
    exact ⟨q, rfl⟩
  | _ =>
    have hledger := exec_ledger hexec (by simp [Call.writes])
    exact .of_coOwners (fun _ h => h)
      (exec_attachments hexec (by simp [Call.writes, Table.attached])) fun i => by rw [hledger]

/-- A call changes the side data of an IP on the authority of its owner just when it is none of
the three that ask nobody, or the owner authorised it all the same. -/
theorem side_data_by_owner (hrun : Run (ActStep crypto) State.empty tr s)
    (hact : ActStep crypto s act s') (hr : s.ipRecord ipId = some r) :
    (¬ SameSideData ipId s s' → r.owner ∈ act.auths) ↔
      ¬ Unguarded s act ipId ∨ r.owner ∈ act.auths := by
  cases hact.attaching (run_wf hrun) with
  | free h =>
    rw [h ipId, not_not, imp_iff_not_or]
  | byOwner other q hguarded hq hauth hothers =>
    constructor
    · exact fun _ => .inl (hguarded ipId)
    · intro _ hchanged
      by_cases hsame : ipId = other
      · subst hsame
        obtain rfl := Option.some.inj (hr.symm.trans hq)
        exact hauth
      · exact absurd (hothers ipId hsame) hchanged
  | kept hguarded h =>
    constructor
    · exact fun _ => .inl (hguarded ipId)
    · exact fun _ hchanged => absurd (h ipId r hr) hchanged

end Guard

section Strangers

open Scenario

def licenses : Act := act 6 inventor (.grantLicense 1 rival laterDesign)

def describes : Act := act 6 rival (.setBatchMetadata 1 laterDesign [])

theorem license_by_owner : ∃ (a b : State) (r : IpRecord), a.ipRecord 1 = some r ∧
    ActStep crypto a licenses b ∧ ¬ SameSideData 1 a b ∧ r.owner ∈ licenses.auths := by
  obtain ⟨tr, a, hrun, -, hseen⟩ :=
    played State.empty [act 5 inventor (.commitIp inventor design 0)]
    (fun a => (a.ipRecord 1).isSome &&
      endsIn perform [licenses] a fun b => b.ipLicenses 1 ≠ a.ipLicenses 1) (by decide)
  simp only [Bool.and_eq_true] at hseen
  obtain ⟨hknown, hlater⟩ := hseen
  obtain ⟨r, hr⟩ := Option.isSome_iff_exists.mp hknown
  obtain ⟨b, hlicenses, hnew⟩ := endsIn_one hlater
  have hchanged : ¬ SameSideData 1 a b := fun hsame =>
    of_decide_eq_true hnew (congrArg Attachments.ipLicenses hsame.attachments)
  have hguarded : ¬ Unguarded a licenses 1 := fun h => h
  exact ⟨a, b, r, hr, hlicenses, hchanged,
    (side_data_by_owner hrun hlicenses hr).mpr (.inl hguarded) hchanged⟩

/-- The rival describes the inventor's design. -/
theorem stranger_describes : ∃ (tr : List (Act × State)) (a b : State) (r : IpRecord),
    Run (ActStep crypto) State.empty tr a ∧ ActStep crypto a describes b ∧
      a.ipRecord 1 = some r ∧ ¬ SameSideData 1 a b ∧ r.owner ∉ describes.auths := by
  obtain ⟨tr, a, hrun, -, hseen⟩ :=
    played State.empty [act 5 inventor (.commitIp inventor design 0)]
    (fun a => ((a.ipRecord 1).any fun r => r.owner = inventor) &&
      endsIn perform [describes] a fun b => b.batchMetadata 1 ≠ a.batchMetadata 1) (by decide)
  simp only [Bool.and_eq_true, Option.any_eq_true, decide_eq_true_eq] at hseen
  obtain ⟨⟨r, hr, howner⟩, hlater⟩ := hseen
  obtain ⟨b, hdescribes, hnew⟩ := endsIn_one hlater
  have hchanged : ¬ SameSideData 1 a b := fun hsame =>
    of_decide_eq_true hnew (congrArg Attachments.batchMetadata hsame.attachments)
  refine ⟨tr, a, b, r, hrun, hdescribes, hr, hchanged, ?_⟩
  rw [howner]
  decide

end Strangers

end AtomicIp.IpRegistry
