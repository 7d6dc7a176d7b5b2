import AtomicIp.Lib.Registers
import AtomicIp.Registry.AccessGrants
import AtomicIp.Registry.Duplicates
import AtomicIp.Registry.Views

set_option autoImplicit false

namespace AtomicIp.IpRegistry

open Function Tx

section Views

variable (ipId : ℕ)

def getThresholdConfig : RegistryTx (Option ThresholdConfig) := do
  let _ ← requireIpExists ipId
  Tx.load fun s => s.thresholdConfig ipId

def getBatchMetadata : RegistryTx (Option BatchMetadata) := do
  let _ ← requireIpExists ipId
  Tx.load fun s => s.batchMetadata ipId

def getEncryptedCommitment : RegistryTx (Option EncryptedCommitmentRecord) := do
  let _ ← requireIpExists ipId
  Tx.load fun s => s.encryptedCommitment ipId

def getLicenses : RegistryTx (List LicenseEntry) := do
  let _ ← requireIpExists ipId
  Tx.load fun s => (s.ipLicenses ipId).getD []

def getIpSuggestedPrice : RegistryTx (Option ℤ) := do
  let _ ← requireIpExists ipId
  Tx.load fun s => s.suggestedPrice ipId

def getIpNotarySignature : RegistryTx (Option Bytes) := do
  let record ← requireIpExists ipId
  pure record.notarySignature

theorem guarded_eq {α : Type} {s : State} {r : IpRecord} (f : State → α)
    (hr : s.ipRecord ipId = some r) :
    (requireIpExists ipId >>= fun _ => (Tx.load f : RegistryTx α)) s = .ok (f s, s) := by
  simp at hr
  simp [requireIpExists, hr]

end Views

section Fields

variable {α : Type} {f : IpRecord → α} {d : α} {env : Env} {c c' : Ledger} {m : Move} {call : Call}
  {s s' : State} {i : ℕ} {r r' : IpRecord}

/-- A field that new records have alike, and that no transfer, rotation or revocation changes. -/
structure Steady (f : IpRecord → α) (d : α) : Prop where
  fresh : ∀ id owner hash time parent, f (newRecord id owner hash time parent) = d
  rehashed : ∀ r hash, f (r.rehashed hash) = f r
  ownedBy : ∀ (r : IpRecord) owner, f (r.ownedBy owner) = f r
  revoke : ∀ r : IpRecord, f r.revoke = f r

theorem steady_coOwners : Steady IpRecord.coOwners [] :=
  ⟨fun _ _ _ _ _ => rfl, fun _ _ => rfl, fun _ _ => rfl, fun _ => rfl⟩

theorem steady_notarySignature : Steady IpRecord.notarySignature none :=
  ⟨fun _ _ _ _ _ => rfl, fun _ _ => rfl, fun _ _ => rfl, fun _ => rfl⟩

/-- The field of an IP's record; where there is no record, that of a new one. -/
def Ledger.fieldOf (f : IpRecord → α) (d : α) (c : Ledger) (i : ℕ) : α :=
  ((c.ipRecord i).map f).getD d

theorem fieldOf_some (hr : c.ipRecord i = some r) : c.fieldOf f d i = f r := by
  simp [Ledger.fieldOf, hr]

theorem fieldOf_setIpRecord :
    (c.setIpRecord i (some r')).fieldOf f d = update (c.fieldOf f d) i (f r') := by
  funext j
  by_cases hj : j = i
  · subst hj
    simp [Ledger.fieldOf, Ledger.setIpRecord]
  · simp [Ledger.fieldOf, Ledger.setIpRecord, hj]

theorem fieldOf_rewrite (hr : c.ipRecord i = some r) (hsame : f r' = f r) :
    (c.setIpRecord i (some r')).fieldOf f d = c.fieldOf f d := by
  have hold : c.fieldOf f d i = f r := fieldOf_some hr
  rw [fieldOf_setIpRecord, hsame, ← hold, update_eq_self]

theorem Step.fieldOf (hf : Steady f d) (hstep : Step env c m c') (hwf : c.Wf)
    (hm : ∀ j, m ≠ .revised j) : c'.fieldOf f d = c.fieldOf f d := by
  cases hstep with
  | registered =>
    have hnone : c.fieldOf f d c.count = d := by simp [Ledger.fieldOf, hwf.absent]
    refine (fieldOf_setIpRecord (c := c)).trans ?_
    rw [hf.fresh, update_eq_iff]
    exact ⟨hnone.symm, fun _ _ => rfl⟩
  | rotated hr => exact fieldOf_rewrite (c := c) hr (hf.rehashed _ _)
  | transferred hr => exact fieldOf_rewrite (c := c) hr (hf.ownedBy _ _)
  | @revised j => exact absurd rfl (hm j)

def Call.amends : Call → Bool
  | .addCoOwner .. | .removeCoOwner .. | .notarizeIpTimestamp .. => true
  | _ => false

theorem exec_fieldOf (hf : Steady f d) (h : exec env call s = .ok ((), s')) (hwf : s.ledger.Wf)
    (hcall : call.amends = false) : s'.ledger.fieldOf f d = s.ledger.fieldOf f d := by
  cases call with
  | addCoOwner | removeCoOwner | notarizeIpTimestamp => cases hcall
  | revokeIp ipId =>
    simp [exec, revokeIp] at h
    obtain ⟨r, hr, -, -, haudit⟩ := h
    rw [appendAuditEntry_ledger haudit]
    exact fieldOf_rewrite (c := s.ledger) hr (hf.revoke r)
  | mergeDuplicateCommitment primaryIpId duplicateIpId =>
    obtain ⟨-, r, hr, -, hrecords⟩ := mergeDuplicateCommitment_self hwf h
    have hset : s'.ledger.fieldOf f d = (s.ledger.setIpRecord primaryIpId
        (some r.revoke)).fieldOf f d := by
      funext i
      exact congrArg (fun o : Option IpRecord => (o.map f).getD d) (congrFun hrecords i)
    rw [hset]
    exact fieldOf_rewrite (c := s.ledger) hr (hf.revoke r)
  | _ =>
    have hkept := (exec_moves h).invariant
      (I := fun c => c.Wf ∧ c.fieldOf f d = s.ledger.fieldOf f d) ?_ ⟨hwf, rfl⟩
    · exact hkept.2
    · intro c m c' hm hc hstep
      exact ⟨hstep.wf hc.1, (hstep.fieldOf hf hc.1 (by grind [Call.yields])).trans hc.2⟩

end Fields

section Writes

/-! What a call writes into each table. -/

variable (act : Act)

def writesPrice (_ : State) (act : Act) : Option (ℕ × Option ℤ) :=
  match act.call with
  | .setIpSuggestedPrice ipId price => some (ipId, if price = 0 then none else some price)
  | _ => none

def writesMetadata (_ : State) (act : Act) : Option (ℕ × Option BatchMetadata) :=
  match act.call with
  | .setBatchMetadata ipId batchId description =>
    some (ipId, some ⟨ipId, batchId, description, act.timestamp⟩)
  | _ => none

def writesCompression (_ : State) (act : Act) : Option (ℕ × Option CompressionSelection) :=
  match act.call with
  | .setCommitmentCompression ipId algorithm => some (ipId, some ⟨ipId, algorithm⟩)
  | _ => none

def writesEncryption (_ : State) (act : Act) : Option (ℕ × Option EncryptedCommitmentRecord) :=
  match act.call with
  | .encryptCommitment ipId encryptedHash keyHint =>
    some (ipId, some ⟨ipId, encryptedHash, keyHint, act.timestamp⟩)
  | _ => none

def writesThreshold (_ : State) (act : Act) : Option (ℕ × Option ThresholdConfig) :=
  match act.call with
  | .requireThresholdSignatures ipId threshold signers =>
    some (ipId, some ⟨ipId, threshold, signers.length, signers⟩)
  | _ => none

def writesNotaryKey (_ : State) (act : Act) : Option (Unit × Option (BytesN 32)) :=
  match act.call with
  | .setNotaryPublicKey publicKey => some ((), some publicKey)
  | _ => none

def writesSignature (_ : State) (act : Act) : Option (ℕ × Option Bytes) :=
  match act.call with
  | .notarizeIpTimestamp ipId notarySignature => some (ipId, some notarySignature)
  | _ => none

def writesLicense (_ : State) (act : Act) : Option ((ℕ × Address) × Option (BytesN 32)) :=
  match act.call with
  | .grantLicense ipId licensee termsHash => some ((ipId, licensee), some termsHash)
  | .revokeLicense ipId licensee => some ((ipId, licensee), none)
  | _ => none

def writesCoOwner (_ : State) (act : Act) : Option ((ℕ × Address) × Bool) :=
  match act.call with
  | .addCoOwner ipId coOwner => some ((ipId, coOwner), true)
  | .removeCoOwner ipId coOwner => some ((ipId, coOwner), false)
  | _ => none

end Writes

section Calls

variable {crypto : Crypto} {s s' : State} {act : Act}

theorem ActStep.untouched {ω : Type} {view : State → ω} {t : Table}
    (hblind : ∀ t', t' ≠ t → Blind t' view) (hact : ActStep crypto s act s')
    (ht : t ∉ act.call.writes) : view s' = view s :=
  exec_frame view hact fun t' ht' => hblind t' fun h => ht (h ▸ ht')

theorem blind_suggestedPrice {t : Table} (h : t ≠ .prices) : Blind t State.suggestedPrice := by
  cases t with
  | prices => exact absurd rfl h
  | _ => exact ⟨fun _ => rfl⟩

theorem ActStep.price (hact : ActStep crypto s act s') :
    s'.suggestedPrice = written s.suggestedPrice (writesPrice s act) := by
  obtain ⟨timestamp, auths, budget, call⟩ := act
  unfold ActStep at hact
  cases call with
  | setIpSuggestedPrice =>
    simp [exec, setIpSuggestedPrice] at hact
    obtain ⟨r, -, -, rfl⟩ := hact
    rfl
  | _ => exact ActStep.untouched (fun _ => blind_suggestedPrice) hact (by simp [Call.writes])

theorem blind_batchMetadata {t : Table} (h : t ≠ .metadata) : Blind t State.batchMetadata := by
  cases t with
  | metadata => exact absurd rfl h
  | _ => exact ⟨fun _ => rfl⟩

theorem ActStep.metadata (hact : ActStep crypto s act s') :
    s'.batchMetadata = written s.batchMetadata (writesMetadata s act) := by
  obtain ⟨timestamp, auths, budget, call⟩ := act
  unfold ActStep at hact
  cases call with
  | setBatchMetadata =>
    simp [exec, setBatchMetadata] at hact
    obtain ⟨-, -, rfl⟩ := hact
    rfl
  | _ => exact ActStep.untouched (fun _ => blind_batchMetadata) hact (by simp [Call.writes])

theorem blind_compressionSelection {t : Table} (h : t ≠ .compressions) :
    Blind t State.compressionSelection := by
  cases t with
  | compressions => exact absurd rfl h
  | _ => exact ⟨fun _ => rfl⟩

theorem ActStep.compression (hact : ActStep crypto s act s') :
    s'.compressionSelection = written s.compressionSelection (writesCompression s act) := by
  obtain ⟨timestamp, auths, budget, call⟩ := act
  unfold ActStep at hact
  cases call with
  | setCommitmentCompression =>
    simp [exec, setCommitmentCompression] at hact
    obtain ⟨-, rfl⟩ := hact
    rfl
  | _ => exact ActStep.untouched (fun _ => blind_compressionSelection) hact (by simp [Call.writes])

theorem blind_encryptedCommitment {t : Table} (h : t ≠ .encryptions) :
    Blind t State.encryptedCommitment := by
  cases t with
  | encryptions => exact absurd rfl h
  | _ => exact ⟨fun _ => rfl⟩

theorem ActStep.encryption (hact : ActStep crypto s act s') :
    s'.encryptedCommitment = written s.encryptedCommitment (writesEncryption s act) := by
  obtain ⟨timestamp, auths, budget, call⟩ := act
  unfold ActStep at hact
  cases call with
  | encryptCommitment =>
    simp [exec, encryptCommitment] at hact
    obtain ⟨-, -, rfl⟩ := hact
    rfl
  | _ => exact ActStep.untouched (fun _ => blind_encryptedCommitment) hact (by simp [Call.writes])

theorem blind_thresholdConfig {t : Table} (h : t ≠ .thresholds) :
    Blind t State.thresholdConfig := by
  cases t with
  | thresholds => exact absurd rfl h
  | _ => exact ⟨fun _ => rfl⟩

theorem ActStep.threshold (hact : ActStep crypto s act s') :
    s'.thresholdConfig = written s.thresholdConfig (writesThreshold s act) := by
  obtain ⟨timestamp, auths, budget, call⟩ := act
  unfold ActStep at hact
  cases call with
  | requireThresholdSignatures =>
    simp [exec, requireThresholdSignatures] at hact
    obtain ⟨-, -, rfl⟩ := hact
    rfl
  | addThresholdSignature =>
    simp [exec, addThresholdSignature] at hact
    obtain ⟨-, config, -, -, -, rfl⟩ := hact
    rfl
  | _ => exact ActStep.untouched (fun _ => blind_thresholdConfig) hact (by simp [Call.writes])

def State.notaryKey (s : State) (_ : Unit) : Option (BytesN 32) := s.notaryPublicKey

theorem blind_notaryKey {t : Table} (h : t ≠ .notary) : Blind t State.notaryKey := by
  cases t with
  | notary => exact absurd rfl h
  | _ => exact ⟨fun _ => rfl⟩

theorem ActStep.notaryKey (hact : ActStep crypto s act s') :
    s'.notaryKey = written s.notaryKey (writesNotaryKey s act) := by
  obtain ⟨timestamp, auths, budget, call⟩ := act
  unfold ActStep at hact
  cases call with
  | setNotaryPublicKey =>
    simp [exec, setNotaryPublicKey] at hact
    obtain ⟨-, rfl⟩ := hact
    funext u
    cases u
    rfl
  | _ => exact ActStep.untouched (fun _ => blind_notaryKey) hact (by simp [Call.writes])

def State.signatures (s : State) : ℕ → Option Bytes :=
  s.ledger.fieldOf IpRecord.notarySignature none

theorem ActStep.signature (hact : ActStep crypto s act s') (hwf : s.ledger.Wf) :
    s'.signatures = written s.signatures (writesSignature s act) := by
  obtain ⟨timestamp, auths, budget, call⟩ := act
  unfold ActStep at hact
  cases call with
  | notarizeIpTimestamp ipId notarySignature =>
    simp [exec, notarizeIpTimestamp] at hact
    obtain ⟨r, hr, publicKey, -, -, -, rfl⟩ := hact
    exact fieldOf_setIpRecord (c := s.ledger)
  | addCoOwner =>
    simp [exec, addCoOwner] at hact
    obtain ⟨r, hr, -, ⟨-, rfl⟩ | ⟨-, rfl⟩⟩ := hact
    · exact fieldOf_rewrite (c := s.ledger) hr rfl
    · rfl
  | removeCoOwner =>
    simp [exec, removeCoOwner] at hact
    obtain ⟨r, hr, -, ⟨-, rfl⟩ | ⟨-, rfl⟩⟩ := hact
    · exact fieldOf_rewrite (c := s.ledger) hr rfl
    · rfl
  | _ => exact exec_fieldOf steady_notarySignature hact hwf rfl

end Calls

section Lists

/-! Licences and co-owners are lists; what they hold is a register for each name. -/

variable {crypto : Crypto} {s s' : State} {act : Act}

def State.licenses (s : State) (ipId : ℕ) : List LicenseEntry := (s.ipLicenses ipId).getD []

def State.licensed (s : State) (p : ℕ × Address) : Option (BytesN 32) :=
  (firstWith LicenseEntry.licensee p.2 (s.licenses p.1)).map LicenseEntry.termsHash

def State.coOwners (s : State) : ℕ → List Address := s.ledger.fieldOf IpRecord.coOwners []

def State.coOwned (s : State) (p : ℕ × Address) : Bool := decide (p.2 ∈ s.coOwners p.1)

structure NamedOnce (s : State) : Prop where
  wf : s.ledger.Wf
  licenses : ∀ i, ((s.licenses i).map LicenseEntry.licensee).Nodup
  coOwners : ∀ i, (s.coOwners i).Nodup

theorem licenses_set (entries : List LicenseEntry) (i : ℕ) :
    (s.setIpLicenses i (some entries)).licenses = update s.licenses i entries := by
  funext j
  by_cases hj : j = i
  · subst hj
    simp [State.licenses, State.setIpLicenses]
  · simp [State.licenses, State.setIpLicenses, hj]

theorem blind_licenses {t : Table} (h : t ≠ .licenses) : Blind t State.licenses := by
  cases t with
  | licenses => exact absurd rfl h
  | _ => exact ⟨fun _ => rfl⟩

inductive Licensing (s s' : State) (act : Act) : Prop where
  | kept (hwrite : writesLicense s act = none) (h : s'.licenses = s.licenses)
  | granted (i : ℕ) (licensee : Address) (termsHash : BytesN 32)
      (hwrite : writesLicense s act = some ((i, licensee), some termsHash))
      (h : s'.licenses = update s.licenses i
        (upsert LicenseEntry.licensee ⟨licensee, termsHash⟩ (s.licenses i)))
  | revoked (i : ℕ) (licensee : Address)
      (hwrite : writesLicense s act = some ((i, licensee), none))
      (h : s'.licenses = update s.licenses i
        (without LicenseEntry.licensee licensee (s.licenses i)))

theorem ActStep.licensing (hact : ActStep crypto s act s') : Licensing s s' act := by
  obtain ⟨timestamp, auths, budget, call⟩ := act
  unfold ActStep at hact
  cases call with
  | grantLicense ipId licensee termsHash =>
    simp [exec, grantLicense] at hact
    obtain ⟨r, -, -, rfl⟩ := hact
    exact .granted ipId licensee termsHash rfl (licenses_set _ ipId)
  | revokeLicense ipId licensee =>
    simp [exec, revokeLicense] at hact
    obtain ⟨r, -, -, -, rfl⟩ := hact
    exact .revoked ipId licensee rfl (licenses_set _ ipId)
  | _ =>
    exact .kept rfl (ActStep.untouched (fun _ => blind_licenses) hact (by simp [Call.writes]))

theorem Licensing.nodup (h : Licensing s s' act)
    (honce : ∀ i, ((s.licenses i).map LicenseEntry.licensee).Nodup) (i : ℕ) :
    ((s'.licenses i).map LicenseEntry.licensee).Nodup := by
  cases h with
  | kept hwrite h =>
    rw [h]
    exact honce i
  | granted j licensee termsHash hwrite h =>
    rw [h]
    by_cases hi : i = j
    · subst hi
      rw [update_self]
      exact nodup_upsert (honce i)
    · rw [update_of_ne hi]
      exact honce i
  | revoked j licensee hwrite h =>
    rw [h]
    by_cases hi : i = j
    · subst hi
      rw [update_self]
      exact nodup_without (honce i)
    · rw [update_of_ne hi]
      exact honce i

theorem Licensing.licensed (h : Licensing s s' act)
    (honce : ∀ i, ((s.licenses i).map LicenseEntry.licensee).Nodup) :
    s'.licensed = written s.licensed (writesLicense s act) := by
  funext p
  obtain ⟨i, a⟩ := p
  cases h with
  | kept hwrite h =>
    rw [hwrite]
    simp only [State.licensed, h, written]
  | granted j licensee termsHash hwrite h =>
    rw [hwrite]
    simp only [State.licensed, h, written]
    by_cases hi : i = j
    · subst hi
      by_cases ha : a = licensee
      · subst ha
        have hself : firstWith LicenseEntry.licensee a (upsert LicenseEntry.licensee
            ⟨a, termsHash⟩ (s.licenses i)) = some ⟨a, termsHash⟩ := firstWith_upsert_self rfl
        rw [update_self, update_self, hself]
        rfl
      · rw [update_self, update_of_ne (by simpa using ha), firstWith_upsert_of_ne ha]
        rfl
    · rw [update_of_ne hi, update_of_ne (by simp [hi])]
      rfl
  | revoked j licensee hwrite h =>
    rw [hwrite]
    simp only [State.licensed, h, written]
    by_cases hi : i = j
    · subst hi
      by_cases ha : a = licensee
      · subst ha
        rw [update_self, update_self, firstWith_without_self (honce i)]
        rfl
      · rw [update_self, update_of_ne (by simpa using ha), firstWith_without_of_ne ha]
        rfl
    · rw [update_of_ne hi, update_of_ne (by simp [hi])]
      rfl

inductive CoOwning (s s' : State) (act : Act) : Prop where
  | kept (hwrite : writesCoOwner s act = none) (h : s'.coOwners = s.coOwners)
  | added (i : ℕ) (coOwner : Address) (hwrite : writesCoOwner s act = some ((i, coOwner), true))
      (h : s'.coOwners = update s.coOwners i (if coOwner ∈ s.coOwners i then s.coOwners i
        else s.coOwners i ++ [coOwner]))
  | removed (i : ℕ) (coOwner : Address)
      (hwrite : writesCoOwner s act = some ((i, coOwner), false))
      (h : s'.coOwners = update s.coOwners i ((s.coOwners i).erase coOwner))

theorem ActStep.coOwning (hact : ActStep crypto s act s') (hwf : s.ledger.Wf) :
    CoOwning s s' act := by
  obtain ⟨timestamp, auths, budget, call⟩ := act
  unfold ActStep at hact
  cases call with
  | addCoOwner ipId coOwner =>
    simp [exec, addCoOwner] at hact
    obtain ⟨r, hr, -, hadded⟩ := hact
    have hold : s.coOwners ipId = r.coOwners := fieldOf_some hr
    refine .added ipId coOwner rfl ?_
    rw [hold]
    obtain ⟨hnew, rfl⟩ | ⟨hmem, rfl⟩ := hadded
    · rw [if_neg hnew]
      exact fieldOf_setIpRecord (c := s.ledger)
    · rw [if_pos hmem, ← hold, update_eq_self]
  | removeCoOwner ipId coOwner =>
    simp [exec, removeCoOwner] at hact
    obtain ⟨r, hr, -, hremoved⟩ := hact
    have hold : s.coOwners ipId = r.coOwners := fieldOf_some hr
    refine .removed ipId coOwner rfl ?_
    rw [hold]
    obtain ⟨-, rfl⟩ | ⟨habsent, rfl⟩ := hremoved
    · exact fieldOf_setIpRecord (c := s.ledger)
    · rw [List.erase_of_not_mem habsent, ← hold, update_eq_self]
  | notarizeIpTimestamp =>
    simp [exec, notarizeIpTimestamp] at hact
    obtain ⟨r, hr, publicKey, -, -, -, rfl⟩ := hact
    exact .kept rfl (fieldOf_rewrite (c := s.ledger) hr rfl)
  | _ => exact .kept rfl (exec_fieldOf steady_coOwners hact hwf rfl)

theorem CoOwning.nodup (h : CoOwning s s' act) (honce : ∀ i, (s.coOwners i).Nodup) (i : ℕ) :
    (s'.coOwners i).Nodup := by
  cases h with
  | kept hwrite h =>
    rw [h]
    exact honce i
  | added j coOwner hwrite h =>
    rw [h]
    by_cases hi : i = j
    · subst hi
      rw [update_self]
      split_ifs with hmem
      · exact honce i
      · exact List.nodup_append.mpr ⟨honce i, List.nodup_singleton coOwner, by
          simpa using fun a ha (h : a = coOwner) => hmem (h ▸ ha)⟩
    · rw [update_of_ne hi]
      exact honce i
  | removed j coOwner hwrite h =>
    rw [h]
    by_cases hi : i = j
    · subst hi
      rw [update_self]
      exact (honce i).erase coOwner
    · rw [update_of_ne hi]
      exact honce i

theorem CoOwning.coOwned (h : CoOwning s s' act) (honce : ∀ i, (s.coOwners i).Nodup) :
    s'.coOwned = written s.coOwned (writesCoOwner s act) := by
  funext p
  obtain ⟨i, a⟩ := p
  cases h with
  | kept hwrite h =>
    rw [hwrite]
    simp only [State.coOwned, h, written]
  | added j coOwner hwrite h =>
    rw [hwrite]
    simp only [State.coOwned, h, written]
    by_cases hi : i = j
    · subst hi
      by_cases ha : a = coOwner
      · subst ha
        rw [update_self, update_self, decide_eq_true_eq]
        split_ifs with hmem
        · exact hmem
        · simp
      · rw [update_self, update_of_ne (by simpa using ha)]
        split_ifs with hmem
        · rfl
        · simp [State.coOwned, ha]
    · rw [update_of_ne hi, update_of_ne (by simp [hi])]
      rfl
  | removed j coOwner hwrite h =>
    rw [hwrite]
    simp only [State.coOwned, h, written]
    by_cases hi : i = j
    · subst hi
      by_cases ha : a = coOwner
      · subst ha
        rw [update_self, update_self, decide_eq_false_iff_not]
        exact (honce i).not_mem_erase
      · rw [update_self, update_of_ne (by simpa using ha)]
        simp [State.coOwned, List.mem_erase_of_ne ha]
    · rw [update_of_ne hi, update_of_ne (by simp [hi])]
      rfl

theorem NamedOnce.empty : NamedOnce State.empty := ⟨.empty, fun _ => .nil, fun _ => .nil⟩

theorem NamedOnce.next (h : NamedOnce s) (hact : ActStep crypto s act s') : NamedOnce s' :=
  ⟨hact.wf h.wf, hact.licensing.nodup h.licenses, (hact.coOwning h.wf).nodup h.coOwners⟩

end Lists

section Runs

variable {crypto : Crypto} {tr : List (Act × State)} {s : State} {i : ℕ} {r : IpRecord}

def tableEntry {K V : Type} [DecidableEq K] (write : State → Act → Option (K × Option V))
    (tr : List (Act × State)) (k : K) : Option V :=
  (lastWrite write State.empty k tr).getD none

/-- What the views show of an IP is what the calls of the run wrote last. -/
structure AsWritten (tr : List (Act × State)) (i : ℕ) (r : IpRecord) (s : State) : Prop where
  price : getIpSuggestedPrice i s = .ok (tableEntry writesPrice tr i, s)
  metadata : getBatchMetadata i s = .ok (tableEntry writesMetadata tr i, s)
  compression : getCommitmentCompression i s =
    .ok (((tableEntry writesCompression tr i).map CompressionSelection.algorithm).getD
      .truncate16, s)
  encryption : getEncryptedCommitment i s = .ok (tableEntry writesEncryption tr i, s)
  threshold : getThresholdConfig i s = .ok (tableEntry writesThreshold tr i, s)
  signature : getIpNotarySignature i s = .ok (tableEntry writesSignature tr i, s)
  licenses : ∃ entries, getLicenses i s = .ok (entries, s) ∧
    (entries.map LicenseEntry.licensee).Nodup ∧ ∀ licensee termsHash,
      ⟨licensee, termsHash⟩ ∈ entries ↔ tableEntry writesLicense tr (i, licensee) = some termsHash
  coOwners : r.coOwners.Nodup ∧ ∀ coOwner, coOwner ∈ r.coOwners ↔
    lastWrite writesCoOwner State.empty (i, coOwner) tr = some true

theorem run_namedOnce (hrun : Run (ActStep crypto) State.empty tr s) : NamedOnce s :=
  hrun.invariant .empty fun _ _ _ h hact => h.next hact

theorem run_shown {K V : Type} [DecidableEq K] (view : State → K → V)
    (write : State → Act → Option (K × V)) (hrun : Run (ActStep crypto) State.empty tr s)
    (hwrites : ∀ s act s', NamedOnce s → ActStep crypto s act s' →
      view s' = written (view s) (write s act)) (k : K) :
    view s k = (lastWrite write State.empty k tr).getD (view State.empty k) :=
  hrun.lastWrite_eq (I := NamedOnce) .empty (fun _ _ _ h hact => h.next hact) hwrites k

theorem run_entry {K V : Type} [DecidableEq K] (view : State → K → Option V)
    {write : State → Act → Option (K × Option V)} (hempty : view State.empty = fun _ => none)
    (hrun : Run (ActStep crypto) State.empty tr s)
    (hwrites : ∀ s act s', NamedOnce s → ActStep crypto s act s' →
      view s' = written (view s) (write s act)) : view s = tableEntry write tr := by
  funext k
  rw [run_shown view write hrun hwrites k, hempty, tableEntry]

theorem mem_of_firstWith {entries : List LicenseEntry} {a : Address} {termsHash : BytesN 32}
    (honce : (entries.map LicenseEntry.licensee).Nodup) :
    ⟨a, termsHash⟩ ∈ entries ↔
      (firstWith LicenseEntry.licensee a entries).map LicenseEntry.termsHash = some termsHash := by
  induction entries with
  | nil => simp [firstWith]
  | cons entry rest ih =>
    rw [List.map_cons, List.nodup_cons] at honce
    obtain ⟨hnew, hrest⟩ := honce
    by_cases ha : entry.licensee = a
    · subst ha
      have habsent : ⟨entry.licensee, termsHash⟩ ∉ rest :=
        fun hmem => hnew (List.mem_map.mpr ⟨_, hmem, rfl⟩)
      cases entry
      simp [firstWith, habsent, eq_comm]
    · have hne : (⟨a, termsHash⟩ : LicenseEntry) ≠ entry := by
        rintro rfl
        exact ha rfl
      rw [List.mem_cons, or_iff_right hne, ih hrest]
      simp [firstWith, ha]

/-- In every run, the price, the licences, the metadata, the compression, the encryption, the
threshold, the co-owners and the notary's signature that an IP shows are what the last call left
that wrote them, and nobody is a licensee or a co-owner twice. -/
theorem side_tables_last_written (hrun : Run (ActStep crypto) State.empty tr s)
    (hr : s.ipRecord i = some r) : AsWritten tr i r s := by
  have honce := run_namedOnce hrun
  have hsignature : s.signatures i = r.notarySignature := fieldOf_some hr
  have hcoOwners : s.coOwners i = r.coOwners := fieldOf_some hr
  constructor
  · rw [← run_entry State.suggestedPrice rfl hrun fun _ _ _ _ => ActStep.price]
    exact guarded_eq i _ hr
  · rw [← run_entry State.batchMetadata rfl hrun fun _ _ _ _ => ActStep.metadata]
    exact guarded_eq i _ hr
  · rw [← run_entry State.compressionSelection rfl hrun fun _ _ _ _ => ActStep.compression]
    exact guarded_eq i _ hr
  · rw [← run_entry State.encryptedCommitment rfl hrun fun _ _ _ _ => ActStep.encryption]
    exact guarded_eq i _ hr
  · rw [← run_entry State.thresholdConfig rfl hrun fun _ _ _ _ => ActStep.threshold]
    exact guarded_eq i _ hr
  · rw [← run_entry State.signatures rfl hrun fun _ _ _ h hact => hact.signature h.wf, hsignature]
    exact Tx.bind_of_ok (requireIpExists_ok.mpr ⟨hr, rfl⟩)
  · refine ⟨s.licenses i, guarded_eq i _ hr, honce.licenses i, fun licensee termsHash => ?_⟩
    rw [← run_entry State.licensed rfl hrun fun _ _ _ h hact =>
      hact.licensing.licensed h.licenses]
    exact mem_of_firstWith (honce.licenses i)
  · refine ⟨hcoOwners ▸ honce.coOwners i, fun coOwner => ?_⟩
    have hshown := run_shown State.coOwned writesCoOwner hrun
      (fun _ _ _ h hact => (hact.coOwning h.wf).coOwned h.coOwners) (i, coOwner)
    rw [State.coOwned, hcoOwners] at hshown
    have hnamed : coOwner ∈ r.coOwners ↔ decide (coOwner ∈ r.coOwners) = true :=
      decide_eq_true_iff.symm
    rw [hnamed, hshown]
    cases lastWrite writesCoOwner State.empty (i, coOwner) tr with
    | none => simp [State.coOwned, State.coOwners, Ledger.fieldOf, State.ledger, State.empty]
    | some named => simp

end Runs

section Designs

open Scenario

/-- The rival's licence is granted and taken back; the inventor's price stands. -/
theorem design_licensed : ∃ (tr : List (Act × State)) (s : State) (r : IpRecord),
    Run (ActStep Scenario.crypto) State.empty tr s ∧
      getIpSuggestedPrice 1 s = .ok (some 700, s) ∧ AsWritten tr 1 r s := by
  obtain ⟨tr, s, hrun, -, hseen⟩ := played State.empty
    [act 5 inventor (.commitIp inventor design 0),
      act 6 inventor (.grantLicense 1 rival secret), act 7 inventor (.setIpSuggestedPrice 1 700),
      act 8 inventor (.revokeLicense 1 rival)]
    (fun s => (s.ipRecord 1).isSome && decide (s.suggestedPrice 1 = some 700)) (by decide)
  simp only [Bool.and_eq_true, decide_eq_true_eq] at hseen
  obtain ⟨hsome, hprice⟩ := hseen
  obtain ⟨r, hr⟩ := Option.isSome_iff_exists.mp hsome
  exact ⟨tr, s, r, hrun, hprice ▸ guarded_eq 1 _ hr, side_tables_last_written hrun hr⟩

end Designs

end AtomicIp.IpRegistry
