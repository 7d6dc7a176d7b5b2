import AtomicIp.Lib.Forest
import AtomicIp.Registry.Tables
import AtomicIp.Registry.Wellformed

set_option autoImplicit false

namespace AtomicIp.IpRegistry

open Function Tx

structure Books where
  ledger : Ledger
  ipVersions : ℕ → Option (List ℕ)
  ipVersionChain : ℕ → Option (List ℕ)
  commitmentHashes : Option (List (BytesN 32))
  ipCommitmentChecksum : Option (BytesN 32)
  shardIps : ℕ → Option (List ℕ)
  ipAuditTrail : ℕ → Option (List AuditEntry)
  compressedCommitment : ℕ → Option (BytesN 16)

def State.books (s : State) : Books where
  ledger := s.ledger
  ipVersions := s.ipVersions
  ipVersionChain := s.ipVersionChain
  commitmentHashes := s.commitmentHashes
  ipCommitmentChecksum := s.ipCommitmentChecksum
  shardIps := s.shardIps
  ipAuditTrail := s.ipAuditTrail
  compressedCommitment := s.compressedCommitment

def Ledger.parentOf (c : Ledger) (i : ℕ) : Option ℕ := (c.ipRecord i).bind IpRecord.parentIpId

namespace Books

variable (b : Books)

def onLedger (c : Ledger) : Books := { b with ledger := c }

def audit (ipId : ℕ) (entry : AuditEntry) : Books :=
  { b with
    ipAuditTrail := update b.ipAuditTrail ipId
      (some ((b.ipAuditTrail ipId).getD [] ++ [entry])) }

def assign (ipId : ℕ) (commitmentHash : BytesN 32) : Books :=
  { b with
    shardIps := update b.shardIps (commitmentShard commitmentHash)
      (some ((b.shardIps (commitmentShard commitmentHash)).getD [] ++ [ipId])) }

def compress (ipId : ℕ) (commitmentHash : BytesN 32) : Books :=
  { b with
    compressedCommitment := update b.compressedCommitment ipId
      (some (commitmentHash.truncate compressedSize_le)) }

def addVersion (parentIpId ipId : ℕ) : Books :=
  { b with
    ipVersions := update b.ipVersions parentIpId
      (some ((b.ipVersions parentIpId).getD [] ++ [ipId])) }

def addToChain (rootId ipId : ℕ) : Books :=
  { b with
    ipVersionChain := update b.ipVersionChain rootId
      (some ((b.ipVersionChain rootId).getD [rootId] ++ [ipId])) }

/-- The hash of the newest record goes to the end of the log, and the log is hashed. -/
def log (sha256 : Bytes → BytesN 32) : Books :=
  match b.ledger.ipRecord (b.ledger.count - 1) with
  | none => b
  | some record =>
    if 1 < b.ledger.count then
      { b with
        commitmentHashes := some (b.commitmentHashes.getD [] ++ [record.commitmentHash])
        ipCommitmentChecksum := some (sha256
          ((b.commitmentHashes.getD [] ++ [record.commitmentHash]).flatMap BytesN.bytes)) }
    else b

section Fields

variable {b} {sha256 : Bytes → BytesN 32}

theorem log_of_record {r : IpRecord} (hcount : 1 < b.ledger.count)
    (hr : b.ledger.ipRecord (b.ledger.count - 1) = some r) :
    b.log sha256 = { b with
      commitmentHashes := some (b.commitmentHashes.getD [] ++ [r.commitmentHash])
      ipCommitmentChecksum := some (sha256
        ((b.commitmentHashes.getD [] ++ [r.commitmentHash]).flatMap BytesN.bytes)) } := by
  simp only [log, hr, if_pos hcount]

theorem log_of_count (hcount : ¬ 1 < b.ledger.count) : b.log sha256 = b := by
  rw [log]
  cases b.ledger.ipRecord (b.ledger.count - 1) with
  | none => rfl
  | some r => simp only [if_neg hcount]

theorem log_fields : b.log sha256 = { b with
    commitmentHashes := (b.log sha256).commitmentHashes
    ipCommitmentChecksum := (b.log sha256).ipCommitmentChecksum } := by
  by_cases hcount : 1 < b.ledger.count
  · cases hr : b.ledger.ipRecord (b.ledger.count - 1) with
    | none => simp only [log, hr]
    | some r => rw [log_of_record hcount hr]
  · rw [log_of_count hcount]

@[simp] theorem log_ledger : (b.log sha256).ledger = b.ledger := by rw [log_fields]

@[simp] theorem log_ipVersions : (b.log sha256).ipVersions = b.ipVersions := by rw [log_fields]

@[simp] theorem log_ipVersionChain : (b.log sha256).ipVersionChain = b.ipVersionChain := by
  rw [log_fields]

@[simp] theorem log_shardIps : (b.log sha256).shardIps = b.shardIps := by rw [log_fields]

@[simp] theorem log_ipAuditTrail : (b.log sha256).ipAuditTrail = b.ipAuditTrail := by
  rw [log_fields]

@[simp] theorem log_compressedCommitment :
    (b.log sha256).compressedCommitment = b.compressedCommitment := by rw [log_fields]

end Fields

end Books

inductive Entry where
  | committed (owner : Address) (commitmentHash : BytesN 32)
  | added (owner : Address) (commitmentHash : BytesN 32)
  | logged
  | versioned (parentIpId : ℕ) (commitmentHash : BytesN 32)
  | rotated (ipId : ℕ) (commitmentHash : BytesN 32)
  | transferred (ipId : ℕ) (owner : Address)
  | revoked (ipId : ℕ) (actor : Address)
  | merged (ipId : ℕ) (actor : Address)
  | revised (ipId : ℕ)

inductive Books.Step (env : Env) : Books → Entry → Books → Prop where
  | committed {b : Books} {c : Ledger} {owner : Address} {hash : BytesN 32}
      (h : Enrolls env owner hash none b.ledger c) :
      Step env b (.committed owner hash) (((((b.onLedger c).audit b.ledger.count
        ⟨"committed", owner, env.timestamp⟩).assign b.ledger.count hash).compress b.ledger.count
          hash).log env.crypto.sha256)
  | added {b : Books} {c : Ledger} {owner : Address} {hash : BytesN 32}
      (h : Enrolls env owner hash none b.ledger c) :
      Step env b (.added owner hash) (b.onLedger c)
  | logged {b : Books} : Step env b .logged (b.log env.crypto.sha256)
  | versioned {b : Books} {c : Ledger} {parentIpId root budget : ℕ} {parent : IpRecord}
      {hash : BytesN 32} (hparent : b.ledger.ipRecord parentIpId = some parent)
      (h : Enrolls env parent.owner hash (some parentIpId) b.ledger c)
      (hroot : walk c.parentOf budget parentIpId = some root) :
      Step env b (.versioned parentIpId hash)
        (((b.onLedger c).addVersion parentIpId b.ledger.count).addToChain root b.ledger.count)
  | rotated {b : Books} {c : Ledger} {ipId : ℕ} {hash : BytesN 32}
      (h : IpRegistry.Step env b.ledger (.rotated ipId hash) c) :
      Step env b (.rotated ipId hash) (b.onLedger c)
  | transferred {b : Books} {ipId : ℕ} {r : IpRecord} {owner : Address}
      (hr : b.ledger.ipRecord ipId = some r) (hauth : r.owner ∈ env.auths) :
      Step env b (.transferred ipId owner) ((b.onLedger (b.ledger.transfer ipId r owner)).audit ipId
        ⟨"xferred", owner, env.timestamp⟩)
  | revoked {b : Books} {ipId : ℕ} {r : IpRecord} {actor : Address}
      (hr : b.ledger.ipRecord ipId = some r) :
      Step env b (.revoked ipId actor) ((b.onLedger (b.ledger.setIpRecord ipId
        (some r.revoke))).audit ipId ⟨"revoked", actor, env.timestamp⟩)
  | merged {b : Books} {ipId : ℕ} {actor : Address}
      (hr : (b.ledger.ipRecord ipId).isSome = true) :
      Step env b (.merged ipId actor) (b.audit ipId ⟨"merged", actor, env.timestamp⟩)
  | revised {b : Books} {ipId : ℕ} {r : IpRecord} (r' : IpRecord)
      (hr : b.ledger.ipRecord ipId = some r) (hrevises : Revises r r')
      (hrevoked : r'.revoked = r.revoked) :
      Step env b (.revised ipId) (b.onLedger (b.ledger.setIpRecord ipId (some r')))

def Call.Enters : Call → List Entry → Prop
  | .commitIp owner hash _ => fun es => es = [.committed owner hash]
  | .batchCommitIp owner hashes => fun es => es = hashes.map (.added owner) ++ [.logged]
  | .batchCommitIpAnonymous _ hashes => fun es => hashes ≠ [] ∧
      es = hashes.map (.added currentContractAddress) ++ [.logged]
  | .commitIpDelegated owner hash _ => fun es => es = [.added owner hash, .logged]
  | .createIpVersion parentIpId hash | .commitIpVersion _ hash parentIpId => fun es =>
      es = [.versioned parentIpId hash]
  | .rotateCommitmentKey ipId hash _ _ => fun es => es = [.rotated ipId hash]
  | .transferIp ipId owner | .transferIpOwnership ipId owner => fun es =>
      es = [.transferred ipId owner]
  | .revokeIp ipId => fun es => ∃ actor, es = [.revoked ipId actor]
  | .mergeDuplicateCommitment primaryIpId duplicateIpId => fun es => ∃ revisions actor,
      (∀ e ∈ revisions, e = .revised primaryIpId) ∧
        es = revisions ++ [.merged primaryIpId actor, .revoked duplicateIpId actor]
  | .addCoOwner ipId _ | .removeCoOwner ipId _ | .notarizeIpTimestamp ipId _ => fun es =>
      ∀ e ∈ es, e = .revised ipId
  | _ => fun es => es = []

theorem Enrolls.registers {env : Env} {owner : Address} {hash : BytesN 32} {parent : Option ℕ}
    {c c' : Ledger} (h : Enrolls env owner hash parent c c') :
    Emits (Step env) (fun _ => True) c c' := by
  rw [h.ledger]
  exact .single (.registered h.zero h.free h.auth h.parented) trivial

theorem Enrolls.wf {env : Env} {owner : Address} {hash : BytesN 32} {parent : Option ℕ}
    {c c' : Ledger} (h : Enrolls env owner hash parent c c') (hwf : c.Wf) : c'.Wf :=
  h.registers.invariant (fun _ _ _ _ hc hmove => hmove.wf hc) hwf

section Calls

variable {env : Env} {s s' : State} {u : Unit} {id ipId budget : ℕ} {owner : Address}
  {hash : BytesN 32}

theorem updateCommitmentChecksum_books (h : updateCommitmentChecksum env s = .ok (u, s')) :
    s'.books = s.books.log env.crypto.sha256 := by
  simp only [updateCommitmentChecksum, Tx.bind_ok, nextIpId_ok, Tx.onlyIf_ok, Tx.load_ok] at h
  obtain ⟨_, _, ⟨rfl, rfl⟩, ⟨hsome, h⟩ | ⟨hnone, rfl⟩⟩ := h
  · obtain ⟨lastRecord, s₁, ⟨hlast, rfl⟩, h⟩ := h
    have hread : s₁.books.ledger.ipRecord (s₁.books.ledger.count - 1) = lastRecord := hlast.symm
    have hcount : 1 < s₁.books.ledger.count := hsome
    cases lastRecord with
    | none =>
      rw [(Tx.pure_ok.mp h).2, Books.log, hread]
    | some record =>
      simp only [Tx.load_bind_ok, Tx.store_bind_ok, Tx.store_ok] at h
      rw [h, Books.log, hread]
      simp only [if_pos hcount]
      rfl
  · have hcount : ¬ 1 < s'.books.ledger.count := hnone
    rw [Books.log]
    cases s'.books.ledger.ipRecord (s'.books.ledger.count - 1) with
    | none => rfl
    | some record => simp only [if_neg hcount]

theorem findRoot_walk {root : ℕ} (h : findRoot budget ipId s = .ok (root, s')) :
    walk s.ledger.parentOf budget ipId = some root := by
  induction budget generalizing ipId s with
  | zero => simp [findRoot] at h
  | succ budget ih =>
    simp only [findRoot, Tx.bind_ok, Tx.load_ok] at h
    obtain ⟨record, s₁, ⟨rfl, rfl⟩, h⟩ := h
    cases hparent : (s₁.ipRecord ipId).bind IpRecord.parentIpId with
    | none =>
      simp only [hparent, Tx.pure_ok] at h
      have hup : s₁.ledger.parentOf ipId = none := hparent
      simp only [walk, hup, h.1]
    | some parent =>
      simp only [hparent] at h
      have hup : s₁.ledger.parentOf ipId = some parent := hparent
      simp only [walk, hup, ih h]

theorem commitIp_books {powDifficulty : ℕ}
    (h : commitIp env owner hash powDifficulty s = .ok (id, s')) :
    Books.Step env s.books (.committed owner hash) s'.books := by
  have henrolls := commitIp_enrolls h
  simp [commitIp] at h
  obtain ⟨-, s₁, hadmin, -, -, -, s₂, howner, -, s₃, haudit, s₄, hshard, s₅, hcompress,
    ⟨_, hchecksum⟩, rfl⟩ := h
  rw [updateCommitmentChecksum_books hchecksum]
  have hledger := updateCommitmentChecksum_ledger hchecksum
  obtain rfl := Tx.store_ok.mp hadmin
  obtain rfl := Tx.store_ok.mp howner
  obtain rfl := Tx.store_ok.mp haudit
  obtain rfl := Tx.store_ok.mp hshard
  obtain rfl := Tx.store_ok.mp hcompress
  rw [hledger] at henrolls
  exact .committed (b := s.books) henrolls

theorem commitOne_books (hauth : owner ∈ env.auths)
    (h : commitOne env owner hash s = .ok (id, s')) :
    Books.Step env s.books (.added owner hash) s'.books := by
  have henrolls := commitOne_enrolls hauth h
  simp [commitOne] at h
  obtain ⟨-, -, s₁, howner, ⟨-, rfl⟩, rfl⟩ := h
  obtain rfl := Tx.store_ok.mp howner
  exact .added (b := s.books) henrolls

theorem commitOneAnonymous_books {blindedOwner : BytesN 32}
    (h : commitOneAnonymous env blindedOwner hash s = .ok (id, s')) :
    Books.Step env s.books (.added currentContractAddress hash) s'.books := by
  have henrolls := commitOneAnonymous_enrolls h
  simp [commitOneAnonymous] at h
  obtain ⟨-, -, ⟨-, rfl⟩, rfl⟩ := h
  exact .added (b := s.books) henrolls

theorem forEach_books {hashes : List (BytesN 32)} {ids : List ℕ} {body : BytesN 32 → RegistryTx ℕ}
    (hbody : ∀ hash s id s', body hash s = .ok (id, s') →
      Books.Step env s.books (.added owner hash) s'.books)
    (h : Tx.forEach hashes body s = .ok (ids, s')) :
    Path (Books.Step env) s.books (hashes.map (.added owner)) s'.books := by
  induction hashes generalizing s ids with
  | nil =>
    obtain ⟨-, rfl⟩ := Tx.forEach_nil_ok.mp h
    exact .nil
  | cons hash hashes ih =>
    obtain ⟨id, s₁, ids', hone, hrest, -⟩ := Tx.forEach_cons_ok.mp h
    exact .cons (hbody hash s id s₁ hone) (ih hrest)

theorem batchCommitIp_books {hashes : List (BytesN 32)} {ids : List ℕ}
    (h : batchCommitIp env owner hashes s = .ok (ids, s')) :
    Path (Books.Step env) s.books (hashes.map (.added owner) ++ [.logged]) s'.books := by
  simp [batchCommitIp] at h
  obtain ⟨hauth, s₁, hadmin, s₂, hloop, _, hchecksum⟩ := h
  obtain rfl := Tx.store_ok.mp hadmin
  have hadded := forEach_books (fun _ _ _ _ => commitOne_books hauth) hloop
  rw [updateCommitmentChecksum_books hchecksum]
  exact Path.append hadded (.single .logged)

theorem batchCommitIpAnonymous_books {blindedOwner : BytesN 32} {hashes : List (BytesN 32)}
    {ids : List ℕ} (h : batchCommitIpAnonymous env blindedOwner hashes s = .ok (ids, s')) :
    hashes ≠ [] ∧ Path (Books.Step env) s.books
      (hashes.map (.added currentContractAddress) ++ [.logged]) s'.books := by
  simp [batchCommitIpAnonymous] at h
  obtain ⟨hsome, s₁, hadmin, s₂, hloop, _, hchecksum⟩ := h
  obtain rfl := Tx.store_ok.mp hadmin
  have hadded := forEach_books (fun _ _ _ _ => commitOneAnonymous_books) hloop
  rw [updateCommitmentChecksum_books hchecksum]
  exact ⟨hsome, Path.append hadded (.single .logged)⟩

theorem commitIpDelegated_books {powDifficulty : ℕ}
    (h : commitIpDelegated env owner hash powDifficulty s = .ok (id, s')) :
    Path (Books.Step env) s.books [.added owner hash, .logged] s'.books := by
  have henrolls := commitIpDelegated_enrolls h
  simp [commitIpDelegated] at h
  obtain ⟨-, -, -, -, -, s₁, howner, -, ⟨_, hchecksum⟩, rfl⟩ := h
  obtain rfl := Tx.store_ok.mp howner
  rw [updateCommitmentChecksum_ledger hchecksum] at henrolls
  rw [updateCommitmentChecksum_books hchecksum]
  exact .cons (.added (b := s.books) henrolls) (.single .logged)

theorem createIpVersion_books {parentIpId : ℕ}
    (h : createIpVersion env parentIpId hash s = .ok (id, s')) :
    Books.Step env s.books (.versioned parentIpId hash) s'.books := by
  obtain ⟨parent, hparent, henrolls⟩ := createIpVersion_enrolls h
  simp [createIpVersion] at h
  obtain ⟨parent', hparent', -, -, -, s₁, hacyclic, s₂, howner, s₃, hversion, root, s₄, hroot,
    s₅, hchain, -, rfl, rfl⟩ := h
  obtain rfl := Option.some.inj (hparent.symm.trans hparent')
  obtain rfl := requireAcyclic_state hacyclic
  obtain rfl := Tx.store_ok.mp howner
  obtain rfl := Tx.store_ok.mp hversion
  have hwalk := findRoot_walk hroot
  obtain rfl := findRoot_state hroot
  obtain rfl := Tx.store_ok.mp hchain
  exact .versioned (b := s₁.books) hparent henrolls hwalk

theorem transferIp_books {newOwner : Address} (h : transferIp env ipId newOwner s = .ok (u, s')) :
    Books.Step env s.books (.transferred ipId newOwner) s'.books := by
  simp [transferIp] at h
  obtain ⟨r, hr, hauth, s₁, hremove, s₂, happend, haudit⟩ := h
  obtain rfl := Tx.store_ok.mp hremove
  obtain rfl := Tx.store_ok.mp happend
  obtain rfl := Tx.store_ok.mp haudit
  exact .transferred (b := s.books) hr hauth

theorem revokeIp_books (h : revokeIp env ipId s = .ok (u, s')) :
    ∃ actor, Books.Step env s.books (.revoked ipId actor) s'.books := by
  simp [revokeIp] at h
  obtain ⟨r, hr, -, -, haudit⟩ := h
  obtain rfl := Tx.store_ok.mp haudit
  exact ⟨r.owner, .revoked (b := s.books) hr⟩

theorem mergeDuplicateCommitment_books {primaryIpId duplicateIpId : ℕ}
    (h : mergeDuplicateCommitment env primaryIpId duplicateIpId s = .ok (u, s')) :
    ∃ es, Path (Books.Step env) s.books es s'.books ∧
      (Call.mergeDuplicateCommitment primaryIpId duplicateIpId).Enters es := by
  simp [mergeDuplicateCommitment, adoptCoOwner] at h
  obtain ⟨primary, hprimary, -, duplicate, hduplicate, -, s₁, hadopt, s₂, haudit, s₃, haudit',
    rfl⟩ := h
  obtain rfl := Tx.store_ok.mp haudit
  obtain rfl := Tx.store_ok.mp haudit'
  rcases hadopt with ⟨⟨-, howner⟩, rfl⟩ | ⟨-, rfl⟩
  · have hne : duplicateIpId ≠ primaryIpId := by
      rintro rfl
      rw [hprimary] at hduplicate
      exact howner (congrArg IpRecord.owner (Option.some.inj hduplicate)).symm
    have hrevised : Books.Step env s.books (.revised primaryIpId) _ :=
      .revised (b := s.books) (primary.withCoOwners (primary.coOwners ++ [duplicate.owner]))
        hprimary (withCoOwners_revises primary _) rfl
    have hother : (s.ledger.setIpRecord primaryIpId (some (primary.withCoOwners
        (primary.coOwners ++ [duplicate.owner])))).ipRecord duplicateIpId = some duplicate :=
      (update_of_ne hne _ _).trans hduplicate
    have hsame : ((s.ledger.setIpRecord primaryIpId (some (primary.withCoOwners
        (primary.coOwners ++ [duplicate.owner])))).ipRecord primaryIpId).isSome = true := by
      simp [Ledger.setIpRecord]
    exact ⟨_, .cons hrevised (.cons (.merged hsame) (.single (.revoked hother))),
      [.revised primaryIpId], primary.owner, by simp, rfl⟩
  · have hsome : (s₁.books.ledger.ipRecord primaryIpId).isSome = true :=
      Option.isSome_of_eq_some hprimary
    exact ⟨_, .cons (.merged (b := s₁.books) hsome) (.single (.revoked hduplicate)), [],
      primary.owner, by simp, rfl⟩

theorem rotateCommitmentKey_books {secret blindingFactor : BytesN 32}
    (h : rotateCommitmentKey env ipId hash secret blindingFactor s = .ok (u, s')) :
    Books.Step env s.books (.rotated ipId hash) s'.books := by
  have hstep := rotateCommitmentKey_step h
  simp [rotateCommitmentKey] at h
  obtain ⟨r, -, -, -, -, -, -, rfl⟩ := h
  exact .rotated (b := s.books) hstep

theorem revised_books {r r' : IpRecord} (hr : s.ledger.ipRecord ipId = some r)
    (hrevises : Revises r r') (hrevoked : r'.revoked = r.revoked)
    (hbooks : s'.books = s.books.onLedger (s.ledger.setIpRecord ipId (some r'))) :
    ∃ es, Path (Books.Step env) s.books es s'.books ∧ ∀ e ∈ es, e = .revised ipId := by
  rw [hbooks]
  exact ⟨_, .single (.revised (b := s.books) r' hr hrevises hrevoked), by simp⟩

theorem addCoOwner_books {coOwner : Address} (h : addCoOwner env ipId coOwner s = .ok (u, s')) :
    ∃ es, Path (Books.Step env) s.books es s'.books ∧ ∀ e ∈ es, e = .revised ipId := by
  simp [addCoOwner] at h
  obtain ⟨r, hr, -, ⟨-, rfl⟩ | ⟨-, rfl⟩⟩ := h
  · exact revised_books hr (withCoOwners_revises r (r.coOwners ++ [coOwner])) rfl rfl
  · exact ⟨[], .nil, by simp⟩

theorem removeCoOwner_books {coOwner : Address}
    (h : removeCoOwner env ipId coOwner s = .ok (u, s')) :
    ∃ es, Path (Books.Step env) s.books es s'.books ∧ ∀ e ∈ es, e = .revised ipId := by
  simp [removeCoOwner] at h
  obtain ⟨r, hr, -, ⟨-, rfl⟩ | ⟨-, rfl⟩⟩ := h
  · exact revised_books hr (withCoOwners_revises r (r.coOwners.erase coOwner)) rfl rfl
  · exact ⟨[], .nil, by simp⟩

theorem notarizeIpTimestamp_books {signature : Bytes}
    (h : notarizeIpTimestamp env ipId signature s = .ok (u, s')) :
    ∃ es, Path (Books.Step env) s.books es s'.books ∧ ∀ e ∈ es, e = .revised ipId := by
  simp [notarizeIpTimestamp] at h
  obtain ⟨r, hr, publicKey, -, -, -, rfl⟩ := h
  have hrevises : Revises r (r.notarized signature) := ⟨rfl, rfl, rfl, rfl, rfl, fun h => h⟩
  exact revised_books hr hrevises rfl rfl

theorem blind_books {t : Table} (hledger : t ≠ .ledger) (hderived : t ≠ .derived) :
    Blind t State.books := by
  cases t with
  | ledger => exact absurd rfl hledger
  | derived => exact absurd rfl hderived
  | _ => exact ⟨fun _ => rfl⟩

theorem exec_books {call : Call} (h : exec env call s = .ok ((), s')) :
    ∃ es, Path (Books.Step env) s.books es s'.books ∧ call.Enters es := by
  cases call with
  | commitIp =>
    obtain ⟨_, h⟩ := Tx.void_ok.mp h
    exact ⟨_, .single (commitIp_books h), rfl⟩
  | batchCommitIp =>
    obtain ⟨_, h⟩ := Tx.void_ok.mp h
    exact ⟨_, batchCommitIp_books h, rfl⟩
  | batchCommitIpAnonymous =>
    obtain ⟨_, h⟩ := Tx.void_ok.mp h
    obtain ⟨hsome, hpath⟩ := batchCommitIpAnonymous_books h
    exact ⟨_, hpath, hsome, rfl⟩
  | commitIpDelegated =>
    obtain ⟨_, h⟩ := Tx.void_ok.mp h
    exact ⟨_, commitIpDelegated_books h, rfl⟩
  | createIpVersion =>
    obtain ⟨_, h⟩ := Tx.void_ok.mp h
    exact ⟨_, .single (createIpVersion_books h), rfl⟩
  | commitIpVersion =>
    obtain ⟨_, h⟩ := Tx.void_ok.mp h
    rw [commitIpVersion] at h
    obtain ⟨s₁, hauth, hcreate⟩ := Tx.seq_ok.mp h
    obtain ⟨-, rfl⟩ := requireAuth_ok.mp hauth
    exact ⟨_, .single (createIpVersion_books hcreate), rfl⟩
  | rotateCommitmentKey => exact ⟨_, .single (rotateCommitmentKey_books h), rfl⟩
  | transferIp => exact ⟨_, .single (transferIp_books h), rfl⟩
  | transferIpOwnership => exact ⟨_, .single (transferIp_books h), rfl⟩
  | revokeIp =>
    obtain ⟨actor, hstep⟩ := revokeIp_books h
    exact ⟨_, .single hstep, actor, rfl⟩
  | mergeDuplicateCommitment => exact mergeDuplicateCommitment_books h
  | addCoOwner => exact addCoOwner_books h
  | removeCoOwner => exact removeCoOwner_books h
  | notarizeIpTimestamp => exact notarizeIpTimestamp_books h
  | _ =>
    have hsame := exec_frame State.books h fun t ht => blind_books (t := t) ?_ ?_
    · exact ⟨[], hsame ▸ .nil, rfl⟩
    · rintro rfl
      simp [Call.writes] at ht
    · rintro rfl
      simp [Call.writes] at ht

theorem Books.Step.moves {b b' : Books} {e : Entry} (hstep : Books.Step env b e b') :
    Emits (IpRegistry.Step env) (fun _ => True) b.ledger b'.ledger := by
  cases hstep with
  | committed h =>
    rw [Books.log_ledger]
    exact h.registers
  | added h => exact h.registers
  | logged =>
    rw [Books.log_ledger]
    exact .refl _
  | versioned _ h => exact h.registers
  | rotated h => exact .single h trivial
  | transferred hr hauth => exact .single (.transferred hr hauth) trivial
  | revoked hr =>
    exact .single (.revised _ hr ⟨rfl, rfl, rfl, rfl, rfl, fun _ => rfl⟩) trivial
  | merged => exact .refl _
  | revised r' hr hrevises => exact .single (.revised r' hr hrevises) trivial

theorem Books.Step.wf {b b' : Books} {e : Entry} (hstep : Books.Step env b e b')
    (h : b.ledger.Wf) : b'.ledger.Wf :=
  hstep.moves.invariant (fun _ _ _ _ hc hmove => hmove.wf hc) h

theorem Books.Step.count_le {b b' : Books} {e : Entry} (hstep : Books.Step env b e b') :
    b.ledger.count ≤ b'.ledger.count :=
  hstep.moves.invariant (I := fun c => b.ledger.count ≤ c.count)
    (fun _ _ _ _ hc hmove => Nat.le_trans hc hmove.count_le) (Nat.le_refl _)

end Calls

section Origins

/-- The hash that `commit_ip` registered an IP with; none for the other entry points. -/
def committedHash : List (Act × State) → ℕ → Option (BytesN 32)
  | [] => fun _ => none
  | (act, _) :: tr =>
    match act.call with
    | .commitIp _ commitmentHash _ =>
      update (committedHash tr) (now State.empty tr).ledger.count (some commitmentHash)
    | _ => committedHash tr

theorem Call.Enters.committed {call : Call} {es : List Entry} (h : call.Enters es)
    {owner : Address} {hash : BytesN 32} (hmem : .committed owner hash ∈ es) :
    ∃ powDifficulty, call = .commitIp owner hash powDifficulty := by
  cases call with
  | commitIp owner' hash' powDifficulty =>
    rw [h, List.mem_singleton] at hmem
    obtain ⟨rfl, rfl⟩ := Entry.committed.inj hmem
    exact ⟨powDifficulty, rfl⟩
  | batchCommitIp =>
    rw [h] at hmem
    simp at hmem
  | batchCommitIpAnonymous =>
    rw [h.2] at hmem
    simp at hmem
  | revokeIp =>
    obtain ⟨actor, rfl⟩ := h
    simp at hmem
  | mergeDuplicateCommitment =>
    obtain ⟨revisions, actor, hrevised, rfl⟩ := h
    rcases List.mem_append.mp hmem with hmem | hmem
    · exact absurd (hrevised _ hmem) (by simp)
    · simp at hmem
  | addCoOwner | removeCoOwner | notarizeIpTimestamp => exact absurd (h _ hmem) (by simp)
  | _ =>
    rw [h] at hmem
    simp at hmem

/-- What the first books have, with nothing registered by `commit_ip`, and every entry keeps,
holds in every run. -/
theorem run_entries {crypto : Crypto} {tr : List (Act × State)} {s : State}
    {I : (ℕ → Option (BytesN 32)) → Books → Prop} (hinit : I (fun _ => none) State.empty.books)
    (hcommitted : ∀ env origin b owner hash b', I origin b →
      Books.Step env b (.committed owner hash) b' → I (update origin b.ledger.count (some hash)) b')
    (hother : ∀ env origin b e b', (∀ owner hash, e ≠ .committed owner hash) → I origin b →
      Books.Step env b e b' → I origin b')
    (hrun : Run (ActStep crypto) State.empty tr s) : I (committedHash tr) s.books := by
  induction hrun with
  | start => exact hinit
  | @next tr s s' act hrun hact ih =>
    obtain ⟨es, hpath, henters⟩ := exec_books hact
    by_cases hcommits : ∃ owner hash powDifficulty, act.call = .commitIp owner hash powDifficulty
    · obtain ⟨owner, hash, powDifficulty, hcall⟩ := hcommits
      rw [hcall] at henters
      obtain rfl := henters
      have hnext : committedHash ((act, s') :: tr) =
          update (committedHash tr) s.books.ledger.count (some hash) := by
        simp only [committedHash, hcall, hrun.now_eq]
        rfl
      rw [hnext]
      exact hcommitted _ _ _ _ _ _ ih (Path.single_iff.mp hpath)
    · have hsame : committedHash ((act, s') :: tr) = committedHash tr := by
        rw [committedHash]
        split
        · rename_i owner hash powDifficulty hcall
          exact absurd ⟨owner, hash, powDifficulty, hcall⟩ hcommits
        · rfl
      rw [hsame]
      refine hpath.invariant (I := I (committedHash tr))
        (P := fun e => ∀ owner hash, e ≠ .committed owner hash)
        (fun b e b' he hb hstep => hother _ _ b e b' he hb hstep) ?_ ih
      rintro e hmem owner hash rfl
      obtain ⟨powDifficulty, hcall⟩ := henters.committed hmem
      exact hcommits ⟨owner, hash, powDifficulty, hcall⟩

end Origins

end AtomicIp.IpRegistry
