import AtomicIp.Registry.Merkle
import AtomicIp.Registry.Ownership

/-!
Merkle roots and proofs over the IPs an owner is listed with. An anonymous commitment stands in
no list and has a proof only after it has been handed over.
-/

set_option autoImplicit false

namespace AtomicIp.IpRegistry

open Function Merkle Relation Tx

def ownedHashes (owner : Address) (s : State) : List (BytesN 32) :=
  (listIpByOwner owner s).filterMap fun ipId => (s.ipRecord ipId).map IpRecord.commitmentHash

/-- The last index with the hash; `foundIndex` where there is none. -/
def locate (commitmentHash : BytesN 32) : ℕ → ℕ → List (BytesN 32) → ℕ
  | _, foundIndex, [] => foundIndex
  | leafIndex, foundIndex, leaf :: leaves =>
    locate commitmentHash (leafIndex + 1) (if leaf = commitmentHash then leafIndex else foundIndex)
      leaves

section Views

variable (sha256 : Bytes → BytesN 32)

def computeIpMerkleRoot (owner : Address) : RegistryTx (BytesN 32) := do
  let ipIds ← Tx.load (listIpByOwner owner)
  if ipIds.length = 0 then
    pure (.zero 32)
  else do
    let hashes ← Tx.load (ownedHashes owner)
    Tx.orAbort (merkleRoot sha256 hashes) .unwrap

def verifyIpMerkleProof (ipId : ℕ) (proof : List (BytesN 32)) : RegistryTx Bool := do
  let record ← requireIpExists ipId
  let hashes ← Tx.load (ownedHashes record.owner)
  Tx.orAbort (verifyMerkleProof sha256 record.commitmentHash proof hashes) .unwrap

def generateMerkleProof (ipId : ℕ) : RegistryTx (List (BytesN 32)) := do
  let record ← requireIpExists ipId
  let leaves ← Tx.load (ownedHashes record.owner)
  Tx.orAbort (buildMerkleProof sha256 leaves (locate record.commitmentHash 0 0 leaves)) .unwrap

end Views

section Proofs

variable {sha256 : Bytes → BytesN 32} {s : State} {ipId : ℕ} {r : IpRecord}
  {commitmentHash : BytesN 32} {leaves : List (BytesN 32)}

theorem locate_absent (hleaf : commitmentHash ∉ leaves) (leafIndex foundIndex : ℕ) :
    locate commitmentHash leafIndex foundIndex leaves = foundIndex := by
  induction leaves generalizing leafIndex foundIndex with
  | nil => rfl
  | cons leaf leaves ih =>
    obtain ⟨hne, hrest⟩ := List.ne_and_not_mem_of_not_mem_cons hleaf
    rw [locate, if_neg (Ne.symm hne), ih hrest]

theorem locate_present (hleaf : commitmentHash ∈ leaves) (leafIndex foundIndex : ℕ) :
    ∃ i, locate commitmentHash leafIndex foundIndex leaves = leafIndex + i ∧
      leaves[i]? = some commitmentHash := by
  induction leaves generalizing leafIndex foundIndex with
  | nil => cases hleaf
  | cons leaf leaves ih =>
    rw [locate]
    by_cases hrest : commitmentHash ∈ leaves
    · obtain ⟨i, hi, hnode⟩ := ih hrest (leafIndex + 1)
        (if leaf = commitmentHash then leafIndex else foundIndex)
      exact ⟨i + 1, hi.trans (by omega), hnode⟩
    · obtain rfl : commitmentHash = leaf := (List.mem_cons.mp hleaf).resolve_right hrest
      exact ⟨0, by rw [locate_absent hrest, if_pos rfl]; rfl, rfl⟩

theorem mem_ownedHashes (hr : s.ipRecord ipId = some r)
    (hlisted : ipId ∈ listIpByOwner r.owner s) : r.commitmentHash ∈ ownedHashes r.owner s :=
  List.mem_filterMap.mpr ⟨ipId, hlisted, by rw [hr]; rfl⟩

theorem listed_proved (sha256 : Bytes → BytesN 32) (hr : s.ipRecord ipId = some r)
    (hlisted : ipId ∈ listIpByOwner r.owner s) :
    ∃ proof root, generateMerkleProof sha256 ipId s = .ok (proof, s) ∧
      computeIpMerkleRoot sha256 r.owner s = .ok (root, s) ∧
      foldPath (hashPair sha256) proof (locate r.commitmentHash 0 0 (ownedHashes r.owner s))
        r.commitmentHash = root ∧
      verifyIpMerkleProof sha256 ipId proof s = .ok (true, s) := by
  obtain ⟨i, hlocate, hnode⟩ := locate_present (mem_ownedHashes hr hlisted) 0 0
  rw [Nat.zero_add] at hlocate
  obtain ⟨hi, hleaf⟩ := List.getElem?_eq_some_iff.mp hnode
  obtain ⟨proof, root, hbuild, hroot, hfold, -, hverify⟩ := merkle_proof_complete sha256 hi
  rw [hleaf] at hfold hverify
  have hrecord : s.ledger.ipRecord ipId = some r := hr
  have hsome : listIpByOwner r.owner s ≠ [] := List.ne_nil_of_mem hlisted
  refine ⟨proof, root, ?_, ?_, ?_, ?_⟩
  · simp [generateMerkleProof, hrecord, hlocate, hbuild]
  · simp [computeIpMerkleRoot, hsome, hroot]
  · rw [hlocate, hfold]
  · simp [verifyIpMerkleProof, hrecord, hverify]

theorem unlisted_unproved (sha256 : Bytes → BytesN 32) (hr : s.ipRecord ipId = some r)
    (hnone : listIpByOwner r.owner s = []) (hhash : r.commitmentHash ≠ .zero 32) :
    generateMerkleProof sha256 ipId s = .ok ([], s) ∧
      verifyIpMerkleProof sha256 ipId [] s = .ok (false, s) := by
  have hrecord : s.ledger.ipRecord ipId = some r := hr
  have hhashes : ownedHashes r.owner s = [] := by rw [ownedHashes, hnone, List.filterMap_nil]
  have hverify : verifyMerkleProof sha256 r.commitmentHash [] [] = some false := by
    simp [verifyMerkleProof, merkleRoot, candidates, hhash]
  refine ⟨?_, ?_⟩
  · simp [generateMerkleProof, hrecord, hhashes, buildMerkleProof]
  · simp [verifyIpMerkleProof, hrecord, hhashes, hverify]

end Proofs

section Lists

def Titles.Listed (t : Titles) (i : ℕ) : Prop :=
  ∃ owner, t.ownerOf i = some owner ∧ i ∈ listed t.ownerIps owner

namespace Titles

variable {t t' : Titles} {i : ℕ} {owner newOwner : Address}

theorem mem_filed {j : ℕ} {index : Address → Option (List ℕ)}
    (h : i ∈ listed index owner) : i ∈ listed (filed index newOwner j) owner := by
  by_cases howner : owner = newOwner
  · subst howner
    rw [listed_filed_self]
    exact List.mem_append_left _ h
  · rwa [listed_filed_of_ne howner]

theorem Listed.passed (t : Titles) : (t.pass i owner newOwner).Listed i :=
  ⟨newOwner, update_self _ _ _, by simp [pass]⟩

theorem Listed.step (h : t.Listed i) (hexact : t.Exact) (hstep : Step t t') : t'.Listed i := by
  obtain ⟨owner, howner, hmem⟩ := h
  have hold : i ≠ t.count := fun e => by
    rw [e, hexact.fresh] at howner
    cases howner
  cases hstep with
  | granted newOwner =>
    exact ⟨owner, (update_of_ne hold _ _).trans howner, mem_filed hmem⟩
  | unlisted => exact ⟨owner, (update_of_ne hold _ _).trans howner, hmem⟩
  | passed j former newOwner hformer =>
    by_cases hj : i = j
    · subst hj
      exact .passed t
    · refine ⟨owner, (update_of_ne hj _ _).trans howner, mem_filed ?_⟩
      by_cases hsame : owner = former
      · subst hsame
        rw [listed_unfiled_self]
        exact (List.mem_erase_of_ne hj).mpr hmem
      · rwa [listed_unfiled_of_ne hsame]

theorem Listed.steps (h : t.Listed i) (hexact : t.Exact) (hsteps : ReflTransGen Step t t') :
    t'.Listed i := by
  have hboth : t'.Exact ∧ t'.Listed i := by
    induction hsteps with
    | refl => exact ⟨hexact, h⟩
    | tail _ hstep ih => exact ⟨ih.1.step hstep, ih.2.step ih.1 hstep⟩
  exact hboth.2

theorem Lists.listed (h : Lists t t') (howner : t'.ownerOf i = some owner) :
    t'.Listed i ∨ t.ownerOf i = some owner := by
  cases h with
  | granted newOwner =>
    rcases update_eq_some howner with ⟨rfl, rfl⟩ | ⟨-, hold⟩
    · exact .inl ⟨owner, howner, by simp [grant]⟩
    · exact .inr hold
  | passed j former newOwner hformer =>
    rcases update_eq_some howner with ⟨rfl, rfl⟩ | ⟨-, hold⟩
    · exact .inl (.passed t)
    · exact .inr hold

theorem Lists.all_listed (h : ReflTransGen Lists t t') (hexact : t.Exact)
    (howner : t'.ownerOf i = some owner) : t'.Listed i ∨ t.ownerOf i = some owner := by
  induction h generalizing owner with
  | refl => exact .inr howner
  | @tail u t' hsteps hstep ih =>
    rcases hstep.listed howner with hlisted | hold
    · exact .inl hlisted
    · have hexact' : u.Exact := hexact.steps (ReflTransGen.mono (fun _ _ => Lists.step) _ _ hsteps)
      exact (ih hold).imp_left fun hlisted => hlisted.step hexact' hstep.step

end Titles

end Lists

section Runs

variable {crypto : Crypto} {tr : List (Act × State)} {s s' : State} {act : Act} {ipId : ℕ}
  {r : IpRecord}

def Call.handsOver (ipId : ℕ) : Call → Bool
  | .transferIp id _ | .transferIpOwnership id _ => id = ipId
  | _ => false

/-- Committed anonymously and not handed over since; the newest call comes first. -/
def Anonymous (ipId : ℕ) : List (Act × State) → Prop
  | [] => False
  | (act, _) :: tr =>
    if ((now State.empty tr).ipRecord ipId).isNone then act.call.anonymous = true
    else act.call.handsOver ipId = false ∧ Anonymous ipId tr

theorem Anonymous.called (h : Anonymous ipId tr) :
    ∃ act ∈ tr.map Prod.fst, act.call.anonymous = true := by
  induction tr with
  | nil => exact h.elim
  | cons step tr ih =>
    obtain ⟨act, s'⟩ := step
    rw [Anonymous] at h
    split at h
    · exact ⟨act, by simp, h⟩
    · obtain ⟨act', hmem, hcall⟩ := ih h.2
      exact ⟨act', by simp [hmem], hcall⟩

theorem ActStep.handed (hact : ActStep crypto s act s') (hover : act.call.handsOver ipId) :
    s'.titles.Listed ipId := by
  have hexec : exec (act.env crypto) act.call s = .ok ((), s') := hact
  cases hcall : act.call with
  | transferIp id newOwner | transferIpOwnership id newOwner =>
    rw [hcall] at hexec hover
    obtain rfl : id = ipId := by simpa [Call.handsOver] using hover
    obtain ⟨owner, -, hpass⟩ := transferIp_passes hexec
    rw [hpass]
    exact .passed _
  | _ => simp [hcall, Call.handsOver] at hover

theorem ActStep.listed_or_anonymous {i : ℕ} {owner : Address}
    (hact : ActStep crypto s act s') (hrun : Run (ActStep crypto) State.empty tr s)
    (h : ∀ owner, s.titles.ownerOf i = some owner → s.titles.Listed i ∨ Anonymous i tr)
    (howner : s'.titles.ownerOf i = some owner) :
    s'.titles.Listed i ∨ Anonymous i ((act, s') :: tr) := by
  have hexec : exec (act.env crypto) act.call s = .ok ((), s') := hact
  have hexact := run_titles hrun
  rw [Anonymous, hrun.now_eq]
  cases hr : s.ipRecord i with
  | none =>
    cases hcall : act.call.anonymous with
    | true => exact .inr (by simp)
    | false =>
      refine .inl ((Titles.Lists.all_listed (exec_lists hexec hcall) hexact
        howner).resolve_right ?_)
      intro hold
      obtain ⟨r, hr', -⟩ := Option.map_eq_some_iff.mp hold
      exact absurd (hr.symm.trans hr') (by simp)
  | some r =>
    have hold : s.titles.ownerOf i = some r.owner := by
      change (s.ipRecord i).map IpRecord.owner = _
      rw [hr]
      rfl
    rcases h r.owner hold with hlisted | hanonymous
    · exact .inl (hlisted.steps hexact (exec_titles hexec))
    · cases hover : act.call.handsOver i with
      | true => exact .inl (hact.handed hover)
      | false => exact .inr (by simpa using hanonymous)

/-- Every IP is in its owner's list, but for the anonymous commitments. -/
theorem listed_or_anonymous (hrun : Run (ActStep crypto) State.empty tr s)
    (hr : s.ipRecord ipId = some r) (hnamed : ¬ Anonymous ipId tr) :
    ipId ∈ listIpByOwner r.owner s := by
  have hlisted : ∀ i owner, s.titles.ownerOf i = some owner →
      s.titles.Listed i ∨ Anonymous i tr := by
    clear hr hnamed
    induction hrun with
    | start =>
      intro i owner howner
      simp [State.titles, Ledger.ownerOf, State.ledger, State.empty] at howner
    | @next tr s s' act hrun hact ih => exact fun i owner => hact.listed_or_anonymous hrun (ih i)
  have howner : s.titles.ownerOf ipId = some r.owner := by
    change (s.ipRecord ipId).map IpRecord.owner = _
    rw [hr]
    rfl
  obtain ⟨owner, howner', hmem⟩ := (hlisted ipId r.owner howner).resolve_right hnamed
  obtain rfl := Option.some.inj (howner.symm.trans howner')
  exact hmem

/-- Every IP but an anonymous commitment that was never handed over can prove that it is
its owner's. -/
theorem ip_proved (hrun : Run (ActStep crypto) State.empty tr s) (hr : s.ipRecord ipId = some r)
    (hnamed : ¬ Anonymous ipId tr) :
    ∃ proof root, generateMerkleProof crypto.sha256 ipId s = .ok (proof, s) ∧
      computeIpMerkleRoot crypto.sha256 r.owner s = .ok (root, s) ∧
      foldPath (hashPair crypto.sha256) proof
        (locate r.commitmentHash 0 0 (ownedHashes r.owner s)) r.commitmentHash = root ∧
      verifyIpMerkleProof crypto.sha256 ipId proof s = .ok (true, s) :=
  listed_proved crypto.sha256 hr (listed_or_anonymous hrun hr hnamed)

end Runs

section Drawings

open Scenario

theorem later_design_proved : ∃ tr s proof, Run (ActStep crypto) State.empty tr s ∧
    generateMerkleProof crypto.sha256 2 s = .ok (proof, s) ∧
      verifyIpMerkleProof crypto.sha256 2 proof s = .ok (true, s) := by
  obtain ⟨tr, s, hrun, hacts, hseen⟩ := played State.empty
    [act 5 inventor (.commitIp inventor design 0),
     act 6 inventor (.commitIp inventor laterDesign 0)]
    (fun s => (s.ipRecord 2).isSome) (by decide)
  obtain ⟨r, hr⟩ := Option.isSome_iff_exists.mp hseen
  have hnamed : ¬ Anonymous 2 tr := by
    intro h
    obtain ⟨a, hmem, hcall⟩ := h.called
    rw [hacts] at hmem
    revert hcall
    revert a
    decide
  obtain ⟨proof, root, hproof, -, -, hverify⟩ := ip_proved hrun hr hnamed
  exact ⟨tr, s, proof, hrun, hproof, hverify⟩

/-- The proof of an anonymous commitment is empty and fails. -/
theorem anonymous_design_unproved : ∃ tr s, Run (ActStep crypto) State.empty tr s ∧
    generateMerkleProof crypto.sha256 1 s = .ok ([], s) ∧
      verifyIpMerkleProof crypto.sha256 1 [] s = .ok (false, s) := by
  obtain ⟨tr, s, hrun, hacts, hseen⟩ := played State.empty
    [act 5 rival (.batchCommitIpAnonymous secret [design])]
    (fun s => s.ipRecord 1 = some (newRecord 1 currentContractAddress design 5 none) ∧
      listIpByOwner currentContractAddress s = []) (by decide)
  obtain ⟨hr, hnone⟩ := of_decide_eq_true hseen
  exact ⟨tr, s, hrun, unlisted_unproved crypto.sha256 hr hnone (by decide)⟩

end Drawings

end AtomicIp.IpRegistry
