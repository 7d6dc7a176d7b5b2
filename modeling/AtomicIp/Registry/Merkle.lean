import AtomicIp.Lib.Merkle
import AtomicIp.Registry.Contract

/-!
Merkle roots and proofs over lists of commitment hashes. A proof does not say on which side its
siblings stand; the check tries both.
-/

set_option autoImplicit false

namespace AtomicIp.IpRegistry

open Merkle

variable (sha256 : Bytes → BytesN 32)

def hashPair (left right : BytesN 32) : BytesN 32 := sha256 (left.bytes ++ right.bytes)

/-- The proof for the leaf at an index; `none` where the code unwraps a node off the level. -/
def buildMerkleProof (leaves : List (BytesN 32)) (index : ℕ) : Option (List (BytesN 32)) :=
  if leaves.length ≤ 1 then some [] else siblings (hashPair sha256) leaves index

def merkleRoot (hashes : List (BytesN 32)) : Option (BytesN 32) :=
  if hashes.length = 0 then some (.zero 32)
  else if hashes.length = 1 then hashes[0]?
  else top (hashPair sha256) hashes

def verifyMerkleProof (leaf : BytesN 32) (proof allLeaves : List (BytesN 32)) : Option Bool := do
  let root ← merkleRoot sha256 allLeaves
  pure ((candidates (hashPair sha256) proof [leaf]).any fun candidate => candidate = root)

section Completeness

variable {sha256} {leaves : List (BytesN 32)} {i : ℕ}

theorem buildMerkleProof_eq :
    buildMerkleProof sha256 leaves i = siblings (hashPair sha256) leaves i := by
  by_cases hone : leaves.length ≤ 1
  · rw [buildMerkleProof, if_pos hone, siblings, dif_neg (Nat.not_lt.mpr hone)]
    rfl
  · rw [buildMerkleProof, if_neg hone]

theorem merkleRoot_eq (hsome : 0 < leaves.length) :
    merkleRoot sha256 leaves = top (hashPair sha256) leaves := by
  rw [merkleRoot, if_neg (Nat.ne_of_gt hsome)]
  by_cases hone : leaves.length = 1
  · rw [if_pos hone, top, dif_neg (by omega)]
  · rw [if_neg hone]

/-- For every leaf the proof is built, leads to the root by the bits of the index, and passes
the check. -/
theorem merkle_proof_complete (sha256 : Bytes → BytesN 32) (hi : i < leaves.length) :
    ∃ proof root, buildMerkleProof sha256 leaves i = some proof ∧
      merkleRoot sha256 leaves = some root ∧
      foldPath (hashPair sha256) proof i leaves[i] = root ∧
      proof.length = Nat.clog 2 leaves.length ∧
      verifyMerkleProof sha256 leaves[i] proof leaves = some true := by
  have hnode : leaves[i]? = some leaves[i] := List.getElem?_eq_getElem hi
  obtain ⟨proof, hproof, hlength, htop⟩ := siblings_complete (hashPair sha256) hnode
  have hroot : merkleRoot sha256 leaves = some _ :=
    (merkleRoot_eq (Nat.zero_lt_of_lt hi)).trans htop
  refine ⟨proof, _, buildMerkleProof_eq.trans hproof, hroot, rfl, hlength, ?_⟩
  have hmem : foldPath (hashPair sha256) proof i leaves[i] ∈
      candidates (hashPair sha256) proof [leaves[i]] :=
    foldPath_mem_candidates (List.mem_singleton_self _)
  rw [verifyMerkleProof, hroot]
  exact congrArg some (List.any_eq_true.mpr ⟨_, hmem, decide_eq_true rfl⟩)

end Completeness

section Soundness

variable {sha256} {leaves proof : List (BytesN 32)} {x root : BytesN 32}

theorem verifyMerkleProof_iff (hroot : merkleRoot sha256 leaves = some root) :
    verifyMerkleProof sha256 x proof leaves = some true ↔
      root ∈ candidates (hashPair sha256) proof [x] := by
  rw [verifyMerkleProof, hroot]
  simp

/-- Where no other pair hashes to a node of the tree, a proof as long as the tree is high proves
only leaves. Proofs of any length prove the inner nodes as well, and what is hashed up to a
leaf. -/
theorem verified_leaf_iff (sha256 : Bytes → BytesN 32) (hsome : 0 < leaves.length)
    (hbinding : Binding (hashPair sha256) leaves) (x : BytesN 32) :
    (∀ proof, proof.length = Nat.clog 2 leaves.length →
      verifyMerkleProof sha256 x proof leaves = some true → x ∈ leaves) ∧
    ((∀ proof, verifyMerkleProof sha256 x proof leaves = some true → x ∈ leaves) ↔
      (Inner (hashPair sha256) leaves x ∨ (∃ n, Below (hashPair sha256) (n + 1) leaves x) →
        x ∈ leaves)) := by
  obtain ⟨root, htop⟩ : ∃ root, top (hashPair sha256) leaves = some root := top_exists hsome
  have hroot := (merkleRoot_eq hsome).trans htop
  refine ⟨fun proof hlength hverify => ?_, fun h hnode => ?_, fun h proof hverify => ?_⟩
  · have hmem := (verifyMerkleProof_iff hroot).mp hverify
    rcases hbinding.sound htop hmem with ⟨hshort, -⟩ | ⟨n, hlong, hbelow⟩
    · omega
    · obtain rfl : n = 0 := by omega
      exact below_zero.mp hbelow
  · have hleads : ∃ path, root ∈ candidates (hashPair sha256) path [x] := by
      rcases hnode with hinner | ⟨n, hbelow⟩
      · exact hinner.leads htop
      · exact hbelow.leads htop
    obtain ⟨path, hmem⟩ := hleads
    exact h path ((verifyMerkleProof_iff hroot).mpr hmem)
  · have hmem := (verifyMerkleProof_iff hroot).mp hverify
    rcases hbinding.sound htop hmem with ⟨-, hinner⟩ | ⟨n, -, hbelow⟩
    · exact h (.inl hinner)
    · cases n with
      | zero => exact below_zero.mp hbelow
      | succ n => exact h (.inr ⟨n, hbelow⟩)

end Soundness

section Drawings

open Scenario

/-- The last of three leaves, paired with itself, has a proof of two hashes. -/
theorem third_drawing_proved : ∃ proof, buildMerkleProof crypto.sha256
    [design, laterDesign, secret] 2 = some proof ∧ proof.length = 2 ∧
      verifyMerkleProof crypto.sha256 secret proof [design, laterDesign, secret] = some true := by
  have hthird : 2 < [design, laterDesign, secret].length := by decide
  obtain ⟨proof, root, hbuild, -, -, hlength, hverify⟩ :=
    merkle_proof_complete crypto.sha256 hthird
  refine ⟨proof, hbuild, ?_, hverify⟩
  rw [hlength]
  rfl

theorem hashPair_design {left right : BytesN 32}
    (h : hashPair crypto.sha256 left right = design) : left = secret ∧ right = secret := by
  have hbytes : left.bytes ++ right.bytes = secret.bytes ++ secret.bytes := by
    by_contra hne
    have hzero : hashPair crypto.sha256 left right = .zero 32 := if_neg hne
    exact absurd (hzero.symm.trans h) (by decide)
  have hlength : left.bytes.length = secret.bytes.length := left.size.trans secret.size.symm
  obtain ⟨hleft, hright⟩ := List.append_inj hbytes hlength
  exact ⟨BytesN.ext hleft, BytesN.ext hright⟩

theorem secrets_binding : Binding (hashPair crypto.sha256) [secret, secret] := by
  intro left right hhashed a b hhash
  cases hhashed with
  | @pair _ left k h hleft =>
    obtain rfl : k = 0 := by
      have := (List.getElem?_eq_some_iff.mp hleft).1
      simp only [List.length_cons, List.length_nil] at this
      omega
    obtain rfl : secret = left := by simpa using hleft
    exact hashPair_design hhash
  | above h habove =>
    cases habove with
    | pair h hleft => exact absurd h (by decide)
    | above h habove => exact absurd h (by decide)

/-- A list of two equal leaves proves its own root, with no hash at all. -/
theorem root_is_no_leaf : Binding (hashPair crypto.sha256) [secret, secret] ∧
    verifyMerkleProof crypto.sha256 design [] [secret, secret] = some true ∧
      design ∉ [secret, secret] := by
  have hroot : merkleRoot crypto.sha256 [secret, secret] = some design := by
    rw [merkleRoot_eq (by decide), top, dif_pos (by decide), top, dif_neg (by decide)]
    rfl
  exact ⟨secrets_binding, (verifyMerkleProof_iff hroot).mpr (List.mem_singleton_self _), by decide⟩

theorem later_design_unproved : Binding (hashPair crypto.sha256) [secret, secret] ∧
    verifyMerkleProof crypto.sha256 laterDesign [secret] [secret, secret] ≠ some true := by
  refine ⟨secrets_binding, fun hverify => ?_⟩
  have hleaf := (verified_leaf_iff crypto.sha256 (by decide) secrets_binding laterDesign).1
    [secret] rfl hverify
  exact absurd hleaf (by decide)

end Drawings

end AtomicIp.IpRegistry
