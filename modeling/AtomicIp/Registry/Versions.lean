import AtomicIp.Lib.Index
import AtomicIp.Registry.Views

set_option autoImplicit false

namespace AtomicIp.IpRegistry

open Function Relation Tx

section Parents

variable {env : Env} {c c' : Ledger} {i p : ℕ} {r r' : IpRecord} {owner : Address}
  {hash : BytesN 32} {parent : Option ℕ}

theorem Ledger.parentOf_eq_some : c.parentOf i = some p ↔
    ∃ r, c.ipRecord i = some r ∧ r.parentIpId = some p := Option.bind_eq_some_iff

theorem Ledger.parentOf_of_record (hr : c.ipRecord i = some r) : c.parentOf i = r.parentIpId := by
  rw [Ledger.parentOf, hr]
  rfl

theorem Ledger.parentOf_rewrite (hr : c.ipRecord i = some r)
    (hparent : r'.parentIpId = r.parentIpId) :
    (c.setIpRecord i (some r')).parentOf = c.parentOf := by
  funext j
  by_cases hj : j = i
  · subst hj
    rw [Ledger.parentOf_of_record hr, ← hparent]
    exact Ledger.parentOf_of_record (update_self ..)
  · simp only [Ledger.parentOf, Ledger.setIpRecord, update_of_ne hj]

theorem Enrolls.parentOf (h : Enrolls env owner hash parent c c') :
    c'.parentOf = update c.parentOf c.count parent := by
  rw [h.ledger]
  funext i
  by_cases hi : i = c.count
  · subst hi
    rw [update_self]
    have hr : (c.enroll (newRecord c.count owner hash env.timestamp parent)).ipRecord c.count =
      some (newRecord c.count owner hash env.timestamp parent) := update_self ..
    exact Ledger.parentOf_of_record hr
  · rw [update_of_ne hi]
    simp only [Ledger.parentOf, Ledger.enroll, Ledger.setIpRecord, Ledger.setCommitmentOwner,
      Ledger.setNextId, update_of_ne hi]

theorem Ledger.Wf.parentOf_count (h : c.Wf) : c.parentOf c.count = none := by
  rw [Ledger.parentOf, h.absent]
  rfl

theorem Ledger.Wf.parentOf_below (h : c.Wf) (hp : c.parentOf i = some p) : i < c.count := by
  obtain ⟨r, hr, -⟩ := Ledger.parentOf_eq_some.mp hp
  exact ((h.stored i).mp (Option.isSome_of_eq_some hr)).2

theorem Enrolls.parentOf_none (h : Enrolls env owner hash none c c') (hwf : c.Wf) :
    c'.parentOf = c.parentOf := by
  rw [h.parentOf, update_eq_self_iff]
  exact hwf.parentOf_count.symm

theorem Step.parentOf_kept {m : Move} (hstep : Step env c m c') (hm : ∀ r, m ≠ .registered r) :
    c'.parentOf = c.parentOf := by
  cases hstep with
  | registered => exact absurd rfl (hm _)
  | rotated hr | transferred hr => exact Ledger.parentOf_rewrite (c := c) hr rfl
  | revised r' hr hrevises => exact Ledger.parentOf_rewrite hr hrevises.parentIpId

end Parents

def Books.chain (b : Books) (root : ℕ) : List ℕ := (b.ipVersionChain root).getD [root]

/-- The records form a forest, and its lists are exact. -/
structure Books.Versioned (b : Books) : Prop where
  wf : b.ledger.Wf
  descending : Descending b.ledger.parentOf
  positive : ∀ i p, b.ledger.parentOf i = some p → 1 ≤ p
  children : ∀ p, Indexed (· < ·) b.ledger.parentOf p (listed b.ipVersions p)
  chains : ∀ root, b.ledger.parentOf root = none → ListsTree b.ledger.parentOf root (b.chain root)

namespace Books.Versioned

variable {env : Env} {b b' : Books} {i p root budget : ℕ} {r : IpRecord}

theorem empty : State.empty.books.Versioned where
  wf := .empty
  descending i p hp := by cases hp
  positive i p hp := by cases hp
  children p := .nil fun j hj => by cases hj
  chains root _ := by
    refine ⟨List.pairwise_singleton _ _, fun i => ?_⟩
    rw [show State.empty.books.chain root = [root] from rfl, List.mem_singleton]
    constructor
    · rintro rfl
      exact .refl
    · intro h
      cases ReflTransGen.cases_head h with
      | inl hsame => exact hsame
      | inr hstep =>
        obtain ⟨p, hp, -⟩ := hstep
        cases hp

theorem parent_exists (h : b.Versioned) (hp : b.ledger.parentOf i = some p) :
    ∃ q, b.ledger.ipRecord p = some q := by
  have hpos := h.positive i p hp
  have hlt := h.descending i p hp
  have hbelow := h.wf.parentOf_below hp
  exact Option.isSome_iff_exists.mp ((h.wf.stored p).mpr ⟨hpos, by omega⟩)

theorem kept (h : b.Versioned) (hwf : b'.ledger.Wf)
    (hparent : b'.ledger.parentOf = b.ledger.parentOf) (hversions : b'.ipVersions = b.ipVersions)
    (hchains : b'.ipVersionChain = b.ipVersionChain) : b'.Versioned where
  wf := hwf
  descending := hparent ▸ h.descending
  positive := hparent ▸ h.positive
  children p := by
    rw [hparent, hversions]
    exact h.children p
  chains root hroot := by
    rw [hparent] at hroot ⊢
    rw [Books.chain, hchains]
    exact h.chains root hroot

theorem versioned (h : b.Versioned) (hwf : b'.ledger.Wf) (hp : b.ledger.ipRecord p = some r)
    (hparent : b'.ledger.parentOf = update b.ledger.parentOf b.ledger.count (some p))
    (hversions : b'.ipVersions = filed b.ipVersions p b.ledger.count)
    (hroot : walk b'.ledger.parentOf budget p = some root)
    (hchain : b'.ipVersionChain = update b.ipVersionChain root
      (some (b.chain root ++ [b.ledger.count]))) : b'.Versioned := by
  have hstored := (h.wf.stored p).mp (Option.isSome_of_eq_some hp)
  have hbelow : ∀ i q, b.ledger.parentOf i = some q → i < b.ledger.count :=
    fun i q hq => h.wf.parentOf_below hq
  have hleaf : ∀ i, b.ledger.parentOf i ≠ some b.ledger.count := by
    intro i hi
    have hlt := h.descending i _ hi
    have hlt' := hbelow i _ hi
    omega
  have hcount : root ≠ b.ledger.count ∧ Climbs b.ledger.parentOf p root ∧
      b.ledger.parentOf root = none := by
    obtain ⟨hup, htop⟩ := walk_root hroot
    rw [hparent] at hup htop
    have hne : root ≠ b.ledger.count := by
      rintro rfl
      rw [update_self] at htop
      cases htop
    exact ⟨hne, (climbs_leaf_of_ne hleaf (by omega)).mp hup, (update_of_ne hne _ _).symm.trans htop⟩
  obtain ⟨hne, hup, htop⟩ := hcount
  refine ⟨hwf, fun i q hq => ?_, fun i q hq => ?_, fun q => ?_, fun root' hroot' => ?_⟩
  · rw [hparent] at hq
    rcases update_eq_some hq with ⟨rfl, rfl⟩ | ⟨-, hold⟩
    · exact hstored.2
    · exact h.descending i q hold
  · rw [hparent] at hq
    rcases update_eq_some hq with ⟨-, rfl⟩ | ⟨-, hold⟩
    · exact hstored.1
    · exact h.positive i q hold
  · rw [hparent, hversions]
    exact (h.children q).file h.wf.parentOf_count fun j hj => hbelow j q hj
  · rw [hparent] at hroot' ⊢
    have hne' : root' ≠ b.ledger.count := by
      rintro rfl
      rw [update_self] at hroot'
      cases hroot'
    rw [update_of_ne hne'] at hroot'
    by_cases hsame : root' = root
    · subst hsame
      have hlist : b'.chain root' = b.chain root' ++ [b.ledger.count] := by
        rw [Books.chain, hchain, update_self]
        rfl
      rw [hlist]
      exact (h.chains root' htop).leaf h.descending hbelow hstored.2 hup
    · have hlist : b'.chain root' = b.chain root' := by
        rw [Books.chain, hchain, update_of_ne hsame]
        rfl
      rw [hlist]
      refine (h.chains root' hroot').leaf_elsewhere h.descending hbelow hstored.2 hne' ?_
      intro hother
      exact hsame (hother.root_unique hroot' hup htop)

theorem step {e : Entry} (h : b.Versioned) (hstep : Books.Step env b e b') : b'.Versioned := by
  have hwf := hstep.wf h.wf
  cases hstep with
  | committed henrolls =>
    refine h.kept hwf ?_ ?_ ?_
    · rw [Books.log_ledger]
      exact henrolls.parentOf_none h.wf
    · rw [Books.log_ipVersions]
      rfl
    · rw [Books.log_ipVersionChain]
      rfl
  | added henrolls => exact h.kept hwf (henrolls.parentOf_none h.wf) rfl rfl
  | logged =>
    refine h.kept hwf ?_ (Books.log_ipVersions) (Books.log_ipVersionChain)
    rw [Books.log_ledger]
  | versioned hp henrolls hroot =>
    exact h.versioned hwf hp henrolls.parentOf rfl hroot rfl
  | rotated hmove => exact h.kept hwf (hmove.parentOf_kept (by simp)) rfl rfl
  | transferred hr => exact h.kept hwf (Ledger.parentOf_rewrite hr rfl) rfl rfl
  | revoked hr => exact h.kept hwf (Ledger.parentOf_rewrite hr rfl) rfl rfl
  | merged => exact h.kept hwf rfl rfl rfl
  | revised r' hr hrevises =>
    exact h.kept hwf (Ledger.parentOf_rewrite hr hrevises.parentIpId) rfl rfl

end Books.Versioned

section Runs

variable {crypto : Crypto} {tr : List (Act × State)} {s s' : State} {act : Act}

theorem ActStep.versioned (hact : ActStep crypto s act s') (h : s.books.Versioned) :
    s'.books.Versioned := by
  obtain ⟨es, hpath, -⟩ := exec_books hact
  exact hpath.invariant (I := Books.Versioned) (P := fun _ => True)
    (fun _ _ _ _ hb hstep => hb.step hstep) (fun _ _ => trivial) h

theorem run_versioned (hrun : Run (ActStep crypto) State.empty tr s) : s.books.Versioned :=
  hrun.invariant (I := fun s => s.books.Versioned) .empty fun _ _ _ h hact => hact.versioned h

end Runs

section Walks

/-! With a budget beyond the id it starts at, every walk up the parents ends. -/

variable {env : Env} {s : State} {i p root budget : ℕ} {r : IpRecord} {visited : List ℕ}
  {hash : BytesN 32} {e : Abort ContractError}

theorem requireAcyclic_ends (hdesc : Descending s.ledger.parentOf)
    (hvisited : ∀ j ∈ visited, i < j) :
    requireAcyclic budget visited i s = .ok ((), s) ∨
      requireAcyclic budget visited i s = .error .budget ∧ budget ≤ i := by
  induction budget generalizing visited i with
  | zero => exact .inr ⟨rfl, Nat.zero_le i⟩
  | succ budget ih =>
    have hnew : i ∉ visited := fun hmem => Nat.lt_irrefl i (hvisited i hmem)
    have hpass : (require (i ∉ visited) .unauthorized : RegistryTx Unit) s = .ok ((), s) :=
      require_ok.mpr ⟨hnew, rfl⟩
    rw [requireAcyclic, Tx.bind_of_ok hpass, Tx.load_bind]
    cases hparent : (s.ipRecord i).bind IpRecord.parentIpId with
    | none => exact .inl rfl
    | some p =>
      have hlt := hdesc i p hparent
      have hlater : ∀ j ∈ visited ++ [i], p < j := by
        intro j hj
        rcases List.mem_append.mp hj with hj | hj
        · have hold := hvisited j hj
          omega
        · rwa [List.mem_singleton.mp hj]
      rcases ih hlater with hok | ⟨hout, hle⟩
      · exact .inl hok
      · exact .inr ⟨hout, by omega⟩

theorem findRoot_ends (hdesc : Descending s.ledger.parentOf) :
    (∃ root, findRoot budget i s = .ok (root, s)) ∨
      findRoot budget i s = .error .budget ∧ budget ≤ i := by
  induction budget generalizing i with
  | zero => exact .inr ⟨rfl, Nat.zero_le i⟩
  | succ budget ih =>
    rw [findRoot, Tx.load_bind]
    cases hparent : (s.ipRecord i).bind IpRecord.parentIpId with
    | none => exact .inl ⟨i, rfl⟩
    | some p =>
      have hlt := hdesc i p hparent
      rcases ih (i := p) with hok | ⟨hout, hle⟩
      · exact .inl hok
      · exact .inr ⟨hout, by omega⟩

theorem lineageRoot_of_findRoot (h : s.books.Versioned) (hr : s.ledger.ipRecord i = some r)
    (hroot : findRoot budget i s = .ok (root, s)) : lineageRoot budget i s = .ok (root, s) := by
  induction budget generalizing i r with
  | zero => cases hroot
  | succ budget ih =>
    have hread : requireIpExists i s = .ok (r, s) := requireIpExists_ok.mpr ⟨hr, rfl⟩
    have hup : (s.ipRecord i).bind IpRecord.parentIpId = r.parentIpId :=
      Ledger.parentOf_of_record hr
    rw [findRoot, Tx.load_bind, hup] at hroot
    rw [lineageRoot, Tx.bind_of_ok hread]
    cases hparent : r.parentIpId with
    | none =>
      rw [hparent] at hroot
      exact hroot
    | some p =>
      rw [hparent] at hroot hup
      obtain ⟨q, hq⟩ := h.parent_exists hup
      exact ih hq hroot

section Aborts

variable {E : Abort ContractError → Prop}

theorem requireAcyclic_aborts (hdesc : Descending s.ledger.parentOf)
    (hvisited : ∀ j ∈ visited, i < j) (hbudget : budget ≤ i → E .budget) :
    AbortsWith E s (requireAcyclic budget visited i) := by
  rcases requireAcyclic_ends hdesc hvisited with hok | ⟨hout, hle⟩
  · exact .of_ok hok
  · exact .of_error hout (hbudget hle)

theorem findRoot_aborts (hdesc : Descending s.ledger.parentOf)
    (hbudget : budget ≤ i → E .budget) : AbortsWith E s (findRoot budget i) := by
  rcases findRoot_ends hdesc with ⟨root, hok⟩ | ⟨hout, hle⟩
  · exact .of_ok hok
  · exact .of_error hout (hbudget hle)

theorem advanceId_aborts (hoverflow : E .overflow) : AbortsWith E s (advanceId i) := by
  refine .bind ?_ fun _ _ _ => .of_ok rfl
  by_cases hfits : i + 1 < 2 ^ 64
  · exact .of_ok (u64_ok.mpr ⟨hfits, rfl, rfl⟩)
  · have hout : u64 (i + 1) s = .error (.overflow : Abort ContractError) := by
      rw [u64, checked, if_neg hfits]
      rfl
    exact .of_error hout hoverflow

end Aborts

theorem Books.Versioned.descending_saved (h : s.books.Versioned)
    (hr : s.ledger.ipRecord p = some r) {r' : IpRecord} (hparent : r'.parentIpId = some p) :
    Descending (s.ledger.setIpRecord s.ledger.count (some r')).parentOf := by
  have hbelow := ((h.wf.stored p).mp (Option.isSome_of_eq_some hr)).2
  have hbelow' : p < s.ledger.count := hbelow
  intro i q hq
  by_cases hi : i = s.ledger.count
  · subst hi
    rw [Ledger.parentOf_of_record (r := r') (update_self ..), hparent] at hq
    obtain rfl := Option.some.inj hq
    exact hbelow'
  · have hold : s.ledger.parentOf i = some q := by
      simpa only [Ledger.parentOf, Ledger.setIpRecord, update_of_ne hi] using hq
    exact h.descending i q hold

/-- Why a version may be refused: never by the walks up the parents, unless the budget is no
larger than the id they start at. -/
theorem createIpVersion_aborts (h : s.books.Versioned) :
    AbortsWith (fun e => e ∈ [.contract .ipNotFound, .auth, .contract .zeroCommitmentHash,
      .contract .commitmentAlreadyRegistered, .overflow] ∨ e = .budget ∧ env.budget ≤ p)
      s (createIpVersion env p hash) := by
  refine .bind (.orAbort (.inl (by simp))) fun parent s₁ hparent => ?_
  obtain ⟨hparent, rfl⟩ := requireIpExists_ok.mp hparent
  refine .bind (.ensure (.inl (by simp))) fun _ s₂ hauth => ?_
  obtain ⟨-, rfl⟩ := requireAuth_ok.mp hauth
  refine .bind (.ensure (.inl (by simp))) fun _ s₃ hzero => ?_
  obtain ⟨-, rfl⟩ := requireNonZeroCommitment_ok.mp hzero
  refine .bind (.ensure (.inl (by simp))) fun _ s₄ hfree => ?_
  obtain ⟨-, rfl⟩ := requireUniqueCommitment_ok.mp hfree
  refine .bind (requireAcyclic_aborts h.descending (by simp) fun hle => .inr ⟨rfl, hle⟩)
    fun _ s₅ hacyclic => ?_
  obtain rfl := requireAcyclic_state hacyclic
  refine .bind (.of_ok rfl) fun id s₆ hid => ?_
  obtain ⟨rfl, rfl⟩ := nextIpId_ok.mp hid
  have hversion : (newRecord s₆.ledger.count parent.owner hash env.timestamp
    (some p)).parentIpId = some p := rfl
  have hdesc := h.descending_saved hparent hversion
  refine .bind (.of_ok rfl) fun _ s₇ hsave => ?_
  obtain rfl := saveIp_ok.mp hsave
  refine .bind (.of_ok rfl) fun _ s₈ howner => ?_
  obtain rfl := Tx.store_ok.mp howner
  refine .bind (.of_ok rfl) fun _ s₉ hindex => ?_
  obtain rfl := indexCommitment_ok.mp hindex
  refine .bind (.of_ok rfl) fun _ s₁₀ happend => ?_
  obtain rfl := Tx.store_ok.mp happend
  refine .bind (findRoot_aborts ?_ fun hle => .inr ⟨rfl, hle⟩) fun root s₁₁ _ => ?_
  · exact hdesc
  refine .bind (.of_ok rfl) fun _ s₁₂ _ => ?_
  refine .bind (advanceId_aborts (.inl (by simp))) fun _ s₁₃ _ => ?_
  exact .bind (.of_ok rfl) fun _ _ _ => .of_ok rfl

end Walks

section Trees

variable {crypto : Crypto} {tr : List (Act × State)} {env : Env} {s : State} {x root : ℕ}
  {r : IpRecord}

structure State.RootOf (s : State) (x root : ℕ) : Prop where
  above : Climbs s.ledger.parentOf x root
  top : s.ledger.parentOf root = none
  stored : ∃ r, s.ipRecord root = some r

theorem getIpVersions_eq (hx : s.ledger.ipRecord x = some r) :
    getIpVersions x s = .ok (listed s.books.ipVersions x, s) :=
  Tx.bind_of_ok (requireIpExists_ok.mpr ⟨hx, rfl⟩)

namespace Books.Versioned

theorem exists_above (h : s.books.Versioned) (hx : s.ledger.ipRecord x = some r)
    (hup : Climbs s.ledger.parentOf x root) : ∃ q, s.ledger.ipRecord root = some q := by
  induction hup with
  | refl => exact ⟨r, hx⟩
  | tail _ hp _ => exact h.parent_exists hp

theorem rootOf (h : s.books.Versioned) (hx : s.ledger.ipRecord x = some r) :
    ∃ root, s.RootOf x root := by
  obtain ⟨root, hup, htop⟩ := exists_root h.descending x
  exact ⟨root, hup, htop, h.exists_above hx hup⟩

theorem findRoot_eq (h : s.books.Versioned) (hroot : s.RootOf x root) {budget : ℕ}
    (hbudget : x < budget) : findRoot budget x s = .ok (root, s) := by
  rcases findRoot_ends h.descending with ⟨root', hfound⟩ | ⟨-, hle⟩
  · obtain ⟨hup, htop⟩ := walk_root (findRoot_ok.mp hfound).1
    rwa [hroot.above.root_unique hroot.top hup htop]
  · exact absurd hbudget (Nat.not_lt.mpr hle)

theorem getIpLineage_eq (h : s.books.Versioned) (hx : s.ledger.ipRecord x = some r)
    (hroot : s.RootOf x root) (hbudget : x < env.budget) :
    getIpLineage env x s = .ok (root :: listed s.books.ipVersions root, s) := by
  have hfound := lineageRoot_of_findRoot h hx (h.findRoot_eq hroot hbudget)
  rw [getIpLineage, Tx.bind_of_ok (requireIpExists_ok.mpr ⟨hx, rfl⟩), Tx.bind_of_ok hfound]
  rfl

theorem getIpVersionChain_eq (h : s.books.Versioned) (hx : s.ledger.ipRecord x = some r)
    (hroot : s.RootOf x root) (hbudget : x < env.budget) :
    getIpVersionChain env x s = .ok (s.books.chain root, s) :=
  getIpVersionChain_ok.mpr
    ⟨⟨r, hx⟩, root, (findRoot_ok.mp (h.findRoot_eq hroot hbudget)).1, rfl, rfl⟩

end Books.Versioned

/-- Parents are stored and smaller; so every walk up from a record ends at a stored record
without a parent, where its lineage and its chain start, and the cycle check refuses no version. -/
theorem version_graph_forest (hrun : Run (ActStep crypto) State.empty tr s) :
    (∀ i r p, s.ipRecord i = some r → r.parentIpId = some p →
      p < i ∧ ∃ q, s.ipRecord p = some q) ∧
    (∀ i r, s.ipRecord i = some r → ∃ root top, s.ipRecord root = some top ∧
      top.parentIpId = none ∧ ∀ env : Env, i < env.budget →
        requireAcyclic env.budget [] i s = .ok ((), s) ∧
        findRoot env.budget i s = .ok (root, s) ∧ lineageRoot env.budget i s = .ok (root, s) ∧
        (∃ versions, getIpVersions root s = .ok (versions, s) ∧
          getIpLineage env i s = .ok (root :: versions, s)) ∧
        ∃ chain, getIpVersionChain env i s = .ok (root :: chain, s)) ∧
    ∀ env p hash e, createIpVersion env p hash s = .error e →
      e ≠ .contract .unauthorized ∧ (p < env.budget → e ≠ .budget) := by
  have h := run_versioned hrun
  refine ⟨?_, ?_, ?_⟩
  · intro i r p hr hp
    have hup := (Ledger.parentOf_of_record (c := s.ledger) hr).trans hp
    exact ⟨h.descending i p hup, h.parent_exists hup⟩
  · intro i r hr
    obtain ⟨root, hroot⟩ := h.rootOf hr
    obtain ⟨top, htop⟩ := hroot.stored
    refine ⟨root, top, htop, (Ledger.parentOf_of_record htop).symm.trans hroot.top, ?_⟩
    intro env hbudget
    have hfound := h.findRoot_eq hroot hbudget
    obtain ⟨descendants, hsplit, -⟩ := (h.chains root hroot.top).split h.descending
    have hchain := h.getIpVersionChain_eq hr hroot hbudget
    rw [hsplit] at hchain
    refine ⟨?_, hfound, lineageRoot_of_findRoot h hr hfound,
      ⟨_, getIpVersions_eq htop, h.getIpLineage_eq hr hroot hbudget⟩, descendants, hchain⟩
    have hnone : ∀ j ∈ ([] : List ℕ), i < j := by simp
    rcases requireAcyclic_ends h.descending hnone with hok | ⟨-, hle⟩
    · exact hok
    · exact absurd hbudget (Nat.not_lt.mpr hle)
  · intro env p hash e herror
    rcases createIpVersion_aborts h e herror with hmem | ⟨rfl, hle⟩
    · constructor
      · rintro rfl
        simp at hmem
      · rintro - rfl
        simp at hmem
    · exact ⟨by simp, fun hlt => absurd hlt (Nat.not_lt.mpr hle)⟩

/-- The version chain of a record is its root and then all that descends from the root, in
increasing order, and the same for the whole tree. -/
theorem version_chain_exact (hrun : Run (ActStep crypto) State.empty tr s)
    (hx : s.ipRecord x = some r) (hbudget : x < env.budget) :
    ∃ root descendants, s.RootOf x root ∧
      getIpVersionChain env x s = .ok (root :: descendants, s) ∧
      descendants.Pairwise (· < ·) ∧
      (∀ j, j ∈ descendants ↔ Descends s.ledger.parentOf j root) ∧
      x ∈ root :: descendants ∧ (root :: descendants).Nodup ∧
      ∀ y q, s.ipRecord y = some q → s.RootOf y root → ∀ env' : Env, y < env'.budget →
        getIpVersionChain env' y s = .ok (root :: descendants, s) := by
  have h := run_versioned hrun
  obtain ⟨root, hroot⟩ := h.rootOf hx
  have hlist := h.chains root hroot.top
  obtain ⟨descendants, hsplit, hordered, hmem⟩ := hlist.split h.descending
  rw [hsplit] at hlist
  refine ⟨root, descendants, hroot, ?_, hordered, hmem, (hlist.mem x).mpr hroot.above, ?_, ?_⟩
  · rw [← hsplit]
    exact h.getIpVersionChain_eq hx hroot hbudget
  · exact hlist.ordered.imp Nat.ne_of_lt
  · intro y q hy hroot' env' hbudget'
    rw [← hsplit]
    exact h.getIpVersionChain_eq hy hroot' hbudget'

/-- The lineage has the record and its whole tree, the root first, and so agrees with the
chain. -/
structure WholeLineage (s : State) (x root : ℕ) (lineage chain : List ℕ) : Prop where
  contains : x ∈ lineage
  first : lineage.head? = some root
  tree : ∀ j, Climbs s.ledger.parentOf j root → j ∈ lineage
  same : ∀ j, j ∈ lineage ↔ j ∈ chain

/-- The lineage of a record is whole exactly when its tree has no version of a version. -/
theorem lineage_whole_iff (hrun : Run (ActStep crypto) State.empty tr s)
    (hx : s.ipRecord x = some r) (hbudget : x < env.budget) :
    ∃ root lineage chain, s.RootOf x root ∧ getIpLineage env x s = .ok (lineage, s) ∧
      getIpVersionChain env x s = .ok (chain, s) ∧ (WholeLineage s x root lineage chain ↔
        ∀ j, Descends s.ledger.parentOf j root → s.ledger.parentOf j = some root) := by
  have h := run_versioned hrun
  obtain ⟨root, hroot⟩ := h.rootOf hx
  have hchildren : ∀ j, j ∈ listed s.books.ipVersions root ↔ s.ledger.parentOf j = some root :=
    (h.children root).mem
  have hchain := (h.chains root hroot.top).mem
  refine ⟨root, _, _, hroot, h.getIpLineage_eq hx hroot hbudget,
    h.getIpVersionChain_eq hx hroot hbudget, ?_⟩
  constructor
  · intro hwhole j hj
    have hmem := hwhole.tree j hj.to_reflTransGen
    have hlt := hj.lt h.descending
    rcases List.mem_cons.mp hmem with hsame | hversion
    · omega
    · exact (hchildren j).mp hversion
  · intro hflat
    have htree : ∀ j, j ∈ root :: listed s.books.ipVersions root ↔
        Climbs s.ledger.parentOf j root := by
      intro j
      rw [List.mem_cons, hchildren]
      constructor
      · rintro (rfl | hp)
        · exact .refl
        · exact .single hp
      · intro hup
        by_cases hsame : j = root
        · exact .inl hsame
        · exact .inr (hflat j (hup.descends_of_ne hsame))
    exact ⟨(htree x).mpr hroot.above, rfl, fun j hup => (htree j).mpr hup,
      fun j => (htree j).trans (hchain j).symm⟩

end Trees

section Drafts

open Scenario

/-- A design, a version of it, a version of that, and another one of the first. -/
def drafts : List Act :=
  [act 5 inventor (.commitIp inventor design 0), act 6 inventor (.createIpVersion 1 laterDesign),
    act 7 inventor (.createIpVersion 2 (.fill 32 2)),
    act 8 inventor (.createIpVersion 1 (.fill 32 3))]

def reader : Env := ⟨crypto, 9, [], 10⟩

def chainOf (x : ℕ) (s : State) : Option (List ℕ) :=
  match getIpVersionChain reader x s with
  | .ok (chain, _) => some chain
  | .error _ => none

def lineageOf (x : ℕ) (s : State) : Option (List ℕ) :=
  match getIpLineage reader x s with
  | .ok (lineage, _) => some lineage
  | .error _ => none

theorem drafts_forest : ∃ s : State, (s.ipRecord 4).isSome = true ∧
    ∀ i r p, s.ipRecord i = some r → r.parentIpId = some p →
      p < i ∧ ∃ q, s.ipRecord p = some q := by
  obtain ⟨tr, s, hrun, -, hseen⟩ := played State.empty drafts (fun s => (s.ipRecord 4).isSome)
    (by decide +kernel)
  exact ⟨s, hseen, (version_graph_forest hrun).1⟩

theorem drafts_chained : ∃ s : State, chainOf 3 s = some [1, 2, 3, 4] ∧
    ∀ j, j ∈ [2, 3, 4] ↔ Descends s.ledger.parentOf j 1 := by
  obtain ⟨tr, s, hrun, -, hseen⟩ := played State.empty drafts
    (fun s => (s.ipRecord 3).isSome && chainOf 3 s = some [1, 2, 3, 4]) (by decide +kernel)
  simp only [Bool.and_eq_true, decide_eq_true_eq] at hseen
  obtain ⟨hsome, hchain⟩ := hseen
  obtain ⟨r, hr⟩ := Option.isSome_iff_exists.mp hsome
  have hbudget : 3 < reader.budget := by decide
  obtain ⟨root, ds, -, hread, -, hmem, -⟩ := version_chain_exact hrun hr hbudget
  refine ⟨s, hchain, ?_⟩
  rw [chainOf, hread] at hchain
  obtain ⟨rfl, rfl⟩ := List.cons.inj (Option.some.inj hchain)
  exact hmem

theorem first_version_listed : ∃ (s : State) (root : ℕ) (lineage chain : List ℕ),
    getIpLineage reader 2 s = .ok (lineage, s) ∧ WholeLineage s 2 root lineage chain := by
  obtain ⟨tr, s, hrun, -, hseen⟩ := played State.empty (drafts.take 2) (fun s =>
    (s.ipRecord 2).isSome && s.ledger.count = 3 && s.ledger.parentOf 2 = some 1 &&
      s.ledger.parentOf 1 = none) (by decide +kernel)
  simp only [Bool.and_eq_true, decide_eq_true_eq] at hseen
  obtain ⟨⟨⟨hsome, hcount⟩, hversion⟩, htop⟩ := hseen
  obtain ⟨r, hr⟩ := Option.isSome_iff_exists.mp hsome
  have hbudget : 2 < reader.budget := by decide
  obtain ⟨root, lineage, chain, hroot, hread, -, hiff⟩ := lineage_whole_iff hrun hr hbudget
  refine ⟨s, root, lineage, chain, hread, hiff.mpr ?_⟩
  have hfirst : root = 1 := hroot.above.root_unique hroot.top (.single hversion) htop
  subst hfirst
  intro j hj
  have h := run_versioned hrun
  have hlt := hj.lt h.descending
  obtain ⟨p, hp, -⟩ := TransGen.head'_iff.mp hj
  have hbelow := h.wf.parentOf_below hp
  have hcount' : s.books.ledger.count = 3 := hcount
  obtain rfl : j = 2 := by omega
  exact hversion

/-- The version of a version is missing in its own lineage. -/
theorem second_draft_unlisted : ∃ (tr : List (Act × State)) (s : State) (chain : List ℕ),
    Run (ActStep crypto) State.empty tr s ∧ getIpLineage reader 3 s = .ok ([1, 2, 4], s) ∧
      getIpVersionChain reader 3 s = .ok (chain, s) ∧
        ∀ root, ¬ WholeLineage s 3 root [1, 2, 4] chain := by
  obtain ⟨tr, s, hrun, -, hseen⟩ := played State.empty drafts (fun s =>
    (s.ipRecord 3).isSome && lineageOf 3 s = some [1, 2, 4]) (by decide +kernel)
  simp only [Bool.and_eq_true, decide_eq_true_eq] at hseen
  obtain ⟨hsome, hlineage⟩ := hseen
  obtain ⟨r, hr⟩ := Option.isSome_iff_exists.mp hsome
  have h := run_versioned hrun
  obtain ⟨root, hroot⟩ := h.rootOf hr
  have hbudget : 3 < reader.budget := by decide
  have hread := h.getIpLineage_eq hr hroot hbudget
  have hchain := h.getIpVersionChain_eq hr hroot hbudget
  rw [lineageOf, hread] at hlineage
  refine ⟨tr, s, _, hrun, ?_, hchain, ?_⟩
  · rw [hread, Option.some.inj hlineage]
  · intro root' hwhole
    have hmissing := hwhole.contains
    simp at hmissing

end Drafts

end AtomicIp.IpRegistry
