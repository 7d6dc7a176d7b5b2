import AtomicIp.Registry.BatchCommits
import AtomicIp.Registry.DelegateRights

/-!
Whom the lookup finds a delegate, and whose commitments are accepted. The lookup follows the
lists, circles included, as far as a delegation can go; the delegated commitment looks nobody
up and asks for the owner's own authorisation.
-/

set_option autoImplicit false

namespace AtomicIp.IpRegistry

open Function Tx

section Paths

variable {d : Delegations} {k weight : ℕ} {a b : Address}

/-- Each of the first `k` on the path has listed the next one. -/
def Delegations.Follows (d : Delegations) (path : ℕ → Address) (k : ℕ) : Prop :=
  ∀ i, i < k → d.Lists (path i) (path (i + 1))

theorem Delegations.Spans.leads (h : d.Spans k a b weight) :
    ∃ path, path 0 = a ∧ path k = b ∧ d.Follows path k := by
  induction h with
  | here a => exact ⟨fun _ => a, rfl, rfl, fun i hi => absurd hi (Nat.not_lt_zero i)⟩
  | @hop hops weight root x a depth hmem _ ih =>
    obtain ⟨path, hstart, hend, hfollows⟩ := ih
    refine ⟨fun i => if i = 0 then root else path (i - 1), rfl, ?_, ?_⟩
    · simpa using hend
    · intro i hi
      cases i with
      | zero =>
        have hlists : d.Lists root x := ⟨depth, hmem⟩
        simpa [hstart] using hlists
      | succ i =>
        have hlists := hfollows i (by omega)
        simpa using hlists

theorem Delegations.Follows.spans {path : ℕ → Address} (h : d.Follows path k) :
    ∃ weight, d.Spans k (path 0) (path k) weight := by
  induction k generalizing path with
  | zero => exact ⟨0, .here _⟩
  | succ k ih =>
    obtain ⟨depth, hmem⟩ := h 0 (Nat.succ_pos k)
    have hrest : d.Follows (fun i => path (i + 1)) k := by
      intro i hi
      exact h (i + 1) (by omega)
    obtain ⟨weight, hspan⟩ := ih hrest
    exact ⟨_, .hop hmem hspan⟩

/-- A delegate is whom a path of lists leads to, no longer than a delegation is deep. -/
theorem isDelegate_iff_path (s : State) (root candidate : Address) :
    isDelegate root candidate s = true ↔
      ∃ k path, 1 ≤ k ∧ k ≤ maxDelegationDepth ∧ path 0 = root ∧ path k = candidate ∧
        s.delegations.Follows path k := by
  have hlookup : isDelegate root candidate s =
      isDelegateInChain s.delegations.delegates maxDelegationDepth root candidate := rfl
  rw [hlookup, Delegations.isDelegateInChain_iff]
  constructor
  · intro h
    obtain ⟨i, weight, hlt, hspan⟩ := h
    obtain ⟨path, hstart, hend, hfollows⟩ := hspan.leads
    exact ⟨i + 1, path, by omega, by omega, hstart, hend, hfollows⟩
  · intro h
    obtain ⟨k, path, hpos, hle, rfl, rfl, hfollows⟩ := h
    obtain ⟨i, rfl⟩ : ∃ i, k = i + 1 := ⟨k - 1, by omega⟩
    obtain ⟨weight, hspan⟩ := hfollows.spans
    exact ⟨i, weight, by omega, hspan⟩

end Paths

section Commits

variable {env : Env} {s s' : State} {owner caller : Address} {hash : BytesN 32}
  {id difficulty : ℕ}

theorem commitIpDelegated_runs :
    (∃ id s', commitIpDelegated env owner hash difficulty s = .ok (id, s')) ↔
      owner ∈ env.auths ∧ s.delegations.entries owner ≠ [] ∧ Fresh hash s.ledger ∧
        leadingZeros hash.bytes difficulty = true := by
  constructor
  · intro h
    obtain ⟨id, s', h⟩ := h
    simp [commitIpDelegated] at h
    obtain ⟨hauth, hlisted, hnonzero, hfree, hpow, s₁, howner, hcount, -⟩ := h
    exact ⟨hauth, hlisted, ⟨hnonzero, hfree, hcount⟩, hpow⟩
  · intro h
    obtain ⟨hauth, hlisted, hfresh, hpow⟩ := h
    simp [commitIpDelegated]
    exact ⟨hauth, hlisted, hfresh.nonzero, hfresh.free, hpow, _, _, rfl, hfresh.count, (),
      updateCommitmentChecksum_total.choose_spec⟩

theorem commitIpDelegated_registers
    (h : commitIpDelegated env owner hash difficulty s = .ok (id, s')) :
    s'.commitmentOwner hash = some owner ∧
      s'.ipRecord id = some (newRecord id owner hash env.timestamp none) := by
  have henrolls := commitIpDelegated_enrolls h
  have hid : id = s.ledger.count := by
    simp [commitIpDelegated] at h
    obtain ⟨-, -, -, -, -, s₁, howner, -, -, rfl⟩ := h
    rfl
  rw [State.commitmentOwner_ledger, State.ipRecord_ledger, henrolls.ledger, hid]
  exact ⟨update_self .., update_self ..⟩

/-- The commitment is accepted, and its record is the owner's. -/
def CommitsFor (env : Env) (owner : Address) (hash : BytesN 32) (difficulty : ℕ) (s : State) :
    Prop :=
  ∃ id s', commitIpDelegated env owner hash difficulty s = .ok (id, s') ∧
    s'.commitmentOwner hash = some owner ∧
      ∃ r, s'.ipRecord id = some r ∧ r.owner = owner ∧ r.commitmentHash = hash

theorem commitsFor_iff : CommitsFor env owner hash difficulty s ↔
    owner ∈ env.auths ∧ s.delegations.entries owner ≠ [] ∧ Fresh hash s.ledger ∧
      leadingZeros hash.bytes difficulty = true := by
  rw [← commitIpDelegated_runs]
  constructor
  · intro h
    obtain ⟨id, s', h, -⟩ := h
    exact ⟨id, s', h⟩
  · intro h
    obtain ⟨id, s', h⟩ := h
    obtain ⟨howner, hrecord⟩ := commitIpDelegated_registers h
    exact ⟨id, s', h, howner, _, hrecord, rfl, rfl⟩

/-- The owner and his delegates, and nobody else, can commit for him on their own. -/
def DelegatesCommit (env : Env) (caller owner : Address) (hash : BytesN 32) (difficulty : ℕ)
    (s : State) : Prop :=
  (caller = owner ∨ isDelegate owner caller s = true → CommitsFor env owner hash difficulty s) ∧
    (¬ (caller = owner ∨ isDelegate owner caller s = true) →
      ∀ id s', commitIpDelegated env owner hash difficulty s ≠ .ok (id, s'))

/-- A caller commits for himself once he has listed a delegate and while ids are left, and for
another owner never; so it is as it should be for those who are no delegates. -/
theorem delegates_commit_iff (hauths : env.auths = [caller]) (hnonzero : hash ≠ .zero 32)
    (hfree : s.commitmentOwner hash = none)
    (hpow : leadingZeros hash.bytes difficulty = true) :
    DelegatesCommit env caller owner hash difficulty s ↔
      caller = owner ∧ s.delegations.entries owner ≠ [] ∧ s.nextId.getD 1 + 1 < 2 ^ 64 ∨
        caller ≠ owner ∧ isDelegate owner caller s = false := by
  have hcommits : CommitsFor env owner hash difficulty s ↔
      owner = caller ∧ s.delegations.entries owner ≠ [] ∧ s.nextId.getD 1 + 1 < 2 ^ 64 := by
    rw [commitsFor_iff, hauths, List.mem_singleton]
    constructor
    · intro h
      obtain ⟨hself, hlisted, hfresh, -⟩ := h
      exact ⟨hself, hlisted, hfresh.count⟩
    · intro h
      obtain ⟨hself, hlisted, hcount⟩ := h
      exact ⟨hself, hlisted, ⟨hnonzero, hfree, hcount⟩, hpow⟩
  rw [DelegatesCommit, hcommits]
  constructor
  · intro h
    by_cases hself : caller = owner
    · have hruns := h.1 (.inl hself)
      exact .inl ⟨hself, hruns.2⟩
    · refine .inr ⟨hself, ?_⟩
      rw [Bool.eq_false_iff]
      intro hdelegate
      have hruns := h.1 (.inr hdelegate)
      exact hself hruns.1.symm
  · intro h
    cases h with
    | inl hself =>
      refine ⟨fun _ => ⟨hself.1.symm, hself.2⟩, ?_⟩
      intro hnone
      exact absurd (.inl hself.1) hnone
    | inr hother =>
      obtain ⟨hne, hforeign⟩ := hother
      refine ⟨?_, ?_⟩
      · intro hentitled
        cases hentitled with
        | inl hself => exact absurd hself hne
        | inr hdelegate => simp [hforeign] at hdelegate
      · intro _ id s' hexec
        have hauth := (commitIpDelegated_runs.mp ⟨id, s', hexec⟩).1
        rw [hauths, List.mem_singleton] at hauth
        exact hne hauth.symm

end Commits

section Helpers

open Scenario

/-- The inventor commits a design himself after he has named a helper. -/
theorem inventor_commits_delegated : ∃ tr s, Run (ActStep crypto) State.empty tr s ∧
    s.delegations.Lists inventor helper ∧
    CommitsFor ⟨crypto, 6, [inventor], 10⟩ inventor design 0 s := by
  obtain ⟨tr, s, hrun, -, hseen⟩ := played State.empty
    [act 5 inventor (.delegateCommitmentAuthority inventor inventor helper)]
    (fun s => decide (helper ∈ (s.delegations.entries inventor).map DelegationRecord.delegate ∧
      s.commitmentOwner design = none ∧ s.nextId.getD 1 + 1 < 2 ^ 64))
    (by decide)
  obtain ⟨hmem, hfree, hcount⟩ := of_decide_eq_true hseen
  have hlists := Delegations.lists_iff.mpr hmem
  have hlisted : s.delegations.entries inventor ≠ [] := by
    intro hnil
    simp [hnil] at hmem
  have hcommit : DelegatesCommit ⟨crypto, 6, [inventor], 10⟩ inventor inventor design 0 s :=
    (delegates_commit_iff rfl (by decide) hfree (by decide)).mpr
      (.inl ⟨rfl, hlisted, hcount⟩)
  exact ⟨tr, s, hrun, hlists, hcommit.1 (.inl rfl)⟩

/-- The helper the inventor has named cannot commit for him. -/
theorem helper_cannot_commit : ∃ tr s, Run (ActStep crypto) State.empty tr s ∧
    isDelegate inventor helper s = true ∧ design ≠ .zero 32 ∧ s.commitmentOwner design = none ∧
    leadingZeros design.bytes 0 = true ∧
    ¬ DelegatesCommit ⟨crypto, 6, [helper], 10⟩ helper inventor design 0 s := by
  obtain ⟨tr, s, hrun, -, hseen⟩ := played State.empty
    [act 5 inventor (.delegateCommitmentAuthority inventor inventor helper)]
    (fun s => decide (isDelegate inventor helper s = true ∧ s.commitmentOwner design = none))
    (by decide)
  obtain ⟨hdelegate, hfree⟩ := of_decide_eq_true hseen
  refine ⟨tr, s, hrun, hdelegate, by decide, hfree, by decide, ?_⟩
  intro hcommit
  have hauth := (commitsFor_iff.mp (hcommit.1 (.inr hdelegate))).1
  exact absurd hauth (by decide)

end Helpers

end AtomicIp.IpRegistry
