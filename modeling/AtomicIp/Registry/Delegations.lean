import AtomicIp.Registry.Tables
import AtomicIp.Registry.Wellformed

/-!
Who may act for whom. Every root owner has a list of his delegates with their depths, but the
depth a delegator is checked by is stored once for each address, whoever its root is.
-/

set_option autoImplicit false

namespace AtomicIp.IpRegistry

open Function Tx

structure Delegations where
  delegates : Address → Option (List DelegationRecord)
  delegateDepth : Address → Option ℕ

def State.delegations (s : State) : Delegations where
  delegates := s.delegates
  delegateDepth := s.delegateDepth

namespace Delegations

variable (d : Delegations)

def entries (root : Address) : List DelegationRecord := (d.delegates root).getD []

def Lists (root delegate : Address) : Prop := ∃ depth, ⟨delegate, depth⟩ ∈ d.entries root

def grant (root delegate : Address) (depth : ℕ) : Delegations where
  delegates := update d.delegates root (some (d.entries root ++ [⟨delegate, depth⟩]))
  delegateDepth := update d.delegateDepth delegate (some depth)

def revoke (root delegate : Address) : Delegations where
  delegates := update d.delegates root
    (some ((d.entries root).filter fun entry => entry.delegate ≠ delegate))
  delegateDepth := update d.delegateDepth delegate none

def depthBy (root delegator : Address) : Option ℕ :=
  if delegator = root then some 0 else (d.delegateDepth delegator).map (· + 1)

variable {d} {root root' delegate x : Address} {depth : ℕ} {entry : DelegationRecord}

theorem lists_iff : d.Lists root x ↔ x ∈ (d.entries root).map DelegationRecord.delegate := by
  rw [List.mem_map]
  constructor
  · intro h
    obtain ⟨depth, hmem⟩ := h
    exact ⟨_, hmem, rfl⟩
  · intro h
    obtain ⟨entry, hmem, rfl⟩ := h
    exact ⟨entry.depth, hmem⟩

theorem mem_entries_grant : entry ∈ (d.grant root delegate depth).entries root' ↔
    entry ∈ d.entries root' ∨ root' = root ∧ entry = ⟨delegate, depth⟩ := by
  by_cases hroot : root' = root
  · subst hroot
    simp [entries, grant]
  · simp [entries, grant, hroot]

theorem mem_entries_revoke : entry ∈ (d.revoke root delegate).entries root' ↔
    entry ∈ d.entries root' ∧ (root' = root → entry.delegate ≠ delegate) := by
  by_cases hroot : root' = root
  · subst hroot
    simp [entries, revoke]
  · simp [entries, revoke, hroot]

theorem lists_grant : (d.grant root delegate depth).Lists root' x ↔
    d.Lists root' x ∨ root' = root ∧ x = delegate := by
  constructor
  · intro h
    obtain ⟨n, hmem⟩ := h
    cases mem_entries_grant.mp hmem with
    | inl hold => exact .inl ⟨n, hold⟩
    | inr hnew => exact .inr ⟨hnew.1, congrArg DelegationRecord.delegate hnew.2⟩
  · intro h
    cases h with
    | inl hold =>
      obtain ⟨n, hmem⟩ := hold
      exact ⟨n, mem_entries_grant.mpr (.inl hmem)⟩
    | inr hnew =>
      obtain ⟨rfl, rfl⟩ := hnew
      exact ⟨depth, mem_entries_grant.mpr (.inr ⟨rfl, rfl⟩)⟩

theorem lists_revoke : (d.revoke root delegate).Lists root' x ↔
    d.Lists root' x ∧ (root' = root → x ≠ delegate) := by
  constructor
  · intro h
    obtain ⟨n, hmem⟩ := h
    obtain ⟨hold, hkept⟩ := mem_entries_revoke.mp hmem
    exact ⟨⟨n, hold⟩, hkept⟩
  · intro h
    obtain ⟨⟨n, hmem⟩, hkept⟩ := h
    exact ⟨n, mem_entries_revoke.mpr ⟨hmem, hkept⟩⟩

/-- From list to list: the hops, and the depths of the entries with one more for each. -/
inductive Spans (d : Delegations) : ℕ → Address → Address → ℕ → Prop where
  | here (a : Address) : Spans d 0 a a 0
  | hop {hops weight : ℕ} {root x a : Address} {depth : ℕ} (h : ⟨x, depth⟩ ∈ d.entries root)
      (hrest : Spans d hops x a weight) : Spans d (hops + 1) root a (depth + 1 + weight)

theorem Spans.trans {i j p q : ℕ} {a b c : Address} (h : d.Spans i a b p)
    (h' : d.Spans j b c q) : d.Spans (i + j) a c (p + q) := by
  induction h with
  | here => simpa using h'
  | @hop hops weight root x b depth hmem _ ih =>
    have hspan := Spans.hop hmem (ih h')
    have hhops : hops + 1 + j = hops + j + 1 := by omega
    rw [hhops, Nat.add_assoc (depth + 1)]
    exact hspan

theorem isDelegateInChain_iff {hops : ℕ} {a : Address} :
    isDelegateInChain d.delegates hops root a = true ↔
      ∃ i weight, i < hops ∧ d.Spans (i + 1) root a weight := by
  induction hops generalizing root with
  | zero => simp [isDelegateInChain]
  | succ hops ih =>
    simp only [isDelegateInChain, List.any_eq_true, Bool.or_eq_true, decide_eq_true_eq, ih]
    constructor
    · intro h
      obtain ⟨entry, hmem, hfound⟩ := h
      cases hfound with
      | inl hhere =>
        subst hhere
        exact ⟨0, _, Nat.succ_pos _, .hop hmem (.here _)⟩
      | inr hchain =>
        obtain ⟨i, weight, hlt, hspan⟩ := hchain
        exact ⟨i + 1, _, by omega, .hop hmem hspan⟩
    · intro h
      obtain ⟨i, weight, hlt, hspan⟩ := h
      cases hspan with
      | @hop _ w _ x _ depth hmem hrest =>
        refine ⟨⟨x, depth⟩, hmem, ?_⟩
        cases i with
        | zero =>
          cases hrest
          exact .inl rfl
        | succ i => exact .inr ⟨i, w, by omega, hrest⟩

end Delegations

section Calls

variable {env : Env} {s s' : State} {u : Unit} {root delegator delegate : Address}
  {crypto : Crypto} {act : Act}

theorem delegationDepth_ok {depth : ℕ} : delegationDepth root delegator s = .ok (depth, s') ↔
    (s.delegations.depthBy root delegator = some depth ∧ depth < 2 ^ 32) ∧ s' = s := by
  unfold delegationDepth Delegations.depthBy
  by_cases hroot : delegator = root
  · rw [if_pos hroot, if_pos hroot, Tx.pure_ok]
    constructor
    · intro h
      obtain ⟨rfl, rfl⟩ := h
      exact ⟨⟨rfl, by decide⟩, rfl⟩
    · intro h
      exact ⟨(Option.some.inj h.1.1).symm, h.2⟩
  · rw [if_neg hroot, if_neg hroot, Option.map_eq_some_iff]
    rw [Tx.load_bind_ok]
    simp only [Tx.bind_ok, orFail_ok, u32_ok]
    constructor
    · intro h
      obtain ⟨stored, _, ⟨hstored, rfl⟩, hlt, rfl, rfl⟩ := h
      exact ⟨⟨⟨stored, hstored, rfl⟩, hlt⟩, rfl⟩
    · intro h
      obtain ⟨⟨⟨stored, hstored, rfl⟩, hlt⟩, rfl⟩ := h
      exact ⟨stored, _, ⟨hstored, rfl⟩, hlt, rfl, rfl⟩

def State.delegatedTo (s : State) (root delegate : Address) (depth : ℕ) : State :=
  ((s.setDelegates root (some (s.delegations.entries root ++ [⟨delegate, depth⟩]))).setDelegateDepth
    delegate (some depth)).published ⟨"delegated", .delegated root delegate depth⟩

theorem delegateCommitmentAuthority_ok :
    delegateCommitmentAuthority env root delegator delegate s = .ok (u, s') ↔
      delegator ∈ env.auths ∧ ∃ depth, s.delegations.depthBy root delegator = some depth ∧
        depth < maxDelegationDepth ∧
          (¬ s.delegations.Lists root delegate ∧ s' = s.delegatedTo root delegate depth ∨
            s.delegations.Lists root delegate ∧ s' = s) := by
  simp only [delegateCommitmentAuthority, Tx.bind_ok, requireAuth_ok, delegationDepth_ok,
    require_ok, Tx.load_ok, Delegations.lists_iff]
  constructor
  · intro h
    obtain ⟨_, _, ⟨hauth, rfl⟩, depth, _, ⟨⟨hdepth, -⟩, rfl⟩, _, _, ⟨hlt, rfl⟩, delegates, _,
      ⟨rfl, rfl⟩, h⟩ := h
    refine ⟨hauth, depth, hdepth, hlt, ?_⟩
    rcases Tx.onlyIf_ok.mp h with ⟨hnew, h⟩ | ⟨hold, rfl⟩
    · simp only [Tx.store_bind_ok, publish_ok] at h
      exact .inl ⟨hnew, h⟩
    · exact .inr ⟨not_not.mp hold, rfl⟩
  · intro h
    obtain ⟨hauth, depth, hdepth, hlt, h⟩ := h
    have hfits : depth < 2 ^ 32 := Nat.lt_trans hlt (by decide)
    refine ⟨(), s, ⟨hauth, rfl⟩, depth, s, ⟨⟨hdepth, hfits⟩, rfl⟩, (), s, ⟨hlt, rfl⟩, _, s,
      ⟨rfl, rfl⟩, ?_⟩
    refine Tx.onlyIf_ok.mpr ?_
    cases h with
    | inl hnew =>
      refine .inl ⟨hnew.1, ?_⟩
      simp only [Tx.store_bind_ok, publish_ok]
      exact hnew.2
    | inr hold => exact .inr ⟨not_not.mpr hold.1, hold.2⟩

theorem revokeDelegation_ok : revokeDelegation env root delegate s = .ok (u, s') ↔
    root ∈ env.auths ∧ s' = ((s.setDelegates root (some ((s.delegations.entries root).filter
      fun entry => entry.delegate ≠ delegate))).setDelegateDepth delegate none).published
        ⟨"revoke", .delegationRevoked root delegate⟩ := by
  rw [revokeDelegation, Tx.seq_ok]
  simp only [requireAuth_ok]
  constructor
  · intro h
    obtain ⟨_, ⟨hauth, rfl⟩, h⟩ := h
    rw [Tx.store_bind_ok, Tx.store_bind_ok, publish_ok] at h
    exact ⟨hauth, h⟩
  · intro h
    refine ⟨s, ⟨h.1, rfl⟩, ?_⟩
    rw [Tx.store_bind_ok, Tx.store_bind_ok, publish_ok]
    exact h.2

instance : Blind .events State.delegations := ⟨fun _ => rfl⟩

theorem blind_delegations {t : Table} (h : t ≠ .delegations) : Blind t State.delegations := by
  cases t with
  | delegations => exact absurd rfl h
  | _ => exact ⟨fun _ => rfl⟩

def Call.Delegates : Call → Prop
  | .delegateCommitmentAuthority .. | .revokeDelegation .. => True
  | _ => False

inductive Delegating (act : Act) (s s' : State) : Prop where
  | kept (hcall : ¬ act.call.Delegates) (h : s'.delegations = s.delegations)
  | again (root delegator delegate : Address) (depth : ℕ)
      (hcall : act.call = .delegateCommitmentAuthority root delegator delegate)
      (hauth : delegator ∈ act.auths)
      (hdepth : s.delegations.depthBy root delegator = some depth)
      (hlt : depth < maxDelegationDepth) (hold : s.delegations.Lists root delegate)
      (h : s'.delegations = s.delegations)
  | granted (root delegator delegate : Address) (depth : ℕ)
      (hcall : act.call = .delegateCommitmentAuthority root delegator delegate)
      (hauth : delegator ∈ act.auths)
      (hdepth : s.delegations.depthBy root delegator = some depth)
      (hlt : depth < maxDelegationDepth) (hnew : ¬ s.delegations.Lists root delegate)
      (h : s'.delegations = s.delegations.grant root delegate depth)
  | revoked (root delegate : Address) (hcall : act.call = .revokeDelegation root delegate)
      (hauth : root ∈ act.auths) (h : s'.delegations = s.delegations.revoke root delegate)

theorem ActStep.delegating (hact : ActStep crypto s act s') : Delegating act s s' := by
  obtain ⟨timestamp, auths, budget, call⟩ := act
  unfold ActStep at hact
  cases call with
  | delegateCommitmentAuthority root delegator delegate =>
    obtain ⟨hauth, depth, hdepth, hlt, h⟩ := delegateCommitmentAuthority_ok.mp hact
    cases h with
    | inl hnew =>
      have hgrant := congrArg State.delegations hnew.2
      exact .granted root delegator delegate depth rfl hauth hdepth hlt hnew.1 hgrant
    | inr hold =>
      have hsame := congrArg State.delegations hold.2
      exact .again root delegator delegate depth rfl hauth hdepth hlt hold.1 hsame
  | revokeDelegation root delegate =>
    obtain ⟨hauth, h⟩ := revokeDelegation_ok.mp hact
    exact .revoked root delegate rfl hauth (congrArg State.delegations h)
  | _ =>
    refine .kept (fun h => h) (exec_frame State.delegations hact fun t ht => blind_delegations ?_)
    rintro rfl
    simp [Call.writes] at ht

end Calls

end AtomicIp.IpRegistry
