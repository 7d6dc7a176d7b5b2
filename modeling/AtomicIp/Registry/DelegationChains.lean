import AtomicIp.Registry.DelegateRights

set_option autoImplicit false

namespace AtomicIp.IpRegistry

open Function

section Revocation

variable {crypto : Crypto} {s s' : State} {act : Act} {tr : List (Act × State)}
  {root delegate a x : Address} {chain : List Address}

/-- Those between the root and somebody who got his delegation by a chain of grants and was
not revoked since, newest call first. -/
inductive HeldBy (root : Address) : List (Act × State) → Address → List Address → Prop where
  | direct {past : List (Act × State)} {act : Act} {s : State} {a : Address}
      (h : act.call = .delegateCommitmentAuthority root root a) :
      HeldBy root ((act, s) :: past) a []
  | through {past : List (Act × State)} {act : Act} {s : State} {x a : Address}
      {chain : List Address} (h : act.call = .delegateCommitmentAuthority root x a)
      (hne : x ≠ root) (hx : HeldBy root past x chain) :
      HeldBy root ((act, s) :: past) a (chain ++ [x])
  | kept {past : List (Act × State)} {act : Act} {s : State} {a : Address} {chain : List Address}
      (h : HeldBy root past a chain) (hkept : act.call ≠ .revokeDelegation root a) :
      HeldBy root ((act, s) :: past) a chain

/-- Everything the address holds under the root it got from the delegate or those below him. -/
def OnlyThrough (root : Address) (tr : List (Act × State)) (delegate a : Address) : Prop :=
  (∃ chain, HeldBy root tr a chain) ∧ ∀ chain, HeldBy root tr a chain → delegate ∈ chain

/-- Whatever is granted is granted for this root. -/
def Act.GrantsFor (root : Address) (act : Act) : Prop :=
  ∀ root' delegator delegate, act.call = .delegateCommitmentAuthority root' delegator delegate →
    root' = root

/-- One root only: its list has those who hold by some chain of grants. -/
structure SingleRoot (root : Address) (tr : List (Act × State)) (d : Delegations) : Prop where
  others : ∀ other, other ≠ root → d.entries other = []
  deep : ∀ x depth, d.delegateDepth x = some depth → d.Lists root x
  held : ∀ a, d.Lists root a ↔ ∃ chain, HeldBy root tr a chain

theorem HeldBy.of_quiet (h : HeldBy root ((act, s) :: tr) a chain) (hcall : ¬ act.call.Delegates) :
    HeldBy root tr a chain := by
  cases h with
  | direct h => exact absurd (by rw [h]; trivial) hcall
  | through h => exact absurd (by rw [h]; trivial) hcall
  | kept h => exact h

theorem HeldBy.of_grant {delegator : Address} (h : HeldBy root ((act, s) :: tr) a chain)
    (hcall : act.call = .delegateCommitmentAuthority root delegator delegate) :
    a = delegate ∨ HeldBy root tr a chain := by
  cases h with
  | direct h =>
    rw [hcall] at h
    cases h
    exact .inl rfl
  | through h =>
    rw [hcall] at h
    cases h
    exact .inl rfl
  | kept h => exact .inr h

theorem HeldBy.of_revoke {owner : Address} (h : HeldBy root ((act, s) :: tr) a chain)
    (hcall : act.call = .revokeDelegation owner delegate) :
    HeldBy root tr a chain ∧ act.call ≠ .revokeDelegation root a := by
  cases h with
  | direct h => simp [hcall] at h
  | through h => simp [hcall] at h
  | kept h hkept => exact ⟨h, hkept⟩

theorem SingleRoot.lookup {d : Delegations} (h : SingleRoot root tr d) {i w : ℕ} {b : Address}
    (hspan : d.Spans (i + 1) b a w) : d.Lists root a := by
  induction i generalizing b w with
  | zero =>
    cases hspan with
    | hop hmem hrest =>
      cases hrest
      by_cases hb : b = root
      · exact ⟨_, hb ▸ hmem⟩
      · rw [h.others b hb] at hmem
        cases hmem
  | succ i ih =>
    cases hspan with
    | hop _ hrest => exact ih hrest

theorem SingleRoot.isDelegate_iff (h : SingleRoot root tr s.delegations) :
    isDelegate root a s = true ↔ s.delegations.Lists root a := by
  constructor
  · intro hdelegate
    have hchain : isDelegateInChain s.delegations.delegates maxDelegationDepth root a = true :=
      hdelegate
    obtain ⟨i, w, -, hspan⟩ := Delegations.isDelegateInChain_iff.mp hchain
    exact h.lookup hspan
  · exact fun hlists => hlists.isDelegate

theorem SingleRoot.empty : SingleRoot root [] State.empty.delegations where
  others _ _ := rfl
  deep x depth h := by simp [State.delegations, State.empty] at h
  held a := by
    constructor
    · intro h
      obtain ⟨depth, hmem⟩ := h
      simp [Delegations.entries, State.delegations, State.empty] at hmem
    · intro h
      obtain ⟨chain, h⟩ := h
      cases h

theorem SingleRoot.kept (h : SingleRoot root tr s.delegations) (hcall : ¬ act.call.Delegates)
    (hsame : s'.delegations = s.delegations) :
    SingleRoot root ((act, s') :: tr) s'.delegations := by
  rw [hsame]
  refine ⟨h.others, h.deep, ?_⟩
  intro a
  rw [h.held]
  constructor
  · intro hheld
    obtain ⟨chain, hheld⟩ := hheld
    exact ⟨chain, .kept hheld fun e => hcall (by rw [e]; trivial)⟩
  · intro hheld
    obtain ⟨chain, hheld⟩ := hheld
    exact ⟨chain, hheld.of_quiet hcall⟩

theorem SingleRoot.again {delegator : Address} (h : SingleRoot root tr s.delegations)
    (hcall : act.call = .delegateCommitmentAuthority root delegator delegate)
    (hold : s.delegations.Lists root delegate) (hsame : s'.delegations = s.delegations) :
    SingleRoot root ((act, s') :: tr) s'.delegations := by
  rw [hsame]
  refine ⟨h.others, h.deep, ?_⟩
  intro a
  constructor
  · intro hlists
    obtain ⟨chain, hheld⟩ := (h.held a).mp hlists
    exact ⟨chain, .kept hheld (by simp [hcall])⟩
  · intro hheld
    obtain ⟨chain, hheld⟩ := hheld
    cases hheld.of_grant hcall with
    | inl hself => exact hself ▸ hold
    | inr hheld => exact (h.held a).mpr ⟨chain, hheld⟩

theorem SingleRoot.granted {delegator : Address} {depth : ℕ}
    (h : SingleRoot root tr s.delegations)
    (hcall : act.call = .delegateCommitmentAuthority root delegator delegate)
    (hdepth : s.delegations.depthBy root delegator = some depth)
    (hgrant : s'.delegations = s.delegations.grant root delegate depth) :
    SingleRoot root ((act, s') :: tr) s'.delegations := by
  rw [hgrant]
  refine ⟨?_, ?_, ?_⟩
  · intro other hother
    have hold := h.others other hother
    simpa [Delegations.entries, Delegations.grant, hother] using hold
  · intro x n hx
    rcases update_eq_some hx with ⟨rfl, -⟩ | ⟨-, hold⟩
    · exact Delegations.lists_grant.mpr (.inr ⟨rfl, rfl⟩)
    · exact Delegations.lists_grant.mpr (.inl (h.deep x n hold))
  · intro a
    rw [Delegations.lists_grant]
    constructor
    · intro hlists
      cases hlists with
      | inl hold =>
        obtain ⟨chain, hheld⟩ := (h.held a).mp hold
        exact ⟨chain, .kept hheld (by simp [hcall])⟩
      | inr hnew =>
        obtain rfl := hnew.2
        by_cases hself : delegator = root
        · rw [hself] at hcall
          exact ⟨[], .direct hcall⟩
        · rw [Delegations.depthBy, if_neg hself] at hdepth
          obtain ⟨stored, hstored, -⟩ := Option.map_eq_some_iff.mp hdepth
          obtain ⟨chain, hheld⟩ := (h.held delegator).mp (h.deep delegator stored hstored)
          exact ⟨_, .through hcall hself hheld⟩
    · intro hheld
      obtain ⟨chain, hheld⟩ := hheld
      cases hheld.of_grant hcall with
      | inl hself => exact .inr ⟨rfl, hself⟩
      | inr hheld => exact .inl ((h.held a).mpr ⟨chain, hheld⟩)

theorem SingleRoot.revoked {owner : Address} (h : SingleRoot root tr s.delegations)
    (hcall : act.call = .revokeDelegation owner delegate)
    (hrevoke : s'.delegations = s.delegations.revoke owner delegate) :
    SingleRoot root ((act, s') :: tr) s'.delegations := by
  rw [hrevoke]
  refine ⟨?_, ?_, ?_⟩
  · intro other hother
    have hold := h.others other hother
    rw [List.eq_nil_iff_forall_not_mem] at hold ⊢
    exact fun entry hmem => hold entry (Delegations.mem_entries_revoke.mp hmem).1
  · intro x n hx
    have hne : x ≠ delegate := by
      rintro rfl
      simp [Delegations.revoke] at hx
    have hold : s.delegations.delegateDepth x = some n := by
      simpa [Delegations.revoke, hne] using hx
    exact Delegations.lists_revoke.mpr ⟨h.deep x n hold, fun _ => hne⟩
  · intro a
    rw [Delegations.lists_revoke, h.held]
    constructor
    · intro hlists
      obtain ⟨⟨chain, hheld⟩, hne⟩ := hlists
      refine ⟨chain, .kept hheld ?_⟩
      intro e
      rw [hcall] at e
      cases e
      exact hne rfl rfl
    · intro hheld
      obtain ⟨chain, hheld⟩ := hheld
      obtain ⟨hheld, hkept⟩ := hheld.of_revoke hcall
      refine ⟨⟨chain, hheld⟩, ?_⟩
      rintro rfl rfl
      exact hkept hcall

theorem SingleRoot.step (h : SingleRoot root tr s.delegations) (hact : ActStep crypto s act s')
    (honly : act.GrantsFor root) : SingleRoot root ((act, s') :: tr) s'.delegations := by
  cases hact.delegating with
  | kept hcall hsame => exact h.kept hcall hsame
  | again root' delegator delegate depth hcall _ _ _ hold hsame =>
    obtain rfl := honly root' delegator delegate hcall
    exact h.again hcall hold hsame
  | granted root' delegator delegate depth hcall _ hdepth _ _ hgrant =>
    obtain rfl := honly root' delegator delegate hcall
    exact h.granted hcall hdepth hgrant
  | revoked owner delegate hcall _ hrevoke => exact h.revoked hcall hrevoke

/-- With one root, a revoked delegate is none any more, and he takes those along who hold only
through him just when there are none. -/
theorem revocation_cuts
    (hrun : Run (Restrict (ActStep crypto) fun _ act => act.GrantsFor root) State.empty tr s)
    (hact : ActStep crypto s act s') (hcall : act.call = .revokeDelegation root delegate) :
    isDelegate root delegate s' = false ∧
      ((∀ a, OnlyThrough root tr delegate a → isDelegate root a s' = false) ↔
        ∀ a, a ≠ delegate → ¬ OnlyThrough root tr delegate a) := by
  have hbefore : SingleRoot root tr s.delegations :=
    hrun.trace_invariant (I := fun tr s => SingleRoot root tr s.delegations) .empty
      fun _ _ _ _ h hstep => h.step hstep.1 hstep.2
  have hafter : SingleRoot root ((act, s') :: tr) s'.delegations := by
    refine hbefore.step hact ?_
    intro root' delegator delegate' hgrants
    rw [hcall] at hgrants
    cases hgrants
  have hlists : ∀ a, s'.delegations.Lists root a ↔ s.delegations.Lists root a ∧ a ≠ delegate := by
    intro a
    rw [ActStep, hcall] at hact
    obtain ⟨-, hs'⟩ := revokeDelegation_ok.mp hact
    have hrevoke : s'.delegations = s.delegations.revoke root delegate := by
      rw [hs']
      rfl
    rw [hrevoke, Delegations.lists_revoke]
    simp
  refine ⟨?_, ?_, ?_⟩
  · rw [Bool.eq_false_iff]
    intro hdelegate
    exact ((hlists delegate).mp (hafter.isDelegate_iff.mp hdelegate)).2 rfl
  · intro hcut a hne honly
    have hlisted := (hlists a).mpr ⟨(hbefore.held a).mpr honly.1, hne⟩
    have hdelegate := hafter.isDelegate_iff.mpr hlisted
    rw [hcut a honly] at hdelegate
    cases hdelegate
  · intro hnone a honly
    rw [Bool.eq_false_iff]
    intro hdelegate
    have hne := ((hlists a).mp (hafter.isDelegate_iff.mp hdelegate)).2
    exact hnone a hne honly

end Revocation

section Cuts

open Scenario

def invites : Act := act 5 inventor (.delegateCommitmentAuthority inventor inventor helper)

def passesOn : Act := act 6 helper (.delegateCommitmentAuthority inventor helper partner)

def dismisses : Act := act 7 inventor (.revokeDelegation inventor helper)

def partnerLeaves : Act := act 7 inventor (.revokeDelegation inventor partner)

theorem passedOn_run {a b : State} (hinvites : perform invites State.empty = .ok ((), a))
    (hpasses : perform passesOn a = .ok ((), b)) :
    Run (Restrict (ActStep crypto) fun _ act => act.GrantsFor inventor) State.empty
      [(passesOn, b), (invites, a)] b := by
  refine (Run.start.next ⟨hinvites, ?_⟩).next ⟨hpasses, ?_⟩
  all_goals
    intro root delegator delegate hcall
    cases hcall
    rfl

theorem nobody_through_partner {a b : State} {x : Address} :
    ¬ OnlyThrough inventor [(passesOn, b), (invites, a)] partner x := by
  rintro ⟨⟨chain, hheld⟩, hall⟩
  have hmem := hall chain hheld
  cases hheld with
  | direct hcall => cases hcall
  | through hcall _ hx =>
    cases hcall
    cases hx with
    | direct _ => cases hmem with
      | tail _ hmem => cases hmem
    | through hcall hne _ =>
      cases hcall
      exact hne rfl
    | kept hx _ => cases hx
  | kept hheld _ =>
    cases hheld with
    | direct _ => cases hmem
    | through hcall hne _ =>
      cases hcall
      exact hne rfl
    | kept hheld _ => cases hheld

theorem partner_cut : ∃ tr a b, ActStep crypto a partnerLeaves b ∧
    isDelegate inventor partner a = true ∧ isDelegate inventor partner b = false ∧
    isDelegate inventor helper b = true ∧
    ∀ x, OnlyThrough inventor tr partner x → isDelegate inventor x b = false := by
  have hplayed : endsIn perform [invites] State.empty (fun s => endsIn perform [passesOn] s fun a =>
      isDelegate inventor partner a &&
        endsIn perform [partnerLeaves] a fun b => isDelegate inventor helper b) = true := by decide
  obtain ⟨s, hinvites, hlater⟩ := endsIn_one hplayed
  obtain ⟨a, hpasses, hseen⟩ := endsIn_one hlater
  simp only [Bool.and_eq_true] at hseen
  obtain ⟨hdelegate, hlast⟩ := hseen
  obtain ⟨b, hleaves, hhelper⟩ := endsIn_one hlast
  obtain ⟨hgone, hcut⟩ := revocation_cuts (passedOn_run hinvites hpasses) hleaves rfl
  exact ⟨_, a, b, hleaves, hdelegate, hgone, hhelper,
    hcut.mpr fun _ _ => nobody_through_partner⟩

theorem partner_only_through {a b : State} :
    OnlyThrough inventor [(passesOn, b), (invites, a)] helper partner := by
  constructor
  · exact ⟨_, .through rfl (by decide) (.direct rfl)⟩
  · intro chain hheld
    cases hheld with
    | direct hcall => cases hcall
    | through hcall _ _ =>
      cases hcall
      exact List.mem_append_right _ List.mem_cons_self
    | kept hheld _ =>
      cases hheld with
      | direct hcall => cases hcall
      | through hcall hne _ => cases hcall
      | kept hheld _ => cases hheld

/-- The helper's delegate outlasts him. -/
theorem partner_stays : ∃ tr a b,
    Run (Restrict (ActStep crypto) fun _ act => act.GrantsFor inventor) State.empty tr a ∧
      ActStep crypto a dismisses b ∧ OnlyThrough inventor tr helper partner ∧
        isDelegate inventor partner b = true := by
  have hplayed : endsIn perform [invites] State.empty (fun a =>
      endsIn perform [passesOn] a fun b =>
        endsIn perform [dismisses] b fun c => isDelegate inventor partner c) = true := by decide
  obtain ⟨a, hinvites, hlater⟩ := endsIn_one hplayed
  obtain ⟨b, hpasses, hlast⟩ := endsIn_one hlater
  obtain ⟨c, hdismisses, hdelegate⟩ := endsIn_one hlast
  exact ⟨_, b, c, passedOn_run hinvites hpasses, hdismisses, partner_only_through, hdelegate⟩

end Cuts

section Depth

variable {crypto : Crypto} {s s' : State} {act : Act} {tr : List (Act × State)}
  {root delegator delegate a b x : Address} {i k n p weight depth : ℕ}

def GrantedTo (tr : List (Act × State)) (a b : Address) : Prop :=
  ∃ p ∈ tr, ∃ root, p.1.call = .delegateCommitmentAuthority root a b

inductive Linked (tr : List (Act × State)) : ℕ → Address → Address → Prop where
  | self (a : Address) : Linked tr 0 a a
  | grant {k : ℕ} {a x b : Address} (h : GrantedTo tr a x) (hrest : Linked tr k x b) :
      Linked tr (k + 1) a b

def LinkedWithin (tr : List (Act × State)) (n : ℕ) (a b : Address) : Prop :=
  ∃ k, k ≤ n ∧ Linked tr k a b

theorem Linked.trans {j : ℕ} (h : Linked tr k a x) (h' : Linked tr j x b) :
    Linked tr (k + j) a b := by
  induction h with
  | self => simpa using h'
  | @grant k a y x hgrant _ ih =>
    have hshift : k + 1 + j = k + j + 1 := by omega
    rw [hshift]
    exact .grant hgrant (ih h')

theorem Linked.later (h : Linked tr k a b) : Linked ((act, s) :: tr) k a b := by
  induction h with
  | self => exact .self _
  | grant hgrant _ ih =>
    obtain ⟨p, hmem, root, hcall⟩ := hgrant
    exact .grant ⟨p, List.mem_cons_of_mem _ hmem, root, hcall⟩ ih

theorem LinkedWithin.later (h : LinkedWithin tr n a b) : LinkedWithin ((act, s) :: tr) n a b := by
  obtain ⟨k, hle, hlinked⟩ := h
  exact ⟨k, hle, hlinked.later⟩

theorem LinkedWithin.trans {m : ℕ} (h : LinkedWithin tr n a x) (h' : LinkedWithin tr m x b) :
    LinkedWithin tr (n + m) a b := by
  obtain ⟨k, hk, hlinked⟩ := h
  obtain ⟨j, hj, hrest⟩ := h'
  exact ⟨k + j, by omega, hlinked.trans hrest⟩

theorem LinkedWithin.mono {m : ℕ} (h : LinkedWithin tr n a b) (hle : n ≤ m) :
    LinkedWithin tr m a b := by
  obtain ⟨k, hk, hlinked⟩ := h
  exact ⟨k, by omega, hlinked⟩

namespace Delegations

variable {d : Delegations}

/-- Some lists lead from one to the other without the depths adding up to more. -/
def Within (d : Delegations) (weight : ℕ) (a b : Address) : Prop :=
  ∃ hops w, d.Spans hops a b w ∧ w ≤ weight

/-- The depth stored for the delegator is no less than the root's lists put him at. -/
def Measured (d : Delegations) (root delegator : Address) : Prop :=
  delegator = root ∨ ∃ stored, d.delegateDepth delegator = some stored ∧
    d.Within (stored + 1) root delegator

/-- Whom the new entry brings within reach of the lookup, it brings within the depth allowed. -/
def Fits (d : Delegations) (root delegate : Address) (depth : ℕ) : Prop :=
  ∀ i j p q a b, i + j < maxDelegationDepth → d.Spans i a root p → d.Spans j delegate b q →
    isDelegateInChain d.delegates maxDelegationDepth a b = true ∨
      ∃ p' q', d.Within p' a root ∧ d.Within q' delegate b ∧
        p' + (depth + 1) + q' ≤ maxDelegationDepth

theorem Spans.of_leaf (h : d.Spans i a b weight) (hleaf : d.entries a = []) :
    i = 0 ∧ weight = 0 ∧ a = b := by
  cases h with
  | here => exact ⟨rfl, rfl, rfl⟩
  | hop hmem _ =>
    rw [hleaf] at hmem
    cases hmem

theorem Spans.to_unlisted (h : d.Spans i a b weight) (hunlisted : ∀ x, ¬ d.Lists x b) :
    i = 0 ∧ weight = 0 ∧ a = b := by
  induction h with
  | here => exact ⟨rfl, rfl, rfl⟩
  | hop hmem _ ih =>
    obtain ⟨-, -, rfl⟩ := ih hunlisted
    exact absurd ⟨_, hmem⟩ (hunlisted _)

theorem fits_leaf (hunlisted : ∀ x, ¬ d.Lists x root) (hleaf : d.entries delegate = [])
    (hdepth : depth < maxDelegationDepth) : d.Fits root delegate depth := by
  intro i j p q a b _ hto hfrom
  obtain ⟨-, -, rfl⟩ := hto.to_unlisted hunlisted
  obtain ⟨-, -, rfl⟩ := hfrom.of_leaf hleaf
  exact .inr ⟨0, 0, ⟨0, 0, .here _, Nat.le_refl 0⟩, ⟨0, 0, .here _, Nat.le_refl 0⟩, by omega⟩

/-- A way along the lists after a grant is an old one, or goes through the new entry once. -/
theorem Spans.of_grant (h : (d.grant root delegate depth).Spans i a b weight) :
    d.Spans i a b weight ∨
      ∃ i₁ i₂ p q, i₁ + 1 + i₂ ≤ i ∧ d.Spans i₁ a root p ∧ d.Spans i₂ delegate b q := by
  induction h with
  | here a => exact .inl (.here a)
  | @hop hops w r x a n hmem _ ih =>
    cases mem_entries_grant.mp hmem with
    | inl hold =>
      cases ih with
      | inl hrest => exact .inl (.hop hold hrest)
      | inr hsplit =>
        obtain ⟨i₁, i₂, p, q, hle, hto, hfrom⟩ := hsplit
        exact .inr ⟨i₁ + 1, i₂, _, q, by omega, .hop hold hto, hfrom⟩
    | inr hnew =>
      obtain ⟨rfl, hentry⟩ := hnew
      cases hentry
      cases ih with
      | inl hrest => exact .inr ⟨0, hops, 0, w, by omega, .here _, hrest⟩
      | inr hsplit =>
        obtain ⟨i₁, i₂, p, q, hle, _, hfrom⟩ := hsplit
        exact .inr ⟨0, i₂, 0, q, by omega, .here _, hfrom⟩

theorem Spans.of_revoke (h : (d.revoke root delegate).Spans i a b weight) :
    d.Spans i a b weight := by
  induction h with
  | here a => exact .here a
  | hop hmem _ ih => exact .hop (mem_entries_revoke.mp hmem).1 ih

end Delegations

/-- Every entry is as many grants away from the root as its depth says, and so is whomever the
lookup finds. -/
structure Measures (tr : List (Act × State)) (d : Delegations) : Prop where
  entry : ∀ root x depth, ⟨x, depth⟩ ∈ d.entries root → LinkedWithin tr (depth + 1) root x
  found : ∀ a b, isDelegateInChain d.delegates maxDelegationDepth a b = true →
    LinkedWithin tr maxDelegationDepth a b

theorem Measures.spans {d : Delegations} (h : Measures tr d) (hspan : d.Spans i a b weight) :
    LinkedWithin tr weight a b := by
  induction hspan with
  | here a => exact ⟨0, Nat.le_refl 0, .self a⟩
  | hop hmem _ ih => exact (h.entry _ _ _ hmem).trans ih

theorem Measures.within {d : Delegations} (h : Measures tr d) (hwithin : d.Within weight a b) :
    LinkedWithin tr weight a b := by
  obtain ⟨hops, w, hspan, hle⟩ := hwithin
  exact (h.spans hspan).mono hle

theorem Measures.later {d : Delegations} (h : Measures tr d) : Measures ((act, s) :: tr) d where
  entry root x depth hmem := (h.entry root x depth hmem).later
  found a b hfound := (h.found a b hfound).later

theorem Measures.empty : Measures [] State.empty.delegations where
  entry root x depth hmem := by
    simp [Delegations.entries, State.delegations, State.empty] at hmem
  found a b hfound := by
    simp [isDelegateInChain, maxDelegationDepth, State.delegations, State.empty] at hfound

theorem Measures.revoke {d : Delegations} (h : Measures tr d) :
    Measures tr (d.revoke root delegate) where
  entry root' x depth hmem := h.entry root' x depth (Delegations.mem_entries_revoke.mp hmem).1
  found a b hfound := by
    obtain ⟨i, w, hlt, hspan⟩ := Delegations.isDelegateInChain_iff.mp hfound
    exact h.found a b (Delegations.isDelegateInChain_iff.mpr ⟨i, w, hlt, hspan.of_revoke⟩)

theorem Measures.granted_linked {d : Delegations} (h : Measures tr d)
    (hcall : act.call = .delegateCommitmentAuthority root delegator delegate)
    (hdepth : d.depthBy root delegator = some depth) (hmeasured : d.Measured root delegator) :
    LinkedWithin ((act, s') :: tr) (depth + 1) root delegate := by
  have hlast : LinkedWithin ((act, s') :: tr) 1 delegator delegate :=
    ⟨1, Nat.le_refl 1, .grant ⟨_, List.mem_cons_self, root, hcall⟩ (.self delegate)⟩
  have hfirst : LinkedWithin ((act, s') :: tr) depth root delegator := by
    unfold Delegations.depthBy at hdepth
    rcases hmeasured with hself | ⟨stored, hstored, hwithin⟩
    · rw [hself]
      exact ⟨0, Nat.zero_le _, .self root⟩
    · by_cases hself : delegator = root
      · rw [hself]
        exact ⟨0, Nat.zero_le _, .self root⟩
      · rw [if_neg hself, hstored] at hdepth
        cases hdepth
        exact (h.within hwithin).later
  exact hfirst.trans hlast

theorem Measures.granted {d : Delegations} (h : Measures tr d)
    (hcall : act.call = .delegateCommitmentAuthority root delegator delegate)
    (hdepth : d.depthBy root delegator = some depth) (hmeasured : d.Measured root delegator)
    (hfits : d.Fits root delegate depth) :
    Measures ((act, s') :: tr) (d.grant root delegate depth) := by
  have hnew : LinkedWithin ((act, s') :: tr) (depth + 1) root delegate :=
    h.granted_linked hcall hdepth hmeasured
  constructor
  · intro root' x n hmem
    cases Delegations.mem_entries_grant.mp hmem with
    | inl hold => exact (h.entry root' x n hold).later
    | inr hentry =>
      obtain ⟨rfl, hentry⟩ := hentry
      cases hentry
      exact hnew
  · intro a b hfound
    obtain ⟨i, w, hlt, hspan⟩ := Delegations.isDelegateInChain_iff.mp hfound
    cases hspan.of_grant with
    | inl hold =>
      exact (h.found a b (Delegations.isDelegateInChain_iff.mpr ⟨i, w, hlt, hold⟩)).later
    | inr hsplit =>
      obtain ⟨i₁, i₂, p, q, hle, hto, hfrom⟩ := hsplit
      cases hfits i₁ i₂ p q a b (by omega) hto hfrom with
      | inl hfound => exact (h.found a b hfound).later
      | inr hshort =>
        obtain ⟨p', q', hto, hfrom, hsum⟩ := hshort
        have hupper : LinkedWithin ((act, s') :: tr) p' a root := (h.within hto).later
        have hlower : LinkedWithin ((act, s') :: tr) q' delegate b := (h.within hfrom).later
        exact ((hupper.trans hnew).trans hlower).mono hsum

/-- A grant that enters somebody goes by a depth under this very root, and joins no lists to
longer ways than the depths allow. -/
def GrantsMeasured (s : State) (act : Act) : Prop :=
  ∀ root delegator delegate depth, act.call = .delegateCommitmentAuthority root delegator delegate →
    ¬ s.delegations.Lists root delegate → s.delegations.depthBy root delegator = some depth →
      s.delegations.Measured root delegator ∧ s.delegations.Fits root delegate depth

theorem Measures.step (h : Measures tr s.delegations) (hact : ActStep crypto s act s')
    (hmeasured : GrantsMeasured s act) : Measures ((act, s') :: tr) s'.delegations := by
  cases hact.delegating with
  | kept _ hsame | again _ _ _ _ _ _ _ _ _ hsame =>
    rw [hsame]
    exact h.later
  | granted root delegator delegate depth hcall _ hdepth _ hnew hgrant =>
    rw [hgrant]
    obtain ⟨hown, hfits⟩ := hmeasured root delegator delegate depth hcall hnew hdepth
    exact h.granted hcall hdepth hown hfits
  | revoked owner delegate _ _ hrevoke =>
    rw [hrevoke]
    exact h.revoke.later

/-- Where grants go by the depth under their own root and make no ways that are too long, every
delegate is at most five grants from his root. -/
theorem delegates_near (hrun : Run (Restrict (ActStep crypto) GrantsMeasured) State.empty tr s)
    (root a : Address) (hdelegate : isDelegate root a s = true) :
    LinkedWithin tr maxDelegationDepth root a := by
  have hmeasures : Measures tr s.delegations :=
    hrun.trace_invariant (I := fun tr s => Measures tr s.delegations) .empty
      fun _ _ _ _ h hstep => h.step hstep.1 hstep.2
  exact hmeasures.found root a hdelegate

end Depth

section Hops

open Scenario

theorem invites_measured : GrantsMeasured State.empty invites := by
  intro root delegator delegate depth hcall _ hdepth
  cases hcall
  obtain rfl : depth = 0 := by simpa [Delegations.depthBy] using hdepth.symm
  refine ⟨.inl rfl, Delegations.fits_leaf (fun x h => ?_) rfl (by decide)⟩
  obtain ⟨n, hmem⟩ := h
  cases hmem

theorem passesOn_measured {s : State}
    (hs : s.delegations = State.empty.delegations.grant inventor helper 0) :
    GrantsMeasured s passesOn := by
  intro root delegator delegate depth hcall _ hdepth
  cases hcall
  rw [hs] at hdepth ⊢
  have hstored :
      (State.empty.delegations.grant inventor helper 0).delegateDepth helper = some 0 := by
    simp [Delegations.grant]
  rw [Delegations.depthBy, if_neg (by decide), hstored] at hdepth
  obtain rfl : 1 = depth := Option.some.inj hdepth
  have hentry : ⟨helper, 0⟩ ∈ (State.empty.delegations.grant inventor helper 0).entries inventor :=
    Delegations.mem_entries_grant.mpr (.inr ⟨rfl, rfl⟩)
  refine ⟨.inr ⟨0, hstored, 1, _, .hop hentry (.here _), Nat.le_refl 1⟩,
    Delegations.fits_leaf (fun x h => ?_) rfl (by decide)⟩
  rcases Delegations.lists_grant.mp h with ⟨n, hmem⟩ | ⟨-, hsame⟩
  · cases hmem
  · cases hsame

theorem partner_near : ∃ tr s, isDelegate inventor partner s = true ∧
    LinkedWithin tr maxDelegationDepth inventor partner := by
  have hplay : ∃ a b, perform invites State.empty = .ok ((), a) ∧
      a.delegations = State.empty.delegations.grant inventor helper 0 ∧
      perform passesOn a = .ok ((), b) ∧ isDelegate inventor partner b = true :=
    ⟨_, _, rfl, rfl, rfl, rfl⟩
  obtain ⟨a, b, hinvites, hgranted, hpasses, hdelegate⟩ := hplay
  have hrun : Run (Restrict (ActStep crypto) GrantsMeasured) State.empty
      [(passesOn, b), (invites, a)] b :=
    (Run.start.next ⟨hinvites, invites_measured⟩).next ⟨hpasses, passesOn_measured hgranted⟩
  exact ⟨_, b, hdelegate, delegates_near hrun inventor partner hdelegate⟩

def position : Address → ℕ
  | .account n => n
  | .contract n => n

/-- Each account of the line makes the next one the inventor's delegate; the last makes his own. -/
def line : List Act :=
  [act 1 (.account 1) (.delegateCommitmentAuthority (.account 1) (.account 1) (.account 2)),
    act 2 (.account 2) (.delegateCommitmentAuthority (.account 1) (.account 2) (.account 3)),
    act 3 (.account 3) (.delegateCommitmentAuthority (.account 1) (.account 3) (.account 4)),
    act 4 (.account 4) (.delegateCommitmentAuthority (.account 1) (.account 4) (.account 5)),
    act 5 (.account 5) (.delegateCommitmentAuthority (.account 1) (.account 5) (.account 6)),
    act 6 (.account 6) (.delegateCommitmentAuthority (.account 6) (.account 6) (.account 7))]

theorem line_one_up {root a b : Address} {k : Act} (h : k ∈ line)
    (hcall : k.call = .delegateCommitmentAuthority root a b) : position b = position a + 1 := by
  simp only [line, List.mem_cons, List.not_mem_nil, or_false] at h
  rcases h with rfl | rfl | rfl | rfl | rfl | rfl
  all_goals
    cases hcall
    rfl

theorem Linked.line_position {tr : List (Act × State)} {k : ℕ} {a b : Address}
    (h : Linked tr k a b) (htr : tr.map Prod.fst = line.reverse) :
    position b = position a + k := by
  induction h with
  | self => rfl
  | @grant k a x b hgrant _ ih =>
    obtain ⟨p, hmem, root, hcall⟩ := hgrant
    have hline : p.1 ∈ line.reverse := htr ▸ List.mem_map_of_mem hmem
    have hstep := line_one_up (List.mem_reverse.mp hline) hcall
    omega

/-- The last of the line is a delegate of the first, six grants away. -/
theorem seventh_found : ∃ tr s, Run (ActStep crypto) State.empty tr s ∧
    isDelegate (.account 1) (.account 7) s = true ∧
      ¬ LinkedWithin tr maxDelegationDepth (.account 1) (.account 7) := by
  obtain ⟨tr, s, hrun, htr, hdelegate⟩ := played State.empty line
    (fun s => isDelegate (.account 1) (.account 7) s) (by decide)
  refine ⟨tr, s, hrun, hdelegate, ?_⟩
  intro hnear
  obtain ⟨k, hle, hlinked⟩ := hnear
  have hsix : 7 = 1 + k := hlinked.line_position htr
  have hmax : maxDelegationDepth = 5 := rfl
  omega

end Hops

end AtomicIp.IpRegistry
