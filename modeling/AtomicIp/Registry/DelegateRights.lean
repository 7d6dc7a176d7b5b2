import AtomicIp.Registry.Delegations

/-!
Whose consent a delegation takes, and what one owner's delegations do to another's. A grant
checks the stored depth of the delegator, which any root may have given him or taken away.
-/

set_option autoImplicit false

namespace AtomicIp.IpRegistry

open Function

section Consent

variable {crypto : Crypto} {s s' : State} {act : Act} {tr : List (Act × State)}

/-- The delegator is the root, or stands in the root's list, or stands in no list but those
of the root and of the delegates the root's lists lead to. -/
def Delegations.Entitled (d : Delegations) (root delegator : Address) : Prop :=
  delegator = root ∨ d.Lists root delegator ∨ ∀ lister, d.Lists lister delegator →
    lister = root ∨ isDelegateInChain d.delegates (maxDelegationDepth - 1) root lister = true

/-- Whoever puts a new delegate on the list of the root may act for the root. -/
def Consented (s : State) (act : Act) (s' : State) : Prop :=
  ∀ root delegator delegate, act.call = .delegateCommitmentAuthority root delegator delegate →
    ¬ s.delegations.Lists root delegate → s'.delegations.Lists root delegate →
      delegator = root ∨ isDelegate root delegator s = true

/-- A delegator who enters somebody is entitled to. -/
def GrantsEntitled (s : State) (act : Act) : Prop :=
  ∀ root delegator delegate, act.call = .delegateCommitmentAuthority root delegator delegate →
    ¬ s.delegations.Lists root delegate → s.delegations.Entitled root delegator

def Delegations.Backed (d : Delegations) : Prop :=
  ∀ x depth, d.delegateDepth x = some depth → ∃ lister, d.Lists lister x

theorem Delegations.Backed.step (h : s.delegations.Backed) (hact : ActStep crypto s act s') :
    s'.delegations.Backed := by
  intro x n hx
  cases hact.delegating with
  | kept _ hsame | again _ _ _ _ _ _ _ _ _ hsame =>
    rw [hsame] at hx ⊢
    exact h x n hx
  | granted root delegator delegate depth _ _ _ _ _ hgrant =>
    rw [hgrant] at hx ⊢
    rcases update_eq_some hx with ⟨rfl, -⟩ | ⟨-, hold⟩
    · exact ⟨root, Delegations.lists_grant.mpr (.inr ⟨rfl, rfl⟩)⟩
    · obtain ⟨lister, hlists⟩ := h x n hold
      exact ⟨lister, Delegations.lists_grant.mpr (.inl hlists)⟩
  | revoked root delegate _ _ hrevoke =>
    rw [hrevoke] at hx ⊢
    have hne : x ≠ delegate := by
      rintro rfl
      simp [Delegations.revoke] at hx
    have hold : s.delegations.delegateDepth x = some n := by
      simpa [Delegations.revoke, hne] using hx
    obtain ⟨lister, hlists⟩ := h x n hold
    exact ⟨lister, Delegations.lists_revoke.mpr ⟨hlists, fun _ => hne⟩⟩

theorem Delegations.Lists.isDelegate {root x : Address} (h : s.delegations.Lists root x) :
    isDelegate root x s = true := by
  obtain ⟨depth, hmem⟩ := h
  have hspan := Delegations.Spans.hop hmem (.here x)
  exact Delegations.isDelegateInChain_iff.mpr ⟨0, _, by decide, hspan⟩

theorem isDelegate_of_lister {root lister x : Address} (hlists : s.delegations.Lists lister x)
    (hlister : isDelegateInChain s.delegations.delegates (maxDelegationDepth - 1) root lister =
      true) :
    isDelegate root x s = true := by
  obtain ⟨depth, hmem⟩ := hlists
  obtain ⟨i, weight, hlt, hspan⟩ := Delegations.isDelegateInChain_iff.mp hlister
  have hlonger := hspan.trans (.hop hmem (.here x))
  refine Delegations.isDelegateInChain_iff.mpr ⟨i + 1, _, ?_, hlonger⟩
  have hmax : maxDelegationDepth = 5 := rfl
  omega

theorem ActStep.consented (hact : ActStep crypto s act s') (hbacked : s.delegations.Backed)
    (hentitled : GrantsEntitled s act) : Consented s act s' := by
  intro root delegator delegate hcall hnew _
  rcases hentitled root delegator delegate hcall hnew with hroot | hlists | hlisters
  · exact .inl hroot
  · exact .inr hlists.isDelegate
  · by_cases hroot : delegator = root
    · exact .inl hroot
    · rw [ActStep, hcall] at hact
      obtain ⟨-, depth, hdepth, -⟩ := delegateCommitmentAuthority_ok.mp hact
      rw [Delegations.depthBy, if_neg hroot] at hdepth
      obtain ⟨stored, hstored, -⟩ := Option.map_eq_some_iff.mp hdepth
      obtain ⟨lister, hlists⟩ := hbacked delegator stored hstored
      cases hlisters lister hlists with
      | inl hown => exact .inr (hown ▸ hlists).isDelegate
      | inr hchain => exact .inr (isDelegate_of_lister hlists hchain)

/-- Where delegators act only for those whose circle listed them, no list grows without the
consent of its owner or his delegates. -/
theorem delegations_consented
    (hrun : Run (Restrict (ActStep crypto) GrantsEntitled) State.empty tr s) :
    ∀ past a act b, (past, a, act, b) ∈ steps State.empty tr → Consented a act b := by
  have hall := hrun.forall_steps (I := fun _ s => s.delegations.Backed)
    (Q := fun _ a act b => Consented a act b) ?_ ?_
  · exact hall.2
  · intro x n hx
    simp [State.delegations, State.empty] at hx
  · intro past a act b hbacked hact
    exact ⟨hbacked.step hact.1, hact.1.consented hbacked hact.2⟩

end Consent

section Interference

variable {crypto : Crypto} {s s' : State} {act : Act} {calls : List (Act × State)}
  {owner root delegator delegate : Address}

def grantOutcome (env : Env) (root delegator delegate : Address) (s : State) : Option (Option ℕ) :=
  match delegateCommitmentAuthority env root delegator delegate s with
  | .ok (_, s') =>
      some (if delegate ∈ ((s.delegates root).getD []).map DelegationRecord.delegate then none
        else s'.delegateDepth delegate)
  | .error _ => none

def Act.OwnDelegation (owner : Address) (act : Act) : Prop :=
  (∀ a ∈ act.auths, a = owner) ∧
    ((∃ delegator delegate, act.call = .delegateCommitmentAuthority owner delegator delegate) ∨
      ∃ delegate, act.call = .revokeDelegation owner delegate)

def Act.NamesDelegate (delegate : Address) (act : Act) : Prop :=
  (∃ root delegator, act.call = .delegateCommitmentAuthority root delegator delegate) ∨
    ∃ root, act.call = .revokeDelegation root delegate

/-- The list of the root is the same, and so is what a grant of the delegator comes to. -/
def Undisturbed (root delegator delegate : Address) (s s' : State) : Prop :=
  s'.delegates root = s.delegates root ∧
    ∀ env, grantOutcome env root delegator delegate s' = grantOutcome env root delegator delegate s

/-- A grant succeeds for a delegator who authorises it and has a depth to spare. -/
def Delegations.allows (d : Delegations) (env : Env) (root delegator : Address) : Option ℕ :=
  if delegator ∈ env.auths then (d.depthBy root delegator).filter (· < maxDelegationDepth)
  else none

theorem allows_eq_some {d : Delegations} {env : Env} {depth : ℕ} :
    d.allows env root delegator = some depth ↔ delegator ∈ env.auths ∧
      d.depthBy root delegator = some depth ∧ depth < maxDelegationDepth := by
  unfold Delegations.allows
  by_cases hauth : delegator ∈ env.auths <;> simp [hauth, Option.filter_eq_some_iff]

theorem grantOutcome_eq {env : Env} : grantOutcome env root delegator delegate s =
    (s.delegations.allows env root delegator).map fun depth =>
      if delegate ∈ (s.delegations.entries root).map DelegationRecord.delegate then none
      else some depth := by
  cases hallows : s.delegations.allows env root delegator with
  | none =>
    unfold grantOutcome
    cases hexec : delegateCommitmentAuthority env root delegator delegate s with
    | error e => rfl
    | ok p =>
      obtain ⟨hauth, depth, hdepth, hlt, -⟩ := delegateCommitmentAuthority_ok.mp hexec
      have hsome := allows_eq_some.mpr ⟨hauth, hdepth, hlt⟩
      rw [hallows] at hsome
      cases hsome
  | some depth =>
    obtain ⟨hauth, hdepth, hlt⟩ := allows_eq_some.mp hallows
    unfold grantOutcome
    by_cases hold : delegate ∈ (s.delegations.entries root).map DelegationRecord.delegate
    · have hexec : delegateCommitmentAuthority env root delegator delegate s = .ok ((), s) :=
        delegateCommitmentAuthority_ok.mpr
          ⟨hauth, depth, hdepth, hlt, .inr ⟨Delegations.lists_iff.mpr hold, rfl⟩⟩
      have hlisted : delegate ∈ ((s.delegates root).getD []).map DelegationRecord.delegate := hold
      simp only [hexec, hlisted, hold, if_true, Option.map_some]
    · have hexec : delegateCommitmentAuthority env root delegator delegate s =
          .ok ((), s.delegatedTo root delegate depth) :=
        delegateCommitmentAuthority_ok.mpr
          ⟨hauth, depth, hdepth, hlt, .inl ⟨fun h => hold (Delegations.lists_iff.mp h), rfl⟩⟩
      have hnew : delegate ∉ ((s.delegates root).getD []).map DelegationRecord.delegate := hold
      have hrecorded : (s.delegatedTo root delegate depth).delegateDepth delegate = some depth :=
        update_self ..
      simp only [hexec, hnew, hold, if_false, Option.map_some, hrecorded]

theorem undisturbed_of_same (hlist : s'.delegates root = s.delegates root)
    (hdepth : delegator = root ∨ s'.delegateDepth delegator = s.delegateDepth delegator) :
    Undisturbed root delegator delegate s s' := by
  refine ⟨hlist, ?_⟩
  intro env
  have hentries : s'.delegations.entries root = s.delegations.entries root :=
    congrArg (fun entries => entries.getD []) hlist
  have hby : s'.delegations.depthBy root delegator = s.delegations.depthBy root delegator := by
    unfold Delegations.depthBy
    by_cases hroot : delegator = root
    · rw [if_pos hroot, if_pos hroot]
    · rw [if_neg hroot, if_neg hroot]
      exact congrArg (Option.map (· + 1)) (hdepth.resolve_left hroot)
  rw [grantOutcome_eq, grantOutcome_eq, hentries, Delegations.allows, Delegations.allows, hby]

theorem ActStep.own_list (hact : ActStep crypto s act s') (hown : act.OwnDelegation owner)
    (hother : owner ≠ root) : s'.delegates root = s.delegates root := by
  obtain ⟨-, ⟨x, a, hcall⟩ | ⟨a, hcall⟩⟩ := hown
  · rw [ActStep, hcall] at hact
    obtain ⟨-, depth, -, -, ⟨-, rfl⟩ | ⟨-, rfl⟩⟩ := delegateCommitmentAuthority_ok.mp hact
    · exact update_of_ne (Ne.symm hother) _ _
    · rfl
  · rw [ActStep, hcall] at hact
    obtain ⟨-, rfl⟩ := revokeDelegation_ok.mp hact
    exact update_of_ne (Ne.symm hother) _ _

theorem ActStep.own_depth (hact : ActStep crypto s act s') (hown : act.OwnDelegation owner)
    (hnames : ¬ act.NamesDelegate delegator) :
    s'.delegateDepth delegator = s.delegateDepth delegator := by
  obtain ⟨-, ⟨x, a, hcall⟩ | ⟨a, hcall⟩⟩ := hown
  · have hne : delegator ≠ a := by
      rintro rfl
      exact hnames (.inl ⟨owner, x, hcall⟩)
    rw [ActStep, hcall] at hact
    obtain ⟨-, depth, -, -, ⟨-, rfl⟩ | ⟨-, rfl⟩⟩ := delegateCommitmentAuthority_ok.mp hact
    · exact update_of_ne hne _ _
    · rfl
  · have hne : delegator ≠ a := by
      rintro rfl
      exact hnames (.inr ⟨owner, hcall⟩)
    rw [ActStep, hcall] at hact
    obtain ⟨-, rfl⟩ := revokeDelegation_ok.mp hact
    exact update_of_ne hne _ _

def OwnStep (crypto : Crypto) (owner : Address) : State → Act → State → Prop :=
  Restrict (ActStep crypto) fun _ act => act.OwnDelegation owner

theorem own_list_kept (hrun : Run (OwnStep crypto owner) s calls s') (hother : owner ≠ root) :
    s'.delegates root = s.delegates root :=
  hrun.invariant (I := fun t => t.delegates root = s.delegates root) rfl
    fun _ _ _ hsame hstep => (ActStep.own_list hstep.1 hstep.2 hother).trans hsame

theorem own_depth_kept (hrun : Run (OwnStep crypto owner) s calls s')
    (hnames : ∀ p ∈ calls, ¬ p.1.NamesDelegate delegator) :
    s'.delegateDepth delegator = s.delegateDepth delegator := by
  induction hrun with
  | start => rfl
  | next _ hstep ih =>
    have hhead := hnames _ List.mem_cons_self
    have htail := ih fun p hp => hnames p (by simp [hp])
    exact (ActStep.own_depth hstep.1 hstep.2 hhead).trans htail

theorem own_calls_succeed (crypto : Crypto) (s : State) (owner delegator : Address) :
    ∃ k₁ k₂ s₁ s₂, OwnStep crypto owner s k₁ s₁ ∧ OwnStep crypto owner s₁ k₂ s₂ ∧
      s₁.delegateDepth delegator = none ∧ s₂.delegateDepth delegator = some 0 := by
  let revoke : Act := ⟨0, [owner], 0, .revokeDelegation owner delegator⟩
  let grant : Act := ⟨0, [owner], 0, .delegateCommitmentAuthority owner owner delegator⟩
  obtain ⟨s₁, hrevoke⟩ : ∃ s₁, ActStep crypto s revoke s₁ :=
    ⟨_, revokeDelegation_ok.mpr ⟨by simp [revoke, Act.env], rfl⟩⟩
  obtain ⟨-, hs₁⟩ := revokeDelegation_ok.mp hrevoke
  have hnone : s₁.delegateDepth delegator = none := by
    rw [hs₁]
    exact update_self ..
  have hnew : ¬ s₁.delegations.Lists owner delegator := by
    have hdelegations : s₁.delegations = s.delegations.revoke owner delegator := by
      rw [hs₁]
      rfl
    rw [hdelegations, Delegations.lists_revoke]
    exact fun h => h.2 rfl rfl
  have hgrant : ActStep crypto s₁ grant (s₁.delegatedTo owner delegator 0) :=
    delegateCommitmentAuthority_ok.mpr ⟨by simp [grant, Act.env], 0,
      by simp [Delegations.depthBy], by decide, .inl ⟨hnew, rfl⟩⟩
  refine ⟨revoke, grant, s₁, _, ⟨hrevoke, ?_⟩, ⟨hgrant, ?_⟩, hnone, update_self ..⟩
  · exact ⟨by simp [revoke], .inr ⟨delegator, rfl⟩⟩
  · exact ⟨by simp [grant], .inl ⟨owner, delegator, rfl⟩⟩

/-- What one owner does for himself disturbs another owner's delegator only where it names the
delegator, and there it can, unless the delegator is that owner himself. -/
theorem own_delegations_disturb (crypto : Crypto) (s : State) {owner root : Address}
    (delegator delegate : Address) (hroot : owner ≠ root) :
    (∀ calls s', Run (OwnStep crypto owner) s calls s' →
      (∀ p ∈ calls, ¬ p.1.NamesDelegate delegator) → Undisturbed root delegator delegate s s') ∧
    ((∀ calls s', Run (OwnStep crypto owner) s calls s' →
      Undisturbed root delegator delegate s s') ↔ delegator = root) := by
  refine ⟨?_, ?_, ?_⟩
  · intro calls s' hrun hnames
    exact undisturbed_of_same (own_list_kept hrun hroot) (.inr (own_depth_kept hrun hnames))
  · intro hall
    by_contra hne
    obtain ⟨k₁, k₂, s₁, s₂, hrevoke, hgrant, hnone, hzero⟩ :=
      own_calls_succeed crypto s owner delegator
    have hrun₁ : Run (OwnStep crypto owner) s [(k₁, s₁)] s₁ := Run.start.next hrevoke
    let env : Env := ⟨crypto, 0, [delegator], 0⟩
    have hfails : grantOutcome env root delegator delegate s₁ = none := by
      have hby : s₁.delegations.depthBy root delegator = none := by
        rw [Delegations.depthBy, if_neg hne]
        exact congrArg (Option.map (· + 1)) hnone
      simp [grantOutcome_eq, Delegations.allows, hby]
    have hsucceeds : grantOutcome env root delegator delegate s₂ ≠ none := by
      have hby : s₂.delegations.depthBy root delegator = some 1 := by
        rw [Delegations.depthBy, if_neg hne]
        exact congrArg (Option.map (· + 1)) hzero
      have hallows : s₂.delegations.allows env root delegator = some 1 :=
        allows_eq_some.mpr ⟨by simp [env], hby, by decide⟩
      simp [grantOutcome_eq, hallows]
    have hsame₁ := (hall _ _ hrun₁).2 env
    have hsame₂ := (hall _ _ (hrun₁.next hgrant)).2 env
    rw [hsame₂, ← hsame₁] at hsucceeds
    exact hsucceeds hfails
  · intro hself calls s' hrun
    exact undisturbed_of_same (own_list_kept hrun hroot) (.inl hself)

end Interference

section Circles

open Scenario

def helper : Address := .account 3

def partner : Address := .account 4

theorem helper_consented : ∃ (a b : State) (act : Act), a.delegations.Lists inventor helper ∧
    act.call = .delegateCommitmentAuthority inventor helper partner ∧ Consented a act b := by
  have hplayed : endsIn perform
      [act 5 inventor (.delegateCommitmentAuthority inventor inventor helper)] State.empty
      (fun a => decide (helper ∈ (a.delegations.entries inventor).map DelegationRecord.delegate) &&
        endsIn perform [act 6 helper (.delegateCommitmentAuthority inventor helper partner)] a
          fun _ => true) = true := by decide
  obtain ⟨a, hfirst, hseen⟩ := endsIn_one hplayed
  simp only [Bool.and_eq_true, decide_eq_true_eq] at hseen
  obtain ⟨hmem, hlater⟩ := hseen
  obtain ⟨b, hsecond, -⟩ := endsIn_one hlater
  have hlists := Delegations.lists_iff.mpr hmem
  have hrun₁ : Run (Restrict (ActStep crypto) GrantsEntitled) State.empty
      [(act 5 inventor (.delegateCommitmentAuthority inventor inventor helper), a)] a := by
    refine Run.start.next ⟨hfirst, ?_⟩
    rintro _ _ _ ⟨⟩ -
    exact .inl rfl
  have hrun₂ := hrun₁.next
    (k := act 6 helper (.delegateCommitmentAuthority inventor helper partner)) ⟨hsecond, by
      rintro _ _ _ ⟨⟩ -
      exact .inr (.inl hlists)⟩
  exact ⟨a, b, _, hlists, rfl, delegations_consented hrun₂ _ _ _ _ hrun₁.mem_steps_last⟩

/-- The rival's delegate enters somebody into the inventor's list. -/
theorem stranger_delegates : ∃ tr s past a act b, Run (ActStep crypto) State.empty tr s ∧
    (past, a, act, b) ∈ steps State.empty tr ∧ ¬ Consented a act b := by
  obtain ⟨tr, a, hrun, -, hseen⟩ := played State.empty
    [act 5 rival (.delegateCommitmentAuthority rival rival helper)]
    (fun a => decide (isDelegate inventor helper a = false ∧
        partner ∉ (a.delegations.entries inventor).map DelegationRecord.delegate) &&
      endsIn perform [act 6 helper (.delegateCommitmentAuthority inventor helper partner)] a
        fun b => partner ∈ (b.delegations.entries inventor).map DelegationRecord.delegate)
    (by decide)
  simp only [Bool.and_eq_true, decide_eq_true_eq] at hseen
  obtain ⟨⟨hforeign, hunlisted⟩, hlater⟩ := hseen
  obtain ⟨b, hexec, hentered⟩ := endsIn_one hlater
  have hnext := hrun.next (k := act 6 helper (.delegateCommitmentAuthority inventor helper partner))
    hexec
  refine ⟨_, b, tr, a, _, b, hnext, hrun.mem_steps_last, ?_⟩
  intro hconsented
  have hmem : partner ∈ (b.delegations.entries inventor).map DelegationRecord.delegate := by
    simpa using hentered
  have hrights := hconsented inventor helper partner rfl
    (fun h => hunlisted (Delegations.lists_iff.mp h)) (Delegations.lists_iff.mpr hmem)
  cases hrights with
  | inl hself => exact absurd hself (by decide)
  | inr hdelegate => simp [hforeign] at hdelegate

def helperGrants (s : State) : Option (Option ℕ) :=
  grantOutcome ⟨crypto, 9, [helper], 10⟩ rival helper partner s

/-- What the inventor does for himself while the rival's delegate has one in turn. -/
def inventorsOwn : List Act :=
  [act 7 inventor (.delegateCommitmentAuthority inventor inventor partner),
    act 8 inventor (.revokeDelegation inventor (.account 5))]

/-- The inventor changes his own list, and the depth stored for two others. -/
theorem helper_undisturbed : ∃ a b : State, helperGrants a = some (some 1) ∧
    isDelegate rival (.account 5) a = true ∧ isDelegate inventor partner b = true ∧
      Undisturbed rival helper partner a b := by
  obtain ⟨tr, a, hrun, -, hseen⟩ := played State.empty
    [act 5 rival (.delegateCommitmentAuthority rival rival helper),
      act 6 helper (.delegateCommitmentAuthority rival helper (.account 5))]
    (fun a => decide (helperGrants a = some (some 1) ∧ isDelegate rival (.account 5) a = true) &&
      endsIn perform inventorsOwn a fun b => isDelegate inventor partner b) (by decide)
  simp only [Bool.and_eq_true, decide_eq_true_eq] at hseen
  obtain ⟨⟨hgrants, hchained⟩, hlater⟩ := hseen
  have hown : ∀ s k s', k ∈ inventorsOwn → perform k s = .ok ((), s') →
      OwnStep crypto inventor s k s' := by
    intro s k s' hmem hexec
    simp only [inventorsOwn, List.mem_cons, List.not_mem_nil, or_false] at hmem
    rcases hmem with rfl | rfl
    · exact ⟨hexec, by simp [act], .inl ⟨inventor, partner, rfl⟩⟩
    · exact ⟨hexec, by simp [act], .inr ⟨.account 5, rfl⟩⟩
  obtain ⟨calls, b, hcalls, hlabels, hdelegate⟩ := endsIn_run hlater hown
  have hundisturbed := (own_delegations_disturb crypto a helper partner
    (by decide : inventor ≠ rival)).1 calls b hcalls ?_
  · exact ⟨a, b, hgrants, hchained, hdelegate, hundisturbed⟩
  · intro p hp
    have hmem : p.1 ∈ inventorsOwn.reverse := hlabels ▸ List.mem_map_of_mem hp
    simp only [inventorsOwn, List.reverse_cons, List.reverse_nil, List.nil_append,
      List.cons_append, List.mem_cons, List.not_mem_nil, or_false] at hmem
    rcases hmem with h | h <;> simp [h, Act.NamesDelegate, act, helper, partner]

theorem helper_disturbed : ∃ tr a calls b, Run (ActStep crypto) State.empty tr a ∧
    inventor ≠ rival ∧ inventor ≠ helper ∧ isDelegate rival inventor a = false ∧
    Run (OwnStep crypto inventor) a calls b ∧ ¬ Undisturbed rival helper partner a b := by
  obtain ⟨tr, a, hrun, -, hseen⟩ := played State.empty
    [act 5 rival (.delegateCommitmentAuthority rival rival helper)]
    (fun a => decide (isDelegate rival inventor a = false ∧ helperGrants a = some (some 1)) &&
      endsIn perform [act 6 inventor (.revokeDelegation inventor helper)] a
        fun b => helperGrants b = none)
    (by decide)
  simp only [Bool.and_eq_true, decide_eq_true_eq] at hseen
  obtain ⟨⟨hforeign, hgrants⟩, hlater⟩ := hseen
  obtain ⟨b, hexec, hfails⟩ := endsIn_one hlater
  have hown : OwnStep crypto inventor a (act 6 inventor (.revokeDelegation inventor helper)) b :=
    ⟨hexec, by simp [act], .inr ⟨helper, rfl⟩⟩
  refine ⟨tr, a, _, b, hrun, by decide, by decide, hforeign, Run.start.next hown, ?_⟩
  intro hundisturbed
  have hsame := hundisturbed.2 ⟨crypto, 9, [helper], 10⟩
  have hnone : helperGrants b = none := by simpa using hfails
  rw [helperGrants] at hnone hgrants
  rw [hnone, hgrants] at hsame
  cases hsame

end Circles

end AtomicIp.IpRegistry
