import AtomicIp.Registry.Membership
import AtomicIp.Registry.Records

/-!
Looking up the IP with a commitment, and merging two IPs with the same one. The lookup goes
through the list of the owner, where anonymous commitments do not stand; a merge never finds two
IPs, as no two have the same commitment.
-/

set_option autoImplicit false

namespace AtomicIp.IpRegistry

open Function Relation Tx

/-- From the commitment to its owner, and through the list of the owner's IPs. -/
def findDuplicateCommitment (commitmentHash : BytesN 32) (s : State) : Option ℕ :=
  (s.commitmentOwner commitmentHash).bind fun owner =>
    (listIpByOwner owner s).find? fun ipId =>
      (s.ipRecord ipId).any fun record => record.commitmentHash = commitmentHash

namespace Titles

variable {t t' : Titles} {i j : ℕ} {owner newOwner : Address}

def Backed (t : Titles) : Prop :=
  ∀ owner i, i ∈ listed t.ownerIps owner → (t.ownerOf i).isSome = true

def Unlisted (t : Titles) (i : ℕ) : Prop := ∀ owner, i ∉ listed t.ownerIps owner

theorem mem_of_filed {index : Address → Option (List ℕ)}
    (h : i ∈ listed (filed index newOwner j) owner) : i ∈ listed index owner ∨ i = j := by
  by_cases howner : owner = newOwner
  · subst howner
    rw [listed_filed_self, List.mem_append, List.mem_singleton] at h
    exact h
  · rw [listed_filed_of_ne howner] at h
    exact .inl h

theorem mem_of_unfiled {index : Address → Option (List ℕ)}
    (h : i ∈ listed (unfiled index newOwner j) owner) : i ∈ listed index owner := by
  by_cases howner : owner = newOwner
  · subst howner
    rw [listed_unfiled_self] at h
    exact List.mem_of_mem_erase h
  · rwa [listed_unfiled_of_ne howner] at h

theorem Backed.entitled (h : t.Backed) (hmem : i ∈ listed t.ownerIps owner) :
    (update t.ownerOf j (some newOwner) i).isSome = true := by
  by_cases hi : i = j
  · rw [hi, update_self, Option.isSome_some]
  · rw [update_of_ne hi]
    exact h owner i hmem

theorem Backed.step (h : t.Backed) (hstep : Step t t') : t'.Backed := by
  intro owner i hmem
  cases hstep with
  | granted newOwner =>
    rcases mem_of_filed hmem with hold | rfl
    · exact h.entitled hold
    · exact Option.isSome_iff_exists.mpr ⟨newOwner, update_self ..⟩
  | unlisted => exact h.entitled hmem
  | passed j former newOwner hformer =>
    rcases mem_of_filed hmem with hold | rfl
    · exact h.entitled (mem_of_unfiled hold)
    · exact Option.isSome_iff_exists.mpr ⟨newOwner, update_self ..⟩

theorem Backed.steps (h : t.Backed) (hsteps : ReflTransGen Step t t') : t'.Backed := by
  induction hsteps with
  | refl => exact h
  | tail _ hstep ih => exact ih.step hstep

theorem Unlisted.pass (h : t.Unlisted i) (hne : i ≠ j) : (t.pass j owner newOwner).Unlisted i := by
  intro other hmem
  have hold := mem_of_unfiled ((mem_of_filed hmem).resolve_right hne)
  exact h other hold

theorem Unlisted.grants (h : t.Unlisted i) (hlt : i < t.count) (hsteps : ReflTransGen Grants t t') :
    t'.Unlisted i := by
  have hboth : i < t'.count ∧ t'.Unlisted i := by
    induction hsteps with
    | refl => exact ⟨hlt, h⟩
    | tail _ hstep ih =>
      obtain ⟨hlt, hun⟩ := ih
      cases hstep with
      | granted newOwner =>
        refine ⟨Nat.lt_succ_of_lt hlt, ?_⟩
        intro owner hmem
        have hold := (mem_of_filed hmem).resolve_right (Nat.ne_of_lt hlt)
        exact hun owner hold
  exact hboth.2

end Titles

section Lookup

variable {crypto : Crypto} {tr : List (Act × State)} {s s' : State} {act : Act} {ipId : ℕ}
  {r : IpRecord} {hash : BytesN 32}

theorem run_backed (hrun : Run (ActStep crypto) State.empty tr s) : s.titles.Backed :=
  hrun.invariant (I := fun s => s.titles.Backed)
    (fun owner i hmem => by simp [listed, State.titles, State.empty] at hmem)
    fun _ _ _ h hact => h.steps (exec_titles hact)

theorem ActStep.anonymous_lists (hact : ActStep crypto s act s')
    (hanonymous : act.call.anonymous = true) : s'.ownerIps = s.ownerIps := by
  have hexec : exec (act.env crypto) act.call s = .ok ((), s') := hact
  cases hcall : act.call with
  | batchCommitIpAnonymous =>
    rw [hcall] at hexec
    refine exec_frame State.ownerIps hexec fun t ht => blind_ownerIps ?_
    rintro rfl
    simp [Call.writes] at ht
  | _ => simp [hcall, Call.anonymous] at hanonymous

theorem ActStep.unlisted (hact : ActStep crypto s act s') (hexact : s.titles.Exact)
    (hr : s.ipRecord ipId = some r) (hover : act.call.handsOver ipId = false)
    (h : s.titles.Unlisted ipId) : s'.titles.Unlisted ipId := by
  have hexec : exec (act.env crypto) act.call s = .ok ((), s') := hact
  cases hanonymous : act.call.anonymous with
  | true =>
    have hlists : s'.titles.ownerIps = s.titles.ownerIps := hact.anonymous_lists hanonymous
    intro owner
    rw [hlists]
    exact h owner
  | false =>
    cases htransfers : act.call.transfers with
    | false =>
      have howner : s.titles.ownerOf ipId = some r.owner := by
        change (s.ipRecord ipId).map IpRecord.owner = _
        rw [hr]
        rfl
      exact h.grants (hexact.below _ _ howner) (exec_grants hexec hanonymous htransfers)
    | true =>
      cases hcall : act.call with
      | transferIp id newOwner | transferIpOwnership id newOwner =>
        rw [hcall] at hexec hover
        have hne : ipId ≠ id := by
          rintro rfl
          simp [Call.handsOver] at hover
        obtain ⟨owner, -, hpass⟩ := transferIp_passes hexec
        rw [hpass]
        exact h.pass hne
      | _ => simp [hcall, Call.transfers] at htransfers

/-- An anonymous commitment that was not handed over stands in no list. -/
theorem Anonymous.unlisted (hrun : Run (ActStep crypto) State.empty tr s) (h : Anonymous ipId tr) :
    s.titles.Unlisted ipId := by
  induction hrun with
  | start => exact h.elim
  | @next tr s s' act hrun hact ih =>
    rw [Anonymous, hrun.now_eq] at h
    cases hr : s.ipRecord ipId with
    | none =>
      have hanonymous : act.call.anonymous = true := by simpa [hr] using h
      have hlists : s'.titles.ownerIps = s.titles.ownerIps := hact.anonymous_lists hanonymous
      intro owner hmem
      rw [hlists] at hmem
      have hsome : ((s.ipRecord ipId).map IpRecord.owner).isSome = true :=
        run_backed hrun owner ipId hmem
      simp [hr] at hsome
    | some r =>
      have hkept : act.call.handsOver ipId = false ∧ Anonymous ipId tr := by simpa [hr] using h
      exact hact.unlisted (run_titles hrun) hr hkept.1 (ih hkept.2)

/-- The lookup finds the IP with the commitment, and nothing just when the commitment could be
registered. -/
def LookupAgrees (commitmentHash : BytesN 32) (s : State) : Prop :=
  (∀ ipId, findDuplicateCommitment commitmentHash s = some ipId ↔
    ∃ r, s.ipRecord ipId = some r ∧ r.commitmentHash = commitmentHash) ∧
  (findDuplicateCommitment commitmentHash s = none ↔
    ∃ s', requireUniqueCommitment commitmentHash s = .ok ((), s'))

theorem findDuplicateCommitment_sound (h : findDuplicateCommitment hash s = some ipId) :
    ∃ owner r, s.commitmentOwner hash = some owner ∧ ipId ∈ listIpByOwner owner s ∧
      s.ipRecord ipId = some r ∧ r.commitmentHash = hash := by
  obtain ⟨owner, howner, hfind⟩ := Option.bind_eq_some_iff.mp h
  have hmem := List.mem_of_find?_eq_some hfind
  have hmatch := List.find?_some hfind
  obtain ⟨r, hr, hhash⟩ := (Option.any_eq_true _ _).mp hmatch
  exact ⟨owner, r, howner, hmem, hr, of_decide_eq_true hhash⟩

theorem findDuplicateCommitment_listed (hwf : s.ledger.Wf) (hr : s.ipRecord ipId = some r)
    (hlisted : ipId ∈ listIpByOwner r.owner s) :
    findDuplicateCommitment r.commitmentHash s = some ipId := by
  have howner : s.commitmentOwner r.commitmentHash = some r.owner :=
    (hwf.index _ _).mpr ⟨ipId, r, hr, rfl, rfl⟩
  cases hfind : findDuplicateCommitment r.commitmentHash s with
  | none =>
    rw [findDuplicateCommitment, howner, Option.bind_some, List.find?_eq_none] at hfind
    exact absurd (by simp [hr]) (hfind ipId hlisted)
  | some found =>
    obtain ⟨owner, r', -, -, hr', hhash⟩ := findDuplicateCommitment_sound hfind
    rw [hwf.unique found ipId r' r hr' hr hhash]

theorem requireUniqueCommitment_runs :
    (∃ s', requireUniqueCommitment hash s = .ok ((), s')) ↔ s.commitmentOwner hash = none := by
  simp [requireUniqueCommitment]

/-- The lookup agrees with what is registered but for anonymous commitments, which it never
finds before they are handed over. -/
theorem lookup_agrees_iff (hrun : Run (ActStep crypto) State.empty tr s) :
    LookupAgrees hash s ↔ ∀ ipId r, s.ipRecord ipId = some r → r.commitmentHash = hash →
      ¬ Anonymous ipId tr := by
  have hwf := run_wf hrun
  constructor
  · intro hagrees ipId r hr hhash hanonymous
    have hfind := (hagrees.1 ipId).mpr ⟨r, hr, hhash⟩
    obtain ⟨owner, r', -, hmem, -⟩ := findDuplicateCommitment_sound hfind
    exact hanonymous.unlisted hrun owner hmem
  · intro hnamed
    have hfinds : ∀ ipId r, s.ipRecord ipId = some r → r.commitmentHash = hash →
        findDuplicateCommitment hash s = some ipId := by
      intro ipId r hr hhash
      subst hhash
      exact findDuplicateCommitment_listed hwf hr
        (listed_or_anonymous hrun hr (hnamed ipId r hr rfl))
    refine ⟨?_, ?_⟩
    · intro ipId
      constructor
      · intro hfind
        obtain ⟨owner, r, -, -, hr, hhash⟩ := findDuplicateCommitment_sound hfind
        exact ⟨r, hr, hhash⟩
      · intro h
        obtain ⟨r, hr, hhash⟩ := h
        exact hfinds ipId r hr hhash
    · rw [requireUniqueCommitment_runs]
      constructor
      · intro hfind
        cases howner : s.commitmentOwner hash with
        | none => rfl
        | some owner =>
          obtain ⟨ipId, r, hr, hhash, -⟩ := (hwf.index hash owner).mp howner
          rw [hfinds ipId r hr hhash] at hfind
          cases hfind
      · intro hfree
        rw [findDuplicateCommitment, hfree, Option.bind_none]

end Lookup

section Drawings

open Scenario

/-- A design committed, sold and then replaced by its buyer is not found any more; the one that
replaced it is. -/
theorem design_found : ∃ tr s, Run (ActStep crypto) State.empty tr s ∧
    LookupAgrees design s ∧ findDuplicateCommitment design s = none ∧
    LookupAgrees laterDesign s ∧ findDuplicateCommitment laterDesign s = some 1 := by
  obtain ⟨tr, s, hrun, hacts, hseen⟩ := played State.empty
    [act 5 inventor (.commitIp inventor design 0), act 6 inventor (.transferIp 1 rival),
      act 7 rival (.rotateCommitmentKey 1 laterDesign secret secret)]
    (fun s => findDuplicateCommitment design s = none &&
      findDuplicateCommitment laterDesign s = some 1) (by decide +kernel)
  simp only [Bool.and_eq_true, decide_eq_true_eq] at hseen
  have hagrees : ∀ hash, LookupAgrees hash s := by
    intro hash
    refine (lookup_agrees_iff hrun).mpr ?_
    intro ipId r _ _ hanonymous
    obtain ⟨a, hmem, hcall⟩ := hanonymous.called
    rw [hacts] at hmem
    revert hcall
    revert a
    decide
  exact ⟨tr, s, hrun, hagrees design, hseen.1, hagrees laterDesign, hseen.2⟩

/-- An anonymous commitment cannot be repeated, and is not found. -/
theorem anonymous_design_unfound : ∃ tr s, Run (ActStep crypto) State.empty tr s ∧
    (∃ r, s.ipRecord 1 = some r ∧ r.commitmentHash = design) ∧
    findDuplicateCommitment design s = none ∧ ¬ LookupAgrees design s := by
  obtain ⟨tr, s, hrun, -, hseen⟩ := played State.empty
    [act 5 rival (.batchCommitIpAnonymous secret [design])]
    (fun s => decide (s.ipRecord 1 = some (newRecord 1 currentContractAddress design 5 none) ∧
      findDuplicateCommitment design s = none)) (by decide)
  obtain ⟨hr, hnone⟩ := of_decide_eq_true hseen
  refine ⟨tr, s, hrun, ⟨_, hr, rfl⟩, hnone, ?_⟩
  intro hagrees
  have hfound := (hagrees.1 1).mpr ⟨_, hr, rfl⟩
  rw [hnone] at hfound
  cases hfound

end Drawings

section Merges

variable {crypto : Crypto} {env : Env} {tr : List (Act × State)} {s s' : State} {u : Unit}
  {primaryIpId duplicateIpId : ℕ} {r : IpRecord}

/-- The primary stays as good as it was, the duplicate is revoked and its owner has a part in
the primary. -/
def KeepsPrimary (primaryIpId duplicateIpId : ℕ) (s s' : State) : Prop :=
  ∃ primary primary' duplicate duplicate',
    s.ipRecord primaryIpId = some primary ∧ s'.ipRecord primaryIpId = some primary' ∧
    s.ipRecord duplicateIpId = some duplicate ∧ s'.ipRecord duplicateIpId = some duplicate' ∧
    primary'.revoked = primary.revoked ∧ duplicate'.revoked = true ∧
    (duplicate.owner = primary'.owner ∨ duplicate.owner ∈ primary'.coOwners) ∧
    ∀ i, i ≠ primaryIpId → i ≠ duplicateIpId → s'.ipRecord i = s.ipRecord i

theorem mergeDuplicateCommitment_self (hwf : s.ledger.Wf)
    (h : mergeDuplicateCommitment env primaryIpId duplicateIpId s = .ok (u, s')) :
    duplicateIpId = primaryIpId ∧ ∃ r, s.ipRecord primaryIpId = some r ∧ r.owner ∈ env.auths ∧
      s'.ipRecord = update s.ipRecord primaryIpId (some r.revoke) := by
  simp [mergeDuplicateCommitment, adoptCoOwner] at h
  obtain ⟨primary, hprimary, hauth, duplicate, hduplicate, hhash, s₁, hadopt, s₂, haudit, s₃,
    haudit', rfl⟩ := h
  obtain rfl := hwf.unique _ _ _ _ hprimary hduplicate hhash
  obtain rfl := Option.some.inj (hprimary.symm.trans hduplicate)
  rcases hadopt with ⟨⟨-, howner⟩, -⟩ | ⟨-, rfl⟩
  · exact absurd rfl howner
  · refine ⟨rfl, primary, hprimary, hauth, ?_⟩
    have hledger := (appendAuditEntry_ledger haudit').trans (appendAuditEntry_ledger haudit)
    exact congrArg Ledger.ipRecord hledger

theorem mergeDuplicateCommitment_runs (hr : s.ipRecord primaryIpId = some r)
    (hauth : r.owner ∈ env.auths) :
    ∃ s', mergeDuplicateCommitment env primaryIpId primaryIpId s = .ok ((), s') := by
  rw [State.ipRecord_ledger] at hr
  simp [mergeDuplicateCommitment, adoptCoOwner, hr, hauth]
  exact ⟨_, rfl, _, rfl⟩

/-- A merge that its owner has authorised goes wrong for a live IP merged with itself, and for
nothing else. -/
theorem merge_keeps_primary_iff (hrun : Run (ActStep crypto) State.empty tr s) :
    (∀ s', mergeDuplicateCommitment env primaryIpId duplicateIpId s = .ok ((), s') →
      KeepsPrimary primaryIpId duplicateIpId s s') ↔
      ¬ (duplicateIpId = primaryIpId ∧ ∃ r, s.ipRecord primaryIpId = some r ∧
        r.owner ∈ env.auths ∧ r.revoked = false) := by
  have hwf := run_wf hrun
  constructor
  · intro hkeeps h
    obtain ⟨rfl, r, hr, hauth, hlive⟩ := h
    obtain ⟨s', hmerge⟩ := mergeDuplicateCommitment_runs hr hauth
    obtain ⟨primary, primary', duplicate, duplicate', hprimary, hprimary', -, hduplicate', hsame,
      hrevoked, -⟩ := hkeeps s' hmerge
    obtain rfl := Option.some.inj (hr.symm.trans hprimary)
    obtain rfl := Option.some.inj (hprimary'.symm.trans hduplicate')
    rw [hsame, hlive] at hrevoked
    cases hrevoked
  · intro hother s' hmerge
    obtain ⟨rfl, r, hr, hauth, hrecords⟩ := mergeDuplicateCommitment_self hwf hmerge
    have hrevoked : r.revoked = true := by
      by_contra hlive
      exact hother ⟨rfl, r, hr, hauth, by simpa using hlive⟩
    have hr' : s'.ipRecord duplicateIpId = some r.revoke := by rw [hrecords, update_self]
    refine ⟨r, r.revoke, r, r.revoke, hr, hr', hr, hr', hrevoked.symm, rfl, .inl rfl, ?_⟩
    intro i hi _
    rw [hrecords, update_of_ne hi]

end Merges

section SelfMerges

open Scenario

theorem revoked_design_merged : ∃ tr s s', Run (ActStep crypto) State.empty tr s ∧
    mergeDuplicateCommitment ⟨crypto, 7, [inventor], 10⟩ 1 1 s = .ok ((), s') ∧
    KeepsPrimary 1 1 s s' := by
  obtain ⟨tr, s, hrun, -, hseen⟩ := played State.empty
    [act 5 inventor (.commitIp inventor design 0), act 6 inventor (.revokeIp 1)]
    (fun s => s.ipRecord 1 = some (newRecord 1 inventor design 5 none).revoke) (by decide)
  have hr := of_decide_eq_true hseen
  have henv : (newRecord 1 inventor design 5 none).revoke.owner ∈
      (⟨crypto, 7, [inventor], 10⟩ : Env).auths := List.mem_cons_self
  obtain ⟨s', hmerge⟩ := mergeDuplicateCommitment_runs hr henv
  refine ⟨tr, s, s', hrun, hmerge, (merge_keeps_primary_iff hrun).mpr ?_ s' hmerge⟩
  intro h
  obtain ⟨-, r, hr', -, hlive⟩ := h
  obtain rfl := Option.some.inj (hr.symm.trans hr')
  cases hlive

/-- The inventor merges his design with itself, and has revoked it. -/
theorem live_design_revoked : ∃ tr s s', Run (ActStep crypto) State.empty tr s ∧
    mergeDuplicateCommitment ⟨crypto, 6, [inventor], 10⟩ 1 1 s = .ok ((), s') ∧
    (∃ r r', s.ipRecord 1 = some r ∧ s'.ipRecord 1 = some r' ∧ r.revoked = false ∧
      r'.revoked = true) ∧ ¬ KeepsPrimary 1 1 s s' := by
  obtain ⟨tr, s, hrun, -, hseen⟩ := played State.empty
    [act 5 inventor (.commitIp inventor design 0)]
    (fun s => s.ipRecord 1 = some (newRecord 1 inventor design 5 none)) (by decide)
  have hr := of_decide_eq_true hseen
  have henv : (newRecord 1 inventor design 5 none).owner ∈
      (⟨crypto, 6, [inventor], 10⟩ : Env).auths := List.mem_cons_self
  obtain ⟨s', hmerge⟩ := mergeDuplicateCommitment_runs hr henv
  have hwf := run_wf hrun
  obtain ⟨-, r, hr', -, hrecords⟩ := mergeDuplicateCommitment_self hwf hmerge
  obtain rfl := Option.some.inj (hr.symm.trans hr')
  have hrevoked : s'.ipRecord 1 = some (newRecord 1 inventor design 5 none).revoke := by
    rw [hrecords, update_self]
  refine ⟨tr, s, s', hrun, hmerge, ⟨_, _, hr, hrevoked, rfl, rfl⟩, ?_⟩
  intro hkeeps
  obtain ⟨primary, primary', duplicate, duplicate', hprimary, hprimary', -, -, hsame, -⟩ := hkeeps
  obtain rfl := Option.some.inj (hr.symm.trans hprimary)
  obtain rfl := Option.some.inj (hrevoked.symm.trans hprimary')
  cases hsame

end SelfMerges

end AtomicIp.IpRegistry
