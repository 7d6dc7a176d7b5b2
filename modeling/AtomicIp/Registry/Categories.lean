import AtomicIp.Registry.Records
import AtomicIp.Registry.Tables

set_option autoImplicit false

namespace AtomicIp.IpRegistry

open Function Tx

def listIpByCategory (owner : Address) (categoryHash : BytesN 32) (s : State) : List ℕ :=
  (s.hierarchyNode (owner, categoryHash)).getD []

def listOwnerCategories (owner : Address) (s : State) : List (BytesN 32) :=
  (s.ownerCategories owner).getD []

def withNew {α : Type} [DecidableEq α] (xs : List α) (a : α) : List α :=
  if a ∈ xs then xs else xs ++ [a]

structure Categories where
  node : Address × BytesN 32 → List ℕ
  ofOwner : Address → List (BytesN 32)

def State.categories (s : State) : Categories where
  node key := (s.hierarchyNode key).getD []
  ofOwner owner := (s.ownerCategories owner).getD []

namespace Categories

variable (c : Categories)

def setNode (key : Address × BytesN 32) (ids : List ℕ) : Categories :=
  { c with node := update c.node key ids }

def setOfOwner (owner : Address) (categories : List (BytesN 32)) : Categories :=
  { c with ofOwner := update c.ofOwner owner categories }

def tracking (owner : Address) (categoryHash : BytesN 32) : List (BytesN 32) :=
  withNew (c.ofOwner owner) categoryHash

def assign (owner : Address) (categoryHash : BytesN 32) (ipId : ℕ) : Categories :=
  (c.setNode (owner, categoryHash) (c.node (owner, categoryHash) ++ [ipId])).setOfOwner owner
    (c.tracking owner categoryHash)

variable {c} {owner : Address} {categoryHash category : BytesN 32}

theorem mem_tracking_self : categoryHash ∈ c.tracking owner categoryHash := by
  rw [tracking, withNew]
  split_ifs with h
  · exact h
  · simp

theorem mem_tracking (h : category ∈ c.ofOwner owner) :
    category ∈ c.tracking owner categoryHash := by
  rw [tracking, withNew]
  split_ifs
  · exact h
  · exact List.mem_append_left _ h

end Categories

theorem categories_setHierarchyNode (s : State) (key : Address × BytesN 32) (ids : List ℕ) :
    (s.setHierarchyNode key (some ids)).categories = s.categories.setNode key ids := by
  have hnode : (fun other => (update s.hierarchyNode key (some ids) other).getD []) =
      update (fun other => (s.hierarchyNode other).getD []) key ids := by
    funext other
    by_cases hother : other = key
    · subst hother
      simp
    · simp [hother]
  exact congrArg (fun node => Categories.mk node _) hnode

theorem categories_setOwnerCategories (s : State) (owner : Address)
    (categories : List (BytesN 32)) :
    (s.setOwnerCategories owner (some categories)).categories =
      s.categories.setOfOwner owner categories := by
  have hofOwner : (fun other => (update s.ownerCategories owner (some categories) other).getD []) =
      update (fun other => (s.ownerCategories other).getD []) owner categories := by
    funext other
    by_cases hother : other = owner
    · subst hother
      simp
    · simp [hother]
  exact congrArg (Categories.mk _) hofOwner

/-- The lists of the categories have no IP twice, only IPs of their owner, and their owner is
listed with the category. -/
structure OwnCategories (s : State) : Prop where
  nodup : ∀ owner category, (listIpByCategory owner category s).Nodup
  owned : ∀ owner category ipId, ipId ∈ listIpByCategory owner category s →
    ∃ r, s.ipRecord ipId = some r ∧ r.owner = owner
  tracked : ∀ owner category, listIpByCategory owner category s ≠ [] →
    category ∈ listOwnerCategories owner s

/-- No IP in a category of its owner is handed over to somebody else. -/
def KeepsCategories (s : State) (act : Act) : Prop :=
  ∀ ipId newOwner r, act.call.Transfers ipId newOwner → s.ipRecord ipId = some r →
    newOwner ≠ r.owner → ∀ category, ipId ∉ listIpByCategory r.owner category s

section Steps

variable {crypto : Crypto} {env : Env} {s s' : State} {act : Act} {u : Unit} {ipId : ℕ}
  {categoryHash : BytesN 32} {tr : List (Act × State)} {owner : Address} {r : IpRecord}

theorem assignIpToCategory_categories
    (h : assignIpToCategory env ipId categoryHash s = .ok (u, s')) :
    ∃ r, s.ipRecord ipId = some r ∧ s'.ledger = s.ledger ∧
      (ipId ∈ s.categories.node (r.owner, categoryHash) ∧ s'.categories = s.categories ∨
        ipId ∉ s.categories.node (r.owner, categoryHash) ∧
          s'.categories = s.categories.assign r.owner categoryHash ipId) := by
  have hledger := assignIpToCategory_ledger h
  simp [assignIpToCategory] at h
  obtain ⟨r, hr, hauth, ⟨hnew, s₁, hcategories, rfl⟩ | ⟨hold, rfl⟩⟩ := h
  · refine ⟨r, hr, hledger, .inr ⟨hnew, ?_⟩⟩
    have hstored := categories_setHierarchyNode s (r.owner, categoryHash)
      (s.categories.node (r.owner, categoryHash) ++ [ipId])
    rcases hcategories with ⟨hfresh, rfl⟩ | ⟨hlisted, rfl⟩
    · have hfresh' : categoryHash ∉ s.categories.ofOwner r.owner := hfresh
      rw [Categories.assign, Categories.tracking, withNew, if_neg hfresh', ← hstored]
      exact categories_setOwnerCategories (s.setHierarchyNode (r.owner, categoryHash)
        (some (s.categories.node (r.owner, categoryHash) ++ [ipId]))) r.owner
          (s.categories.ofOwner r.owner ++ [categoryHash])
    · have hlisted' : categoryHash ∈ s.categories.ofOwner r.owner := hlisted
      rw [Categories.assign, Categories.tracking, withNew, if_pos hlisted', Categories.setOfOwner,
        Categories.setNode, update_eq_self]
      exact hstored
  · exact ⟨r, hr, hledger, .inl ⟨hold, rfl⟩⟩

inductive Categorizing (act : Act) (s s' : State) : Prop where
  | kept (h : s'.categories = s.categories)
  | assigned (ipId : ℕ) (categoryHash : BytesN 32) (r : IpRecord)
      (hcall : act.call = .assignIpToCategory ipId categoryHash)
      (hr : s.ipRecord ipId = some r) (hledger : s'.ledger = s.ledger)
      (hnew : ipId ∉ s.categories.node (r.owner, categoryHash))
      (h : s'.categories = s.categories.assign r.owner categoryHash ipId)

theorem blind_categories {t : Table} (h : t ≠ .categories) : Blind t State.categories := by
  cases t with
  | categories => exact absurd rfl h
  | _ => exact ⟨fun _ => rfl⟩

theorem ActStep.categorizing (hact : ActStep crypto s act s') : Categorizing act s s' := by
  obtain ⟨timestamp, auths, budget, call⟩ := act
  unfold ActStep at hact
  cases call with
  | assignIpToCategory ipId categoryHash =>
    obtain ⟨r, hr, hledger, ⟨-, hsame⟩ | ⟨hnew, h⟩⟩ := assignIpToCategory_categories hact
    · exact .kept hsame
    · exact .assigned ipId categoryHash r rfl hr hledger hnew h
  | _ =>
    refine .kept (exec_frame State.categories hact fun t ht => blind_categories ?_)
    rintro rfl
    simp [Call.writes] at ht

theorem OwnCategories.empty : OwnCategories State.empty where
  nodup owner category := by simp [listIpByCategory, State.empty]
  owned owner category ipId hmem := by simp [listIpByCategory, State.empty] at hmem
  tracked owner category hsome := by simp [listIpByCategory, State.empty] at hsome

theorem OwnCategories.assigned (h : OwnCategories s) (hr : s.ipRecord ipId = some r)
    (hrecords : s'.ipRecord = s.ipRecord)
    (hnew : ipId ∉ s.categories.node (r.owner, categoryHash))
    (hassign : s'.categories = s.categories.assign r.owner categoryHash ipId) :
    OwnCategories s' := by
  have hlist : ∀ owner category, listIpByCategory owner category s' =
      update s.categories.node (r.owner, categoryHash)
        (s.categories.node (r.owner, categoryHash) ++ [ipId]) (owner, category) := by
    intro owner category
    exact congrArg (fun c : Categories => c.node (owner, category)) hassign
  have hcategories : ∀ owner, listOwnerCategories owner s' =
      update s.categories.ofOwner r.owner (s.categories.tracking r.owner categoryHash) owner := by
    intro owner
    exact congrArg (fun c : Categories => c.ofOwner owner) hassign
  refine ⟨?_, ?_, ?_⟩
  · intro owner category
    rw [hlist]
    by_cases hkey : (owner, category) = (r.owner, categoryHash)
    · rw [hkey, update_self]
      have hold : (s.categories.node (r.owner, categoryHash)).Nodup := h.nodup r.owner categoryHash
      refine List.nodup_append.mpr ⟨hold, by simp, ?_⟩
      intro i hi j hj
      obtain rfl := List.mem_singleton.mp hj
      rintro rfl
      exact hnew hi
    · rw [update_of_ne hkey]
      exact h.nodup owner category
  · intro owner category i hmem
    rw [hlist] at hmem
    rw [hrecords]
    by_cases hkey : (owner, category) = (r.owner, categoryHash)
    · rw [hkey, update_self, List.mem_append, List.mem_singleton] at hmem
      obtain ⟨rfl, rfl⟩ := Prod.mk.inj hkey
      cases hmem with
      | inl hold => exact h.owned _ _ i hold
      | inr hself => exact ⟨r, hself ▸ hr, rfl⟩
    · rw [update_of_ne hkey] at hmem
      exact h.owned owner category i hmem
  · intro owner category hsome
    rw [hlist] at hsome
    rw [hcategories]
    by_cases hkey : (owner, category) = (r.owner, categoryHash)
    · obtain ⟨rfl, rfl⟩ := Prod.mk.inj hkey
      rw [update_self]
      exact Categories.mem_tracking_self
    · rw [update_of_ne hkey] at hsome
      have hold : category ∈ s.categories.ofOwner owner := h.tracked owner category hsome
      by_cases howner : owner = r.owner
      · subst howner
        rw [update_self]
        exact Categories.mem_tracking hold
      · rwa [update_of_ne howner]

theorem OwnCategories.kept (h : OwnCategories s) (hsame : s'.categories = s.categories)
    (howned : ∀ owner category i r, i ∈ listIpByCategory owner category s →
      s.ipRecord i = some r → r.owner = owner → ∃ r', s'.ipRecord i = some r' ∧ r'.owner = owner) :
    OwnCategories s' := by
  have hlist : ∀ owner category,
      listIpByCategory owner category s' = listIpByCategory owner category s := by
    intro owner category
    exact congrArg (fun c : Categories => c.node (owner, category)) hsame
  refine ⟨?_, ?_, ?_⟩
  · intro owner category
    rw [hlist]
    exact h.nodup owner category
  · intro owner category i hmem
    rw [hlist] at hmem
    obtain ⟨r, hr, howner⟩ := h.owned owner category i hmem
    exact howned owner category i r hmem hr howner
  · intro owner category hsome
    rw [hlist] at hsome
    have htracked : category ∈ s.categories.ofOwner owner := h.tracked owner category hsome
    have hcategories : listOwnerCategories owner s' = s.categories.ofOwner owner :=
      congrArg (fun c : Categories => c.ofOwner owner) hsame
    rw [hcategories]
    exact htracked

/-- A step keeps the categories in order unless it hands over an IP that stands in one. -/
theorem OwnCategories.step (hwf : s.ledger.Wf) (h : OwnCategories s)
    (hact : ActStep crypto s act s') : OwnCategories s' ↔ KeepsCategories s act := by
  constructor
  · intro hafter ipId newOwner r htransfers hr hother category hmem
    have hexec : transferIp (act.env crypto) ipId newOwner s = .ok ((), s') := by
      unfold ActStep at hact
      rcases htransfers with hcall | hcall <;> rw [hcall] at hact <;> exact hact
    have hsame : s'.categories = s.categories := by
      cases hact.categorizing with
      | kept h => exact h
      | assigned _ _ _ hcall => rcases htransfers with h | h <;> rw [hcall] at h <;> cases h
    obtain ⟨r₀, hr₀, -, hledger⟩ := transferIp_ledger hexec
    obtain rfl := Option.some.inj (hr.symm.trans hr₀)
    have hmem' : ipId ∈ listIpByCategory r.owner category s' := by
      have hlist : listIpByCategory r.owner category s' = listIpByCategory r.owner category s :=
        congrArg (fun c : Categories => c.node (r.owner, category)) hsame
      rwa [hlist]
    obtain ⟨r', hr', howner⟩ := hafter.owned _ _ _ hmem'
    have hstored : s'.ipRecord ipId = some (r.ownedBy newOwner) := by
      rw [State.ipRecord_ledger, hledger]
      exact update_self ..
    obtain rfl := Option.some.inj (hstored.symm.trans hr')
    exact hother howner
  · intro hkeeps
    cases hact.categorizing with
    | assigned ipId categoryHash r hcall hr hledger hnew hassign =>
      exact h.assigned hr (congrArg Ledger.ipRecord hledger) hnew hassign
    | kept hsame =>
      refine h.kept hsame ?_
      intro owner category i r hmem hr howner
      obtain ⟨r', hr', hedits⟩ := exec_edits hact hwf hr
      refine ⟨r', hr', ?_⟩
      rcases hedits.owner with hkept | ⟨htransfers, -⟩
      · exact hkept.trans howner
      · by_contra hother
        rw [← howner] at hmem hother
        exact hkeeps i r'.owner r htransfers hr hother category hmem

/-- The categories of a run are in order as long as no IP that stands in one is handed over. -/
theorem own_categories_iff (hrun : Run (ActStep crypto) State.empty tr s) :
    (∀ v ∈ visited State.empty tr, OwnCategories v) ↔
      ∀ past a act b, (past, a, act, b) ∈ steps State.empty tr → KeepsCategories a act :=
  hrun.visited_iff_steps .empty (J := fun s => s.ledger.Wf) .empty
    (fun _ _ _ hwf hact => ActStep.wf hact hwf)
    fun _ _ _ hwf h hact => h.step hwf hact

end Steps

section Shelves

open Scenario

def shelf : BytesN 32 := .fill 32 9

/-- The rival buys a design that stands in no category, and puts it into his own. -/
theorem bought_design_shelved : ∃ tr s, Run (ActStep crypto) State.empty tr s ∧
    listIpByCategory rival shelf s = [1] ∧ OwnCategories s := by
  have hplayed : endsIn perform [act 5 inventor (.commitIp inventor design 0)] State.empty (fun a =>
      endsIn perform [act 6 inventor (.transferIp 1 rival)] a fun b =>
        endsIn perform [act 7 rival (.assignIpToCategory 1 shelf)] b fun c =>
          decide (listIpByCategory rival shelf c = [1])) = true := by decide
  obtain ⟨a, hcommits, hlater⟩ := endsIn_one hplayed
  obtain ⟨b, hsells, hlast⟩ := endsIn_one hlater
  obtain ⟨c, hassigns, hlist⟩ := endsIn_one hlast
  have hstart : ActStep crypto State.empty (act 5 inventor (.commitIp inventor design 0)) a :=
    hcommits
  have hnone : ∀ owner category, listIpByCategory owner category a = [] := by
    intro owner category
    cases hstart.categorizing with
    | kept hsame => exact congrArg (fun c : Categories => c.node (owner, category)) hsame
    | assigned _ _ _ hcall => cases hcall
  have hrun := ((Run.start.next hstart).next hsells).next hassigns
  refine ⟨_, c, hrun, of_decide_eq_true hlist, ?_⟩
  refine (own_categories_iff hrun).mpr ?_ c hrun.mem_visited
  intro past s act' s' hmem
  simp only [steps, now, List.mem_cons, Prod.mk.injEq, List.not_mem_nil, or_false] at hmem
  rcases hmem with ⟨-, rfl, rfl, -⟩ | ⟨-, rfl, rfl, -⟩ | ⟨-, rfl, rfl, -⟩
  · rintro _ _ _ (hcall | hcall) <;> cases hcall
  · intro ipId newOwner r _ _ _ category
    simp [hnone]
  · rintro _ _ _ (hcall | hcall) <;> cases hcall

/-- A design the inventor has sold stays in his category. -/
theorem sold_design_shelved : ∃ tr s, Run (ActStep crypto) State.empty tr s ∧
    listIpByCategory inventor shelf s = [1] ∧ (∃ r, s.ipRecord 1 = some r ∧ r.owner = rival) ∧
    ¬ OwnCategories s := by
  obtain ⟨tr, s, hrun, -, hseen⟩ := played State.empty
    [act 5 inventor (.commitIp inventor design 0), act 6 inventor (.assignIpToCategory 1 shelf),
      act 7 inventor (.transferIp 1 rival)]
    (fun s => decide (listIpByCategory inventor shelf s = [1]) &&
      (s.ipRecord 1).any fun r => r.owner = rival) (by decide)
  simp only [Bool.and_eq_true, Option.any_eq_true, decide_eq_true_eq] at hseen
  obtain ⟨hlist, r, hr, howner⟩ := hseen
  refine ⟨tr, s, hrun, hlist, ⟨r, hr, howner⟩, ?_⟩
  intro h
  obtain ⟨r', hr', howner'⟩ := h.owned inventor shelf 1 (by simp [hlist])
  obtain rfl := Option.some.inj (hr.symm.trans hr')
  exact absurd (howner.symm.trans howner') (by decide)

end Shelves

end AtomicIp.IpRegistry
