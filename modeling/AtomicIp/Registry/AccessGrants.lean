import AtomicIp.Registry.Tables

/-!
Who may access an IP. The grants are a list in which a grantee is replaced, appended or erased,
and the first match counts; together they are a map that the last grant or revocation decides.
-/

set_option autoImplicit false

namespace AtomicIp.IpRegistry

open Function Tx

section Keyed

variable {α β : Type} [DecidableEq β] {key : α → β} {entry : α} {k : β} {entries : List α}

def firstWith (key : α → β) (k : β) (entries : List α) : Option α :=
  entries.find? fun a => key a = k

def without (key : α → β) (k : β) (entries : List α) : List α :=
  entries.eraseP fun a => key a = k

theorem firstWith_eq_none : firstWith key k entries = none ↔ k ∉ entries.map key := by
  simp [firstWith]

theorem firstWith_upsert_self (hk : key entry = k) :
    firstWith key k (upsert key entry entries) = some entry := by
  subst hk
  induction entries with
  | nil => simp [upsert, firstWith]
  | cons a rest ih =>
    by_cases ha : key a = key entry
    · simp [upsert, firstWith, ha]
    · simpa [upsert, firstWith, ha] using ih

theorem firstWith_upsert_of_ne (hne : k ≠ key entry) :
    firstWith key k (upsert key entry entries) = firstWith key k entries := by
  induction entries with
  | nil => simp [upsert, firstWith, Ne.symm hne]
  | cons a rest ih =>
    by_cases ha : key a = key entry
    · simp [upsert, firstWith, ha, Ne.symm hne]
    · by_cases hk : key a = k
      · subst hk
        simp [upsert, firstWith, ha]
      · simpa [upsert, firstWith, ha, hk] using ih

theorem mem_keys_upsert :
    k ∈ (upsert key entry entries).map key ↔ k ∈ entries.map key ∨ k = key entry := by
  by_cases hk : k = key entry
  · subst hk
    have hsome : firstWith key (key entry) (upsert key entry entries) ≠ none := by
      rw [firstWith_upsert_self rfl]
      exact Option.some_ne_none entry
    rw [Ne, firstWith_eq_none, not_not] at hsome
    simp only [hsome, or_true]
  · have hsame : firstWith key k (upsert key entry entries) = firstWith key k entries :=
      firstWith_upsert_of_ne hk
    have hiff : k ∉ (upsert key entry entries).map key ↔ k ∉ entries.map key := by
      rw [← firstWith_eq_none, hsame, firstWith_eq_none]
    rw [not_iff_not.mp hiff]
    simp [hk]

theorem nodup_upsert (h : (entries.map key).Nodup) :
    ((upsert key entry entries).map key).Nodup := by
  induction entries with
  | nil => simp [upsert]
  | cons a rest ih =>
    rw [List.map_cons, List.nodup_cons] at h
    obtain ⟨hnew, hrest⟩ := h
    by_cases ha : key a = key entry
    · rw [upsert, if_pos ha, List.map_cons, List.nodup_cons, ← ha]
      exact ⟨hnew, hrest⟩
    · rw [upsert, if_neg ha, List.map_cons, List.nodup_cons, mem_keys_upsert]
      refine ⟨?_, ih hrest⟩
      intro hmem
      exact hmem.elim hnew ha

theorem nodup_without (h : (entries.map key).Nodup) : ((without key k entries).map key).Nodup :=
  h.sublist (List.eraseP_sublist.map key)

theorem without_absent (h : k ∉ entries.map key) : without key k entries = entries := by
  refine List.eraseP_of_forall_not ?_
  intro a ha hk
  exact h (List.mem_map.mpr ⟨a, ha, of_decide_eq_true hk⟩)

theorem firstWith_without_self (h : (entries.map key).Nodup) :
    firstWith key k (without key k entries) = none := by
  rw [firstWith_eq_none]
  induction entries with
  | nil => simp [without]
  | cons a rest ih =>
    rw [List.map_cons, List.nodup_cons] at h
    obtain ⟨hnew, hrest⟩ := h
    by_cases ha : key a = k
    · subst ha
      simpa [without] using hnew
    · have hkept : without key k (a :: rest) = a :: without key k rest := by simp [without, ha]
      rw [hkept, List.map_cons, List.mem_cons, not_or]
      exact ⟨Ne.symm ha, ih hrest⟩

theorem firstWith_without_of_ne {k' : β} (hne : k' ≠ k) :
    firstWith key k' (without key k entries) = firstWith key k' entries := by
  induction entries with
  | nil => rfl
  | cons a rest ih =>
    by_cases ha : key a = k
    · simp [without, firstWith, ha, Ne.symm hne]
    · by_cases hk : key a = k'
      · subst hk
        simp [without, firstWith, ha]
      · simpa [without, firstWith, ha, hk] using ih

end Keyed

/-- The owner has access, and a grantee up to the level of his first grant. -/
def checkIpAccess (ipId : ℕ) (grantee : Address) (requiredLevel : ℕ) : RegistryTx Bool := do
  let record ← requireIpExists ipId
  if grantee = record.owner then pure true
  else do
    let grants ← Tx.load fun s => (s.ipAccessGrants ipId).getD []
    pure ((firstWith IpAccessGrant.grantee grantee grants).any fun grant =>
      requiredLevel ≤ grant.accessLevel)

def getIpAccessGrants (ipId : ℕ) : RegistryTx (List IpAccessGrant) := do
  let _ ← requireIpExists ipId
  Tx.load fun s => (s.ipAccessGrants ipId).getD []

section Calls

variable {env : Env} {s s' : State} {u : Unit} {ipId accessLevel requiredLevel : ℕ}
  {grantee : Address} {crypto : Crypto} {act : Act} {acts : List Act} {tr : List (Act × State)}
  {r : IpRecord}

def State.accessGrants (s : State) (ipId : ℕ) : List IpAccessGrant :=
  (s.ipAccessGrants ipId).getD []

theorem accessGrants_set (s : State) (entries : List IpAccessGrant) :
    (s.setIpAccessGrants ipId (some entries)).accessGrants =
      update s.accessGrants ipId entries := by
  funext i
  by_cases hi : i = ipId
  · subst hi
    simp [State.accessGrants, State.setIpAccessGrants]
  · simp [State.accessGrants, State.setIpAccessGrants, hi]

theorem grantIpAccess_grants (h : grantIpAccess env ipId grantee accessLevel s = .ok (u, s')) :
    s'.accessGrants = update s.accessGrants ipId
      (upsert IpAccessGrant.grantee ⟨grantee, accessLevel⟩ (s.accessGrants ipId)) := by
  simp [grantIpAccess] at h
  obtain ⟨r, hr, hauth, hlevel, rfl⟩ := h
  exact accessGrants_set s _

theorem revokeIpAccess_grants (h : revokeIpAccess env ipId grantee s = .ok (u, s')) :
    s'.accessGrants = update s.accessGrants ipId
      (without IpAccessGrant.grantee grantee (s.accessGrants ipId)) := by
  simp [revokeIpAccess] at h
  obtain ⟨r, hr, hauth, ⟨hmem, rfl⟩ | ⟨habsent, rfl⟩⟩ := h
  · exact accessGrants_set s _
  · have habsent' : grantee ∉ (s'.accessGrants ipId).map IpAccessGrant.grantee := by
      intro hmem
      obtain ⟨grant, hgrant, rfl⟩ := List.mem_map.mp hmem
      exact habsent grant hgrant rfl
    rw [without_absent habsent', update_eq_self]

def Call.GrantsAccess : Call → Prop
  | .grantIpAccess .. | .revokeIpAccess .. => True
  | _ => False

inductive GrantingAccess (act : Act) (s s' : State) : Prop where
  | kept (hcall : ¬ act.call.GrantsAccess) (h : s'.accessGrants = s.accessGrants)
  | granted (ipId : ℕ) (grantee : Address) (accessLevel : ℕ)
      (hcall : act.call = .grantIpAccess ipId grantee accessLevel)
      (h : s'.accessGrants = update s.accessGrants ipId
        (upsert IpAccessGrant.grantee ⟨grantee, accessLevel⟩ (s.accessGrants ipId)))
  | revoked (ipId : ℕ) (grantee : Address) (hcall : act.call = .revokeIpAccess ipId grantee)
      (h : s'.accessGrants = update s.accessGrants ipId
        (without IpAccessGrant.grantee grantee (s.accessGrants ipId)))

theorem blind_accessGrants {t : Table} (h : t ≠ .grants) : Blind t State.accessGrants := by
  cases t with
  | grants => exact absurd rfl h
  | _ => exact ⟨fun _ => rfl⟩

theorem ActStep.grantingAccess (hact : ActStep crypto s act s') : GrantingAccess act s s' := by
  obtain ⟨timestamp, auths, budget, call⟩ := act
  unfold ActStep at hact
  cases call with
  | grantIpAccess ipId grantee accessLevel =>
    exact .granted ipId grantee accessLevel rfl (grantIpAccess_grants hact)
  | revokeIpAccess ipId grantee => exact .revoked ipId grantee rfl (revokeIpAccess_grants hact)
  | _ =>
    refine .kept (fun h => h) (exec_frame State.accessGrants hact fun t ht => blind_accessGrants ?_)
    rintro rfl
    simp [Call.writes] at ht

/-- What the last call that granted or revoked somebody's access left him, newest call first. -/
def lastGrant (ipId : ℕ) (grantee : Address) : List Act → Option ℕ
  | [] => none
  | act :: acts =>
    match act.call with
    | .grantIpAccess id holder accessLevel =>
      if id = ipId ∧ holder = grantee then some accessLevel else lastGrant ipId grantee acts
    | .revokeIpAccess id holder =>
      if id = ipId ∧ holder = grantee then none else lastGrant ipId grantee acts
    | _ => lastGrant ipId grantee acts

theorem lastGrant_other (hcall : ¬ act.call.GrantsAccess) :
    lastGrant ipId grantee (act :: acts) = lastGrant ipId grantee acts := by
  cases h : act.call <;> simp [lastGrant, h] <;> simp [h, Call.GrantsAccess] at hcall

/-- The list is a map, and the map is what the calls say. -/
structure AccessMap (ipId : ℕ) (acts : List Act) (grants : List IpAccessGrant) : Prop where
  once : (grants.map IpAccessGrant.grantee).Nodup
  last : ∀ grantee, (firstWith IpAccessGrant.grantee grantee grants).map IpAccessGrant.accessLevel =
    lastGrant ipId grantee acts

theorem AccessMap.granted (h : AccessMap ipId acts (s.accessGrants ipId))
    (hcall : act.call = .grantIpAccess ipId grantee accessLevel) :
    AccessMap ipId (act :: acts)
      (upsert IpAccessGrant.grantee ⟨grantee, accessLevel⟩ (s.accessGrants ipId)) where
  once := nodup_upsert h.once
  last other := by
    by_cases hother : other = grantee
    · subst hother
      have hself : firstWith IpAccessGrant.grantee other
          (upsert IpAccessGrant.grantee ⟨other, accessLevel⟩ (s.accessGrants ipId)) =
            some ⟨other, accessLevel⟩ := firstWith_upsert_self rfl
      rw [hself, lastGrant, hcall]
      simp
    · rw [firstWith_upsert_of_ne hother, h.last, lastGrant, hcall]
      simp [Ne.symm hother]

theorem AccessMap.revoked (h : AccessMap ipId acts (s.accessGrants ipId))
    (hcall : act.call = .revokeIpAccess ipId grantee) :
    AccessMap ipId (act :: acts)
      (without IpAccessGrant.grantee grantee (s.accessGrants ipId)) where
  once := nodup_without h.once
  last other := by
    by_cases hother : other = grantee
    · subst hother
      rw [firstWith_without_self h.once, lastGrant, hcall]
      simp
    · rw [firstWith_without_of_ne hother, h.last, lastGrant, hcall]
      simp [Ne.symm hother]

theorem AccessMap.step (h : ∀ ipId, AccessMap ipId acts (s.accessGrants ipId))
    (hact : ActStep crypto s act s') (ipId : ℕ) :
    AccessMap ipId (act :: acts) (s'.accessGrants ipId) := by
  cases hact.grantingAccess with
  | kept hcall hsame =>
    rw [hsame]
    refine ⟨(h ipId).once, ?_⟩
    intro grantee
    rw [lastGrant_other hcall]
    exact (h ipId).last grantee
  | granted id holder accessLevel hcall hgrants =>
    rw [hgrants]
    by_cases hid : ipId = id
    · subst hid
      rw [update_self]
      exact (h ipId).granted hcall
    · rw [update_of_ne hid]
      refine ⟨(h ipId).once, ?_⟩
      intro grantee
      rw [(h ipId).last, lastGrant, hcall]
      simp [Ne.symm hid]
  | revoked id holder hcall hgrants =>
    rw [hgrants]
    by_cases hid : ipId = id
    · subst hid
      rw [update_self]
      exact (h ipId).revoked hcall
    · rw [update_of_ne hid]
      refine ⟨(h ipId).once, ?_⟩
      intro grantee
      rw [(h ipId).last, lastGrant, hcall]
      simp [Ne.symm hid]

theorem run_accessMap (hrun : Run (ActStep crypto) State.empty tr s) (ipId : ℕ) :
    AccessMap ipId (tr.map Prod.fst) (s.accessGrants ipId) := by
  induction hrun generalizing ipId with
  | start => exact ⟨by simp [State.accessGrants, State.empty], fun _ => rfl⟩
  | next _ hact ih => exact AccessMap.step ih hact ipId

theorem checkIpAccess_eq (hr : s.ipRecord ipId = some r) :
    checkIpAccess ipId grantee requiredLevel s =
      .ok (decide (grantee = r.owner) ||
        (firstWith IpAccessGrant.grantee grantee (s.accessGrants ipId)).any fun grant =>
          requiredLevel ≤ grant.accessLevel, s) := by
  rw [State.ipRecord_ledger] at hr
  by_cases howner : grantee = r.owner
  · simp [checkIpAccess, hr, howner]
  · simp [checkIpAccess, hr, howner, State.accessGrants]

/-- Nobody has two grants, and access is the owner's and theirs whom the last call concerning
them granted enough. -/
theorem access_as_last_granted (hrun : Run (ActStep crypto) State.empty tr s)
    (hr : s.ipRecord ipId = some r) :
    (∃ grants, getIpAccessGrants ipId s = .ok (grants, s) ∧
      (grants.map IpAccessGrant.grantee).Nodup) ∧
    ∀ grantee requiredLevel, ∃ granted,
      checkIpAccess ipId grantee requiredLevel s = .ok (granted, s) ∧
        (granted = true ↔ grantee = r.owner ∨ ∃ level,
          lastGrant ipId grantee (tr.map Prod.fst) = some level ∧ requiredLevel ≤ level) := by
  have hmap := run_accessMap hrun ipId
  refine ⟨⟨s.accessGrants ipId, ?_, hmap.once⟩, ?_⟩
  · rw [State.ipRecord_ledger] at hr
    simp [getIpAccessGrants, hr, State.accessGrants]
  · intro grantee requiredLevel
    refine ⟨_, checkIpAccess_eq hr, ?_⟩
    rw [Bool.or_eq_true, decide_eq_true_iff, ← hmap.last]
    cases firstWith IpAccessGrant.grantee grantee (s.accessGrants ipId) <;> simp

end Calls

section Visits

open Scenario

def visitor : Address := .account 5

/-- What the inventor has granted a visitor outlasts the sale of the design. -/
theorem visitor_keeps_access : ∃ tr s, Run (ActStep crypto) State.empty tr s ∧
    (∃ r, s.ipRecord 1 = some r ∧ r.owner = rival) ∧
    lastGrant 1 visitor (tr.map Prod.fst) = some 2 ∧
    checkIpAccess 1 visitor 2 s = .ok (true, s) := by
  obtain ⟨tr, s, hrun, hacts, hseen⟩ := played State.empty
    [act 5 inventor (.commitIp inventor design 0), act 6 inventor (.grantIpAccess 1 visitor 1),
      act 7 inventor (.grantIpAccess 1 visitor 2), act 8 inventor (.transferIp 1 rival)]
    (fun s => (s.ipRecord 1).any fun r => r.owner = rival) (by decide)
  obtain ⟨r, hr, howner⟩ := (Option.any_eq_true _ _).mp hseen
  have hlast : lastGrant 1 visitor (tr.map Prod.fst) = some 2 := by
    rw [hacts]
    rfl
  obtain ⟨granted, hcheck, hiff⟩ := (access_as_last_granted hrun hr).2 visitor 2
  obtain rfl := hiff.mpr (.inr ⟨2, hlast, Nat.le_refl 2⟩)
  exact ⟨tr, s, hrun, ⟨r, hr, of_decide_eq_true howner⟩, hlast, hcheck⟩

end Visits

end AtomicIp.IpRegistry
