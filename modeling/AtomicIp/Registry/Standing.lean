import AtomicIp.Registry.Records

set_option autoImplicit false

namespace AtomicIp.IpRegistry

open Function

def Call.Revokes (i : ℕ) (call : Call) : Prop :=
  call = .revokeIp i ∨ ∃ primary, call = .mergeDuplicateCommitment primary i

def Call.Rotates (i : ℕ) (call : Call) : Prop :=
  ∃ hash secret blindingFactor, call = .rotateCommitmentKey i hash secret blindingFactor

def Call.Disturbs (i : ℕ) (owner : Address) (call : Call) : Prop :=
  (∃ newOwner, newOwner ≠ owner ∧ call.Transfers i newOwner) ∨ call.Revokes i ∨ call.Rotates i

def Ledger.Unrevoked (c : Ledger) (i : ℕ) : Prop :=
  ∃ r, c.ipRecord i = some r ∧ r.revoked = false

section Steps

variable {env : Env} {c c' : Ledger} {m : Move} {call : Call} {s s' : State} {u : Unit} {i ipId : ℕ}
  {r : IpRecord}

theorem Ledger.Unrevoked.rewrite {r' : IpRecord} (h : c.Unrevoked i) (hr : c.ipRecord ipId = some r)
    (hlive : r.revoked = false → r'.revoked = false) :
    (c.setIpRecord ipId (some r')).Unrevoked i := by
  obtain ⟨q, hq, hq'⟩ := h
  by_cases hi : i = ipId
  · subst hi
    obtain rfl := Option.some.inj (hr.symm.trans hq)
    exact ⟨r', update_self .., hlive hq'⟩
  · exact ⟨q, (update_of_ne hi _ _).trans hq, hq'⟩

theorem Ledger.Unrevoked.beside {r' : IpRecord} (h : c.Unrevoked i) (hi : i ≠ ipId) :
    (c.setIpRecord ipId (some r')).Unrevoked i := by
  obtain ⟨q, hq, hq'⟩ := h
  exact ⟨q, (update_of_ne hi _ _).trans hq, hq'⟩

theorem Step.unrevoked (hstep : Step env c m c') (hwf : c.Wf) (hm : ∀ j, m ≠ .revised j)
    (h : c.Unrevoked i) : c'.Unrevoked i := by
  obtain ⟨r, hr, hlive⟩ := h
  cases hstep with
  | registered =>
    have hne : i ≠ c.count := by
      intro hi
      rw [hi, hwf.absent] at hr
      cases hr
    exact ⟨r, (update_of_ne hne _ _).trans hr, hlive⟩
  | @rotated j q hash hq =>
    by_cases hi : i = j
    · subst hi
      obtain rfl := Option.some.inj (hr.symm.trans hq)
      exact ⟨_, update_self .., hlive⟩
    · exact ⟨r, (update_of_ne hi _ _).trans hr, hlive⟩
  | @transferred j q owner hq =>
    by_cases hi : i = j
    · subst hi
      obtain rfl := Option.some.inj (hr.symm.trans hq)
      exact ⟨_, update_self .., hlive⟩
    · exact ⟨r, (update_of_ne hi _ _).trans hr, hlive⟩
  | @revised j => exact absurd rfl (hm j)

theorem revokeIp_unrevoked (h : revokeIp env ipId s = .ok (u, s')) (hi : i ≠ ipId)
    (hlive : s.ledger.Unrevoked i) : s'.ledger.Unrevoked i := by
  simp [revokeIp] at h
  obtain ⟨r, hr, -, -, haudit⟩ := h
  rw [appendAuditEntry_ledger haudit]
  exact hlive.beside hi

theorem addCoOwner_unrevoked {coOwner : Address} (h : addCoOwner env ipId coOwner s = .ok (u, s'))
    (hlive : s.ledger.Unrevoked i) : s'.ledger.Unrevoked i := by
  simp [addCoOwner] at h
  obtain ⟨r, hr, -, ⟨-, rfl⟩ | ⟨-, rfl⟩⟩ := h
  · exact hlive.rewrite hr fun h => h
  · exact hlive

theorem removeCoOwner_unrevoked {coOwner : Address}
    (h : removeCoOwner env ipId coOwner s = .ok (u, s')) (hlive : s.ledger.Unrevoked i) :
    s'.ledger.Unrevoked i := by
  simp [removeCoOwner] at h
  obtain ⟨r, hr, -, ⟨-, rfl⟩ | ⟨-, rfl⟩⟩ := h
  · exact hlive.rewrite hr fun h => h
  · exact hlive

theorem notarizeIpTimestamp_unrevoked {signature : Bytes}
    (h : notarizeIpTimestamp env ipId signature s = .ok (u, s')) (hlive : s.ledger.Unrevoked i) :
    s'.ledger.Unrevoked i := by
  simp [notarizeIpTimestamp] at h
  obtain ⟨r, hr, publicKey, -, -, -, rfl⟩ := h
  exact hlive.rewrite hr fun h => h

theorem mergeDuplicateCommitment_unrevoked {primaryIpId duplicateIpId : ℕ}
    (h : mergeDuplicateCommitment env primaryIpId duplicateIpId s = .ok (u, s'))
    (hi : i ≠ duplicateIpId) (hlive : s.ledger.Unrevoked i) : s'.ledger.Unrevoked i := by
  simp [mergeDuplicateCommitment, adoptCoOwner] at h
  obtain ⟨primary, hprimary, -, duplicate, -, -, s₁, hadopt, s₂, haudit, s₃, haudit', rfl⟩ := h
  rw [State.ledger_published, appendAuditEntry_ledger haudit', appendAuditEntry_ledger haudit]
  rcases hadopt with ⟨-, rfl⟩ | ⟨-, rfl⟩
  · have hadopted : (s.ledger.setIpRecord primaryIpId (some (primary.withCoOwners
        (primary.coOwners ++ [duplicate.owner])))).Unrevoked i := hlive.rewrite hprimary fun h => h
    exact hadopted.beside hi
  · exact hlive.beside hi

theorem exec_unrevoked (h : exec env call s = .ok ((), s')) (hwf : s.ledger.Wf)
    (hcall : ¬ call.Revokes i) (hlive : s.ledger.Unrevoked i) : s'.ledger.Unrevoked i := by
  cases call with
  | revokeIp ipId =>
    have hi : i ≠ ipId := by
      rintro rfl
      exact hcall (.inl rfl)
    exact revokeIp_unrevoked h hi hlive
  | mergeDuplicateCommitment primary duplicate =>
    have hi : i ≠ duplicate := by
      rintro rfl
      exact hcall (.inr ⟨primary, rfl⟩)
    exact mergeDuplicateCommitment_unrevoked h hi hlive
  | addCoOwner => exact addCoOwner_unrevoked h hlive
  | removeCoOwner => exact removeCoOwner_unrevoked h hlive
  | notarizeIpTimestamp => exact notarizeIpTimestamp_unrevoked h hlive
  | _ =>
    have hkept := (exec_moves h).invariant (I := fun c => c.Wf ∧ c.Unrevoked i) ?_ ⟨hwf, hlive⟩
    · exact hkept.2
    · intro c m c' hm hc hstep
      exact ⟨hstep.wf hc.1, hstep.unrevoked hc.1 (by grind [Call.yields]) hc.2⟩

def State.hashOf (s : State) (i : ℕ) : Option (BytesN 32) :=
  (s.ipRecord i).map IpRecord.commitmentHash

/-- The IP is the owner's, and not revoked. -/
def State.HeldBy (s : State) (i : ℕ) (owner : Address) : Prop :=
  ∃ r, s.ipRecord i = some r ∧ r.owner = owner ∧ r.revoked = false

theorem exec_heldBy {owner : Address} (h : exec env call s = .ok ((), s')) (hwf : s.ledger.Wf)
    (hspared : ¬ call.Disturbs i owner) (hheld : s.HeldBy i owner) : s'.HeldBy i owner := by
  obtain ⟨r, hr, howner, hlive⟩ := hheld
  have hrevokes : ¬ call.Revokes i := fun hcall => hspared (.inr (.inl hcall))
  obtain ⟨r', hr', hlive'⟩ := exec_unrevoked h hwf hrevokes ⟨r, hr, hlive⟩
  obtain ⟨r₁, hr₁, hedits⟩ := exec_edits h hwf hr
  obtain rfl := Option.some.inj (hr'.symm.trans hr₁)
  refine ⟨r', hr', ?_, hlive'⟩
  rcases hedits.owner with hsame | ⟨htransfers, -⟩
  · exact hsame.trans howner
  · by_cases hback : r'.owner = owner
    · exact hback
    · exact absurd (.inl ⟨_, hback, htransfers⟩) hspared

theorem exec_hashOf {owner : Address} (h : exec env call s = .ok ((), s')) (hwf : s.ledger.Wf)
    (hspared : ¬ call.Disturbs i owner) (hheld : s.HeldBy i owner) :
    s'.hashOf i = s.hashOf i := by
  obtain ⟨r, hr, -⟩ := hheld
  obtain ⟨r', hr', hedits⟩ := exec_edits h hwf hr
  have hstored : s'.ipRecord i = some r' := hr'
  rw [State.hashOf, State.hashOf, hstored, hr, Option.map_some, Option.map_some]
  rcases hedits.commitmentHash with hsame | ⟨secret, blindingFactor, hcall, -⟩
  · rw [hsame]
  · exact absurd (.inr (.inr ⟨_, secret, blindingFactor, hcall⟩)) hspared

end Steps

end AtomicIp.IpRegistry
