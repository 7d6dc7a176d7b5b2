import AtomicIp.Lib.Index
import AtomicIp.Registry.Refine

set_option autoImplicit false

namespace AtomicIp.IpRegistry

open Function

structure Ledger.Wf (c : Ledger) : Prop where
  counted : 1 ≤ c.count
  stored : ∀ i, (c.ipRecord i).isSome = true ↔ 1 ≤ i ∧ i < c.count
  ipId : ∀ i r, c.ipRecord i = some r → r.ipId = i
  nonzero : ∀ i r, c.ipRecord i = some r → r.commitmentHash ≠ .zero 32
  unique : ∀ i j r q, c.ipRecord i = some r → c.ipRecord j = some q →
    r.commitmentHash = q.commitmentHash → i = j
  index : ∀ hash owner, c.commitmentOwner hash = some owner ↔
    ∃ i r, c.ipRecord i = some r ∧ r.commitmentHash = hash ∧ r.owner = owner

namespace Ledger

variable {c : Ledger} {i : ℕ} {r r' : IpRecord}

theorem Wf.empty : State.empty.ledger.Wf where
  counted := Nat.le_refl 1
  stored i := by
    simp [State.ledger, State.empty, count]
    omega
  ipId i r hr := by cases (show none = some r from hr)
  nonzero i r hr := by cases (show none = some r from hr)
  unique i j r q hr := by cases (show none = some r from hr)
  index hash owner := by simp [State.ledger, State.empty]

namespace Wf

theorem absent (h : c.Wf) : c.ipRecord c.count = none := by
  have hnot : ¬ (c.ipRecord c.count).isSome = true := by simp [h.stored]
  simpa using hnot

theorem unregistered (h : c.Wf) {hash : BytesN 32} (hfree : c.commitmentOwner hash = none)
    (hr : c.ipRecord i = some r) : r.commitmentHash ≠ hash := by
  intro he
  have howner := (h.index hash r.owner).mpr ⟨i, r, hr, he, rfl⟩
  rw [hfree] at howner
  cases howner

theorem enroll (h : c.Wf) {hash : BytesN 32} {owner : Address} {timestamp : ℕ}
    {parent : Option ℕ} (hzero : hash ≠ .zero 32) (hfree : c.commitmentOwner hash = none) :
    (c.enroll (newRecord c.count owner hash timestamp parent)).Wf := by
  have hcounted := h.counted
  have hother : ∀ i r, c.ipRecord i = some r → i ≠ c.count := by
    rintro i r hr rfl
    rw [h.absent] at hr
    cases hr
  have hcases : ∀ i r, (c.enroll (newRecord c.count owner hash timestamp parent)).ipRecord i =
      some r → (i = c.count ∧ r = newRecord c.count owner hash timestamp parent) ∨
        c.ipRecord i = some r := by
    intro i r hr
    exact (update_eq_some hr).imp_right And.right
  refine ⟨?_, fun i => ?_, fun i r hr => ?_, fun i r hr => ?_, fun i j r q hr hq he => ?_,
    fun hash' owner' => ?_⟩
  · simp [Ledger.enroll, setNextId, count]
  · change (update c.ipRecord c.count _ i).isSome = true ↔ 1 ≤ i ∧ i < c.count + 1
    by_cases hi : i = c.count
    · simp [hi, hcounted]
    · rw [update_of_ne hi, h.stored]
      omega
  · rcases hcases i r hr with ⟨rfl, rfl⟩ | hr
    · rfl
    · exact h.ipId i r hr
  · rcases hcases i r hr with ⟨rfl, rfl⟩ | hr
    · exact hzero
    · exact h.nonzero i r hr
  · rcases hcases i r hr with ⟨rfl, rfl⟩ | hr <;> rcases hcases j q hq with ⟨rfl, rfl⟩ | hq
    · rfl
    · exact absurd he.symm (h.unregistered hfree hq)
    · exact absurd he (h.unregistered hfree hr)
    · exact h.unique i j r q hr hq he
  · change update c.commitmentOwner hash (some owner) hash' = some owner' ↔
      ∃ i r, update c.ipRecord c.count _ i = some r ∧ _
    by_cases hh : hash' = hash
    · subst hh
      constructor
      · intro ho
        rw [update_self] at ho
        exact ⟨c.count, _, update_self .., rfl, Option.some.inj ho⟩
      · rintro ⟨i, r, hr, he, rfl⟩
        rcases hcases i r hr with ⟨rfl, rfl⟩ | hr
        · exact update_self ..
        · exact absurd he (h.unregistered hfree hr)
    · rw [update_of_ne hh, h.index]
      constructor
      · rintro ⟨i, r, hr, he⟩
        exact ⟨i, r, by rwa [update_of_ne (hother i r hr)], he⟩
      · rintro ⟨i, r, hr, he, ho⟩
        rcases hcases i r hr with ⟨rfl, rfl⟩ | hr
        · exact absurd he.symm hh
        · exact ⟨i, r, hr, he, ho⟩

theorem rewrite (h : c.Wf) (hr : c.ipRecord i = some r) (hid : r'.ipId = r.ipId)
    (hzero : r'.commitmentHash ≠ .zero 32)
    (hfree : r'.commitmentHash = r.commitmentHash ∨ c.commitmentOwner r'.commitmentHash = none) :
    (((c.setCommitmentOwner r.commitmentHash none).setCommitmentOwner r'.commitmentHash
      (some r'.owner)).setIpRecord i (some r')).Wf := by
  have hother : ∀ j q, c.ipRecord j = some q → j ≠ i → q.commitmentHash ≠ r'.commitmentHash := by
    intro j q hq hji he
    rcases hfree with hsame | hfree
    · exact hji (h.unique j i q r hq hr (he.trans hsame))
    · exact h.unregistered hfree hq he
  refine ⟨h.counted, fun j => ?_, fun j q hq => ?_, fun j q hq => ?_,
    fun j k p q hp hq he => ?_, fun hash owner => ?_⟩
  · change (update c.ipRecord i _ j).isSome = true ↔ 1 ≤ j ∧ j < c.count
    rw [← h.stored j]
    by_cases hj : j = i
    · simp [hj, hr]
    · rw [update_of_ne hj]
  · rcases update_eq_some hq with ⟨rfl, rfl⟩ | ⟨-, hq⟩
    · rw [hid, h.ipId j r hr]
    · exact h.ipId j q hq
  · rcases update_eq_some hq with ⟨rfl, rfl⟩ | ⟨-, hq⟩
    · exact hzero
    · exact h.nonzero j q hq
  · rcases update_eq_some hp with ⟨rfl, rfl⟩ | ⟨hj, hp'⟩ <;>
      rcases update_eq_some hq with ⟨rfl, rfl⟩ | ⟨hk, hq'⟩
    · rfl
    · exact absurd he.symm (hother k q hq' hk)
    · exact absurd he (hother j p hp' hj)
    · exact h.unique j k p q hp' hq' he
  · change update (update c.commitmentOwner r.commitmentHash none) r'.commitmentHash
      (some r'.owner) hash = some owner ↔ ∃ j q, update c.ipRecord i (some r') j = some q ∧ _
    by_cases hnew : hash = r'.commitmentHash
    · subst hnew
      rw [update_self]
      constructor
      · intro ho
        exact ⟨i, r', update_self .., rfl, Option.some.inj ho⟩
      · rintro ⟨j, q, hq, he, rfl⟩
        rcases update_eq_some hq with ⟨rfl, rfl⟩ | ⟨hj, hq⟩
        · rfl
        · exact absurd he (hother j q hq hj)
    · rw [update_of_ne hnew]
      constructor
      · intro ho
        by_cases hold : hash = r.commitmentHash
        · rw [hold, update_self] at ho
          cases ho
        · rw [update_of_ne hold] at ho
          obtain ⟨j, q, hq, he, howner⟩ := (h.index hash owner).mp ho
          have hj : j ≠ i := by
            rintro rfl
            rw [hr] at hq
            exact hold (he.symm.trans (congrArg IpRecord.commitmentHash (Option.some.inj hq)).symm)
          exact ⟨j, q, by rwa [update_of_ne hj], he, howner⟩
      · rintro ⟨j, q, hq, he, howner⟩
        rcases update_eq_some hq with ⟨rfl, rfl⟩ | ⟨hj, hq⟩
        · exact absurd he.symm hnew
        · have hold : hash ≠ r.commitmentHash := fun e =>
            hj (h.unique j i q r hq hr (he.trans e))
          rw [update_of_ne hold]
          exact (h.index hash owner).mpr ⟨j, q, hq, he, howner⟩

theorem reindexed (h : c.Wf) (hr : c.ipRecord i = some r) :
    (c.setCommitmentOwner r.commitmentHash none).setCommitmentOwner r.commitmentHash
      (some r.owner) = c := by
  have howner := (h.index r.commitmentHash r.owner).mpr ⟨i, r, hr, rfl, rfl⟩
  simp only [setCommitmentOwner, update_idem]
  rw [← howner, update_eq_self]

end Wf

end Ledger

section Wellformed

variable {env : Env} {c c' : Ledger} {m : Move} {crypto : Crypto} {s s' : State} {act : Act}

theorem Step.wf (hstep : Step env c m c') (h : c.Wf) : c'.Wf := by
  cases hstep with
  | registered hzero hfree => exact h.enroll hzero hfree
  | @rotated ipId r hash hr _ _ _ hzero hfree =>
    have hlogged : (c.setEncryptionKeyRotation ipId
        (some ((c.encryptionKeyRotation ipId).getD [] ++ [r.commitmentHash]))).Wf :=
      ⟨h.counted, h.stored, h.ipId, h.nonzero, h.unique, h.index⟩
    have hrehashed : (r.rehashed hash).commitmentHash ≠ .zero 32 := hzero
    exact hlogged.rewrite hr rfl hrehashed (.inr hfree)
  | @transferred ipId r owner hr =>
    have howned : (r.ownedBy owner).commitmentHash ≠ .zero 32 := h.nonzero ipId r hr
    have hid : (r.ownedBy owner).ipId = r.ipId := rfl
    have hset := h.rewrite hr hid howned (.inl rfl)
    rw [Ledger.transfer]
    simpa only [Ledger.setCommitmentOwner, IpRecord.ownedBy, update_idem] using hset
  | @revised ipId r r' hr hrevises =>
    have hzero : r'.commitmentHash ≠ .zero 32 := by
      rw [hrevises.commitmentHash]
      exact h.nonzero ipId r hr
    have hset := h.rewrite hr hrevises.ipId hzero (.inl hrevises.commitmentHash)
    rwa [hrevises.commitmentHash, hrevises.owner, h.reindexed hr] at hset

theorem Enrolls.count {owner : Address} {hash : BytesN 32} {parent : Option ℕ}
    (h : Enrolls env owner hash parent c c') : c'.count = c.count + 1 := by
  rw [h.ledger]
  rfl

theorem Step.count_le (hstep : Step env c m c') : c.count ≤ c'.count := by
  cases hstep with
  | registered => exact Nat.le_succ c.count
  | _ => exact Nat.le_refl c.count

theorem ActStep.wf (hact : ActStep crypto s act s') (h : s.ledger.Wf) : s'.ledger.Wf :=
  (exec_moves hact).invariant (fun _ _ _ _ hc hstep => hstep.wf hc) h

/-- The registry's records, their ids and its index of hashes agree. -/
theorem index_agrees {tr : List (Act × State)}
    (hrun : Run (ActStep crypto) State.empty tr s) :
    (∀ i, (s.ipRecord i).isSome = true ↔ 1 ≤ i ∧ i ≤ s.nextId.getD 1 - 1) ∧
    (∀ i r, s.ipRecord i = some r → r.ipId = i ∧ r.commitmentHash ≠ .zero 32) ∧
    (∀ i j r q, s.ipRecord i = some r → s.ipRecord j = some q →
      r.commitmentHash = q.commitmentHash → i = j) ∧
    ∀ hash owner, s.commitmentOwner hash = some owner ↔
      ∃ i r, s.ipRecord i = some r ∧ r.commitmentHash = hash ∧ r.owner = owner := by
  have hwf : s.ledger.Wf := hrun.invariant (I := fun s => s.ledger.Wf) .empty
    fun _ _ _ h hact => ActStep.wf hact h
  refine ⟨fun i => ?_, fun i r hr => ⟨hwf.ipId i r hr, hwf.nonzero i r hr⟩, hwf.unique,
    hwf.index⟩
  have hcounted : 1 ≤ s.nextId.getD 1 := hwf.counted
  have hstored : (s.ipRecord i).isSome = true ↔ 1 ≤ i ∧ i < s.nextId.getD 1 := hwf.stored i
  rw [hstored]
  omega

end Wellformed

section Runs

open Scenario

/-- The first design is sold and replaced, the second one, of a batch, revoked. -/
theorem index_agrees_replaced : ∃ tr s, Run (ActStep crypto) State.empty tr s ∧
    s.commitmentOwner design = none ∧ s.commitmentOwner laterDesign = some rival ∧
    (∀ i j r q, s.ipRecord i = some r → s.ipRecord j = some q →
      r.commitmentHash = q.commitmentHash → i = j) ∧
    ∀ hash owner, s.commitmentOwner hash = some owner ↔
      ∃ i r, s.ipRecord i = some r ∧ r.commitmentHash = hash ∧ r.owner = owner := by
  obtain ⟨tr, s, hrun, -, hseen⟩ := played State.empty
    [act 5 inventor (.batchCommitIp inventor [design, .fill 32 2]),
      act 6 inventor (.transferIp 1 rival),
      act 7 rival (.rotateCommitmentKey 1 laterDesign secret secret), act 8 inventor (.revokeIp 2)]
    (fun s => s.commitmentOwner design = none && s.commitmentOwner laterDesign = some rival)
    (by decide +kernel)
  simp only [Bool.and_eq_true, decide_eq_true_eq] at hseen
  obtain ⟨-, -, hunique, hindex⟩ := index_agrees hrun
  exact ⟨tr, s, hrun, hseen.1, hseen.2, hunique, hindex⟩

end Runs

end AtomicIp.IpRegistry
