import AtomicIp.Registry.Ownership
import AtomicIp.Registry.Records
import AtomicIp.Registry.Verdicts

/-!
What a verdict does to the ownership of the IP in dispute. It is written into the dispute and
nowhere else, so it takes effect only for a winner who owns the IP already.
-/

set_option autoImplicit false

namespace AtomicIp.IpRegistry

open Function Relation

namespace Titles

/-- Nobody is listed twice for an IP, or for one that is not his. -/
structure Sound (t : Titles) : Prop where
  below : ∀ i owner, t.ownerOf i = some owner → i < t.count
  nodup : ∀ owner, (listed t.ownerIps owner).Nodup
  owned : ∀ owner, ∀ i ∈ listed t.ownerIps owner, t.ownerOf i = some owner

variable {t t' : Titles} {i : ℕ} {owner owner' : Address}

theorem Sound.grant (h : t.Sound) (owner : Address) : (t.grant owner).Sound := by
  have hfresh : ∀ owner', t.count ∉ listed t.ownerIps owner' := by
    intro owner' hmem
    have hlt := h.below t.count owner' (h.owned owner' t.count hmem)
    omega
  refine ⟨fun i owner' howner => ?_, fun owner' => ?_, fun owner' i hmem => ?_⟩
  · rcases update_eq_some howner with ⟨rfl, -⟩ | ⟨-, hold⟩
    · exact Nat.lt_succ_self _
    · exact Nat.lt_succ_of_lt (h.below i owner' hold)
  · by_cases howner : owner' = owner
    · subst howner
      simp only [Titles.grant, listed_filed_self, List.nodup_append, h.nodup, true_and]
      simp only [List.nodup_singleton, List.mem_singleton, true_and]
      rintro j hj _ rfl rfl
      exact hfresh owner' hj
    · simp only [Titles.grant, listed_filed_of_ne howner, h.nodup]
  · by_cases howner : owner' = owner
    · subst howner
      simp only [Titles.grant, listed_filed_self, List.mem_append, List.mem_singleton] at hmem
      rcases hmem with hmem | rfl
      · have hne : i ≠ t.count := fun e => hfresh owner' (e ▸ hmem)
        exact (update_of_ne hne _ _).trans (h.owned owner' i hmem)
      · exact update_self ..
    · simp only [Titles.grant, listed_filed_of_ne howner] at hmem
      have hne : i ≠ t.count := fun e => hfresh owner' (e ▸ hmem)
      exact (update_of_ne hne _ _).trans (h.owned owner' i hmem)

theorem Sound.grantUnlisted (h : t.Sound) : t.grantUnlisted.Sound where
  below i owner howner := by
    rcases update_eq_some howner with ⟨rfl, -⟩ | ⟨-, hold⟩
    · exact Nat.lt_succ_self _
    · exact Nat.lt_succ_of_lt (h.below i owner hold)
  nodup := h.nodup
  owned owner i hmem := by
    have howner := h.owned owner i hmem
    have hlt := h.below i owner howner
    exact (update_of_ne (by omega) _ _).trans howner

theorem Sound.mem_unfiled (h : t.Sound) {j : ℕ} (howner : t.ownerOf i = some owner)
    (hmem : j ∈ listed (unfiled t.ownerIps owner i) owner') :
    j ≠ i ∧ t.ownerOf j = some owner' := by
  by_cases hsame : owner' = owner
  · subst hsame
    rw [listed_unfiled_self, (h.nodup owner').mem_erase_iff] at hmem
    exact ⟨hmem.1, h.owned owner' j hmem.2⟩
  · rw [listed_unfiled_of_ne hsame] at hmem
    have hother := h.owned owner' j hmem
    refine ⟨?_, hother⟩
    rintro rfl
    exact hsame (Option.some.inj (hother.symm.trans howner))

theorem Sound.pass (h : t.Sound) (howner : t.ownerOf i = some owner) (newOwner : Address) :
    (t.pass i owner newOwner).Sound := by
  have hnodup : ∀ owner', (listed (unfiled t.ownerIps owner i) owner').Nodup := by
    intro owner'
    by_cases hsame : owner' = owner
    · subst hsame
      rw [listed_unfiled_self]
      exact (h.nodup owner').erase i
    · rw [listed_unfiled_of_ne hsame]
      exact h.nodup owner'
  refine ⟨fun j owner' howner' => ?_, fun owner' => ?_, fun owner' j hmem => ?_⟩
  · rcases update_eq_some howner' with ⟨rfl, -⟩ | ⟨-, hold⟩
    · exact h.below j owner howner
    · exact h.below j owner' hold
  · by_cases hnew : owner' = newOwner
    · subst hnew
      simp only [Titles.pass, listed_filed_self, List.nodup_append, hnodup, true_and]
      simp only [List.nodup_singleton, List.mem_singleton, true_and]
      rintro j hj _ rfl
      exact (h.mem_unfiled howner hj).1
    · simp only [Titles.pass, listed_filed_of_ne hnew, hnodup]
  · by_cases hnew : owner' = newOwner
    · subst hnew
      simp only [Titles.pass, listed_filed_self, List.mem_append, List.mem_singleton] at hmem
      rcases hmem with hmem | rfl
      · obtain ⟨hne, hold⟩ := h.mem_unfiled howner hmem
        exact (update_of_ne hne _ _).trans hold
      · exact update_self ..
    · simp only [Titles.pass, listed_filed_of_ne hnew] at hmem
      obtain ⟨hne, hold⟩ := h.mem_unfiled howner hmem
      exact (update_of_ne hne _ _).trans hold

theorem Sound.steps (h : t.Sound) (hsteps : ReflTransGen Step t t') : t'.Sound := by
  induction hsteps with
  | refl => exact h
  | tail _ hstep ih =>
    cases hstep with
    | granted owner => exact ih.grant owner
    | unlisted => exact ih.grantUnlisted
    | passed i owner newOwner howner => exact ih.pass howner newOwner

end Titles

section Awards

variable {crypto : Crypto} {tr : List (Act × State)} {s s' : State} {act : Act} {i : ℕ}
  {winner : Address}

theorem run_sound (hrun : Run (ActStep crypto) State.empty tr s) : s.titles.Sound := by
  refine hrun.invariant (I := fun s => s.titles.Sound) ?_
    fun _ _ _ h hact => h.steps (exec_titles hact)
  constructor
  · intro i owner howner
    simp [State.titles, Ledger.ownerOf, State.ledger, State.empty] at howner
  · intro owner
    exact List.nodup_nil
  · intro owner i hmem
    cases hmem

/-- The IP is the winner's in every structure, and nothing else has changed. -/
structure TakesEffect (i : ℕ) (winner : Address) (s s' : State) : Prop where
  owner : ∃ r, s'.ipRecord i = some r ∧ r.owner = winner ∧
    s'.commitmentOwner r.commitmentHash = some winner
  listed : (listIpByOwner winner s').count i = 1
  unlisted : ∀ other, other ≠ winner → i ∉ listIpByOwner other s'
  records : ∀ j, j ≠ i → s'.ipRecord j = s.ipRecord j
  lists : ∀ other, (listIpByOwner other s').erase i = (listIpByOwner other s).erase i
  index : ∀ r, s'.ipRecord i = some r → ∀ hash, hash ≠ r.commitmentHash →
    s'.commitmentOwner hash = s.commitmentOwner hash

/-- The call resolves a dispute over the IP in favour of the winner. -/
def Decides (i : ℕ) (winner : Address) (s : State) (call : Call) (s' : State) : Prop :=
  ∃ id dispute, s'.ipDisputes id = some dispute ∧ dispute.ipId = i ∧ dispute.resolved = true ∧
    dispute.winner = some winner ∧ (call = .resolveDispute id winner ∨
      ∃ arbitrationId case, call = .finalizeArbitration arbitrationId ∧
        s.arbitrationCase arbitrationId = some case ∧ case.disputeId = id)

/-- The owner of the IP wins the call: the ruling names him, or the challenger has no majority or
is himself the owner. -/
def OwnerWins (i : ℕ) (owner : Address) (s : State) : Call → Prop
  | .resolveDispute _ winner => winner = owner
  | .finalizeArbitration arbitrationId => ∃ case dispute,
      s.arbitrationCase arbitrationId = some case ∧ s.ipDisputes case.disputeId = some dispute ∧
        dispute.ipId = i ∧
          (case.votesChallenger ≤ case.votesOwner ∨ dispute.challenger = owner)
  | _ => False

theorem ArbitrationRecord.favours_owner {case : ArbitrationRecord} {dispute : DisputeRecord}
    {record : IpRecord} : case.favours dispute record = record.owner ↔
      case.votesChallenger ≤ case.votesOwner ∨ dispute.challenger = record.owner := by
  unfold ArbitrationRecord.favours
  by_cases hmost : case.votesOwner < case.votesChallenger
  · rw [if_pos hmost]
    constructor
    · exact .inr
    · intro h
      cases h with
      | inl hle => omega
      | inr hsame => exact hsame
  · rw [if_neg hmost]
    exact iff_of_true rfl (.inl (by omega))

theorem Decides.ownerWins (h : Decides i winner s act.call s') (hact : ActStep crypto s act s')
    {r : IpRecord} (hr : s.ipRecord i = some r) :
    OwnerWins i r.owner s act.call ↔ r.owner = winner := by
  obtain ⟨id, dispute, hdispute, hip, -, hwinner, hcall⟩ := h
  rcases hcall with hcall | ⟨arbitrationId, case, hcall, hcase, hid⟩
  · rw [hcall]
    exact eq_comm
  · obtain ⟨timestamp, auths, budget, call⟩ := act
    obtain rfl : call = .finalizeArbitration arbitrationId := hcall
    obtain ⟨-, case', before, record, hcase', -, hbefore, hrecord, rfl⟩ :=
      finalizeArbitration_ok.mp hact
    obtain rfl := Option.some.inj (hcase.symm.trans hcase')
    subst hid
    have hset := update_self case.disputeId (some (before.resolve (case.favours before record)))
      s.ipDisputes
    obtain rfl := Option.some.inj (hset.symm.trans hdispute)
    obtain rfl := Option.some.inj hwinner
    have hsame : before.ipId = i := hip
    rw [hsame] at hrecord
    obtain rfl := Option.some.inj (hr.symm.trans hrecord)
    constructor
    · intro h
      obtain ⟨case', before', hcase', hbefore', -, hwins⟩ := h
      obtain rfl := Option.some.inj (hcase.symm.trans hcase')
      obtain rfl := Option.some.inj (hbefore.symm.trans hbefore')
      exact (ArbitrationRecord.favours_owner.mpr hwins).symm
    · intro h
      exact ⟨case, before, hcase, hbefore, hip, ArbitrationRecord.favours_owner.mp h.symm⟩

theorem Decides.kept (h : Decides i winner s act.call s') (hact : ActStep crypto s act s') :
    s'.ledger = s.ledger ∧ s'.ownerIps = s.ownerIps := by
  obtain ⟨timestamp, auths, budget, call⟩ := act
  obtain ⟨id, dispute, -, -, -, -, rfl | ⟨arbitrationId, case, rfl, -⟩⟩ := h
  · obtain ⟨-, before, -, -, rfl⟩ := resolveDispute_ok.mp hact
    exact ⟨rfl, rfl⟩
  · obtain ⟨-, case, before, record, -, -, -, -, rfl⟩ := finalizeArbitration_ok.mp hact
    exact ⟨by simp, rfl⟩

/-- A verdict takes effect exactly when the owner of the IP wins and is listed with it, as every
owner but the contract is. -/
theorem verdict_effective_iff (hrun : Run (ActStep crypto) State.empty tr s)
    (hact : ActStep crypto s act s') (hdecides : Decides i winner s act.call s') :
    TakesEffect i winner s s' ↔ ∃ r, s.ipRecord i = some r ∧ OwnerWins i r.owner s act.call ∧
      i ∈ listIpByOwner r.owner s := by
  obtain ⟨hledger, hlists⟩ := hdecides.kept hact
  have hrecord : s'.ipRecord = s.ipRecord := congrArg Ledger.ipRecord hledger
  have hindex : s'.commitmentOwner = s.commitmentOwner := congrArg Ledger.commitmentOwner hledger
  have hlist : ∀ owner, listIpByOwner owner s' = listIpByOwner owner s := by
    intro owner
    rw [listIpByOwner, hlists]
    rfl
  have hsound := run_sound hrun
  constructor
  · intro h
    obtain ⟨r, hr, rfl, -⟩ := h.owner
    rw [hrecord] at hr
    refine ⟨r, hr, (hdecides.ownerWins hact hr).mpr rfl, ?_⟩
    rw [← hlist, ← List.count_pos_iff, h.listed]
    exact Nat.one_pos
  · intro h
    obtain ⟨r, hr, hwins, hmem⟩ := h
    obtain rfl := (hdecides.ownerWins hact hr).mp hwins
    have howner := ((run_wf hrun).index r.commitmentHash r.owner).mpr ⟨i, r, hr, rfl, rfl⟩
    have hnodup : (listIpByOwner r.owner s).Nodup := hsound.nodup r.owner
    refine ⟨⟨r, by rw [hrecord, hr], rfl, by rw [hindex]; exact howner⟩, ?_, ?_, ?_, ?_, ?_⟩
    · rw [hlist]
      exact List.count_eq_one_of_mem hnodup hmem
    · intro other hother hmem'
      rw [hlist] at hmem'
      have hmine := hsound.owned r.owner i hmem
      have htheirs := hsound.owned other i hmem'
      exact hother (Option.some.inj (htheirs.symm.trans hmine))
    · intro j _
      rw [hrecord]
    · intro other
      rw [hlist]
    · intro q _ hash _
      rw [hindex]

end Awards

section Rulings

open Scenario

theorem ruling_upholds : ∃ a b : State, Decides 1 inventor a rulesForInventor.call b ∧
    TakesEffect 1 inventor a b := by
  have hplayed : endsIn perform contested State.empty (fun a =>
      (a.ipRecord 1).any (fun r => r.owner = inventor ∧ 1 ∈ listIpByOwner inventor a) &&
        endsIn perform [rulesForInventor] a fun b => (b.ipDisputes 1).any fun dispute =>
          dispute.ipId = 1 ∧ dispute.resolved = true ∧ dispute.winner = some inventor) = true := by
    decide +kernel
  obtain ⟨tr, a, hrun, -, hseen⟩ := played State.empty _ _ hplayed
  simp only [Bool.and_eq_true, Option.any_eq_true, decide_eq_true_eq] at hseen
  obtain ⟨⟨r, hr, howner, hmem⟩, hlater⟩ := hseen
  obtain ⟨b, hrules, hdecided⟩ := endsIn_one hlater
  simp only [Option.any_eq_true, decide_eq_true_eq] at hdecided
  obtain ⟨dispute, hdispute, hip, hresolved, hwinner⟩ := hdecided
  have hdecides : Decides 1 inventor a rulesForInventor.call b :=
    ⟨1, dispute, hdispute, hip, hresolved, hwinner, .inl rfl⟩
  have hwins : ∃ r, a.ipRecord 1 = some r ∧ OwnerWins 1 r.owner a rulesForInventor.call ∧
      1 ∈ listIpByOwner r.owner a := ⟨r, hr, howner.symm, by rwa [howner]⟩
  exact ⟨a, b, hdecides, (verdict_effective_iff hrun hrules hdecides).mpr hwins⟩

/-- The arbitration is the rival's, and the design stays with the inventor. -/
theorem verdict_without_effect : ∃ tr a b, Run (ActStep crypto) State.empty tr a ∧
    ActStep crypto a arbitrates b ∧ Decides 1 rival a arbitrates.call b ∧
      ¬ TakesEffect 1 rival a b := by
  have hplayed : endsIn perform contested State.empty (fun a =>
      (a.arbitrationCase 1).any (fun case => case.disputeId = 1) &&
        endsIn perform [arbitrates] a fun b =>
          (b.ipDisputes 1).any (fun dispute =>
            dispute.ipId = 1 ∧ dispute.resolved = true ∧ dispute.winner = some rival) &&
              (b.ipRecord 1).any fun r => r.owner = inventor) = true := by decide +kernel
  obtain ⟨tr, a, hrun, -, hseen⟩ := played State.empty _ _ hplayed
  simp only [Bool.and_eq_true, Option.any_eq_true, decide_eq_true_eq] at hseen
  obtain ⟨⟨case, hcase, hid⟩, hlater⟩ := hseen
  obtain ⟨b, hends, hdecided⟩ := endsIn_one hlater
  simp only [Bool.and_eq_true, Option.any_eq_true, decide_eq_true_eq] at hdecided
  obtain ⟨⟨dispute, hdispute, hip, hresolved, hwinner⟩, r, hr, howner⟩ := hdecided
  refine ⟨tr, a, b, hrun, hends, ⟨1, dispute, hdispute, hip, hresolved, hwinner,
    .inr ⟨1, case, rfl, hcase, hid⟩⟩, ?_⟩
  intro h
  obtain ⟨q, hq, hrival, -⟩ := h.owner
  obtain rfl := Option.some.inj (hr.symm.trans hq)
  rw [howner] at hrival
  exact absurd hrival (by decide)

end Rulings

end AtomicIp.IpRegistry
