import AtomicIp.Registry.Wellformed

/-!
Who was first. A record's timestamp speaks for its hash, and a hash belongs to one IP, as
long as no rotation of a key comes in between.
-/

set_option autoImplicit false

namespace AtomicIp.IpRegistry

open Function

/-- Some call made at `time` or earlier submitted the hash. -/
def SubmittedBy (tr : List (Act × State)) (hash : BytesN 32) (time : ℕ) : Prop :=
  ∃ p ∈ tr, hash ∈ p.1.call.submits ∧ p.1.timestamp ≤ time

/-- No record claims an earlier time for its hash than the registry knew the hash. -/
def Ledger.Honest (tr : List (Act × State)) (c : Ledger) : Prop :=
  ∀ i r, c.ipRecord i = some r → SubmittedBy tr r.commitmentHash r.timestamp

/-- A rotation happens at the time of its record, or to a hash known by then. -/
def Act.Backed (past : List (Act × State)) (s : State) (act : Act) : Prop :=
  ∀ ipId hash secret blindingFactor r,
    act.call = .rotateCommitmentKey ipId hash secret blindingFactor → s.ipRecord ipId = some r →
      act.timestamp ≤ r.timestamp ∨ SubmittedBy past hash r.timestamp

/-- The hashes that are or were those of an IP. -/
def Ledger.Bore (c : Ledger) (i : ℕ) (hash : BytesN 32) : Prop :=
  (∃ r, c.ipRecord i = some r ∧ r.commitmentHash = hash) ∨ hash ∈ c.rotatedAway i

/-- No hash was ever that of two IPs. -/
def Ledger.Apart (c : Ledger) : Prop := ∀ i j hash, c.Bore i hash → c.Bore j hash → i = j

/-- A call brings in no hash rotated away from another IP. -/
def Act.BringsBack (s : State) (act : Act) : Prop :=
  ∃ hash ∈ act.call.submits, ∃ i, hash ∈ s.ledger.rotatedAway i ∧
    ∀ secret blindingFactor, act.call ≠ .rotateCommitmentKey i hash secret blindingFactor

section Steps

variable {env : Env} {c c' : Ledger} {m : Move} {crypto : Crypto} {s s' : State} {act : Act}
  {tr : List (Act × State)}

theorem SubmittedBy.cons {hash : BytesN 32} {time : ℕ} (h : SubmittedBy tr hash time)
    (p : Act × State) : SubmittedBy (p :: tr) hash time := by
  obtain ⟨q, hq, hsubmitted⟩ := h
  exact ⟨q, by simp [hq], hsubmitted⟩

theorem SubmittedBy.head {hash : BytesN 32} {time : ℕ} (h : hash ∈ act.call.submits)
    (htime : act.timestamp ≤ time) : SubmittedBy ((act, s) :: tr) hash time :=
  ⟨(act, s), by simp, h, htime⟩

theorem Call.submits_registered {call : Call} {r : IpRecord} (h : call.yields (.registered r)) :
    r.commitmentHash ∈ call.submits := by
  cases call <;> simp_all [Call.yields, Call.submits]

theorem Call.yields_rotated {call : Call} {i : ℕ} {hash : BytesN 32}
    (h : call.yields (.rotated i hash)) : ∃ secret blindingFactor,
      call = .rotateCommitmentKey i hash secret blindingFactor := by
  cases call <;> simp_all [Call.yields]

theorem Ledger.Honest.mono {tr' : List (Act × State)} (h : c.Honest tr)
    (hle : ∀ hash time, SubmittedBy tr hash time → SubmittedBy tr' hash time) : c.Honest tr' :=
  fun i r hr => hle _ _ (h i r hr)

/-- What a move that brings in a hash owes to the honesty of the ledger. -/
theorem Step.honest (hstep : Step env c m c') (h : c.Honest tr)
    (hregistered : ∀ r, m = .registered r → SubmittedBy tr r.commitmentHash env.timestamp)
    (hrotated : ∀ i hash r, m = .rotated i hash → c.ipRecord i = some r →
      SubmittedBy tr hash r.timestamp) : c'.Honest tr := by
  intro j q hq
  cases hstep with
  | registered =>
    rcases update_eq_some hq with ⟨rfl, rfl⟩ | ⟨-, hq⟩
    · exact hregistered _ rfl
    · exact h j q hq
  | @rotated i r hash hr =>
    have hsubmitted := hrotated i hash r rfl hr
    rcases update_eq_some hq with ⟨-, rfl⟩ | ⟨-, hq⟩
    · exact hsubmitted
    · exact h j q hq
  | @transferred i r owner hr =>
    have hsubmitted := h i r hr
    rcases update_eq_some hq with ⟨-, rfl⟩ | ⟨-, hq⟩
    · exact hsubmitted
    · exact h j q hq
  | revised r' hr hrevises =>
    rcases update_eq_some hq with ⟨rfl, rfl⟩ | ⟨-, hq⟩
    · rw [hrevises.commitmentHash, hrevises.timestamp]
      exact h _ _ hr
    · exact h j q hq

theorem ActStep.honest (hact : ActStep crypto s act s') (hbacked : act.Backed tr s)
    (h : s.ledger.Honest tr) : s'.ledger.Honest ((act, s') :: tr) := by
  have hmono := h.mono fun hash time hs => SubmittedBy.cons hs (act, s')
  by_cases hrotates : ∃ i hash secret blindingFactor,
      act.call = .rotateCommitmentKey i hash secret blindingFactor
  · obtain ⟨i, hash, secret, blindingFactor, hcall⟩ := hrotates
    have hexec := hact
    rw [ActStep, hcall] at hexec
    refine (rotateCommitmentKey_step hexec).honest hmono (by simp) ?_
    rintro _ _ r ⟨rfl, rfl⟩ hr
    rcases hbacked _ _ _ _ r hcall hr with htime | hsubmitted
    · exact .head (by simp [hcall, Call.submits]) htime
    · exact hsubmitted.cons _
  · refine (exec_moves hact).invariant (fun c m c' hm hc hstep => ?_) hmono
    refine hstep.honest hc ?_ ?_
    · rintro r rfl
      exact .head (Call.submits_registered hm) (Nat.le_refl _)
    · rintro i hash r rfl
      obtain ⟨secret, blindingFactor, hcall⟩ := Call.yields_rotated hm
      exact absurd ⟨i, hash, secret, blindingFactor, hcall⟩ hrotates

theorem Ledger.bore_setIpRecord {i : ℕ} {r r' : IpRecord} (hr : c.ipRecord i = some r)
    (hsame : r'.commitmentHash = r.commitmentHash) (k : ℕ) (hash : BytesN 32) :
    (c.setIpRecord i (some r')).Bore k hash ↔ c.Bore k hash := by
  refine or_congr ?_ Iff.rfl
  constructor
  · rintro ⟨q, hq, rfl⟩
    rcases update_eq_some hq with ⟨rfl, rfl⟩ | ⟨-, hq⟩
    · exact ⟨r, hr, hsame.symm⟩
    · exact ⟨q, hq, rfl⟩
  · rintro ⟨q, hq, rfl⟩
    by_cases hk : k = i
    · subst hk
      obtain rfl := Option.some.inj (hr.symm.trans hq)
      exact ⟨r', update_self .., hsame⟩
    · exact ⟨q, (update_of_ne hk _ _).trans hq, rfl⟩

theorem Ledger.rotatedAway_rotate (i : ℕ) (r : IpRecord) (hash : BytesN 32) (k : ℕ) :
    (c.rotate i r hash).rotatedAway k =
      if k = i then c.rotatedAway i ++ [r.commitmentHash] else c.rotatedAway k := by
  by_cases hk : k = i <;>
    simp [rotatedAway, rotate, setIpRecord, setCommitmentOwner, setEncryptionKeyRotation, hk]

theorem Step.bore_mono (hstep : Step env c m c') (hwf : c.Wf) {k : ℕ} {hash : BytesN 32}
    (h : c.Bore k hash) : c'.Bore k hash := by
  cases hstep with
  | registered =>
    rcases h with ⟨q, hq, rfl⟩ | h
    · have hk : k ≠ c.count := by
        rintro rfl
        rw [hwf.absent] at hq
        cases hq
      exact .inl ⟨q, (update_of_ne hk _ _).trans hq, rfl⟩
    · exact .inr h
  | @rotated i r new hr =>
    by_cases hk : k = i
    · subst hk
      right
      rw [Ledger.rotatedAway_rotate, if_pos rfl, List.mem_append, List.mem_singleton]
      rcases h with ⟨q, hq, rfl⟩ | h
      · obtain rfl := Option.some.inj (hr.symm.trans hq)
        exact .inr rfl
      · exact .inl h
    · rcases h with ⟨q, hq, rfl⟩ | h
      · exact .inl ⟨q, (update_of_ne hk _ _).trans hq, rfl⟩
      · right
        rwa [Ledger.rotatedAway_rotate, if_neg hk]
  | @transferred i r owner hr =>
    have hsame : (r.ownedBy owner).commitmentHash = r.commitmentHash := rfl
    exact (Ledger.bore_setIpRecord hr hsame k hash).mpr h
  | revised r' hr hrevises => exact (Ledger.bore_setIpRecord hr hrevises.commitmentHash _ _).mpr h

theorem Step.bore_new (hstep : Step env c m c') {k : ℕ} {hash : BytesN 32}
    (h : c'.Bore k hash) : c.Bore k hash ∨
      (∃ r, m = .registered r ∧ k = c.count ∧ r.commitmentHash = hash) ∨ m = .rotated k hash := by
  cases hstep with
  | registered =>
    rcases h with ⟨q, hq, rfl⟩ | h
    · rcases update_eq_some hq with ⟨rfl, rfl⟩ | ⟨-, hq⟩
      · exact .inr (.inl ⟨_, rfl, rfl, rfl⟩)
      · exact .inl (.inl ⟨q, hq, rfl⟩)
    · exact .inl (.inr h)
  | @rotated i r new hr =>
    rcases h with ⟨q, hq, rfl⟩ | h
    · rcases update_eq_some hq with ⟨rfl, rfl⟩ | ⟨-, hq⟩
      · exact .inr (.inr rfl)
      · exact .inl (.inl ⟨q, hq, rfl⟩)
    · rw [Ledger.rotatedAway_rotate] at h
      by_cases hk : k = i
      · rw [if_pos hk, List.mem_append, List.mem_singleton, ← hk] at h
        rcases h with h | rfl
        · exact .inl (.inr h)
        · exact .inl (.inl ⟨r, hk ▸ hr, rfl⟩)
      · rw [if_neg hk] at h
        exact .inl (.inr h)
  | @transferred i r owner hr =>
    have hsame : (r.ownedBy owner).commitmentHash = r.commitmentHash := rfl
    exact .inl ((Ledger.bore_setIpRecord hr hsame k hash).mp h)
  | revised r' hr hrevises =>
    exact .inl ((Ledger.bore_setIpRecord hr hrevises.commitmentHash _ _).mp h)

theorem Ledger.Wf.bore_unindexed (hwf : c.Wf) {k : ℕ} {hash : BytesN 32}
    (hfree : c.commitmentOwner hash = none) (h : c.Bore k hash) : hash ∈ c.rotatedAway k := by
  rcases h with ⟨q, hq, he⟩ | h
  · exact absurd he (hwf.unregistered hfree hq)
  · exact h

theorem Step.unindexed (hstep : Step env c m c') :
    (∀ r, m = .registered r → c.commitmentOwner r.commitmentHash = none) ∧
    ∀ i hash, m = .rotated i hash → c.commitmentOwner hash = none := by
  cases hstep with
  | registered _ hfree => exact ⟨by rintro r ⟨⟩; exact hfree, by simp⟩
  | rotated _ _ _ _ _ hfree => exact ⟨by simp, by rintro i hash ⟨⟩; exact hfree⟩
  | transferred | revised => simp

theorem Step.apart (hstep : Step env c m c') (hwf : c.Wf) (h : c.Apart)
    (hregistered : ∀ r, m = .registered r → ∀ i, r.commitmentHash ∉ c.rotatedAway i)
    (hrotated : ∀ i hash, m = .rotated i hash → ∀ j, hash ∈ c.rotatedAway j → j = i) :
    c'.Apart := by
  obtain ⟨hfree, hfree'⟩ := hstep.unindexed
  intro i j hash hi hj
  rcases hstep.bore_new hi with hi | ⟨r, rfl, rfl, rfl⟩ | rfl
  · rcases hstep.bore_new hj with hj | ⟨r, rfl, rfl, rfl⟩ | rfl
    · exact h i j hash hi hj
    · exact absurd (hwf.bore_unindexed (hfree r rfl) hi) (hregistered r rfl i)
    · exact hrotated j hash rfl i (hwf.bore_unindexed (hfree' j hash rfl) hi)
  · rcases hstep.bore_new hj with hj | ⟨r', -, rfl, -⟩ | hm
    · exact absurd (hwf.bore_unindexed (hfree r rfl) hj) (hregistered r rfl j)
    · rfl
    · cases hm
  · rcases hstep.bore_new hj with hj | ⟨r', hm, -⟩ | hm
    · exact (hrotated i hash rfl j (hwf.bore_unindexed (hfree' i hash rfl) hj)).symm
    · cases hm
    · cases hm
      rfl

theorem Step.rotatedAway_eq (hstep : Step env c m c') (hm : ∀ i hash, m ≠ .rotated i hash)
    (k : ℕ) : c'.rotatedAway k = c.rotatedAway k := by
  cases hstep with
  | rotated => exact absurd rfl (hm _ _)
  | registered | transferred | revised => rfl

theorem ActStep.bore_mono (hact : ActStep crypto s act s') (hwf : s.ledger.Wf) {k : ℕ}
    {hash : BytesN 32} (h : s.ledger.Bore k hash) : s'.ledger.Bore k hash := by
  have hkept : s'.ledger.Wf ∧ s'.ledger.Bore k hash :=
    (exec_moves hact).invariant (I := fun c => c.Wf ∧ c.Bore k hash)
      (fun _ _ _ _ hc hstep => ⟨hstep.wf hc.1, hstep.bore_mono hc.1 hc.2⟩) ⟨hwf, h⟩
  exact hkept.2

theorem ActStep.apart (hact : ActStep crypto s act s') (hcond : ¬ act.BringsBack s)
    (hwf : s.ledger.Wf) (h : s.ledger.Apart) : s'.ledger.Apart := by
  by_cases hrotates : ∃ i hash secret blindingFactor,
      act.call = .rotateCommitmentKey i hash secret blindingFactor
  · obtain ⟨i, hash, secret, blindingFactor, hcall⟩ := hrotates
    have hexec := hact
    rw [ActStep, hcall] at hexec
    refine (rotateCommitmentKey_step hexec).apart hwf h (by simp) ?_
    rintro _ _ ⟨rfl, rfl⟩ j hj
    by_contra hji
    exact hcond ⟨hash, by simp [hcall, Call.submits], j, hj, fun _ _ he => by
      rw [hcall] at he
      cases he
      exact hji rfl⟩
  · have hkept := (exec_moves hact).invariant
      (I := fun c => c.Wf ∧ c.Apart ∧ ∀ k, c.rotatedAway k = s.ledger.rotatedAway k)
      (fun c m c' hm hc hstep => ?_) ⟨hwf, h, fun _ => rfl⟩
    · exact hkept.2.1
    · obtain ⟨hwf, hapart, haway⟩ := hc
      have hnot : ∀ i hash, m ≠ .rotated i hash := by
        rintro i hash rfl
        obtain ⟨secret, blindingFactor, hcall⟩ := Call.yields_rotated hm
        exact hrotates ⟨i, hash, secret, blindingFactor, hcall⟩
      refine ⟨hstep.wf hwf, hstep.apart hwf hapart ?_ fun i hash he => absurd he (hnot i hash),
        fun k => (hstep.rotatedAway_eq hnot k).trans (haway k)⟩
      rintro r rfl i hi
      rw [haway] at hi
      exact hcond ⟨r.commitmentHash, Call.submits_registered hm, i, hi, fun secret b hcall =>
        hrotates ⟨i, _, secret, b, hcall⟩⟩

end Steps

/-- Timestamps are honest in runs whose rotations are backed. -/
theorem timestamps_honest {crypto : Crypto} {tr : List (Act × State)} {s : State}
    (hrun : Run (ActStep crypto) State.empty tr s)
    (hbacked : ∀ past a act b, (past, a, act, b) ∈ steps State.empty tr → act.Backed past a) :
    ∀ i r, s.ipRecord i = some r →
      ∃ p ∈ tr, r.commitmentHash ∈ p.1.call.submits ∧ p.1.timestamp ≤ r.timestamp := by
  suffices h : s.ledger.Honest tr from h
  induction hrun with
  | start =>
    intro i r hr
    cases (show none = some r from hr)
  | next hrun hact ih =>
    refine hact.honest (hbacked _ _ _ _ hrun.mem_steps_last) (ih ?_)
    exact fun past a act b hmem => hbacked past a act b (List.mem_cons_of_mem _ hmem)

/-- A hash is one IP's for ever, in runs where no call brings back a hash rotated away from
another IP. -/
theorem hash_registered_once {crypto : Crypto} {tr : List (Act × State)} {s : State}
    (hrun : Run (Restrict (ActStep crypto) fun s act => ¬ act.BringsBack s) State.empty tr s) :
    ∀ a ∈ visited State.empty tr, ∀ b ∈ visited State.empty tr, ∀ i j r q,
      a.ipRecord i = some r → b.ipRecord j = some q → r.commitmentHash = q.commitmentHash →
        i = j := by
  suffices h : (s.ledger.Wf ∧ s.ledger.Apart) ∧
      ∀ a ∈ visited State.empty tr, ∀ k hash, a.ledger.Bore k hash → s.ledger.Bore k hash by
    intro a ha b hb i j r q hr hq he
    have hi := h.2 a ha i r.commitmentHash (.inl ⟨r, hr, rfl⟩)
    have hj := h.2 b hb j r.commitmentHash (.inl ⟨q, hq, he.symm⟩)
    exact h.1.2 i j r.commitmentHash hi hj
  induction hrun with
  | start =>
    refine ⟨⟨.empty, fun i j hash hi => ?_⟩, fun a ha k hash h => ?_⟩
    · simp [Ledger.Bore, Ledger.rotatedAway, State.ledger, State.empty] at hi
    · obtain rfl := List.mem_singleton.mp ha
      exact h
  | next _ hact ih =>
    obtain ⟨⟨hwf, hapart⟩, hbore⟩ := ih
    refine ⟨⟨hact.1.wf hwf, hact.1.apart hact.2 hwf hapart⟩, fun a ha k hash h => ?_⟩
    rcases List.mem_cons.mp ha with rfl | ha
    · exact h
    · exact hact.1.bore_mono hwf (hbore a ha k hash h)

section Runs

open Scenario

/-- A design registered and, in the same ledger, replaced by another one. -/
theorem timestamps_honest_rotated : ∃ tr s, Run (ActStep crypto) State.empty tr s ∧
    (s.ipRecord 1).isSome = true ∧ ∀ i r, s.ipRecord i = some r →
      ∃ p ∈ tr, r.commitmentHash ∈ p.1.call.submits ∧ p.1.timestamp ≤ r.timestamp := by
  obtain ⟨tr, s, hrun, hacts, hstored⟩ := played State.empty
    [act 0 inventor (.commitIp inventor design 0),
      act 0 inventor (.rotateCommitmentKey 1 laterDesign secret secret)]
    (fun s => (s.ipRecord 1).isSome) (by decide)
  refine ⟨tr, s, hrun, hstored, timestamps_honest hrun fun past a k b hmem => ?_⟩
  have hlabel : k ∈ tr.map Prod.fst := List.mem_map_of_mem (mem_of_mem_steps hmem)
  have htime : k.timestamp = 0 := by
    rw [hacts] at hlabel
    simp only [List.reverse_cons, List.reverse_nil, List.nil_append, List.cons_append,
      List.mem_cons, List.not_mem_nil, or_false] at hlabel
    rcases hlabel with rfl | rfl <;> rfl
  intro _ _ _ _ r _ _
  exact .inl (htime ▸ Nat.zero_le r.timestamp)

/-- A design of day 50 under the timestamp of day 5. -/
theorem rotated_hash_backdated : ∃ (tr : List (Act × State)) (s : State) (r : IpRecord),
    Run (ActStep crypto) State.empty tr s ∧ Chronological tr ∧ s.ipRecord 1 = some r ∧
    ¬ ∃ p ∈ tr, r.commitmentHash ∈ p.1.call.submits ∧ p.1.timestamp ≤ r.timestamp := by
  obtain ⟨tr, s, hrun, hacts, hseen⟩ := played State.empty
    [act 5 inventor (.commitIp inventor design 0),
      act 50 inventor (.rotateCommitmentKey 1 laterDesign secret secret)]
    (fun s => (s.ipRecord 1).any fun r => r.commitmentHash = laterDesign ∧ r.timestamp = 5)
    (by decide)
  simp only [Option.any_eq_true, decide_eq_true_eq] at hseen
  obtain ⟨r, hr, hhash, htime⟩ := hseen
  refine ⟨tr, s, r, hrun, ?_, hr, ?_⟩
  · have hordered : (tr.map Prod.fst).Pairwise fun later earlier : Act =>
        earlier.timestamp ≤ later.timestamp := by
      rw [hacts]
      simp [act]
    exact List.pairwise_map.mp hordered
  · rintro ⟨p, hp, hsubmits, hbefore⟩
    have hlabel : p.1 ∈ tr.map Prod.fst := List.mem_map_of_mem hp
    rw [hacts] at hlabel
    rw [hhash] at hsubmits
    rw [htime] at hbefore
    simp only [List.reverse_cons, List.reverse_nil, List.nil_append, List.cons_append,
      List.mem_cons, List.not_mem_nil, or_false] at hlabel
    rcases hlabel with h | h <;> rw [h] at hsubmits hbefore
    · exact absurd hbefore (by decide)
    · exact absurd hsubmits (by decide)

/-- The inventor replaces the design, and the rival registers another one. -/
theorem hash_registered_once_rotated : ∃ tr s,
    Run (Restrict (ActStep crypto) fun s act => ¬ act.BringsBack s) State.empty tr s ∧
    design ∈ s.ledger.rotatedAway 1 ∧ (s.ipRecord 2).isSome = true ∧
    ∀ a ∈ visited State.empty tr, ∀ b ∈ visited State.empty tr, ∀ i j r q,
      a.ipRecord i = some r → b.ipRecord j = some q → r.commitmentHash = q.commitmentHash →
        i = j := by
  have hplay : ∃ s₁ s₂ s₃,
      perform (act 5 inventor (.commitIp inventor design 0)) State.empty = .ok ((), s₁) ∧
      perform (act 6 inventor (.rotateCommitmentKey 1 laterDesign secret secret)) s₁ =
        .ok ((), s₂) ∧
      perform (act 7 rival (.commitIp rival (.fill 32 2) 0)) s₂ = .ok ((), s₃) ∧
      s₁.ledger.encryptionKeyRotation = (fun _ => none) ∧
      s₂.ledger.encryptionKeyRotation = update (fun _ : ℕ => none) 1 (some [design]) ∧
      s₃.ledger.encryptionKeyRotation = s₂.ledger.encryptionKeyRotation ∧
      (s₃.ipRecord 2).isSome = true :=
    ⟨_, _, _, rfl, rfl, rfl, rfl, rfl, rfl, rfl⟩
  obtain ⟨s₁, s₂, s₃, hcommits, hrotates, hregisters, haway₁, haway₂, haway₃, hstored⟩ := hplay
  have hfirst : ¬ (act 5 inventor (.commitIp inventor design 0)).BringsBack State.empty := by
    rintro ⟨hash, -, i, hi, -⟩
    simp [Ledger.rotatedAway, State.ledger, State.empty] at hi
  have hsecond : ¬ (act 6 inventor (.rotateCommitmentKey 1 laterDesign secret secret)).BringsBack
      s₁ := by
    rintro ⟨hash, -, i, hi, -⟩
    simp [Ledger.rotatedAway, haway₁] at hi
  have hthird : ¬ (act 7 rival (.commitIp rival (.fill 32 2) 0)).BringsBack s₂ := by
    rintro ⟨hash, hnew, i, hi, -⟩
    obtain rfl := List.mem_singleton.mp hnew
    by_cases hone : i = 1
    · subst hone
      simp only [Ledger.rotatedAway, haway₂, update_self, Option.getD_some,
        List.mem_singleton] at hi
      exact absurd hi (by decide)
    · simp [Ledger.rotatedAway, haway₂, hone] at hi
  have hrun : Run (Restrict (ActStep crypto) fun s act => ¬ act.BringsBack s) State.empty _ s₃ :=
    ((Run.start.next ⟨hcommits, hfirst⟩).next ⟨hrotates, hsecond⟩).next ⟨hregisters, hthird⟩
  refine ⟨_, s₃, hrun, ?_, hstored, hash_registered_once hrun⟩
  simp [Ledger.rotatedAway, haway₃, haway₂]

/-- The rival registers the hash the inventor rotated away. -/
theorem hash_registered_twice : ∃ (tr : List (Act × State)) (a b : State) (r q : IpRecord),
    Run (ActStep crypto) State.empty tr b ∧ a ∈ visited State.empty tr ∧
    a.ipRecord 1 = some r ∧ b.ipRecord 2 = some q ∧ r.commitmentHash = q.commitmentHash ∧
    q.owner = rival := by
  obtain ⟨tr, a, hrun, -, hseen⟩ :=
    played State.empty [act 5 inventor (.commitIp inventor design 0)]
    (fun a => ((a.ipRecord 1).any fun r => r.commitmentHash = design) &&
      endsIn perform [act 50 inventor (.rotateCommitmentKey 1 laterDesign secret secret),
        act 60 rival (.commitIp rival design 0)] a
        fun b => (b.ipRecord 2).any fun q => q.commitmentHash = design ∧ q.owner = rival)
    (by decide)
  simp only [Bool.and_eq_true, Option.any_eq_true, decide_eq_true_eq] at hseen
  obtain ⟨⟨r, hr, hhash⟩, hlater⟩ := hseen
  obtain ⟨tr', b, hrun', -, hseen'⟩ := played _ _ _ hlater
  simp only [Option.any_eq_true, decide_eq_true_eq] at hseen'
  obtain ⟨q, hq, hhash', howner⟩ := hseen'
  exact ⟨tr' ++ tr, a, b, r, q, hrun.trans hrun', hrun.mem_visited_append tr', hr, hq,
    hhash.trans hhash'.symm, howner⟩

end Runs

end AtomicIp.IpRegistry
