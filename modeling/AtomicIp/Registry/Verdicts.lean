import AtomicIp.Registry.Tables

/-!
The disputes and their verdicts. A ruling of the admin and the end of an arbitration both
write the verdict; only the ruling looks whether there is one already.
-/

set_option autoImplicit false

namespace AtomicIp.IpRegistry

open Function Tx

structure Disputes where
  filed : ℕ → Option DisputeRecord
  nextId : Option ℕ

def State.disputes (s : State) : Disputes where
  filed := s.ipDisputes
  nextId := s.nextDisputeId

namespace Disputes

variable (d : Disputes)

def count : ℕ := d.nextId.getD 1

def enter (dispute : DisputeRecord) : Disputes where
  filed := update d.filed d.count (some dispute)
  nextId := some (d.count + 1)

def rewrite (id : ℕ) (dispute : DisputeRecord) : Disputes :=
  { d with filed := update d.filed id (some dispute) }

def Counted : Prop := ∀ id dispute, d.filed id = some dispute → id < d.count

variable {d} {id : ℕ} {dispute dispute' : DisputeRecord}

theorem Counted.enter (h : d.Counted) : (d.enter dispute).Counted := by
  intro id dispute' hfiled
  have hnext : (d.enter dispute).count = d.count + 1 := rfl
  rw [hnext]
  by_cases hid : id = d.count
  · omega
  · have hold : d.filed id = some dispute' := (update_of_ne hid _ _).symm.trans hfiled
    have hlt := h id dispute' hold
    omega

theorem Counted.rewrite (h : d.Counted) (hid : d.filed id = some dispute) :
    (d.rewrite id dispute').Counted := by
  intro other dispute'' hfiled
  have hsame : (d.rewrite id dispute').count = d.count := rfl
  rw [hsame]
  by_cases hother : other = id
  · rw [hother]
    exact h id dispute hid
  · exact h other dispute'' ((update_of_ne hother _ _).symm.trans hfiled)

end Disputes

/-- Who wins a case: the challenger on a majority, and otherwise the owner of the IP. -/
def ArbitrationRecord.favours (case : ArbitrationRecord) (dispute : DisputeRecord)
    (record : IpRecord) : Address :=
  if case.votesOwner < case.votesChallenger then dispute.challenger else record.owner

section Calls

variable {env : Env} {s s' : State} {u : Unit} {id ipId arbitrationId : ℕ}
  {challenger submitter winner : Address} {hash : BytesN 32} {crypto : Crypto} {act : Act}

theorem initiateDispute_ok {disputeId : ℕ} :
    initiateDispute env ipId challenger hash s = .ok (disputeId, s') ↔
      challenger ∈ env.auths ∧ (∃ record, s.ipRecord ipId = some record) ∧
        disputeId = s.disputes.count ∧ disputeId + 1 < 2 ^ 64 ∧
          s' = ((s.setIpDisputes disputeId
            (some ⟨disputeId, ipId, challenger, hash, env.timestamp, false, none⟩)).setNextDisputeId
              (some (disputeId + 1))).published
                ⟨"dispute", .disputeInitiated challenger disputeId ipId⟩ := by
  simp only [initiateDispute, Tx.bind_ok, requireAuth_ok, requireIpExists_ok, Tx.load_ok,
    Tx.store_ok, u64_ok, publish_ok, Tx.pure_ok]
  constructor
  · intro h
    obtain ⟨_, _, ⟨hauth, rfl⟩, record, _, ⟨hrecord, rfl⟩, _, _, ⟨rfl, rfl⟩, _, _, rfl, _, _,
      ⟨hfits, rfl, rfl⟩, _, _, rfl, _, _, rfl, rfl, rfl⟩ := h
    exact ⟨hauth, ⟨record, hrecord⟩, rfl, hfits, rfl⟩
  · intro h
    obtain ⟨hauth, ⟨record, hrecord⟩, rfl, hfits, rfl⟩ := h
    exact ⟨(), s, ⟨hauth, rfl⟩, record, s, ⟨hrecord, rfl⟩, _, s, ⟨rfl, rfl⟩, (), _, rfl, _, _,
      ⟨hfits, rfl, rfl⟩, (), _, rfl, (), _, rfl, rfl, rfl⟩

theorem submitDisputeEvidence_ok :
    submitDisputeEvidence env id submitter hash s = .ok (u, s') ↔
      submitter ∈ env.auths ∧ ∃ dispute record, s.ipDisputes id = some dispute ∧
        dispute.resolved = false ∧ s.ipRecord dispute.ipId = some record ∧
          (submitter = record.owner ∨ submitter = dispute.challenger) ∧
            s' = (s.setIpDisputes id (some { dispute with evidenceHash := hash })).published
              ⟨"disp_ev", .disputeEvidence submitter id⟩ := by
  simp only [submitDisputeEvidence, Tx.bind_ok, requireAuth_ok, requireDispute_ok, require_ok,
    requireIpExists_ok, Tx.store_ok, publish_ok]
  constructor
  · intro h
    obtain ⟨_, _, ⟨hauth, rfl⟩, dispute, _, ⟨hdispute, rfl⟩, _, _, ⟨hopen, rfl⟩, record, _,
      ⟨hrecord, rfl⟩, _, _, ⟨hparty, rfl⟩, _, _, rfl, rfl⟩ := h
    exact ⟨hauth, dispute, record, hdispute, hopen, hrecord, hparty, rfl⟩
  · intro h
    obtain ⟨hauth, dispute, record, hdispute, hopen, hrecord, hparty, rfl⟩ := h
    exact ⟨(), s, ⟨hauth, rfl⟩, dispute, s, ⟨hdispute, rfl⟩, (), s, ⟨hopen, rfl⟩, record, s,
      ⟨hrecord, rfl⟩, (), s, ⟨hparty, rfl⟩, (), _, rfl, rfl⟩

theorem resolveDispute_ok :
    resolveDispute env id winner s = .ok (u, s') ↔
      (∃ admin, s.admin = some admin ∧ admin ∈ env.auths) ∧ ∃ dispute,
        s.ipDisputes id = some dispute ∧ dispute.resolved = false ∧
          s' = (s.setIpDisputes id (some (dispute.resolve winner))).published
            ⟨"disp_res", .disputeResolved winner id dispute.ipId⟩ := by
  simp only [resolveDispute, Tx.bind_ok, requireStoredAdmin_ok, requireDispute_ok, require_ok,
    Tx.store_ok, publish_ok]
  constructor
  · intro h
    obtain ⟨admin, _, ⟨hadmin, rfl⟩, dispute, _, ⟨hdispute, rfl⟩, _, _, ⟨hopen, rfl⟩, _, _, rfl,
      rfl⟩ := h
    exact ⟨⟨admin, hadmin⟩, dispute, hdispute, hopen, rfl⟩
  · intro h
    obtain ⟨⟨admin, hadmin⟩, dispute, hdispute, hopen, rfl⟩ := h
    exact ⟨admin, s, ⟨hadmin, rfl⟩, dispute, s, ⟨hdispute, rfl⟩, (), s, ⟨hopen, rfl⟩, (), _, rfl,
      rfl⟩

theorem finalizeArbitration_ok :
    finalizeArbitration env arbitrationId s = .ok (u, s') ↔
      (∃ admin, s.admin = some admin ∧ admin ∈ env.auths) ∧ ∃ case dispute record,
        s.arbitrationCase arbitrationId = some case ∧ case.finalized = false ∧
          s.ipDisputes case.disputeId = some dispute ∧ s.ipRecord dispute.ipId = some record ∧
            s' = ((s.setArbitrationCase arbitrationId (some { case with
              finalized := true
              winner := some (case.favours dispute record) })).setIpDisputes case.disputeId
                (some (dispute.resolve (case.favours dispute record)))).published
                  ⟨"arb_fin",
                    .arbitrationFinalized (case.favours dispute record) arbitrationId⟩ := by
  simp only [finalizeArbitration, Tx.bind_ok, requireStoredAdmin_ok, requireDispute_ok,
    requireOpenCase_ok, requireIpExists_ok, Tx.store_ok, publish_ok]
  constructor
  · intro h
    obtain ⟨admin, _, ⟨hadmin, rfl⟩, case, _, ⟨⟨hcase, hopen⟩, rfl⟩, dispute, _, ⟨hdispute, rfl⟩,
      record, _, ⟨hrecord, rfl⟩, _, _, rfl, _, _, rfl, rfl⟩ := h
    exact ⟨⟨admin, hadmin⟩, case, dispute, record, hcase, hopen, hdispute, hrecord, rfl⟩
  · intro h
    obtain ⟨⟨admin, hadmin⟩, case, dispute, record, hcase, hopen, hdispute, hrecord, rfl⟩ := h
    exact ⟨admin, s, ⟨hadmin, rfl⟩, case, s, ⟨⟨hcase, hopen⟩, rfl⟩, dispute, s, ⟨hdispute, rfl⟩,
      record, s, ⟨hrecord, rfl⟩, (), _, rfl, (), _, rfl, rfl⟩

theorem blind_disputes {t : Table} (h : t ≠ .disputes) : Blind t State.disputes := by
  cases t with
  | disputes => exact absurd rfl h
  | _ => exact ⟨fun _ => rfl⟩

def Call.Disputes : Call → Prop
  | .initiateDispute .. | .submitDisputeEvidence .. | .resolveDispute ..
  | .finalizeArbitration .. => True
  | _ => False

inductive Disputing (act : Act) (s s' : State) : Prop where
  | kept (hcall : ¬ act.call.Disputes) (h : s'.disputes = s.disputes)
  | initiated (ipId : ℕ) (challenger : Address) (hash : BytesN 32)
      (hcall : act.call = .initiateDispute ipId challenger hash)
      (h : s'.disputes = s.disputes.enter
        ⟨s.disputes.count, ipId, challenger, hash, act.timestamp, false, none⟩)
  | evidenced (id : ℕ) (submitter : Address) (hash : BytesN 32) (dispute : DisputeRecord)
      (hcall : act.call = .submitDisputeEvidence id submitter hash)
      (hdispute : s.disputes.filed id = some dispute) (hopen : dispute.resolved = false)
      (h : s'.disputes = s.disputes.rewrite id { dispute with evidenceHash := hash })
  | ruled (id : ℕ) (winner : Address) (dispute : DisputeRecord)
      (hcall : act.call = .resolveDispute id winner)
      (hdispute : s.disputes.filed id = some dispute) (hopen : dispute.resolved = false)
      (h : s'.disputes = s.disputes.rewrite id (dispute.resolve winner))
  | arbitrated (arbitrationId : ℕ) (case : ArbitrationRecord) (dispute : DisputeRecord)
      (record : IpRecord) (hcall : act.call = .finalizeArbitration arbitrationId)
      (hcase : s.arbitrationCase arbitrationId = some case)
      (hdispute : s.disputes.filed case.disputeId = some dispute)
      (hrecord : s.ipRecord dispute.ipId = some record)
      (h : s'.disputes =
        s.disputes.rewrite case.disputeId (dispute.resolve (case.favours dispute record)))

theorem ActStep.disputing (hact : ActStep crypto s act s') : Disputing act s s' := by
  obtain ⟨timestamp, auths, budget, call⟩ := act
  unfold ActStep at hact
  cases call with
  | initiateDispute ipId challenger hash =>
    obtain ⟨id, hact⟩ := Tx.void_ok.mp hact
    obtain ⟨-, -, rfl, -, hs'⟩ := initiateDispute_ok.mp hact
    exact .initiated ipId challenger hash rfl (congrArg State.disputes hs')
  | submitDisputeEvidence id submitter hash =>
    obtain ⟨-, dispute, record, hdispute, hopen, -, -, hs'⟩ := submitDisputeEvidence_ok.mp hact
    exact .evidenced id submitter hash dispute rfl hdispute hopen (congrArg State.disputes hs')
  | resolveDispute id winner =>
    obtain ⟨-, dispute, hdispute, hopen, hs'⟩ := resolveDispute_ok.mp hact
    exact .ruled id winner dispute rfl hdispute hopen (congrArg State.disputes hs')
  | finalizeArbitration arbitrationId =>
    obtain ⟨-, case, dispute, record, hcase, -, hdispute, hrecord, hs'⟩ :=
      finalizeArbitration_ok.mp hact
    exact .arbitrated arbitrationId case dispute record rfl hcase hdispute hrecord
      (congrArg State.disputes hs')
  | _ =>
    refine .kept (fun h => h) (exec_frame State.disputes hact fun t ht => blind_disputes ?_)
    rintro rfl
    simp [Call.writes] at ht

end Calls

section Finality

variable {crypto : Crypto} {tr : List (Act × State)} {s s' : State} {act : Act} {id : ℕ}
  {dispute : DisputeRecord}

/-- An arbitration ends only while its dispute has no verdict. -/
def EndsOpen (s : State) (act : Act) : Prop :=
  ∀ arbitrationId case dispute, act.call = .finalizeArbitration arbitrationId →
    s.arbitrationCase arbitrationId = some case → s.ipDisputes case.disputeId = some dispute →
      dispute.resolved = false

theorem Disputes.Counted.step (h : s.disputes.Counted) (hact : ActStep crypto s act s') :
    s'.disputes.Counted := by
  cases hact.disputing with
  | kept _ hsame =>
    rw [hsame]
    exact h
  | initiated _ _ _ _ henter =>
    rw [henter]
    exact h.enter
  | evidenced _ _ _ _ _ hdispute _ hset | ruled _ _ _ _ hdispute _ hset
  | arbitrated _ _ _ _ _ _ hdispute _ hset =>
    rw [hset]
    exact h.rewrite hdispute

theorem Disputes.verdict_rewrite {d : Disputes} {other : ℕ} {pending written : DisputeRecord}
    (hdispute : d.filed id = some dispute) (hresolved : dispute.resolved = true)
    (hother : d.filed other = some pending) (hopen : pending.resolved = false) :
    (d.rewrite other written).filed id = some dispute := by
  have hne : id ≠ other := by
    rintro rfl
    obtain rfl := Option.some.inj (hdispute.symm.trans hother)
    rw [hresolved] at hopen
    cases hopen
  exact (update_of_ne hne _ _).trans hdispute

theorem ActStep.verdict_stands (hact : ActStep crypto s act s') (hcounted : s.disputes.Counted)
    (hends : EndsOpen s act) (hdispute : s.disputes.filed id = some dispute)
    (hresolved : dispute.resolved = true) : s'.disputes.filed id = some dispute := by
  cases hact.disputing with
  | kept _ hsame =>
    rw [hsame]
    exact hdispute
  | initiated _ _ _ _ henter =>
    rw [henter]
    have hlt := hcounted id dispute hdispute
    exact (update_of_ne (by omega) _ _).trans hdispute
  | evidenced _ _ _ _ _ hother hopen hset | ruled _ _ _ _ hother hopen hset =>
    rw [hset]
    exact Disputes.verdict_rewrite hdispute hresolved hother hopen
  | arbitrated arbitrationId case other _ hcall hcase hother _ hset =>
    rw [hset]
    have hopen := hends arbitrationId case other hcall hcase hother
    exact Disputes.verdict_rewrite hdispute hresolved hother hopen

/-- While no arbitration ends after its dispute has a verdict, every verdict is final, and with
it the evidence it was given on. -/
theorem verdicts_final (hrun : Run (Restrict (ActStep crypto) EndsOpen) State.empty tr s) :
    ∀ a ∈ visited State.empty tr, ∀ id dispute, a.ipDisputes id = some dispute →
      dispute.resolved = true → s.ipDisputes id = some dispute := by
  have hkept : s.disputes.Counted ∧ ∀ a ∈ visited State.empty tr, ∀ id dispute,
      a.disputes.filed id = some dispute → dispute.resolved = true →
        s.disputes.filed id = some dispute := by
    refine hrun.trace_invariant (I := fun tr s => s.disputes.Counted ∧
      ∀ a ∈ visited State.empty tr, ∀ id dispute, a.disputes.filed id = some dispute →
        dispute.resolved = true → s.disputes.filed id = some dispute) ?_ ?_
    · constructor
      · intro id dispute hdispute
        cases hdispute
      · intro a ha id dispute hdispute
        obtain rfl := List.mem_singleton.mp ha
        cases hdispute
    · intro tr s act s' h hstep
      obtain ⟨hcounted, hstand⟩ := h
      obtain ⟨hact, hends⟩ := hstep
      refine ⟨hcounted.step hact, fun a ha id dispute hdispute hresolved => ?_⟩
      rcases List.mem_cons.mp ha with rfl | ha
      · exact hdispute
      · have hbefore := hstand a ha id dispute hdispute hresolved
        exact hact.verdict_stands hcounted hends hbefore hresolved
  exact hkept.2

end Finality

section Rulings

open Scenario

/-- The rival contests the design, and a case is opened in which he votes for himself. -/
def contested : List Act :=
  [act 5 inventor (.commitIp inventor design 0), act 6 rival (.initiateDispute 1 rival design),
    act 7 currentContractAddress (.nominateArbitrator rival),
    act 8 currentContractAddress (.openArbitration 1), act 9 rival (.voteOnDispute 1 rival false)]

def arbitrates : Act := act 10 currentContractAddress (.finalizeArbitration 1)

def rulesForInventor : Act := act 10 currentContractAddress (.resolveDispute 1 inventor)

def State.decidedFor (s : State) (id : ℕ) (winner : Address) : Bool :=
  (s.ipDisputes id).any fun dispute => dispute.resolved && dispute.winner = some winner

theorem EndsOpen.of_other {s : State} {act : Act}
    (h : ∀ arbitrationId, act.call ≠ .finalizeArbitration arbitrationId) : EndsOpen s act :=
  fun arbitrationId _ _ hcall => absurd hcall (h arbitrationId)

/-- The arbitration ends in favour of the rival, and he contests the design again. -/
theorem arbitrated_for_rival : ∃ tr a s dispute,
    Run (Restrict (ActStep crypto) EndsOpen) State.empty tr s ∧ a ∈ visited State.empty tr ∧
      a.ipDisputes 1 = some dispute ∧ dispute.winner = some rival ∧
        s.ipDisputes 1 = some dispute ∧ (s.ipDisputes 2).isSome = true := by
  have hplayed : endsIn perform contested State.empty (fun a =>
      ((a.arbitrationCase 1).any fun case => (a.ipDisputes case.disputeId).any fun dispute =>
        dispute.resolved = false) && endsIn perform [arbitrates] a fun b => b.decidedFor 1 rival &&
          endsIn perform [act 11 rival (.initiateDispute 1 rival design)] b fun c =>
            (c.ipDisputes 2).isSome) = true := by decide +kernel
  have hsteps : ∀ s k s', k ∈ contested → perform k s = .ok ((), s') →
      Restrict (ActStep crypto) EndsOpen s k s' := by
    intro s k s' hk hexec
    refine ⟨hexec, .of_other ?_⟩
    revert k
    simp [contested, act]
  obtain ⟨tr, a, hrun, -, hseen⟩ := endsIn_run hplayed hsteps
  simp only [Bool.and_eq_true, Option.any_eq_true, decide_eq_true_eq] at hseen
  obtain ⟨⟨case, hcase, pending, hpending, hopen⟩, hlater⟩ := hseen
  obtain ⟨b, hends, hdecided⟩ := endsIn_one hlater
  simp only [Bool.and_eq_true, State.decidedFor, Option.any_eq_true, decide_eq_true_eq] at hdecided
  obtain ⟨⟨dispute, hdispute, hresolved, hwinner⟩, hlast⟩ := hdecided
  obtain ⟨c, hagain, hsecond⟩ := endsIn_one hlast
  have hfirst : EndsOpen a arbitrates := by
    intro arbitrationId case' pending' hcall hcase' hpending'
    cases hcall
    obtain rfl := Option.some.inj (hcase.symm.trans hcase')
    obtain rfl := Option.some.inj (hpending.symm.trans hpending')
    exact hopen
  have hthird : EndsOpen b (act 11 rival (.initiateDispute 1 rival design)) :=
    .of_other (by simp [act])
  have hlaterRun := (hrun.next ⟨hends, hfirst⟩).next ⟨hagain, hthird⟩
  have hvisited : b ∈ visited State.empty
      ((act 11 rival (.initiateDispute 1 rival design), c) :: (arbitrates, b) :: tr) := by simp
  exact ⟨_, b, c, dispute, hlaterRun, hvisited, hdispute, hwinner,
    verdicts_final hlaterRun b hvisited 1 dispute hdispute hresolved, hsecond⟩

/-- The admin rules for the inventor, and the arbitration still pending ends for the rival. -/
theorem verdict_overturned : ∃ (tr : List (Act × State)) (a s : State)
    (dispute dispute' : DisputeRecord), Run (ActStep crypto) State.empty tr s ∧
      a ∈ visited State.empty tr ∧ a.ipDisputes 1 = some dispute ∧ dispute.resolved = true ∧
        dispute.winner = some inventor ∧ s.ipDisputes 1 = some dispute' ∧
          dispute'.winner = some rival := by
  have hplayed : endsIn perform (contested ++ [rulesForInventor]) State.empty (fun a =>
      a.decidedFor 1 inventor && endsIn perform [arbitrates] a fun b => b.decidedFor 1 rival) =
        true := by decide +kernel
  obtain ⟨tr, a, hrun, -, hseen⟩ := played State.empty _ _ hplayed
  simp only [Bool.and_eq_true, State.decidedFor, Option.any_eq_true, decide_eq_true_eq] at hseen
  obtain ⟨⟨dispute, hdispute, hresolved, hwinner⟩, hlater⟩ := hseen
  obtain ⟨b, hends, hoverturned⟩ := endsIn_one hlater
  simp only [Bool.and_eq_true, Option.any_eq_true, decide_eq_true_eq] at hoverturned
  obtain ⟨dispute', hdispute', -, hwinner'⟩ := hoverturned
  exact ⟨(arbitrates, b) :: tr, a, b, dispute, dispute', hrun.next hends,
    List.mem_cons_of_mem _ hrun.mem_visited, hdispute, hresolved, hwinner, hdispute', hwinner'⟩

end Rulings

end AtomicIp.IpRegistry
