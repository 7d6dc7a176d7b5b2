import AtomicIp.Lib.Numbered
import AtomicIp.Registry.Arbitration
import AtomicIp.Registry.Challenges
import AtomicIp.Registry.Records

set_option autoImplicit false

namespace AtomicIp.IpRegistry

open Function Tx

structure Page where
  disclosure : Option (BytesN 32)
  licenses : Option (List LicenseEntry)
  price : Option ℤ
  grants : Option (List IpAccessGrant)
  renewals : Option ℕ
  stake : Option StakeRecord
  threshold : Option ThresholdConfig
  signatures : Option (List ThresholdSignature)
  metadata : Option BatchMetadata
  compression : Option CompressionSelection
  encryption : Option EncryptedCommitmentRecord

def State.page (s : State) (i : ℕ) : Page where
  disclosure := s.partialDisclosure i
  licenses := s.ipLicenses i
  price := s.suggestedPrice i
  grants := s.ipAccessGrants i
  renewals := s.renewalCount i
  stake := s.ipStake i
  threshold := s.thresholdConfig i
  signatures := s.thresholdSignatures i
  metadata := s.batchMetadata i
  compression := s.compressionSelection i
  encryption := s.encryptedCommitment i

def Page.blank : Page where
  disclosure := none
  licenses := none
  price := none
  grants := none
  renewals := none
  stake := none
  threshold := none
  signatures := none
  metadata := none
  compression := none
  encryption := none

/-- The rows of a page that carry an IP carry this one. -/
structure Page.Names (p : Page) (i : ℕ) : Prop where
  stake : ∀ row, p.stake = some row → row.ipId = i
  threshold : ∀ row, p.threshold = some row → row.ipId = i
  metadata : ∀ row, p.metadata = some row → row.ipId = i
  compression : ∀ row, p.compression = some row → row.ipId = i
  encryption : ∀ row, p.encryption = some row → row.ipId = i

theorem Page.Names.blank {i : ℕ} : Page.blank.Names i :=
  ⟨nofun, nofun, nofun, nofun, nofun⟩

section Pages

variable {crypto : Crypto} {s s' : State} {act : Act} {i k : ℕ}

/-- One page was written, that of an IP with a record or a stake. -/
structure Turned (k : ℕ) (s s' : State) : Prop where
  known : (s.ipRecord k).isSome ∨ (s.page k).stake.isSome
  others : ∀ j, j ≠ k → s'.page j = s.page j
  names : (s.page k).Names k → (s'.page k).Names k

theorem blind_page {t : Table} (h : t ∉ [.disclosures, .licenses, .prices, .grants, .renewals,
    .stakes, .thresholds, .metadata, .compressions, .encryptions]) : Blind t State.page := by
  cases t with
  | admin | ledger | ownerIps | derived | ratings | challenges | notary | delegations | disputes
  | reputations | arbitrations | categories | events => exact ⟨fun _ => rfl⟩
  | _ => exact absurd (by simp) h

theorem ActStep.turned (hact : ActStep crypto s act s') :
    s'.page = s.page ∨ ∃ k, Turned k s s' := by
  obtain ⟨timestamp, auths, budget, call⟩ := act
  unfold ActStep at hact
  cases call with
  | revealPartial ipId =>
    simp [exec, revealPartial] at hact
    obtain ⟨-, -, -, -, rfl⟩ | ⟨r, hr, -, -, rfl⟩ := hact
    · exact .inl rfl
    · exact .inr ⟨ipId, .inl (by simp [hr]),
        fun j hj => by simp [State.page, State.setPartialDisclosure, State.published, hj],
        fun h => { h with }⟩
  | grantLicense ipId | setIpSuggestedPrice ipId =>
    simp [exec, grantLicense, setIpSuggestedPrice] at hact
    obtain ⟨r, hr, -, rfl⟩ := hact
    exact .inr ⟨ipId, .inl (by simp [hr]),
      fun j hj => by simp [State.page, State.setIpLicenses, State.setSuggestedPrice, hj],
      fun h => { h with }⟩
  | revokeLicense ipId | grantIpAccess ipId =>
    simp [exec, revokeLicense, grantIpAccess] at hact
    obtain ⟨r, hr, -, -, rfl⟩ := hact
    exact .inr ⟨ipId, .inl (by simp [hr]), fun j hj => by
      simp [State.page, State.setIpLicenses, State.setIpAccessGrants, State.published, hj],
      fun h => { h with }⟩
  | revokeIpAccess ipId =>
    simp [exec, revokeIpAccess] at hact
    obtain ⟨r, hr, -, ⟨-, rfl⟩ | ⟨-, rfl⟩⟩ := hact
    · exact .inr ⟨ipId, .inl (by simp [hr]),
        fun j hj => by simp [State.page, State.setIpAccessGrants, State.published, hj],
        fun h => { h with }⟩
    · exact .inl rfl
  | renewIp ipId =>
    simp [exec, renewIp] at hact
    obtain ⟨r, hr, -, -, -, rfl⟩ := hact
    exact .inr ⟨ipId, .inl (by simp [hr]),
      fun j hj => by simp [State.page, State.setRenewalCount, State.published, hj],
      fun h => { h with }⟩
  | stakeCommitment ipId =>
    simp [exec, stakeCommitment] at hact
    obtain ⟨r, hr, -, -, rfl⟩ := hact
    exact .inr ⟨ipId, .inl (by simp [hr]),
      fun j hj => by simp [State.page, State.setIpStake, State.published, hj],
      fun h => { h with
        stake := by simp [State.page, State.setIpStake, State.published] }⟩
  | unstake ipId =>
    simp [exec, unstake] at hact
    obtain ⟨stake, hstake, -, -, rfl⟩ := hact
    exact .inr ⟨ipId, .inr (by simp [State.page, hstake]),
      fun j hj => by simp [State.page, State.setIpStake, State.published, hj],
      fun h => { h with
        stake := by simp [State.page, State.setIpStake, State.published] }⟩
  | slashStake ipId =>
    simp [exec, slashStake] at hact
    obtain ⟨-, stake, hstake, -, -, rfl⟩ := hact
    exact .inr ⟨ipId, .inr (by simp [State.page, hstake]),
      fun j hj => by
        simp [State.page, State.setIpStake, State.setOwnerReputation, State.published, hj],
      fun h => { h with
        stake := by
          simpa [State.page, State.setIpStake, State.setOwnerReputation, State.published]
            using h.stake stake hstake }⟩
  | requireThresholdSignatures ipId =>
    simp [exec, requireThresholdSignatures] at hact
    obtain ⟨⟨r, hr⟩, -, rfl⟩ := hact
    exact .inr ⟨ipId, .inl (by simp [hr]),
      fun j hj => by
        simp [State.page, State.setThresholdConfig, State.setThresholdSignatures, hj],
      fun h => { h with
        threshold := by
          simp [State.page, State.setThresholdConfig, State.setThresholdSignatures] }⟩
  | addThresholdSignature ipId =>
    simp [exec, addThresholdSignature] at hact
    obtain ⟨⟨r, hr⟩, config, -, -, -, rfl⟩ := hact
    exact .inr ⟨ipId, .inl (by simp [hr]),
      fun j hj => by simp [State.page, State.setThresholdSignatures, hj], fun h => { h with }⟩
  | setBatchMetadata ipId =>
    simp [exec, setBatchMetadata] at hact
    obtain ⟨⟨r, hr⟩, -, rfl⟩ := hact
    exact .inr ⟨ipId, .inl (by simp [hr]),
      fun j hj => by simp [State.page, State.setBatchMetadata, hj],
      fun h => { h with metadata := by simp [State.page, State.setBatchMetadata] }⟩
  | setCommitmentCompression ipId =>
    simp [exec, setCommitmentCompression] at hact
    obtain ⟨⟨r, hr⟩, rfl⟩ := hact
    exact .inr ⟨ipId, .inl (by simp [hr]),
      fun j hj => by simp [State.page, State.setCompressionSelection, hj],
      fun h => { h with compression := by simp [State.page, State.setCompressionSelection] }⟩
  | encryptCommitment ipId =>
    simp [exec, encryptCommitment] at hact
    obtain ⟨⟨r, hr⟩, -, rfl⟩ := hact
    exact .inr ⟨ipId, .inl (by simp [hr]),
      fun j hj => by simp [State.page, State.setEncryptedCommitment, hj],
      fun h => { h with encryption := by simp [State.page, State.setEncryptedCommitment] }⟩
  | _ =>
    refine .inl (exec_frame State.page hact fun t ht => blind_page fun hmem => ?_)
    simp only [List.mem_cons, List.not_mem_nil, or_false] at hmem
    rcases hmem with rfl | rfl | rfl | rfl | rfl | rfl | rfl | rfl | rfl | rfl <;>
      simp [Call.writes] at ht

theorem ActStep.registered (hact : ActStep crypto s act s') (hwf : s.ledger.Wf)
    (hr : (s.ipRecord i).isSome) : (s'.ipRecord i).isSome := by
  obtain ⟨r, hr⟩ := Option.isSome_iff_exists.mp hr
  obtain ⟨r', hr', -⟩ := exec_edits hact hwf hr
  exact Option.isSome_iff_exists.mpr ⟨r', hr'⟩

/-- Pages are blank but for the registered IPs', and each names its IP. -/
structure Filed (s : State) : Prop where
  unregistered : ∀ i, s.ipRecord i = none → s.page i = Page.blank
  named : ∀ i, (s.page i).Names i

theorem Filed.empty : Filed State.empty := ⟨fun _ _ => rfl, fun _ => .blank⟩

theorem Filed.next (h : Filed s) (hact : ActStep crypto s act s') (hwf : s.ledger.Wf) :
    Filed s' := by
  have hold : ∀ i, s'.ipRecord i = none → s.ipRecord i = none := by
    intro i hnone
    by_contra hsome
    have hlater := hact.registered hwf (Option.isSome_iff_ne_none.mpr hsome)
    rw [hnone] at hlater
    cases hlater
  rcases hact.turned with hsame | ⟨k, hturned⟩
  · exact ⟨fun i hnone => hsame ▸ h.unregistered i (hold i hnone), fun i => hsame ▸ h.named i⟩
  · have hknown : (s.ipRecord k).isSome := by
      by_contra hnone
      have hblank := h.unregistered k (Option.not_isSome_iff_eq_none.mp hnone)
      rcases hturned.known with hsome | hstaked
      · exact hnone hsome
      · rw [hblank] at hstaked
        cases hstaked
    constructor
    · intro i hnone
      have hne : i ≠ k := by
        rintro rfl
        rw [hold i hnone] at hknown
        cases hknown
      rw [hturned.others i hne]
      exact h.unregistered i (hold i hnone)
    · intro i
      by_cases hi : i = k
      · subst hi
        exact hturned.names (h.named i)
      · rw [hturned.others i hi]
        exact h.named i

end Pages

section Books

/-! The numbered tables and what a call may do to them. -/

def State.challengeBook (s : State) : Register OwnershipChallenge :=
  ⟨s.ownershipChallenge, s.nextChallengeId⟩

def State.disputeBook (s : State) : Register DisputeRecord := ⟨s.ipDisputes, s.nextDisputeId⟩

def State.caseBook (s : State) : Register ArbitrationRecord :=
  ⟨s.arbitrationCase, s.nextArbitrationId⟩

variable {crypto : Crypto} {s s' : State} {act : Act}

def OwnershipChallenge.Fresh (s : State) (c : OwnershipChallenge) : Prop :=
  (s.ipRecord c.ipId).isSome ∧ c.verified = false

/-- A challenge stays with its IP, and is verified by a response only. -/
def OwnershipChallenge.Follows (c c' : OwnershipChallenge) : Prop :=
  c'.ipId = c.ipId ∧ (c'.verified = true → c'.responseHash.isSome)

def DisputeRecord.Fresh (s : State) (d : DisputeRecord) : Prop :=
  (s.ipRecord d.ipId).isSome ∧ d.resolved = false ∧ d.winner = none

def DisputeRecord.Follows (d d' : DisputeRecord) : Prop :=
  d'.ipId = d.ipId ∧ (d.resolved = true → d'.resolved = true) ∧
    ((d.resolved = true ↔ d.winner.isSome) → (d'.resolved = true ↔ d'.winner.isSome))

def ArbitrationRecord.Fresh (s : State) (case : ArbitrationRecord) : Prop :=
  (s.ipDisputes case.disputeId).isSome ∧ case.finalized = false ∧ case.winner = none

def ArbitrationRecord.Rests (s : State) (case : ArbitrationRecord) : Prop :=
  ∃ d, s.ipDisputes case.disputeId = some d ∧ (case.finalized = true → d.resolved = true)

def ArbitrationRecord.Follows (s' : State) (case case' : ArbitrationRecord) : Prop :=
  (case.Rests s' → case'.Rests s') ∧
    ((case.finalized = true ↔ case.winner.isSome) → (case'.finalized = true ↔ case'.winner.isSome))

theorem blind_challengeBook {t : Table} (h : t ≠ .challenges) : Blind t State.challengeBook := by
  cases t with
  | challenges => exact absurd rfl h
  | _ => exact ⟨fun _ => rfl⟩

theorem blind_disputeBook {t : Table} (h : t ≠ .disputes) : Blind t State.disputeBook := by
  cases t with
  | disputes => exact absurd rfl h
  | _ => exact ⟨fun _ => rfl⟩

theorem blind_caseBook {t : Table} (h : t ≠ .arbitrations) : Blind t State.caseBook := by
  cases t with
  | arbitrations => exact absurd rfl h
  | _ => exact ⟨fun _ => rfl⟩

theorem ActStep.challengeEdit (hact : ActStep crypto s act s') :
    Register.Edit OwnershipChallenge.challengeId (OwnershipChallenge.Fresh s)
      OwnershipChallenge.Follows s.challengeBook s'.challengeBook := by
  obtain ⟨timestamp, auths, budget, call⟩ := act
  unfold ActStep at hact
  cases call with
  | issueOwnershipChallenge ipId challenger nonce =>
    simp [exec, issueOwnershipChallenge] at hact
    obtain ⟨-, ⟨r, hr⟩, -, rfl⟩ := hact
    exact .appended _ rfl ⟨by simp [hr], rfl⟩ rfl
  | respondToOwnershipChallenge id response =>
    simp [exec, respondToOwnershipChallenge] at hact
    obtain ⟨challenge, hchallenge, -, -, -, rfl⟩ := hact
    exact .rewritten id challenge { challenge with responseHash := some response } hchallenge rfl
      ⟨rfl, fun _ => rfl⟩ rfl
  | verifyOwnershipChallenge id =>
    obtain ⟨valid, hact⟩ := Tx.void_ok.mp hact
    cases valid with
    | true =>
      obtain ⟨challenge, r, hchallenge, -, hresponse, rfl⟩ := verifyOwnershipChallenge_ok.mp hact
      exact .rewritten id challenge { challenge with verified := true } hchallenge rfl
        ⟨rfl, fun _ => by rw [hresponse]; rfl⟩ rfl
    | false => exact .kept (congrArg State.challengeBook (verifyOwnershipChallenge_failed hact))
  | _ =>
    refine .kept (exec_frame State.challengeBook hact fun t ht => blind_challengeBook ?_)
    rintro rfl
    simp [Call.writes] at ht

theorem ActStep.disputeEdit (hact : ActStep crypto s act s') :
    Register.Edit DisputeRecord.disputeId (DisputeRecord.Fresh s) DisputeRecord.Follows
      s.disputeBook s'.disputeBook := by
  obtain ⟨timestamp, auths, budget, call⟩ := act
  unfold ActStep at hact
  cases call with
  | initiateDispute ipId challenger hash =>
    obtain ⟨id, hact⟩ := Tx.void_ok.mp hact
    obtain ⟨-, ⟨r, hr⟩, rfl, -, rfl⟩ := initiateDispute_ok.mp hact
    exact .appended _ rfl ⟨Option.isSome_iff_exists.mpr ⟨r, hr⟩, rfl, rfl⟩ rfl
  | submitDisputeEvidence id submitter hash =>
    obtain ⟨-, dispute, r, hdispute, -, -, -, rfl⟩ := submitDisputeEvidence_ok.mp hact
    exact .rewritten id dispute { dispute with evidenceHash := hash } hdispute rfl
      ⟨rfl, fun h => h, fun h => h⟩ rfl
  | resolveDispute id winner =>
    obtain ⟨-, dispute, hdispute, -, rfl⟩ := resolveDispute_ok.mp hact
    exact .rewritten id dispute (dispute.resolve winner) hdispute rfl
      ⟨rfl, fun _ => rfl, fun _ => iff_of_true rfl rfl⟩ rfl
  | finalizeArbitration arbitrationId =>
    obtain ⟨-, case, dispute, r, -, -, hdispute, -, rfl⟩ := finalizeArbitration_ok.mp hact
    exact .rewritten case.disputeId dispute (dispute.resolve (case.favours dispute r)) hdispute rfl
      ⟨rfl, fun _ => rfl, fun _ => iff_of_true rfl rfl⟩ rfl
  | _ =>
    refine .kept (exec_frame State.disputeBook hact fun t ht => blind_disputeBook ?_)
    rintro rfl
    simp [Call.writes] at ht

theorem ActStep.caseEdit (hact : ActStep crypto s act s') :
    Register.Edit ArbitrationRecord.arbitrationId (ArbitrationRecord.Fresh s)
      (ArbitrationRecord.Follows s') s.caseBook s'.caseBook := by
  obtain ⟨timestamp, auths, budget, call⟩ := act
  unfold ActStep at hact
  cases call with
  | nominateArbitrator arbitrator =>
    obtain ⟨admin, -, ⟨-, rfl⟩ | ⟨-, rfl⟩⟩ := nominateArbitrator_ok.mp hact
    · exact .kept rfl
    · exact .kept rfl
  | openArbitration disputeId =>
    obtain ⟨id, hact⟩ := Tx.void_ok.mp hact
    obtain ⟨-, ⟨dispute, hdispute⟩, rfl, -, rfl⟩ := openArbitration_ok.mp hact
    exact .appended _ rfl ⟨Option.isSome_iff_exists.mpr ⟨dispute, hdispute⟩, rfl, rfl⟩ rfl
  | voteOnDispute id voter forOwner =>
    obtain ⟨-, case, hcase, -, -, rfl⟩ := voteOnDispute_ok hact
    exact .rewritten id case (case.voted forOwner) hcase rfl ⟨fun h => h, fun h => h⟩ rfl
  | finalizeArbitration id =>
    obtain ⟨-, case, dispute, r, hcase, -, hdispute, -, rfl⟩ := finalizeArbitration_ok.mp hact
    refine .rewritten id case (case.wonBy (case.favours dispute r)) hcase rfl
      ⟨fun _ => ?_, fun _ => iff_of_true rfl rfl⟩ rfl
    exact ⟨dispute.resolve (case.favours dispute r), update_self .., fun _ => rfl⟩
  | _ =>
    refine .kept (exec_frame State.caseBook hact fun t ht => blind_caseBook ?_)
    rintro rfl
    simp [Call.writes] at ht

end Books

section Runs

variable {crypto : Crypto} {s s' : State} {act : Act} {tr : List (Act × State)}

structure Coherent (s : State) : Prop where
  filed : Filed s
  challenges : s.challengeBook.Numbered OwnershipChallenge.challengeId
  disputes : s.disputeBook.Numbered DisputeRecord.disputeId
  cases : s.caseBook.Numbered ArbitrationRecord.arbitrationId
  challenged : ∀ id c, s.ownershipChallenge id = some c →
    (s.ipRecord c.ipId).isSome ∧ (c.verified = true → c.responseHash.isSome)
  disputed : ∀ id d, s.ipDisputes id = some d →
    (s.ipRecord d.ipId).isSome ∧ (d.resolved = true ↔ d.winner.isSome)
  arbitrated : ∀ id case, s.arbitrationCase id = some case →
    case.Rests s ∧ (case.finalized = true ↔ case.winner.isSome)

theorem Coherent.empty : Coherent State.empty where
  filed := .empty
  challenges := .empty
  disputes := .empty
  cases := .empty
  challenged id c hc := by cases (show none = some c from hc)
  disputed id d hd := by cases (show none = some d from hd)
  arbitrated id case hcase := by cases (show none = some case from hcase)

theorem ArbitrationRecord.Rests.next {case : ArbitrationRecord} (h : case.Rests s)
    (hdisputes : s.disputeBook.Numbered DisputeRecord.disputeId)
    (hact : ActStep crypto s act s') : case.Rests s' := by
  obtain ⟨d, hd, hresolved⟩ := h
  obtain ⟨d', hd', rfl | hfollows⟩ := hact.disputeEdit.later hdisputes hd
  · exact ⟨d', hd', hresolved⟩
  · exact ⟨d', hd', fun hover => hfollows.2.1 (hresolved hover)⟩

theorem Coherent.next (h : Coherent s) (hact : ActStep crypto s act s') (hwf : s.ledger.Wf) :
    Coherent s' where
  filed := h.filed.next hact hwf
  challenges := h.challenges.edit hact.challengeEdit
  disputes := h.disputes.edit hact.disputeEdit
  cases := h.cases.edit hact.caseEdit
  challenged := by
    refine hact.challengeEdit.forall_rows (fun c hfresh => ?_) (fun c c' hc hfollows => ?_)
      fun id c hc => ?_
    · exact ⟨hact.registered hwf hfresh.1, fun hverified => by cases hfresh.2.symm.trans hverified⟩
    · exact ⟨hfollows.1 ▸ hc.1, hfollows.2⟩
    · exact ⟨hact.registered hwf (h.challenged id c hc).1, (h.challenged id c hc).2⟩
  disputed := by
    refine hact.disputeEdit.forall_rows (fun d hfresh => ?_) (fun d d' hd hfollows => ?_)
      fun id d hd => ?_
    · refine ⟨hact.registered hwf hfresh.1, ?_⟩
      rw [hfresh.2.1, hfresh.2.2]
      simp
    · exact ⟨hfollows.1 ▸ hd.1, hfollows.2.2 hd.2⟩
    · exact ⟨hact.registered hwf (h.disputed id d hd).1, (h.disputed id d hd).2⟩
  arbitrated := by
    refine hact.caseEdit.forall_rows (fun case hfresh => ?_) (fun case case' hcase hfollows => ?_)
      fun id case hcase => ?_
    · obtain ⟨d, hd⟩ := Option.isSome_iff_exists.mp hfresh.1
      have hopen : case.Rests s := ⟨d, hd, fun hover => by cases hfresh.2.1.symm.trans hover⟩
      refine ⟨hopen.next h.disputes hact, ?_⟩
      rw [hfresh.2.1, hfresh.2.2]
      simp
    · exact ⟨hfollows.1 hcase.1, hfollows.2 hcase.2⟩
    · exact ⟨(h.arbitrated id case hcase).1.next h.disputes hact, (h.arbitrated id case hcase).2⟩

/-- In every run no row of any table stands alone. What is stored beside an IP is a registered
one's and names it; challenges, disputes and cases are numbered without gaps; challenges and
disputes are of registered IPs, and cases of disputes that are resolved when the cases are over. -/
theorem tables_coherent (hrun : Run (ActStep crypto) State.empty tr s) : Coherent s := by
  induction hrun with
  | start => exact .empty
  | next hrun hact ih => exact ih.next hact (run_wf hrun)

end Runs

section Designs

open Scenario

theorem design_disputed : ∃ (tr : List (Act × State)) (s : State),
    Run (ActStep Scenario.crypto) State.empty tr s ∧ (s.ipDisputes 1).isSome ∧ Coherent s := by
  obtain ⟨tr, s, hrun, -, hseen⟩ := played State.empty
    [act 5 inventor (.commitIp inventor design 0),
      act 6 inventor (.stakeCommitment 1 50),
      act 7 rival (.initiateDispute 1 rival laterDesign)]
    (fun s => (s.ipDisputes 1).isSome) (by decide)
  exact ⟨tr, s, hrun, hseen, tables_coherent hrun⟩

end Designs

end AtomicIp.IpRegistry
