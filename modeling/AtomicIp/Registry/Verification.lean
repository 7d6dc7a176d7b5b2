import AtomicIp.Lib.Batch
import AtomicIp.Registry.Rotations

set_option autoImplicit false

namespace AtomicIp.IpRegistry

open Function Tx

structure VerifyRequest where
  ipId : ℕ
  secret : BytesN 32
  blindingFactor : BytesN 32

structure VerifyResult where
  ipId : ℕ
  valid : Bool
  deriving DecidableEq

/-- One entry of a batch; a missing IP fails it. -/
def verifyEntry (env : Env) (ipId : ℕ) (secret blindingFactor : BytesN 32) : RegistryTx Bool := do
  let stored ← Tx.load fun s => s.ipRecord ipId
  match stored with
  | some record => pure (decide (record.commitmentHash = commitmentOf env secret blindingFactor))
  | none => pure false

def batchVerifyCommitments (env : Env) (verifications : List (ℕ × BytesN 32 × BytesN 32)) :
    RegistryTx (List Bool) :=
  Tx.forEach verifications fun entry => verifyEntry env entry.1 entry.2.1 entry.2.2

/-- One request of the later kind of batch; a missing IP ends the batch. -/
def verifyRequest (env : Env) (req : VerifyRequest) : RegistryTx VerifyResult := do
  let record ← requireIpExists req.ipId
  pure ⟨req.ipId, decide (record.commitmentHash = commitmentOf env req.secret req.blindingFactor)⟩

/-- The later `batch_verify_commitments`. -/
def batchVerifyCommitmentRequests (env : Env) (requests : List VerifyRequest) :
    RegistryTx (List VerifyResult) :=
  Tx.forEach requests (verifyRequest env)

def VerifyRequest.entry (req : VerifyRequest) : ℕ × BytesN 32 × BytesN 32 :=
  (req.ipId, req.secret, req.blindingFactor)

/-- The request opens the hash the IP stands under. -/
def VerifyRequest.Opens (crypto : Crypto) (s : State) (req : VerifyRequest) : Prop :=
  s.hashOf req.ipId = some (crypto.sha256 (req.secret.bytes ++ req.blindingFactor.bytes))

instance {crypto : Crypto} {s : State} : DecidablePred (VerifyRequest.Opens crypto s) :=
  fun _ => inferInstanceAs (Decidable (_ = _))

section Answers

variable {env : Env} {s : State} {r : IpRecord} {req : VerifyRequest}

theorem opens_iff (hr : s.ipRecord req.ipId = some r) : req.Opens env.crypto s ↔
    r.commitmentHash = commitmentOf env req.secret req.blindingFactor := by
  rw [VerifyRequest.Opens, State.hashOf, hr, Option.map_some, Option.some.injEq]
  rfl

theorem requireIpExists_missing {i : ℕ} (hr : s.ipRecord i = none) :
    requireIpExists i s = .error (.contract .ipNotFound) := by
  rw [requireIpExists, Tx.load_bind, hr]
  rfl

theorem verifyCommitment_answers (hr : (s.ipRecord req.ipId).isSome) :
    verifyCommitment env req.ipId req.secret req.blindingFactor s =
      .ok (decide (req.Opens env.crypto s), s) := by
  obtain ⟨r, hr⟩ := Option.isSome_iff_exists.mp hr
  rw [verifyCommitment, bind_of_ok (requireIpExists_ok.mpr ⟨hr, rfl⟩)]
  exact congrArg (fun b => Except.ok (b, s)) (decide_eq_decide.mpr (opens_iff hr).symm)

theorem verifyCommitment_missing (hr : s.ipRecord req.ipId = none) :
    verifyCommitment env req.ipId req.secret req.blindingFactor s =
      .error (.contract .ipNotFound) := by
  rw [verifyCommitment, bind_of_error (requireIpExists_missing hr)]

theorem verifyEntry_answers (req : VerifyRequest) :
    verifyEntry env req.ipId req.secret req.blindingFactor s =
      .ok (decide (req.Opens env.crypto s), s) := by
  rw [verifyEntry, Tx.load_bind]
  cases hr : s.ipRecord req.ipId with
  | some r => exact congrArg (fun b => Except.ok (b, s)) (decide_eq_decide.mpr (opens_iff hr).symm)
  | none =>
    have hnot : ¬ req.Opens env.crypto s := by
      rw [VerifyRequest.Opens, State.hashOf, hr]
      rintro ⟨⟩
    exact congrArg (fun b => Except.ok (b, s)) (decide_eq_false hnot).symm

theorem verifyRequest_answers (hr : (s.ipRecord req.ipId).isSome) :
    verifyRequest env req s = .ok (⟨req.ipId, decide (req.Opens env.crypto s)⟩, s) := by
  obtain ⟨r, hr⟩ := Option.isSome_iff_exists.mp hr
  rw [verifyRequest, bind_of_ok (requireIpExists_ok.mpr ⟨hr, rfl⟩)]
  exact congrArg (fun b => Except.ok (VerifyResult.mk req.ipId b, s))
    (decide_eq_decide.mpr (opens_iff hr).symm)

theorem verifyRequest_missing (hr : ¬ (s.ipRecord req.ipId).isSome) :
    verifyRequest env req s = .error (.contract .ipNotFound) := by
  rw [verifyRequest,
    bind_of_error (requireIpExists_missing (Option.not_isSome_iff_eq_none.mp hr))]

theorem batchVerifyCommitments_answers (requests : List VerifyRequest) :
    batchVerifyCommitments env (requests.map VerifyRequest.entry) s =
      .ok (requests.map fun req => decide (req.Opens env.crypto s), s) := by
  have hread : batchVerifyCommitments env (requests.map VerifyRequest.entry) s =
      .ok ((requests.map VerifyRequest.entry).map fun entry =>
        decide (VerifyRequest.Opens env.crypto s ⟨entry.1, entry.2.1, entry.2.2⟩), s) :=
    forEach_reads fun entry _ => verifyEntry_answers ⟨entry.1, entry.2.1, entry.2.2⟩
  rw [List.map_map] at hread
  exact hread

end Answers

section Runs

variable {env : Env} {s : State} {i : ℕ} {tr : List (Act × State)}

theorem run_hashOf (hrun : Run (ActStep env.crypto) State.empty tr s) (i : ℕ) :
    s.hashOf i = (history (State.hashOf · i) State.empty tr).getLast? := by
  have hlogged := run_logged hrun i
  rw [← hlogged.hashes, State.hashes]
  cases hhash : s.hashOf i with
  | some hash => simp
  | none => simp [hlogged.absent hhash]

/-- In every run a single verification and both kinds of batch answer, for each request, whether
its secret opens the last hash in the history of its IP. For a missing IP one batch answers no,
and the other ends as a single verification does. -/
theorem verifications_agree (hrun : Run (ActStep env.crypto) State.empty tr s) :
    ∃ opens : VerifyRequest → Bool,
      (∀ req, opens req = true ↔ (history (State.hashOf · req.ipId) State.empty tr).getLast? =
        some (env.crypto.sha256 (req.secret.bytes ++ req.blindingFactor.bytes))) ∧
      (∀ req, verifyCommitment env req.ipId req.secret req.blindingFactor s =
        if (s.ipRecord req.ipId).isSome then .ok (opens req, s)
        else .error (.contract .ipNotFound)) ∧
      (∀ requests : List VerifyRequest,
        batchVerifyCommitments env (requests.map VerifyRequest.entry) s =
          .ok (requests.map opens, s)) ∧
      ∀ requests, batchVerifyCommitmentRequests env requests s =
        if ∀ req ∈ requests, (s.ipRecord req.ipId).isSome
        then .ok (requests.map fun req => ⟨req.ipId, opens req⟩, s)
        else .error (.contract .ipNotFound) := by
  refine ⟨fun req => decide (req.Opens env.crypto s), fun req => ?_, fun req => ?_,
    batchVerifyCommitments_answers, fun requests => ?_⟩
  · rw [decide_eq_true_iff, VerifyRequest.Opens, run_hashOf hrun]
  · by_cases hr : (s.ipRecord req.ipId).isSome
    · rw [if_pos hr, verifyCommitment_answers hr]
    · rw [if_neg hr, verifyCommitment_missing (Option.not_isSome_iff_eq_none.mp hr)]
  · by_cases hall : ∀ req ∈ requests, (s.ipRecord req.ipId).isSome
    · rw [if_pos hall]
      exact forEach_reads fun req hreq => verifyRequest_answers (hall req hreq)
    · rw [if_neg hall]
      exact forEach_refused (fun _ => verifyRequest_answers) (fun _ => verifyRequest_missing) hall

end Runs

section Designs

open Scenario

def onlooker : Env := ⟨Scenario.crypto, 9, [], 10⟩

theorem design_verified : ∃ (tr : List (Act × State)) (s : State) (opens : VerifyRequest → Bool),
    Run (ActStep onlooker.crypto) State.empty tr s ∧
      verifyCommitment onlooker 1 secret secret s = .ok (opens ⟨1, secret, secret⟩, s) ∧
      batchVerifyCommitments onlooker [(1, secret, secret), (2, secret, secret)] s =
        .ok ([opens ⟨1, secret, secret⟩, opens ⟨2, secret, secret⟩], s) ∧
      batchVerifyCommitmentRequests onlooker [⟨1, secret, secret⟩, ⟨2, secret, secret⟩] s =
        .error (.contract .ipNotFound) := by
  obtain ⟨tr, s, hrun, -, hseen⟩ := played State.empty
    [act 5 inventor (.commitIp inventor design 0)]
    (fun s => (s.ipRecord 1).isSome && (s.ipRecord 2).isNone) (by decide)
  simp only [Bool.and_eq_true, Option.isNone_iff_eq_none] at hseen
  obtain ⟨opens, -, hsingle, hbatch, hrequests⟩ :=
    verifications_agree (show Run (ActStep onlooker.crypto) State.empty tr s from hrun)
  refine ⟨tr, s, opens, hrun, ?_, hbatch [⟨1, secret, secret⟩, ⟨2, secret, secret⟩], ?_⟩
  · rw [hsingle ⟨1, secret, secret⟩, if_pos hseen.1]
  · rw [hrequests, if_neg]
    intro hall
    have hmissing := hall ⟨2, secret, secret⟩ (by simp)
    rw [hseen.2] at hmissing
    cases hmissing

end Designs

end AtomicIp.IpRegistry
