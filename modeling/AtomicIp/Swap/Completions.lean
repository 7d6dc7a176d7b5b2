import AtomicIp.Swap.Tables

set_option autoImplicit false

namespace AtomicIp.AtomicSwap

open Function Tx

/-- What completing the swap `i` leaves behind. -/
structure SameOutcome (i : ℕ) (s s' : State) : Prop where
  balance : s.balance = s'.balance
  swap : s.swap i = s'.swap i
  history : s.swapHistory i = s'.swapHistory i
  reputation : s.userReputation = s'.userReputation
  completion : s.completionTimestamp i = s'.completionTimestamp i

section Traces

instance : Aside State.swapHistory := ⟨fun _ _ _ => rfl⟩

instance : Aside State.completionTimestamp := ⟨fun _ _ _ => rfl⟩

instance : Blind .completions State.swapHistory := ⟨fun _ => rfl⟩

instance : Blind .reputation State.swapHistory := ⟨fun _ => rfl⟩

instance : Blind .reputation State.completionTimestamp := ⟨fun _ => rfl⟩

instance : Blind .history State.completionTimestamp := ⟨fun _ => rfl⟩

variable {env : Env} {i : ℕ} {caller : Address} {secret blindingFactor : BytesN 32}
  {s s' : State}

def logged (env : Env) (i : ℕ) (q : SwapStatus) (history : ℕ → Option (List SwapHistoryEntry)) :
    ℕ → Option (List SwapHistoryEntry) :=
  update history i (some ((history i).getD [] ++ [⟨q, env.timestamp⟩]))

instance (q : SwapStatus) : Turns State.swapHistory (logged env i q) (appendHistory env i q) where
  turned s u s' h := by rw [Tx.store_ok.mp h]; rfl

instance : Turns State.swapHistory (logged env i .completed)
    (revealKey env i caller secret blindingFactor) := by
  unfold revealKey
  repeat refine Turns.step fun _ => ?_
  refine Turns.here fun _ => ?_
  repeat refine Keeps.step fun _ => ?_
  infer_instance

instance : Turns State.completionTimestamp (fun table => update table i (some env.timestamp))
    (Tx.store fun s => s.setCompletionTimestamp i (some env.timestamp) : SwapTx Unit) where
  turned s u s' h := by rw [Tx.store_ok.mp h]; rfl

instance : Turns State.completionTimestamp (fun table => update table i (some env.timestamp))
    (revealKey env i caller secret blindingFactor) := by
  unfold revealKey
  repeat refine Turns.step fun _ => ?_
  refine Turns.here fun _ => ?_
  repeat refine Keeps.step fun _ => ?_
  infer_instance

end Traces

section Outcomes

variable {env : Env} {i : ℕ} {caller : Address} {secret blindingFactor : BytesN 32}
  {s s₁ s₂ s₃ : State}

theorem logged_ne (q : SwapStatus) (history : ℕ → Option (List SwapHistoryEntry)) :
    logged env i q history i ≠ history i := by
  intro h
  have hlength := congrArg (fun entries => (entries.getD []).length) h
  simp [logged] at hlength

theorem verified_differs (h₁ : revealKey env i caller secret blindingFactor s = .ok ((), s₁))
    (h₂ : verifyAndCompleteSwap env i caller secret blindingFactor s = .ok ((), s₂)) :
    s₁.swapHistory i ≠ s₂.swapHistory i := by
  rw [Turns.eq State.swapHistory (logged env i .completed) h₁, Keeps.eq State.swapHistory h₂]
  exact logged_ne .completed s.swapHistory

theorem batch_differs (h₁ : revealKey env i caller secret blindingFactor s = .ok ((), s₁))
    (h₃ : batchRevealKeys env [i] [secret] [blindingFactor] caller s = .ok ((), s₃))
    (hclosed : s.completionTimestamp i ≠ some env.timestamp) :
    s₁.completionTimestamp i ≠ s₃.completionTimestamp i := by
  have hopened := Turns.eq State.completionTimestamp
    (fun table => update table i (some env.timestamp)) h₁
  rw [hopened, Keeps.eq State.completionTimestamp h₃]
  simpa using hclosed.symm

/-- Where `reveal_key` succeeds, the other two never both do and leave what it leaves; the batch
on its own does not, unless the rollback window was already open. -/
theorem completions_never_agree
    (h : revealKey env i caller secret blindingFactor s = .ok ((), s₁)) :
    (¬ ∃ s₂ s₃, verifyAndCompleteSwap env i caller secret blindingFactor s = .ok ((), s₂) ∧
      batchRevealKeys env [i] [secret] [blindingFactor] caller s = .ok ((), s₃) ∧
      SameOutcome i s₁ s₂ ∧ SameOutcome i s₁ s₃) ∧
    ∀ s₃, batchRevealKeys env [i] [secret] [blindingFactor] caller s = .ok ((), s₃) →
      s.completionTimestamp i ≠ some env.timestamp → ¬ SameOutcome i s₁ s₃ := by
  constructor
  · intro hagree
    obtain ⟨s₂, s₃, hverify, -, hsame, -⟩ := hagree
    exact verified_differs h hverify hsame.history
  · intro s₃ hbatch hclosed hsame
    exact batch_differs h hbatch hclosed hsame.completion

end Outcomes

section Runs

open Scenario

theorem sale_completions_never_agree : ∃ s s₁,
    revealKey (env [seller] 3) 0 seller secret secret s = .ok ((), s₁) ∧
    ¬ ∃ s₂ s₃, verifyAndCompleteSwap (env [seller] 3) 0 seller secret secret s = .ok ((), s₂) ∧
      batchRevealKeys (env [seller] 3) [0] [secret] [secret] seller s = .ok ((), s₃) ∧
      SameOutcome 0 s₁ s₂ ∧ SameOutcome 0 s₁ s₃ := by
  obtain ⟨tr, s, s₁, -, hreveal, -⟩ := watched Always funds sale (env [seller] 3)
    (.revealKey 0 seller secret secret) (fun _ _ => true) (by decide) (by simp [Always])
  exact ⟨s, s₁, hreveal, (completions_never_agree hreveal).1⟩

/-- The collateral of one sale: the buyer's again after `reveal_key`, the seller's after
either of the others. -/
theorem collateral_goes_elsewhere : ∃ tr s s₁ s₂ s₃,
    Run (Restrict ActStep Always) (State.empty funds) tr s ∧
    revealKey (env [seller] 3) 0 seller secret secret s = .ok ((), s₁) ∧
    verifyAndCompleteSwap (env [seller] 3) 0 seller secret secret s = .ok ((), s₂) ∧
    batchRevealKeys (env [seller] 3) [0] [secret] [secret] seller s = .ok ((), s₃) ∧
    s₁.balance token buyer = s₂.balance token buyer + 100 ∧
    s₁.balance token buyer = s₃.balance token buyer + 100 ∧
    ¬ SameOutcome 0 s₁ s₂ ∧ ¬ SameOutcome 0 s₁ s₃ := by
  obtain ⟨tr, s, s₁, hrun, hreveal, hseen⟩ := watched Always funds sale (env [seller] 3)
    (.revealKey 0 seller secret secret)
    (fun s s₁ => endsIn (exec (env [seller] 3)) [.verifyAndCompleteSwap 0 seller secret secret] s
      fun s₂ => endsIn (exec (env [seller] 3)) [.batchRevealKeys [0] [secret] [secret] seller] s
        fun s₃ => s₁.balance token buyer = s₂.balance token buyer + 100 ∧
          s₁.balance token buyer = s₃.balance token buyer + 100)
    (by decide) (by simp [Always])
  obtain ⟨s₂, hverify, hseen⟩ := endsIn_one hseen
  obtain ⟨s₃, hbatch, hseen⟩ := endsIn_one hseen
  have hbalance := of_decide_eq_true hseen
  refine ⟨tr, s, s₁, s₂, s₃, hrun, hreveal, hverify, hbatch, hbalance.1, hbalance.2, ?_, ?_⟩
  · intro hsame
    have heq := congrFun (congrFun hsame.balance token) buyer
    omega
  · intro hsame
    have heq := congrFun (congrFun hsame.balance token) buyer
    omega

end Runs

end AtomicIp.AtomicSwap
