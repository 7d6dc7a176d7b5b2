import AtomicIp.Swap.Recovery

set_option autoImplicit false

namespace AtomicIp.AtomicSwap

open Function Tx

section Aborts

variable {E : Abort ContractError → Prop} {env : Env} {s : State} {i : ℕ} {r : SwapRecord} {x : ℤ}
  {a : Address}

def FitsI128 (x : ℤ) : Prop := i128Min ≤ x ∧ x ≤ i128Max

theorem FitsI128.of_nonneg (hpos : 0 ≤ x) (hmax : x ≤ i128Max) : FitsI128 x := by
  refine ⟨?_, hmax⟩
  unfold i128Min
  omega

theorem i128_aborts (he : ¬ FitsI128 x → E .overflow) : AbortsWith E s (i128 x : SwapTx ℤ) := by
  unfold i128 checked
  split
  · exact .of_ok rfl
  · rename_i hout
    exact .of_error rfl (he hout)

theorem i128_overflows (hout : ¬ FitsI128 x) : (i128 x : SwapTx ℤ) s = .error .overflow := by
  unfold i128 checked
  split
  · rename_i hin
    exact absurd hin hout
  · rfl

theorem payOut_aborts {purpose : Purpose} (he : E .token) :
    AbortsWith E s (payOut r a x purpose) :=
  .bind (.ensure he) fun _ _ _ => .bind (.of_ok rfl) fun _ _ _ =>
    .bind (.ensure he) fun _ _ _ => .of_ok rfl

theorem bpsOf_aborts {bps : ℕ} (he : 0 < x → ¬ FitsI128 (x * bps) → E .overflow) :
    AbortsWith E s (bpsOf bps x) := by
  unfold bpsOf
  split
  · rename_i hpos
    exact .bind (i128_aborts (he hpos.2)) fun _ _ _ => .of_ok rfl
  · exact .of_ok rfl

theorem referralFee_aborts
    (he : 0 < r.price → ¬ FitsI128 (r.price * protocolConfig.referralFeeBps) → E .overflow) :
    AbortsWith E s (referralFee r) := by
  unfold referralFee
  split
  · exact bpsOf_aborts he
  · exact .of_ok rfl

theorem payTreasury_aborts (he : E .token) : AbortsWith E s (payTreasury i r x) :=
  .onlyIf fun _ => payOut_aborts he

theorem payReferrer_aborts (he : E .token) : AbortsWith E s (payReferrer i r x) := by
  unfold payReferrer
  cases r.referrer with
  | none => exact .of_ok rfl
  | some referrer =>
    exact .onlyIf fun _ => .bind (payOut_aborts he) fun _ _ _ => .of_ok rfl

theorem releaseCollateral_aborts {log : ℤ → List Event} (he : E .token) :
    AbortsWith E s (releaseCollateral i r a log) := by
  refine .onlyIf fun _ => .bind (.of_ok rfl) fun held _ _ => ?_
  cases held with
  | none => exact .of_ok rfl
  | some collateral =>
    exact .bind (payOut_aborts he) fun _ _ _ => .bind (.of_ok rfl) fun _ _ _ => .of_ok rfl

theorem rejectInvalidKey_aborts {valid : Bool} (he : E (.contract .invalidKey)) :
    AbortsWith E s (rejectInvalidKey i r valid) :=
  .onlyIf fun _ => .bind (.onlyIf fun _ => .of_ok rfl) fun _ _ _ => .of_error rfl he

theorem requireSwapExists_aborts (he : E (.contract .swapNotFound)) :
    AbortsWith E s (requireSwapExists i) :=
  .bind (.of_ok rfl) fun _ _ _ => .orAbort he

theorem requireAllSigned_aborts (he : E (.contract .notAllSigned)) :
    AbortsWith E s (requireAllSigned i) :=
  .bind (.of_ok rfl) fun _ _ _ => .bind (.of_ok rfl) fun _ _ _ => .ensure he

theorem requireAdmin_aborts (he : E (.contract .unauthorized)) :
    AbortsWith E s (requireAdmin a) :=
  .bind (.of_ok rfl) fun _ _ _ => .bind (.orAbort he) fun _ _ _ => .ensure he

theorem verifyCommitment_aborts {secret blindingFactor : BytesN 32}
    (he : E (.contract .notInitialized)) (hinvoke : E .invoke) :
    AbortsWith E s (verifyCommitment env i secret blindingFactor) :=
  .bind (.bind (.of_ok rfl) fun _ _ _ => .orAbort he) fun _ _ _ => .orAbort hinvoke

theorem evaluateConditions_aborts (he : E (.contract .conditionNotMet)) :
    AbortsWith E s (evaluateConditions env r) :=
  .bind (.forEach fun _ _ _ => .ensure he) fun _ _ _ => .of_ok rfl

end Aborts

end AtomicIp.AtomicSwap
