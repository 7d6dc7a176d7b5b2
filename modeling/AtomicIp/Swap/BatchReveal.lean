import AtomicIp.Swap.Transitions
import Mathlib.Data.List.Nodup
import Mathlib.Tactic.Ring

/-!
What a batch of key reveals pays: the price once for every time a swap is listed, and its
collateral with the first of them.
-/

set_option autoImplicit false

namespace AtomicIp.AtomicSwap

open Function

/-- The transfers on account of the swap `i`. -/
def onAccountOf (i : ℕ) (purpose : Purpose) : Bool := purpose.swap? = some i

/-- What a step pays out of the contract on account of the swap `i`. -/
def paidFor (s s' : State) (i : ℕ) : ℤ :=
  paidOut currentContractAddress (onAccountOf i) (newTransfers s s')

section Payments

variable {env : Env} {c c' : Escrow} {i j : ℕ} {r : SwapRecord} {ms : List TokenTransfer}

theorem PaidFor.paidOut {P : Address → Prop} {total : ℤ} (h : PaidFor j r P total ms) (i : ℕ) :
    paidOut currentContractAddress (onAccountOf i) ms = if j = i then total else 0 := by
  have hsel : ∀ m ∈ ms, (m.src = currentContractAddress ∧ onAccountOf i m.ref = true) ↔ j = i := by
    intro m hm
    obtain ⟨-, hsrc, href, -⟩ := h.escrowed m hm
    simp [onAccountOf, hsrc, href]
  by_cases hji : j = i
  · have hall : ms.filter (fun m => decide (m.src = currentContractAddress ∧
        onAccountOf i m.ref = true)) = ms := by
      refine List.filter_eq_self.mpr fun m hm => ?_
      simpa [hji] using hsel m hm
    rw [AtomicIp.paidOut, hall, h.total, if_pos hji]
  · have hnone : ms.filter (fun m => decide (m.src = currentContractAddress ∧
        onAccountOf i m.ref = true)) = [] := by
      refine List.filter_eq_nil_iff.mpr fun m hm => ?_
      simpa [hji] using hsel m hm
    rw [AtomicIp.paidOut, hnone, if_neg hji]
    rfl

theorem released_pays {ids : List ℕ} {ks : List Key}
    (hpath : Path (Step env) c ((ids.zip ks).map fun p => .released p.1 (.batchKey p.2)) c')
    (hlength : ks.length = ids.length) (hr : c.swap i = some r) :
    ∃ ms, c'.transfers = c.transfers ++ ms ∧
      paidOut currentContractAddress (onAccountOf i) ms =
        ids.count i * r.price + if i ∈ ids then (c.heldFor i r).getD 0 else 0 := by
  induction ids generalizing c ks r with
  | nil =>
    cases hpath with
    | nil => exact ⟨[], by simp, by simp⟩
  | cons j rest ih =>
    cases ks with
    | nil => simp at hlength
    | cons k ks =>
      simp only [List.zip_cons_cons, List.map_cons] at hpath
      cases hpath with
      | cons hstep hrest =>
        have hlength' : ks.length = rest.length := by simpa using hlength
        cases hstep with
        | @released _ r₀ _ ms hr₀ hw hpaid =>
          by_cases hji : j = i
          · subst hji
            obtain rfl := Option.some.inj (hr.symm.trans hr₀)
            have hr₁ : (((c.close j r .completed).release j (c.sweptBy (.batchKey k) j r)).pay
                ms).swap j = some (r.withStatus .completed) := by
              simp [Escrow.pay, Escrow.release, Escrow.close, Escrow.setActiveSwap, Escrow.setSwap]
            obtain ⟨ns, hns, htail⟩ := ih hrest hlength' hr₁
            have hclosed : (((c.close j r .completed).release j
                (c.sweptBy (.batchKey k) j r)).pay ms).heldFor j (r.withStatus .completed) = none :=
              Closed.of_released.2.2
            refine ⟨ms ++ ns, by rw [hns]; exact List.append_assoc _ _ _, ?_⟩
            rw [paidOut_append, hpaid.paidOut, if_pos rfl, htail, hclosed]
            have hprice : (r.withStatus .completed).price = r.price := rfl
            simp only [hprice, Option.getD_none, ite_self, add_zero, List.count_cons_self,
              List.mem_cons, true_or, if_true, Escrow.sweptBy, Warrant.sweeps]
            push_cast
            ring
          · have hij : i ≠ j := fun e => hji e.symm
            have hr₁ : (((c.close j r₀ .completed).release j
                (c.sweptBy (.batchKey k) j r₀)).pay ms).swap i = some r := by
              simp [Escrow.pay, Escrow.release, Escrow.close, Escrow.setActiveSwap, Escrow.setSwap,
                hij, hr]
            obtain ⟨ns, hns, htail⟩ := ih hrest hlength' hr₁
            have hheld : (((c.close j r₀ .completed).release j
                (c.sweptBy (.batchKey k) j r₀)).pay ms).heldFor i r = c.heldFor i r := by
              cases hswept : c.sweptBy (.batchKey k) j r₀ <;>
                simp [Escrow.heldFor, Escrow.pay, Escrow.release, Escrow.close,
                  Escrow.setActiveSwap, Escrow.setSwap, hij]
            refine ⟨ms ++ ns, by rw [hns]; exact List.append_assoc _ _ _, ?_⟩
            rw [paidOut_append, hpaid.paidOut, if_neg hji, htail, hheld]
            simp [hij, hji]

theorem Wf.heldFor_eq (hwf : Wf c) (hr : c.swap i = some r) :
    c.heldFor i r = c.swapCollateral i := by
  unfold Escrow.heldFor
  by_cases hpos : 0 < r.collateralAmount
  · rw [if_pos hpos]
  · rw [if_neg hpos]
    cases hx : c.swapCollateral i with
    | none => rfl
    | some x =>
      obtain ⟨r₁, hr₁, hpos₁, -⟩ := hwf.collateral _ _ hx
      obtain rfl := Option.some.inj (hr.symm.trans hr₁)
      exact absurd hpos₁ hpos

theorem batchRevealKeys_pays {s s' : State} {ids : List ℕ}
    {secrets blindingFactors : List (BytesN 32)}
    {seller : Address} (hwf : Wf s.escrow)
    (hexec : exec env (.batchRevealKeys ids secrets blindingFactors seller) s = .ok ((), s'))
    (hi : i ∈ ids) : ∃ r, s.swap i = some r ∧ 0 < r.price ∧
      paidFor s s' i = ids.count i * r.price + (s.swapCollateral i).getD 0 := by
  obtain ⟨ks, hlength, -, hrevealable, hpath⟩ := batchRevealKeys_path hexec
  obtain ⟨r, hr, -⟩ := hrevealable i hi
  obtain ⟨ms, hms, hpaid⟩ := released_pays hpath hlength hr
  refine ⟨r, hr, (hwf.stored _ _ hr).2.price, ?_⟩
  have hnew : newTransfers s s' = ms := by
    have hs' : s'.transfers = s.transfers ++ ms := hms
    simp only [newTransfers, hs', List.drop_left]
  rw [paidFor, hnew, hpaid, if_pos hi, hwf.heldFor_eq hr]
  rfl

/-- In every reachable state a batch that succeeds pays each of its swaps what it holds
for it exactly when no swap is listed twice. -/
theorem batch_pays_once_iff {tr : List (Act × State)} {s s' : State} {ids : List ℕ}
    {secrets blindingFactors : List (BytesN 32)} {seller : Address} (h : Reaches Always tr s)
    (hexec : exec env (.batchRevealKeys ids secrets blindingFactors seller) s = .ok ((), s')) :
    (∀ i ∈ ids, ∃ r, s.swap i = some r ∧
      paidFor s s' i = r.price + (s.swapCollateral i).getD 0) ↔ ids.Nodup := by
  rw [List.nodup_iff_count_eq_one]
  refine forall₂_congr fun i hi => ?_
  obtain ⟨r, hr, hprice, hpaid⟩ := batchRevealKeys_pays h.wf hexec hi
  constructor
  · intro hone
    obtain ⟨r₁, hr₁, hpaid₁⟩ := hone
    obtain rfl := Option.some.inj (hr.symm.trans hr₁)
    have hcount : (ids.count i : ℤ) * r.price = 1 * r.price := by omega
    have := Int.eq_of_mul_eq_mul_right hprice.ne' hcount
    omega
  · intro hcount
    exact ⟨r, hr, by rw [hpaid, hcount]; simp⟩

end Payments

section Runs

open Scenario

def paidSales : List (Env × Call) := sales ++ [(env [buyer] 3, Call.acceptSwap 1)]

theorem both_sales_paid_once : ∃ s s',
    exec (env [seller] 4) (.batchRevealKeys [0, 1] [secret, secret] [secret, secret] seller) s =
      .ok ((), s') ∧ s.swapCollateral 0 = some 100 ∧ s.swapCollateral 1 = none ∧
    ∀ i ∈ [0, 1], ∃ r, s.swap i = some r ∧
      paidFor s s' i = r.price + (s.swapCollateral i).getD 0 := by
  obtain ⟨tr, s₁, s₂, hrun, hexec, hseen⟩ := watched Always funds paidSales (env [seller] 4)
    (.batchRevealKeys [0, 1] [secret, secret] [secret, secret] seller)
    (fun s _ => s.swapCollateral 0 = some 100 ∧ s.swapCollateral 1 = none) (by decide)
    (by simp [Always])
  obtain ⟨hfirst, hsecond⟩ := of_decide_eq_true hseen
  exact ⟨s₁, s₂, hexec, hfirst, hsecond,
    (batch_pays_once_iff ⟨funds, funds_contract, hrun⟩ hexec).mpr (by simp)⟩

/-- A swap listed twice is paid twice, the second time out of another swap's money. -/
theorem repeated_swap_paid_twice : ∃ tr s s' env ids secrets blindingFactors seller i r,
    Reaches Always tr s ∧
    exec env (.batchRevealKeys ids secrets blindingFactors seller) s = .ok ((), s') ∧
    i ∈ ids ∧ s.swap i = some r ∧ paidFor s s' i ≠ r.price + (s.swapCollateral i).getD 0 := by
  obtain ⟨tr, s₁, s₂, hrun, hexec, hseen⟩ := watched Always funds paidSales (env [seller] 4)
    (.batchRevealKeys [0, 0] [secret, secret] [secret, secret] seller)
    (fun s s' => (s.swap 0).any fun r => paidFor s s' 0 ≠ r.price + (s.swapCollateral 0).getD 0)
    (by decide) (by simp [Always])
  simp only [Option.any_eq_true, decide_eq_true_eq] at hseen
  obtain ⟨r, hr, hpaid⟩ := hseen
  exact ⟨tr, s₁, s₂, _, _, _, _, _, 0, r, ⟨funds, funds_contract, hrun⟩, hexec, by simp, hr, hpaid⟩

end Runs

end AtomicIp.AtomicSwap
