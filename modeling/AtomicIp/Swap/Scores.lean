import AtomicIp.Swap.Shares
import AtomicIp.Swap.Tables

set_option autoImplicit false

namespace AtomicIp.AtomicSwap

open Function Tx

def getReputation (a : Address) (s : State) : ℕ := (s.userReputation a).getD 50

def SwapRecord.marks (r : SwapRecord) : List (Address × ℤ) := [(r.seller, 5), (r.buyer, 5)]

def State.marks (s : State) (i : ℕ) : List (Address × ℤ) :=
  ((s.swap i).map SwapRecord.marks).getD []

def Call.marks (s : State) : Call → List (Address × ℤ)
  | .revealKey i _ _ _ => s.marks i
  | .batchRevealKeys ids _ _ _ => ids.flatMap s.marks
  | .cancelSwap _ canceller => [(canceller, -10)]
  | .batchCancelSwaps ids canceller _ => ids.map fun _ => (canceller, -10)
  | .cancelExpiredSwap i _ => ((s.swap i).map fun r => (r.seller, -10)).toList
  | _ => []

def marks (s₀ : State) : List (Act × State) → List (Address × ℤ)
  | [] => []
  | (act, _) :: tr => marks s₀ tr ++ (act.call.map (Call.marks (now s₀ tr))).getD []

/-- Fifty to begin with, and never out of bounds. -/
def score (a : Address) (given : List (Address × ℤ)) : ℤ :=
  (given.filter (·.1 = a)).foldl (fun x mark => max 0 (min 100 (x + mark.2))) 50

def marked (reputation : Address → Option ℕ) (mark : Address × ℤ) : Address → Option ℕ :=
  update reputation mark.1
    (some (adjustedReputation ((reputation mark.1).getD 50) mark.2))

section Turns

variable {env : Env} {i : ℕ} {r : SwapRecord} {a : Address} {x : ℤ} {s s' : State} {u : Unit}

instance : Aside State.userReputation := ⟨fun _ _ _ => rfl⟩

instance : Blind .history State.userReputation := ⟨fun _ => rfl⟩

instance : Blind .completions State.userReputation := ⟨fun _ => rfl⟩

instance : Blind .reasons State.userReputation := ⟨fun _ => rfl⟩

instance : Turns State.userReputation (marked · (a, x)) (updateReputation a x) where
  turned s u s' h := by rw [Tx.store_ok.mp h]; rfl

instance {α : Type} {f : Unit → SwapTx α} [hf : ∀ u, Keeps State.userReputation (f u)] :
    Turns State.userReputation (r.marks.foldl marked)
      (updateReputation r.seller 5 >>= fun _ => updateReputation r.buyer 5 >>= f) where
  turned s b s' h := by
    obtain ⟨u₁, s₁, hseller, h⟩ := bind_ok.mp h
    obtain ⟨u₂, s₂, hbuyer, h⟩ := bind_ok.mp h
    rw [(hf u₂).same s₂ b s' h, Turns.eq State.userReputation (marked · (r.buyer, 5)) hbuyer,
      Turns.eq State.userReputation (marked · (r.seller, 5)) hseller]
    rfl

instance {canceller : Address} :
    Turns State.userReputation (marked · (canceller, -10)) (cancelSwap env i canceller) := by
  unfold cancelSwap
  repeat refine Turns.step fun _ => ?_
  refine Turns.here fun _ => ?_
  infer_instance

instance {canceller : Address} {reason : Bytes} : Turns State.userReputation
    (marked · (canceller, -10)) (cancelWithReason env canceller i reason) := by
  unfold cancelWithReason
  repeat refine Turns.step fun _ => ?_
  refine Turns.here fun _ => ?_
  infer_instance

theorem marks_of (hr : s.swap i = some r) : s.marks i = r.marks := by
  simp only [State.marks, hr]
  rfl

theorem revealKey_marks {caller : Address} {secret blindingFactor : BytesN 32}
    (h : revealKey env i caller secret blindingFactor s = .ok (u, s')) :
    s'.userReputation = (s.marks i).foldl marked s.userReputation := by
  unfold revealKey at h
  obtain ⟨r, s₁, hexists, hrest⟩ := bind_ok.mp h
  obtain ⟨hr, rfl⟩ := requireSwapExists_ok.mp hexists
  rw [marks_of hr]
  refine Turns.run State.userReputation (r.marks.foldl marked) ?_ hrest
  repeat refine Turns.step fun _ => ?_
  infer_instance

theorem completeRevealed_marks {fees : SwapFeeBreakdown}
    (h : completeRevealed env i s = .ok (fees, s')) :
    s'.userReputation = (s.marks i).foldl marked s.userReputation := by
  unfold completeRevealed at h
  obtain ⟨r, s₁, hexists, hrest⟩ := bind_ok.mp h
  obtain ⟨hr, rfl⟩ := requireSwapExists_ok.mp hexists
  rw [marks_of hr]
  refine Turns.run State.userReputation (r.marks.foldl marked) ?_ hrest
  repeat refine Turns.step fun _ => ?_
  infer_instance

theorem cancelExpiredSwap_marks {caller : Address}
    (h : cancelExpiredSwap env i caller s = .ok (u, s')) :
    s'.userReputation = (Call.marks s (.cancelExpiredSwap i caller)).foldl marked
      s.userReputation := by
  unfold cancelExpiredSwap at h
  obtain ⟨r, s₁, hexists, hrest⟩ := bind_ok.mp h
  obtain ⟨hr, rfl⟩ := requireSwapExists_ok.mp hexists
  simp only [Call.marks, hr]
  refine Turns.run State.userReputation (marked · (r.seller, -10)) ?_ hrest
  repeat refine Turns.step fun _ => ?_
  infer_instance

theorem completeRevealed_keeps_marks {fees : SwapFeeBreakdown}
    (h : completeRevealed env i s = .ok (fees, s')) : s'.marks = s.marks := by
  obtain ⟨r, hr⟩ := completeRevealed_exists h
  have hswap := completeRevealed_swap hr h
  funext j
  by_cases hj : j = i
  · subst hj
    have hr' : s'.swap j = some (r.withStatus .completed) := by rw [hswap, update_self]
    rw [marks_of hr', marks_of hr]
    rfl
  · simp only [State.marks, hswap, update_of_ne hj]

theorem completeAll_marks {ids : List ℕ} {fees : List SwapFeeBreakdown}
    (h : forEach ids (completeRevealed env) s = .ok (fees, s')) :
    s'.userReputation = (ids.flatMap s.marks).foldl marked s.userReputation := by
  induction ids generalizing s fees with
  | nil =>
    obtain ⟨-, rfl⟩ := forEach_nil_ok.mp h
    rfl
  | cons i rest ih =>
    obtain ⟨fee, s₁, fees', hhead, htail, -⟩ := forEach_cons_ok.mp h
    rw [ih htail, completeRevealed_keeps_marks hhead, completeRevealed_marks hhead,
      List.flatMap_cons, List.foldl_append]

theorem cancelAll_marks {ids cancelledIds : List ℕ} {reasons : List Bytes} {canceller : Address}
    (h : forEach₂ .unwrap ids reasons (cancelWithReason env canceller) s = .ok (cancelledIds, s')) :
    s'.userReputation = (ids.map fun _ => (canceller, -10)).foldl marked s.userReputation := by
  induction ids generalizing s reasons cancelledIds with
  | nil =>
    obtain ⟨-, rfl⟩ := pure_ok.mp h
    rfl
  | cons i rest ih =>
    cases reasons with
    | nil => exact absurd h abort_ok
    | cons reason reasons =>
      obtain ⟨j, s₁, hhead, hrest⟩ := bind_ok.mp h
      obtain ⟨js, s₂, htail, hdone⟩ := bind_ok.mp hrest
      obtain ⟨-, rfl⟩ := pure_ok.mp hdone
      rw [ih htail, Turns.eq State.userReputation (marked · (canceller, -10)) hhead]
      rfl

end Turns

section Steps

variable {env : Env} {s s' : State} {act : Act} {call : Call}

theorem blind_userReputation {t : Table} (ht : t ≠ .reputation) :
    Blind t State.userReputation := by
  cases t with
  | reputation => exact absurd rfl ht
  | _ => exact ⟨fun _ => rfl⟩

theorem exec_marks (h : exec env call s = .ok ((), s')) :
    s'.userReputation = (call.marks s).foldl marked s.userReputation := by
  cases call with
  | revealKey => exact revealKey_marks h
  | batchRevealKeys =>
    simp [exec, batchRevealKeys] at h
    obtain ⟨-, -, -, -, _, s₁, hvalid, fees, s₂, hreveal, rfl⟩ := h
    obtain ⟨rfl, -⟩ := forEach₂_checks_mem (fun _ _ _ _ _ => validateReveal_ok) hvalid
    have hmarks := completeAll_marks hreveal
    exact hmarks
  | cancelSwap i canceller =>
    have hcancel : cancelSwap env i canceller s = .ok ((), s') := h
    exact Turns.eq State.userReputation (marked · (canceller, -10)) hcancel
  | batchCancelSwaps =>
    simp [exec, batchCancelSwaps] at h
    obtain ⟨-, -, _, s₁, hloop, rfl⟩ := h
    have hmarks := cancelAll_marks hloop
    exact hmarks
  | cancelExpiredSwap => exact cancelExpiredSwap_marks h
  | _ =>
    exact exec_frame State.userReputation h fun t ht => blind_userReputation (by
      rintro rfl
      simp [Call.writes] at ht)

theorem ActStep.marks (hact : ActStep s act s') : s'.userReputation =
    ((act.call.map (Call.marks s)).getD []).foldl marked s.userReputation := by
  cases hact with
  | call h => exact exec_marks h
  | elsewhere => rfl

/-- What a mark is for: a cancellation that the marked address has authorised, a swap of a seller
that expired, or a swap whose seller has presented a good key. -/
def Earned (s : State) (env : Env) (mark : Address × ℤ) : Prop :=
  mark.2 = -10 ∧ mark.1 ∈ env.auths ∨
  mark.2 = -10 ∧ (∃ i r, s.swap i = some r ∧ r.status = .accepted ∧ r.seller = mark.1 ∧
    r.expiry < env.timestamp) ∨
  mark.2 = 5 ∧ ∃ i r k, s.swap i = some r ∧ r.status = .accepted ∧ mark ∈ r.marks ∧
    r.seller ∈ env.auths ∧ KeyCheck env s.ipRegistry r.ipId (Key.secret k) k.blindingFactor true

theorem mem_marks {i : ℕ} {r : SwapRecord} {mark : Address × ℤ} (hr : s.swap i = some r)
    (hmark : mark ∈ s.marks i) : mark.2 = 5 ∧ mark ∈ r.marks := by
  rw [marks_of hr] at hmark
  refine ⟨?_, hmark⟩
  simp only [SwapRecord.marks, List.mem_cons, List.not_mem_nil, or_false] at hmark
  rcases hmark with rfl | rfl <;> rfl

theorem exec_earned (h : exec env call s = .ok ((), s')) {mark : Address × ℤ}
    (hmark : mark ∈ call.marks s) : Earned s env mark := by
  cases call with
  | revealKey i caller secret blindingFactor =>
    obtain ⟨r, hr, ⟨hfrom, hauth, hkey⟩, -⟩ := revealKey_pays h
    obtain ⟨hgain, hparty⟩ := mem_marks hr hmark
    exact .inr (.inr ⟨hgain, i, r, ⟨secret, blindingFactor⟩, hr, hfrom, hparty, hauth, hkey⟩)
  | batchRevealKeys ids secrets blindingFactors seller =>
    simp [exec, batchRevealKeys] at h
    obtain ⟨hauth, -, -, -, _, s₁, hvalid, -⟩ := h
    obtain ⟨rfl, hall⟩ := forEach₂_checks_mem (fun _ _ _ _ _ => validateReveal_ok) hvalid
    obtain ⟨i, hi, hparty⟩ := List.mem_flatMap.mp hmark
    obtain ⟨k, -, r, hr, rfl, hfrom, hkey⟩ := hall i hi
    obtain ⟨hgain, hparty⟩ := mem_marks hr hparty
    exact .inr (.inr ⟨hgain, i, r, k, hr, hfrom, hparty, hauth, hkey⟩)
  | cancelSwap i canceller =>
    obtain rfl : mark = (canceller, -10) := by simpa [Call.marks] using hmark
    simp [exec, cancelSwap] at h
    obtain ⟨-, -, -, hauth, -⟩ := h
    exact .inl ⟨rfl, hauth⟩
  | batchCancelSwaps ids canceller reasons =>
    obtain ⟨i, -, rfl⟩ := List.mem_map.mp hmark
    simp [exec, batchCancelSwaps] at h
    exact .inl ⟨rfl, h.1⟩
  | cancelExpiredSwap i caller =>
    simp [exec, cancelExpiredSwap] at h
    obtain ⟨r, hr, hfrom, -, hexpired, -⟩ := h
    have hstored : s.swap i = some r := hr
    obtain rfl : mark = (r.seller, -10) := by simpa [Call.marks, hstored] using hmark
    exact .inr (.inl ⟨rfl, i, r, hr, hfrom, rfl, hexpired⟩)
  | _ => cases hmark

end Steps

section Scores

variable {a : Address} {given : List (Address × ℤ)} {reputation : Address → Option ℕ} {n : ℕ}
  {x : ℤ}

theorem adjustedReputation_eq (hn : n ≤ 100) :
    (adjustedReputation n x : ℤ) = max 0 (min 100 (n + x)) := by
  have hi : asI32 n = n := if_pos (by omega)
  rw [adjustedReputation, hi]
  unfold saturate
  omega

theorem adjustedReputation_le : adjustedReputation n x ≤ 100 := by
  unfold adjustedReputation saturate
  omega

theorem marked_le (h : ∀ a, (reputation a).getD 50 ≤ 100) (mark : Address × ℤ) (a : Address) :
    (marked reputation mark a).getD 50 ≤ 100 := by
  by_cases ha : a = mark.1
  · subst ha
    rw [marked, update_self]
    exact adjustedReputation_le
  · rw [marked, update_of_ne ha]
    exact h a

theorem marked_score (h : ∀ a, (reputation a).getD 50 ≤ 100) :
    ((given.foldl marked reputation a).getD 50 : ℤ) = (given.filter (·.1 = a)).foldl
      (fun x mark => max 0 (min 100 (x + mark.2))) ((reputation a).getD 50 : ℤ) := by
  induction given generalizing reputation with
  | nil => rfl
  | cons mark rest ih =>
    refine (ih (marked_le h mark)).trans ?_
    by_cases ha : mark.1 = a
    · subst ha
      rw [List.filter_cons_of_pos (by simp), List.foldl_cons, marked, update_self, Option.getD_some,
        adjustedReputation_eq (h _)]
    · rw [List.filter_cons_of_neg (by simpa using ha), marked, update_of_ne (Ne.symm ha)]

theorem score_bounds (a : Address) (given : List (Address × ℤ)) :
    0 ≤ score a given ∧ score a given ≤ 100 := by
  unfold score
  generalize given.filter (·.1 = a) = mine
  have hall : ∀ x : ℤ, 0 ≤ x ∧ x ≤ 100 →
      0 ≤ mine.foldl (fun x (mark : Address × ℤ) => max 0 (min 100 (x + mark.2))) x ∧
        mine.foldl (fun x (mark : Address × ℤ) => max 0 (min 100 (x + mark.2))) x ≤ 100 := by
    induction mine with
    | nil => exact fun x hx => hx
    | cons mark rest ih =>
      intro x hx
      rw [List.foldl_cons]
      exact ih (max 0 (min 100 (x + mark.2))) (by omega)
  exact hall 50 (by omega)

end Scores

section Runs

variable {balance : Address → Address → ℤ} {tr : List (Act × State)} {s : State}

theorem run_marks (hrun : Run ActStep (State.empty balance) tr s) : s.userReputation =
    (marks (State.empty balance) tr).foldl marked (State.empty balance).userReputation := by
  induction hrun with
  | start => rfl
  | next hrun hact ih => rw [marks, List.foldl_append, ← ih, hrun.now_eq, ActStep.marks hact]

/-- In every run the reputation of an address is the running total, between nought and a hundred, of
its marks in their order, and every mark was earned: ten are lost only by cancelling oneself or by
letting a paid swap expire as its seller, and five gained only in a swap of one's own whose seller
has presented a good key. -/
theorem reputations_tallied (hrun : Run ActStep (State.empty balance) tr s) :
    (∀ a, (getReputation a s : ℤ) = score a (marks (State.empty balance) tr) ∧
      getReputation a s ≤ 100) ∧
    ∀ past v act v', (past, v, act, v') ∈ steps (State.empty balance) tr →
      ∀ call, act.call = some call → ∀ mark ∈ call.marks v, Earned v act.env mark := by
  refine ⟨fun a => ?_, ?_⟩
  · have hscore : (getReputation a s : ℤ) = score a (marks (State.empty balance) tr) := by
      rw [getReputation, run_marks hrun]
      exact marked_score (by simp [State.empty])
    have hbounds := (score_bounds a (marks (State.empty balance) tr)).2
    exact ⟨hscore, by omega⟩
  · intro past v act v' hmem call hcall mark hmark
    cases hrun.step_of_mem hmem with
    | call h =>
      obtain rfl := Option.some.inj hcall
      exact exec_earned h hmark
    | elsewhere => cases hcall

end Runs

section Sales

open Scenario

def twoSales : List (Env × Call) :=
  sale ++ [(env [seller] 3, .revealKey 0 seller secret secret),
    (env [seller] 4, .initiateSwap token 2 seller 1000 buyer 0 none 0 false),
    (env [seller] 5, .cancelSwap 1 seller)]

theorem two_sales_scored : ∃ tr s, Run ActStep (State.empty funds) tr s ∧
    getReputation seller s = 45 ∧ getReputation buyer s = 55 ∧
    score seller (marks (State.empty funds) tr) = 45 := by
  obtain ⟨s, hs, hseller, hbuyer⟩ : ∃ s, play (State.empty funds) twoSales = .ok s ∧
      getReputation seller s = 45 ∧ getReputation buyer s = 55 := ⟨_, rfl, by decide, by decide⟩
  obtain ⟨tr, hrun⟩ : ∃ tr, Run (Restrict ActStep Always) (State.empty funds) tr s :=
    play_run hs (fun _ _ _ => trivial) .start
  have hall : Run ActStep (State.empty funds) tr s := hrun.mono fun _ _ _ h => h.1
  obtain ⟨hscore, -⟩ := (reputations_tallied hall).1 seller
  rw [hseller] at hscore
  exact ⟨tr, s, hall, hseller, hbuyer, hscore.symm⟩

end Sales

end AtomicIp.AtomicSwap
