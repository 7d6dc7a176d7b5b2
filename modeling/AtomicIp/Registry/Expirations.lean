import AtomicIp.Registry.Records

/-!
When the warning of an expiration comes. The remaining lifetime is counted from the timestamp of
the record, in ledgers of five seconds and in 32 bits; a renewal leaves the timestamp alone.
-/

set_option autoImplicit false

namespace AtomicIp.IpRegistry

open Function Tx

section Times

variable {crypto : Crypto} {env : Env} {s s' : State} {act : Act} {tr : List (Act × State)}
  {ipId i : ℕ} {r : IpRecord} {c c' : Ledger} {m : Move} {call : Call}

def createdAt (ipId : ℕ) : List (Act × State) → ℕ
  | [] => 0
  | (act, _) :: tr =>
    if ((now State.empty tr).ipRecord ipId).isNone then act.timestamp else createdAt ipId tr

def lastRenewal (ipId : ℕ) : List Act → Option ℕ
  | [] => none
  | act :: acts =>
    match act.call with
    | .renewIp id => if id = ipId then some act.timestamp else lastRenewal ipId acts
    | _ => lastRenewal ipId acts

/-- The later of the IP's creation and its last renewal. -/
def freshSince (ipId : ℕ) (tr : List (Act × State)) : ℕ :=
  max (createdAt ipId tr) ((lastRenewal ipId (tr.map Prod.fst)).getD 0)

def Ledger.DatedNow (c : Ledger) (i time : ℕ) : Prop :=
  ∀ r, c.ipRecord i = some r → r.timestamp = time

theorem Ledger.DatedNow.rewrite {time j : ℕ} {q q' : IpRecord} (h : c.DatedNow i time)
    (hq : c.ipRecord j = some q) (htime : q'.timestamp = q.timestamp)
    (hset : c'.ipRecord = update c.ipRecord j (some q')) : c'.DatedNow i time := by
  intro r hr
  rw [hset] at hr
  rcases update_eq_some hr with ⟨rfl, rfl⟩ | ⟨-, hold⟩
  · exact htime.trans (h q hq)
  · exact h r hold

theorem Step.datedNow (hstep : Step env c m c') (h : c.DatedNow i env.timestamp) :
    c'.DatedNow i env.timestamp := by
  cases hstep with
  | registered =>
    intro r hr
    rcases update_eq_some hr with ⟨-, rfl⟩ | ⟨-, hold⟩
    · rfl
    · exact h r hold
  | @rotated j q hash hq =>
    have hsame : (q.rehashed hash).timestamp = q.timestamp := rfl
    exact h.rewrite hq hsame rfl
  | @transferred j q owner hq =>
    have hsame : (q.ownedBy owner).timestamp = q.timestamp := rfl
    exact h.rewrite hq hsame rfl
  | revised q' hq hrevises => exact h.rewrite hq hrevises.timestamp rfl

theorem exec_datedNow (h : exec env call s = .ok ((), s')) (hnone : s.ipRecord i = none)
    (hr : s'.ipRecord i = some r) : r.timestamp = env.timestamp := by
  have hstart : s.ledger.DatedNow i env.timestamp := by
    intro q hq
    rw [← State.ipRecord_ledger, hnone] at hq
    cases hq
  exact (exec_moves h).invariant (fun _ _ _ _ hc hstep => hstep.datedNow hc) hstart r hr

theorem timestamp_createdAt (hrun : Run (ActStep crypto) State.empty tr s)
    (hr : s.ipRecord ipId = some r) : r.timestamp = createdAt ipId tr := by
  induction hrun generalizing r with
  | start => cases hr
  | @next tr s s' act hrun hact ih =>
    rw [createdAt, hrun.now_eq]
    cases hold : s.ipRecord ipId with
    | none =>
      rw [Option.isNone_none, if_pos rfl]
      exact exec_datedNow hact hold hr
    | some q =>
      obtain ⟨r', hr', hedits⟩ := exec_edits hact (run_wf hrun) hold
      obtain rfl := Option.some.inj (hr.symm.trans hr')
      rw [Option.isNone_some, if_neg Bool.false_ne_true]
      exact hedits.timestamp.trans (ih hold)

end Times

section Warnings

variable {crypto : Crypto} {env : Env} {s s' : State} {act : Act} {tr tr' : List (Act × State)}
  {ipId threshold : ℕ} {r : IpRecord}

def Warns (env : Env) (ipId threshold : ℕ) (s : State) : Prop :=
  ∃ s', checkExpirationWarning env ipId threshold s = .ok (true, s')

/-- The check answers, and warns of what is left of the lifetime since the creation or the last
renewal. -/
def WarnsRightly (env : Env) (ipId threshold : ℕ) (tr : List (Act × State)) (s : State) : Prop :=
  (∃ warned s', checkExpirationWarning env ipId threshold s = .ok (warned, s')) ∧
    (Warns env ipId threshold s ↔
      ledgerBump - (env.timestamp - freshSince ipId tr) / 5 ≤ threshold)

/-- The age counted in 32 bits of ledgers and the age since the renewal are on the same side of
the time when the warning is due. -/
def SameSide (threshold age renewedAge : ℕ) : Prop :=
  ledgerBump ≤ threshold ∨
    (5 * (ledgerBump - threshold) ≤ age % (5 * 2 ^ 32) ↔
      5 * (ledgerBump - threshold) ≤ renewedAge)

theorem counted_iff (age : ℕ) : ledgerBump - age / 5 % 2 ^ 32 ≤ threshold ↔
    ledgerBump ≤ threshold ∨ 5 * (ledgerBump - threshold) ≤ age % (5 * 2 ^ 32) := by
  omega

theorem due_iff (age : ℕ) : ledgerBump - age / 5 ≤ threshold ↔
    ledgerBump ≤ threshold ∨ 5 * (ledgerBump - threshold) ≤ age := by
  omega

theorem checkExpirationWarning_eq (hr : s.ipRecord ipId = some r) :
    ∃ s', checkExpirationWarning env ipId threshold s =
      .ok (decide (ledgerBump - (env.timestamp - r.timestamp) / 5 % 2 ^ 32 ≤ threshold), s') := by
  rw [State.ipRecord_ledger] at hr
  by_cases hwarns : ledgerBump - (env.timestamp - r.timestamp) / 5 % 2 ^ 32 ≤ threshold
  · rw [decide_eq_true hwarns]
    simp [checkExpirationWarning, hr]
    omega
  · rw [decide_eq_false hwarns]
    simp [checkExpirationWarning, hr]
    omega

theorem warns_iff (hr : s.ipRecord ipId = some r) : Warns env ipId threshold s ↔
    ledgerBump - (env.timestamp - r.timestamp) / 5 % 2 ^ 32 ≤ threshold := by
  obtain ⟨s', hcheck⟩ : ∃ s', checkExpirationWarning env ipId threshold s = .ok (_, s') :=
    checkExpirationWarning_eq hr
  constructor
  · intro h
    obtain ⟨s₁, hwarned⟩ := h
    rw [hcheck] at hwarned
    exact of_decide_eq_true (Prod.mk.inj (Except.ok.inj hwarned)).1
  · intro h
    rw [decide_eq_true h] at hcheck
    exact ⟨s', hcheck⟩

/-- The warning is right as long as neither a renewal nor the overflow of the count puts the two
ages on different sides. -/
theorem rightly_iff_sameSide (hrun : Run (ActStep crypto) State.empty tr s)
    (hr : s.ipRecord ipId = some r) :
    WarnsRightly env ipId threshold tr s ↔ SameSide threshold
      (env.timestamp - createdAt ipId tr) (env.timestamp - freshSince ipId tr) := by
  have hwarns : Warns env ipId threshold s ↔ _ := warns_iff hr
  rw [timestamp_createdAt hrun hr, counted_iff] at hwarns
  rw [WarnsRightly, hwarns, due_iff, SameSide]
  constructor
  · intro h
    by_cases hlong : ledgerBump ≤ threshold
    · exact .inl hlong
    · exact .inr (by simpa only [hlong, false_or] using h.2)
  · intro h
    refine ⟨?_, ?_⟩
    · obtain ⟨s', hcheck⟩ : ∃ s', checkExpirationWarning env ipId threshold s = .ok (_, s') :=
        checkExpirationWarning_eq hr
      exact ⟨_, s', hcheck⟩
    · cases h with
      | inl hlong => simp only [hlong, true_or]
      | inr hsides => rw [hsides]

theorem createdAt_append (hrun : Run (ActStep crypto) State.empty tr s)
    (hr : s.ipRecord ipId = some r) (hafter : Run (ActStep crypto) s tr' s') :
    createdAt ipId (tr' ++ tr) = createdAt ipId tr ∧ ∃ r', s'.ipRecord ipId = some r' := by
  induction hafter with
  | start => exact ⟨rfl, r, hr⟩
  | @next tr' s₁ s₂ act hafter hact ih =>
    obtain ⟨hsame, r₁, hr₁⟩ := ih
    have hrun₁ := hrun.trans hafter
    obtain ⟨r₂, hr₂, -⟩ := exec_edits hact (run_wf hrun₁) hr₁
    refine ⟨?_, r₂, hr₂⟩
    rw [List.cons_append, createdAt, hrun₁.now_eq, hr₁, Option.isNone_some,
      if_neg Bool.false_ne_true]
    exact hsame

theorem lastRenewal_append (hnone : ∀ p ∈ tr', p.1.call ≠ .renewIp ipId) :
    lastRenewal ipId ((tr' ++ tr).map Prod.fst) = lastRenewal ipId (tr.map Prod.fst) := by
  induction tr' with
  | nil => rfl
  | cons p tr' ih =>
    have hother := hnone p List.mem_cons_self
    have hrest := ih fun q hq => hnone q (List.mem_cons_of_mem p hq)
    rw [← hrest, List.cons_append, List.map_cons, lastRenewal]
    cases hcall : p.1.call with
    | renewIp id =>
      have hne : id ≠ ipId := by
        rintro rfl
        exact hother hcall
      exact if_neg hne
    | _ => rfl

theorem warning_stays {env' : Env} (hrun : Run (ActStep crypto) State.empty tr s)
    (hr : s.ipRecord ipId = some r) (hafter : Run (ActStep crypto) s tr' s')
    (hnone : ∀ p ∈ tr', p.1.call ≠ .renewIp ipId) (hlater : env.timestamp ≤ env'.timestamp)
    (hright : WarnsRightly env ipId threshold tr s)
    (hright' : WarnsRightly env' ipId threshold (tr' ++ tr) s')
    (hwarns : Warns env ipId threshold s) : Warns env' ipId threshold s' := by
  have hfresh : freshSince ipId (tr' ++ tr) = freshSince ipId tr := by
    rw [freshSince, (createdAt_append hrun hr hafter).1, lastRenewal_append hnone, freshSince]
  have hdue := hright.2.mp hwarns
  refine hright'.2.mpr ?_
  rw [hfresh]
  omega

theorem warning_cleared (hcall : act.call = .renewIp ipId) (hnow : env.timestamp = act.timestamp)
    (hshort : threshold < ledgerBump)
    (hright : WarnsRightly env ipId threshold ((act, s) :: tr) s) :
    ¬ Warns env ipId threshold s := by
  intro hwarns
  have hdue := hright.2.mp hwarns
  have hfresh : env.timestamp ≤ freshSince ipId ((act, s) :: tr) := by
    rw [freshSince, List.map_cons, lastRenewal, hcall, hnow]
    simp only [if_true, Option.getD_some]
    exact Nat.le_max_right _ _
  omega

/-- When the warning is right; where it is, one that was raised stays until a renewal, which
clears it. -/
theorem warns_rightly_iff (hrun : Run (ActStep crypto) State.empty tr s)
    (hr : s.ipRecord ipId = some r) :
    (WarnsRightly env ipId threshold tr s ↔ SameSide threshold
      (env.timestamp - createdAt ipId tr) (env.timestamp - freshSince ipId tr)) ∧
    (WarnsRightly env ipId threshold tr s → Warns env ipId threshold s →
      ∀ (env' : Env) tr' s', Run (ActStep crypto) s tr' s' →
        (∀ p ∈ tr', p.1.call ≠ .renewIp ipId) → env.timestamp ≤ env'.timestamp →
          WarnsRightly env' ipId threshold (tr' ++ tr) s' → Warns env' ipId threshold s') ∧
    ∀ (env' : Env) act s', ActStep crypto s act s' → act.call = .renewIp ipId →
      env'.timestamp = act.timestamp → threshold < ledgerBump →
        WarnsRightly env' ipId threshold ((act, s') :: tr) s' → ¬ Warns env' ipId threshold s' := by
  refine ⟨rightly_iff_sameSide hrun hr, ?_, ?_⟩
  · intro hright hwarns env' tr' s' hafter hnone hlater hright'
    exact warning_stays hrun hr hafter hnone hlater hright hright' hwarns
  · intro env' act s' _ hcall hnow hshort hright
    exact warning_cleared hcall hnow hshort hright

end Warnings

section Lifetimes

open Scenario

/-- A design sold and renewed early is not about to expire, and a year after the renewal it is. -/
theorem renewed_design_warned : ∃ tr s, Run (ActStep crypto) State.empty tr s ∧
    lastRenewal 1 (tr.map Prod.fst) = some 100 ∧
    WarnsRightly ⟨crypto, 110, [], 10⟩ 1 1 tr s ∧ ¬ Warns ⟨crypto, 110, [], 10⟩ 1 1 s ∧
    WarnsRightly ⟨crypto, 31536100, [], 10⟩ 1 1 tr s ∧ Warns ⟨crypto, 31536100, [], 10⟩ 1 1 s := by
  obtain ⟨tr, s, hrun, hlabels, hseen⟩ := played State.empty
    [act 5 inventor (.commitIp inventor design 0), act 6 inventor (.transferIp 1 rival),
      act 100 rival (.renewIp 1)]
    (fun s => (s.ipRecord 1).any fun r => r.timestamp = 5) (by decide +kernel)
  obtain ⟨r, hr, htime⟩ := (Option.any_eq_true _ _).mp hseen
  have htime' := of_decide_eq_true htime
  have hrenewed : lastRenewal 1 (tr.map Prod.fst) = some 100 := by rw [hlabels]; rfl
  have hcreated : createdAt 1 tr = 5 := (timestamp_createdAt hrun hr).symm.trans htime'
  have hfresh : freshSince 1 tr = 100 := by rw [freshSince, hcreated, hrenewed]; rfl
  have hearly : WarnsRightly ⟨crypto, 110, [], 10⟩ 1 1 tr s := by
    rw [(warns_rightly_iff hrun hr).1, hcreated, hfresh]
    exact .inr (by decide)
  have hlate : WarnsRightly ⟨crypto, 31536100, [], 10⟩ 1 1 tr s := by
    rw [(warns_rightly_iff hrun hr).1, hcreated, hfresh]
    exact .inr (by decide)
  refine ⟨tr, s, hrun, hrenewed, hearly, ?_, hlate, ?_⟩ <;> rw [warns_iff hr, htime'] <;> decide

/-- A renewal does not stop the warning, and the count of the ledgers starts again after 2^32. -/
theorem renewal_ignored : ∃ tr s, Run (ActStep crypto) State.empty tr s ∧
    s.renewalCount 1 = some 1 ∧ lastRenewal 1 (tr.map Prod.fst) = some 31536005 ∧
    Warns ⟨crypto, 31536005, [], 10⟩ 1 0 s ∧
    ¬ WarnsRightly ⟨crypto, 31536005, [], 10⟩ 1 0 tr s ∧
    ¬ Warns ⟨crypto, 5 + 5 * 2 ^ 32, [], 10⟩ 1 0 s ∧
    ¬ WarnsRightly ⟨crypto, 5 + 5 * 2 ^ 32, [], 10⟩ 1 0 tr s := by
  have hplayed : endsIn perform [act 5 inventor (.commitIp inventor design 0)] State.empty (fun a =>
      endsIn perform [act 31536005 inventor (.renewIp 1)] a fun s =>
        decide (s.renewalCount 1 = some 1) &&
          (s.ipRecord 1).any fun r => r.timestamp = 5) = true := by decide
  obtain ⟨a, hcommits, hlater⟩ := endsIn_one hplayed
  obtain ⟨s, hrenews, hseen⟩ := endsIn_one hlater
  simp only [Bool.and_eq_true, decide_eq_true_eq, Option.any_eq_true] at hseen
  obtain ⟨hcount, r, hr, htime⟩ := hseen
  have hrun : Run (ActStep crypto) State.empty [(act 31536005 inventor (.renewIp 1), s),
      (act 5 inventor (.commitIp inventor design 0), a)] s :=
    (Run.start.next hcommits).next hrenews
  have hwarns : Warns ⟨crypto, 31536005, [], 10⟩ 1 0 s := by
    rw [warns_iff hr, htime]
    decide
  have hsilent : ¬ Warns ⟨crypto, 5 + 5 * 2 ^ 32, [], 10⟩ 1 0 s := by
    rw [warns_iff hr, htime]
    decide
  refine ⟨_, s, hrun, hcount, rfl, hwarns, ?_, hsilent, ?_⟩
  · intro hright
    exact warning_cleared rfl rfl (by decide) hright hwarns
  · intro hright
    have hcreated := timestamp_createdAt hrun hr
    refine hsilent (hright.2.mpr ?_)
    rw [freshSince, ← hcreated, htime]
    exact (by decide : ledgerBump - (5 + 5 * 2 ^ 32 - max 5 31536005) / 5 ≤ 0)

end Lifetimes

end AtomicIp.IpRegistry
