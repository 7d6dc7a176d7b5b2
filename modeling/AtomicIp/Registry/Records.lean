import AtomicIp.Registry.Wellformed

set_option autoImplicit false

namespace AtomicIp.IpRegistry

open Function

structure Later (r r' : IpRecord) : Prop where
  ipId : r'.ipId = r.ipId
  timestamp : r'.timestamp = r.timestamp
  parentIpId : r'.parentIpId = r.parentIpId
  revoked : r.revoked = true → r'.revoked = true

theorem Later.refl (r : IpRecord) : Later r r := ⟨rfl, rfl, rfl, fun h => h⟩

theorem Later.trans {r r' r'' : IpRecord} (h : Later r r') (h' : Later r' r'') : Later r r'' where
  ipId := h'.ipId.trans h.ipId
  timestamp := h'.timestamp.trans h.timestamp
  parentIpId := h'.parentIpId.trans h.parentIpId
  revoked hrevoked := h'.revoked (h.revoked hrevoked)

def Call.Transfers (ipId : ℕ) (newOwner : Address) (call : Call) : Prop :=
  call = .transferIp ipId newOwner ∨ call = .transferIpOwnership ipId newOwner

structure Edits (env : Env) (call : Call) (i : ℕ) (r r' : IpRecord) : Prop extends
    Later r r' where
  owner : r'.owner = r.owner ∨ call.Transfers i r'.owner ∧ r.owner ∈ env.auths
  commitmentHash : r'.commitmentHash = r.commitmentHash ∨ ∃ secret blindingFactor,
    call = .rotateCommitmentKey i r'.commitmentHash secret blindingFactor ∧
      r.owner ∈ env.auths ∧ r.revoked = false ∧
      commitmentOf env secret blindingFactor = r.commitmentHash

section Steps

variable {env : Env} {c c' : Ledger} {m : Move} {call : Call} {s s' : State} {u : Unit} {i : ℕ}
  {r : IpRecord} {crypto : Crypto} {act : Act}

theorem Revises.refl (r : IpRecord) : Revises r r := ⟨rfl, rfl, rfl, rfl, rfl, fun h => h⟩

theorem Revises.trans {r r' r'' : IpRecord} (h : Revises r r') (h' : Revises r' r'') :
    Revises r r'' where
  ipId := h'.ipId.trans h.ipId
  owner := h'.owner.trans h.owner
  commitmentHash := h'.commitmentHash.trans h.commitmentHash
  timestamp := h'.timestamp.trans h.timestamp
  parentIpId := h'.parentIpId.trans h.parentIpId
  revoked hrevoked := h'.revoked (h.revoked hrevoked)

theorem Revises.edits {r' : IpRecord} (h : Revises r r') : Edits env call i r r' where
  ipId := h.ipId
  timestamp := h.timestamp
  parentIpId := h.parentIpId
  revoked := h.revoked
  owner := .inl h.owner
  commitmentHash := .inl h.commitmentHash

/-- The moves that change neither a hash nor an owner. -/
def Move.minor : Move → Bool
  | .rotated .. | .transferred .. => false
  | _ => true

theorem Step.revises (hstep : Step env c m c') (hwf : c.Wf) (hm : m.minor = true)
    (hr : c.ipRecord i = some r) : ∃ r', c'.ipRecord i = some r' ∧ Revises r r' := by
  cases hstep with
  | rotated | transferred => simp [Move.minor] at hm
  | registered =>
    have hne : i ≠ c.count := by
      intro hi
      rw [hi, hwf.absent] at hr
      cases hr
    exact ⟨r, (update_of_ne hne _ _).trans hr, .refl r⟩
  | @revised j q q' hq hrevises =>
    by_cases hi : i = j
    · subst hi
      obtain rfl := Option.some.inj (hr.symm.trans hq)
      exact ⟨q', update_self .., hrevises⟩
    · exact ⟨r, (update_of_ne hi _ _).trans hr, .refl r⟩

theorem exec_revises (h : exec env call s = .ok ((), s')) (hwf : s.ledger.Wf)
    (hyields : ∀ m, call.yields m → m.minor = true) (hr : s.ledger.ipRecord i = some r) :
    ∃ r', s'.ledger.ipRecord i = some r' ∧ Revises r r' := by
  have hkept := (exec_moves h).invariant
    (I := fun c => c.Wf ∧ ∃ r', c.ipRecord i = some r' ∧ Revises r r') ?_ ⟨hwf, r, hr, .refl r⟩
  · exact hkept.2
  · intro c m c' hm hc hstep
    obtain ⟨hwf, r₁, hr₁, hrevises⟩ := hc
    obtain ⟨r₂, hr₂, hrevises₂⟩ := hstep.revises hwf (hyields m hm) hr₁
    exact ⟨hstep.wf hwf, r₂, hr₂, hrevises.trans hrevises₂⟩

theorem transferIp_edits {ipId : ℕ} {newOwner : Address}
    (h : transferIp env ipId newOwner s = .ok (u, s')) (hcall : call.Transfers ipId newOwner)
    (hr : s.ledger.ipRecord i = some r) :
    ∃ r', s'.ledger.ipRecord i = some r' ∧ Edits env call i r r' := by
  obtain ⟨q, hq, hauth, hledger⟩ := transferIp_ledger h
  rw [hledger]
  by_cases hi : i = ipId
  · subst hi
    obtain rfl := Option.some.inj (hr.symm.trans hq)
    exact ⟨r.ownedBy newOwner, update_self .., ⟨⟨rfl, rfl, rfl, fun h => h⟩, .inr ⟨hcall, hauth⟩,
      .inl rfl⟩⟩
  · exact ⟨r, (update_of_ne hi _ _).trans hr, (Revises.refl r).edits⟩

theorem rotateCommitmentKey_edits {ipId : ℕ} {hash secret blindingFactor : BytesN 32}
    (h : rotateCommitmentKey env ipId hash secret blindingFactor s = .ok (u, s'))
    (hr : s.ledger.ipRecord i = some r) : ∃ r', s'.ledger.ipRecord i = some r' ∧
      Edits env (.rotateCommitmentKey ipId hash secret blindingFactor) i r r' := by
  simp [rotateCommitmentKey] at h
  obtain ⟨q, hq, hauth, hlive, hopens, -, -, rfl⟩ := h
  by_cases hi : i = ipId
  · subst hi
    obtain rfl := Option.some.inj (hr.symm.trans hq)
    exact ⟨r.rehashed hash, update_self .., ⟨⟨rfl, rfl, rfl, fun h => h⟩, .inl rfl,
      .inr ⟨secret, blindingFactor, rfl, hauth, hlive, hopens⟩⟩⟩
  · exact ⟨r, (update_of_ne hi _ _).trans hr, (Revises.refl r).edits⟩

theorem exec_edits (h : exec env call s = .ok ((), s')) (hwf : s.ledger.Wf)
    (hr : s.ledger.ipRecord i = some r) :
    ∃ r', s'.ledger.ipRecord i = some r' ∧ Edits env call i r r' := by
  cases call with
  | transferIp => exact transferIp_edits h (.inl rfl) hr
  | transferIpOwnership => exact transferIp_edits h (.inr rfl) hr
  | rotateCommitmentKey => exact rotateCommitmentKey_edits h hr
  | _ =>
    obtain ⟨r', hr', hrevises⟩ := exec_revises h hwf (by grind [Call.yields, Move.minor]) hr
    exact ⟨r', hr', hrevises.edits⟩

/-- The records are dated in the order of their ids, none of them after `time`. -/
structure Ledger.Dated (c : Ledger) (time : ℕ) : Prop where
  ordered : ∀ i j r q, i ≤ j → c.ipRecord i = some r → c.ipRecord j = some q →
    r.timestamp ≤ q.timestamp
  bounded : ∀ i r, c.ipRecord i = some r → r.timestamp ≤ time

theorem Ledger.Dated.mono {time time' : ℕ} (h : c.Dated time) (hle : time ≤ time') :
    c.Dated time' where
  ordered := h.ordered
  bounded i r hr := Nat.le_trans (h.bounded i r hr) hle

theorem Ledger.Dated.rewrite {time : ℕ} {r' : IpRecord} (h : c.Dated time)
    (hr : c.ipRecord i = some r) (htime : r'.timestamp = r.timestamp)
    (hset : c'.ipRecord = update c.ipRecord i (some r')) : c'.Dated time := by
  have hold : ∀ j q, c'.ipRecord j = some q →
      ∃ q₀, c.ipRecord j = some q₀ ∧ q₀.timestamp = q.timestamp := by
    intro j q hq
    rw [hset] at hq
    rcases update_eq_some hq with ⟨rfl, rfl⟩ | ⟨-, hq⟩
    · exact ⟨r, hr, htime.symm⟩
    · exact ⟨q, hq, rfl⟩
  constructor
  · intro j k p q hle hp hq
    obtain ⟨p₀, hp₀, hptime⟩ := hold j p hp
    obtain ⟨q₀, hq₀, hqtime⟩ := hold k q hq
    have hordered := h.ordered j k p₀ q₀ hle hp₀ hq₀
    omega
  · intro j q hq
    obtain ⟨q₀, hq₀, hqtime⟩ := hold j q hq
    have hbounded := h.bounded j q₀ hq₀
    omega

theorem Ledger.Dated.enroll {time : ℕ} (h : c.Dated time) (hwf : c.Wf)
    (hdated : r.timestamp = time) : (c.enroll r).Dated time := by
  have hcases : ∀ j q, (c.enroll r).ipRecord j = some q →
      (j = c.count ∧ q = r) ∨ (j < c.count ∧ c.ipRecord j = some q) := by
    intro j q hq
    rcases update_eq_some hq with hnew | ⟨-, hold⟩
    · exact .inl hnew
    · exact .inr ⟨((hwf.stored j).mp (by simp [hold])).2, hold⟩
  constructor
  · intro j k p q hle hp hq
    rcases hcases k q hq with ⟨hk, rfl⟩ | ⟨hk, hq⟩
    · rcases hcases j p hp with ⟨-, rfl⟩ | ⟨-, hp⟩
      · exact Nat.le_refl _
      · have hbounded := h.bounded j p hp
        omega
    · rcases hcases j p hp with ⟨hj, -⟩ | ⟨-, hp⟩
      · omega
      · exact h.ordered j k p q hle hp hq
  · intro j q hq
    rcases hcases j q hq with ⟨-, rfl⟩ | ⟨-, hq⟩
    · omega
    · exact h.bounded j q hq

theorem Step.dated (hstep : Step env c m c') (hwf : c.Wf) (h : c.Dated env.timestamp) :
    c'.Dated env.timestamp := by
  cases hstep with
  | registered => exact h.enroll hwf rfl
  | @rotated i r hash hr =>
    have hsame : (r.rehashed hash).timestamp = r.timestamp := rfl
    exact h.rewrite hr hsame rfl
  | @transferred i r owner hr =>
    have hsame : (r.ownedBy owner).timestamp = r.timestamp := rfl
    exact h.rewrite hr hsame rfl
  | revised r' hr hrevises => exact h.rewrite hr hrevises.timestamp rfl

theorem ActStep.dated (hact : ActStep crypto s act s') (hwf : s.ledger.Wf)
    (h : s.ledger.Dated act.timestamp) : s'.ledger.Dated act.timestamp := by
  have hkept := (exec_moves hact).invariant
    (I := fun c => c.Wf ∧ c.Dated act.timestamp) ?_ ⟨hwf, h⟩
  · exact hkept.2
  · intro c m c' _ hc hstep
    exact ⟨hstep.wf hc.1, hstep.dated hc.1 hc.2⟩

end Steps

section Runs

variable {crypto : Crypto} {tr : List (Act × State)} {s : State}

theorem run_wf (hrun : Run (ActStep crypto) State.empty tr s) : s.ledger.Wf :=
  hrun.invariant (I := fun s => s.ledger.Wf) .empty fun _ _ _ h hact => ActStep.wf hact h

def lastTime : List (Act × State) → ℕ
  | [] => 0
  | (act, _) :: _ => act.timestamp

theorem run_dated (hrun : Run (ActStep crypto) State.empty tr s) (htime : Chronological tr) :
    s.ledger.Dated (lastTime tr) := by
  induction hrun with
  | start =>
    constructor
    · intro i j r q _ hr
      simp [State.ledger, State.empty] at hr
    · intro i r hr
      simp [State.ledger, State.empty] at hr
  | @next past s₁ s₂ act hprev hact ih =>
    have hparts := List.pairwise_cons.mp htime
    have hle : lastTime past ≤ act.timestamp := by
      cases past with
      | nil => exact Nat.zero_le _
      | cons p past => exact hparts.1 p (by simp)
    exact hact.dated (run_wf hprev) ((ih hparts.2).mono hle)

theorem run_later (hrun : Run (ActStep crypto) State.empty tr s) :
    ∀ a ∈ visited State.empty tr, ∀ i r, a.ipRecord i = some r →
      ∃ r', s.ipRecord i = some r' ∧ Later r r' := by
  induction hrun with
  | start =>
    intro a ha i r hr
    obtain rfl := List.mem_singleton.mp ha
    exact ⟨r, hr, .refl r⟩
  | next hprev hact ih =>
    intro a ha i r hr
    rcases List.mem_cons.mp ha with rfl | ha
    · exact ⟨r, hr, .refl r⟩
    · obtain ⟨r₁, hr₁, hlater⟩ := ih a ha i r hr
      obtain ⟨r₂, hr₂, hedits⟩ := exec_edits hact (run_wf hprev) hr₁
      exact ⟨r₂, hr₂, hlater.trans hedits.toLater⟩

theorem run_edits (hrun : Run (ActStep crypto) State.empty tr s) :
    ∀ past a act b, (past, a, act, b) ∈ steps State.empty tr → ∀ i r, a.ipRecord i = some r →
      ∃ r', b.ipRecord i = some r' ∧ Edits (act.env crypto) act.call i r r' := by
  have hall := hrun.forall_steps (I := fun _ s => s.ledger.Wf)
    (Q := fun _ a act b => ∀ i r, a.ipRecord i = some r →
      ∃ r', b.ipRecord i = some r' ∧ Edits (act.env crypto) act.call i r r') .empty ?_
  · exact hall.2
  · intro past a act b hwf hact
    exact ⟨hact.wf hwf, fun i r hr => exec_edits hact hwf hr⟩

/-- A record keeps its id, its timestamp and its parent, and stays revoked; a transfer by its
owner gives it another owner, a rotation by him another hash, and nothing else does. -/
theorem records_change (hrun : Run (ActStep crypto) State.empty tr s) (htime : Chronological tr) :
    (∀ past a act b, (past, a, act, b) ∈ steps State.empty tr → ∀ i r, a.ipRecord i = some r →
      ∃ r', b.ipRecord i = some r' ∧ Edits (act.env crypto) act.call i r r') ∧
    (∀ a ∈ visited State.empty tr, ∀ i r, a.ipRecord i = some r →
      ∃ r', s.ipRecord i = some r' ∧ Later r r') ∧
    ∀ i j r q, i ≤ j → s.ipRecord i = some r → s.ipRecord j = some q →
      r.timestamp ≤ q.timestamp :=
  ⟨run_edits hrun, run_later hrun, (run_dated hrun htime).ordered⟩

end Runs

section Sales

open Scenario

theorem record_changed : ∃ (a s : State) (r r' q : IpRecord), a.ipRecord 1 = some r ∧
    r.owner = inventor ∧ s.ipRecord 1 = some r' ∧ r'.owner = rival ∧ Later r r' ∧
    s.ipRecord 2 = some q ∧ r'.timestamp ≤ q.timestamp := by
  obtain ⟨tr, a, hrun, hacts, hseen⟩ := played State.empty
    [act 5 inventor (.commitIp inventor design 0)]
    (fun a => ((a.ipRecord 1).any fun r => r.owner = inventor) &&
      endsIn perform [act 6 inventor (.transferIp 1 rival), act 7 rival (.revokeIp 1),
        act 7 rival (.commitIp rival laterDesign 0)] a
        fun s => ((s.ipRecord 1).any fun r => r.owner = rival) && (s.ipRecord 2).isSome)
    (by decide)
  simp only [Bool.and_eq_true, Option.any_eq_true, decide_eq_true_eq] at hseen
  obtain ⟨⟨r, hr, howner⟩, hlater⟩ := hseen
  obtain ⟨tr', s, hrun', hacts', hseen'⟩ := played _ _ _ hlater
  simp only [Bool.and_eq_true, Option.any_eq_true, decide_eq_true_eq] at hseen'
  obtain ⟨⟨r', hr', howner'⟩, hsecond⟩ := hseen'
  obtain ⟨q, hq⟩ := Option.isSome_iff_exists.mp hsecond
  have htime : Chronological (tr' ++ tr) := by
    have hordered : ((tr' ++ tr).map Prod.fst).Pairwise fun later earlier : Act =>
        earlier.timestamp ≤ later.timestamp := by
      rw [List.map_append, hacts, hacts']
      simp [act]
    exact List.pairwise_map.mp hordered
  obtain ⟨-, hkept, hordered⟩ := records_change (hrun.trans hrun') htime
  obtain ⟨r'', hr'', hlater⟩ := hkept a (hrun.mem_visited_append tr') 1 r hr
  obtain rfl := Option.some.inj (hr'.symm.trans hr'')
  exact ⟨a, s, r, r', q, hr, howner, hr', howner', hlater, hq,
    hordered 1 2 r' q (by omega) hr' hq⟩

end Sales

end AtomicIp.IpRegistry
