import AtomicIp.Swap.Accounts
import AtomicIp.Swap.Tables

/-!
Who may act as the admin. Two entries hold an admin, one in instance storage and one in
persistent storage; each of the admin's operations asks one of them, and nothing brings the
two together.
-/

set_option autoImplicit false

namespace AtomicIp.AtomicSwap

open Tx

inductive AdminOp where
  | pause | resolveDispute | adminRollbackSwap | setOracle | upgrade | adminSetProtocolConfig
  deriving DecidableEq

/-- What the operation asks about the admin before it does its work. -/
def AdminOp.check (env : Env) (caller : Address) : AdminOp → SwapTx Unit
  | .pause | .resolveDispute | .adminRollbackSwap => do
      requireAuth env.auths caller
      requireAdmin caller
  | .setOracle => do
      requireAuth env.auths caller
      let stored ← Tx.load fun s => s.persistentAdmin
      let admin ← orFail stored .notInitialized
      require (caller = admin) .unauthorized
  | .upgrade => do
      let stored ← Tx.load fun s => s.persistentAdmin
      let admin ← orFail stored .unauthorizedUpg
      requireAuth env.auths admin
  | .adminSetProtocolConfig => do
      let stored ← Tx.load fun s => s.persistentAdmin
      let admin ← adoptContractAdmin env stored
      require (currentContractAddress = admin) .unauthorizedUpg
      requireAuth env.auths admin

def Call.Performs (caller : Address) : AdminOp → Call → Prop
  | .pause, .pause a | .resolveDispute, .resolveDispute _ a _
  | .adminRollbackSwap, .adminRollbackSwap _ a _ | .setOracle, .setOracle a _ _ => a = caller
  | .upgrade, .upgrade _ | .adminSetProtocolConfig, .adminSetProtocolConfig .. => True
  | _, _ => False

/-- The authorisation of the address alone passes the check. -/
def Suffices (s : State) (a : Address) (op : AdminOp) : Prop :=
  ∃ env caller s', env.auths = [a] ∧ op.check env caller s = .ok ((), s')

def Call.MakesAdmin : Call → Prop
  | .setAdmin _ | .initiateSwap .. | .initiateSwapWithOraclePrice .. => True
  | _ => False

def MakesAdmin : State → Act → State → Prop :=
  fun _ act _ => ∃ call, act.call = some call ∧ call.MakesAdmin

def Installed (a : Address) : State → Act → State → Prop :=
  fun _ act _ => act.call = some (.setAdmin a)

/-- Whoever may do one thing the admin may do may do all of them, and was installed. -/
structure OneAdmin (s₀ : State) (past : List (Act × State)) (s : State) : Prop where
  shared : ∀ a op op', a ≠ currentContractAddress → Suffices s a op → Suffices s a op'
  installed : ∀ a op, a ≠ currentContractAddress → Suffices s a op →
    Happened (Installed a) s₀ past

def AdminOp.admin (s : State) : AdminOp → Option Address
  | .pause | .resolveDispute | .adminRollbackSwap => s.admin
  | .setOracle | .upgrade => s.persistentAdmin
  | .adminSetProtocolConfig =>
      (some (s.persistentAdmin.getD currentContractAddress)).filter (· = currentContractAddress)

section Checks

variable {env : Env} {s s' : State} {call : Call} {u : Unit} {a caller : Address} {op : AdminOp}

theorem adoptContractAdmin_ok {stored : Option Address} :
    adoptContractAdmin env stored s = .ok (a, s') ↔ stored = some a ∧ s' = s ∨
      stored = none ∧ a = currentContractAddress ∧ currentContractAddress ∈ env.auths ∧
        s' = s.setPersistentAdmin (some currentContractAddress) := by
  cases stored with
  | some b =>
    simp only [adoptContractAdmin, Tx.pure_ok, Option.some.injEq, reduceCtorEq, false_and, or_false]
    grind
  | none =>
    simp only [adoptContractAdmin, Tx.bind_ok, requireAuth_ok, Tx.store_ok, Tx.pure_ok]
    grind

theorem checked_of_admin {rest : SwapTx Unit}
    (h : (do requireAuth env.auths caller; requireAdmin caller; rest) s = .ok (u, s')) :
    ∃ s₁, (do requireAuth env.auths caller; requireAdmin caller : SwapTx Unit) s =
      .ok ((), s₁) := by
  obtain ⟨_, _, hauth, hrest⟩ := Tx.bind_ok.mp h
  obtain ⟨_, s₁, hadmin, -⟩ := Tx.bind_ok.mp hrest
  exact ⟨s₁, Tx.bind_ok.mpr ⟨_, _, hauth, hadmin⟩⟩

theorem exec_checked (h : exec env call s = .ok (u, s')) (hop : call.Performs caller op) :
    ∃ s₁, op.check env caller s = .ok ((), s₁) := by
  cases op with
  | pause =>
    cases call with
    | pause =>
      obtain rfl := hop
      exact checked_of_admin h
    | _ => exact hop.elim
  | resolveDispute =>
    cases call with
    | resolveDispute =>
      obtain rfl := hop
      exact checked_of_admin h
    | _ => exact hop.elim
  | adminRollbackSwap =>
    cases call with
    | adminRollbackSwap =>
      obtain rfl := hop
      exact checked_of_admin h
    | _ => exact hop.elim
  | setOracle =>
    cases call with
    | setOracle =>
      obtain rfl := hop
      simp only [exec, setOracle, Tx.bind_ok, requireAuth_ok, Tx.load_ok, orFail_ok,
        require_ok] at h
      simp only [AdminOp.check, Tx.bind_ok, requireAuth_ok, Tx.load_ok, orFail_ok, require_ok]
      grind
    | _ => exact hop.elim
  | upgrade =>
    cases call with
    | upgrade =>
      simp only [exec, upgrade, Tx.bind_ok, requireAuth_ok, Tx.load_ok, orFail_ok] at h
      simp only [AdminOp.check, Tx.bind_ok, requireAuth_ok, Tx.load_ok, orFail_ok]
      grind
    | _ => exact hop.elim
  | adminSetProtocolConfig =>
    cases call with
    | adminSetProtocolConfig =>
      simp only [exec, adminSetProtocolConfig, Tx.bind_ok, requireAuth_ok, Tx.load_ok,
        require_ok] at h
      simp only [AdminOp.check, Tx.bind_ok, requireAuth_ok, Tx.load_ok, require_ok]
      grind
    | _ => exact hop.elim

theorem check_signed (h : op.check env caller s = .ok ((), s')) :
    ∃ a ∈ env.auths, op.admin s = some a := by
  cases op with
  | adminSetProtocolConfig =>
    simp only [AdminOp.check, Tx.bind_ok, Tx.load_ok, adoptContractAdmin_ok, require_ok,
      requireAuth_ok] at h
    simp only [AdminOp.admin, Option.filter_some]
    grind
  | setOracle | upgrade =>
    simp only [AdminOp.check, Tx.bind_ok, requireAuth_ok, Tx.load_ok, orFail_ok, require_ok] at h
    simp only [AdminOp.admin]
    grind
  | _ =>
    simp only [AdminOp.check, Tx.bind_ok, requireAuth_ok, requireAdmin_ok] at h
    simp only [AdminOp.admin]
    grind

theorem suffices_iff : Suffices s a op ↔ op.admin s = some a := by
  constructor
  · intro h
    obtain ⟨env, caller, s', hauths, hcheck⟩ := h
    obtain ⟨b, hb, hadmin⟩ := check_signed hcheck
    rw [hauths, List.mem_singleton] at hb
    rw [hadmin, hb]
  · intro h
    refine ⟨⟨0, [a], fun _ => ⟨fun _ => none, fun _ _ _ => none⟩, fun _ _ => none⟩, a, ?_⟩
    cases op with
    | adminSetProtocolConfig =>
      simp only [AdminOp.admin, Option.filter_some] at h
      simp only [AdminOp.check, Tx.bind_ok, Tx.load_ok, adoptContractAdmin_ok, require_ok,
        requireAuth_ok, List.mem_singleton]
      cases hstored : s.persistentAdmin with
      | none => grind
      | some b => grind
    | setOracle | upgrade =>
      simp only [AdminOp.admin] at h
      simp only [AdminOp.check, Tx.bind_ok, requireAuth_ok, Tx.load_ok, orFail_ok, require_ok,
        List.mem_singleton]
      grind
    | _ =>
      simp only [AdminOp.admin] at h
      simp only [AdminOp.check, Tx.bind_ok, requireAuth_ok, requireAdmin_ok, List.mem_singleton]
      grind

theorem exec_suffices (h : exec env call s = .ok (u, s')) (hop : call.Performs caller op) :
    ∃ a ∈ env.auths, Suffices s a op := by
  obtain ⟨s₁, hcheck⟩ := exec_checked h hop
  obtain ⟨a, ha, hadmin⟩ := check_signed hcheck
  exact ⟨a, ha, suffices_iff.mpr hadmin⟩

end Checks

section Calls

variable {env : Env} {s s' : State} {call : Call} {u : Unit} {a token seller buyer : Address}
  {i approvals : ℕ} {price collateral : ℤ} {referrer : Option Address} {insured : Bool}

instance : Aside State.persistentAdmin := ⟨fun _ _ _ => rfl⟩

instance : Blind .history State.persistentAdmin := ⟨fun _ => rfl⟩

instance : Blind .indexes State.persistentAdmin := ⟨fun _ => rfl⟩

instance : Blind .insurance State.persistentAdmin := ⟨fun _ => rfl⟩

instance : Turns State.persistentAdmin (fun stored => some (stored.getD seller))
    (initPersistentAdmin seller) where
  turned s u s' h := by rw [Tx.store_ok.mp h]; rfl

instance : Turns State.persistentAdmin (fun stored => some (stored.getD seller))
    (initiateSwap env token i seller price buyer approvals referrer collateral insured) := by
  unfold initiateSwap
  repeat refine Turns.step fun _ => ?_
  refine Turns.here fun _ => ?_
  repeat refine Keeps.step fun _ => ?_
  infer_instance

instance {low high : ℤ} : Turns State.persistentAdmin (fun stored => some (stored.getD seller))
    (initiateSwapWithOraclePrice env token i seller buyer approvals referrer collateral insured
      low high) := by
  unfold initiateSwapWithOraclePrice; infer_instance

theorem initiateSwap_authorised {id : ℕ} (h : initiateSwap env token i seller price buyer approvals
    referrer collateral insured s = .ok (id, s')) : seller ∈ env.auths := by
  obtain ⟨_, _, -, h⟩ := Tx.bind_ok.mp h
  obtain ⟨_, _, hauth, -⟩ := Tx.bind_ok.mp h
  exact (requireAuth_ok.mp hauth).1

theorem initiateSwapWithOraclePrice_authorised {id : ℕ} {low high : ℤ}
    (h : initiateSwapWithOraclePrice env token i seller buyer approvals referrer collateral insured
      low high s = .ok (id, s')) : seller ∈ env.auths := by
  obtain ⟨_, _, -, h⟩ := Tx.bind_ok.mp h
  obtain ⟨_, _, -, h⟩ := Tx.bind_ok.mp h
  obtain ⟨_, _, h, -⟩ := Tx.bind_ok.mp h
  exact initiateSwap_authorised h

theorem adminSetProtocolConfig_refused {fee window timeout referral : ℕ} (henv : env.Hosted) :
    adminSetProtocolConfig env fee a window timeout referral s ≠ .ok (u, s') := by
  intro h
  simp only [adminSetProtocolConfig, Tx.bind_ok, Tx.load_ok, adoptContractAdmin_ok, require_ok,
    requireAuth_ok] at h
  unfold Env.Hosted at henv
  grind

theorem exec_admin (h : exec env call s = .ok (u, s')) :
    s'.admin = s.admin ∨ ∃ a, call = .setAdmin a := by
  by_cases hconf : call.yields .configured
  · rcases Call.yields_source hconf with ⟨a, rfl⟩ | ⟨a, rfl⟩
    · simp [exec, initializeContract] at h
      rw [h.2]
      exact .inl rfl
    · exact .inr ⟨a, rfl⟩
  · obtain ⟨q, hmoves⟩ := exec_answers h
    refine .inl (hmoves.invariant (I := fun c => c.admin = s.admin) ?_ rfl)
    intro c m c' hm hsame hstep
    have hne : m ≠ .configured := by
      rintro rfl
      exact hconf hm.1
    rw [(hstep.configuration hne).1, hsame]

end Calls

structure Outside (s : State) : Prop where
  admin : s.admin ≠ some currentContractAddress
  persistentAdmin : s.persistentAdmin ≠ some currentContractAddress

def State.HasAdmin (s : State) : Prop := s.admin.isSome ∨ s.persistentAdmin.isSome

section Steps

variable {env : Env} {s₀ s s' : State} {call : Call} {u : Unit} {act : Act}
  {past : List (Act × State)}

theorem blind_persistentAdmin {t : Table} (h : t ≠ .persistentAdmin) :
    Blind t State.persistentAdmin := by
  cases t with
  | persistentAdmin => exact absurd rfl h
  | _ => exact ⟨fun _ => rfl⟩

theorem exec_persistentAdmin (h : exec env call s = .ok (u, s')) (henv : env.Hosted)
    (hcall : ¬ call.MakesAdmin) : s'.persistentAdmin = s.persistentAdmin := by
  cases call with
  | initiateSwap | initiateSwapWithOraclePrice => exact absurd trivial hcall
  | adminSetProtocolConfig => exact absurd h (adminSetProtocolConfig_refused henv)
  | _ =>
    refine exec_frame State.persistentAdmin h fun t ht => blind_persistentAdmin ?_
    rintro rfl
    simp [Call.writes] at ht

theorem Outside.adopts {seller : Address} (h : Outside s) (hne : seller ≠ currentContractAddress)
    (hadmin : s'.admin = s.admin)
    (hstored : s'.persistentAdmin = some (s.persistentAdmin.getD seller)) :
    Outside s' ∧ s'.HasAdmin := by
  refine ⟨⟨hadmin ▸ h.admin, ?_⟩, .inr (by rw [hstored]; rfl)⟩
  have hpersistent := h.persistentAdmin
  cases hold : s.persistentAdmin with
  | none => simpa [hstored, hold] using hne
  | some admin => simpa [hstored, hold] using hpersistent

theorem exec_makesAdmin (h : exec env call s = .ok (u, s')) (henv : env.Hosted) (hs : Outside s)
    (hcall : call.MakesAdmin) : Outside s' ∧ s'.HasAdmin := by
  have houtside : ∀ a ∈ env.auths, a ≠ currentContractAddress := fun a ha e => henv (e ▸ ha)
  cases call with
  | setAdmin a =>
    simp [exec, setAdmin] at h
    obtain ⟨hauth, -, rfl⟩ := h
    refine ⟨⟨?_, hs.persistentAdmin⟩, .inl rfl⟩
    intro hadmin
    exact houtside a hauth (Option.some.inj hadmin)
  | initiateSwap token i seller =>
    have hadmin := (exec_admin h).resolve_right (by simp)
    obtain ⟨id, h⟩ := Tx.void_ok.mp h
    exact hs.adopts (houtside seller (initiateSwap_authorised h)) hadmin
      (Turns.eq State.persistentAdmin (fun stored => some (stored.getD seller)) h)
  | initiateSwapWithOraclePrice token i seller =>
    have hadmin := (exec_admin h).resolve_right (by simp)
    obtain ⟨id, h⟩ := Tx.void_ok.mp h
    exact hs.adopts (houtside seller (initiateSwapWithOraclePrice_authorised h)) hadmin
      (Turns.eq State.persistentAdmin (fun stored => some (stored.getD seller)) h)
  | _ => exact hcall.elim

theorem exec_hasAdmin (h : exec env call s = .ok (u, s')) (henv : env.Hosted) (hs : Outside s) :
    Outside s' ∧ (s'.HasAdmin ↔ call.MakesAdmin ∨ s.HasAdmin) := by
  by_cases hcall : call.MakesAdmin
  · obtain ⟨houtside, hadmin⟩ := exec_makesAdmin h henv hs hcall
    exact ⟨houtside, by simp [hadmin, hcall]⟩
  · have hadmin := (exec_admin h).resolve_right (by rintro ⟨a, rfl⟩; exact hcall trivial)
    have hpersistent := exec_persistentAdmin h henv hcall
    refine ⟨⟨hadmin ▸ hs.admin, hpersistent ▸ hs.persistentAdmin⟩, ?_⟩
    simp only [State.HasAdmin, hadmin, hpersistent, hcall, false_or]

/-- Somebody holds a right exactly when one of the calls was made that give one. -/
structure Admins (s₀ : State) (past : List (Act × State)) (s : State) : Prop where
  outside : Outside s
  here : now s₀ past = s
  happened : Happened MakesAdmin s₀ past ↔ s.HasAdmin

theorem Admins.step (h : Admins s₀ past s) (hact : ActStep s act s')
    (henv : OnCalls (fun _ env _ => env.Hosted) s act) : Admins s₀ ((act, s') :: past) s' := by
  cases hact with
  | @call _ env call hexec =>
    obtain ⟨houtside, hadmin⟩ := exec_hasAdmin hexec (henv call rfl) h.outside
    refine ⟨houtside, rfl, ?_⟩
    rw [happened_cons, h.happened, hadmin]
    simp [MakesAdmin]
  | elsewhere balance =>
    refine ⟨⟨h.outside.admin, h.outside.persistentAdmin⟩, rfl, ?_⟩
    rw [happened_cons, h.happened]
    simp [MakesAdmin, State.HasAdmin]

/-- Where nobody is the admin nobody has a right, and where somebody is, not every right. -/
theorem oneAdmin_of_outside (h : Outside s) : OneAdmin s₀ past s ↔ ¬ s.HasAdmin := by
  have hconfig : ∀ a, a ≠ currentContractAddress → ¬ Suffices s a .adminSetProtocolConfig := by
    intro a ha hsuffices
    have hadmin := suffices_iff.mp hsuffices
    simp only [AdminOp.admin, Option.filter_some] at hadmin
    grind
  constructor
  · intro hone hhas
    rcases hhas with hhas | hhas
    · obtain ⟨a, ha⟩ := Option.isSome_iff_exists.mp hhas
      have hne : a ≠ currentContractAddress := fun e => h.admin (e ▸ ha)
      have hpause : Suffices s a .pause := suffices_iff.mpr ha
      exact hconfig a hne (hone.shared a _ _ hne hpause)
    · obtain ⟨a, ha⟩ := Option.isSome_iff_exists.mp hhas
      have hne : a ≠ currentContractAddress := fun e => h.persistentAdmin (e ▸ ha)
      have hupgrade : Suffices s a .upgrade := suffices_iff.mpr ha
      exact hconfig a hne (hone.shared a _ _ hne hupgrade)
  · intro hnone
    have hrefused : ∀ a op, a ≠ currentContractAddress → ¬ Suffices s a op := by
      intro a op ha hsuffices
      simp only [State.HasAdmin, not_or, Bool.not_eq_true, Option.isSome_eq_false_iff,
        Option.isNone_iff_eq_none] at hnone
      have hadmin := suffices_iff.mp hsuffices
      cases op with
      | adminSetProtocolConfig => exact hconfig a ha hsuffices
      | setOracle | upgrade => simp [AdminOp.admin, hnone.2] at hadmin
      | _ => simp only [AdminOp.admin, hnone.1, reduceCtorEq] at hadmin
    exact ⟨fun a op _ ha hsuffices => absurd hsuffices (hrefused a op ha),
      fun a op ha hsuffices => absurd hsuffices (hrefused a op ha)⟩

end Steps

/-- The rights of the admin agree only as long as nobody has any; and they are what the
operations ask for. -/
theorem oneAdmin_iff {balance : Address → Address → ℤ} {tr : List (Act × State)} {s : State}
    (hrun : Run (Restrict ActStep (OnCalls fun _ env _ => env.Hosted)) (State.empty balance) tr s) :
    (OneAdmin (State.empty balance) tr s ↔ ¬ Happened MakesAdmin (State.empty balance) tr) ∧
    ∀ op caller env call s', call.Performs caller op → exec env call s = .ok ((), s') →
      ∃ a ∈ env.auths, Suffices s a op := by
  refine ⟨?_, fun op caller env call s' hop hexec => exec_suffices hexec hop⟩
  have hstart : Admins (State.empty balance) [] (State.empty balance) := by
    refine ⟨⟨fun h => (by cases h), fun h => (by cases h)⟩, rfl, ?_⟩
    simp only [happened_nil, false_iff]
    intro hhas
    rcases hhas with hhas | hhas <;> cases hhas
  have hadmins := hrun.trace_invariant hstart fun _ _ _ _ h hact => h.step hact.1 hact.2
  rw [hadmins.happened]
  exact oneAdmin_of_outside hadmins.outside

theorem never_makesAdmin {s₀ s : State} {tr : List (Act × State)}
    (hrun : Run (Restrict ActStep (OnCalls fun _ env call => env.Hosted ∧ ¬ call.MakesAdmin)) s₀
      tr s) : ¬ Happened MakesAdmin s₀ tr := by
  intro h
  obtain ⟨past, a, act, b, hmem, call, hcall, hmakes⟩ := h
  have hsteps := (hrun.forall_steps (I := fun _ _ => True)
    (Q := fun _ s act _ => OnCalls (fun _ env call => env.Hosted ∧ ¬ call.MakesAdmin) s act)
    trivial fun _ _ _ _ _ hact => ⟨trivial, hact.2⟩).2
  exact (hsteps past a act b hmem call hcall).2 hmakes

section Runs

open Scenario

def batchOffer : List (Env × Call) :=
  [(env [] 0, .initializeContract registry),
    (env [seller] 1, .batchInitiateSwap token [1] seller [1000] buyer 0 none)]

theorem batch_sale_oneAdmin : ∃ tr s,
    Run (Restrict ActStep (OnCalls fun _ env _ => env.Hosted)) (State.empty funds) tr s ∧
    ((s.swap 0).any fun r => r.status = .accepted) ∧ OneAdmin (State.empty funds) tr s := by
  obtain ⟨tr, s, s', hrun, hexec, hseen⟩ := watched
    (OnCalls fun _ env call => env.Hosted ∧ ¬ call.MakesAdmin) funds batchOffer (env [buyer] 2)
    (.acceptSwap 0) (fun _ s => (s.swap 0).any fun r => r.status = .accepted) (by decide)
    (by simp [batchOffer, OnCalls, Call.MakesAdmin, Env.Hosted, env, seller,
      currentContractAddress])
  have hrun' := hrun.next (k := ⟨env [buyer] 2, some (.acceptSwap 0)⟩)
    ⟨.call hexec, by simp [OnCalls, Call.MakesAdmin, Env.Hosted, env, buyer,
      currentContractAddress]⟩
  have hhosted := hrun'.mono fun _ _ _ hact => And.intro hact.1 fun call hcall =>
    (hact.2 call hcall).1
  exact ⟨_, s', hhosted, hseen, (oneAdmin_iff hhosted).1.mpr (never_makesAdmin hrun')⟩

/-- The first seller may upgrade the contract and not pause it; with the installed admin it is
the other way round. -/
theorem seller_upgrades : ∃ balance tr s,
    Run (Restrict ActStep (OnCalls fun _ env _ => env.Hosted)) (State.empty balance) tr s ∧
    Suffices s seller .upgrade ∧ ¬ Suffices s seller .pause ∧ Suffices s stranger .pause ∧
    ¬ Suffices s stranger .upgrade ∧ ¬ OneAdmin (State.empty balance) tr s := by
  obtain ⟨tr, s, s', hrun, hexec, hseen⟩ := watched (OnCalls fun _ env _ => env.Hosted) funds offer
    (env [stranger] 2) (.setAdmin stranger)
    (fun _ s => s.admin = some stranger ∧ s.persistentAdmin = some seller) (by decide)
    (by simp [offer, OnCalls, Env.Hosted, env, seller, currentContractAddress])
  obtain ⟨hadmin, hpersistent⟩ := of_decide_eq_true hseen
  have hrun' := hrun.next (k := ⟨env [stranger] 2, some (.setAdmin stranger)⟩)
    ⟨.call hexec, by simp [OnCalls, Env.Hosted, env, stranger, currentContractAddress]⟩
  have hupgrade : Suffices s' seller .upgrade := suffices_iff.mpr hpersistent
  have hpause : ¬ Suffices s' seller .pause := by
    rw [suffices_iff]
    simp only [AdminOp.admin, hadmin]
    decide
  refine ⟨funds, _, s', hrun', hupgrade, hpause, suffices_iff.mpr hadmin, ?_, ?_⟩
  · rw [suffices_iff]
    simp only [AdminOp.admin, hpersistent]
    decide
  · intro hone
    exact hpause (hone.shared seller .upgrade .pause (by decide) hupgrade)

end Runs

end AtomicIp.AtomicSwap
