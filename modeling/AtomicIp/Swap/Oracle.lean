import AtomicIp.Lib.Registers
import AtomicIp.Swap.Tables

set_option autoImplicit false

namespace AtomicIp.AtomicSwap

open Function Tx

def getOracleConfig (s : State) : Option OracleConfig := s.oracleConfig

def getOraclePrice (env : Env) (token : Address) : SwapTx ℤ := fetchOraclePrice env token

/-- The oracle is the only register of its table. -/
def State.oracle (s : State) (_ : Unit) : Option OracleConfig := s.oracleConfig

def writesOracle (_ : State) (act : Act) : Option (Unit × Option OracleConfig) :=
  match act.call with
  | some (.setOracle _ oracleAddress enabled) => some ((), some ⟨oracleAddress, enabled⟩)
  | _ => none

section Steps

variable {env : Env} {s s' : State} {act : Act} {token : Address} {price : ℤ}

instance : Aside State.oracle := ⟨fun _ _ _ => rfl⟩

theorem blind_oracle {t : Table} (ht : t ≠ .oracle) : Blind t State.oracle := by
  cases t with
  | oracle => exact absurd rfl ht
  | _ => exact ⟨fun _ => rfl⟩

theorem ActStep.oracle (hact : ActStep s act s') :
    s'.oracle = written s.oracle (writesOracle s act) := by
  cases hact with
  | elsewhere => rfl
  | @call _ _ call hexec =>
    cases call with
    | setOracle =>
      simp [exec, setOracle] at hexec
      obtain ⟨-, -, rfl⟩ := hexec
      funext u
      rfl
    | _ =>
      refine exec_frame State.oracle hexec fun t ht => blind_oracle ?_
      rintro rfl
      simp [Call.writes] at ht

def SetsOracle (config : OracleConfig) (s : State) (act : Act) : Prop :=
  ∃ caller, act.call = some (.setOracle caller config.oracleAddress config.enabled) ∧
    s.persistentAdmin = some caller ∧ caller ∈ act.env.auths

theorem ActStep.setsOracle {config : OracleConfig} (hact : ActStep s act s')
    (hwrite : writesOracle s act = some ((), some config)) : SetsOracle config s act := by
  unfold writesOracle at hwrite
  split at hwrite
  · next caller oracleAddress enabled hcall =>
    cases hwrite
    cases hact with
    | elsewhere => cases hcall
    | call hexec =>
      cases hcall
      simp [exec, setOracle] at hexec
      obtain ⟨hauth, hadmin, -⟩ := hexec
      exact ⟨caller, rfl, hadmin, hauth⟩
  · cases hwrite

theorem getOraclePrice_ok : getOraclePrice env token s = .ok (price, s') ↔
    ∃ oracle, getOracleConfig s = some ⟨oracle, true⟩ ∧ env.oracle oracle token = some price ∧
      0 < price ∧ s' = s := by
  simp only [getOraclePrice, fetchOraclePrice, loadOracleConfig, Tx.bind_ok, Tx.load_ok, orFail_ok,
    require_ok, Tx.orAbort_ok, Tx.pure_ok]
  constructor
  · intro h
    obtain ⟨_, _, ⟨rfl, rfl⟩, ⟨oracle, enabled⟩, _, ⟨hconfig, rfl⟩, _, _, ⟨henabled, rfl⟩, x, _,
      ⟨hprice, rfl⟩, _, _, ⟨hpos, rfl⟩, rfl, rfl⟩ := h
    obtain rfl : enabled = true := henabled
    exact ⟨oracle, hconfig, hprice, hpos, rfl⟩
  · intro h
    obtain ⟨oracle, hconfig, hprice, hpos, rfl⟩ := h
    exact ⟨_, s', ⟨rfl, rfl⟩, ⟨oracle, true⟩, s', ⟨hconfig, rfl⟩, (), s', ⟨rfl, rfl⟩, price, s',
      ⟨hprice, rfl⟩, (), s', ⟨hpos, rfl⟩, rfl, rfl⟩

theorem validatePriceBounds_ok {minPrice maxPrice : ℤ} {u : Unit} :
    validatePriceBounds price minPrice maxPrice s = .ok (u, s') ↔
      (0 < minPrice → minPrice ≤ price) ∧ (0 < maxPrice → price ≤ maxPrice) ∧ s' = s := by
  simp only [validatePriceBounds, Tx.bind_ok, require_ok, not_and, not_lt]
  constructor
  · intro h
    obtain ⟨_, _, ⟨hmin, rfl⟩, hmax, rfl⟩ := h
    exact ⟨hmin, hmax, rfl⟩
  · intro h
    obtain ⟨hmin, hmax, rfl⟩ := h
    exact ⟨(), s', ⟨hmin, rfl⟩, hmax, rfl⟩

end Steps

section Runs

variable {balance : Address → Address → ℤ} {tr : List (Act × State)} {s s' : State} {env : Env}
  {token seller buyer : Address} {ipId approvals id : ℕ} {referrer : Option Address}
  {collateral minPrice maxPrice : ℤ} {insured : Bool} {config : OracleConfig}

theorem initiateSwapWithOraclePrice_ok :
    initiateSwapWithOraclePrice env token ipId seller buyer approvals referrer collateral insured
        minPrice maxPrice s = .ok (id, s') ↔
      ∃ price s₁, getOraclePrice env token s = .ok (price, s) ∧
        (0 < minPrice → minPrice ≤ price) ∧ (0 < maxPrice → price ≤ maxPrice) ∧
        initiateSwap env token ipId seller price buyer approvals referrer collateral insured s =
          .ok (id, s₁) ∧ s' = s₁.published [⟨"ora_price", .oraclePriceUsed id price⟩] := by
  have hasks : fetchOraclePrice env token = getOraclePrice env token := rfl
  simp only [initiateSwapWithOraclePrice, hasks, Tx.bind_ok, validatePriceBounds_ok, publish_ok,
    Tx.pure_ok]
  constructor
  · intro h
    obtain ⟨price, _, hprice, _, _, ⟨hmin, hmax, rfl⟩, _, s₁, hinitiate, _, _, rfl, rfl, rfl⟩ := h
    obtain ⟨oracle, -, -, -, rfl⟩ := getOraclePrice_ok.mp hprice
    exact ⟨price, s₁, hprice, hmin, hmax, hinitiate, rfl⟩
  · intro h
    obtain ⟨price, s₁, hprice, hmin, hmax, hinitiate, rfl⟩ := h
    exact ⟨price, s, hprice, (), s, ⟨hmin, hmax, rfl⟩, id, s₁, hinitiate, (), _, rfl, rfl, rfl⟩

theorem run_oracle (hrun : Run ActStep (State.empty balance) tr s) :
    getOracleConfig s = (lastWrite writesOracle (State.empty balance) () tr).getD none := by
  have hwrites : ∀ s act s', True → ActStep s act s' →
      State.oracle s' = written (State.oracle s) (writesOracle s act) :=
    fun _ _ _ _ hact => hact.oracle
  exact hrun.lastWrite_eq trivial (fun _ _ _ _ _ => trivial) hwrites ()

/-- In every run the oracle is the one set last, in a call that the admin of the time has signed. A
sale at its price is a plain sale at the positive price that this oracle, while enabled, gives
within the seller's bounds, and is refused otherwise. -/
theorem oracle_sales (hrun : Run ActStep (State.empty balance) tr s) :
    (∀ config, getOracleConfig s = some config ↔
      lastWrite writesOracle (State.empty balance) () tr = some (some config)) ∧
    (∀ config, getOracleConfig s = some config →
      Happened (fun a act _ => SetsOracle config a act) (State.empty balance) tr) ∧
    ∀ env token ipId seller buyer approvals referrer collateral insured minPrice maxPrice id s',
      initiateSwapWithOraclePrice env token ipId seller buyer approvals referrer collateral insured
          minPrice maxPrice s = .ok (id, s') ↔
        ∃ oracle price s₁, getOracleConfig s = some ⟨oracle, true⟩ ∧
          env.oracle oracle token = some price ∧ 0 < price ∧
          (0 < minPrice → minPrice ≤ price) ∧ (0 < maxPrice → price ≤ maxPrice) ∧
          initiateSwap env token ipId seller price buyer approvals referrer collateral insured s =
            .ok (id, s₁) ∧ s' = s₁.published [⟨"ora_price", .oraclePriceUsed id price⟩] := by
  have hlast : ∀ config, getOracleConfig s = some config ↔
      lastWrite writesOracle (State.empty balance) () tr = some (some config) := by
    intro config
    rw [run_oracle hrun]
    cases lastWrite writesOracle (State.empty balance) () tr with
    | none => simp
    | some config' => simp
  refine ⟨hlast, fun config hconfig => ?_, ?_⟩
  · obtain ⟨past, a, act, b, hmem, hwrite⟩ := happened_of_lastWrite ((hlast config).mp hconfig)
    exact ⟨past, a, act, b, hmem, (hrun.step_of_mem hmem).setsOracle hwrite⟩
  · intros
    rw [initiateSwapWithOraclePrice_ok]
    constructor
    · intro h
      obtain ⟨price, s₁, hprice, hmin, hmax, hinitiate, hs'⟩ := h
      obtain ⟨oracle, hconfig, hanswer, hpos, -⟩ := getOraclePrice_ok.mp hprice
      exact ⟨oracle, price, s₁, hconfig, hanswer, hpos, hmin, hmax, hinitiate, hs'⟩
    · intro h
      obtain ⟨oracle, price, s₁, hconfig, hanswer, hpos, hmin, hmax, hinitiate, hs'⟩ := h
      exact ⟨price, s₁, getOraclePrice_ok.mpr ⟨oracle, hconfig, hanswer, hpos, rfl⟩, hmin, hmax,
        hinitiate, hs'⟩

end Runs

section Sales

open Scenario

def quoting : Env := { env [seller] 4 with oracle := fun _ _ => some 700 }

/-- The second design of the seller is offered at the price of the oracle that he has set. -/
theorem quoted_sale_priced : ∃ (tr : List (Act × State)) (s s' : State) (oracle : Address)
    (price : ℤ), Run ActStep (State.empty funds) tr s ∧
      initiateSwapWithOraclePrice quoting token 2 seller buyer 0 none 0 false 500 900 s =
        .ok (1, s') ∧
      getOracleConfig s = some ⟨oracle, true⟩ ∧ quoting.oracle oracle token = some price ∧
      500 ≤ price ∧ price ≤ 900 := by
  obtain ⟨s, hs, s', hsale⟩ : ∃ s, play (State.empty funds)
      (offer ++ [(env [seller] 3, Call.setOracle seller stranger true)]) = .ok s ∧
      ∃ s', initiateSwapWithOraclePrice quoting token 2 seller buyer 0 none 0 false 500 900 s =
        .ok (1, s') := ⟨_, rfl, _, rfl⟩
  obtain ⟨tr, hrun⟩ : ∃ tr, Run (Restrict ActStep Always) (State.empty funds) tr s :=
    play_run hs (fun _ _ _ => trivial) .start
  have hall : Run ActStep (State.empty funds) tr s := hrun.mono fun _ _ _ h => h.1
  obtain ⟨oracle, price, s₁, hconfig, hanswer, -, hmin, hmax, -⟩ :=
    ((oracle_sales hall).2.2 _ _ _ _ _ _ _ _ _ _ _ _ _).mp hsale
  exact ⟨tr, s, s', oracle, price, hall, hsale, hconfig, hanswer, hmin (by decide),
    hmax (by decide)⟩

end Sales

end AtomicIp.AtomicSwap
