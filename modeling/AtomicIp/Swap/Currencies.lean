import AtomicIp.Swap.Tables

set_option autoImplicit false

namespace AtomicIp.AtomicSwap

open Function Tx

def MultiCurrencyConfig.isTokenSupported (config : MultiCurrencyConfig) (token : SupportedToken) :
    Bool :=
  decide (token ∈ config.enabledTokens)

def MultiCurrencyConfig.getTokenBySymbol (config : MultiCurrencyConfig) (symbol : String) :
    Option TokenMetadata :=
  config.tokenMetadata.find? fun metadata => metadata.symbol = symbol

def getMultiCurrencyConfig : SwapTx MultiCurrencyConfig := do
  let stored ← Tx.load fun s => s.multiCurrencyConfig
  orFail stored .swapNotFound

def getSupportedTokens : SwapTx (List SupportedToken) := do
  let stored ← Tx.load fun s => s.supportedTokens
  orFail stored .swapNotFound

def isTokenSupported (token : SupportedToken) : SwapTx Bool := do
  let stored ← Tx.load fun s => s.multiCurrencyConfig
  let config ← orFail stored .swapNotFound
  pure (config.isTokenSupported token)

def getTokenMetadata (symbol : String) : SwapTx TokenMetadata := do
  let stored ← Tx.load fun s => s.multiCurrencyConfig
  let config ← orFail stored .swapNotFound
  orFail (config.getTokenBySymbol symbol) .swapNotFound

def MultiCurrencyConfig.withCustom (custom : Option TokenMetadata) : MultiCurrencyConfig where
  enabledTokens := initial.enabledTokens ++ (custom.map fun _ => SupportedToken.custom).toList
  defaultToken := initial.defaultToken
  tokenMetadata := initial.tokenMetadata ++ custom.toList

/-- The custom token after a call, once currencies are set up. Setting them up anew drops it, and
the first to be listed stays. -/
def Call.relists (listed : Option (Option TokenMetadata)) : Call → Option (Option TokenMetadata)
  | .initializeMultiCurrency _ => some none
  | .addSupportedToken _ .custom metadata => listed.map fun custom => custom.or (some metadata)
  | _ => listed

def listing : List (Act × State) → Option (Option TokenMetadata)
  | [] => none
  | (act, _) :: tr => (act.call.map (Call.relists (listing tr))).getD (listing tr)

def State.currencies (s : State) : Option MultiCurrencyConfig × Option (List SupportedToken) :=
  (s.multiCurrencyConfig, s.supportedTokens)

def Lists (custom : Option (Option TokenMetadata)) (s : State) : Prop :=
  s.multiCurrencyConfig = custom.map .withCustom ∧
    s.supportedTokens =
      custom.map fun custom => (MultiCurrencyConfig.withCustom custom).enabledTokens

section Steps

variable {env : Env} {s s' : State} {act : Act} {call : Call} {caller : Address}
  {custom : Option (Option TokenMetadata)} {token : SupportedToken} {metadata : TokenMetadata}

theorem mem_withCustom {custom : Option TokenMetadata} :
    token ∈ (MultiCurrencyConfig.withCustom custom).enabledTokens ↔
      token ≠ .custom ∨ custom.isSome := by
  cases token <;> cases custom <;>
    simp [MultiCurrencyConfig.withCustom, MultiCurrencyConfig.initial]

instance : Aside State.currencies := ⟨fun _ _ _ => rfl⟩

theorem blind_currencies {t : Table} (ht : t ≠ .currencies) : Blind t State.currencies := by
  cases t with
  | currencies => exact absurd rfl ht
  | _ => exact ⟨fun _ => rfl⟩

theorem Lists.same (h : Lists custom s) (hsame : s'.currencies = s.currencies) :
    Lists custom s' :=
  ⟨(congrArg Prod.fst hsame).trans h.1, (congrArg Prod.snd hsame).trans h.2⟩

theorem initializeMultiCurrency_lists
    (hexec : initializeMultiCurrency env caller s = .ok ((), s')) : Lists (some none) s' := by
  simp [initializeMultiCurrency, storeMultiCurrency] at hexec
  obtain ⟨-, -, rfl⟩ := hexec
  exact ⟨rfl, rfl⟩

theorem addSupportedToken_lists (h : Lists custom s)
    (hexec : addSupportedToken env caller token metadata s = .ok ((), s')) :
    Lists (Call.relists custom (.addSupportedToken caller token metadata)) s' := by
  simp [addSupportedToken, storeMultiCurrency] at hexec
  obtain ⟨-, -, config, hconfig, hadds⟩ := hexec
  obtain ⟨custom, rfl, rfl⟩ := Option.map_eq_some_iff.mp (h.1.symm.trans hconfig)
  rw [mem_withCustom] at hadds
  rcases hadds with ⟨hnew, rfl⟩ | ⟨hold, rfl⟩
  · obtain ⟨rfl, rfl⟩ : token = .custom ∧ custom = none := by simpa using hnew
    exact ⟨rfl, rfl⟩
  · cases custom with
    | some listed => cases token <;> exact h
    | none => cases token with
      | custom => simp at hold
      | _ => exact h

theorem exec_listing (h : Lists custom s) (hexec : exec env call s = .ok ((), s')) :
    Lists (call.relists custom) s' := by
  cases call with
  | initializeMultiCurrency => exact initializeMultiCurrency_lists hexec
  | addSupportedToken => exact addSupportedToken_lists h hexec
  | removeSupportedToken =>
    simp [exec, removeSupportedToken] at hexec
    obtain ⟨-, -, config, ⟨-, rfl⟩, -⟩ := hexec
    exact h
  | _ =>
    refine h.same (exec_frame State.currencies hexec fun t ht => blind_currencies ?_)
    rintro rfl
    simp [Call.writes] at ht

theorem ActStep.relists (h : Lists custom s) (hact : ActStep s act s') :
    Lists ((act.call.map (Call.relists custom)).getD custom) s' := by
  cases hact with
  | call hexec => exact exec_listing h hexec
  | elsewhere => exact h

end Steps

section Runs

variable {balance : Address → Address → ℤ} {tr : List (Act × State)} {s : State}

theorem run_lists (hrun : Run ActStep (State.empty balance) tr s) : Lists (listing tr) s := by
  induction hrun with
  | start => exact ⟨rfl, rfl⟩
  | next hrun hact ih => exact ActStep.relists ih hact

def knownTokens : List TokenMetadata := MultiCurrencyConfig.initial.tokenMetadata

theorem getTokenBySymbol_known {custom : Option TokenMetadata} {row : TokenMetadata}
    (h : row ∈ knownTokens) :
    (MultiCurrencyConfig.withCustom custom).getTokenBySymbol row.symbol = some row := by
  simp only [knownTokens, MultiCurrencyConfig.initial, List.mem_cons, List.not_mem_nil,
    or_false] at h
  rcases h with rfl | rfl | rfl <;> rfl

theorem getTokenBySymbol_custom {custom : Option TokenMetadata} {symbol : String}
    (h : symbol ∉ knownTokens.map TokenMetadata.symbol) :
    (MultiCurrencyConfig.withCustom custom).getTokenBySymbol symbol =
      custom.filter fun metadata => metadata.symbol = symbol := by
  have hnone : knownTokens.find? (fun metadata => metadata.symbol = symbol) = none := by
    rw [List.find?_eq_none]
    intro row hrow hsymbol
    exact h (List.mem_map.mpr ⟨row, hrow, of_decide_eq_true hsymbol⟩)
  refine (List.find?_append ..).trans ?_
  rw [show List.find? _ MultiCurrencyConfig.initial.tokenMetadata = none from hnone,
    Option.none_or]
  cases custom with
  | none => rfl
  | some metadata =>
    by_cases hsymbol : metadata.symbol = symbol <;> simp [Option.filter, hsymbol]

/-- In every run both listings are the one that the calls so far make. The three known tokens are
supported with their own metadata, whatever symbol a custom token takes; besides them there is one
custom token at most, the first listed since currencies were set up. Before that all is refused. -/
theorem currencies_listed (hrun : Run ActStep (State.empty balance) tr s) :
    match listing tr with
    | none => getMultiCurrencyConfig s = .error (.contract .swapNotFound) ∧
        getSupportedTokens s = .error (.contract .swapNotFound) ∧
        (∀ token, isTokenSupported token s = .error (.contract .swapNotFound)) ∧
        ∀ symbol, getTokenMetadata symbol s = .error (.contract .swapNotFound)
    | some custom => getMultiCurrencyConfig s = .ok (.withCustom custom, s) ∧
        getSupportedTokens s = .ok ((MultiCurrencyConfig.withCustom custom).enabledTokens, s) ∧
        (∀ token, isTokenSupported token s = .ok (decide (token ≠ .custom ∨ custom.isSome), s)) ∧
        (∀ row ∈ knownTokens, getTokenMetadata row.symbol s = .ok (row, s)) ∧
        ∀ symbol ∉ knownTokens.map TokenMetadata.symbol, getTokenMetadata symbol s =
          (orFail (custom.filter fun metadata => metadata.symbol = symbol) .swapNotFound :
            SwapTx TokenMetadata) s := by
  obtain ⟨hconfig, htokens⟩ := run_lists hrun
  cases hlisted : listing tr with
  | none =>
    rw [hlisted] at hconfig htokens
    refine ⟨?_, ?_, fun token => ?_, fun symbol => ?_⟩
    · rw [getMultiCurrencyConfig, Tx.load_bind, hconfig]
      rfl
    · rw [getSupportedTokens, Tx.load_bind, htokens]
      rfl
    · rw [isTokenSupported, Tx.load_bind, hconfig]
      rfl
    · rw [getTokenMetadata, Tx.load_bind, hconfig]
      rfl
  | some custom =>
    rw [hlisted] at hconfig htokens
    refine ⟨?_, ?_, fun token => ?_, fun row hrow => ?_, fun symbol hsymbol => ?_⟩
    · rw [getMultiCurrencyConfig, Tx.load_bind, hconfig]
      rfl
    · rw [getSupportedTokens, Tx.load_bind, htokens]
      rfl
    · rw [isTokenSupported, Tx.load_bind, hconfig]
      exact congrArg (fun b => Except.ok (b, s)) (decide_eq_decide.mpr mem_withCustom)
    · rw [getTokenMetadata, Tx.load_bind, hconfig]
      change (orFail ((MultiCurrencyConfig.withCustom custom).getTokenBySymbol row.symbol) _ :
        SwapTx _) s = _
      rw [getTokenBySymbol_known hrow]
      rfl
    · rw [getTokenMetadata, Tx.load_bind, hconfig]
      change (orFail ((MultiCurrencyConfig.withCustom custom).getTokenBySymbol symbol) _ :
        SwapTx _) s = _
      rw [getTokenBySymbol_custom hsymbol]

end Runs

section Sales

open Scenario

def wrapped : TokenMetadata := ⟨"WRAP", 7, some token, false⟩

def listings : List (Env × Call) :=
  [(env [seller] 0, .setAdmin seller), (env [seller] 1, .initializeMultiCurrency seller),
    (env [seller] 2, .addSupportedToken seller .custom wrapped),
    (env [seller] 3, .addSupportedToken seller .custom ⟨"USDC", 0, some token, false⟩)]

/-- The second custom token is not listed, and could not have passed for a known one. -/
theorem wrapped_listed : ∃ (tr : List (Act × State)) (s : State),
    Run ActStep (State.empty funds) tr s ∧ listing tr = some (some wrapped) ∧
      getMultiCurrencyConfig s = .ok (.withCustom (some wrapped), s) ∧
      getTokenMetadata "USDC" s = .ok (⟨"USDC", 6, none, false⟩, s) := by
  obtain ⟨tr, hrecord, hlisted⟩ : ∃ tr, record [] (State.empty funds) listings = some tr ∧
      listing tr = some (some wrapped) := ⟨_, rfl, rfl⟩
  obtain ⟨s, hrun⟩ : ∃ s, Run (Restrict ActStep Always) (State.empty funds) tr s :=
    record_run hrecord (fun _ _ _ => trivial) .start
  have hall : Run ActStep (State.empty funds) tr s := hrun.mono fun _ _ _ h => h.1
  have hviews := currencies_listed hall
  rw [hlisted] at hviews
  exact ⟨tr, s, hall, hlisted, hviews.1, hviews.2.2.2.1 ⟨"USDC", 6, none, false⟩ (by decide)⟩

end Sales

end AtomicIp.AtomicSwap
