import AtomicIp.Lib.Checks
import AtomicIp.Lib.Lookup
import AtomicIp.Lib.Run
import AtomicIp.Swap.Types

/-!
The manifest of the contract's interface, and the comparison of two manifests that an upgrade
has to pass. The contract's own `upgrade` compares nothing; `validateUpgrade` does.
-/

set_option autoImplicit false

namespace AtomicIp.AtomicSwap

open Checks

structure FunctionEntry where
  name : String
  signature : String
  deriving DecidableEq

structure ErrorEntry where
  name : String
  code : ℕ
  deriving DecidableEq

structure ContractSchema where
  version : ℕ
  functions : List FunctionEntry
  errors : List ErrorEntry
  storageKeys : List String
  deriving DecidableEq

def findFunction (haystack : List FunctionEntry) (name : String) : Option FunctionEntry :=
  haystack.find? fun entry => entry.name = name

def findError (haystack : List ErrorEntry) (name : String) : Option ErrorEntry :=
  haystack.find? fun entry => entry.name = name

def containsString (haystack : List String) (needle : String) : Bool :=
  haystack.any fun s => s = needle

def checkEntries {α ω : Type} [DecidableEq ω] (find : String → Option α) (name : α → String)
    (value : α → ω) : List α → Except ContractError Unit
  | [] => .ok ()
  | cur :: rest =>
    match find (name cur) with
    | none => .error .missingFunc
    | some new =>
      if value new ≠ value cur then .error .funcChanged else checkEntries find name value rest

def checkStorageKeys (newKeys : List String) : List String → Except ContractError Unit
  | [] => .ok ()
  | curKey :: rest =>
    if containsString newKeys curKey = false then .error .missingFunc
    else checkStorageKeys newKeys rest

def checkSchemaCompatibility (current newSchema : ContractSchema) : Except ContractError Unit :=
  if newSchema.version ≤ current.version then .error .schemaNotGreater
  else do
    checkEntries (findFunction newSchema.functions) FunctionEntry.name FunctionEntry.signature
      current.functions
    checkEntries (findError newSchema.errors) ErrorEntry.name ErrorEntry.code current.errors
    checkStorageKeys newSchema.storageKeys current.storageKeys

/-- The stored manifest and the code that runs. -/
structure Deployment where
  contractSchema : Option ContractSchema
  wasmHash : BytesN 32

/-- A contract without a manifest takes any. -/
def validateUpgrade (newWasmHash : BytesN 32) (newSchema : ContractSchema) (d : Deployment) :
    Except ContractError Deployment :=
  match d.contractSchema with
  | none => .ok ⟨some newSchema, newWasmHash⟩
  | some current => do
      checkSchemaCompatibility current newSchema
      pure ⟨some newSchema, newWasmHash⟩

section Checks

variable {α ω : Type} [DecidableEq ω] {name : α → String} {value : α → ω} {l new : List α}
  {keys newKeys : List String}

theorem checkEntries_ok {find : String → Option α} :
    checkEntries find name value l = .ok () ↔
      ∀ cur ∈ l, ∃ entry, find (name cur) = some entry ∧ value entry = value cur := by
  induction l with
  | nil => simp [checkEntries]
  | cons cur rest ih =>
    rw [checkEntries, List.forall_mem_cons]
    cases hfind : find (name cur) with
    | none => simp
    | some entry =>
      by_cases hvalue : value entry = value cur
      · simp [hvalue, ih]
      · simp [hvalue]

theorem checkEntries_carries :
    checkEntries (fun k => new.find? fun entry => name entry = k) name value l = .ok () ↔
      Carries name value l new := by
  simp only [checkEntries_ok, find?_firstWith, Carries]

theorem containsString_iff {needle : String} :
    containsString keys needle = true ↔ needle ∈ keys := by
  simp [containsString]

theorem checkStorageKeys_ok : checkStorageKeys newKeys keys = .ok () ↔ keys ⊆ newKeys := by
  induction keys with
  | nil => simp [checkStorageKeys]
  | cons key rest ih =>
    rw [checkStorageKeys, List.cons_subset, ← containsString_iff]
    cases containsString newKeys key with
    | true => simp [ih]
    | false => simp

end Checks

/-- Nothing of `a` is missing in `b` or changed there. -/
structure Extends (a b : ContractSchema) : Prop where
  version : a.version < b.version
  functions : Carries FunctionEntry.name FunctionEntry.signature a.functions b.functions
  errors : Carries ErrorEntry.name ErrorEntry.code a.errors b.errors
  storageKeys : a.storageKeys ⊆ b.storageKeys

section Compatibility

variable {a b c : ContractSchema} {d d' : Deployment} {upgrade : BytesN 32 × ContractSchema}
  {tr : List ((BytesN 32 × ContractSchema) × Deployment)}

theorem Extends.trans (h₁ : Extends a b) (h₂ : Extends b c) : Extends a c where
  version := h₁.version.trans h₂.version
  functions := h₁.functions.trans h₂.functions
  errors := h₁.errors.trans h₂.errors
  storageKeys := List.Subset.trans h₁.storageKeys h₂.storageKeys

instance : Trans Extends Extends Extends := ⟨Extends.trans⟩

theorem checkSchemaCompatibility_ok :
    checkSchemaCompatibility a b = .ok () ↔ Extends a b := by
  rw [checkSchemaCompatibility, guard_ok, seq_ok, seq_ok, not_le]
  constructor
  · intro h
    obtain ⟨hversion, hfunctions, herrors, hkeys⟩ := h
    exact ⟨hversion, checkEntries_carries.mp hfunctions, checkEntries_carries.mp herrors,
      checkStorageKeys_ok.mp hkeys⟩
  · intro h
    exact ⟨h.version, checkEntries_carries.mpr h.functions, checkEntries_carries.mpr h.errors,
      checkStorageKeys_ok.mpr h.storageKeys⟩

def UpgradeStep (d : Deployment) (upgrade : BytesN 32 × ContractSchema) (d' : Deployment) : Prop :=
  validateUpgrade upgrade.1 upgrade.2 d = .ok d'

theorem UpgradeStep.extends (h : UpgradeStep d upgrade d') (hstored : d.contractSchema = some a) :
    ∃ b, d'.contractSchema = some b ∧ Extends a b := by
  rw [UpgradeStep, validateUpgrade, hstored] at h
  obtain ⟨hcheck, hupgraded⟩ := seq_ok.mp h
  cases hupgraded
  exact ⟨upgrade.2, rfl, checkSchemaCompatibility_ok.mp hcheck⟩

theorem upgraded_extends (hrun : Run UpgradeStep d tr d') (hstored : d.contractSchema = some a) :
    ∃ b, d'.contractSchema = some b ∧ (b = a ∨ Extends a b) := by
  refine hrun.invariant (I := fun d' => ∃ b, d'.contractSchema = some b ∧ (b = a ∨ Extends a b))
    ⟨a, hstored, .inl rfl⟩ fun _ _ _ hI hstep => ?_
  obtain ⟨b, hb, hsame | hextends⟩ := hI
  · obtain ⟨c, hc, hbc⟩ := hstep.extends hb
    exact ⟨c, hc, .inr (hsame ▸ hbc)⟩
  · obtain ⟨c, hc, hbc⟩ := hstep.extends hb
    exact ⟨c, hc, .inr (hextends.trans hbc)⟩

/-- The check is exact, and no chain of upgrades it accepts drops or changes anything, neither
among manifests nor on a deployed contract. -/
theorem upgrades_compatible :
    (∀ a b, checkSchemaCompatibility a b = .ok () ↔
      a.version < b.version ∧
      (∀ f ∈ a.functions, ∃ g, FirstWith FunctionEntry.name f.name b.functions g ∧
        g.signature = f.signature) ∧
      (∀ e ∈ a.errors, ∃ g, FirstWith ErrorEntry.name e.name b.errors g ∧ g.code = e.code) ∧
      ∀ key ∈ a.storageKeys, key ∈ b.storageKeys) ∧
    (∀ (first : ContractSchema) (rest : List ContractSchema) (hne : rest ≠ []),
      (first :: rest).IsChain (fun a b => checkSchemaCompatibility a b = .ok ()) →
      (first :: rest).Pairwise (fun a b => a.version < b.version) ∧
        checkSchemaCompatibility first (rest.getLast hne) = .ok ()) ∧
    ∀ d tr d' a, Run UpgradeStep d tr d' → d.contractSchema = some a →
      ∃ b, d'.contractSchema = some b ∧ (b = a ∨ checkSchemaCompatibility a b = .ok ()) := by
  refine ⟨?_, ?_, ?_⟩
  · intro a b
    rw [checkSchemaCompatibility_ok]
    constructor
    · intro h
      exact ⟨h.version, h.functions, h.errors, h.storageKeys⟩
    · intro h
      obtain ⟨hversion, hfunctions, herrors, hkeys⟩ := h
      exact ⟨hversion, hfunctions, herrors, hkeys⟩
  · intro first rest hne hchain
    simp only [checkSchemaCompatibility_ok] at hchain ⊢
    have hall := List.isChain_iff_pairwise.mp hchain
    refine ⟨hall.imp Extends.version, ?_⟩
    exact (List.pairwise_cons.mp hall).1 _ (List.getLast_mem hne)
  · intro d tr d' a hrun hstored
    simp only [checkSchemaCompatibility_ok]
    exact upgraded_extends hrun hstored

end Compatibility

section Versions

def firstSchema : ContractSchema where
  version := 1
  functions := [⟨"get_swap", "get_swap(swap_id:u64)->Option<SwapRecord>"⟩]
  errors := [⟨"SwapNotFound", 1⟩]
  storageKeys := ["Swap"]

def secondSchema : ContractSchema where
  version := 2
  functions := ⟨"swap_count", "swap_count()->u64"⟩ :: firstSchema.functions
  errors := firstSchema.errors
  storageKeys := ["Swap", "Paused"]

/-- The second entry for `get_swap` is never looked at. -/
def thirdSchema : ContractSchema where
  version := 5
  functions := secondSchema.functions ++ [⟨"get_swap", "get_swap(swap_id:u64)->SwapRecord"⟩]
  errors := firstSchema.errors ++ [⟨"InvalidKey", 2⟩]
  storageKeys := ["Paused", "Swap"]

theorem third_keeps_first :
    [firstSchema, secondSchema, thirdSchema].Pairwise (fun a b => a.version < b.version) ∧
      checkSchemaCompatibility firstSchema thirdSchema = .ok () := by
  have hsecond : checkSchemaCompatibility firstSchema secondSchema = .ok () := by decide
  have hthird : checkSchemaCompatibility secondSchema thirdSchema = .ok () := by decide
  exact upgrades_compatible.2.1 firstSchema [secondSchema, thirdSchema] (by simp)
    (.cons_cons hsecond (.cons_cons hthird (.singleton _)))

end Versions

end AtomicIp.AtomicSwap
