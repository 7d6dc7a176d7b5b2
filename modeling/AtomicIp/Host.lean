import AtomicIp.Lib.Transaction
import Mathlib.Algebra.Group.Int.Defs
import Mathlib.Algebra.Group.Nat.Defs

/-!
What both contracts take from the Soroban host: addresses, byte strings, checked
machine integers, and the ways a call can be aborted. Unsigned integers are natural
numbers and signed ones integers; the width is in the check made where a result is
computed.
-/

set_option autoImplicit false

namespace AtomicIp

/-- An account is named by its 32-byte public key, a contract by its id. -/
inductive Address where
  | account (publicKey : ℕ)
  | contract (id : ℕ)
  deriving DecidableEq, Repr

abbrev Bytes := List UInt8

structure BytesN (n : ℕ) where
  bytes : Bytes
  size : bytes.length = n
  deriving DecidableEq, Repr

namespace BytesN

variable {n : ℕ}

@[ext] theorem ext {a b : BytesN n} (h : a.bytes = b.bytes) : a = b := by
  cases a; cases b; cases h; rfl

def fill (n : ℕ) (b : UInt8) : BytesN n := ⟨List.replicate n b, List.length_replicate⟩

def zero (n : ℕ) : BytesN n := fill n 0

def truncate {m : ℕ} (a : BytesN n) (h : m ≤ n) : BytesN m :=
  ⟨a.bytes.take m, by rw [List.length_take, a.size, Nat.min_eq_left h]⟩

end BytesN

/-- Why the host rolled a call back: an error code of the contract, a missing
authorization, an integer overflow (release builds check them), a refused token
transfer, `unwrap` on nothing, a failed call into another contract, a signature it
rejects, or an exhausted budget. -/
inductive Abort (ε : Type) where
  | contract (error : ε)
  | auth
  | overflow
  | token
  | unwrap
  | invoke
  | signature
  | budget
  deriving DecidableEq, Repr

/-- `u64::to_be_bytes`. -/
def u64BeBytes (x : ℕ) : Bytes := (List.range 8).map fun i => (x / 256 ^ (7 - i)).toUInt8

def i128Min : ℤ := -2 ^ 127
def i128Max : ℤ := 2 ^ 127 - 1

def saturate (lo hi x : ℤ) : ℤ := max lo (min hi x)

def saturatingI128 (x : ℤ) : ℤ := saturate i128Min i128Max x

theorem saturate_le {lo hi x : ℤ} (h : lo ≤ x) : saturate lo hi x ≤ x := by
  unfold saturate; omega

section Checked

variable {ε σ : Type} {s s' : σ}

def fail {α : Type} (e : ε) : Tx (Abort ε) σ α := Tx.abort (.contract e)

def require (p : Prop) [Decidable p] (e : ε) : Tx (Abort ε) σ Unit :=
  Tx.ensure p (.contract e)

def orFail {α : Type} (o : Option α) (e : ε) : Tx (Abort ε) σ α :=
  Tx.orAbort o (.contract e)

def requireAuth (auths : List Address) (a : Address) : Tx (Abort ε) σ Unit :=
  Tx.ensure (a ∈ auths) .auth

def checked {α : Type} (inRange : Prop) [Decidable inRange] (x : α) :
    Tx (Abort ε) σ α :=
  if inRange then pure x else Tx.abort .overflow

def i128 (x : ℤ) : Tx (Abort ε) σ ℤ := checked (i128Min ≤ x ∧ x ≤ i128Max) x

def u64 (x : ℕ) : Tx (Abort ε) σ ℕ := checked (x < 2 ^ 64) x

def u32 (x : ℕ) : Tx (Abort ε) σ ℕ := checked (x < 2 ^ 32) x

@[simp] theorem fail_ok {α : Type} {e : ε} {a : α} :
    ¬ (fail e : Tx (Abort ε) σ α) s = .ok (a, s') := Tx.abort_ok

@[simp] theorem require_ok {p : Prop} [Decidable p] {e : ε} {u : Unit} :
    (require p e : Tx (Abort ε) σ Unit) s = .ok (u, s') ↔ p ∧ s' = s := Tx.ensure_ok

@[simp] theorem orFail_ok {α : Type} {o : Option α} {e : ε} {a : α} :
    (orFail o e : Tx (Abort ε) σ α) s = .ok (a, s') ↔ o = some a ∧ s' = s := Tx.orAbort_ok

@[simp] theorem requireAuth_ok {auths : List Address} {a : Address} {u : Unit} :
    (requireAuth auths a : Tx (Abort ε) σ Unit) s = .ok (u, s') ↔ a ∈ auths ∧ s' = s :=
  Tx.ensure_ok

theorem checked_ok {α : Type} {inRange : Prop} [Decidable inRange] {x y : α} :
    (checked inRange x : Tx (Abort ε) σ α) s = .ok (y, s') ↔
      inRange ∧ y = x ∧ s' = s := by
  by_cases hx : inRange <;> simp [checked, hx]

@[simp] theorem i128_ok {x y : ℤ} :
    (i128 x : Tx (Abort ε) σ ℤ) s = .ok (y, s') ↔
      (i128Min ≤ x ∧ x ≤ i128Max) ∧ y = x ∧ s' = s := checked_ok

@[simp] theorem u64_ok {x y : ℕ} :
    (u64 x : Tx (Abort ε) σ ℕ) s = .ok (y, s') ↔ x < 2 ^ 64 ∧ y = x ∧ s' = s := checked_ok

@[simp] theorem u32_ok {x y : ℕ} :
    (u32 x : Tx (Abort ε) σ ℕ) s = .ok (y, s') ↔ x < 2 ^ 32 ∧ y = x ∧ s' = s := checked_ok

end Checked

end AtomicIp
