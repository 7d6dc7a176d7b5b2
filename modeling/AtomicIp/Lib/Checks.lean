import Mathlib.Logic.Basic

set_option autoImplicit false

namespace AtomicIp.Checks

variable {ε α β : Type} {e : ε} {b : β}

/-- `Option::ok_or`. -/
def okOr (o : Option α) (e : ε) : Except ε α :=
  match o with
  | some a => .ok a
  | none => .error e

@[simp] theorem okOr_ok {o : Option α} {a : α} : okOr o e = .ok a ↔ o = some a := by
  cases o with
  | none => simp [okOr]
  | some a' => simp [okOr]

theorem bind_ok {x : Except ε α} {f : α → Except ε β} :
    (x >>= f) = .ok b ↔ ∃ a, x = .ok a ∧ f a = .ok b := by
  cases x with
  | error e' => simp [bind, Except.bind]
  | ok a => simp [bind, Except.bind]

theorem seq_ok {x : Except ε Unit} {y : Except ε β} :
    (x >>= fun _ => y) = .ok b ↔ x = .ok () ∧ y = .ok b := by
  rw [bind_ok]
  constructor
  · intro h
    obtain ⟨⟨⟩, hx, hy⟩ := h
    exact ⟨hx, hy⟩
  · intro h
    exact ⟨(), h⟩

theorem guard_ok {p : Prop} [Decidable p] {x : Except ε β} :
    (if p then .error e else x) = .ok b ↔ ¬ p ∧ x = .ok b := by
  by_cases hp : p
  · simp [hp]
  · simp [hp]

end AtomicIp.Checks
