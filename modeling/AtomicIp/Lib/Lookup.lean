import Mathlib.Data.List.Basic

set_option autoImplicit false

namespace AtomicIp

variable {α κ ω : Type} {key : α → κ} {value : α → ω} {k : κ} {l l₁ l₂ l₃ : List α} {x y : α}

def FirstWith (key : α → κ) (k : κ) (l : List α) (x : α) : Prop :=
  key x = k ∧ ∃ before after, l = before ++ x :: after ∧ ∀ y ∈ before, key y ≠ k

theorem find?_firstWith [DecidableEq κ] :
    l.find? (fun x => key x = k) = some x ↔ FirstWith key k l x := by
  simp [List.find?_eq_some_iff_append, FirstWith]

theorem FirstWith.mem (h : FirstWith key k l x) : x ∈ l := by
  obtain ⟨-, before, after, hl, -⟩ := h
  rw [hl]
  exact List.mem_append_right _ List.mem_cons_self

/-- Under the key of every entry of `l₁`, the first entry of `l₂` has the same value. -/
def Carries (key : α → κ) (value : α → ω) (l₁ l₂ : List α) : Prop :=
  ∀ x ∈ l₁, ∃ y, FirstWith key (key x) l₂ y ∧ value y = value x

theorem Carries.trans (h₁ : Carries key value l₁ l₂) (h₂ : Carries key value l₂ l₃) :
    Carries key value l₁ l₃ := by
  intro x hx
  obtain ⟨y, hy, hxy⟩ := h₁ x hx
  obtain ⟨z, hz, hyz⟩ := h₂ y hy.mem
  rw [hy.1] at hz
  exact ⟨z, hz, hyz.trans hxy⟩

end AtomicIp
