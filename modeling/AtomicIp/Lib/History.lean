import AtomicIp.Lib.Run

set_option autoImplicit false

namespace AtomicIp

variable {σ κ α β : Type}

/-- The successive values of a view, oldest first; a value that stays is listed once. -/
def history [DecidableEq α] (view : σ → Option α) (s₀ : σ) : List (κ × σ) → List α
  | [] => (view s₀).toList
  | (_, s) :: tr =>
    if view s = view (now s₀ tr) then history view s₀ tr
    else history view s₀ tr ++ (view s).toList

def gathered (take : κ → Option β) : List (κ × σ) → List β
  | [] => []
  | (k, _) :: tr => gathered take tr ++ (take k).toList

section Histories

variable [DecidableEq α] {view : σ → Option α} {s₀ s s' : σ} {k : κ} {tr : List (κ × σ)}

@[simp] theorem history_nil : history view s₀ ([] : List (κ × σ)) = (view s₀).toList := rfl

theorem history_same (hnow : now s₀ tr = s) (h : view s' = view s) :
    history view s₀ ((k, s') :: tr) = history view s₀ tr := by
  rw [history, hnow, if_pos h]

theorem history_changed (hnow : now s₀ tr = s) (h : view s' ≠ view s) :
    history view s₀ ((k, s') :: tr) = history view s₀ tr ++ (view s').toList := by
  rw [history, hnow, if_neg h]

end Histories

section Labels

variable {take : κ → Option β} {s : σ} {k : κ} {b : β} {tr : List (κ × σ)}

@[simp] theorem gathered_nil : gathered take ([] : List (κ × σ)) = [] := rfl

theorem gathered_none (h : take k = none) : gathered take ((k, s) :: tr) = gathered take tr := by
  simp [gathered, h]

theorem gathered_some (h : take k = some b) :
    gathered take ((k, s) :: tr) = gathered take tr ++ [b] := by
  simp [gathered, h]

end Labels

section Prefixes

variable {step : σ → κ → σ → Prop} {s₀ s a b : σ} {k : κ} {past tr : List (κ × σ)}

theorem Run.before (h : Run step s₀ tr s) (hmem : (past, a, k, b) ∈ steps s₀ tr) :
    Run step s₀ past a := by
  have hall := h.forall_steps (I := fun tr s => Run step s₀ tr s)
    (Q := fun past a _ _ => Run step s₀ past a) .start
    fun _ _ _ _ hrun hs => ⟨hrun.next hs, hrun⟩
  exact hall.2 past a k b hmem

theorem source_mem_visited (hmem : (past, a, k, b) ∈ steps s₀ tr) : a ∈ visited s₀ tr := by
  induction tr with
  | nil => simp [steps] at hmem
  | cons p tr ih =>
    simp only [steps, List.mem_cons, Prod.mk.injEq] at hmem
    rcases hmem with ⟨-, rfl, -, -⟩ | hmem
    · cases tr <;> simp [now, visited]
    · exact List.mem_cons_of_mem _ (ih hmem)

end Prefixes

end AtomicIp
