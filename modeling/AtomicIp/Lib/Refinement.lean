import AtomicIp.Lib.Run

/-!
Refinement: every step of one system is answered by a word of steps of another that keeps the
two related, so every run is answered by the words of its steps, one after the other.
-/

set_option autoImplicit false

namespace AtomicIp

variable {σ τ κ l : Type}

def words (word : σ → κ → List l) (s₀ : σ) : List (κ × σ) → List l
  | [] => []
  | (k, _) :: tr => words word s₀ tr ++ word (now s₀ tr) k

/-- From related states every step is answered by its word, into related states. -/
def Refines (R : σ → τ → Prop) (step : σ → κ → σ → Prop) (step' : τ → l → τ → Prop)
    (word : σ → κ → List l) : Prop :=
  ∀ s k s' t, R s t → step s k s' → ∃ t', Path step' t (word s k) t' ∧ R s' t'

variable {R : σ → τ → Prop} {step : σ → κ → σ → Prop} {step' : τ → l → τ → Prop}
  {word : σ → κ → List l} {s₀ s : σ} {t₀ : τ} {tr : List (κ × σ)}

theorem Run.refines_of {I : σ → Prop} (hinit : I s₀) (hkeep : ∀ s k s', I s → step s k s' → I s')
    (hstep : ∀ s k s' t, I s → R s t → step s k s' → ∃ t', Path step' t (word s k) t' ∧ R s' t')
    (h₀ : R s₀ t₀) (h : Run step s₀ tr s) :
    ∃ t, Path step' t₀ (words word s₀ tr) t ∧ R s t := by
  induction h with
  | start => exact ⟨t₀, .nil, h₀⟩
  | next hrun hs ih =>
    obtain ⟨t, hpath, hrel⟩ := ih
    obtain ⟨t', hword, hrel'⟩ := hstep _ _ _ _ (hrun.invariant hinit hkeep) hrel hs
    refine ⟨t', ?_, hrel'⟩
    rw [words, hrun.now_eq]
    exact hpath.append hword

theorem Run.refines (hrefines : Refines R step step' word) (h₀ : R s₀ t₀) (h : Run step s₀ tr s) :
    ∃ t, Path step' t₀ (words word s₀ tr) t ∧ R s t :=
  h.refines_of (I := fun _ => True) trivial (fun _ _ _ _ _ => trivial)
    (fun s k s' t _ => hrefines s k s' t) h₀

end AtomicIp
