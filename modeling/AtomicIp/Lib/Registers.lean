import AtomicIp.Lib.Run
import Mathlib.Logic.Function.Basic

/-!
Registers along a run. Where every step either writes one key of a view or leaves the view alone,
the view shows under each key what the last step that wrote the key left there.
-/

set_option autoImplicit false

namespace AtomicIp

open Function

variable {σ κ K V : Type} [DecidableEq K]

def written (shown : K → V) : Option (K × V) → K → V
  | none => shown
  | some (k, v) => update shown k v

def lastWrite (write : σ → κ → Option (K × V)) (s₀ : σ) (k : K) : List (κ × σ) → Option V
  | [] => none
  | (l, _) :: tr =>
    match write (now s₀ tr) l with
    | none => lastWrite write s₀ k tr
    | some (key, v) => if key = k then some v else lastWrite write s₀ k tr

variable {write : σ → κ → Option (K × V)} {view : σ → K → V} {step : σ → κ → σ → Prop}
  {s₀ s s' : σ} {l : κ} {tr : List (κ × σ)} {k : K} {v : V}

theorem lastWrite_next (hnow : now s₀ tr = s) (hshown : ∀ k, view s k =
    (lastWrite write s₀ k tr).getD (view s₀ k)) (hwrite : view s' = written (view s) (write s l)) :
    view s' k = (lastWrite write s₀ k ((l, s') :: tr)).getD (view s₀ k) := by
  rw [lastWrite, hnow, hwrite]
  cases write s l with
  | none => exact hshown k
  | some kv =>
    obtain ⟨key, v⟩ := kv
    by_cases hk : key = k
    · subst hk
      simp [written]
    · simp [written, hk, Ne.symm hk, hshown k]

theorem Run.lastWrite_eq {I : σ → Prop} (hinit : I s₀)
    (hstep : ∀ s l s', I s → step s l s' → I s')
    (hwrites : ∀ s l s', I s → step s l s' → view s' = written (view s) (write s l))
    (hrun : Run step s₀ tr s) (k : K) :
    view s k = (lastWrite write s₀ k tr).getD (view s₀ k) := by
  induction hrun generalizing k with
  | start => rfl
  | next hrun hs ih =>
    exact lastWrite_next hrun.now_eq ih
      (hwrites _ _ _ (hrun.invariant hinit hstep) hs)

theorem happened_of_lastWrite (h : lastWrite write s₀ k tr = some v) :
    Happened (fun a l _ => write a l = some (k, v)) s₀ tr := by
  induction tr with
  | nil => cases h
  | cons p tr ih =>
    obtain ⟨l, s⟩ := p
    rw [happened_cons]
    rw [lastWrite] at h
    cases hwrite : write (now s₀ tr) l with
    | none =>
      rw [hwrite] at h
      exact .inr (ih h)
    | some kv =>
      obtain ⟨key, value⟩ := kv
      simp only [hwrite] at h
      by_cases hk : key = k
      · rw [if_pos hk] at h
        cases h
        rw [hk]
        exact .inl rfl
      · rw [if_neg hk] at h
        exact .inr (ih h)

end AtomicIp
