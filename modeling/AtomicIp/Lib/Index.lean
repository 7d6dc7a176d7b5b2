import Mathlib.Data.List.Nodup
import Mathlib.Logic.Function.Basic

set_option autoImplicit false

namespace AtomicIp

open Function

variable {κ : Type}

theorem update_eq_some {α β : Type} [DecidableEq α] {f : α → Option β} {a a' : α} {b b' : β}
    (h : update f a (some b) a' = some b') : (a' = a ∧ b' = b) ∨ (a' ≠ a ∧ f a' = some b') := by
  by_cases ha : a' = a
  · rw [ha, update_self] at h
    exact .inl ⟨ha, (Option.some.inj h).symm⟩
  · rw [update_of_ne ha] at h
    exact .inr ⟨ha, h⟩

def listed (index : κ → Option (List ℕ)) (k : κ) : List ℕ := (index k).getD []

/-- The ids with the key `k`, in the order `R`. -/
structure Indexed (R : ℕ → ℕ → Prop) (key : ℕ → Option κ) (k : κ) (ids : List ℕ) : Prop where
  ordered : ids.Pairwise R
  mem : ∀ i, i ∈ ids ↔ key i = some k

namespace Indexed

variable {R : ℕ → ℕ → Prop} {key key' : ℕ → Option κ} {k : κ} {ids : List ℕ} {i : ℕ}

theorem nil (h : ∀ j, key j ≠ some k) : Indexed R key k [] := ⟨.nil, by simp [h]⟩

theorem congr (h : Indexed R key k ids) (hkey : ∀ j, key' j = some k ↔ key j = some k) :
    Indexed R key' k ids :=
  ⟨h.ordered, fun j => (h.mem j).trans (hkey j).symm⟩

theorem append (h : Indexed R key k ids) (hkey : ∀ j, key' j = some k ↔ key j = some k ∨ j = i)
    (hafter : ∀ j, key j = some k → R j i) : Indexed R key' k (ids ++ [i]) where
  ordered := by
    rw [List.pairwise_append]
    refine ⟨h.ordered, by simp, ?_⟩
    intro j hj i' hi'
    rw [List.mem_singleton.mp hi']
    exact hafter j ((h.mem j).mp hj)
  mem j := by
    rw [List.mem_append, List.mem_singleton, h.mem, hkey]

theorem erase (h : Indexed (· ≠ ·) key k ids)
    (hkey : ∀ j, key' j = some k ↔ key j = some k ∧ j ≠ i) :
    Indexed (· ≠ ·) key' k (ids.erase i) where
  ordered := List.Nodup.erase i h.ordered
  mem j := by
    have hnodup : ids.Nodup := h.ordered
    rw [hnodup.mem_erase_iff, h.mem, hkey, and_comm]

end Indexed

section Filing

variable [DecidableEq κ] {R : ℕ → ℕ → Prop} {key : ℕ → Option κ} {k k' : κ} {i : ℕ}
  {index : κ → Option (List ℕ)}

/-- The index with the id at the end of the list of `k`. -/
def filed (index : κ → Option (List ℕ)) (k : κ) (i : ℕ) : κ → Option (List ℕ) :=
  update index k (some (listed index k ++ [i]))

/-- The index with the id taken out of the list of `k`. -/
def unfiled (index : κ → Option (List ℕ)) (k : κ) (i : ℕ) : κ → Option (List ℕ) :=
  update index k (some ((listed index k).erase i))

@[simp] theorem listed_filed_self : listed (filed index k i) k = listed index k ++ [i] := by
  simp [listed, filed]

theorem listed_filed_of_ne (h : k' ≠ k) : listed (filed index k i) k' = listed index k' := by
  simp [listed, filed, h]

@[simp] theorem listed_unfiled_self :
    listed (unfiled index k i) k = (listed index k).erase i := by
  simp [listed, unfiled]

theorem listed_unfiled_of_ne (h : k' ≠ k) :
    listed (unfiled index k i) k' = listed index k' := by
  simp [listed, unfiled, h]

theorem Indexed.file (h : Indexed R key k' (listed index k')) (hnew : key i = none)
    (hafter : ∀ j, key j = some k' → R j i) :
    Indexed R (update key i (some k)) k' (listed (filed index k i) k') := by
  by_cases hk : k' = k
  · subst hk
    rw [listed_filed_self]
    refine h.append ?_ hafter
    intro j
    by_cases hj : j = i <;> simp [hj]
  · rw [listed_filed_of_ne hk]
    refine h.congr ?_
    intro j
    by_cases hj : j = i
    · simp [hj, hnew, Ne.symm hk]
    · simp [hj]

/-- An id is moved from the list of its key to that of another one, or to the end of its own. -/
theorem Indexed.refile {k₀ : κ} (h : Indexed (· ≠ ·) key k' (listed index k'))
    (hkey : key i = some k₀) :
    Indexed (· ≠ ·) (update key i (some k)) k' (listed (filed (unfiled index k₀ i) k i) k') := by
  have hout : Indexed (· ≠ ·) (update key i none) k' (listed (unfiled index k₀ i) k') := by
    by_cases hk : k' = k₀
    · subst hk
      rw [listed_unfiled_self]
      refine h.erase ?_
      intro j
      by_cases hj : j = i <;> simp [hj]
    · rw [listed_unfiled_of_ne hk]
      refine h.congr ?_
      intro j
      by_cases hj : j = i
      · simp [hj, hkey, Ne.symm hk]
      · simp [hj]
  have hin := hout.file (k := k) (update_self i none key) ?_
  · rwa [update_idem] at hin
  · intro j hj hji
    simp [hji] at hj

end Filing

end AtomicIp
