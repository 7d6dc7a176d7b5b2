import AtomicIp.Lib.Index

set_option autoImplicit false

namespace AtomicIp

open Function

/-- Rows by number, and the next number once one was given out. -/
structure Register (α : Type) where
  rows : ℕ → Option α
  next : Option ℕ

namespace Register

variable {α : Type} (t : Register α)

def count : ℕ := t.next.getD 1

def append (row : α) : Register α := ⟨update t.rows t.count (some row), some (t.count + 1)⟩

def rewrite (n : ℕ) (row : α) : Register α := ⟨update t.rows n (some row), t.next⟩

/-- The rows are those of the numbers given out, and each names its number. -/
structure Numbered (number : α → ℕ) : Prop where
  counted : 1 ≤ t.count
  filled : ∀ n, (t.rows n).isSome ↔ 1 ≤ n ∧ n < t.count
  named : ∀ n row, t.rows n = some row → number row = n

/-- What one step may do: append a fresh row, or rewrite one as allowed. -/
inductive Edit (number : α → ℕ) (fresh : α → Prop) (allowed : α → α → Prop) (t t' : Register α) :
    Prop where
  | kept (h : t' = t)
  | appended (row : α) (hnumber : number row = t.count) (hfresh : fresh row) (h : t' = t.append row)
  | rewritten (n : ℕ) (row row' : α) (hrow : t.rows n = some row)
      (hnumber : number row' = number row)
      (hallowed : allowed row row') (h : t' = t.rewrite n row')

variable {t} {t' : Register α} {number : α → ℕ} {fresh : α → Prop} {allowed : α → α → Prop}

namespace Numbered

theorem empty : (⟨fun _ => none, none⟩ : Register α).Numbered number where
  counted := Nat.le_refl 1
  filled n := by
    simp [count]
    omega
  named n row hrow := by cases hrow

theorem append {row : α} (h : t.Numbered number) (hnumber : number row = t.count) :
    (t.append row).Numbered number where
  counted := Nat.succ_le_succ (Nat.zero_le _)
  filled n := by
    have hcounted := h.counted
    change (update t.rows t.count (some row) n).isSome = true ↔ 1 ≤ n ∧ n < t.count + 1
    by_cases hn : n = t.count
    · subst hn
      rw [update_self]
      simp [hcounted]
    · rw [update_of_ne hn, h.filled]
      omega
  named n other hother := by
    rcases update_eq_some hother with ⟨rfl, rfl⟩ | ⟨-, hold⟩
    · exact hnumber
    · exact h.named n other hold

theorem rewrite {n : ℕ} {row row' : α} (h : t.Numbered number) (hrow : t.rows n = some row)
    (hnumber : number row' = number row) : (t.rewrite n row').Numbered number where
  counted := h.counted
  filled k := by
    change (update t.rows n (some row') k).isSome = true ↔ 1 ≤ k ∧ k < t.count
    by_cases hk : k = n
    · subst hk
      rw [update_self, ← h.filled, hrow]
      exact iff_of_true rfl rfl
    · rw [update_of_ne hk, h.filled]
  named k other hother := by
    rcases update_eq_some hother with ⟨rfl, rfl⟩ | ⟨-, hold⟩
    · exact hnumber.trans (h.named k row hrow)
    · exact h.named k other hold

theorem edit (h : t.Numbered number) (hedit : Edit number fresh allowed t t') :
    t'.Numbered number := by
  cases hedit with
  | kept hsame => exact hsame ▸ h
  | appended row hnumber hfresh hsame => exact hsame ▸ h.append hnumber
  | rewritten n row row' hrow hnumber hallowed hsame => exact hsame ▸ h.rewrite hrow hnumber

end Numbered

theorem Edit.forall_rows {P : α → Prop} (hedit : Edit number fresh allowed t t')
    (hfresh : ∀ row, fresh row → P row) (hallowed : ∀ row row', P row → allowed row row' → P row')
    (h : ∀ n row, t.rows n = some row → P row) : ∀ n row, t'.rows n = some row → P row := by
  intro n other hother
  cases hedit with
  | kept hsame => exact h n other (hsame ▸ hother)
  | appended row hnumber hnew hsame =>
    rw [hsame] at hother
    rcases update_eq_some hother with ⟨-, rfl⟩ | ⟨-, hold⟩
    · exact hfresh other hnew
    · exact h n other hold
  | rewritten k row row' hrow hnumber hrewrite hsame =>
    rw [hsame] at hother
    rcases update_eq_some hother with ⟨-, rfl⟩ | ⟨-, hold⟩
    · exact hallowed row other (h k row hrow) hrewrite
    · exact h n other hold

theorem Edit.later {n : ℕ} {row : α} (hedit : Edit number fresh allowed t t')
    (hn : t.Numbered number) (hrow : t.rows n = some row) :
    ∃ row', t'.rows n = some row' ∧ (row' = row ∨ allowed row row') := by
  cases hedit with
  | kept hsame => exact ⟨row, hsame ▸ hrow, .inl rfl⟩
  | appended new hnumber hnew hsame =>
    have hlt : n < t.count := ((hn.filled n).mp (by rw [hrow]; rfl)).2
    refine ⟨row, ?_, .inl rfl⟩
    rw [hsame]
    exact (update_of_ne (Nat.ne_of_lt hlt) _ _).trans hrow
  | rewritten k old row' hold hnumber hrewrite hsame =>
    by_cases hk : n = k
    · subst hk
      obtain rfl := Option.some.inj (hrow.symm.trans hold)
      exact ⟨row', hsame ▸ update_self .., .inr hrewrite⟩
    · refine ⟨row, ?_, .inl rfl⟩
      rw [hsame]
      exact (update_of_ne hk _ _).trans hrow

end Register

end AtomicIp
