import Mathlib.Algebra.BigOperators.Intervals
import Mathlib.Algebra.Order.BigOperators.Group.Finset
import Mathlib.Algebra.Ring.Int.Defs
import Mathlib.Tactic.SplitIfs

set_option autoImplicit false

namespace AtomicIp

variable {τ α ρ : Type}

structure Transfer (τ α ρ : Type) where
  token : τ
  src : α
  dst : α
  amount : ℤ
  ref : ρ
  deriving DecidableEq, Repr

section Balances

variable [DecidableEq τ] [DecidableEq α]

/-- What the account `a` gains in the token `t` by one transfer. -/
def Transfer.flow (t : τ) (a : α) (m : Transfer τ α ρ) : ℤ :=
  if m.token = t then
    (if m.dst = a then m.amount else 0) - (if m.src = a then m.amount else 0)
  else 0

def post (bal : τ → α → ℤ) (m : Transfer τ α ρ) : τ → α → ℤ :=
  fun t a => bal t a + m.flow t a

def postAll (bal : τ → α → ℤ) (ms : List (Transfer τ α ρ)) : τ → α → ℤ :=
  ms.foldl post bal

theorem postAll_apply (bal : τ → α → ℤ) (ms : List (Transfer τ α ρ)) (t : τ) (a : α) :
    postAll bal ms t a = bal t a + (ms.map (Transfer.flow t a)).sum := by
  induction ms generalizing bal with
  | nil => simp [postAll]
  | cons m ms ih =>
    have htail := ih (post bal m)
    simp only [postAll, List.foldl_cons, List.map_cons, List.sum_cons] at htail ⊢
    rw [htail]
    simp [post, add_assoc]

theorem flow_in {t : τ} {a : α} {m : Transfer τ α ρ} (hs : m.src ≠ a) (hd : m.dst = a) :
    m.flow t a = if m.token = t then m.amount else 0 := by
  simp [Transfer.flow, hs, hd]

theorem postAll_le_of_out {bal : τ → α → ℤ} {ms : List (Transfer τ α ρ)} {t : τ} {a : α}
    (h : ∀ m ∈ ms, m.src = a ∧ 0 ≤ m.amount) : postAll bal ms t a ≤ bal t a := by
  induction ms generalizing bal with
  | nil => exact le_rfl
  | cons m ms ih =>
    obtain ⟨hsrc, hpos⟩ := h m (by simp)
    have hflow : m.flow t a ≤ 0 := by
      unfold Transfer.flow
      split_ifs <;> omega
    have hhead : bal t a + m.flow t a ≤ bal t a := by omega
    exact (ih fun m' hm' => h m' (by simp [hm'])).trans hhead

theorem sum_flow_in {t tok : τ} {a : α} {ms : List (Transfer τ α ρ)}
    (h : ∀ m ∈ ms, m.token = tok ∧ m.src ≠ a ∧ m.dst = a) :
    (ms.map (Transfer.flow t a)).sum =
      if tok = t then (ms.map Transfer.amount).sum else 0 := by
  induction ms with
  | nil => simp
  | cons m ms ih =>
    obtain ⟨htoken, hsrc, hdst⟩ := h m (by simp)
    have htail := ih fun m' hm' => h m' (by simp [hm'])
    by_cases htok : tok = t <;>
      simp [htail, flow_in hsrc hdst, htoken, htok]

theorem sum_flow_out_ge {t tok : τ} {a : α} {ms : List (Transfer τ α ρ)}
    (h : ∀ m ∈ ms, m.token = tok ∧ 0 ≤ m.amount) :
    -(if tok = t then (ms.map Transfer.amount).sum else 0) ≤
      (ms.map (Transfer.flow t a)).sum := by
  induction ms with
  | nil => simp
  | cons m ms ih =>
    obtain ⟨htoken, hamount⟩ := h m (by simp)
    have htail := ih fun m' hm' => h m' (by simp [hm'])
    have hhead : -(if tok = t then m.amount else 0) ≤ m.flow t a := by
      unfold Transfer.flow
      rw [htoken]
      split_ifs <;> omega
    simp only [List.map_cons, List.sum_cons]
    split_ifs at htail hhead ⊢ <;> omega

theorem postAll_ge_of_in {bal : τ → α → ℤ} {ms : List (Transfer τ α ρ)} {t : τ} {a : α}
    (h : ∀ m ∈ ms, m.src ≠ a ∧ 0 ≤ m.amount) : bal t a ≤ postAll bal ms t a := by
  induction ms generalizing bal with
  | nil => exact le_rfl
  | cons m ms ih =>
    obtain ⟨hsrc, hpos⟩ := h m (by simp)
    have hflow : 0 ≤ m.flow t a := by
      unfold Transfer.flow
      rw [if_neg hsrc]
      split_ifs <;> omega
    have hhead : bal t a ≤ bal t a + m.flow t a := by omega
    exact hhead.trans (ih fun m' hm' => h m' (by simp [hm']))

theorem flow_aside {t : τ} {a : α} {m : Transfer τ α ρ} (hs : m.src ≠ a) (hd : m.dst ≠ a) :
    m.flow t a = 0 := by
  simp [Transfer.flow, hs, hd]

theorem sum_flow {t : τ} {m : Transfer τ α ρ} {accounts : Finset α} (hs : m.src ∈ accounts)
    (hd : m.dst ∈ accounts) : ∑ a ∈ accounts, m.flow t a = 0 := by
  unfold Transfer.flow
  by_cases htoken : m.token = t
  · simp [htoken, Finset.sum_sub_distrib, hs, hd]
  · simp [htoken]

theorem postAll_conserves {bal : τ → α → ℤ} {ms : List (Transfer τ α ρ)} {accounts : Finset α}
    (h : ∀ m ∈ ms, m.src ∈ accounts ∧ m.dst ∈ accounts) (t : τ) :
    ∑ a ∈ accounts, postAll bal ms t a = ∑ a ∈ accounts, bal t a ∧
      ∀ a ∉ accounts, postAll bal ms t a = bal t a := by
  induction ms generalizing bal with
  | nil => exact ⟨rfl, fun _ _ => rfl⟩
  | cons m ms ih =>
    obtain ⟨hsrc, hdst⟩ := h m (by simp)
    obtain ⟨hsum, haside⟩ := @ih (post bal m) fun m' hm' => h m' (by simp [hm'])
    constructor
    · have hpost : ∑ a ∈ accounts, post bal m t a = ∑ a ∈ accounts, bal t a := by
        simp [post, Finset.sum_add_distrib, sum_flow hsrc hdst]
      exact hsum.trans hpost
    · intro a ha
      have hs : m.src ≠ a := fun h => ha (h ▸ hsrc)
      have hd : m.dst ≠ a := fun h => ha (h ▸ hdst)
      have hpost : post bal m t a = bal t a := by simp [post, flow_aside hs hd]
      exact (haside a ha).trans hpost

end Balances

section PaidOut

variable [DecidableEq α]

/-- The total that leaves the account `a` for the purposes selected by `sel`. -/
def paidOut (a : α) (sel : ρ → Bool) (ms : List (Transfer τ α ρ)) : ℤ :=
  ((ms.filter fun m => m.src = a ∧ sel m.ref).map Transfer.amount).sum

@[simp] theorem paidOut_nil (a : α) (sel : ρ → Bool) :
    paidOut a sel ([] : List (Transfer τ α ρ)) = 0 := rfl

theorem paidOut_cons (a : α) (sel : ρ → Bool) (m : Transfer τ α ρ)
    (ms : List (Transfer τ α ρ)) :
    paidOut a sel (m :: ms) =
      (if m.src = a ∧ sel m.ref then m.amount else 0) + paidOut a sel ms := by
  by_cases hm : m.src = a ∧ sel m.ref <;> simp [paidOut, hm]

theorem paidOut_append (a : α) (sel : ρ → Bool) (ms ns : List (Transfer τ α ρ)) :
    paidOut a sel (ms ++ ns) = paidOut a sel ms + paidOut a sel ns := by
  simp [paidOut]

end PaidOut

section Totals

def amountOf (sel : Transfer τ α ρ → Bool) (ms : List (Transfer τ α ρ)) : ℤ :=
  ((ms.filter sel).map Transfer.amount).sum

variable {sel : Transfer τ α ρ → Bool} {ms : List (Transfer τ α ρ)}

@[simp] theorem amountOf_nil : amountOf sel ([] : List (Transfer τ α ρ)) = 0 := rfl

@[simp] theorem amountOf_cons (m : Transfer τ α ρ) :
    amountOf sel (m :: ms) = (if sel m then m.amount else 0) + amountOf sel ms := by
  by_cases hm : sel m <;> simp [amountOf, hm]

@[simp] theorem amountOf_append (ns : List (Transfer τ α ρ)) :
    amountOf sel (ms ++ ns) = amountOf sel ms + amountOf sel ns := by
  simp [amountOf]

theorem amountOf_none (h : ∀ m ∈ ms, sel m = false) : amountOf sel ms = 0 := by
  have hnil : ms.filter sel = [] := List.filter_eq_nil_iff.mpr fun m hm => by simp [h m hm]
  rw [amountOf, hnil]
  rfl

theorem amountOf_nonneg (h : ∀ m ∈ ms, 0 ≤ m.amount) : 0 ≤ amountOf sel ms := by
  induction ms with
  | nil => simp
  | cons m ms ih =>
    have hhead := h m (by simp)
    have htail := ih fun m' hm' => h m' (by simp [hm'])
    rw [amountOf_cons]
    split_ifs <;> omega

theorem le_amountOf {x : Transfer τ α ρ} (hmem : x ∈ ms) (hsel : sel x = true)
    (h : ∀ m ∈ ms, 0 ≤ m.amount) : x.amount ≤ amountOf sel ms := by
  induction ms with
  | nil => cases hmem
  | cons m ms ih =>
    have hhead := h m (by simp)
    have htail : ∀ m' ∈ ms, 0 ≤ m'.amount := fun m' hm' => h m' (by simp [hm'])
    rw [amountOf_cons]
    cases List.mem_cons.mp hmem with
    | inl hx =>
      have hrest : 0 ≤ amountOf sel ms := amountOf_nonneg htail
      rw [← hx, if_pos hsel]
      omega
    | inr hx =>
      have hrest := ih hx htail
      split_ifs <;> omega

theorem amountOf_le (h : ∀ m ∈ ms, 0 ≤ m.amount) :
    amountOf sel ms ≤ (ms.map Transfer.amount).sum := by
  induction ms with
  | nil => simp
  | cons m ms ih =>
    have hhead := h m (by simp)
    have htail := ih fun m' hm' => h m' (by simp [hm'])
    rw [amountOf_cons, List.map_cons, List.sum_cons]
    split_ifs <;> omega

end Totals

theorem sum_range_changed {n i : ℕ} {f g : ℕ → ℤ} (hi : i < n)
    (h : ∀ j, j ≠ i → g j = f j) :
    ∑ j ∈ Finset.range n, g j = ∑ j ∈ Finset.range n, f j - f i + g i := by
  have hmem : i ∈ Finset.range n := Finset.mem_range.mpr hi
  have hrest : ∑ j ∈ (Finset.range n).erase i, g j = ∑ j ∈ (Finset.range n).erase i, f j :=
    Finset.sum_congr rfl fun j hj => h j (Finset.ne_of_mem_erase hj)
  rw [← Finset.add_sum_erase _ f hmem, ← Finset.add_sum_erase _ g hmem, hrest]
  omega

theorem sum_range_grown {n : ℕ} {f g : ℕ → ℤ} (h : ∀ j, j ≠ n → g j = f j) :
    ∑ j ∈ Finset.range (n + 1), g j = ∑ j ∈ Finset.range n, f j + g n := by
  rw [Finset.sum_range_succ]
  congr 1
  refine Finset.sum_congr rfl fun j hj => h j ?_
  have := Finset.mem_range.mp hj
  omega

end AtomicIp
