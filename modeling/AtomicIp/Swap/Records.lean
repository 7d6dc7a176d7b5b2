import AtomicIp.Swap.Wellformed

set_option autoImplicit false

namespace AtomicIp.AtomicSwap

open Function

def Move.swap? : Move → Option ℕ
  | .accepted i | .installment i _ | .scheduled i _ | .offered i | .amended i | .disputed i
  | .cancelled i | .released i _ | .refunded i _ | .withdrawn i | .rolledBack i
  | .adminRolledBack i | .claimed i => some i
  | _ => none

/-- The record after a move that gives a swap the status `q`, or leaves its status alone. -/
structure Moved (q : Option SwapStatus) (r r' : SwapRecord) : Prop where
  terms : r'.terms = r.terms
  status : r'.status = q.getD r.status
  price : r'.price = r.price ∨ r.status = .pending ∧ q = none ∨ q = some .accepted

theorem Moved.refl (r : SwapRecord) : Moved none r r := ⟨rfl, rfl, .inl rfl⟩

variable {env : Env} {c c' : Escrow} {m : Move} {i : ℕ} {r r' : SwapRecord}

theorem swap_setSwap (c : Escrow) (i j : ℕ) (o : Option SwapRecord) :
    (c.setSwap i o).swap j = if j = i then o else c.swap j := by
  simp [Escrow.setSwap, update_apply]

theorem swap_close (c : Escrow) (i j : ℕ) (r : SwapRecord) (q : SwapStatus) :
    (c.close i r q).swap j = if j = i then some (r.withStatus q) else c.swap j :=
  swap_setSwap c i j _

theorem swap_enlist (c : Escrow) (j : ℕ) (r : SwapRecord) :
    (c.enlist r).swap j = if j = c.count then some r else c.swap j :=
  swap_setSwap c c.count j _

def Adds (m : Move) (c : Escrow) (r' : SwapRecord) : Prop :=
  m = .initiated r' ∧ FreshSwap r' ∨ ∃ j a buyer, m = .finalized j ∧ c.auction j = some a ∧
    a.highestBidder = some buyer ∧ WonBy a buyer r'

theorem Adds.apart (h : Adds m c r) : m.swap? = none := by
  rcases h with ⟨rfl, -⟩ | ⟨_, _, _, rfl, -⟩ <;> rfl

inductive Rewrites (m : Move) (c c' : Escrow) : Prop where
  | same (h : c'.swap = c.swap) (hm : m.aims = none)
  | moved (i : ℕ) (r r' : SwapRecord) (hm : m.swap? = some i) (hr : c.swap i = some r)
      (hswap : ∀ j, c'.swap j = if j = i then some r' else c.swap j) (h : Moved m.aims r r')
  | added (r' : SwapRecord) (hm : m.aims = none) (h : Adds m c r')
      (hswap : ∀ j, c'.swap j = if j = c.count then some r' else c.swap j)

theorem Step.rewrites (hstep : Step env c m c') : Rewrites m c c' := by
  cases hstep with
  | configured => exact .same rfl rfl
  | received => exact .same rfl rfl
  | initiated hfresh => exact .added _ rfl (.inl ⟨rfl, hfresh⟩) fun j => swap_enlist c j _
  | accepted r' _ _ _ hr _ _ hterms hto =>
    exact .moved _ _ r' rfl hr (fun j => swap_setSwap c _ j _)
      ⟨hterms, hto, .inr (.inr rfl)⟩
  | installment r' last hr hfrom _ hterms hprice _ _ _ _ hto =>
    refine .moved _ _ r' rfl hr (fun j => swap_setSwap c _ j _) ⟨hterms, ?_, .inl hprice⟩
    cases last <;> simp [hto, Move.aims, hfrom]
  | scheduled r' last hr _ _ hterms hprice _ _ hto =>
    refine .moved _ _ r' rfl hr (fun j => swap_setSwap c _ j _) ⟨hterms, ?_, .inl hprice⟩
    cases last <;> simp [hto, Move.aims]
  | offered => exact .same rfl rfl
  | repriced hr hfrom =>
    exact .moved _ _ _ rfl hr (fun j => swap_setSwap c _ j _) ⟨rfl, rfl, .inr (.inl ⟨hfrom, rfl⟩)⟩
  | extended _ hr => exact .moved _ _ _ rfl hr (fun j => swap_setSwap c _ j _) ⟨rfl, rfl, .inl rfl⟩
  | disputed hr => exact .moved _ _ _ rfl hr (fun j => swap_setSwap c _ j _) ⟨rfl, rfl, .inl rfl⟩
  | cancelled hr => exact .moved _ _ _ rfl hr (fun j => swap_close c _ j _ _) ⟨rfl, rfl, .inl rfl⟩
  | released hr => exact .moved _ _ _ rfl hr (fun j => swap_close c _ j _ _) ⟨rfl, rfl, .inl rfl⟩
  | refunded hr => exact .moved _ _ _ rfl hr (fun j => swap_close c _ j _ _) ⟨rfl, rfl, .inl rfl⟩
  | withdrawn hr => exact .moved _ _ _ rfl hr (fun j => swap_close c _ j _ _) ⟨rfl, rfl, .inl rfl⟩
  | rolledBack hr => exact .moved _ _ _ rfl hr (fun j => swap_setSwap c _ j _) ⟨rfl, rfl, .inl rfl⟩
  | adminRolledBack hr =>
    exact .moved _ _ _ rfl hr (fun j => swap_close c _ j _ _) ⟨rfl, rfl, .inl rfl⟩
  | claimed => exact .same rfl rfl
  | auctionStarted => exact .same rfl rfl
  | bid => exact .same rfl rfl
  | unsold => exact .same rfl rfl
  | sold ha _ hwon hr =>
    exact .added _ rfl (.inr ⟨_, _, _, rfl, ha, hwon, hr⟩) fun j => swap_enlist _ j _

theorem Step.keeps (hstep : Step env c m c') (hwf : Wf c) (hr : c.swap i = some r) :
    ∃ r', c'.swap i = some r' ∧
      (r' = r ∧ (m.swap? = some i → m.aims = none) ∨ m.swap? = some i ∧ Moved m.aims r r') := by
  cases hstep.rewrites with
  | same h hm => exact ⟨r, by rw [h, hr], .inl ⟨rfl, fun _ => hm⟩⟩
  | moved j r₀ r' hm hr₀ hswap h =>
    by_cases hji : i = j
    · subst hji
      obtain rfl := Option.some.inj (hr.symm.trans hr₀)
      exact ⟨r', by simp [hswap], .inr ⟨hm, h⟩⟩
    · refine ⟨r, by simp [hswap, hji, hr], .inl ⟨rfl, fun hi => ?_⟩⟩
      rw [hm] at hi
      exact absurd (Option.some.inj hi).symm hji
  | added r' hm h hswap =>
    have hne := (hwf.stored _ _ hr).1.ne
    exact ⟨r, by simp [hswap, hne, hr], .inl ⟨rfl, fun _ => hm⟩⟩

theorem Step.lasts (hstep : Step env c m c') (hwf : Wf c) (hr : c.swap i = some r) :
    ∃ r', c'.swap i = some r' ∧ r'.terms = r.terms := by
  obtain ⟨r', hr', hkept⟩ := hstep.keeps hwf hr
  cases hkept with
  | inl hsame => exact ⟨r', hr', by rw [hsame.1]⟩
  | inr hmoved => exact ⟨r', hr', hmoved.2.terms⟩

theorem Step.moved (hstep : Step env c m c') (hwf : Wf c) (hm : m.swap? = some i)
    (hr : c.swap i = some r) (hr' : c'.swap i = some r') : Moved m.aims r r' := by
  obtain ⟨r₁, hr₁, hkept⟩ := hstep.keeps hwf hr
  obtain rfl := Option.some.inj (hr₁.symm.trans hr')
  cases hkept with
  | inl hsame =>
    rw [hsame.1, hsame.2 hm]
    exact .refl r
  | inr hmoved => exact hmoved.2

theorem Step.origin (hstep : Step env c m c') (hr' : c'.swap i = some r') :
    (∃ r, c.swap i = some r ∧ r'.terms = r.terms) ∨ Adds m c r' := by
  cases hstep.rewrites with
  | same h => exact .inl ⟨r', by rw [← h, hr'], rfl⟩
  | moved j r₀ r₁ hm hr₀ hswap h =>
    rw [hswap] at hr'
    by_cases hji : i = j
    · subst hji
      rw [if_pos rfl] at hr'
      exact .inl ⟨r₀, hr₀, Option.some.inj hr' ▸ h.terms⟩
    · rw [if_neg hji] at hr'
      exact .inl ⟨r', hr', rfl⟩
  | added r₁ hm h hswap =>
    rw [hswap] at hr'
    by_cases hji : i = c.count
    · rw [if_pos hji] at hr'
      exact .inr (Option.some.inj hr' ▸ h)
    · rw [if_neg hji] at hr'
      exact .inl ⟨r', hr', rfl⟩

end AtomicIp.AtomicSwap
