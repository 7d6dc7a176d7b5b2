import AtomicIp.Swap.Records

set_option autoImplicit false

namespace AtomicIp.AtomicSwap

open Function

/-- What becomes of a record under the authorisations of one call. -/
structure Amends (auths : List Address) (r r' : SwapRecord) : Prop where
  terms : r'.terms = r.terms
  later : r.expiry ≤ r'.expiry
  expiry : r'.expiry ≠ r.expiry → r.status = .pending ∧ r.seller ∈ auths
  price : r'.price ≠ r.price → r.status = .pending ∧ r.buyer ∈ auths
  left : r.status ≠ .pending → r'.status ≠ .pending

section Amends

variable {auths : List Address} {r r' r'' : SwapRecord}

theorem Amends.refl (r : SwapRecord) : Amends auths r r :=
  ⟨rfl, Nat.le_refl _, fun h => absurd rfl h, fun h => absurd rfl h, id⟩

theorem Amends.of_status (q : SwapStatus) (hq : r.status ≠ .pending → q ≠ .pending) :
    Amends auths r (r.withStatus q) :=
  ⟨rfl, Nat.le_refl _, fun h => absurd rfl h, fun h => absurd rfl h, hq⟩

theorem Amends.pending (h : Amends auths r r') (hst : r'.status = .pending) :
    r.status = .pending := by
  by_contra hne
  exact h.left hne hst

theorem Amends.trans (h : Amends auths r r') (h' : Amends auths r' r'') : Amends auths r r'' where
  terms := h'.terms.trans h.terms
  later := Nat.le_trans h.later h'.later
  expiry hne := by
    by_cases hsame : r'.expiry = r.expiry
    · obtain ⟨hst, hauth⟩ := h'.expiry (by rwa [hsame])
      have hseller : r'.seller = r.seller := congrArg Terms.seller h.terms
      exact ⟨h.pending hst, hseller ▸ hauth⟩
    · exact h.expiry hsame
  price hne := by
    by_cases hsame : r'.price = r.price
    · obtain ⟨hst, hauth⟩ := h'.price (by rwa [hsame])
      have hbuyer : r'.buyer = r.buyer := congrArg Terms.buyer h.terms
      exact ⟨h.pending hst, hbuyer ▸ hauth⟩
    · exact h.price hsame
  left hst := h'.left (h.left hst)

end Amends

section Steps

variable {env : Env} {c c' : Escrow} {m : Move} {i : ℕ} {r : SwapRecord} {s s' : State} {act : Act}

/-- Every record of `c` is there in `c'`, amended at most. -/
def Amended (auths : List Address) (c c' : Escrow) : Prop :=
  ∀ i r, c.swap i = some r → ∃ r', c'.swap i = some r' ∧ Amends auths r r'

theorem Amended.refl {auths : List Address} (h : c'.swap = c.swap) : Amended auths c c' :=
  fun _ r hr => ⟨r, h ▸ hr, .refl r⟩

theorem Amended.trans {auths : List Address} {c'' : Escrow} (h : Amended auths c c')
    (h' : Amended auths c' c'') : Amended auths c c'' := by
  intro i r hr
  obtain ⟨r', hr', hone⟩ := h i r hr
  obtain ⟨r'', hr'', htwo⟩ := h' i r' hr'
  exact ⟨r'', hr'', hone.trans htwo⟩

theorem Amended.one {auths : List Address} {j : ℕ} {r₀ r₁ : SwapRecord} (hr₀ : c.swap j = some r₀)
    (hswap : ∀ i, c'.swap i = if i = j then some r₁ else c.swap i) (h : Amends auths r₀ r₁) :
    Amended auths c c' := by
  intro i r hr
  by_cases hij : i = j
  · subst hij
    obtain rfl := Option.some.inj (hr₀.symm.trans hr)
    exact ⟨r₁, by simp [hswap], h⟩
  · exact ⟨r, by simp [hswap, hij, hr], .refl r⟩

theorem Amended.added {auths : List Address} {r₁ : SwapRecord} (hwf : Wf c)
    (hswap : ∀ i, c'.swap i = if i = c.count then some r₁ else c.swap i) :
    Amended auths c c' := by
  intro i r hr
  have hne := (hwf.stored i r hr).1.ne
  exact ⟨r, by simp [hswap, hne, hr], .refl r⟩

theorem Step.amended (hstep : Step env c m c') (hwf : Wf c) : Amended env.auths c c' := by
  cases hstep with
  | configured | received | offered | claimed | auctionStarted | bid | unsold => exact .refl rfl
  | initiated => exact .added hwf fun j => swap_enlist c j _
  | sold => exact .added hwf fun j => swap_enlist _ j _
  | @accepted i r r' _ _ _ hr hfrom hauth hterms hto hprice _ _ _ hexpiry =>
    refine .one hr (fun j => swap_setSwap c i j _) ⟨hterms, hexpiry.ge, fun h => absurd hexpiry h,
      fun hne => ?_, fun _ => by simp [hto]⟩
    rcases hprice with hprice | ⟨hfrom, -⟩
    · exact absurd hprice hne
    · exact ⟨hfrom, hauth⟩
  | @installment i r r' _ _ hr hfrom _ hterms hprice _ _ _ _ _ hexpiry =>
    exact .one hr (fun j => swap_setSwap c i j _) ⟨hterms, hexpiry.ge, fun h => absurd hexpiry h,
      fun h => absurd hprice h, fun h => absurd hfrom h⟩
  | @scheduled i r r' _ last hr _ _ hterms hprice _ _ hto hexpiry =>
    refine .one hr (fun j => swap_setSwap c i j _) ⟨hterms, hexpiry.ge, fun h => absurd hexpiry h,
      fun h => absurd hprice h, fun h => ?_⟩
    cases last <;> simp [hto, h]
  | @repriced i r offer hr hfrom hauth =>
    exact .one hr (fun j => swap_setSwap c i j _) ⟨rfl, Nat.le_refl _, fun h => absurd rfl h,
      fun _ => ⟨hfrom, hauth⟩, id⟩
  | @extended i r newExpiry hr hfrom hauth hlater =>
    exact .one hr (fun j => swap_setSwap c i j _) ⟨rfl, hlater.le, fun _ => ⟨hfrom, hauth⟩,
      fun h => absurd rfl h, id⟩
  | @disputed i r hr =>
    exact .one hr (fun j => swap_setSwap c i j _) ⟨rfl, Nat.le_refl _, fun h => absurd rfl h,
      fun h => absurd rfl h, fun _ => by simp⟩
  | cancelled hr | released hr | refunded hr | withdrawn hr | adminRolledBack hr =>
    exact .one hr (fun j => swap_close c _ j _ _) (.of_status _ fun _ => by simp)
  | rolledBack hr => exact .one hr (fun j => swap_setSwap c _ j _) (.of_status _ fun _ => by simp)

theorem ActStep.amended (hact : ActStep s act s') (hwf : Wf s.escrow) :
    Amended act.env.auths s.escrow s'.escrow := by
  obtain ⟨q, hmoves⟩ := hact.answers
  have hkept : Wf s'.escrow ∧ Amended act.env.auths s.escrow s'.escrow := by
    refine hmoves.invariant (I := fun c => Wf c ∧ Amended act.env.auths s.escrow c) ?_
      ⟨hwf, .refl rfl⟩
    intro c m c' _ hc hstep
    exact ⟨hstep.wf hc.1, hc.2.trans (hstep.amended hc.1)⟩
  exact hkept.2

end Steps

/-- The terms of a swap are fixed from the state it is first seen in: what one call does to
them, and what a whole run leaves of them. -/
theorem terms_fixed {balance : Address → Address → ℤ} {tr : List (Act × State)} {a : State}
    (hreach : Run ActStep (State.empty balance) tr a) {i : ℕ} {r : SwapRecord}
    (hr : a.swap i = some r) :
    (∀ act b, ActStep a act b → ∃ r', b.swap i = some r' ∧ r'.terms = r.terms ∧
      r.expiry ≤ r'.expiry ∧
      (r'.expiry ≠ r.expiry → r.status = .pending ∧ r.seller ∈ act.env.auths) ∧
      (r'.price ≠ r.price → r.status = .pending ∧ r.buyer ∈ act.env.auths)) ∧
    ∀ tr' b, Run ActStep a tr' b → ∃ r', b.swap i = some r' ∧ r'.terms = r.terms ∧
      r.expiry ≤ r'.expiry ∧
      (r.status ≠ .pending → r'.price = r.price ∧ r'.expiry = r.expiry) := by
  have hwf := ran_wf hreach
  constructor
  · intro act b hact
    obtain ⟨r', hr', h⟩ := hact.amended hwf i r hr
    exact ⟨r', hr', h.terms, h.later, h.expiry, h.price⟩
  · intro tr' b hrun
    suffices h : Wf b.escrow ∧ ∃ r', b.swap i = some r' ∧ r'.terms = r.terms ∧
        r.expiry ≤ r'.expiry ∧ (r.status ≠ .pending →
          r'.status ≠ .pending ∧ r'.price = r.price ∧ r'.expiry = r.expiry) by
      obtain ⟨-, r', hr', hterms, hlater, hleft⟩ := h
      exact ⟨r', hr', hterms, hlater, fun hst => (hleft hst).2⟩
    induction hrun with
    | start => exact ⟨hwf, r, hr, rfl, Nat.le_refl _, fun hst => ⟨hst, rfl, rfl⟩⟩
    | next _ hact ih =>
      obtain ⟨hwf, r₁, hr₁, hterms, hlater, hleft⟩ := ih
      obtain ⟨r', hr', h⟩ := hact.amended hwf i r₁ hr₁
      refine ⟨hact.wf hwf, r', hr', h.terms.trans hterms, Nat.le_trans hlater h.later, ?_⟩
      intro hst
      obtain ⟨hst₁, hprice₁, hexpiry₁⟩ := hleft hst
      have hprice : r'.price = r₁.price := by
        by_contra hne
        exact hst₁ (h.price hne).1
      have hexpiry : r'.expiry = r₁.expiry := by
        by_contra hne
        exact hst₁ (h.expiry hne).1
      exact ⟨h.left hst₁, hprice.trans hprice₁, hexpiry.trans hexpiry₁⟩

open Scenario in
theorem sale_terms_fixed : ∃ tr s r, Run ActStep (State.empty funds) tr s ∧
    s.swap 0 = some r ∧ r.status = .accepted ∧ ∀ tr' b, Run ActStep s tr' b →
      ∃ r', b.swap 0 = some r' ∧ r'.price = 1000 := by
  obtain ⟨tr, s₁, s₂, hrun, hexec, hseen⟩ := watched Always funds offer (env [buyer] 2)
    (.acceptSwap 0) (fun _ s => (s.swap 0).any fun r => r.status = .accepted ∧ r.price = 1000)
    (by decide) (by simp [Always])
  simp only [Option.any_eq_true, decide_eq_true_eq] at hseen
  obtain ⟨r, hr, hst, hprice⟩ := hseen
  have hreach := (hrun.mono fun _ _ _ h => h.1).next (.call hexec)
  refine ⟨_, s₂, r, hreach, hr, hst, fun tr' b hrun' => ?_⟩
  obtain ⟨r', hr', -, -, hleft⟩ := (terms_fixed hreach hr).2 tr' b hrun'
  exact ⟨r', hr', ((hleft (by simp [hst])).1).trans hprice⟩

end AtomicIp.AtomicSwap
