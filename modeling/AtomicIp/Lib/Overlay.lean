import AtomicIp.Lib.Transaction

/-!
Transactions over a state with something laid over it: a program that never looks at the
overlay runs as it did without, and a program that looks at it runs so or stops there.
-/

set_option autoImplicit false

namespace AtomicIp.Tx

variable {ε σ α β γ : Type}

/-- Where `x` succeeds, it does the same under the overlay. -/
def Blind (overlay : σ → σ) (x : Tx ε σ α) : Prop :=
  ∀ s a s', x s = .ok (a, s') → x (overlay s) = .ok (a, overlay s')

/-- Where `x` succeeds, it does the same under the overlay if `p`, and otherwise stops with
`e`. -/
def Gated (overlay : σ → σ) (e : ε) (p : Prop) (x : Tx ε σ α) : Prop :=
  ∀ s a s', x s = .ok (a, s') →
    p ∧ x (overlay s) = .ok (a, overlay s') ∨ ¬ p ∧ x (overlay s) = .error e

variable {overlay : σ → σ} {e : ε} {p q : Prop} {s s' s₁ : σ}

namespace Blind

variable {x : Tx ε σ α} {f : α → Tx ε σ β}

theorem pure {a : α} : Blind overlay (pure a : Tx ε σ α) := by
  intro s b s' h
  obtain ⟨rfl, rfl⟩ := pure_ok.mp h
  rfl

theorem abort : Blind overlay (abort e : Tx ε σ α) := by
  intro s b s' h
  exact absurd h abort_ok

theorem load {f : σ → α} (h : ∀ s, f (overlay s) = f s) : Blind overlay (load f : Tx ε σ α) := by
  intro s a s' hload
  obtain ⟨rfl, rfl⟩ := load_ok.mp hload
  exact load_ok.mpr ⟨(h s').symm, rfl⟩

theorem store {f : σ → σ} (h : ∀ s, overlay (f s) = f (overlay s)) :
    Blind overlay (store f : Tx ε σ Unit) := by
  intro s u s' hstore
  rw [store_ok.mp hstore]
  exact store_ok.mpr (h s)

theorem ensure {p : Prop} [Decidable p] : Blind overlay (ensure p e : Tx ε σ Unit) := by
  intro s u s' h
  obtain ⟨hp, rfl⟩ := ensure_ok.mp h
  exact ensure_ok.mpr ⟨hp, rfl⟩

theorem orAbort {o : Option α} : Blind overlay (orAbort o e : Tx ε σ α) := by
  intro s a s' h
  obtain ⟨ho, rfl⟩ := orAbort_ok.mp h
  exact orAbort_ok.mpr ⟨ho, rfl⟩

theorem bind (hx : Blind overlay x) (hf : ∀ a, Blind overlay (f a)) : Blind overlay (x >>= f) := by
  intro s b s' h
  obtain ⟨a, s₁, hxa, hfa⟩ := bind_ok.mp h
  rw [bind_of_ok (hx s a s₁ hxa)]
  exact hf a s₁ b s' hfa

theorem onlyIf {p : Prop} [Decidable p] {x : Tx ε σ Unit} (hx : Blind overlay x) :
    Blind overlay (onlyIf p x) := by
  unfold Tx.onlyIf
  split
  · exact hx
  · exact pure

theorem forEach {as : List α} {body : α → Tx ε σ β} (hbody : ∀ a, Blind overlay (body a)) :
    Blind overlay (Tx.forEach as body) := by
  induction as with
  | nil => exact pure
  | cons a as ih =>
    have hloop : Blind overlay (Tx.forEach (a :: as) body) :=
      (hbody a).bind fun b => ih.bind fun bs => .pure
    exact hloop

end Blind

namespace Gated

variable {x : Tx ε σ α} {f : α → Tx ε σ β}

theorem of_blind (hx : Blind overlay x) (hp : p) : Gated overlay e p x :=
  fun s a s' h => .inl ⟨hp, hx s a s' h⟩

theorem congr_of_ok (hx : Gated overlay e p x)
    (h : ∀ s a s', x s = .ok (a, s') → (p ↔ q)) : Gated overlay e q x := by
  intro s a s' hxa
  rw [← h s a s' hxa]
  exact hx s a s' hxa

theorem congr (hx : Gated overlay e p x) (h : p ↔ q) : Gated overlay e q x :=
  hx.congr_of_ok fun _ _ _ _ => h

theorem bind (hx : Gated overlay e p x) (hf : ∀ a, Gated overlay e q (f a)) :
    Gated overlay e (p ∧ q) (x >>= f) := by
  intro s b s' h
  obtain ⟨a, s₁, hxa, hfa⟩ := bind_ok.mp h
  rcases hx s a s₁ hxa with ⟨hp, hover⟩ | ⟨hp, hover⟩
  · rw [bind_of_ok hover]
    rcases hf a s₁ b s' hfa with ⟨hq, hok⟩ | ⟨hq, herror⟩
    · exact .inl ⟨⟨hp, hq⟩, hok⟩
    · exact .inr ⟨fun hpq => hq hpq.2, herror⟩
  · rw [bind_of_error hover]
    exact .inr ⟨fun hpq => hp hpq.1, rfl⟩

theorem after (hx : Blind overlay x) (hf : ∀ a, Gated overlay e p (f a)) :
    Gated overlay e p (x >>= f) :=
  ((of_blind hx trivial).bind hf).congr (and_iff_right trivial)

theorem then_blind (hx : Gated overlay e p x) (hf : ∀ a, Blind overlay (f a)) :
    Gated overlay e p (x >>= f) :=
  (hx.bind fun a => of_blind (hf a) trivial).congr (and_iff_left trivial)

theorem void (hx : Gated overlay e p x) : Gated overlay e p x.void :=
  hx.then_blind fun _ => .pure

theorem forEach {as : List α} {body : α → Tx ε σ β} {p : α → Prop}
    (hbody : ∀ a, Gated overlay e (p a) (body a)) :
    Gated overlay e (∀ a ∈ as, p a) (forEach as body) := by
  induction as with
  | nil => exact of_blind .pure (by simp)
  | cons a as ih =>
    have hloop : Gated overlay e (p a ∧ ∀ a ∈ as, p a) (Tx.forEach (a :: as) body) :=
      (hbody a).bind fun b => ih.then_blind fun bs => .pure
    exact hloop.congr (by simp)

theorem forEach₂ {outOfRange : ε} {as : List α} {bs : List β} {body : α → β → Tx ε σ γ}
    {p : α → Prop} (hbody : ∀ a b, Gated overlay e (p a) (body a b)) :
    Gated overlay e (∀ a ∈ as, p a) (forEach₂ outOfRange as bs body) := by
  induction as generalizing bs with
  | nil => exact of_blind .pure (by simp)
  | cons a as ih =>
    cases bs with
    | nil =>
      intro s cs s' h
      exact absurd h abort_ok
    | cons b bs =>
      have hloop : Gated overlay e (p a ∧ ∀ a ∈ as, p a)
          (Tx.forEach₂ outOfRange (a :: as) (b :: bs) body) :=
        (hbody a b).bind fun c => ih.then_blind fun cs => .pure
      exact hloop.congr (by simp)

end Gated

end AtomicIp.Tx
