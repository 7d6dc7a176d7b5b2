import AtomicIp.Lib.Transaction

/-!
Transactions that leave a part of the state alone. The part is given by a view of the state,
and a program keeps it when each of its writes does.
-/

set_option autoImplicit false

namespace AtomicIp.Tx

variable {ε σ τ α β γ ω : Type} {view : σ → ω}

class Spares (view : σ → ω) (f : σ → σ) : Prop where
  same : ∀ s, view (f s) = view s

/-- What the view shows of a state does not depend on its part `t`, which `without` empties. -/
class Ignores (without : σ → τ → σ) (t : τ) (view : σ → ω) : Prop where
  same : ∀ s, view (without s t) = view s

theorem Ignores.spares (without : σ → τ → σ) (t : τ) [h : Ignores without t view] {f : σ → σ}
    (hf : ∀ s, without (f s) t = without s t) : Spares view f where
  same s := by rw [← h.same (f s), hf, h.same]

/-- No run of the program changes what the view shows. -/
class Keeps (view : σ → ω) (x : Tx ε σ α) : Prop where
  same : ∀ s a s', x s = .ok (a, s') → view s' = view s

namespace Keeps

theorem eq (view : σ → ω) {x : Tx ε σ α} [hx : Keeps view x] {s s' : σ} {a : α}
    (h : x s = .ok (a, s')) : view s' = view s := hx.same s a s' h

section Reads

instance pure (a : α) : Keeps view (pure a : Tx ε σ α) where
  same s b s' h := by rw [(pure_ok.mp h).2]

instance load (f : σ → α) : Keeps view (load f : Tx ε σ α) where
  same s b s' h := by rw [(load_ok.mp h).2]

instance abort (e : ε) : Keeps view (abort e : Tx ε σ α) where
  same _ _ _ h := (abort_ok h).elim

instance ensure (p : Prop) [Decidable p] (e : ε) : Keeps view (ensure p e : Tx ε σ Unit) where
  same s b s' h := by rw [(ensure_ok.mp h).2]

instance orAbort (o : Option α) (e : ε) : Keeps view (orAbort o e : Tx ε σ α) where
  same s b s' h := by rw [(orAbort_ok.mp h).2]

end Reads

instance store {f : σ → σ} [Spares view f] : Keeps view (store f : Tx ε σ Unit) where
  same s u s' h := by
    rw [store_ok.mp h]
    exact Spares.same s

instance bind {x : Tx ε σ α} {f : α → Tx ε σ β} [hx : Keeps view x]
    [hf : ∀ a, Keeps view (f a)] : Keeps view (x >>= f) where
  same s b s' h := by
    obtain ⟨a, s₁, ha, hb⟩ := bind_ok.mp h
    rw [(hf a).same s₁ b s' hb, hx.same s a s₁ ha]

theorem step {x : Tx ε σ α} {f : α → Tx ε σ β} [Keeps view x] (hf : ∀ a, Keeps view (f a)) :
    Keeps view (x >>= f) := bind

section Branches

variable {p : Prop} [Decidable p]

instance ite {x y : Tx ε σ α} [hx : Keeps view x] [hy : Keeps view y] :
    Keeps view (if p then x else y) where
  same s a s' h := by
    by_cases hp : p
    · rw [if_pos hp] at h
      exact hx.same s a s' h
    · rw [if_neg hp] at h
      exact hy.same s a s' h

instance onlyIf {x : Tx ε σ Unit} [Keeps view x] : Keeps view (onlyIf p x) :=
  inferInstanceAs (Keeps view (if p then x else Pure.pure ()))

end Branches

instance void {x : Tx ε σ α} [Keeps view x] : Keeps view (void x) :=
  inferInstanceAs (Keeps view (x >>= fun _ => Pure.pure ()))

section Loops

instance forEach {as : List α} {body : α → Tx ε σ β} [h : ∀ a, Keeps view (body a)] :
    Keeps view (forEach as body) where
  same _ _ _ hs :=
    forEach_rel (R := fun s s' => view s' = view s) (fun _ => rfl) (fun h h' => h'.trans h)
      (fun a _ => (h a).same) hs

instance forEach₂ {e : ε} {as : List α} {bs : List β} {body : α → β → Tx ε σ γ}
    [h : ∀ a b, Keeps view (body a b)] : Keeps view (forEach₂ e as bs body) where
  same _ _ _ hs :=
    forEach₂_rel (R := fun s s' => view s' = view s) (fun _ => rfl) (fun h h' => h'.trans h)
      (fun a _ b _ => (h a b).same) hs

/-- What every pass of a loop checks in a part of the state that the loop keeps holds there
from the start. -/
theorem forEach_checks (view : σ → ω) {Q : α → ω → Prop} {as : List α} {body : α → Tx ε σ β}
    [hkeeps : ∀ a, Keeps view (body a)]
    (hbody : ∀ a s b s', body a s = .ok (b, s') → Q a (view s))
    {s s' : σ} {bs : List β} (h : Tx.forEach as body s = .ok (bs, s')) :
    ∀ a ∈ as, Q a (view s) := by
  induction as generalizing s bs with
  | nil => simp
  | cons a as ih =>
    obtain ⟨b, s₁, cs, hb, hcs, -⟩ := forEach_cons_ok.mp h
    have hhead := hbody a s b s₁ hb
    have htail := ih hcs
    rw [(hkeeps a).same s b s₁ hb] at htail
    simpa using ⟨hhead, htail⟩

end Loops

end Keeps

/-- Every run of the program turns what the view shows by `g`. -/
class Turns (view : σ → ω) (g : ω → ω) (x : Tx ε σ α) : Prop where
  turned : ∀ s a s', x s = .ok (a, s') → view s' = g (view s)

namespace Turns

variable {g : ω → ω} {x : Tx ε σ α} {f : α → Tx ε σ β}

theorem eq (view : σ → ω) (g : ω → ω) [hx : Turns view g x] {s s' : σ} {a : α}
    (h : x s = .ok (a, s')) : view s' = g (view s) := hx.turned s a s' h

instance later [hx : Keeps view x] [hf : ∀ a, Turns view g (f a)] : Turns view g (x >>= f) where
  turned s b s' h := by
    obtain ⟨a, s₁, ha, hb⟩ := bind_ok.mp h
    rw [(hf a).turned s₁ b s' hb, hx.same s a s₁ ha]

instance sooner [hx : Turns view g x] [hf : ∀ a, Keeps view (f a)] : Turns view g (x >>= f) where
  turned s b s' h := by
    obtain ⟨a, s₁, ha, hb⟩ := bind_ok.mp h
    rw [(hf a).same s₁ b s' hb, hx.turned s a s₁ ha]

theorem run (view : σ → ω) (g : ω → ω) (hx : Turns view g x) {s s' : σ} {a : α}
    (h : x s = .ok (a, s')) : view s' = g (view s) := hx.turned s a s' h

theorem step [Keeps view x] (hf : ∀ a, Turns view g (f a)) : Turns view g (x >>= f) := later

theorem here [Turns view g x] (hf : ∀ a, Keeps view (f a)) : Turns view g (x >>= f) := sooner

instance ite {y : Tx ε σ α} {p : Prop} [Decidable p] [hx : Turns view g x] [hy : Turns view g y] :
    Turns view g (if p then x else y) where
  turned s a s' h := by
    by_cases hp : p
    · rw [if_pos hp] at h
      exact hx.turned s a s' h
    · rw [if_neg hp] at h
      exact hy.turned s a s' h

end Turns

end AtomicIp.Tx
