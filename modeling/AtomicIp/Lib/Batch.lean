import AtomicIp.Lib.Transaction

/-!
Batches and loops over their single forms. Two programs are alike when one succeeds if and only
if the other does, and a view of the state shows the same after both.
-/

set_option autoImplicit false

namespace AtomicIp.Tx

variable {ε σ α β γ δ : Type} {view : σ → σ}

/-- What the view shows after a run, and nothing after an abort. -/
def outcome (view : σ → σ) : Except ε (α × σ) → Option σ
  | .ok (_, s) => some (view s)
  | .error _ => none

def answer (view : σ → σ) : Except ε (α × σ) → Option (α × σ)
  | .ok (a, s) => some (a, view s)
  | .error _ => none

/-- The program depends on nothing but what the view shows. -/
def Through (view : σ → σ) (x : Tx ε σ α) : Prop :=
  ∀ s t, view s = view t → answer view (x s) = answer view (x t)

def Alike (view : σ → σ) (x : Tx ε σ α) (y : Tx ε σ β) : Prop :=
  ∀ s t, view s = view t → outcome view (x s) = outcome view (y t)

section Outcomes

variable {r : Except ε (α × σ)} {r' : Except ε (β × σ)} {s s' t : σ}

theorem outcome_ok {a : α} (h : r = .ok (a, s)) : outcome view r = some (view s) := by
  rw [h]
  rfl

theorem outcome_eq_none : outcome view r = none ↔ ∃ e, r = .error e := by
  cases r with
  | error e => simp [outcome]
  | ok p => simp [outcome]

theorem outcome_congr (h : ∀ a s, r = .ok (a, s) → ∃ b t, r' = .ok (b, t) ∧ view t = view s)
    (h' : ∀ b t, r' = .ok (b, t) → ∃ a s, r = .ok (a, s)) : outcome view r = outcome view r' := by
  cases hr : r with
  | ok p =>
    obtain ⟨b, t, hr', hview⟩ := h p.1 p.2 hr
    rw [outcome_ok hr', hview]
    rfl
  | error e =>
    cases hr' : r' with
    | error e' => rfl
    | ok q =>
      obtain ⟨a, s, hok⟩ := h' q.1 q.2 hr'
      rw [hr] at hok
      cases hok

theorem outcome_bind {x : Tx ε σ α} {f : α → Tx ε σ β}
    (hf : ∀ a s, outcome view (f a s) = some (view s)) :
    outcome view ((x >>= f) s) = outcome view (x s) := by
  cases hx : x s with
  | error e =>
    rw [bind_of_error hx]
    rfl
  | ok p =>
    rw [bind_of_ok hx]
    exact hf p.1 p.2

theorem outcome_bind_pure {x : Tx ε σ α} {f : α → β} :
    outcome view ((x >>= fun a => pure (f a)) s) = outcome view (x s) :=
  outcome_bind fun _ _ => rfl

theorem outcome_ensure {p : Prop} [Decidable p] {e : ε} {f : Unit → Tx ε σ β} :
    outcome view ((ensure p e >>= f) s) = if p then outcome view (f () s) else none := by
  unfold ensure
  split
  · rfl
  · rfl

theorem outcome_of_answer {r' : Except ε (α × σ)} (h : answer view r = answer view r') :
    outcome view r = outcome view r' := by
  cases r with
  | error e =>
    cases r' with
    | error e' => rfl
    | ok q => cases h
  | ok p =>
    cases r' with
    | error e' => cases h
    | ok q => exact congrArg some (Prod.mk.inj (Option.some.inj h)).2

theorem outcome_bind_of_answer {x x' : Tx ε σ α} {f : α → Tx ε σ β} {g : α → Tx ε σ γ}
    (h : answer view (x s) = answer view (x' t)) (hrest : ∀ a, Alike view (f a) (g a)) :
    outcome view ((x >>= f) s) = outcome view ((x' >>= g) t) := by
  cases hs : x s with
  | error e =>
    cases ht : x' t with
    | error e' =>
      rw [bind_of_error hs, bind_of_error ht]
      rfl
    | ok q =>
      rw [hs, ht] at h
      cases h
  | ok p =>
    cases ht : x' t with
    | error e' =>
      rw [hs, ht] at h
      cases h
    | ok q =>
      rw [hs, ht] at h
      obtain ⟨hvalue, hview⟩ := Prod.mk.inj (Option.some.inj h)
      rw [bind_of_ok hs, bind_of_ok ht, hvalue]
      exact hrest q.1 p.2 q.2 hview

theorem answer_unseen {x : Tx ε σ Unit} {k : σ → σ} (hk : ∀ s, view (k s) = view s) :
    answer view ((x >>= fun _ => store k) s) = answer view (x s) := by
  cases hx : x s with
  | error e =>
    rw [bind_of_error hx]
  | ok p =>
    rw [bind_of_ok hx]
    change some ((), view (k p.2)) = some ((), view p.2)
    rw [hk]

end Outcomes

namespace Through

variable {x : Tx ε σ α} {f : α → Tx ε σ β}

theorem pure {a : α} : Through view (pure a : Tx ε σ α) := by
  intro s t h
  change some (a, view s) = some (a, view t)
  rw [h]

theorem abort {e : ε} : Through view (abort e : Tx ε σ α) := fun _ _ _ => rfl

theorem load {f : σ → α} (h : ∀ s, f (view s) = f s) : Through view (load f : Tx ε σ α) := by
  intro s t hst
  change some (f s, view s) = some (f t, view t)
  rw [← h s, ← h t, hst]

theorem store {f : σ → σ} (h : ∀ s, view (f (view s)) = view (f s)) :
    Through view (store f : Tx ε σ Unit) := by
  intro s t hst
  change some ((), view (f s)) = some ((), view (f t))
  rw [← h s, ← h t, hst]

theorem ensure {p : Prop} [Decidable p] {e : ε} : Through view (ensure p e : Tx ε σ Unit) := by
  unfold Tx.ensure
  split
  · exact pure
  · exact abort

theorem orAbort {o : Option α} {e : ε} : Through view (orAbort o e : Tx ε σ α) := by
  cases o with
  | none => exact abort
  | some a => exact pure

theorem bind (hx : Through view x) (hf : ∀ a, Through view (f a)) : Through view (x >>= f) := by
  intro s t hst
  have hone := hx s t hst
  cases hs : x s with
  | error e =>
    cases ht : x t with
    | error e' =>
      change answer view (x s >>= fun p => f p.1 p.2) = answer view (x t >>= fun p => f p.1 p.2)
      rw [hs, ht]
      rfl
    | ok q =>
      rw [hs, ht] at hone
      cases hone
  | ok p =>
    cases ht : x t with
    | error e' =>
      rw [hs, ht] at hone
      cases hone
    | ok q =>
      rw [hs, ht] at hone
      obtain ⟨hvalue, hview⟩ := Prod.mk.inj (Option.some.inj hone)
      rw [bind_of_ok hs, bind_of_ok ht, hvalue]
      exact hf q.1 p.2 q.2 hview

theorem onlyIf {p : Prop} [Decidable p] {x : Tx ε σ Unit} (hx : Through view x) :
    Through view (onlyIf p x) := by
  unfold Tx.onlyIf
  split
  · exact hx
  · exact pure

end Through

namespace Alike

variable {x : Tx ε σ α} {y : Tx ε σ β} {z : Tx ε σ γ} {f : α → Tx ε σ β} {g : α → Tx ε σ γ}

theorem pure {a : α} {b : β} : Alike view (pure a : Tx ε σ α) (pure b : Tx ε σ β) := by
  intro s t h
  change some (view s) = some (view t)
  rw [h]

theorem symm (h : Alike view x y) : Alike view y x := fun s t hst => (h t s hst.symm).symm

theorem bind (hx : Through view x) (h : ∀ a, Alike view (f a) (g a)) :
    Alike view (x >>= f) (x >>= g) := fun s t hst => outcome_bind_of_answer (hx s t hst) h

theorem unseen {k : σ → σ} (hk : ∀ s, view (k s) = view s) {y : Unit → Tx ε σ β}
    (h : Alike view (y ()) z) : Alike view (Tx.store k >>= y) z :=
  fun s t hst => h (k s) t ((hk s).trans hst)

theorem unseen_end {b : β} {k : σ → σ} (hk : ∀ s, view (k s) = view s) :
    Alike view (Pure.pure b : Tx ε σ β) (Tx.store k) := by
  intro s t hst
  change some (view s) = some (view (k t))
  rw [hk, hst]

theorem passed {p : Prop} [Decidable p] {e : ε} (hp : p) {y : Unit → Tx ε σ β}
    (h : Alike view (y ()) z) : Alike view (Tx.ensure p e >>= y) z := by
  intro s t hst
  have hrun : (Tx.ensure p e : Tx ε σ Unit) s = .ok ((), s) :=
    ensure_ok (u := ()).mpr ⟨hp, rfl⟩
  rw [bind_of_ok hrun]
  exact h s t hst

end Alike

section Loops

variable {as : List α} {bs : List δ} {body : α → Tx ε σ β} {one : α → Tx ε σ γ}
  {I : σ → Prop} {s t : σ}

/-- Bodies that are alike under an invariant of the loop make loops that are. -/
theorem forEach_alike
    (hkeeps : ∀ a ∈ as, ∀ s b s', I s → body a s = .ok (b, s') → I s')
    (h : ∀ a ∈ as, ∀ s t, I s → view s = view t →
      outcome view (body a s) = outcome view (one a t))
    (hI : I s) (hst : view s = view t) :
    outcome view (forEach as body s) = outcome view (forEach as one t) := by
  induction as generalizing s t with
  | nil => exact congrArg some hst
  | cons a as ih =>
    have hone := h a (by simp) s t hI hst
    cases hs : body a s with
    | error e =>
      cases ht : one a t with
      | error e' =>
        rw [forEach, forEach, bind_of_error hs, bind_of_error ht]
        rfl
      | ok q =>
        rw [hs, ht] at hone
        cases hone
    | ok p =>
      cases ht : one a t with
      | error e' =>
        rw [hs, ht] at hone
        cases hone
      | ok q =>
        rw [hs, ht] at hone
        have hI' := hkeeps a (by simp) s p.1 p.2 hI hs
        rw [forEach, forEach, bind_of_ok hs, bind_of_ok ht, outcome_bind_pure, outcome_bind_pure]
        exact ih (fun a' ha' => hkeeps a' (by simp [ha'])) (fun a' ha' => h a' (by simp [ha']))
          hI' (Option.some.inj hone)

theorem forEach₂_alike {e : ε} {body : α → δ → Tx ε σ β} (hlength : as.length ≤ bs.length)
    (h : ∀ a b, Alike view (body a b) (one a)) (hst : view s = view t) :
    outcome view (forEach₂ e as bs body s) = outcome view (forEach as one t) := by
  induction as generalizing bs s t with
  | nil => exact congrArg some hst
  | cons a as ih =>
    cases bs with
    | nil => simp at hlength
    | cons b bs =>
      have hone := h a b s t hst
      cases hs : body a b s with
      | error e =>
        cases ht : one a t with
        | error e' =>
          rw [forEach₂, forEach, bind_of_error hs, bind_of_error ht]
          rfl
        | ok q =>
          rw [hs, ht] at hone
          cases hone
      | ok p =>
        cases ht : one a t with
        | error e' =>
          rw [hs, ht] at hone
          cases hone
        | ok q =>
          rw [hs, ht] at hone
          rw [forEach₂, forEach, bind_of_ok hs, bind_of_ok ht, outcome_bind_pure, outcome_bind_pure]
          exact ih (by simpa using hlength) (Option.some.inj hone)

theorem forEach₂_zip {e : ε} {body : α → δ → Tx ε σ β} (hlength : as.length ≤ bs.length) :
    forEach₂ e as bs body = forEach (as.zip bs) fun p => body p.1 p.2 := by
  induction as generalizing bs with
  | nil => rfl
  | cons a as ih =>
    cases bs with
    | nil => simp at hlength
    | cons b bs =>
      rw [forEach₂, List.zip_cons_cons, forEach, ih (by simpa using hlength)]

section Checks

variable {check : α → Tx ε σ Unit} {P : α → σ → Prop} {R : α → α → Prop}

theorem checks_pass (hpass : ∀ a s, P a s → check a s = .ok ((), s)) (h : ∀ a ∈ as, P a s) :
    ∃ us, forEach as check s = .ok (us, s) := by
  induction as with
  | nil => exact ⟨[], rfl⟩
  | cons a as ih =>
    obtain ⟨us, hrest⟩ := ih fun a' ha' => h a' (by simp [ha'])
    exact ⟨() :: us, forEach_cons_ok.mpr ⟨(), s, us, hpass a s (h a (by simp)), hrest, rfl⟩⟩

theorem checks_fail (hpass : ∀ a s, P a s → check a s = .ok ((), s))
    (hfail : ∀ a s, ¬ P a s → ∃ e, check a s = .error e) (h : ¬ ∀ a ∈ as, P a s) :
    ∃ e, forEach as check s = .error e := by
  induction as with
  | nil => simp at h
  | cons a as ih =>
    by_cases ha : P a s
    · obtain ⟨e, he⟩ := ih fun hrest => h (by simpa using ⟨ha, hrest⟩)
      exact ⟨e, by rw [forEach, bind_of_ok (hpass a s ha), bind_of_error he]⟩
    · obtain ⟨e, he⟩ := hfail a s ha
      exact ⟨e, by rw [forEach, bind_of_error he]⟩

/-- Checks that all pass at the start, of elements that do not spoil each other's, may be left
out of the loop. -/
theorem forEach_checked (hpass : ∀ a s, P a s → check a s = .ok ((), s))
    (hkeeps : ∀ a s b s', P a s → body a s = .ok (b, s') → ∀ a', P a' s' ↔ P a' s ∧ R a a')
    (hall : ∀ a ∈ as, P a s) (hapart : as.Pairwise R) :
    outcome view (forEach as body s) =
      outcome view (forEach as (fun a => check a >>= fun _ => body a) s) := by
  induction as generalizing s with
  | nil => rfl
  | cons a as ih =>
    obtain ⟨hhead, hapart⟩ := List.pairwise_cons.mp hapart
    have ha : P a s := hall a (by simp)
    have hone : (check a >>= fun _ => body a) s = body a s := bind_of_ok (hpass a s ha)
    cases hbody : body a s with
    | error e => rw [forEach, forEach, bind_of_error hbody, bind_of_error (hone.trans hbody)]
    | ok p =>
      rw [forEach, forEach, bind_of_ok hbody, bind_of_ok (hone.trans hbody), outcome_bind_pure,
        outcome_bind_pure]
      refine ih (fun a' ha' => ?_) hapart
      exact (hkeeps a s p.1 p.2 ha hbody a').mpr ⟨hall a' (by simp [ha']), hhead a' ha'⟩

/-- The loop that makes each check in its turn fails unless they all passed at the start, of
elements that do not spoil each other's. -/
theorem forEach_unchecked (hpass : ∀ a s, P a s → check a s = .ok ((), s))
    (hfail : ∀ a s, ¬ P a s → ∃ e, check a s = .error e)
    (hkeeps : ∀ a s b s', P a s → body a s = .ok (b, s') → ∀ a', P a' s' ↔ P a' s ∧ R a a')
    (h : ¬ ((∀ a ∈ as, P a s) ∧ as.Pairwise R)) :
    ∃ e, forEach as (fun a => check a >>= fun _ => body a) s = .error e := by
  induction as generalizing s with
  | nil => simp at h
  | cons a as ih =>
    by_cases ha : P a s
    · have hone : (check a >>= fun _ => body a) s = body a s := bind_of_ok (hpass a s ha)
      cases hbody : body a s with
      | error e => exact ⟨e, by rw [forEach, bind_of_error (hone.trans hbody)]⟩
      | ok p =>
        have hrest : ¬ ((∀ a' ∈ as, P a' p.2) ∧ as.Pairwise R) := by
          intro hrest
          obtain ⟨hall, hapart⟩ := hrest
          have hback := fun a' ha' => (hkeeps a s p.1 p.2 ha hbody a').mp (hall a' ha')
          refine h ⟨?_, List.pairwise_cons.mpr ⟨fun a' ha' => (hback a' ha').2, hapart⟩⟩
          simpa using ⟨ha, fun a' ha' => (hback a' ha').1⟩
        obtain ⟨e, he⟩ := ih hrest
        exact ⟨e, by rw [forEach, bind_of_ok (hone.trans hbody), bind_of_error he]⟩
    · obtain ⟨e, he⟩ := hfail a s ha
      have hone : (check a >>= fun _ => body a) s = .error e := bind_of_error he
      exact ⟨e, by rw [forEach, bind_of_error hone]⟩

theorem forEach_hoist (hpass : ∀ a s, P a s → check a s = .ok ((), s))
    (hfail : ∀ a s, ¬ P a s → ∃ e, check a s = .error e)
    (hkeeps : ∀ a s b s', P a s → body a s = .ok (b, s') → ∀ a', P a' s' ↔ P a' s) :
    outcome view ((forEach as check >>= fun _ => forEach as body) s) =
      outcome view (forEach as (fun a => check a >>= fun _ => body a) s) := by
  have hspares : ∀ a s b s', P a s → body a s = .ok (b, s') → ∀ a', P a' s' ↔ P a' s ∧ True := by
    intro a s b s' ha hbody a'
    rw [and_true]
    exact hkeeps a s b s' ha hbody a'
  have hapart : as.Pairwise fun _ _ => True := List.pairwise_of_forall fun _ _ => trivial
  by_cases hall : ∀ a ∈ as, P a s
  · obtain ⟨us, hchecks⟩ := checks_pass hpass hall
    rw [bind_of_ok hchecks]
    exact forEach_checked hpass hspares hall hapart
  · obtain ⟨e, hchecks⟩ := checks_fail hpass hfail hall
    obtain ⟨e', hloop⟩ := forEach_unchecked hpass hfail hspares fun h => hall h.1
    rw [bind_of_error hchecks, hloop]
    rfl

end Checks

section Reads

variable {read : α → β} {p : α → Prop} {e : ε}

theorem forEach_reads (hbody : ∀ a ∈ as, body a s = .ok (read a, s)) :
    forEach as body s = .ok (as.map read, s) := by
  induction as with
  | nil => rfl
  | cons a as ih =>
    have hrest := ih fun a' ha' => hbody a' (by simp [ha'])
    rw [forEach, bind_of_ok (hbody a (by simp)), bind_of_ok hrest]
    rfl

theorem forEach_refused (hpass : ∀ a, p a → body a s = .ok (read a, s))
    (hfail : ∀ a, ¬ p a → body a s = .error e) (h : ¬ ∀ a ∈ as, p a) :
    forEach as body s = .error e := by
  induction as with
  | nil => simp at h
  | cons a as ih =>
    by_cases ha : p a
    · have hrest := ih fun hall => h (by simpa [ha] using hall)
      rw [forEach, bind_of_ok (hpass a ha), bind_of_error hrest]
    · rw [forEach, bind_of_error (hfail a ha)]

end Reads

end Loops

end AtomicIp.Tx
