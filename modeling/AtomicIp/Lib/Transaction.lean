import Mathlib.Logic.Basic

/-!
Transactions: programs over a state that either return a value and a new state
or abort. An abort carries no state, so everything the program wrote before it
is rolled back.
-/

set_option autoImplicit false

namespace AtomicIp

abbrev Tx (ε σ α : Type) := StateT σ (Except ε) α

namespace Tx

variable {ε σ α β γ : Type}

def load (f : σ → α) : Tx ε σ α := fun s => .ok (f s, s)

def store (f : σ → σ) : Tx ε σ Unit := fun s => .ok ((), f s)

def abort (e : ε) : Tx ε σ α := fun _ => .error e

def ensure (p : Prop) [Decidable p] (e : ε) : Tx ε σ Unit :=
  if p then pure () else abort e

def orAbort (o : Option α) (e : ε) : Tx ε σ α :=
  match o with
  | some a => pure a
  | none => abort e

def void (x : Tx ε σ α) : Tx ε σ Unit := do
  let _ ← x
  pure ()

def onlyIf (p : Prop) [Decidable p] (x : Tx ε σ Unit) : Tx ε σ Unit :=
  if p then x else pure ()

def forEach : List α → (α → Tx ε σ β) → Tx ε σ (List β)
  | [], _ => pure []
  | a :: as, body => do
    let b ← body a
    let bs ← forEach as body
    pure (b :: bs)

/-- Two lists walked by one index. The second list running out first is an
out-of-range access; what is left of it is never read. -/
def forEach₂ (outOfRange : ε) :
    List α → List β → (α → β → Tx ε σ γ) → Tx ε σ (List γ)
  | [], _, _ => pure []
  | _ :: _, [], _ => abort outOfRange
  | a :: as, b :: bs, body => do
    let c ← body a b
    let cs ← forEach₂ outOfRange as bs body
    pure (c :: cs)

section Returns

variable {s s' : σ}

@[simp] theorem pure_ok {a b : α} :
    (pure a : Tx ε σ α) s = .ok (b, s') ↔ b = a ∧ s' = s := by
  change Except.ok (a, s) = Except.ok (b, s') ↔ _
  simp only [Except.ok.injEq, Prod.mk.injEq]
  exact and_congr eq_comm eq_comm

@[simp low] theorem bind_ok {x : Tx ε σ α} {f : α → Tx ε σ β} {b : β} :
    (x >>= f) s = .ok (b, s') ↔ ∃ a s₁, x s = .ok (a, s₁) ∧ f a s₁ = .ok (b, s') := by
  change (x s >>= fun p => f p.1 p.2) = _ ↔ _
  cases hx : x s with
  | error e => simp [bind, Except.bind]
  | ok p =>
    obtain ⟨a, s₁⟩ := p
    constructor
    · intro h
      exact ⟨a, s₁, rfl, h⟩
    · rintro ⟨a', s₁', ⟨⟩, h⟩
      exact h

@[simp] theorem load_ok {f : σ → α} {a : α} :
    (load f : Tx ε σ α) s = .ok (a, s') ↔ a = f s ∧ s' = s := by
  simp only [load, Except.ok.injEq, Prod.mk.injEq]
  exact and_congr eq_comm eq_comm

@[simp] theorem store_ok {f : σ → σ} {u : Unit} :
    (store f : Tx ε σ Unit) s = .ok (u, s') ↔ s' = f s := by
  simp only [store, Except.ok.injEq, Prod.mk.injEq, true_and]
  exact eq_comm

@[simp] theorem abort_ok {e : ε} {a : α} :
    ¬ (abort e : Tx ε σ α) s = .ok (a, s') := by simp [abort]

@[simp] theorem ensure_ok {p : Prop} [Decidable p] {e : ε} {u : Unit} :
    (ensure p e : Tx ε σ Unit) s = .ok (u, s') ↔ p ∧ s' = s := by
  by_cases hp : p <;> simp [ensure, hp]

@[simp] theorem orAbort_ok {o : Option α} {e : ε} {a : α} :
    (orAbort o e : Tx ε σ α) s = .ok (a, s') ↔ o = some a ∧ s' = s := by
  cases o with
  | none => simp [orAbort]
  | some b =>
    simp only [orAbort, pure_ok, Option.some.injEq]
    exact and_congr_left fun _ => eq_comm

@[simp] theorem onlyIf_ok {p : Prop} [Decidable p] {x : Tx ε σ Unit} {u : Unit} :
    onlyIf p x s = .ok (u, s') ↔ (p ∧ x s = .ok (u, s')) ∨ (¬ p ∧ s' = s) := by
  by_cases hp : p <;> simp [onlyIf, hp]

@[simp] theorem ite_ok {p : Prop} [Decidable p] {x y : Tx ε σ α} {a : α} :
    (if p then x else y) s = .ok (a, s') ↔
      (p ∧ x s = .ok (a, s')) ∨ (¬ p ∧ y s = .ok (a, s')) := by
  by_cases hp : p <;> simp [hp]

@[simp] theorem load_bind_ok {f : σ → α} {k : α → Tx ε σ β} {b : β} :
    (load f >>= k) s = .ok (b, s') ↔ k (f s) s = .ok (b, s') := Iff.rfl

@[simp] theorem store_bind_ok {f : σ → σ} {k : Unit → Tx ε σ β} {b : β} :
    (store f >>= k) s = .ok (b, s') ↔ k () (f s) = .ok (b, s') := Iff.rfl

@[simp low + 1] theorem seq_ok {x : Tx ε σ Unit} {k : Unit → Tx ε σ β} {b : β} :
    (x >>= k) s = .ok (b, s') ↔ ∃ s₁, x s = .ok ((), s₁) ∧ k () s₁ = .ok (b, s') := by
  rw [bind_ok]
  exact ⟨fun ⟨_, h⟩ => h, fun h => ⟨(), h⟩⟩

@[simp] theorem map_ok {x : Tx ε σ α} {f : α → β} {b : β} :
    (f <$> x) s = .ok (b, s') ↔ ∃ a, x s = .ok (a, s') ∧ b = f a := by
  change (x s >>= fun p => Except.ok (f p.1, p.2)) = _ ↔ _
  cases hx : x s with
  | error e => simp [bind, Except.bind]
  | ok p =>
    simp only [bind, Except.bind, Except.ok.injEq, Prod.ext_iff]
    constructor
    · intro h
      exact ⟨p.1, ⟨rfl, h.2⟩, h.1.symm⟩
    · intro h
      obtain ⟨a, ⟨rfl, hs⟩, rfl⟩ := h
      exact ⟨rfl, hs⟩

@[simp] theorem void_ok {x : Tx ε σ α} {u : Unit} :
    void x s = .ok (u, s') ↔ ∃ a, x s = .ok (a, s') := by
  simp [void]

@[simp] theorem forEach_nil_ok {body : α → Tx ε σ β} {bs : List β} :
    forEach [] body s = .ok (bs, s') ↔ bs = [] ∧ s' = s := by simp [forEach]

@[simp] theorem forEach_cons_ok {a : α} {as : List α} {body : α → Tx ε σ β}
    {bs : List β} :
    forEach (a :: as) body s = .ok (bs, s') ↔
      ∃ b s₁ cs, body a s = .ok (b, s₁) ∧ forEach as body s₁ = .ok (cs, s') ∧
        bs = b :: cs := by
  simp only [forEach, bind_ok, pure_ok]
  constructor
  · rintro ⟨b, s₁, hb, cs, s₂, hcs, rfl, rfl⟩
    exact ⟨b, s₁, cs, hb, hcs, rfl⟩
  · rintro ⟨b, s₁, cs, hb, hcs, rfl⟩
    exact ⟨b, s₁, hb, cs, s', hcs, rfl, rfl⟩

end Returns

section Aborts

variable {s s' : σ}

theorem load_bind {f : σ → α} {k : α → Tx ε σ β} : (load f >>= k) s = k (f s) s := rfl

theorem bind_of_ok {x : Tx ε σ α} {f : α → Tx ε σ β} {a : α} (h : x s = .ok (a, s')) :
    (x >>= f) s = f a s' := by
  change (x s >>= fun p => f p.1 p.2) = _
  rw [h]
  rfl

theorem bind_of_error {x : Tx ε σ α} {f : α → Tx ε σ β} {e : ε} (h : x s = .error e) :
    (x >>= f) s = .error e := by
  change (x s >>= fun r => f r.1 r.2) = _
  rw [h]
  rfl

theorem ensure_error {p : Prop} [Decidable p] {e : ε} (h : ¬ p) :
    (ensure p e : Tx ε σ Unit) s = .error e := by
  rw [ensure, if_neg h]
  rfl

theorem refused {x : Tx ε σ α} (h : ∀ a s', x s ≠ .ok (a, s')) : ∃ e, x s = .error e := by
  cases hx : x s with
  | error e => exact ⟨e, rfl⟩
  | ok p => exact absurd hx (h p.1 p.2)

def AbortsWith (E : ε → Prop) (s : σ) (x : Tx ε σ α) : Prop := ∀ e, x s = .error e → E e

namespace AbortsWith

variable {E : ε → Prop}

theorem of_ok {x : Tx ε σ α} {p : α × σ} (h : x s = .ok p) : AbortsWith E s x := by
  intro e herror
  rw [h] at herror
  cases herror

theorem of_error {x : Tx ε σ α} {e : ε} (h : x s = .error e) (he : E e) : AbortsWith E s x := by
  intro e' herror
  rw [h] at herror
  cases herror
  exact he

theorem ensure {p : Prop} [Decidable p] {e : ε} (he : E e) :
    AbortsWith E s (Tx.ensure p e : Tx ε σ Unit) := by
  by_cases hp : p
  · exact .of_ok (ensure_ok (u := ()).mpr ⟨hp, rfl⟩)
  · exact .of_error (by simp [Tx.ensure, hp, abort]) he

theorem orAbort {o : Option α} {e : ε} (he : E e) :
    AbortsWith E s (Tx.orAbort o e : Tx ε σ α) := by
  cases o with
  | none => exact .of_error rfl he
  | some a => exact .of_ok (orAbort_ok.mpr ⟨rfl, rfl⟩)

theorem bind {x : Tx ε σ α} {f : α → Tx ε σ β} (hx : AbortsWith E s x)
    (hf : ∀ a s', x s = .ok (a, s') → AbortsWith E s' (f a)) : AbortsWith E s (x >>= f) := by
  intro e herror
  cases hrun : x s with
  | error e' =>
    change (x s >>= fun p => f p.1 p.2) = _ at herror
    rw [hrun] at herror
    cases herror
    exact hx e hrun
  | ok p =>
    rw [bind_of_ok hrun] at herror
    exact hf p.1 p.2 hrun e herror

theorem onlyIf {p : Prop} [Decidable p] {x : Tx ε σ Unit} (hx : p → AbortsWith E s x) :
    AbortsWith E s (Tx.onlyIf p x) := by
  by_cases hp : p
  · rw [Tx.onlyIf, if_pos hp]
    exact hx hp
  · rw [Tx.onlyIf, if_neg hp]
    exact .of_ok rfl

theorem forEach_inv {I : σ → Prop} {as : List α} {body : α → Tx ε σ β}
    (hbody : ∀ a ∈ as, ∀ s, I s → AbortsWith E s (body a))
    (hkeep : ∀ a ∈ as, ∀ s b s', I s → body a s = .ok (b, s') → I s') (hI : I s) :
    AbortsWith E s (Tx.forEach as body) := by
  induction as generalizing s with
  | nil => exact .of_ok rfl
  | cons a as ih =>
    refine .bind (hbody a (by simp) s hI) fun b s' hb => .bind ?_ fun _ _ _ => .of_ok rfl
    exact ih (fun a' ha' => hbody a' (by simp [ha'])) (fun a' ha' => hkeep a' (by simp [ha']))
      (hkeep a (by simp) s b s' hI hb)

theorem forEach {as : List α} {body : α → Tx ε σ β}
    (hbody : ∀ a ∈ as, ∀ s, AbortsWith E s (body a)) : AbortsWith E s (Tx.forEach as body) :=
  forEach_inv (I := fun _ => True) (fun a ha s _ => hbody a ha s) (fun _ _ _ _ _ _ _ => trivial)
    trivial

theorem forEach₂ {outOfRange : ε} {as : List α} {bs : List β} {body : α → β → Tx ε σ γ}
    (hrange : E outOfRange) (hbody : ∀ a b s, AbortsWith E s (body a b)) :
    AbortsWith E s (Tx.forEach₂ outOfRange as bs body) := by
  induction as generalizing bs s with
  | nil => exact .of_ok rfl
  | cons a as ih =>
    cases bs with
    | nil => exact .of_error rfl hrange
    | cons b bs => exact .bind (hbody a b s) fun _ _ _ => .bind ih fun _ _ _ => .of_ok rfl

end AbortsWith

/-- The program goes through from this state, and ends as `Q` says. -/
def Succeeds (s : σ) (x : Tx ε σ α) (Q : α → σ → Prop) : Prop :=
  ∃ a s', x s = .ok (a, s') ∧ Q a s'

namespace Succeeds

variable {P : α → σ → Prop} {Q : β → σ → Prop} {I : σ → Prop}

theorem of_ok {x : Tx ε σ α} {a : α} (h : x s = .ok (a, s')) (hP : P a s') : Succeeds s x P :=
  ⟨a, s', h, hP⟩

theorem bind {x : Tx ε σ α} {f : α → Tx ε σ β} (hx : Succeeds s x P)
    (hf : ∀ a s', P a s' → Succeeds s' (f a) Q) : Succeeds s (x >>= f) Q := by
  obtain ⟨a, s₁, hrun, hP⟩ := hx
  obtain ⟨b, s', hrest, hQ⟩ := hf a s₁ hP
  exact ⟨b, s', (bind_of_ok hrun).trans hrest, hQ⟩

theorem after {x : Tx ε σ α} {f : α → Tx ε σ β} {a : α} (h : x s = .ok (a, s'))
    (hf : Succeeds s' (f a) Q) : Succeeds s (x >>= f) Q := by
  obtain ⟨b, s'', hrest, hQ⟩ := hf
  exact ⟨b, s'', (bind_of_ok h).trans hrest, hQ⟩

theorem onlyIf {p : Prop} [Decidable p] {x : Tx ε σ Unit} (hx : p → Succeeds s x fun _ => I)
    (hskip : ¬ p → I s) : Succeeds s (Tx.onlyIf p x) fun _ => I := by
  by_cases hp : p
  · rw [Tx.onlyIf, if_pos hp]
    exact hx hp
  · rw [Tx.onlyIf, if_neg hp]
    exact of_ok rfl (hskip hp)

end Succeeds

end Aborts

/-- An invariant of the body is one of the loop, and a reflexive and transitive relation
that every pass keeps under the invariant is kept by the whole loop. -/
theorem forEach_inv {I : σ → Prop} {R : σ → σ → Prop} (hrefl : ∀ s, R s s)
    (htrans : ∀ {s₁ s₂ s₃}, R s₁ s₂ → R s₂ s₃ → R s₁ s₃)
    {as : List α} {body : α → Tx ε σ β}
    (hbody : ∀ a ∈ as, ∀ s b s', I s → body a s = .ok (b, s') → I s' ∧ R s s')
    {s s' : σ} {bs : List β} (h : forEach as body s = .ok (bs, s')) (hI : I s) :
    I s' ∧ R s s' := by
  induction as generalizing s bs with
  | nil =>
    rw [(forEach_nil_ok.mp h).2]
    exact ⟨hI, hrefl s⟩
  | cons a as ih =>
    obtain ⟨b, s₁, cs, hb, hcs, -⟩ := forEach_cons_ok.mp h
    obtain ⟨hI₁, hhead⟩ := hbody a (by simp) s b s₁ hI hb
    obtain ⟨hI', htail⟩ := ih (fun a' ha' => hbody a' (by simp [ha'])) hcs hI₁
    exact ⟨hI', htrans hhead htail⟩

theorem forEach_rel {R : σ → σ → Prop} (hrefl : ∀ s, R s s)
    (htrans : ∀ {s₁ s₂ s₃}, R s₁ s₂ → R s₂ s₃ → R s₁ s₃)
    {as : List α} {body : α → Tx ε σ β}
    (hbody : ∀ a ∈ as, ∀ s b s', body a s = .ok (b, s') → R s s')
    {s s' : σ} {bs : List β} (h : forEach as body s = .ok (bs, s')) : R s s' :=
  (forEach_inv (I := fun _ => True) hrefl htrans
    (fun a ha s b s' _ hb => ⟨trivial, hbody a ha s b s' hb⟩) h trivial).2

theorem forEach₂_rel {R : σ → σ → Prop} (hrefl : ∀ s, R s s)
    (htrans : ∀ {s₁ s₂ s₃}, R s₁ s₂ → R s₂ s₃ → R s₁ s₃)
    {e : ε} {as : List α} {bs : List β} {body : α → β → Tx ε σ γ}
    (hbody : ∀ a ∈ as, ∀ b ∈ bs, ∀ s c s', body a b s = .ok (c, s') → R s s')
    {s s' : σ} {cs : List γ} (h : forEach₂ e as bs body s = .ok (cs, s')) : R s s' := by
  induction as generalizing bs s cs with
  | nil =>
    simp only [forEach₂, pure_ok] at h
    rw [h.2]; exact hrefl s
  | cons a as ih =>
    cases bs with
    | nil => simp [forEach₂] at h
    | cons b bs =>
      simp only [forEach₂, bind_ok, pure_ok] at h
      obtain ⟨c, s₁, hc, cs', s₂, hcs, -, rfl⟩ := h
      have hhead := hbody a (by simp) b (by simp) s c s₁ hc
      have htail := ih (fun a' ha' b' hb' => hbody a' (by simp [ha']) b' (by simp [hb'])) hcs
      exact htrans hhead htail

theorem forEach₂_each {I : σ → Prop} {Q : α → Prop} {e : ε} {as : List α} {bs : List β}
    {body : α → β → Tx ε σ γ}
    (hbody : ∀ a b s c s', I s → body a b s = .ok (c, s') → I s' ∧ Q a)
    {s s' : σ} {cs : List γ} (h : forEach₂ e as bs body s = .ok (cs, s')) (hI : I s) :
    ∀ a ∈ as, Q a := by
  induction as generalizing bs s cs with
  | nil => simp
  | cons a as ih =>
    cases bs with
    | nil => simp [forEach₂] at h
    | cons b bs =>
      simp only [forEach₂, bind_ok, pure_ok] at h
      obtain ⟨c, s₁, hc, cs', s₂, hcs, -, rfl⟩ := h
      obtain ⟨hI₁, hhead⟩ := hbody a b s c s₁ hI hc
      intro a' ha'
      rcases List.mem_cons.mp ha' with rfl | ha'
      · exact hhead
      · exact ih hcs hI₁ a' ha'

/-- A loop of checks that never write: the state is the one it started in, and every
element was checked there. -/
theorem forEach_checks {Q : α → σ → Prop} {as : List α} {body : α → Tx ε σ β}
    (hbody : ∀ a ∈ as, ∀ s b s', body a s = .ok (b, s') → s' = s ∧ Q a s)
    {s s' : σ} {bs : List β} (h : forEach as body s = .ok (bs, s')) :
    s' = s ∧ ∀ a ∈ as, Q a s := by
  induction as generalizing s bs with
  | nil => simp [(forEach_nil_ok.mp h).2]
  | cons a as ih =>
    obtain ⟨b, s₁, cs, hb, hcs, -⟩ := forEach_cons_ok.mp h
    obtain ⟨rfl, hhead⟩ := hbody a (by simp) s b s₁ hb
    obtain ⟨hs, htail⟩ := ih (fun a' ha' => hbody a' (by simp [ha'])) hcs
    exact ⟨hs, by simpa using ⟨hhead, htail⟩⟩

theorem forEach₂_checks {Q : α → β → σ → Prop} {e : ε} {as : List α} {bs : List β}
    {body : α → β → Tx ε σ γ}
    (hbody : ∀ a b s c s', body a b s = .ok (c, s') → s' = s ∧ Q a b s)
    {s s' : σ} {cs : List γ} (h : forEach₂ e as bs body s = .ok (cs, s')) :
    s' = s ∧ as.length ≤ bs.length ∧ ∀ p ∈ as.zip bs, Q p.1 p.2 s := by
  induction as generalizing bs s cs with
  | nil =>
    simp only [forEach₂, pure_ok] at h
    simp [h.2]
  | cons a as ih =>
    cases bs with
    | nil => simp [forEach₂] at h
    | cons b bs =>
      simp only [forEach₂, bind_ok, pure_ok] at h
      obtain ⟨c, s₁, hc, cs', s₂, hcs, -, rfl⟩ := h
      obtain ⟨rfl, hhead⟩ := hbody a b s c s₁ hc
      obtain ⟨hs, hlength, htail⟩ := ih hcs
      exact ⟨hs, by simpa using hlength, by simpa using ⟨hhead, by simpa using htail⟩⟩

theorem forEach₂_checks_mem {Q : α → β → σ → Prop} {e : ε} {as : List α} {bs : List β}
    {body : α → β → Tx ε σ γ}
    (hbody : ∀ a b s c s', body a b s = .ok (c, s') → s' = s ∧ Q a b s)
    {s s' : σ} {cs : List γ} (h : forEach₂ e as bs body s = .ok (cs, s')) :
    s' = s ∧ ∀ a ∈ as, ∃ b ∈ bs, Q a b s := by
  obtain ⟨hs, hlength, hall⟩ := forEach₂_checks hbody h
  refine ⟨hs, ?_⟩
  intro a ha
  obtain ⟨n, hn, rfl⟩ := List.mem_iff_getElem.mp ha
  have hmem : (as[n], bs[n]) ∈ as.zip bs :=
    List.mem_iff_getElem.mpr ⟨n, by simp; omega, List.getElem_zip⟩
  exact ⟨bs[n], (List.of_mem_zip hmem).2, hall _ hmem⟩

end Tx

end AtomicIp
