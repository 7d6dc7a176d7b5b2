import AtomicIp.Lib.Transaction
import Mathlib.Data.List.Basic

set_option autoImplicit false

namespace AtomicIp

variable {σ κ l : Type}

/-- The labels taken from `s₀` with the states they led to, newest first. -/
inductive Run (step : σ → κ → σ → Prop) (s₀ : σ) : List (κ × σ) → σ → Prop where
  | start : Run step s₀ [] s₀
  | next {tr : List (κ × σ)} {s s' : σ} {k : κ} :
      Run step s₀ tr s → step s k s' → Run step s₀ ((k, s') :: tr) s'

def visited (s₀ : σ) (tr : List (κ × σ)) : List σ := tr.map Prod.snd ++ [s₀]

@[simp] theorem visited_nil (s₀ : σ) : visited s₀ ([] : List (κ × σ)) = [s₀] := rfl

@[simp] theorem visited_cons (s₀ : σ) (k : κ) (s : σ) (tr : List (κ × σ)) :
    visited s₀ ((k, s) :: tr) = s :: visited s₀ tr := rfl

/-- The state a trace from `s₀` led to. -/
def now (s₀ : σ) : List (κ × σ) → σ
  | [] => s₀
  | (_, s) :: _ => s

/-- Every step of a run, newest first: the trace before it, the states around it and its
label. -/
def steps (s₀ : σ) : List (κ × σ) → List (List (κ × σ) × σ × κ × σ)
  | [] => []
  | (k, s') :: tr => (tr, now s₀ tr, k, s') :: steps s₀ tr

/-- The steps whose label and source state meet a condition. -/
def Restrict (step : σ → κ → σ → Prop) (cond : σ → κ → Prop) : σ → κ → σ → Prop :=
  fun s k s' => step s k s' ∧ cond s k

theorem mem_of_mem_steps {s₀ a b : σ} {k : κ} {past tr : List (κ × σ)}
    (h : (past, a, k, b) ∈ steps s₀ tr) : (k, b) ∈ tr := by
  induction tr with
  | nil => simp [steps] at h
  | cons p tr ih =>
    simp only [steps, List.mem_cons, Prod.mk.injEq] at h
    rcases h with ⟨-, -, rfl, rfl⟩ | h
    · simp
    · exact List.mem_cons_of_mem _ (ih h)

theorem suffix_of_mem_steps {s₀ a b : σ} {k : κ} {past tr : List (κ × σ)}
    (h : (past, a, k, b) ∈ steps s₀ tr) : past <:+ tr := by
  induction tr with
  | nil => simp [steps] at h
  | cons p tr ih =>
    simp only [steps, List.mem_cons, Prod.mk.injEq] at h
    rcases h with ⟨rfl, -, -, -⟩ | h
    · exact List.suffix_cons p past
    · exact (ih h).trans (List.suffix_cons p tr)

def Happened (P : σ → κ → σ → Prop) (s₀ : σ) (tr : List (κ × σ)) : Prop :=
  ∃ past a k b, (past, a, k, b) ∈ steps s₀ tr ∧ P a k b

theorem happened_nil {P : σ → κ → σ → Prop} {s₀ : σ} : ¬ Happened P s₀ [] := by
  simp [Happened, steps]

theorem happened_cons {P : σ → κ → σ → Prop} {s₀ s : σ} {k : κ} {tr : List (κ × σ)} :
    Happened P s₀ ((k, s) :: tr) ↔ P (now s₀ tr) k s ∨ Happened P s₀ tr := by
  constructor
  · intro h
    obtain ⟨past, a, k', b, hmem, hP⟩ := h
    simp only [steps, List.mem_cons, Prod.mk.injEq] at hmem
    rcases hmem with ⟨rfl, rfl, rfl, rfl⟩ | hmem
    · exact .inl hP
    · exact .inr ⟨past, a, k', b, hmem, hP⟩
  · intro h
    cases h with
    | inl hP => exact ⟨tr, now s₀ tr, k, s, by simp [steps], hP⟩
    | inr hearlier =>
      obtain ⟨past, a, k', b, hmem, hP⟩ := hearlier
      exact ⟨past, a, k', b, by simp [steps, hmem], hP⟩

theorem happened_of_seen {P : σ → κ → σ → Prop} {s₀ : σ} {tr : List (κ × σ)}
    {seen : σ → κ → σ → Bool} (hsound : ∀ a k b, seen a k b = true → P a k b)
    (h : ((steps s₀ tr).any fun p => seen p.2.1 p.2.2.1 p.2.2.2) = true) : Happened P s₀ tr := by
  obtain ⟨⟨past, a, k, b⟩, hmem, hseen⟩ := List.any_eq_true.mp h
  exact ⟨past, a, k, b, hmem, hsound a k b hseen⟩

theorem not_happened_of_seen {P : σ → κ → σ → Prop} {s₀ : σ} {tr : List (κ × σ)}
    {seen : σ → κ → σ → Bool} (hsound : ∀ a k b, seen a k b = true → ¬ P a k b)
    (h : ((steps s₀ tr).all fun p => seen p.2.1 p.2.2.1 p.2.2.2) = true) :
    ¬ Happened P s₀ tr := by
  intro hP
  obtain ⟨past, a, k, b, hmem, hone⟩ := hP
  exact hsound a k b (List.all_eq_true.mp h _ hmem) hone

namespace Run

variable {step : σ → κ → σ → Prop} {s₀ s : σ} {tr : List (κ × σ)}

theorem invariant {I : σ → Prop} (hinit : I s₀)
    (hstep : ∀ s k s', I s → step s k s' → I s') (h : Run step s₀ tr s) : I s := by
  induction h with
  | start => exact hinit
  | next _ hs ih => exact hstep _ _ _ ih hs

theorem forall_visited {I : σ → Prop} (hinit : I s₀)
    (hstep : ∀ s k s', I s → step s k s' → I s') (h : Run step s₀ tr s) :
    ∀ s' ∈ visited s₀ tr, I s' := by
  induction h with
  | start => simpa using hinit
  | next hrun hs ih =>
    have hnext := hstep _ _ _ (hrun.invariant hinit hstep) hs
    simpa using ⟨hnext, ih⟩

theorem trace_invariant {I : List (κ × σ) → σ → Prop} (hinit : I [] s₀)
    (hstep : ∀ tr s k s', I tr s → step s k s' → I ((k, s') :: tr) s')
    (h : Run step s₀ tr s) : I tr s := by
  induction h with
  | start => exact hinit
  | next _ hs ih => exact hstep _ _ _ _ ih hs

theorem mono {step' : σ → κ → σ → Prop} (hle : ∀ s k s', step s k s' → step' s k s')
    (h : Run step s₀ tr s) : Run step' s₀ tr s := by
  induction h with
  | start => exact .start
  | next _ hs ih => exact .next ih (hle _ _ _ hs)

theorem now_eq (h : Run step s₀ tr s) : now s₀ tr = s := by
  cases h <;> rfl

theorem mem_visited (h : Run step s₀ tr s) : s ∈ visited s₀ tr := by
  cases h <;> simp

theorem mem_steps_last {s' : σ} {k : κ} (h : Run step s₀ tr s) :
    (tr, s, k, s') ∈ steps s₀ ((k, s') :: tr) := by
  simp [steps, h.now_eq]

/-- What one step ensures under an invariant of the history, every step of a run ensures. -/
theorem forall_steps {Q : List (κ × σ) → σ → κ → σ → Prop} {I : List (κ × σ) → σ → Prop}
    (hinit : I [] s₀)
    (hstep : ∀ tr s k s', I tr s → step s k s' → I ((k, s') :: tr) s' ∧ Q tr s k s')
    (h : Run step s₀ tr s) :
    I tr s ∧ ∀ past a k b, (past, a, k, b) ∈ steps s₀ tr → Q past a k b := by
  induction h with
  | start => exact ⟨hinit, by simp [steps]⟩
  | next hrun hs ih =>
    obtain ⟨hI, hQ⟩ := ih
    obtain ⟨hI', hone⟩ := hstep _ _ _ _ hI hs
    refine ⟨hI', ?_⟩
    intro past a k b hmem
    simp only [steps, hrun.now_eq, List.mem_cons, Prod.mk.injEq] at hmem
    rcases hmem with ⟨rfl, rfl, rfl, rfl⟩ | hmem
    · exact hone
    · exact hQ past a k b hmem

/-- When a step keeps a property exactly if it meets a condition, all visited states have the
property exactly if all steps met the condition. -/
theorem visited_iff_steps {I J : σ → Prop} {cond : σ → κ → Prop} (hinit : I s₀) (hJ : J s₀)
    (hkeep : ∀ s k s', J s → step s k s' → J s')
    (hstep : ∀ s k s', J s → I s → step s k s' → (I s' ↔ cond s k)) (h : Run step s₀ tr s) :
    (∀ v ∈ visited s₀ tr, I v) ↔ ∀ past a k b, (past, a, k, b) ∈ steps s₀ tr → cond a k := by
  induction h with
  | start => simpa [steps] using hinit
  | @next tr s s' k hrun hs ih =>
    have hJs := hrun.invariant hJ hkeep
    have hvisited := hrun.mem_visited
    simp only [visited_cons, List.mem_cons, forall_eq_or_imp, steps, hrun.now_eq]
    constructor
    · intro hall
      obtain ⟨hnew, hold⟩ := hall
      intro past a k' b hmem
      rcases hmem with hlast | hearlier
      · simp only [Prod.mk.injEq] at hlast
        obtain ⟨-, rfl, rfl, -⟩ := hlast
        exact (hstep _ _ _ hJs (hold _ hvisited) hs).mp hnew
      · exact ih.mp hold past a k' b hearlier
    · intro hall
      have hold := ih.mpr fun past a k' b hmem => hall past a k' b (.inr hmem)
      exact ⟨(hstep _ _ _ hJs (hold _ hvisited) hs).mpr (hall tr s k s' (.inl rfl)), hold⟩

theorem traced_iff_steps {I J : List (κ × σ) → σ → Prop} {cond : List (κ × σ) → σ → κ → Prop}
    (hinit : I [] s₀) (hJ : J [] s₀)
    (hkeep : ∀ tr s k s', J tr s → step s k s' → J ((k, s') :: tr) s')
    (hstep : ∀ tr s k s', J tr s → I tr s → step s k s' → (I ((k, s') :: tr) s' ↔ cond tr s k))
    (h : Run step s₀ tr s) :
    (∀ past a k b, (past, a, k, b) ∈ steps s₀ tr → I ((k, b) :: past) b) ↔
      ∀ past a k b, (past, a, k, b) ∈ steps s₀ tr → cond past a k := by
  induction h with
  | start => simp [steps]
  | @next tr s s' k hrun hs ih =>
    have hJs : J tr s := hrun.trace_invariant hJ hkeep
    have hlast : (∀ past a k b, (past, a, k, b) ∈ steps s₀ tr → I ((k, b) :: past) b) → I tr s := by
      intro hall
      cases hrun with
      | start => exact hinit
      | next hrun _ => exact hall _ _ _ _ hrun.mem_steps_last
    simp only [steps, hrun.now_eq, List.mem_cons, Prod.mk.injEq]
    constructor
    · intro hall
      have hold : ∀ past a k b, (past, a, k, b) ∈ steps s₀ tr → I ((k, b) :: past) b :=
        fun past a k b hmem => hall past a k b (.inr hmem)
      intro past a k' b hmem
      rcases hmem with ⟨rfl, rfl, rfl, rfl⟩ | hearlier
      · exact (hstep _ _ _ _ hJs (hlast hold) hs).mp (hall _ _ _ _ (.inl ⟨rfl, rfl, rfl, rfl⟩))
      · exact ih.mp hold past a k' b hearlier
    · intro hall
      have hold := ih.mpr fun past a k b hmem => hall past a k b (.inr hmem)
      intro past a k' b hmem
      rcases hmem with ⟨rfl, rfl, rfl, rfl⟩ | hearlier
      · exact (hstep _ _ _ _ hJs (hlast hold) hs).mpr (hall _ _ _ _ (.inl ⟨rfl, rfl, rfl, rfl⟩))
      · exact hold past a k' b hearlier

theorem step_of_mem {a b : σ} {k : κ} {past : List (κ × σ)} (h : Run step s₀ tr s)
    (hmem : (past, a, k, b) ∈ steps s₀ tr) : step a k b := by
  have hall := h.forall_steps (I := fun _ _ => True) (Q := fun _ a k b => step a k b) trivial
    (fun _ _ _ _ _ hs => ⟨trivial, hs⟩)
  exact hall.2 past a k b hmem

theorem trans {s' : σ} {tr' : List (κ × σ)} (h : Run step s₀ tr s) (h' : Run step s tr' s') :
    Run step s₀ (tr' ++ tr) s' := by
  induction h' with
  | start => exact h
  | next _ hs ih => exact ih.next hs

theorem mem_visited_append (h : Run step s₀ tr s) (tr' : List (κ × σ)) :
    s ∈ visited s₀ (tr' ++ tr) := by
  have hmem := h.mem_visited
  simp only [visited, List.map_append, List.append_assoc, List.mem_append] at hmem ⊢
  exact .inr hmem

end Run

/-- Small steps taken one after the other, with their labels in order. -/
inductive Path (step : σ → l → σ → Prop) : σ → List l → σ → Prop where
  | nil {s : σ} : Path step s [] s
  | cons {s s' s'' : σ} {a : l} {as : List l} :
      step s a s' → Path step s' as s'' → Path step s (a :: as) s''

namespace Path

variable {step : σ → l → σ → Prop} {s s' s'' : σ} {as bs : List l}

theorem single {a : l} (h : step s a s') : Path step s [a] s' := .cons h .nil

theorem append (h₁ : Path step s as s') (h₂ : Path step s' bs s'') :
    Path step s (as ++ bs) s'' := by
  induction h₁ with
  | nil => exact h₂
  | cons hs _ ih => exact .cons hs (ih h₂)

theorem single_iff {a : l} : Path step s [a] s' ↔ step s a s' := by
  constructor
  · intro h
    cases h with
    | cons hs hrest =>
      cases hrest
      exact hs
  · exact .single

theorem append_iff :
    Path step s (as ++ bs) s'' ↔ ∃ s', Path step s as s' ∧ Path step s' bs s'' := by
  constructor
  · intro h
    induction as generalizing s with
    | nil => exact ⟨s, .nil, h⟩
    | cons a as ih =>
      cases h with
      | cons hs hrest =>
        obtain ⟨s', has, hbs⟩ := ih hrest
        exact ⟨s', .cons hs has, hbs⟩
  · intro h
    obtain ⟨s', has, hbs⟩ := h
    exact has.append hbs

theorem invariant {I : σ → Prop} {P : l → Prop}
    (hstep : ∀ s a s', P a → I s → step s a s' → I s')
    (h : Path step s as s') (hP : ∀ a ∈ as, P a) (hI : I s) : I s' := by
  induction h with
  | nil => exact hI
  | cons hs _ ih =>
    have hI' := hstep _ _ _ (hP _ (by simp)) hI hs
    exact ih (fun a ha => hP a (by simp [ha])) hI'

theorem weaken {step' : σ → l → σ → Prop} (hle : ∀ s a s', step s a s' → step' s a s')
    (h : Path step s as s') : Path step' s as s' := by
  induction h with
  | nil => exact .nil
  | cons hs _ ih => exact .cons (hle _ _ _ hs) ih

end Path

/-- One big step made of small steps whose labels all satisfy `P`. -/
def Emits (step : σ → l → σ → Prop) (P : l → Prop) (s s' : σ) : Prop :=
  ∃ as, Path step s as s' ∧ ∀ a ∈ as, P a

namespace Emits

variable {step : σ → l → σ → Prop} {P Q : l → Prop} {s s' s'' : σ}

theorem refl (s : σ) : Emits step P s s := ⟨[], .nil, by simp⟩

theorem single {a : l} (h : step s a s') (hP : P a) : Emits step P s s' :=
  ⟨[a], .single h, by simpa using hP⟩

theorem trans (h₁ : Emits step P s s') (h₂ : Emits step P s' s'') : Emits step P s s'' := by
  obtain ⟨as, hp, hP⟩ := h₁
  obtain ⟨bs, hq, hQ⟩ := h₂
  refine ⟨as ++ bs, hp.append hq, ?_⟩
  intro a ha
  rcases List.mem_append.mp ha with ha | ha
  · exact hP a ha
  · exact hQ a ha

theorem mono (hle : ∀ a, P a → Q a) (h : Emits step P s s') : Emits step Q s s' := by
  obtain ⟨as, hp, hP⟩ := h
  exact ⟨as, hp, fun a ha => hle a (hP a ha)⟩

theorem weaken {step' : σ → l → σ → Prop} (hle : ∀ s a s', step s a s' → step' s a s')
    (h : Emits step P s s') : Emits step' P s s' := by
  obtain ⟨as, hp, hP⟩ := h
  exact ⟨as, hp.weaken hle, hP⟩

theorem invariant {I : σ → Prop} (hstep : ∀ s a s', P a → I s → step s a s' → I s')
    (h : Emits step P s s') (hI : I s) : I s' := by
  obtain ⟨as, hp, hP⟩ := h
  exact hp.invariant hstep hP hI

end Emits

section Script

variable {ε : Type}

def inOrder (exec : κ → Tx ε σ Unit) : List κ → Tx ε σ Unit
  | [] => pure ()
  | k :: ks => do
    exec k
    inOrder exec ks

def endsIn (exec : κ → Tx ε σ Unit) (ks : List κ) (s₀ : σ) (seen : σ → Bool) : Bool :=
  match inOrder exec ks s₀ with
  | .ok (_, s) => seen s
  | .error _ => false

variable {exec : κ → Tx ε σ Unit} {step : σ → κ → σ → Prop} {s₀ s s' : σ} {ks : List κ}

theorem inOrder_run {tr : List (κ × σ)} (h : inOrder exec ks s = .ok ((), s'))
    (hstep : ∀ s k s', k ∈ ks → exec k s = .ok ((), s') → step s k s')
    (hrun : Run step s₀ tr s) :
    ∃ tr', Run step s₀ (tr' ++ tr) s' ∧ tr'.map Prod.fst = ks.reverse := by
  induction ks generalizing s tr with
  | nil =>
    rw [(Tx.pure_ok.mp h).2]
    exact ⟨[], hrun, rfl⟩
  | cons k ks ih =>
    obtain ⟨s₁, hk, hks⟩ := Tx.seq_ok.mp h
    have hnext := hrun.next (hstep s k s₁ (by simp) hk)
    obtain ⟨tr', hrun', hlabels⟩ := ih hks (fun s k s' hmem => hstep s k s' (by simp [hmem])) hnext
    exact ⟨tr' ++ [(k, s₁)], by simpa using hrun', by simp [hlabels]⟩

theorem endsIn_run {seen : σ → Bool} (h : endsIn exec ks s₀ seen = true)
    (hstep : ∀ s k s', k ∈ ks → exec k s = .ok ((), s') → step s k s') :
    ∃ tr s, Run step s₀ tr s ∧ tr.map Prod.fst = ks.reverse ∧ seen s = true := by
  unfold endsIn at h
  cases hplay : inOrder exec ks s₀ with
  | error e => simp [hplay] at h
  | ok p =>
    rw [hplay] at h
    obtain ⟨tr, hrun, hlabels⟩ := inOrder_run hplay hstep .start
    exact ⟨tr, p.2, by simpa using hrun, hlabels, h⟩

theorem endsIn_one {k : κ} {seen : σ → Bool} (h : endsIn exec [k] s₀ seen = true) :
    ∃ s, exec k s₀ = .ok ((), s) ∧ seen s = true := by
  unfold endsIn at h
  cases hplay : inOrder exec [k] s₀ with
  | error e => simp [hplay] at h
  | ok p =>
    rw [hplay] at h
    obtain ⟨s, hk, hs⟩ := Tx.seq_ok.mp hplay
    obtain ⟨-, rfl⟩ := Tx.pure_ok.mp hs
    exact ⟨p.2, hk, h⟩

end Script

end AtomicIp
