import Mathlib.Data.Nat.Notation
import Mathlib.Logic.Function.Basic
import Mathlib.Logic.Relation

set_option autoImplicit false

namespace AtomicIp

open Function Relation

abbrev Climbs (parent : ℕ → Option ℕ) : ℕ → ℕ → Prop :=
  ReflTransGen fun i p => parent i = some p

abbrev Descends (parent : ℕ → Option ℕ) : ℕ → ℕ → Prop :=
  TransGen fun i p => parent i = some p

def Descending (parent : ℕ → Option ℕ) : Prop := ∀ i p, parent i = some p → p < i

def walk (parent : ℕ → Option ℕ) : ℕ → ℕ → Option ℕ
  | 0, _ => none
  | fuel + 1, i =>
    match parent i with
    | some p => walk parent fuel p
    | none => some i

variable {parent : ℕ → Option ℕ} {i j p r r' n fuel : ℕ}

theorem Climbs.of_root (hroot : parent r = none) (h : Climbs parent r i) : i = r := by
  cases ReflTransGen.cases_head h with
  | inl hsame => exact hsame.symm
  | inr hstep =>
    obtain ⟨p, hp, -⟩ := hstep
    rw [hroot] at hp
    cases hp

theorem Climbs.linear (h : Climbs parent i j) (h' : Climbs parent i r) :
    Climbs parent j r ∨ Climbs parent r j := by
  refine ReflTransGen.total_of_right_unique ?_ h h'
  intro i p q hp hq
  exact Option.some.inj (hp.symm.trans hq)

theorem Climbs.root_unique (h : Climbs parent i r) (hroot : parent r = none)
    (h' : Climbs parent i r') (hroot' : parent r' = none) : r = r' := by
  rcases h.linear h' with hup | hup
  · exact (hup.of_root hroot).symm
  · exact hup.of_root hroot'

theorem Climbs.le (h : Climbs parent i j) (hdesc : Descending parent) : j ≤ i := by
  induction h with
  | refl => exact Nat.le_refl i
  | tail _ hp ih =>
    have hlt := hdesc _ _ hp
    omega

theorem Descends.lt (h : Descends parent i j) (hdesc : Descending parent) : j < i := by
  obtain ⟨p, hp, hup⟩ := TransGen.head'_iff.mp h
  have hlt := hdesc i p hp
  have hle := Climbs.le hup hdesc
  omega

theorem Climbs.descends_of_ne (h : Climbs parent i j) (hne : i ≠ j) : Descends parent i j := by
  cases reflTransGen_iff_eq_or_transGen.mp h with
  | inl hsame => exact absurd hsame.symm hne
  | inr hdesc => exact hdesc

/-- With fuel for as many looks as the number of the node, the walk ends at its root. -/
theorem walk_ends (hdesc : Descending parent) (hfuel : i < fuel) :
    ∃ r, walk parent fuel i = some r := by
  induction fuel generalizing i with
  | zero => omega
  | succ fuel ih =>
    cases hp : parent i with
    | none => exact ⟨i, by simp [walk, hp]⟩
    | some p =>
      have hlt := hdesc i p hp
      obtain ⟨r, hr⟩ := ih (i := p) (by omega)
      exact ⟨r, by simp [walk, hp, hr]⟩

theorem walk_root (h : walk parent fuel i = some r) : Climbs parent i r ∧ parent r = none := by
  induction fuel generalizing i with
  | zero => cases h
  | succ fuel ih =>
    cases hp : parent i with
    | none =>
      simp only [walk, hp, Option.some.injEq] at h
      subst h
      exact ⟨.refl, hp⟩
    | some p =>
      simp only [walk, hp] at h
      obtain ⟨hup, hroot⟩ := ih h
      exact ⟨.head hp hup, hroot⟩

theorem exists_root (hdesc : Descending parent) (i : ℕ) :
    ∃ r, Climbs parent i r ∧ parent r = none := by
  obtain ⟨r, hr⟩ := walk_ends hdesc (Nat.lt_succ_self i)
  exact ⟨r, walk_root hr⟩

section Leaf

/-! A new leaf `n` under the node `p`. -/

variable (hleaf : ∀ i, parent i ≠ some n)

include hleaf in
theorem climbs_leaf_of_ne (hi : i ≠ n) :
    Climbs (update parent n (some p)) i j ↔ Climbs parent i j := by
  constructor
  · intro h
    induction h using ReflTransGen.head_induction_on with
    | refl => exact .refl
    | @head i q hq _ ih =>
      rw [update_of_ne hi] at hq
      have hne : q ≠ n := by
        rintro rfl
        exact hleaf i hq
      exact .head hq (ih hne)
  · intro h
    induction h using ReflTransGen.head_induction_on with
    | refl => exact .refl
    | @head i q hq _ ih =>
      have hne : q ≠ n := by
        rintro rfl
        exact hleaf i hq
      exact .head ((update_of_ne hi _ _).trans hq) (ih hne)

include hleaf in
theorem climbs_leaf_self (hpn : p ≠ n) :
    Climbs (update parent n (some p)) n j ↔ j = n ∨ Climbs parent p j := by
  constructor
  · intro h
    cases ReflTransGen.cases_head h with
    | inl hsame => exact .inl hsame.symm
    | inr hstep =>
      obtain ⟨q, hq, hup⟩ := hstep
      rw [update_self] at hq
      obtain rfl := Option.some.inj hq
      exact .inr ((climbs_leaf_of_ne hleaf hpn).mp hup)
  · intro h
    cases h with
    | inl hsame => rw [hsame]
    | inr hup => exact .head (update_self ..) ((climbs_leaf_of_ne hleaf hpn).mpr hup)

include hleaf in
theorem climbs_leaf_root (hpn : p ≠ n) (hr : r ≠ n) :
    Climbs (update parent n (some p)) i r ↔
      Climbs parent i r ∧ i ≠ n ∨ i = n ∧ Climbs parent p r := by
  by_cases hi : i = n
  · subst hi
    rw [climbs_leaf_self hleaf hpn]
    simp [hr]
  · rw [climbs_leaf_of_ne hleaf hi]
    simp [hi]

end Leaf

structure ListsTree (parent : ℕ → Option ℕ) (r : ℕ) (ids : List ℕ) : Prop where
  ordered : ids.Pairwise (· < ·)
  mem : ∀ i, i ∈ ids ↔ Climbs parent i r

namespace ListsTree

variable {ids : List ℕ}

theorem split (h : ListsTree parent r ids) (hdesc : Descending parent) :
    ∃ ds, ids = r :: ds ∧ ds.Pairwise (· < ·) ∧ ∀ i, i ∈ ds ↔ Descends parent i r := by
  cases ids with
  | nil =>
    have hmem := (h.mem r).mpr .refl
    cases hmem
  | cons a ds =>
    have hparts := List.pairwise_cons.mp h.ordered
    have hfirst : r ≤ a := Climbs.le ((h.mem a).mp (by simp)) hdesc
    have hroot := (h.mem r).mpr .refl
    have hsame : a = r := by
      rcases List.mem_cons.mp hroot with hsame | hlater
      · exact hsame.symm
      · have hlt := hparts.1 r hlater
        omega
    subst hsame
    refine ⟨ds, rfl, hparts.2, fun i => ⟨fun hi => ?_, fun hi => ?_⟩⟩
    · have hlt := hparts.1 i hi
      have hup := (h.mem i).mp (List.mem_cons_of_mem _ hi)
      exact hup.descends_of_ne (by omega)
    · have hlt := hi.lt hdesc
      have hmem := (h.mem i).mpr hi.to_reflTransGen
      rcases List.mem_cons.mp hmem with hsame | hlater
      · omega
      · exact hlater

variable (hdesc : Descending parent) (hbelow : ∀ i q, parent i = some q → i < n) (hp : p < n)

include hdesc hbelow hp

theorem leaf (h : ListsTree parent r ids) (hup : Climbs parent p r) :
    ListsTree (update parent n (some p)) r (ids ++ [n]) := by
  have hleaf : ∀ i, parent i ≠ some n := by
    intro i hi
    have hlt := hdesc i n hi
    have hlt' := hbelow i n hi
    omega
  have hr := hup.le hdesc
  have hids : ∀ i ∈ ids, i < n := by
    intro i hi
    by_cases hsame : i = r
    · omega
    · obtain ⟨q, hq, -⟩ := TransGen.head'_iff.mp (((h.mem i).mp hi).descends_of_ne hsame)
      exact hbelow i q hq
  refine ⟨List.pairwise_append.mpr ⟨h.ordered, by simp, ?_⟩, fun i => ?_⟩
  · intro i hi j hj
    rw [List.mem_singleton.mp hj]
    exact hids i hi
  · rw [climbs_leaf_root hleaf (by omega) (by omega), List.mem_append, List.mem_singleton, h.mem]
    constructor
    · intro hi
      cases hi with
      | inl hi => exact .inl ⟨hi, Nat.ne_of_lt (hids i ((h.mem i).mpr hi))⟩
      | inr hi => exact .inr ⟨hi, hup⟩
    · intro hi
      exact hi.imp And.left And.left

theorem leaf_elsewhere (h : ListsTree parent r ids) (hr : r ≠ n) (hnot : ¬ Climbs parent p r) :
    ListsTree (update parent n (some p)) r ids := by
  have hleaf : ∀ i, parent i ≠ some n := by
    intro i hi
    have hlt := hdesc i n hi
    have hlt' := hbelow i n hi
    omega
  refine ⟨h.ordered, fun i => ?_⟩
  rw [climbs_leaf_root hleaf (by omega) hr, h.mem]
  constructor
  · intro hi
    refine .inl ⟨hi, ?_⟩
    rintro rfl
    obtain ⟨q, hq, -⟩ := TransGen.head'_iff.mp (hi.descends_of_ne (Ne.symm hr))
    exact absurd (hbelow i q hq) (Nat.lt_irrefl i)
  · intro hi
    cases hi with
    | inl hi => exact hi.1
    | inr hi => exact absurd hi.2 hnot

end ListsTree

end AtomicIp
