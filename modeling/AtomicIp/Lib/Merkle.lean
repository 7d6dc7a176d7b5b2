import Mathlib.Data.Nat.Log

/-!
Merkle trees over any hash of two nodes. The nodes of a level are hashed in pairs, an odd last
one with itself, until one is left.
-/

set_option autoImplicit false

namespace AtomicIp.Merkle

variable {α : Type} (hash : α → α → α)

def nextLevel : List α → List α
  | [] => []
  | [left] => [hash left left]
  | left :: right :: rest => hash left right :: nextLevel rest

theorem length_nextLevel (level : List α) :
    (nextLevel hash level).length = (level.length + 1) / 2 := by
  induction level using nextLevel.induct with
  | case1 => simp [nextLevel]
  | case2 left => simp [nextLevel]
  | case3 left right rest ih =>
    simp only [nextLevel, List.length_cons, ih]
    omega

theorem nextLevel_shorter {level : List α} (h : 1 < level.length) :
    (nextLevel hash level).length < level.length := by
  rw [length_nextLevel]
  omega

theorem nextLevel_getElem? (level : List α) (k : ℕ) :
    (nextLevel hash level)[k]? =
      level[2 * k]?.map fun left => hash left (level[2 * k + 1]?.getD left) := by
  induction level using nextLevel.induct generalizing k with
  | case1 => rfl
  | case2 left =>
    cases k with
    | zero => rfl
    | succ k => simp [nextLevel, Nat.mul_succ]
  | case3 left right rest ih =>
    cases k with
    | zero => rfl
    | succ k => simp [nextLevel, Nat.mul_succ, ih]

def top (level : List α) : Option α :=
  if _h : 1 < level.length then top (nextLevel hash level) else level[0]?
termination_by level.length
decreasing_by exact nextLevel_shorter hash _h

def sibling (level : List α) (i : ℕ) : Option α :=
  let siblingIndex := if i % 2 = 0 then i + 1 else i - 1
  if siblingIndex < level.length then level[siblingIndex]? else level[i]?

def siblings (level : List α) (i : ℕ) : Option (List α) :=
  if _h : 1 < level.length then do
    let node ← sibling level i
    let rest ← siblings (nextLevel hash level) (i / 2)
    pure (node :: rest)
  else pure []
termination_by level.length
decreasing_by exact nextLevel_shorter hash _h

/-- Hash a node with its siblings on the way up; the bits of the index tell the side. -/
def foldPath : List α → ℕ → α → α
  | [], _, node => node
  | other :: path, i, node =>
    foldPath path (i / 2) (if i % 2 = 0 then hash node other else hash other node)

/-- What some nodes may hash to on the way up, either side tried at every sibling. -/
def candidates : List α → List α → List α
  | [], nodes => nodes
  | other :: path, nodes =>
    candidates path (nodes.flatMap fun node => [hash node other, hash other node])

section Completeness

variable {hash} {level path nodes : List α} {node other : α} {i : ℕ}

theorem foldPath_mem_candidates (h : node ∈ nodes) :
    foldPath hash path i node ∈ candidates hash path nodes := by
  induction path generalizing node nodes i with
  | nil => exact h
  | cons other path ih =>
    refine ih (List.mem_flatMap.mpr ⟨node, h, ?_⟩)
    by_cases hi : i % 2 = 0
    · simp [hi]
    · simp [hi]

theorem sibling_exists (hi : i < level.length) : ∃ other, sibling level i = some other := by
  simp only [sibling]
  by_cases hlt : (if i % 2 = 0 then i + 1 else i - 1) < level.length
  · rw [if_pos hlt]
    exact ⟨_, List.getElem?_eq_getElem hlt⟩
  · rw [if_neg hlt]
    exact ⟨_, List.getElem?_eq_getElem hi⟩

theorem nextLevel_parent (hnode : level[i]? = some node) (hother : sibling level i = some other) :
    (nextLevel hash level)[i / 2]? =
      some (if i % 2 = 0 then hash node other else hash other node) := by
  obtain ⟨hi, -⟩ := List.getElem?_eq_some_iff.mp hnode
  rw [nextLevel_getElem?]
  rcases Nat.mod_two_eq_zero_or_one i with heven | hodd
  · have hleft : 2 * (i / 2) = i := by omega
    rw [hleft, hnode, if_pos heven]
    simp only [sibling, heven, if_true] at hother
    by_cases hright : i + 1 < level.length
    · rw [if_pos hright] at hother
      rw [hother]
      rfl
    · rw [if_neg hright, hnode] at hother
      rw [List.getElem?_eq_none (by omega), ← Option.some.inj hother]
      rfl
  · have hright : 2 * (i / 2) + 1 = i := by omega
    have hleft : 2 * (i / 2) = i - 1 := by omega
    have hbelow : i - 1 < level.length := by omega
    have hne : ¬ i % 2 = 0 := by omega
    simp only [sibling, hne, if_false, if_pos hbelow] at hother
    rw [hright, hleft, hnode, hother, if_neg hne]
    rfl

/-- From every node the siblings on the way up are found, as many as there are levels above,
and they lead to the top. -/
theorem siblings_complete (hash : α → α → α) (hnode : level[i]? = some node) :
    ∃ path, siblings hash level i = some path ∧ path.length = Nat.clog 2 level.length ∧
      top hash level = some (foldPath hash path i node) := by
  induction level, i using siblings.induct hash generalizing node with
  | case1 level i hmany ih =>
    obtain ⟨hi, -⟩ := List.getElem?_eq_some_iff.mp hnode
    obtain ⟨other, hother⟩ := sibling_exists hi
    obtain ⟨path, hpath, hlength, htop⟩ := ih (nextLevel_parent hnode hother)
    refine ⟨other :: path, ?_, ?_, ?_⟩
    · rw [siblings, dif_pos hmany, hother, hpath]
      rfl
    · rw [List.length_cons, hlength, length_nextLevel]
      exact (Nat.clog_of_two_le Nat.one_lt_two hmany).symm
    · rw [top, dif_pos hmany]
      exact htop
  | case2 level i hone =>
    obtain ⟨hi, -⟩ := List.getElem?_eq_some_iff.mp hnode
    have hfirst : i = 0 := by omega
    have hlength : level.length = 1 := by omega
    subst hfirst
    refine ⟨[], ?_, ?_, ?_⟩
    · rw [siblings, dif_neg hone]
      rfl
    · rw [hlength, Nat.clog_one_right]
      rfl
    · rw [top, dif_neg hone]
      exact hnode

end Completeness

/-- Two nodes that are hashed with each other on the way to the top. -/
inductive Hashed : List α → α → α → Prop where
  | pair {level : List α} {left : α} {k : ℕ} (h : 1 < level.length)
      (hleft : level[2 * k]? = some left) :
      Hashed level left (level[2 * k + 1]?.getD left)
  | above {level : List α} {left right : α} (h : 1 < level.length)
      (habove : Hashed (nextLevel hash level) left right) : Hashed level left right

def Binding (level : List α) : Prop :=
  ∀ left right, Hashed hash level left right → ∀ a b, hash a b = hash left right →
    a = left ∧ b = right

inductive Inner : List α → α → Prop where
  | parent {level : List α} {node : α} (h : 1 < level.length)
      (hnode : node ∈ nextLevel hash level) : Inner level node
  | above {level : List α} {node : α} (h : 1 < level.length)
      (habove : Inner (nextLevel hash level) node) : Inner level node

def Below (n : ℕ) (level : List α) (x : α) : Prop :=
  ∃ path : List α, path.length = n ∧ ∃ node ∈ level, node ∈ candidates hash path [x]

section Soundness

variable {hash} {level path path' : List α} {x y node other : α} {n : ℕ}

theorem mem_candidates {nodes : List α} :
    y ∈ candidates hash path nodes ↔ ∃ node ∈ nodes, y ∈ candidates hash path [node] := by
  induction path generalizing nodes with
  | nil => simp [candidates]
  | cons other path ih =>
    rw [candidates, ih]
    constructor
    · intro h
      obtain ⟨parent, hparent, hy⟩ := h
      obtain ⟨node, hnode, hmem⟩ := List.mem_flatMap.mp hparent
      refine ⟨node, hnode, ?_⟩
      rw [candidates, ih]
      exact ⟨parent, by simpa using hmem, hy⟩
    · intro h
      obtain ⟨node, hnode, hy⟩ := h
      rw [candidates, ih] at hy
      obtain ⟨parent, hparent, hy⟩ := hy
      exact ⟨parent, List.mem_flatMap.mpr ⟨node, hnode, by simpa using hparent⟩, hy⟩

theorem candidates_append {nodes : List α} :
    candidates hash (path ++ path') nodes = candidates hash path' (candidates hash path nodes) := by
  induction path generalizing nodes with
  | nil => rfl
  | cons other path ih => exact ih

theorem candidates_trans (h : node ∈ candidates hash path [x])
    (h' : y ∈ candidates hash path' [node]) : y ∈ candidates hash (path ++ path') [x] := by
  rw [candidates_append]
  exact mem_candidates.mpr ⟨node, h, h'⟩

theorem mem_candidates_concat : y ∈ candidates hash (path ++ [other]) [x] ↔
    ∃ node ∈ candidates hash path [x], y = hash node other ∨ y = hash other node := by
  rw [candidates_append]
  simp [candidates]

theorem below_zero : Below hash 0 level x ↔ x ∈ level := by
  constructor
  · intro h
    obtain ⟨path, hlength, node, hnode, hmem⟩ := h
    obtain rfl := List.length_eq_zero_iff.mp hlength
    rwa [← List.mem_singleton.mp hmem]
  · intro h
    exact ⟨[], rfl, x, h, List.mem_singleton_self x⟩

theorem Binding.above (h : Binding hash level) (hmany : 1 < level.length) :
    Binding hash (nextLevel hash level) :=
  fun left right hhashed => h left right (.above hmany hhashed)

/-- Where no other pair gives the same parent, what is hashed to a parent is one of its
children. -/
theorem Binding.child (h : Binding hash level) (hmany : 1 < level.length)
    (hy : y ∈ nextLevel hash level) (hhash : y = hash node other ∨ y = hash other node) :
    node ∈ level := by
  obtain ⟨k, hk⟩ := List.mem_iff_getElem?.mp hy
  rw [nextLevel_getElem?] at hk
  obtain ⟨left, hleft, rfl⟩ := Option.map_eq_some_iff.mp hk
  have hpair : Hashed hash level left (level[2 * k + 1]?.getD left) := .pair hmany hleft
  rcases hhash with hhash | hhash
  · obtain ⟨rfl, -⟩ := h _ _ hpair _ _ hhash.symm
    exact List.mem_of_getElem? hleft
  · obtain ⟨-, rfl⟩ := h _ _ hpair _ _ hhash.symm
    cases hright : level[2 * k + 1]? with
    | none => exact List.mem_of_getElem? hleft
    | some right => exact List.mem_of_getElem? hright

theorem Binding.below (h : Binding hash level) (hmany : 1 < level.length)
    (hbelow : Below hash (n + 1) (nextLevel hash level) x) : Below hash n level x := by
  obtain ⟨path, hlength, y, hy, hmem⟩ := hbelow
  rcases List.eq_nil_or_concat path with rfl | ⟨path, other, rfl⟩
  · cases hlength
  · rw [List.concat_eq_append] at hmem hlength
    obtain ⟨node, hnode, hhash⟩ := mem_candidates_concat.mp hmem
    have hpath : path.length = n := by simpa using hlength
    exact ⟨path, hpath, node, h.child hmany hy hhash, hnode⟩

/-- What leads to the top is an inner node on a short path, a node of the level on a path as
long as the tree is high, and something below the level on a longer one. -/
theorem Binding.sound {root : α} (h : Binding hash level) (htop : top hash level = some root)
    (hmem : root ∈ candidates hash path [x]) :
    path.length < Nat.clog 2 level.length ∧ Inner hash level x ∨
      ∃ n, path.length = Nat.clog 2 level.length + n ∧ Below hash n level x := by
  induction level using top.induct hash with
  | case1 level hmany ih =>
    have hheight : Nat.clog 2 level.length = Nat.clog 2 (nextLevel hash level).length + 1 := by
      rw [length_nextLevel]
      exact Nat.clog_of_two_le Nat.one_lt_two hmany
    rw [top, dif_pos hmany] at htop
    rcases ih (h.above hmany) htop with ⟨hshort, hinner⟩ | ⟨n, hlength, hbelow⟩
    · exact .inl ⟨by omega, .above hmany hinner⟩
    · cases n with
      | zero => exact .inl ⟨by omega, .parent hmany (below_zero.mp hbelow)⟩
      | succ n => exact .inr ⟨n, by omega, h.below hmany hbelow⟩
  | case2 level hone =>
    rw [top, dif_neg hone] at htop
    have hheight : Nat.clog 2 level.length = 0 := Nat.clog_of_right_le_one (by omega) 2
    exact .inr ⟨path.length, by omega, path, rfl, root, List.mem_of_getElem? htop, hmem⟩

theorem top_exists (hsome : 0 < level.length) : ∃ root, top hash level = some root := by
  obtain ⟨path, -, -, htop⟩ := siblings_complete hash (List.getElem?_eq_getElem hsome)
  exact ⟨_, htop⟩

theorem leads_to_top {root : α} (hnode : node ∈ level) (htop : top hash level = some root) :
    ∃ path, root ∈ candidates hash path [node] := by
  obtain ⟨i, hi⟩ := List.mem_iff_getElem?.mp hnode
  obtain ⟨path, -, -, hfold⟩ := siblings_complete hash hi
  obtain rfl := Option.some.inj (htop.symm.trans hfold)
  exact ⟨path, foldPath_mem_candidates (List.mem_singleton_self node)⟩

theorem Inner.leads {root : α} (h : Inner hash level x) (htop : top hash level = some root) :
    ∃ path, root ∈ candidates hash path [x] := by
  induction h with
  | parent hmany hnode =>
    rw [top, dif_pos hmany] at htop
    exact leads_to_top hnode htop
  | above hmany _ ih =>
    rw [top, dif_pos hmany] at htop
    exact ih htop

theorem Below.leads {root : α} (h : Below hash n level x) (htop : top hash level = some root) :
    ∃ path, root ∈ candidates hash path [x] := by
  obtain ⟨path, -, node, hnode, hmem⟩ := h
  obtain ⟨path', hroot⟩ := leads_to_top hnode htop
  exact ⟨path ++ path', candidates_trans hmem hroot⟩

end Soundness

end AtomicIp.Merkle
