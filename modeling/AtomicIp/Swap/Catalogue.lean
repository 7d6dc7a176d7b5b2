import AtomicIp.Swap.Openings
import AtomicIp.Swap.Transitions

/-!
The swaps by id and the lists they are filed in: by seller, by buyer and by IP.
`initiate_escrow_swap` files its swap under the parties only.
-/

set_option autoImplicit false

namespace AtomicIp.AtomicSwap

open Function Tx

def getSwapsBySeller (seller : Address) (s : State) : Option (List ℕ) := s.sellerSwaps seller

def getSwapsByBuyer (buyer : Address) (s : State) : Option (List ℕ) := s.buyerSwaps buyer

def getSwapsByIp (ipId : ℕ) (s : State) : Option (List ℕ) := s.ipSwaps ipId

def swapCount (s : State) : ℕ := s.nextId.getD 0

structure Indexes where
  sellerSwaps : Address → Option (List ℕ)
  buyerSwaps : Address → Option (List ℕ)
  ipSwaps : ℕ → Option (List ℕ)

structure Catalogue extends Indexes where
  count : ℕ
  terms : ℕ → Option Terms

def Escrow.termsOf (c : Escrow) (i : ℕ) : Option Terms := (c.swap i).map SwapRecord.terms

def State.indexes (s : State) : Indexes where
  sellerSwaps := s.sellerSwaps
  buyerSwaps := s.buyerSwaps
  ipSwaps := s.ipSwaps

def State.catalogue (s : State) : Catalogue where
  toIndexes := s.indexes
  count := s.escrow.count
  terms := s.escrow.termsOf

/-- A new entry, and whether it is filed under its IP. -/
structure Entry where
  terms : Terms
  byIp : Bool

namespace Catalogue

variable (c : Catalogue)

def enter (e : Entry) : Catalogue where
  count := c.count + 1
  terms := update c.terms c.count (some e.terms)
  sellerSwaps := filed c.sellerSwaps e.terms.seller c.count
  buyerSwaps := filed c.buyerSwaps e.terms.buyer c.count
  ipSwaps := if e.byIp then filed c.ipSwaps e.terms.ipId c.count else c.ipSwaps

inductive Appends : Catalogue → Entry → Catalogue → Prop where
  | enter (c : Catalogue) (e : Entry) : Appends c e (c.enter e)

/-- The swaps have the first ids, and each party has exactly its own. -/
structure Exact : Prop where
  counted : ∀ i, (c.terms i).isSome ↔ i < c.count
  sellers : ∀ a, Indexed (· < ·) (fun i => (c.terms i).map Terms.seller) a (listed c.sellerSwaps a)
  buyers : ∀ a, Indexed (· < ·) (fun i => (c.terms i).map Terms.buyer) a (listed c.buyerSwaps a)
  ips : ∀ ipId, ∀ i ∈ listed c.ipSwaps ipId, i < c.count

def ExactFor (ipId : ℕ) : Prop :=
  Indexed (· < ·) (fun i => (c.terms i).map Terms.ipId) ipId (listed c.ipSwaps ipId)

/-- A swap of the IP that is not in its list. -/
def Misses (ipId : ℕ) : Prop :=
  ∃ i t, c.terms i = some t ∧ t.ipId = ipId ∧ i ∉ listed c.ipSwaps ipId

variable {c} {c' : Catalogue} {e : Entry} {ipId : ℕ}

theorem Exact.fresh (h : c.Exact) : c.terms c.count = none := by
  have hcount := h.counted c.count
  cases ht : c.terms c.count with
  | none => rfl
  | some t => simp [ht] at hcount

theorem Exact.below {i : ℕ} {t : Terms} (h : c.Exact) (ht : c.terms i = some t) : i < c.count :=
  (h.counted i).mp (by simp [ht])

theorem map_terms_enter {α : Type} (f : Terms → α) :
    (fun i => ((c.enter e).terms i).map f) =
      update (fun i => (c.terms i).map f) c.count (some (f e.terms)) := by
  funext i
  by_cases hi : i = c.count
  · simp [enter, hi]
  · simp [enter, hi]

theorem Exact.file {α : Type} [DecidableEq α] (h : c.Exact) (f : Terms → α) {k : α}
    {index : α → Option (List ℕ)}
    (hindex : Indexed (· < ·) (fun i => (c.terms i).map f) k (listed index k)) :
    Indexed (· < ·) (fun i => ((c.enter e).terms i).map f) k
      (listed (filed index (f e.terms) c.count) k) := by
  rw [map_terms_enter]
  refine hindex.file (by simp [h.fresh]) ?_
  intro j hj
  obtain ⟨t, ht, -⟩ := Option.map_eq_some_iff.mp hj
  exact h.below ht

theorem Exact.enter (h : c.Exact) : (c.enter e).Exact where
  counted i := by
    have hcount := h.counted i
    by_cases hi : i = c.count
    · simp [Catalogue.enter, hi]
    · simp only [Catalogue.enter, update_of_ne hi, hcount]
      omega
  sellers a := h.file Terms.seller (h.sellers a)
  buyers a := h.file Terms.buyer (h.buyers a)
  ips ipId i hi := by
    have hold := h.ips ipId i
    simp only [Catalogue.enter] at hi ⊢
    split_ifs at hi
    · by_cases hk : ipId = e.terms.ipId
      · subst hk
        rw [listed_filed_self, List.mem_append, List.mem_singleton] at hi
        cases hi with
        | inl hi => exact Nat.lt_succ_of_lt (hold hi)
        | inr hi => omega
      · rw [listed_filed_of_ne hk] at hi
        exact Nat.lt_succ_of_lt (hold hi)
    · exact Nat.lt_succ_of_lt (hold hi)

theorem Exact.step (h : c.Exact) (hstep : Appends c e c') : c'.Exact := by
  cases hstep
  exact h.enter

theorem ExactFor.enter (hexact : c.Exact) (h : c.ExactFor ipId)
    (hby : e.byIp = true ∨ e.terms.ipId ≠ ipId) : (c.enter e).ExactFor ipId := by
  unfold ExactFor
  cases hfiled : e.byIp with
  | true =>
    have hnext := hexact.file (e := e) Terms.ipId h
    simpa only [Catalogue.enter, hfiled, if_true] using hnext
  | false =>
    have hother : e.terms.ipId ≠ ipId := by
      cases hby with
      | inl h => simp [hfiled] at h
      | inr h => exact h
    rw [map_terms_enter]
    simp only [Catalogue.enter, hfiled, Bool.false_eq_true, if_false]
    refine Indexed.congr h ?_
    intro j
    by_cases hj : j = c.count
    · simp [hj, hexact.fresh, hother]
    · simp [hj]

theorem Misses.enter (hexact : c.Exact) (h : c.Misses ipId) : (c.enter e).Misses ipId := by
  obtain ⟨i, t, ht, hip, hmissing⟩ := h
  have hlt := hexact.below ht
  refine ⟨i, t, ?_, hip, ?_⟩
  · simp only [Catalogue.enter]
    rw [update_of_ne (by omega)]
    exact ht
  · simp only [Catalogue.enter]
    split_ifs
    · by_cases hk : ipId = e.terms.ipId
      · subst hk
        rw [listed_filed_self, List.mem_append, List.mem_singleton]
        have hne : i ≠ c.count := by omega
        exact not_or.mpr ⟨hmissing, hne⟩
      · rwa [listed_filed_of_ne hk]
    · exact hmissing

theorem Exact.enter_misses (h : c.Exact)
    (hby : e.byIp = false) : (c.enter e).Misses e.terms.ipId := by
  refine ⟨c.count, e.terms, by simp [Catalogue.enter], rfl, ?_⟩
  intro hmem
  simp only [Catalogue.enter, hby, Bool.false_eq_true, if_false] at hmem
  exact Nat.lt_irrefl _ (h.ips _ _ hmem)

theorem ExactFor.not_misses (h : c.ExactFor ipId) : ¬ c.Misses ipId := by
  intro hmisses
  obtain ⟨i, t, ht, hip, hmissing⟩ := hmisses
  exact hmissing ((h.mem i).mpr (by simp [ht, hip]))

end Catalogue

instance : Aside State.indexes := ⟨fun _ _ _ => rfl⟩

instance : Blind .history State.indexes := ⟨fun _ => rfl⟩

instance : Blind .insurance State.indexes := ⟨fun _ => rfl⟩

instance : Blind .persistentAdmin State.indexes := ⟨fun _ => rfl⟩

theorem blind_indexes {t : Table} (h : t ≠ .indexes) : Blind t State.indexes := by
  cases t with
  | indexes => exact absurd rfl h
  | _ => exact ⟨fun _ => rfl⟩

section Openings

open Catalogue

variable {env : Env} {s s' : State} {l : Listing} {x : Lot} {q : SwapStatus} {byIp : Bool}

def Listing.catalogue (l : Listing) : Catalogue where
  count := l.count
  terms i := (l.swap i).map SwapRecord.terms
  sellerSwaps := l.sellerSwaps
  buyerSwaps := l.buyerSwaps
  ipSwaps := l.ipSwaps

theorem catalogue_listing : s.listing.catalogue = s.catalogue := rfl

theorem Listing.catalogue_opened :
    (l.opened env x).catalogue = l.catalogue.enter ⟨x.record.terms, x.byIp⟩ := by
  have hterms : update l.catalogue.terms l.catalogue.count (some x.record.terms) =
      (l.opened env x).catalogue.terms := by
    funext j
    by_cases hj : j = l.count <;> simp [Listing.catalogue, Listing.opened, hj]
  rw [enter, hterms]
  rfl

def EntersFiled (s s' : State) : Prop :=
  Emits Appends (fun e => e.byIp = true) s.catalogue s'.catalogue

theorem OpensAll.entersFiled (h : OpensAll env q true s s') : EntersFiled s s' := by
  have hentered : Emits Appends (fun e => e.byIp = true) s.listing.catalogue
      s'.listing.catalogue := by
    refine Emits.invariant (I := fun l => Emits Appends (fun e => e.byIp = true)
      s.listing.catalogue l.catalogue) ?_ h (.refl _)
    intro l x l' hx hl hstep
    cases hstep
    rw [Listing.catalogue_opened]
    exact hl.trans (.single (.enter ..) hx.2)
  exact hentered

end Openings

section Steps

open Catalogue

variable {env : Env} {s s' : State} {call : Call} {c c' : Escrow} {m : Move} {act : Act}

theorem Step.count_kept (hstep : Step env c m c') (hopens : m.opens = false) :
    c'.count = c.count := by
  cases hstep with
  | initiated | sold => simp [Move.opens] at hopens
  | _ => rfl

theorem Step.terms_kept (hstep : Step env c m c') (hopens : m.opens = false) :
    c'.termsOf = c.termsOf := by
  funext j
  cases hstep.rewrites with
  | same hswap => simp [Escrow.termsOf, hswap]
  | added r _ h => simp [h.opens] at hopens
  | moved k r r' _ hr hswap hmoved =>
    by_cases hj : j = k
    · simp [Escrow.termsOf, hswap, hj, hr, hmoved.terms]
    · simp [Escrow.termsOf, hswap, hj]

theorem exec_same (h : exec env call s = .ok ((), s')) (hlists : call.lists = false) :
    s'.catalogue = s.catalogue := by
  have hindexes : s'.indexes = s.indexes := by
    refine exec_frame State.indexes h fun t ht => blind_indexes ?_
    rintro rfl
    simp [Call.lists_of_writes (.inl ht)] at hlists
  obtain ⟨q, hmoves⟩ := exec_answers h
  have hkept : s'.escrow.count = s.escrow.count ∧ s'.escrow.termsOf = s.escrow.termsOf := by
    refine hmoves.invariant (I := fun c => c.count = s.escrow.count ∧
      c.termsOf = s.escrow.termsOf) ?_ ⟨rfl, rfl⟩
    intro c m c' hm hsame hstep
    have hopens : m.opens = false := by
      cases hopens : m.opens with
      | false => rfl
      | true => simp [Call.yields_lists hm.1 hopens] at hlists
    exact ⟨(hstep.count_kept hopens).trans hsame.1, (hstep.terms_kept hopens).trans hsame.2⟩
  rw [State.catalogue, hindexes, hkept.1, hkept.2]
  rfl

def Call.SkipsIp (ipId : ℕ) : Call → Prop
  | .initiateEscrowSwap _ k .. => k = ipId
  | _ => False

inductive Cataloguing (call : Call) (s s' : State) : Prop where
  | filed (hcall : ∀ ipId, ¬ call.SkipsIp ipId) (h : EntersFiled s s')
  | skipped (t : Terms) (hcall : ∀ ipId, call.SkipsIp ipId ↔ t.ipId = ipId)
      (h : s'.catalogue = s.catalogue.enter ⟨t, false⟩)

theorem Call.SkipsIp.lists {ipId : ℕ} (h : call.SkipsIp ipId) : call.filesByIp = false := by
  cases call with
  | initiateEscrowSwap => rfl
  | _ => exact h.elim

theorem exec_catalogued (h : exec env call s = .ok ((), s')) : Cataloguing call s s' := by
  cases hfiles : call.filesByIp with
  | false =>
    cases call with
    | initiateEscrowSwap =>
      obtain ⟨id, h⟩ := void_ok.mp h
      obtain ⟨r, -, hip, e⟩ := initiateEscrowSwap_lists h
      refine .skipped r.terms (fun ipId => ?_) ?_
      · rw [← hip]
        rfl
      · rw [← catalogue_listing, e, Listing.catalogue_opened]
        rfl
    | _ => cases hfiles
  | true =>
    have hskips : ∀ ipId, ¬ call.SkipsIp ipId := by
      intro ipId hskip
      simp [hskip.lists] at hfiles
    cases hlists : call.lists with
    | true =>
      have hopens := exec_lists h hlists
      rw [hfiles] at hopens
      exact .filed hskips hopens.entersFiled
    | false =>
      refine .filed hskips ?_
      unfold EntersFiled
      rw [exec_same h hlists]
      exact .refl _

end Steps

section Runs

open Catalogue

variable {balance : Address → Address → ℤ} {tr : List (Act × State)} {s s' : State} {act : Act}
  {ipId : ℕ}

theorem catalogue_empty : (State.empty balance).catalogue.Exact where
  counted i := by simp [State.catalogue, Escrow.termsOf, Escrow.count, State.escrow, State.empty]
  sellers _ := .nil (by simp [State.catalogue, Escrow.termsOf, State.escrow, State.empty])
  buyers _ := .nil (by simp [State.catalogue, Escrow.termsOf, State.escrow, State.empty])
  ips _ := by simp [State.catalogue, State.indexes, listed, State.empty]

theorem EntersFiled.exact (h : EntersFiled s s') (hexact : s.catalogue.Exact) :
    s'.catalogue.Exact :=
  h.invariant (fun _ _ _ _ hc hstep => hc.step hstep) hexact

theorem EntersFiled.exactFor (h : EntersFiled s s') (hexact : s.catalogue.Exact)
    (hip : s.catalogue.ExactFor ipId) : s'.catalogue.ExactFor ipId := by
  refine (h.invariant (I := fun c => c.Exact ∧ c.ExactFor ipId) ?_ ⟨hexact, hip⟩).2
  intro c e c' hfiled hc hstep
  cases hstep
  exact ⟨hc.1.enter, hc.2.enter hc.1 (.inl hfiled)⟩

theorem EntersFiled.misses (h : EntersFiled s s') (hexact : s.catalogue.Exact)
    (hip : s.catalogue.Misses ipId) : s'.catalogue.Misses ipId := by
  refine (h.invariant (I := fun c => c.Exact ∧ c.Misses ipId) ?_ ⟨hexact, hip⟩).2
  intro c e c' _ hc hstep
  cases hstep
  exact ⟨hc.1.enter, hc.2.enter hc.1⟩

theorem ActStep.exact (hact : ActStep s act s') (h : s.catalogue.Exact) :
    s'.catalogue.Exact := by
  cases hact with
  | elsewhere => exact h
  | call hexec =>
    cases exec_catalogued hexec with
    | filed _ hentered => exact hentered.exact h
    | skipped t _ hentered =>
      rw [hentered]
      exact h.enter

def Skips (ipId : ℕ) (_ : State) (act : Act) (_ : State) : Prop :=
  ∃ call, act.call = some call ∧ call.SkipsIp ipId

theorem ActStep.exactFor (hact : ActStep s act s') (hexact : s.catalogue.Exact)
    (h : s.catalogue.ExactFor ipId) (hskips : ¬ Skips ipId s act s') :
    s'.catalogue.ExactFor ipId := by
  cases hact with
  | elsewhere => exact h
  | call hexec =>
    cases exec_catalogued hexec with
    | filed _ hentered => exact hentered.exactFor hexact h
    | skipped t hcall hentered =>
      have hother : t.ipId ≠ ipId := fun e => hskips ⟨_, rfl, (hcall ipId).mpr e⟩
      rw [hentered]
      exact h.enter hexact (.inr hother)

theorem ActStep.misses (hact : ActStep s act s') (hexact : s.catalogue.Exact)
    (h : s.catalogue.Misses ipId) : s'.catalogue.Misses ipId := by
  cases hact with
  | elsewhere => exact h
  | call hexec =>
    cases exec_catalogued hexec with
    | filed _ hentered => exact hentered.misses hexact h
    | skipped t _ hentered =>
      rw [hentered]
      exact h.enter hexact

theorem ActStep.skips_misses (hact : ActStep s act s') (hexact : s.catalogue.Exact)
    (hskips : Skips ipId s act s') : s'.catalogue.Misses ipId := by
  obtain ⟨call', hcall', hskip⟩ := hskips
  cases hact with
  | elsewhere => simp at hcall'
  | call hexec =>
    obtain rfl := Option.some.inj hcall'
    cases exec_catalogued hexec with
    | filed hcall _ => exact absurd hskip (hcall ipId)
    | skipped t hcall hentered =>
      obtain rfl := (hcall ipId).mp hskip
      rw [hentered]
      exact hexact.enter_misses (e := ⟨t, false⟩) rfl

theorem run_exact (hrun : Run ActStep (State.empty balance) tr s) : s.catalogue.Exact :=
  hrun.invariant (I := fun s => s.catalogue.Exact) catalogue_empty fun _ _ _ h hact =>
    hact.exact h

theorem run_exactFor (hrun : Run ActStep (State.empty balance) tr s) (ipId : ℕ) :
    (¬ Happened (Skips ipId) (State.empty balance) tr → s.catalogue.ExactFor ipId) ∧
      (Happened (Skips ipId) (State.empty balance) tr → s.catalogue.Misses ipId) := by
  induction hrun with
  | start =>
    refine ⟨fun _ => .nil ?_, fun h => absurd h happened_nil⟩
    simp [State.catalogue, Escrow.termsOf, State.escrow, State.empty]
  | next hprev hact ih =>
    have hexact := run_exact hprev
    rw [happened_cons, hprev.now_eq]
    constructor
    · intro hnot
      obtain ⟨hskips, hbefore⟩ := not_or.mp hnot
      exact hact.exactFor hexact (ih.1 hbefore) hskips
    · intro h
      cases h with
      | inl hskips => exact hact.skips_misses hexact hskips
      | inr hbefore => exact hact.misses hexact (ih.2 hbefore)

theorem terms_eq_some {α : Type} (f : Terms → α) {i : ℕ} {a : α} :
    (s.catalogue.terms i).map f = some a ↔ ∃ r, s.swap i = some r ∧ f r.terms = a := by
  change ((s.escrow.swap i).map SwapRecord.terms).map f = some a ↔ _
  simp

/-- The swaps have the first ids, and every party has exactly its own ones, in their order. -/
theorem swap_indexes_exact (hrun : Run ActStep (State.empty balance) tr s) :
    (∀ i, (∃ r, s.swap i = some r) ↔ i < swapCount s) ∧
      ∀ a, (((getSwapsBySeller a s).getD []).Pairwise (· < ·) ∧
          ∀ i, i ∈ (getSwapsBySeller a s).getD [] ↔ ∃ r, s.swap i = some r ∧ r.seller = a) ∧
        (((getSwapsByBuyer a s).getD []).Pairwise (· < ·) ∧
          ∀ i, i ∈ (getSwapsByBuyer a s).getD [] ↔ ∃ r, s.swap i = some r ∧ r.buyer = a) := by
  have hexact := run_exact hrun
  refine ⟨?_, ?_⟩
  · intro i
    refine Iff.trans ?_ (hexact.counted i)
    change _ ↔ ((s.swap i).map SwapRecord.terms).isSome
    rw [Option.isSome_map, Option.isSome_iff_exists]
  · intro a
    have hsellers := hexact.sellers a
    have hbuyers := hexact.buyers a
    exact ⟨⟨hsellers.ordered, fun i => (hsellers.mem i).trans (terms_eq_some Terms.seller)⟩,
      ⟨hbuyers.ordered, fun i => (hbuyers.mem i).trans (terms_eq_some Terms.buyer)⟩⟩

def ListsAll (ipId : ℕ) (s : State) : Prop :=
  ((getSwapsByIp ipId s).getD []).Pairwise (· < ·) ∧
    ∀ i, i ∈ (getSwapsByIp ipId s).getD [] ↔ ∃ r, s.swap i = some r ∧ r.ipId = ipId

theorem listsAll_iff : ListsAll ipId s ↔ s.catalogue.ExactFor ipId := by
  constructor
  · intro h
    exact ⟨h.1, fun i => (h.2 i).trans (terms_eq_some Terms.ipId).symm⟩
  · intro h
    exact ⟨h.ordered, fun i => (h.mem i).trans (terms_eq_some Terms.ipId)⟩

/-- The list of an IP is exact as long as no escrow swap of it was opened on its own. -/
theorem ip_index_complete (hrun : Run ActStep (State.empty balance) tr s) (ipId : ℕ) :
    ListsAll ipId s ↔ ¬ Happened (Skips ipId) (State.empty balance) tr := by
  rw [listsAll_iff]
  obtain ⟨hexact, hmisses⟩ := run_exactFor hrun ipId
  exact ⟨fun h hskips => h.not_misses (hmisses hskips), hexact⟩

end Runs

section Sales

open Scenario

theorem sale_indexed : ∃ s : State, 0 ∈ (getSwapsByBuyer buyer s).getD [] := by
  obtain ⟨tr, s₁, s₂, hrun, hexec, hseen⟩ := watched Always funds offer (env [buyer] 2)
    (.acceptSwap 0) (fun _ s => (s.swap 0).any fun r => r.buyer = buyer) (by decide)
    (by simp [Always])
  obtain ⟨r, hr, hbuyer⟩ := (Option.any_eq_true _ _).mp hseen
  have hnext := (hrun.mono (fun _ _ _ h => h.1)).next (k := ⟨env [buyer] 2, some (.acceptSwap 0)⟩)
    (.call hexec)
  exact ⟨s₂, (((swap_indexes_exact hnext).2 buyer).2.2 0).mpr ⟨r, hr, by simpa using hbuyer⟩⟩

theorem sale_listed : ∃ s : State, (∃ r, s.swap 0 = some r) ∧ ListsAll 1 s := by
  obtain ⟨tr, s₁, s₂, hrun, hexec, hseen⟩ := watched (OnCalls fun _ _ call => ¬ call.SkipsIp 1)
    funds offer (env [buyer] 2) (.acceptSwap 0) (fun _ s => (s.swap 0).isSome) (by decide)
    (by simp [offer, OnCalls, Call.SkipsIp])
  have hnext := hrun.next (k := ⟨env [buyer] 2, some (.acceptSwap 0)⟩)
    ⟨.call hexec, by simp [OnCalls, Call.SkipsIp]⟩
  have hlists := (ip_index_complete (hnext.mono fun _ _ _ h => h.1) 1).mpr ?_
  · exact ⟨s₂, Option.isSome_iff_exists.mp hseen, hlists⟩
  · intro hskips
    obtain ⟨past, a, k, b, hmem, call, hcall, hskip⟩ := hskips
    exact (hnext.step_of_mem hmem).2 call hcall hskip

def loneEscrow : List (Env × Call) :=
  [(env [] 0, .initializeContract registry),
    (env [seller] 1, .initiateEscrowSwap token 1 seller 1000 buyer 100)]

theorem escrow_swap_unlisted : ∃ balance tr s, Run ActStep (State.empty balance) tr s ∧
    ∃ ipId, ¬ ListsAll ipId s := by
  obtain ⟨tr, s₁, s₂, hrun, hexec, hseen⟩ := watched Always funds loneEscrow (env [buyer] 2)
    (.acceptSwap 0) (fun _ s => (s.swap 0).any (fun r => r.ipId = 1) && getSwapsByIp 1 s = none)
    (by decide) (by simp [Always])
  have hnext := (hrun.mono (fun _ _ _ h => h.1)).next (k := ⟨env [buyer] 2, some (.acceptSwap 0)⟩)
    (.call hexec)
  simp only [Bool.and_eq_true, Option.any_eq_true, decide_eq_true_eq] at hseen
  obtain ⟨hstored, hnone⟩ := hseen
  refine ⟨funds, _, s₂, hnext, 1, ?_⟩
  intro hlists
  have hmem := (hlists.2 0).mpr hstored
  simp [hnone] at hmem

end Sales

end AtomicIp.AtomicSwap
