import AtomicIp.Lib.Index
import AtomicIp.Swap.Locks

/-!
Sales and auctions of one IP. A direct sale does not look at the auction lock, nor an
auction at the swap lock; where neither starts over the other there is one sale at a time.
-/

set_option autoImplicit false

namespace AtomicIp.AtomicSwap

open Function

/-- The auction `j` of the IP has not been finalised. -/
def OpenFor (auction : ℕ → Option AuctionRecord) (ip j : ℕ) : Prop :=
  ∃ a, auction j = some a ∧ a.ipId = ip ∧ a.finalized = false

structure OneSale (c : Escrow) : Prop where
  unique : ∀ ip i j, LiveFor c.swap ip i → LiveFor c.swap ip j → i = j
  apart : ∀ ip i j, LiveFor c.swap ip i → ¬ OpenFor c.auction ip j
  locked : ∀ ip j, OpenFor c.auction ip j → c.activeAuction ip = some j

/-- Direct sales, auctions, acceptances, reveals and cancellations, and the set-up calls. -/
def Call.Sells : Call → Prop
  | .initiateSwap .. | .startIpAuction .. | .placeBid .. | .finalizeAuction .. | .acceptSwap ..
  | .revealKey .. | .cancelSwap .. | .cancelExpiredSwap .. | .cancelPendingSwap ..
  | .batchCancelSwaps .. | .initializeContract .. | .setAdmin .. | .pause .. | .unpause .. => True
  | _ => False

/-- No direct sale starts while the IP has a live swap or an open auction, and no auction
while it has a live swap. -/
def StartsAlone (s : State) (_env : Env) (call : Call) : Prop :=
  call.Sells ∧ match call with
  | .initiateSwap _ ipId .. =>
      (∀ i, ¬ LiveFor s.swap ipId i) ∧ ∀ j, ¬ OpenFor s.auction ipId j
  | .startIpAuction _ ipId .. => ∀ i, ¬ LiveFor s.swap ipId i
  | _ => True

def Move.StartsAlone (c : Escrow) : Move → Prop
  | .initiated r => (∀ i, ¬ LiveFor c.swap r.ipId i) ∧ ∀ j, ¬ OpenFor c.auction r.ipId j
  | .auctionStarted a => ∀ i, ¬ LiveFor c.swap a.ipId i
  | .scheduled .. | .rolledBack .. | .adminRolledBack .. => False
  | .released _ (.key _) | .refunded _ .expiry => True
  | .released .. | .refunded .. => False
  | _ => True

namespace OneSale

variable {c c' : Escrow} {i : ℕ} {r r' : SwapRecord} {a : AuctionRecord}

theorem mono (h : OneSale c) (hlive : ∀ ip i, LiveFor c'.swap ip i → LiveFor c.swap ip i)
    (hopen : ∀ ip j, OpenFor c'.auction ip j →
      OpenFor c.auction ip j ∧ c'.activeAuction ip = c.activeAuction ip) : OneSale c' where
  unique ip i j hi hj := h.unique ip i j (hlive ip i hi) (hlive ip j hj)
  apart ip i j hi hj := h.apart ip i j (hlive ip i hi) (hopen ip j hj).1
  locked ip j hj := by
    obtain ⟨hj', hsame⟩ := hopen ip j hj
    rw [hsame]
    exact h.locked ip j hj'

theorem rewrite (h : OneSale c) (hr : c.swap i = some r) (hterms : r'.terms = r.terms)
    (hlive : r'.status.Live → r.status.Live) : OneSale (c.setSwap i (some r')) := by
  have hip : r'.ipId = r.ipId := congrArg Terms.ipId hterms
  refine h.mono ?_ fun ip j hj => ⟨hj, rfl⟩
  intro ip j hj
  by_cases hji : j = i
  · subst hji
    obtain ⟨hsame, hlive'⟩ := LiveFor.setSwap_same.mp hj
    exact ⟨r, hr, hip.symm.trans hsame, hlive hlive'⟩
  · exact (LiveFor.setSwap_other hji).mp hj

theorem close {q : SwapStatus} (h : OneSale c) (hr : c.swap i = some r) (hq : ¬ q.Live) :
    OneSale (c.close i r q) := by
  have hset : OneSale (c.setSwap i (some (r.withStatus q))) :=
    h.rewrite hr rfl fun hlive => absurd hlive hq
  exact ⟨hset.unique, hset.apart, hset.locked⟩

theorem liveFor_enlist {ip k : ℕ} (hk : LiveFor (c.enlist r).swap ip k) :
    k = c.count ∧ r.ipId = ip ∨ LiveFor c.swap ip k := by
  obtain ⟨r₁, hr₁, hip, hlive⟩ := hk
  rw [swap_enlist] at hr₁
  by_cases hcount : k = c.count
  · rw [if_pos hcount] at hr₁
    obtain rfl := Option.some.inj hr₁
    exact .inl ⟨hcount, hip⟩
  · rw [if_neg hcount] at hr₁
    exact .inr ⟨r₁, hr₁, hip, hlive⟩

theorem enlist (h : OneSale c) (hnone : ∀ i, ¬ LiveFor c.swap r.ipId i)
    (hclosed : ∀ j, ¬ OpenFor c.auction r.ipId j) : OneSale (c.enlist r) where
  unique ip i j hi hj := by
    rcases liveFor_enlist hi with ⟨rfl, rfl⟩ | hi <;> rcases liveFor_enlist hj with ⟨rfl, hip⟩ | hj
    · rfl
    · exact absurd hj (hnone j)
    · exact absurd (hip ▸ hi) (hnone i)
    · exact h.unique ip i j hi hj
  apart ip i j hi hj := by
    rcases liveFor_enlist hi with ⟨-, rfl⟩ | hi
    · exact hclosed j hj
    · exact h.apart ip i j hi hj
  locked := h.locked

theorem openFor_setAuction {ip j : ℕ} (hj : OpenFor (c.setAuction i (some a)).auction ip j) :
    j = i ∧ a.ipId = ip ∧ a.finalized = false ∨ j ≠ i ∧ OpenFor c.auction ip j := by
  obtain ⟨a₁, ha₁, hip, hopen⟩ := hj
  by_cases hji : j = i
  · simp [Escrow.setAuction, hji] at ha₁
    obtain rfl := ha₁
    exact .inl ⟨hji, hip, hopen⟩
  · simp [Escrow.setAuction, hji] at ha₁
    exact .inr ⟨hji, a₁, ha₁, hip, hopen⟩

theorem closeAuction (h : OneSale c) (ha : c.auction i = some a) (hopen : a.finalized = false) :
    OneSale ((c.setAuction i (some a.close)).setActiveAuction a.ipId none) ∧
      ∀ j, ¬ OpenFor ((c.setAuction i (some a.close)).setActiveAuction a.ipId none).auction
        a.ipId j := by
  have hrest : ∀ ip j, OpenFor ((c.setAuction i (some a.close)).setActiveAuction a.ipId
      none).auction ip j → ip ≠ a.ipId ∧ OpenFor c.auction ip j := by
    intro ip j hj
    rcases openFor_setAuction hj with ⟨-, -, hclosed⟩ | ⟨hji, hj⟩
    · cases hclosed
    · refine ⟨?_, hj⟩
      rintro rfl
      have hlock := h.locked _ i ⟨a, ha, rfl, hopen⟩
      rw [h.locked _ j hj] at hlock
      exact hji (Option.some.inj hlock)
  refine ⟨h.mono (fun _ _ hi => hi) ?_, fun j hj => (hrest _ j hj).1 rfl⟩
  intro ip j hj
  obtain ⟨hip, hj'⟩ := hrest ip j hj
  exact ⟨hj', by simp [Escrow.setActiveAuction, Escrow.setAuction, hip]⟩

theorem startAuction (h : OneSale c) (hfree : c.activeAuction a.ipId = none)
    (hnone : ∀ i, ¬ LiveFor c.swap a.ipId i) :
    OneSale ((c.setAuction c.auctionCount (some a)).setActiveAuction a.ipId
      (some c.auctionCount)) where
  unique := h.unique
  apart ip k j hk hj := by
    rcases openFor_setAuction hj with ⟨-, rfl, -⟩ | ⟨-, hj⟩
    · exact hnone k hk
    · exact h.apart ip k j hk hj
  locked ip j hj := by
    rcases openFor_setAuction hj with ⟨rfl, rfl, -⟩ | ⟨-, hj⟩
    · simp [Escrow.setActiveAuction]
    · have hlock := h.locked ip j hj
      have hip : ip ≠ a.ipId := by
        rintro rfl
        rw [hfree] at hlock
        cases hlock
      simpa [Escrow.setActiveAuction, Escrow.setAuction, hip] using hlock

theorem empty (balance : Address → Address → ℤ) : OneSale (State.empty balance).escrow := by
  constructor <;> simp [LiveFor, OpenFor, State.escrow, State.empty]

end OneSale

section Step

variable {env : Env} {c c' : Escrow} {m : Move} {s s' : State} {act : Act}

theorem Step.oneSale (hstep : Step env c m c') (hm : m.StartsAlone c) (h : OneSale c) :
    OneSale c' := by
  cases hstep with
  | configured | received | offered | claimed =>
    exact ⟨h.unique, h.apart, h.locked⟩
  | initiated =>
    have hset := h.enlist hm.1 hm.2
    exact ⟨hset.unique, hset.apart, hset.locked⟩
  | @accepted i r r' deposits premium escrowed hr hfrom _ hterms =>
    have hlive : r.status.Live := by
      rcases hfrom with hfrom | hfrom <;> rw [hfrom] <;> trivial
    have hset : OneSale (c.setSwap i (some r')) := h.rewrite hr hterms fun _ => hlive
    exact ⟨hset.unique, hset.apart, hset.locked⟩
  | @installment i r r' amount last hr hfrom _ hterms =>
    have hlive : r.status.Live := by rw [hfrom]; trivial
    have hset : OneSale (c.setSwap i (some r')) := h.rewrite hr hterms fun _ => hlive
    exact ⟨hset.unique, hset.apart, hset.locked⟩
  | @repriced i r offer hr =>
    have hset : OneSale (c.setSwap i (some { r with price := offer.newPrice })) :=
      h.rewrite hr rfl id
    exact ⟨hset.unique, hset.apart, hset.locked⟩
  | extended _ hr => exact h.rewrite hr rfl id
  | disputed hr hfrom =>
    refine h.rewrite hr rfl fun _ => ?_
    rw [hfrom]
    trivial
  | cancelled hr => exact h.close hr id
  | @released i r w ms hr =>
    have hclosed : OneSale (c.close i r .completed) := h.close hr id
    exact ⟨hclosed.unique, hclosed.apart, hclosed.locked⟩
  | @refunded i r w ms hr =>
    have hclosed : OneSale (c.close i r .cancelled) := h.close hr id
    exact ⟨hclosed.unique, hclosed.apart, hclosed.locked⟩
  | @withdrawn i r ms hr =>
    have hclosed : OneSale (c.close i r .cancelled) := h.close hr id
    exact ⟨hclosed.unique, hclosed.apart, hclosed.locked⟩
  | scheduled | rolledBack | adminRolledBack => exact hm.elim
  | auctionStarted hfresh hfree =>
    have hstarted := h.startAuction hfree hm
    exact ⟨hstarted.unique, hstarted.apart, hstarted.locked⟩
  | @bid i a bidder amount ha hopen =>
    refine h.mono (fun _ _ hi => hi) ?_
    intro ip j hj
    rcases OneSale.openFor_setAuction hj with ⟨rfl, rfl, -⟩ | ⟨-, hj⟩
    · exact ⟨⟨a, ha, rfl, hopen⟩, rfl⟩
    · exact ⟨hj, rfl⟩
  | unsold ha hopen => exact (h.closeAuction ha hopen).1
  | @sold i a buyer r ha hopen hwon hr =>
    obtain ⟨hclosed, hnone⟩ := h.closeAuction ha hopen
    rw [← hr.ipId] at hnone
    refine hclosed.enlist ?_ hnone
    intro k hk
    rw [hr.ipId] at hk
    exact h.apart _ k i hk ⟨a, ha, rfl, hopen⟩

theorem ActStep.oneSale (hact : ActStep s act s') (hcond : OnCalls StartsAlone s act)
    (h : OneSale s.escrow) : OneSale s'.escrow := by
  obtain ⟨q, hmoves⟩ := hact.answers
  have hquiet : (∀ c m, act.yields m → m.StartsAlone c) → OneSale s'.escrow := fun hquiet =>
    hmoves.invariant (fun c m c' hm hc hstep => hstep.oneSale (hquiet c m hm.1) hc) h
  cases hact with
  | elsewhere =>
    refine hquiet ?_
    rintro c _ rfl
    trivial
  | @call _ env call hexec =>
    obtain ⟨hsells, hstarts⟩ := hcond call rfl
    cases call with
    | initiateSwap =>
      obtain ⟨id, hexec⟩ := Tx.void_ok.mp hexec
      obtain ⟨_, ⟨r, rfl, hip, -⟩, hstep⟩ := initiateSwap_step hexec
      rw [← List.mem_singleton.mp hip] at hstarts
      exact hstep.oneSale hstarts h
    | startIpAuction =>
      obtain ⟨id, hexec⟩ := Tx.void_ok.mp hexec
      obtain ⟨a, rfl, -, hstep⟩ := startIpAuction_step hexec
      exact hstep.oneSale hstarts h
    | batchCancelSwaps =>
      refine hquiet ?_
      rintro c _ ⟨i, -, rfl⟩
      trivial
    | placeBid | finalizeAuction | acceptSwap | revealKey | cancelSwap | cancelExpiredSwap
    | cancelPendingSwap | initializeContract | setAdmin =>
      refine hquiet ?_
      rintro c _ rfl
      trivial
    | pause | unpause => exact hquiet fun _ _ hm => hm.elim
    | _ => exact hsells.elim

end Step

/-- One sale at a time, over runs in which no sale starts over another one. -/
theorem one_sale_at_a_time {balance : Address → Address → ℤ} {tr : List (Act × State)}
    {s : State} (hrun : Run (Restrict ActStep (OnCalls StartsAlone)) (State.empty balance) tr s) :
    ∀ s' ∈ visited (State.empty balance) tr,
      (∀ ip i j, LiveFor s'.swap ip i → LiveFor s'.swap ip j → i = j) ∧
      ∀ ip j, OpenFor s'.auction ip j → ∀ i, ¬ LiveFor s'.swap ip i := by
  have hall := hrun.forall_visited (I := fun s => OneSale s.escrow) (.empty balance)
    fun _ _ _ h hact => hact.1.oneSale hact.2 h
  intro s' hs'
  have hsale := hall s' hs'
  exact ⟨hsale.unique, fun ip j hj i hi => hsale.apart ip i j hi hj⟩

section Runs

open Scenario

theorem step_alone {env : Env} {call : Call} {s s' : State} (hexec : exec env call s = .ok ((), s'))
    (h : StartsAlone s env call) : Restrict ActStep (OnCalls StartsAlone) s ⟨env, some call⟩ s' :=
  ⟨.call hexec, fun _ hcall => Option.some.inj hcall ▸ h⟩

theorem none_live {ip i : ℕ} : ¬ LiveFor (fun _ => none) ip i := by
  rintro ⟨r, hr, -⟩
  cases hr

/-- The second IP is auctioned; the first is offered, withdrawn and offered again. -/
theorem second_offer_alone : ∃ tr s,
    Run (Restrict ActStep (OnCalls StartsAlone)) (State.empty funds) tr s ∧
    LiveFor s.swap 1 1 ∧ OpenFor s.auction 2 0 ∧ (∀ i, LiveFor s.swap 1 i → i = 1) ∧
    ∀ i, ¬ LiveFor s.swap 2 i := by
  have hplay : ∃ s₁ s₂ s₃ s₄ s₅ r a,
      (exec (env [] 0) (.initializeContract registry) (State.empty funds) = .ok ((), s₁) ∧
        s₁.swap = (fun _ => none)) ∧
      (exec (env [seller] 1) (.startIpAuction token 2 seller 500 10) s₁ = .ok ((), s₂) ∧
        s₂.swap = (fun _ => none) ∧ s₂.auction = update (fun _ => none) 0 (some a) ∧
        a.ipId = 2 ∧ a.finalized = false) ∧
      exec (env [seller] 2) (.initiateSwap token 1 seller 1000 buyer 0 none 0 false) s₂ =
        .ok ((), s₃) ∧
      (exec (env [seller] 3) (.cancelSwap 0 seller) s₃ = .ok ((), s₄) ∧
        s₄.swap = update s₃.swap 0 (some r) ∧ s₃.swap = update (fun _ => none) 0 (s₃.swap 0) ∧
        r.status = .cancelled ∧ s₄.auction = s₂.auction) ∧
      exec (env [seller] 4) (.initiateSwap token 1 seller 900 buyer 0 none 0 false) s₄ =
        .ok ((), s₅) ∧
      ((s₅.swap 1).any fun r => r.ipId = 1 ∧ r.status = .pending) = true ∧
      s₅.auction = s₂.auction :=
    ⟨_, _, _, _, _, _, _, ⟨rfl, rfl⟩, ⟨rfl, rfl, rfl, rfl, rfl⟩, rfl,
      ⟨rfl, rfl, rfl, rfl, rfl⟩, rfl, rfl, rfl⟩
  obtain ⟨s₁, s₂, s₃, s₄, s₅, r, a, ⟨hinit, hnone₁⟩, ⟨hstart, hnone₂, hauction, hip, hopen⟩, hoffer,
    ⟨hcancel, hswap₄, hswap₃, hcancelled, hauction₄⟩, hagain, hlast, hauction₅⟩ := hplay
  have hother : ∀ j, ¬ OpenFor s₂.auction 1 j := by
    rintro j ⟨b, hb, hbip, -⟩
    rw [hauction] at hb
    rcases update_eq_some hb with ⟨-, rfl⟩ | ⟨-, hnone⟩
    · omega
    · cases hnone
  have hwithdrawn : ∀ i, ¬ LiveFor s₄.swap 1 i := by
    rintro i ⟨q, hq, -, hlive⟩
    rw [hswap₄] at hq
    rcases update_eq_some hq with ⟨-, rfl⟩ | ⟨hne, hold⟩
    · rw [hcancelled] at hlive
      exact hlive
    · rw [hswap₃, update_of_ne hne] at hold
      cases hold
  have hstarts : StartsAlone s₁ (env [seller] 1) (.startIpAuction token 2 seller 500 10) :=
    ⟨trivial, fun _ => hnone₁ ▸ none_live⟩
  have hoffers : StartsAlone s₂ (env [seller] 2)
      (.initiateSwap token 1 seller 1000 buyer 0 none 0 false) :=
    ⟨trivial, fun _ => hnone₂ ▸ none_live, hother⟩
  have hagains : StartsAlone s₄ (env [seller] 4)
      (.initiateSwap token 1 seller 900 buyer 0 none 0 false) :=
    ⟨trivial, hwithdrawn, hauction₄ ▸ hother⟩
  have hrun : Run (Restrict ActStep (OnCalls StartsAlone)) (State.empty funds) _ s₅ :=
    ((((Run.start.next (step_alone hinit ⟨trivial, trivial⟩)).next (step_alone hstart hstarts)).next
      (step_alone hoffer hoffers)).next (step_alone hcancel ⟨trivial, trivial⟩)).next
      (step_alone hagain hagains)
  simp only [Option.any_eq_true, decide_eq_true_eq] at hlast
  obtain ⟨q, hq, hqip, hpending⟩ := hlast
  have hlive : LiveFor s₅.swap 1 1 := ⟨q, hq, hqip, by rw [hpending]; trivial⟩
  have hrunning : OpenFor s₅.auction 2 0 :=
    ⟨a, by rw [hauction₅, hauction, update_self], hip, hopen⟩
  obtain ⟨hunique, hapart⟩ := one_sale_at_a_time hrun _ hrun.mem_visited
  exact ⟨_, s₅, hrun, hlive, hrunning, fun i hi => hunique 1 i 1 hi hlive, hapart 2 0 hrunning⟩

def auctionAndSale : List (Env × Call) :=
  [(env [] 0, .initializeContract registry),
    (env [seller] 1, .startIpAuction token 1 seller 500 10),
    (env [stranger] 2, .placeBid 0 stranger 600),
    (env [seller] 3, .initiateSwap token 1 seller 1000 buyer 0 none 0 false),
    (env [buyer] 4, .acceptSwap 0)]

/-- Two buyers have their money in escrow for one IP. -/
theorem two_sales_at_once : ∃ (tr : List (Act × State)) (s : State) (i j : ℕ)
    (r r' : SwapRecord),
    Run (Restrict ActStep (OnCalls fun _ _ call => call.Sells)) (State.empty funds) tr s ∧
    i ≠ j ∧ s.swap i = some r ∧ s.swap j = some r' ∧ r.status = .accepted ∧
    r'.status = .accepted ∧ r.ipId = r'.ipId ∧ r.buyer ≠ r'.buyer := by
  obtain ⟨tr, s₁, s₂, hrun, hexec, hseen⟩ := watched (OnCalls fun _ _ call => call.Sells) funds
    auctionAndSale (env [] 20) (.finalizeAuction 0) (fun _ s =>
      (s.swap 0).any fun r => r.status = .accepted ∧ (s.swap 1).any fun r' =>
        r'.status = .accepted ∧ r.ipId = r'.ipId ∧ r.buyer ≠ r'.buyer)
    (by decide) (by simp [auctionAndSale, OnCalls, Call.Sells])
  simp only [Option.any_eq_true, decide_eq_true_eq] at hseen
  obtain ⟨r, hr, hst, r', hr', hst', hip, hbuyer⟩ := hseen
  exact ⟨_, s₂, 0, 1, r, r', hrun.next (k := ⟨env [] 20, some (.finalizeAuction 0)⟩)
    ⟨.call hexec, by simp [OnCalls, Call.Sells]⟩, by simp, hr, hr', hst, hst', hip, hbuyer⟩

end Runs

end AtomicIp.AtomicSwap
