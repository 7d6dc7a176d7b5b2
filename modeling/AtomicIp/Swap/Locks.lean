import AtomicIp.Swap.Guards

set_option autoImplicit false

namespace AtomicIp.AtomicSwap

open Function

def SwapStatus.Live : SwapStatus → Prop
  | .pending | .accepted | .disputed => True
  | _ => False

instance (q : SwapStatus) : Decidable q.Live := by
  cases q <;> unfold SwapStatus.Live <;> infer_instance

/-- The swap `i` is a live one of the IP. -/
def LiveFor (swap : ℕ → Option SwapRecord) (ip i : ℕ) : Prop :=
  ∃ r, swap i = some r ∧ r.ipId = ip ∧ r.status.Live

/-- The lock of every IP names its live swap. -/
def Locked (c : Escrow) : Prop :=
  ∀ ip i, c.activeSwap ip = some i ↔ LiveFor c.swap ip i

/-- No move of the call puts a swap into a status its lock does not show. -/
def Call.KeepsLocks : Call → Prop
  | .startIpAuction .. | .placeBid .. | .finalizeAuction .. | .adminRollbackSwap ..
  | .batchRollbackSwaps .. | .arbitrateSwap .. | .makeScheduledPayment .. => False
  | _ => True

def Move.KeepsLocks : Move → Prop
  | .scheduled .. | .adminRolledBack .. | .finalized .. | .released _ .arbitration
  | .refunded _ .arbitration => False
  | _ => True

namespace LiveFor

variable {c : Escrow} {ip i j : ℕ} {r r' : SwapRecord}

theorem setSwap_other (hji : j ≠ i) :
    LiveFor (c.setSwap i (some r')).swap ip j ↔ LiveFor c.swap ip j := by
  simp only [LiveFor, swap_setSwap, if_neg hji]

theorem setSwap_same :
    LiveFor (c.setSwap i (some r')).swap ip i ↔ r'.ipId = ip ∧ r'.status.Live := by
  simp [LiveFor, swap_setSwap]

theorem of_stored (hr : c.swap i = some r) :
    LiveFor c.swap ip i ↔ r.ipId = ip ∧ r.status.Live := by
  simp [LiveFor, hr]

end LiveFor

namespace Locked

variable {c : Escrow} {i j ip : ℕ} {r r' : SwapRecord}

theorem unique (h : Locked c) (hi : LiveFor c.swap ip i) (hj : LiveFor c.swap ip j) : i = j := by
  have hlock := (h ip i).mpr hi
  rw [(h ip j).mpr hj] at hlock
  exact (Option.some.inj hlock).symm

theorem free_iff (h : Locked c) : c.activeSwap ip = none ↔ ∀ i, ¬ LiveFor c.swap ip i := by
  constructor
  · intro hfree i hi
    rw [(h ip i).mpr hi] at hfree
    simp at hfree
  · intro hnone
    cases hlock : c.activeSwap ip with
    | none => rfl
    | some i => exact absurd ((h ip i).mp hlock) (hnone i)

theorem rewrite (h : Locked c) (hr : c.swap i = some r) (hterms : r'.terms = r.terms)
    (hlive : r'.status.Live ↔ r.status.Live) : Locked (c.setSwap i (some r')) := by
  have hip : r'.ipId = r.ipId := congrArg Terms.ipId hterms
  intro ip j
  by_cases hji : j = i
  · subst hji
    rw [LiveFor.setSwap_same, hip, hlive, ← LiveFor.of_stored hr]
    exact h ip j
  · rw [LiveFor.setSwap_other hji]
    exact h ip j

/-- Closing a live swap frees its IP; closing one whose IP is free changes no lock. -/
theorem close {q : SwapStatus} (h : Locked c) (hr : c.swap i = some r) (hq : ¬ q.Live)
    (hfrom : r.status.Live ∨ c.activeSwap r.ipId = none) : Locked (c.close i r q) := by
  intro ip j
  have hswap : LiveFor (c.close i r q).swap ip j ↔ j ≠ i ∧ LiveFor c.swap ip j := by
    by_cases hji : j = i
    · simp [LiveFor, swap_close, hji, hq]
    · simp [LiveFor, swap_close, hji]
  rw [hswap, ← h ip j]
  by_cases hip : ip = r.ipId
  · have hlock : (c.close i r q).activeSwap ip = none := by
      simp [Escrow.close, Escrow.setActiveSwap, hip]
    rw [hlock]
    constructor
    · intro hnone
      simp at hnone
    · rintro ⟨hji, hj⟩
      rcases hfrom with hlive | hfree
      · exact absurd (h.unique ((h ip j).mp hj) ⟨r, hr, hip.symm, hlive⟩) hji
      · rw [hip, hfree] at hj
        simp at hj
  · have hlock : (c.close i r q).activeSwap ip = c.activeSwap ip := by
      simp [Escrow.close, Escrow.setActiveSwap, Escrow.setSwap, hip]
    rw [hlock]
    constructor
    · intro hj
      refine ⟨?_, hj⟩
      rintro rfl
      exact hip ((LiveFor.of_stored hr).mp ((h ip j).mp hj)).1.symm
    · exact And.right

theorem enlist (h : Locked c) (hnone : c.swap c.count = none)
    (hfree : c.activeSwap r.ipId = none) (hlive : r.status.Live) :
    Locked ((c.enlist r).setActiveSwap r.ipId (some c.count)) := by
  intro ip j
  have hswap : LiveFor ((c.enlist r).setActiveSwap r.ipId (some c.count)).swap ip j ↔
      j = c.count ∧ r.ipId = ip ∨ j ≠ c.count ∧ LiveFor c.swap ip j := by
    have hstored : ((c.enlist r).setActiveSwap r.ipId (some c.count)).swap = (c.enlist r).swap :=
      rfl
    by_cases hj : j = c.count <;> simp [LiveFor, hstored, swap_enlist, hj, hlive]
  rw [hswap, ← h ip j]
  by_cases hip : ip = r.ipId
  · subst hip
    simp [Escrow.setActiveSwap, hfree, eq_comm]
  · have hlock : ((c.enlist r).setActiveSwap r.ipId (some c.count)).activeSwap ip =
        c.activeSwap ip := by
      simp [Escrow.setActiveSwap, Escrow.enlist, Escrow.setSwap, Escrow.setNextId, hip]
    have hne : ¬ r.ipId = ip := fun e => hip e.symm
    rw [hlock]
    constructor
    · intro hj
      refine .inr ⟨?_, hj⟩
      rintro rfl
      obtain ⟨r₁, hr₁, -⟩ := (h ip _).mp hj
      simp [hnone] at hr₁
    · rintro (⟨-, hsame⟩ | ⟨-, hj⟩)
      · exact absurd hsame hne
      · exact hj

theorem congr {c' : Escrow} (h : Locked c) (hswap : c'.swap = c.swap)
    (hlock : c'.activeSwap = c.activeSwap) : Locked c' := by
  intro ip j
  rw [hswap, hlock]
  exact h ip j

theorem empty (balance : Address → Address → ℤ) : Locked (State.empty balance).escrow := by
  intro ip i
  simp [LiveFor, State.escrow, State.empty]

end Locked

section Step

variable {env : Env} {c c' : Escrow} {m : Move} {i : ℕ} {r : SwapRecord} {w : Warrant}

theorem Releases.free_or_live (h : Releases env c i r w) (hw : w ≠ .arbitration) :
    r.status.Live ∨ c.activeSwap r.ipId = none := by
  cases w with
  | key => exact .inl (by rw [h.1]; trivial)
  | batchKey =>
    rcases h.1 with haccepted | hclosed
    · exact .inl (by rw [haccepted]; trivial)
    · exact .inr hclosed.2.1
  | ruling => exact .inl (by rw [h.1]; trivial)
  | batchArbitration =>
    have hfrom : r.status = .disputed := h
    exact .inl (by rw [hfrom]; trivial)
  | arbitration => exact absurd rfl hw
  | _ => exact h.elim

theorem Refunds.live (h : Refunds env c r w) (hw : w ≠ .arbitration) : r.status.Live := by
  cases w with
  | refusedKey => rw [h.1]; trivial
  | ruling => rw [h.1]; trivial
  | batchArbitration =>
    have hfrom : r.status = .disputed := h
    rw [hfrom]; trivial
  | arbitration => exact absurd rfl hw
  | expiry => rw [h.1]; trivial
  | timeout =>
    have hfrom : r.status = .disputed := h
    rw [hfrom]; trivial
  | _ => exact h.elim

theorem Step.locked (hstep : Step env c m c') (hm : m.KeepsLocks) (hwf : Wf c)
    (h : Locked c) : Locked c' := by
  cases hstep with
  | configured | received | offered | claimed | auctionStarted | bid => exact h
  | initiated hfresh hfree =>
    exact h.enlist hwf.fresh hfree (by rw [hfresh.status]; trivial)
  | @accepted i r r' deposits premium escrowed hr hfrom _ hterms hto =>
    have hlive : r'.status.Live ↔ r.status.Live := by
      rcases hfrom with hfrom | hfrom <;> simp [hto, hfrom, SwapStatus.Live]
    exact (h.rewrite hr hterms hlive).congr rfl rfl
  | @installment i r r' amount last hr hfrom _ hterms _ _ _ _ _ hto =>
    have hlive : r'.status.Live ↔ r.status.Live := by
      cases last <;> simp [hto, hfrom, SwapStatus.Live]
    exact h.rewrite hr hterms hlive
  | repriced hr => exact h.rewrite hr rfl Iff.rfl
  | extended _ hr => exact h.rewrite hr rfl Iff.rfl
  | disputed hr hfrom => exact h.rewrite hr rfl (by simp [hfrom, SwapStatus.Live])
  | cancelled hr hfrom => exact h.close hr id (.inl (by rw [hfrom]; trivial))
  | @released i r w ms hr hw =>
    have hnot : w ≠ .arbitration := by
      rintro rfl
      exact hm
    have hclosed : Locked (c.close i r .completed) := h.close hr id (hw.free_or_live hnot)
    exact hclosed
  | @refunded i r w ms hr hw =>
    have hnot : w ≠ .arbitration := by
      rintro rfl
      exact hm
    have hclosed : Locked (c.close i r .cancelled) := h.close hr id (.inl (hw.live hnot))
    exact hclosed
  | @withdrawn i r ms hr hfrom =>
    have hclosed : Locked (c.close i r .cancelled) :=
      h.close hr id (.inl (by rw [hfrom]; trivial))
    exact hclosed
  | @rolledBack i r total ms hr hfrom =>
    exact h.rewrite hr rfl (by simp [hfrom, SwapStatus.Live])
  | scheduled | adminRolledBack | unsold | sold => exact hm.elim

theorem Call.KeepsLocks.move {call : Call} (h : call.KeepsLocks) (hm : call.yields m) :
    m.KeepsLocks := by
  cases m with
  | scheduled i last =>
    obtain ⟨index, rfl⟩ := Call.yields_source hm
    exact h
  | adminRolledBack i =>
    rcases Call.yields_source hm with ⟨_, _, rfl⟩ | ⟨_, _, _, -, rfl⟩ <;> exact h
  | released i w =>
    cases w with
    | arbitration =>
      obtain ⟨a, rfl⟩ := Call.yields_source hm
      exact h
    | _ => trivial
  | refunded i w =>
    cases w with
    | arbitration =>
      obtain ⟨a, rfl⟩ := Call.yields_source hm
      exact h
    | _ => trivial
  | finalized j =>
    obtain rfl := Call.yields_source hm
    exact h
  | _ => trivial

end Step

section Runs

variable {s s' : State} {act : Act}

theorem ActStep.locked (hact : ActStep s act s')
    (hcall : ∀ call, act.call = some call → call.KeepsLocks) (hwf : Wf s.escrow)
    (h : Locked s.escrow) : Locked s'.escrow := by
  obtain ⟨q, hmoves⟩ := hact.answers
  have hboth : Wf s'.escrow ∧ Locked s'.escrow := by
    refine hmoves.invariant (I := fun c => Wf c ∧ Locked c) ?_ ⟨hwf, h⟩
    rintro c m c' ⟨hyields, -⟩ ⟨hwf, h⟩ hstep
    refine ⟨hstep.wf hwf, hstep.locked ?_ hwf h⟩
    by_cases hm : m = .received
    · rw [hm]
      trivial
    · obtain ⟨call, hcalled, hcall_yields⟩ := Act.yields_call hyields hm
      exact (hcall call hcalled).move hcall_yields
  exact hboth.2

theorem Reaches.locked {tr : List (Act × State)}
    (h : Reaches (OnCalls fun _ _ call => call.KeepsLocks) tr s) : Locked s.escrow := by
  obtain ⟨balance, -, hrun⟩ := h
  have hboth := hrun.invariant (I := fun s => Wf s.escrow ∧ Locked s.escrow)
    ⟨.empty balance, .empty balance⟩ fun s k s' hI hact =>
      ⟨hact.1.wf hI.1, hact.1.locked hact.2 hI.1 hI.2⟩
  exact hboth.2

end Runs

end AtomicIp.AtomicSwap
