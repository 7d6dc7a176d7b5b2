import AtomicIp.Swap.Docket
import AtomicIp.Swap.Transitions

/-!
The sign-off of the co-inventors. `reveal_key` counts the signatures, and as they are
distinct and all of required signers the count is enough; the two other ways to present a
key never look at them.
-/

set_option autoImplicit false

namespace AtomicIp.AtomicSwap

open Function

def SignedOff (i : ℕ) (a : Address) : State → Act → State → Prop :=
  fun _ act _ => act.call = some (.signSwapReveal i a) ∧ a ∈ act.env.auths

def MadeWithSigners (i : ℕ) (signers : List Address) : State → Act → State → Prop :=
  fun s act s' => (∃ token ipId seller price buyer,
    act.call = some (.initiateSwapWithSigners token ipId seller price buyer signers)) ∧
    s.swap i = none ∧ (s'.swap i).isSome

/-- A call that presents a key completes the swap. -/
def CompletedByKey (i : ℕ) (s : State) (act : Act) (s' : State) : Prop :=
  (∃ call k, act.call = some call ∧ call.Presents k) ∧
    ∃ r r', s.swap i = some r ∧ s'.swap i = some r' ∧ r.status ≠ .completed ∧ r'.status = .completed

def Countersigned (s : State) (i : ℕ) : Prop :=
  ∀ signers, s.swapSigners i = some signers → ∀ a ∈ signers, a ∈ (s.swapSignatures i).getD []

/-- The two forms that look at no signature are used on countersigned swaps only, unless the
registry refuses the key. -/
def KeepsSignOff (s : State) (env : Env) : Call → Prop
  | .verifyAndCompleteSwap i _ secret blindingFactor =>
      (∃ r, s.swap i = some r ∧ KeyCheck env s.ipRegistry r.ipId secret blindingFactor true) →
        Countersigned s i
  | .batchRevealKeys ids .. => ∀ i ∈ ids, Countersigned s i
  | _ => True

/-- The signatures of one swap, and the calls that they stand for. -/
structure Signatures (s₀ : State) (past : List (Act × State)) (i : ℕ)
    (signers : Option (List Address)) (signed : List Address) : Prop where
  distinct : signed.Nodup
  required : ∀ a ∈ signed, ∃ listed, signers = some listed ∧ a ∈ listed
  happened : ∀ a ∈ signed, Happened (SignedOff i a) s₀ past

/-- What the side tables keep of the sign-offs of a run. -/
structure SignOffs (s₀ : State) (past : List (Act × State)) (s : State) : Prop where
  wf : Wf s.escrow
  here : now s₀ past = s
  unsigned : ∀ i, s.swap i = none →
    s.docket.swapSigners i = none ∧ s.docket.swapSignatures i = none
  signatures : ∀ i, Signatures s₀ past i (s.docket.swapSigners i)
    ((s.docket.swapSignatures i).getD [])
  recorded : ∀ i signers, Happened (MadeWithSigners i signers) s₀ past →
    s.docket.swapSigners i = some signers

section Signatures

variable {s₀ s s' : State} {past : List (Act × State)} {act : Act} {i : ℕ} {a : Address}
  {signers : Option (List Address)} {listed signed : List Address}

theorem Signatures.none : Signatures s₀ past i signers [] := ⟨.nil, by simp, by simp⟩

theorem Signatures.later (h : Signatures s₀ past i signers signed) :
    Signatures s₀ ((act, s') :: past) i signers signed :=
  ⟨h.distinct, h.required, fun a ha => happened_cons.mpr (.inr (h.happened a ha))⟩

theorem Signatures.sign (h : Signatures s₀ past i signers signed)
    (hlisted : ∃ listed, signers = some listed ∧ a ∈ listed) (hnew : a ∉ signed)
    (hact : SignedOff i a (now s₀ past) act s') :
    Signatures s₀ ((act, s') :: past) i signers (signed ++ [a]) where
  distinct := by
    have hapart : ∀ b ∈ signed, b ≠ a := fun b hb e => hnew (e ▸ hb)
    simpa [List.nodup_append] using ⟨h.distinct, hapart⟩
  required b hb := by
    rcases List.mem_append.mp hb with hb | hb
    · exact h.required b hb
    · obtain rfl := List.mem_singleton.mp hb
      exact hlisted
  happened b hb := by
    rcases List.mem_append.mp hb with hb | hb
    · exact happened_cons.mpr (.inr (h.happened b hb))
    · obtain rfl := List.mem_singleton.mp hb
      exact happened_cons.mpr (.inl hact)

theorem Signatures.complete (h : Signatures s₀ past i (some listed) signed)
    (hcount : listed.length ≤ signed.length) : ∀ a ∈ listed, a ∈ signed := by
  have hsub : signed ⊆ listed := by
    intro b hb
    obtain ⟨required, hrequired, hmem⟩ := h.required b hb
    obtain rfl := Option.some.inj hrequired
    exact hmem
  have hperm := (h.distinct.subperm hsub).perm_of_length_le hcount
  intro a ha
  exact hperm.mem_iff.mpr ha

end Signatures

section Steps

variable {s₀ s s' : State} {past : List (Act × State)} {act : Act} {env : Env} {i : ℕ} {u : Unit}

theorem SignOffs.recorded_kept (h : SignOffs s₀ past s)
    (hsigners : s'.docket.swapSigners = s.docket.swapSigners)
    (hmade : ∀ i signers, ¬ MadeWithSigners i signers s act s') :
    ∀ i signers, Happened (MadeWithSigners i signers) s₀ ((act, s') :: past) →
      s'.docket.swapSigners i = some signers := by
  intro i signers hhappened
  rw [hsigners]
  rcases happened_cons.mp hhappened with hlast | hearlier
  · rw [h.here] at hlast
    exact absurd hlast (hmade i signers)
  · exact h.recorded i signers hearlier

theorem SignOffs.kept (h : SignOffs s₀ past s) (hact : ActStep s act s')
    (hsigners : s'.docket.swapSigners = s.docket.swapSigners)
    (hsignatures : s'.docket.swapSignatures = s.docket.swapSignatures)
    (hmade : ∀ i signers, ¬ MadeWithSigners i signers s act s') :
    SignOffs s₀ ((act, s') :: past) s' where
  wf := hact.wf h.wf
  here := rfl
  unsigned i hi := by
    rw [hsigners, hsignatures]
    exact h.unsigned i (hact.absent h.wf hi)
  signatures i := by
    rw [hsignatures, hsigners]
    exact (h.signatures i).later
  recorded := h.recorded_kept hsigners hmade

theorem SignOffs.signs {a : Address} (h : SignOffs s₀ past s) (hact : ActStep s act s')
    (hcall : act.call = some (.signSwapReveal i a)) (hauth : a ∈ act.env.auths)
    (hstored : ∃ r, s.swap i = some r)
    (hlisted : ∃ signers, s.docket.swapSigners i = some signers ∧ a ∈ signers)
    (hnew : a ∉ (s.docket.swapSignatures i).getD []) (hdocket : s'.docket = s.docket.signed i a) :
    SignOffs s₀ ((act, s') :: past) s' := by
  have hsigners : s'.docket.swapSigners = s.docket.swapSigners := by rw [hdocket]; rfl
  have hsignatures : s'.docket.swapSignatures = update s.docket.swapSignatures i
      (some ((s.docket.swapSignatures i).getD [] ++ [a])) := by rw [hdocket]; rfl
  refine ⟨hact.wf h.wf, rfl, ?_, ?_, h.recorded_kept hsigners ?_⟩
  · intro j hj
    have hj₀ := hact.absent h.wf hj
    have hne : j ≠ i := by
      intro e
      obtain ⟨r, hr⟩ := hstored
      rw [e, hr] at hj₀
      cases hj₀
    rw [hsigners, hsignatures, update_of_ne hne]
    exact h.unsigned j hj₀
  · intro j
    rw [hsigners, hsignatures]
    by_cases hj : j = i
    · subst hj
      rw [update_self]
      exact (h.signatures j).sign hlisted hnew ⟨hcall, hauth⟩
    · rw [update_of_ne hj]
      exact (h.signatures j).later
  · intro j signers hmade
    obtain ⟨⟨_, _, _, _, _, hmade⟩, -⟩ := hmade
    rw [hcall] at hmade
    cases hmade

theorem SignOffs.made {token seller buyer : Address} {ipId : ℕ} {price : ℤ}
    {signers : List Address} (h : SignOffs s₀ past s) (hact : ActStep s act s')
    (hcall : act.call = some (.initiateSwapWithSigners token ipId seller price buyer signers))
    (hopens : OpensNext false s s')
    (hdocket : s'.docket = s.docket.withSigners s.escrow.count signers) :
    SignOffs s₀ ((act, s') :: past) s' := by
  obtain ⟨r, -, hswap⟩ := hopens.swap
  have hsigners : s'.docket.swapSigners =
      update s.docket.swapSigners s.escrow.count (some signers) := by rw [hdocket]; rfl
  have hsignatures : s'.docket.swapSignatures = s.docket.swapSignatures := by rw [hdocket]; rfl
  have hunsigned := h.unsigned s.escrow.count h.wf.fresh
  refine ⟨hact.wf h.wf, rfl, ?_, ?_, ?_⟩
  · intro j hj
    have hne : j ≠ s.escrow.count := by
      intro e
      simp [hswap, e] at hj
    rw [hsigners, hsignatures, update_of_ne hne]
    exact h.unsigned j (hact.absent h.wf hj)
  · intro j
    rw [hsigners, hsignatures]
    by_cases hj : j = s.escrow.count
    · rw [hj, hunsigned.2]
      exact .none
    · rw [update_of_ne hj]
      exact (h.signatures j).later
  · intro j listed hmade
    rw [hsigners]
    rcases happened_cons.mp hmade with hlast | hearlier
    · rw [h.here] at hlast
      obtain ⟨⟨_, _, _, _, _, hmade⟩, hnone, hsome⟩ := hlast
      have hlisted : signers = listed := by
        rw [hcall] at hmade
        injection hmade with hmade
        injection hmade
      have hj : j = s.escrow.count := by
        by_contra hne
        rw [hswap, if_neg hne, hnone] at hsome
        cases hsome
      rw [hj, update_self, hlisted]
    · have hlisted := h.recorded j listed hearlier
      have hne : j ≠ s.escrow.count := by
        intro e
        rw [e, hunsigned.1] at hlisted
        cases hlisted
      rw [update_of_ne hne]
      exact hlisted

theorem SignOffs.step (h : SignOffs s₀ past s) (hact : ActStep s act s') :
    SignOffs s₀ ((act, s') :: past) s' := by
  have hother : ∀ call : Call, act.call = some call →
      (∀ token ipId seller price buyer signers,
        call ≠ .initiateSwapWithSigners token ipId seller price buyer signers) →
      ∀ i signers, ¬ MadeWithSigners i signers s act s' := by
    intro call hcall hne i signers hmade
    obtain ⟨⟨token, ipId, seller, price, buyer, hmade⟩, -⟩ := hmade
    exact hne token ipId seller price buyer signers (Option.some.inj (hcall.symm.trans hmade))
  cases hact.filing with
  | same hcall hdocket =>
    refine h.kept hact (by rw [hdocket]) (by rw [hdocket]) ?_
    intro i signers hmade
    obtain ⟨⟨_, _, _, _, _, hmade⟩, -⟩ := hmade
    exact hcall _ hmade trivial
  | approved _ _ hcall _ _ _ hdocket =>
    exact h.kept hact (by rw [hdocket]; rfl) (by rw [hdocket]; rfl) (hother _ hcall (by simp))
  | signed i a hcall hauth hstored hlisted hnew hdocket =>
    exact h.signs hact hcall hauth hstored hlisted hnew hdocket
  | withSigners _ _ _ _ _ _ hcall hopens hdocket => exact h.made hact hcall hopens hdocket
  | withSchedule _ _ _ _ _ hcall _ hdocket =>
    exact h.kept hact (by rw [hdocket]; rfl) (by rw [hdocket]; rfl) (hother _ hcall (by simp))
  | inEscrow call hcall hescrow hopens =>
    refine h.kept hact (by rw [hopens.docket]; rfl) (by rw [hopens.docket]; rfl) (hother _ hcall ?_)
    intro token ipId seller price buyer signers e
    rw [e] at hescrow
    exact hescrow

theorem Touches.by_key {c c₁ : Escrow} {r r₁ : SwapRecord} {m : Move} {call : Call} {k : Key}
    (h : Touches c act i r m c₁ r₁) (haims : m.aims = some .completed)
    (hcall : act.call = some call) (hk : call.Presents k) :
    (∃ caller secret blindingFactor, call = .revealKey i caller secret blindingFactor) ∨
    (∃ caller secret blindingFactor, call = .verifyAndCompleteSwap i caller secret blindingFactor) ∨
    ∃ ids secrets blindingFactors seller, i ∈ ids ∧
      call = .batchRevealKeys ids secrets blindingFactors seller := by
  have hyields : call.yields m := by simpa [Act.yields, hcall] using h.yields
  have hm : ∃ w, m = .released i w := by
    have hguard := h.guard
    cases hguard with
    | released w => exact ⟨w, rfl⟩
    | installment last | scheduled last => cases last <;> simp [Move.aims] at haims
    | _ => simp [Move.aims] at haims
  obtain ⟨w, rfl⟩ := hm
  cases call with
  | revealKey j caller secret blindingFactor =>
    obtain ⟨rfl, -⟩ : i = j ∧ _ := by simpa [Call.yields] using hyields
    exact .inl ⟨caller, secret, blindingFactor, rfl⟩
  | verifyAndCompleteSwap j caller secret blindingFactor =>
    obtain ⟨rfl, -⟩ : i = j ∧ _ := by simpa [Call.yields] using hyields
    exact .inr (.inl ⟨caller, secret, blindingFactor, rfl⟩)
  | batchRevealKeys ids secrets blindingFactors seller =>
    simp only [Call.yields, Move.released.injEq] at hyields
    obtain ⟨j, hj, _, -, rfl, -⟩ := hyields
    exact .inr (.inr ⟨ids, secrets, blindingFactors, seller, hj, rfl⟩)
  | _ => exact hk.elim

theorem revealKey_counts {caller : Address} {secret blindingFactor : BytesN 32}
    (h : revealKey env i caller secret blindingFactor s = .ok (u, s')) :
    ∀ signers, s.swapSigners i = some signers →
      signers.length ≤ ((s.swapSignatures i).getD []).length := by
  simp only [revealKey, Tx.bind_ok, requireSwapExists_ok, requireSeller_ok, requireAuth_ok,
    requireSwapStatus_ok, requireAllSigned_ok] at h
  obtain ⟨r, _, ⟨-, rfl⟩, _, _, ⟨-, rfl⟩, _, _, ⟨-, rfl⟩, _, _, ⟨-, rfl⟩, _, _, ⟨hcounts, -⟩,
    -⟩ := h
  intro signers hsigners
  simpa [hsigners] using hcounts

theorem SignOffs.completed (h : SignOffs s₀ past s) (hact : ActStep s act s')
    (hcond : OnCalls KeepsSignOff s act) (hcompleted : CompletedByKey i s act s') :
    Countersigned s i := by
  obtain ⟨⟨call, k, hcall, hk⟩, r, r', hr, hr', hfrom, hto⟩ := hcompleted
  obtain ⟨r₁, hr₁, -, hmoved⟩ := hact.keeps h.wf hr
  obtain rfl := Option.some.inj (hr'.symm.trans hr₁)
  rcases hmoved with hsame | ⟨m, c₁, r₁, htouches, haims, -⟩
  · exact absurd (hsame.symm.trans hto) hfrom
  · rw [hto] at haims
    rcases htouches.by_key haims hcall hk with ⟨_, _, _, rfl⟩ | ⟨_, _, _, rfl⟩ |
      ⟨ids, _, _, _, hi, rfl⟩
    · cases hact with
      | elsewhere => cases hcall
      | call hexec =>
        obtain rfl := Option.some.inj hcall
        intro signers hsigners
        have hlist := h.signatures i
        rw [show s.docket.swapSigners i = some signers from hsigners] at hlist
        exact hlist.complete (revealKey_counts hexec signers hsigners)
    · cases hact with
      | elsewhere => cases hcall
      | call hexec =>
        obtain rfl := Option.some.inj hcall
        obtain ⟨q, hq, -, hkey⟩ := verifyAndCompleteSwap_checked hexec (by rw [hr', ← hto]; rfl)
        exact hcond _ rfl ⟨q, hq, hkey⟩
    · exact hcond _ hcall i hi

end Steps

theorem SignOffs.empty (balance : Address → Address → ℤ) :
    SignOffs (State.empty balance) [] (State.empty balance) where
  wf := .empty balance
  here := rfl
  unsigned _ _ := ⟨rfl, rfl⟩
  signatures _ := .none
  recorded _ _ h := absurd h happened_nil

/-- In runs where those two are used on countersigned swaps only, every signer has signed off
before a key completes the swap. -/
theorem signed_before_completion {balance : Address → Address → ℤ} {tr : List (Act × State)}
    {s : State}
    (hrun : Run (Restrict ActStep (OnCalls KeepsSignOff)) (State.empty balance) tr s) :
    ∀ past s₁ act s₂, (past, s₁, act, s₂) ∈ steps (State.empty balance) tr →
      ∀ i signers, Happened (MadeWithSigners i signers) (State.empty balance) past →
        CompletedByKey i s₁ act s₂ →
        ∀ a ∈ signers, Happened (SignedOff i a) (State.empty balance) past := by
  refine (hrun.forall_steps (I := SignOffs (State.empty balance)) (.empty balance) ?_).2
  intro past s₁ act s₂ hI hact
  refine ⟨hI.step hact.1, ?_⟩
  intro i signers hmade hcompleted a ha
  have hsigned := hI.completed hact.1 hact.2 hcompleted signers (hI.recorded i signers hmade) a ha
  exact (hI.signatures i).happened a hsigned

section Runs

open Scenario

def seenMade (i : ℕ) (signers : List Address) (s : State) (act : Act) (s' : State) : Bool :=
  (match act.call with
    | some (.initiateSwapWithSigners _ _ _ _ _ listed) => listed = signers
    | _ => false) && (s.swap i).isNone && (s'.swap i).isSome

theorem made_of_seen {i : ℕ} {signers : List Address} (s : State) (act : Act) (s' : State)
    (h : seenMade i signers s act s' = true) : MadeWithSigners i signers s act s' := by
  simp only [seenMade, Bool.and_eq_true, Option.isNone_iff_eq_none] at h
  obtain ⟨⟨hcall, hnone⟩, hsome⟩ := h
  refine ⟨?_, hnone, hsome⟩
  cases hc : act.call with
  | none => simp [hc] at hcall
  | some call =>
    rw [hc] at hcall
    cases call with
    | initiateSwapWithSigners token ipId seller price buyer listed =>
      obtain rfl : listed = signers := by simpa using hcall
      exact ⟨token, ipId, seller, price, buyer, rfl⟩
    | _ => simp at hcall

def seenCompleted (i : ℕ) (s : State) (act : Act) (s' : State) : Bool :=
  (match act.call with
    | some (.revealKey ..) | some (.verifyAndCompleteSwap ..) => true
    | _ => false) && seenMoving i .accepted .completed s s'

theorem completed_of_seen {i : ℕ} {s : State} {act : Act} {s' : State}
    (h : seenCompleted i s act s' = true) : CompletedByKey i s act s' := by
  simp only [seenCompleted, Bool.and_eq_true] at h
  obtain ⟨hcall, hmoving⟩ := h
  obtain ⟨r, r', hr, hr', hq, hq'⟩ := moves_of_seen hmoving
  refine ⟨?_, r, r', hr, hr', by simp [hq], hq'⟩
  cases hc : act.call with
  | none => simp [hc] at hcall
  | some call =>
    rw [hc] at hcall
    cases call with
    | revealKey i caller secret blindingFactor => exact ⟨_, ⟨secret, blindingFactor⟩, rfl, rfl⟩
    | verifyAndCompleteSwap i caller secret blindingFactor =>
      exact ⟨_, ⟨secret, blindingFactor⟩, rfl, rfl⟩
    | _ => simp at hcall

def seenUnsigned (_ : State) (act : Act) (_ : State) : Bool :=
  match act.call with
  | some (.signSwapReveal ..) => false
  | _ => true

theorem unsigned_of_seen {i : ℕ} {a : Address} (s : State) (act : Act) (s' : State)
    (h : seenUnsigned s act s' = true) : ¬ SignedOff i a s act s' := by
  intro hsigned
  simp [seenUnsigned, hsigned.1] at h

def jointSale : List (Env × Call) :=
  [(env [] 0, .initializeContract registry),
    (env [seller] 1, .initiateSwapWithSigners token 1 seller 1000 buyer [seller, stranger]),
    (env [buyer] 2, .acceptSwap 0)]

def signedSale : List (Env × Call) :=
  jointSale ++ [(env [seller] 3, Call.signSwapReveal 0 seller),
    (env [stranger] 4, Call.signSwapReveal 0 stranger),
    (env [seller] 5, Call.revealKey 0 seller secret secret)]

theorem joint_sale_signed : ∃ past s₁ act s₂, CompletedByKey 0 s₁ act s₂ ∧
    ∀ a ∈ [seller, stranger], Happened (SignedOff 0 a) (State.empty funds) past := by
  obtain ⟨tr, s, past, s₁, act, s₂, hrun, hmem, hseen⟩ := seenInTrace (OnCalls KeepsSignOff) funds
    signedSale (fun past s₁ act s₂ => seenCompleted 0 s₁ act s₂ &&
      (steps (State.empty funds) past).any fun p =>
        seenMade 0 [seller, stranger] p.2.1 p.2.2.1 p.2.2.2) (by decide)
    (by simp [signedSale, jointSale, OnCalls, KeepsSignOff])
  obtain ⟨hcompleted, hmade⟩ := (Bool.and_eq_true _ _).mp hseen
  have hdone := completed_of_seen hcompleted
  exact ⟨past, s₁, act, s₂, hdone, signed_before_completion hrun past s₁ act s₂ hmem 0 _
    (happened_of_seen made_of_seen hmade) hdone⟩

/-- Nobody signs off, and the seller takes the other way to present the key. -/
theorem completed_without_signatures : ∃ balance tr s past s₁ act s₂ i signers a,
    Run ActStep (State.empty balance) tr s ∧
    (past, s₁, act, s₂) ∈ steps (State.empty balance) tr ∧
    Happened (MadeWithSigners i signers) (State.empty balance) past ∧
    CompletedByKey i s₁ act s₂ ∧ a ∈ signers ∧
    ¬ Happened (SignedOff i a) (State.empty balance) past := by
  obtain ⟨tr, s, past, s₁, act, s₂, hrun, hmem, hseen⟩ := seenInTrace Always funds
    (jointSale ++ [(env [seller] 3, Call.verifyAndCompleteSwap 0 seller secret secret)])
    (fun past s₁ act s₂ => (seenCompleted 0 s₁ act s₂ &&
      (steps (State.empty funds) past).any fun p =>
        seenMade 0 [seller, stranger] p.2.1 p.2.2.1 p.2.2.2) &&
      (steps (State.empty funds) past).all fun p => seenUnsigned p.2.1 p.2.2.1 p.2.2.2)
    (by decide) (by simp [Always])
  simp only [Bool.and_eq_true] at hseen
  obtain ⟨⟨hcompleted, hmade⟩, hunsigned⟩ := hseen
  exact ⟨funds, tr, s, past, s₁, act, s₂, 0, [seller, stranger], stranger,
    hrun.mono fun _ _ _ h => h.1, hmem, happened_of_seen made_of_seen hmade,
    completed_of_seen hcompleted, by simp, not_happened_of_seen unsigned_of_seen hunsigned⟩

end Runs

end AtomicIp.AtomicSwap
