import AtomicIp.Swap.Wellformed

set_option autoImplicit false

namespace AtomicIp.AtomicSwap

section Steps

variable {env : Env} {c c' : Escrow} {m : Move} {i : ℕ} {r : SwapRecord} {s s' : State}
  {call : Call} {ms : List TokenTransfer}

/-- A transfer out of the contract, or out of the wallet of somebody who signed. -/
structure Charges (env : Env) (x : TokenTransfer) : Prop where
  nonneg : 0 ≤ x.amount
  signed : x.src = currentContractAddress ∨ x.src ∈ env.auths

/-- The balances move by the transfers that are logged. -/
structure Posts (env : Env) (c : Escrow) (ms : List TokenTransfer) (c' : Escrow) : Prop where
  balance : c'.balance = postAll c.balance ms
  logged : c'.transfers = c.transfers ++ ms
  charges : ∀ x ∈ ms, Charges env x

theorem Posts.none (hbalance : c'.balance = c.balance) (hlog : c'.transfers = c.transfers) :
    Posts env c [] c' := ⟨hbalance, by simp [hlog], by simp⟩

theorem Posts.append {c'' : Escrow} {ns : List TokenTransfer} (h : Posts env c ms c')
    (h' : Posts env c' ns c'') : Posts env c (ms ++ ns) c'' := by
  refine ⟨?_, by rw [h'.logged, h.logged, List.append_assoc], fun x hx => ?_⟩
  · rw [h'.balance, h.balance, postAll, postAll, postAll, List.foldl_append]
  · rcases List.mem_append.mp hx with hx | hx
    · exact h.charges x hx
    · exact h'.charges x hx

theorem charges_funding {price : ℤ} {deposits premium : Bool} (hauth : r.buyer ∈ env.auths)
    (hpos : ∀ x ∈ funding i r price deposits premium, 0 ≤ x.amount) :
    ∀ x ∈ funding i r price deposits premium, Charges env x := by
  intro x hx
  refine ⟨hpos x hx, .inr ?_⟩
  have hsrc : x.src = r.buyer := by
    revert x
    cases deposits <;> cases premium <;> simp [funding, depositOf, premiumOf, priceOf]
  rwa [hsrc]

theorem PaidFor.charges {P : Address → Prop} {total : ℤ} (h : PaidFor i r P total ms) :
    ∀ x ∈ ms, Charges env x := by
  intro x hx
  obtain ⟨-, hsrc, -, hpos⟩ := h.escrowed x hx
  exact ⟨hpos, .inl hsrc⟩

theorem charges_price {amount : ℤ} (hauth : r.buyer ∈ env.auths) (hpos : 0 ≤ amount) :
    ∀ x ∈ [priceOf i r amount], Charges env x := by
  simpa using Charges.mk hpos (.inr hauth)

theorem charges_bid {a : AuctionRecord} {bidder : Address} {amount : ℤ}
    (hauth : bidder ∈ env.auths) (hpos : 0 ≤ amount) (hback : ∀ x ∈ a.refund i, 0 ≤ x.amount) :
    ∀ x ∈ a.refund i ++ [⟨a.token, bidder, currentContractAddress, amount, .bid i⟩],
      Charges env x := by
  intro x hx
  rcases List.mem_append.mp hx with hx | hx
  · refine ⟨hback x hx, .inl ?_⟩
    unfold AuctionRecord.refund at hx
    split at hx
    · rw [List.mem_singleton.mp hx]
    · cases hx
  · rw [List.mem_singleton.mp hx]
    exact ⟨hpos, .inr hauth⟩

theorem Step.posts (hstep : Step env c m c') (hwf : Wf c) (hm : m ≠ .received) :
    ∃ ms, Posts env c ms c' := by
  cases hstep with
  | received => exact absurd rfl hm
  | accepted r' _ _ _ _ _ hauth _ _ _ _ _ hpos =>
    exact ⟨_, rfl, rfl, charges_funding hauth hpos⟩
  | installment r' last _ _ hauth _ _ _ hpos => exact ⟨_, rfl, rfl, charges_price hauth hpos.le⟩
  | scheduled r' last _ hauth hpos => exact ⟨_, rfl, rfl, charges_price hauth hpos⟩
  | released _ _ hpaid => exact ⟨_, rfl, rfl, hpaid.charges⟩
  | refunded _ _ hpaid => exact ⟨_, rfl, rfl, hpaid.charges⟩
  | withdrawn _ _ _ hpaid => exact ⟨_, rfl, rfl, hpaid.charges⟩
  | rolledBack _ _ _ hpaid => exact ⟨_, rfl, rfl, hpaid.charges⟩
  | adminRolledBack _ _ _ hpaid => exact ⟨_, rfl, rfl, hpaid.charges⟩
  | claimed _ _ _ hpos =>
    refine ⟨_, rfl, rfl, fun x hx => ?_⟩
    rw [List.mem_singleton.mp hx]
    exact ⟨hpos, .inl rfl⟩
  | bid ha _ hauth hmin _ hback =>
    have hpos := (hwf.auction _ _ ha).2.minBid
    exact ⟨_, rfl, rfl, charges_bid hauth (by omega) hback⟩
  | _ => exact ⟨[], .none rfl rfl⟩

theorem Call.not_received (call : Call) : ¬ call.yields .received := by
  cases call with
  | resolveDispute _ _ refund | arbitrateSwap _ _ refund | batchArbitrateSwaps _ _ refund =>
    cases refund <;> simp [yields, verdict]
  | _ => simp [yields, Opens]

theorem exec_posts (hwf : Wf s.escrow) (h : exec env call s = .ok ((), s')) :
    ∃ ms, Posts env s.escrow ms s'.escrow := by
  obtain ⟨q, hmoves⟩ := exec_answers h
  have hboth := hmoves.invariant (I := fun c => Wf c ∧ ∃ ms, Posts env s.escrow ms c)
    (fun c m c' hm hI hstep => ?_) ⟨hwf, [], .none rfl rfl⟩
  · exact hboth.2
  · obtain ⟨hwf, ms, hms⟩ := hI
    have hcall : m ≠ .received := by
      rintro rfl
      exact call.not_received hm.1
    obtain ⟨ns, hns⟩ := hstep.posts hwf hcall
    exact ⟨hstep.wf hwf, ms ++ ns, hms.append hns⟩

theorem Posts.unsigned {t a : Address} (h : Posts env c ms c') (ha : a ≠ currentContractAddress)
    (hauth : a ∉ env.auths) : c.balance t a ≤ c'.balance t a := by
  rw [h.balance]
  refine postAll_ge_of_in fun x hx => ⟨?_, (h.charges x hx).nonneg⟩
  rintro rfl
  rcases (h.charges x hx).signed with hsrc | hsigned
  · exact ha hsrc
  · exact hauth hsigned

end Steps

section Runs

variable {balance : Address → Address → ℤ} {s : State} {tr : List (Act × State)}

def CallsOnly (_s : State) (act : Act) : Prop := act.call.isSome = true

theorem callsOnly_exec {s s' : State} {act : Act} (h : Restrict ActStep CallsOnly s act s') :
    ∃ call, exec act.env call s = .ok ((), s') := by
  obtain ⟨hact, hcall⟩ := h
  cases hact with
  | call hexec => exact ⟨_, hexec⟩
  | elsewhere => cases hcall

/-- The contract mints and burns nothing: in every run of calls there are some accounts that
together hold in every token what they held at first, and no other account has changed. -/
theorem tokens_conserved (hrun : Run (Restrict ActStep CallsOnly) (State.empty balance) tr s) :
    ∃ accounts : Finset Address, ∀ t,
      ∑ a ∈ accounts, s.balance t a = ∑ a ∈ accounts, balance t a ∧
      ∀ a ∉ accounts, s.balance t a = balance t a := by
  have hposted : Wf s.escrow ∧ s.balance = postAll balance s.transfers := by
    refine hrun.invariant (I := fun s => Wf s.escrow ∧ s.balance = postAll balance s.transfers)
      ⟨.empty balance, rfl⟩ fun s act s' hI hstep => ?_
    obtain ⟨hwf, hbalance⟩ := hI
    obtain ⟨call, hexec⟩ := callsOnly_exec hstep
    obtain ⟨ms, hms⟩ := exec_posts hwf hexec
    refine ⟨hstep.1.wf hwf, ?_⟩
    have hafter : s'.balance = postAll s.balance ms := hms.balance
    have hlog : s'.transfers = s.transfers ++ ms := hms.logged
    rw [hafter, hbalance, hlog, postAll, postAll, postAll, List.foldl_append]
  refine ⟨(s.transfers.map Transfer.src ++ s.transfers.map Transfer.dst).toFinset, fun t => ?_⟩
  rw [hposted.2]
  refine postAll_conserves (fun x hx => ⟨?_, ?_⟩) t
  · exact List.mem_toFinset.mpr (List.mem_append_left _ (List.mem_map_of_mem hx))
  · exact List.mem_toFinset.mpr (List.mem_append_right _ (List.mem_map_of_mem hx))

/-- Whatever was ever taken out of a wallet was taken in a call its owner signed; and no call
lowers the balance of anybody else but the contract. -/
theorem payments_signed (hrun : Run ActStep (State.empty balance) tr s) :
    (∀ x ∈ s.transfers, 0 ≤ x.amount ∧ (x.src = currentContractAddress ∨
      Happened (fun a act b => x ∈ newTransfers a b ∧ x.src ∈ act.env.auths)
        (State.empty balance) tr)) ∧
    ∀ past a act b, (past, a, act, b) ∈ steps (State.empty balance) tr → act.call.isSome = true →
      ∀ t x, x ≠ currentContractAddress → x ∉ act.env.auths → a.balance t x ≤ b.balance t x := by
  have hall := hrun.forall_steps
    (I := fun tr s => Wf s.escrow ∧ now (State.empty balance) tr = s ∧
      ∀ x ∈ s.transfers, 0 ≤ x.amount ∧ (x.src = currentContractAddress ∨
        Happened (fun a act b => x ∈ newTransfers a b ∧ x.src ∈ act.env.auths)
          (State.empty balance) tr))
    (Q := fun _ a act b => act.call.isSome = true → ∀ t x, x ≠ currentContractAddress →
      x ∉ act.env.auths → a.balance t x ≤ b.balance t x)
    ⟨.empty balance, rfl, fun x hx => by cases hx⟩ fun tr s act s' hI hact => ?_
  · exact ⟨hall.1.2.2, hall.2⟩
  · obtain ⟨hwf, hnow, hsigned⟩ := hI
    have hwf' := hact.wf hwf
    cases hact with
    | elsewhere balance' =>
      refine ⟨⟨hwf', rfl, fun x hx => ?_⟩, fun hcall => by cases hcall⟩
      obtain ⟨hpos, hsrc⟩ := hsigned x hx
      exact ⟨hpos, hsrc.imp_right fun hearlier => happened_cons.mpr (.inr hearlier)⟩
    | @call _ env call h =>
      obtain ⟨ms, hms⟩ := exec_posts hwf h
      have hnew : newTransfers s s' = ms := by
        have hlog : s'.transfers = s.transfers ++ ms := hms.logged
        rw [newTransfers, hlog, List.drop_left]
      have hlater : ∀ x ∈ s'.transfers, 0 ≤ x.amount ∧ (x.src = currentContractAddress ∨
          Happened (fun a act b => x ∈ newTransfers a b ∧ x.src ∈ act.env.auths)
            (State.empty balance) ((⟨env, some call⟩, s') :: tr)) := by
        intro x hx
        have hlog : s'.transfers = s.transfers ++ ms := hms.logged
        rw [hlog] at hx
        rcases List.mem_append.mp hx with hx | hx
        · obtain ⟨hpos, hsrc⟩ := hsigned x hx
          exact ⟨hpos, hsrc.imp_right fun hearlier => happened_cons.mpr (.inr hearlier)⟩
        · obtain ⟨hpos, hsrc⟩ := hms.charges x hx
          refine ⟨hpos, hsrc.imp_right fun hauth => happened_cons.mpr (.inl ⟨?_, hauth⟩)⟩
          rw [hnow, hnew]
          exact hx
      exact ⟨⟨hwf', rfl, hlater⟩, fun _ t x hx hauth => hms.unsigned hx hauth⟩

end Runs

section Sales

open Scenario

/-- After the sale the same tokens are there, the contract's and the payments to it included. -/
theorem sale_conserves : ∃ (s : State) (accounts : Finset Address),
    play (State.empty funds) sale = .ok s ∧
      ∑ a ∈ accounts, s.balance token a = ∑ a ∈ accounts, funds token a := by
  obtain ⟨s, hs⟩ : ∃ s, play (State.empty funds) sale = .ok s := played_of_isOk (by decide)
  obtain ⟨tr, hrun⟩ : ∃ tr, Run (Restrict ActStep CallsOnly) (State.empty funds) tr s :=
    play_run hs (fun _ _ _ => rfl) .start
  obtain ⟨accounts, htokens⟩ := tokens_conserved hrun
  exact ⟨s, accounts, hs, (htokens token).1⟩

theorem price_signed : ∃ (tr : List (Act × State)) (x : TokenTransfer),
    x.src = buyer ∧ x.ref = .price 0 ∧
    Happened (fun a act b => x ∈ newTransfers a b ∧ x.src ∈ act.env.auths)
      (State.empty funds) tr := by
  obtain ⟨s, hs, x, hx, hsrc, href⟩ : ∃ s, play (State.empty funds) sale = .ok s ∧
      ∃ x ∈ s.transfers, x.src = buyer ∧ x.ref = .price 0 := ⟨_, rfl, by decide⟩
  obtain ⟨tr, hrun⟩ : ∃ tr, Run (Restrict ActStep Always) (State.empty funds) tr s :=
    play_run hs (fun _ _ _ => trivial) .start
  obtain ⟨-, hcontract | hsigned⟩ := (payments_signed (hrun.mono fun _ _ _ h => h.1)).1 x hx
  · rw [hsrc] at hcontract
    cases hcontract
  · exact ⟨tr, x, hsrc, href, hsigned⟩

end Sales

end AtomicIp.AtomicSwap
