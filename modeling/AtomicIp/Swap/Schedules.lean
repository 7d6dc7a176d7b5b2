import AtomicIp.Swap.Docket

/-!
Sales on a payment schedule, paid entry by entry in any order. What each payment announces as
remaining is counted from its place in the schedule, not from what is still open.
-/

set_option autoImplicit false

namespace AtomicIp.AtomicSwap

open Function Tx

/-- No operation on the swap: its entries in the storage are as they were. -/
structure SameSale (i : ℕ) (s t : State) : Prop where
  swap : t.swap i = s.swap i
  schedule : t.paymentSchedule i = s.paymentSchedule i
  made : t.paymentsMade i = s.paymentsMade i

/-- The buyer pays the entries in this order, whatever else happens in between. Each payment goes
through, is announced with the number of entries still open, and the last one makes the sale
accepted; in the end he has paid the price. -/
def PaysOff (i : ℕ) (schedule : List PaymentSchedule) (r : SwapRecord) :
    List ℕ → ℤ → State → Prop
  | [], total, _ => total = r.price
  | index :: rest, total, s => ∀ tr t env payment, Run ActStep s tr t → SameSale i s t →
      r.buyer ∈ env.auths → schedule[index]? = some payment →
      payment.dueTimestamp ≤ env.timestamp → payment.amount ≤ t.balance r.token r.buyer →
        ∃ t', makeScheduledPayment env i index t = .ok ((), t') ∧
          t'.transfers = t.transfers ++ [priceOf i r payment.amount] ∧
          t'.events.getLast? =
            some ⟨"sched_pay", .scheduledPaymentMade i index payment.amount rest.length⟩ ∧
          ((∃ r', t'.swap i = some r' ∧ r'.status = .accepted) ↔ rest = []) ∧
          PaysOff i schedule r rest (total + payment.amount) t'

section Totals

variable {schedule : List PaymentSchedule} {total : ℤ}

theorem foldl_saturating (hpos : ∀ payment ∈ schedule, 0 ≤ payment.amount) (htotal : 0 ≤ total)
    (hmax : total ≤ i128Max) : schedule.foldl (fun total payment =>
      saturatingI128 (total + payment.amount)) total =
        min i128Max (total + (schedule.map PaymentSchedule.amount).sum) := by
  induction schedule generalizing total with
  | nil =>
    simp only [List.foldl_nil, List.map_nil, List.sum_nil, add_zero]
    omega
  | cons payment rest ih =>
    have hhead : 0 ≤ payment.amount := hpos payment (by simp)
    have hrest : ∀ p ∈ rest, 0 ≤ p.amount := fun p hp => hpos p (by simp [hp])
    have hsum : 0 ≤ (rest.map PaymentSchedule.amount).sum := by
      refine List.sum_nonneg fun x hx => ?_
      obtain ⟨p, hp, rfl⟩ := List.mem_map.mp hx
      exact hrest p hp
    have hnew : saturatingI128 (total + payment.amount) = min i128Max (total + payment.amount) := by
      simp only [saturatingI128, saturate, i128Min]
      omega
    rw [List.foldl_cons, ih hrest (by rw [hnew]; unfold i128Max; omega) (by omega), hnew,
      List.map_cons, List.sum_cons]
    omega

def amountAt (schedule : List PaymentSchedule) (index : ℕ) : ℤ :=
  (schedule[index]?.map PaymentSchedule.amount).getD 0

theorem sum_amountAt : ((List.range schedule.length).map (amountAt schedule)).sum =
    (schedule.map PaymentSchedule.amount).sum := by
  congr 1
  refine List.ext_getElem (by simp) fun j _ hj => ?_
  simp [amountAt, List.getElem?_eq_getElem (by simpa using hj)]

end Totals

section Payments

variable {env : Env} {s s' : State} {i index : ℕ} {r : SwapRecord} {payment : PaymentSchedule}
  {schedule : List PaymentSchedule} {made : List Bool} {u : Unit}

theorem makeScheduledPayment_runs (hr : s.swap i = some r) (hauth : r.buyer ∈ env.auths)
    (hschedule : s.paymentSchedule i = some schedule) (hmade : s.paymentsMade i = some made)
    (hpayment : schedule[index]? = some payment) (hopen : made[index]? = some false)
    (hdue : payment.dueTimestamp ≤ env.timestamp)
    (hfunds : payment.amount ≤ s.balance r.token r.buyer) :
    (∃ s', makeScheduledPayment env i index s = .ok ((), s')) ↔ 0 ≤ payment.amount := by
  constructor
  · intro h
    obtain ⟨s', h⟩ := h
    obtain ⟨r', r'', payment', hpays⟩ := makeScheduledPayment_pays h
    obtain ⟨schedule', hschedule', hpayment'⟩ := hpays.scheduled
    obtain rfl : schedule = schedule' := Option.some.inj (hschedule.symm.trans hschedule')
    obtain rfl : payment = payment' := Option.some.inj (hpayment.symm.trans hpayment')
    exact hpays.nonneg
  · intro hpos
    have h₁ : requireSwapExists i s = .ok (r, s) := requireSwapExists_ok.mpr ⟨hr, rfl⟩
    have h₂ : (requireAuth env.auths r.buyer : SwapTx Unit) s = .ok ((), s) :=
      requireAuth_ok.mpr ⟨hauth, rfl⟩
    have h₃ : (orFail (some schedule) .swapNotFound : SwapTx _) s = .ok (schedule, s) := rfl
    have hlt : index < schedule.length := (List.getElem?_eq_some_iff.mp hpayment).1
    have hlt' : index < made.length := (List.getElem?_eq_some_iff.mp hopen).1
    have h₄ : (require (index < schedule.length) .invalidKey : SwapTx Unit) s = .ok ((), s) :=
      require_ok.mpr ⟨hlt, rfl⟩
    have h₅ : (require (made.getD index false = false) .alreadyInit : SwapTx Unit) s =
        .ok ((), s) := by
      refine require_ok.mpr ⟨?_, rfl⟩
      rw [List.getD_eq_getElem?_getD, hopen]
      rfl
    have h₆ : (Tx.orAbort schedule[index]? .unwrap : SwapTx _) s = .ok (payment, s) :=
      orAbort_ok.mpr ⟨hpayment, rfl⟩
    have h₇ : (require (payment.dueTimestamp ≤ env.timestamp) .notExpired : SwapTx Unit) s =
        .ok ((), s) := require_ok.mpr ⟨hdue, rfl⟩
    have h₈ : transfer r.token r.buyer currentContractAddress payment.amount (.price i) s =
        .ok ((), _) := transfer_ok.mpr ⟨⟨hpos, hfunds⟩, rfl⟩
    have h₉ : ∀ t : State, (Tx.ensure (index < made.length) .unwrap : SwapTx Unit) t =
        .ok ((), t) := fun t => ensure_ok.mpr ⟨hlt', rfl⟩
    rw [makeScheduledPayment, bind_of_ok h₁, bind_of_ok h₂, Tx.load_bind, hschedule,
      bind_of_ok h₃, bind_of_ok h₄, Tx.load_bind, hmade, Option.getD_some, bind_of_ok h₅,
      bind_of_ok h₆, bind_of_ok h₇, bind_of_ok h₈, bind_of_ok (h₉ _)]
    by_cases hdone : ∀ flag ∈ made.set index true, flag = true
    · simp only [Tx.onlyIf, if_pos hdone]
      exact ⟨_, rfl⟩
    · simp only [Tx.onlyIf, if_neg hdone]
      exact ⟨_, rfl⟩

theorem makeScheduledPayment_tells (h : makeScheduledPayment env i index s = .ok (u, s'))
    (hschedule : s.paymentSchedule i = some schedule) (hpayment : schedule[index]? = some payment) :
    s'.events.getLast? = some ⟨"sched_pay",
      .scheduledPaymentMade i index payment.amount (schedule.length - (index + 1))⟩ := by
  simp [makeScheduledPayment] at h
  obtain ⟨r, hr, hauth, schedule', hschedule', -, hunpaid, payment', hpayment', -, hpos, hlisted,
    s₁, hlast, rfl⟩ := h
  obtain rfl : schedule = schedule' := Option.some.inj (hschedule.symm.trans hschedule')
  obtain rfl : payment = payment' := Option.some.inj (hpayment.symm.trans hpayment')
  exact List.getLast?_concat

end Payments

section Progress

variable {env : Env} {s s' t : State} {i index : ℕ} {r : SwapRecord} {payment : PaymentSchedule}
  {schedule : List PaymentSchedule} {rest order : List ℕ} {total : ℤ}

def flagsOf (count : ℕ) (order : List ℕ) : List Bool :=
  (List.range count).map fun index => decide (index ∉ order)

structure Underway (i : ℕ) (schedule : List PaymentSchedule) (r : SwapRecord) (order : List ℕ)
    (s : State) : Prop where
  swap : order ≠ [] → s.swap i = some r
  pending : r.status ≠ .accepted
  listed : s.paymentSchedule i = some schedule
  made : s.paymentsMade i = some (flagsOf schedule.length order)

theorem flagsOf_getElem? (h : index < schedule.length) :
    (flagsOf schedule.length order)[index]? = some (decide (index ∉ order)) := by
  simp [flagsOf, h]

theorem flagsOf_set (hnew : index ∉ rest) {count : ℕ} :
    (flagsOf count (index :: rest)).set index true = flagsOf count rest := by
  refine List.ext_getElem (by simp [flagsOf]) fun j _ hj => ?_
  by_cases hji : j = index
  · subst hji
    simp [flagsOf, hnew]
  · simp [flagsOf, hji, Ne.symm hji]

theorem flagsOf_done {count : ℕ} (hlt : ∀ index ∈ order, index < count) :
    (∀ flag ∈ flagsOf count order, flag = true) ↔ order = [] := by
  constructor
  · intro hall
    refine List.eq_nil_iff_forall_not_mem.mpr fun index hmem => ?_
    have hflag := hall (decide (index ∉ order))
      (List.mem_map.mpr ⟨index, List.mem_range.mpr (hlt index hmem), rfl⟩)
    simp [hmem] at hflag
  · rintro rfl flag hflag
    obtain ⟨index, -, rfl⟩ := List.mem_map.mp hflag
    simp

theorem Underway.kept (h : Underway i schedule r order s) (hsame : SameSale i s t) :
    Underway i schedule r order t where
  swap hsome := hsame.swap.trans (h.swap hsome)
  pending := h.pending
  listed := hsame.schedule.trans h.listed
  made := hsame.made.trans h.made

theorem Underway.paid {u : Unit} (h : Underway i schedule r (index :: rest) s)
    (hnew : index ∉ rest) (hlt : ∀ j ∈ rest, j < schedule.length)
    (hpayment : schedule[index]? = some payment)
    (hpaid : makeScheduledPayment env i index s = .ok (u, s')) :
    Underway i schedule r rest s' ∧ s'.transfers = s.transfers ++ [priceOf i r payment.amount] ∧
      ((∃ r', s'.swap i = some r' ∧ r'.status = .accepted) ↔ rest = []) := by
  obtain ⟨r₀, r', payment', hpays⟩ := makeScheduledPayment_pays hpaid
  obtain rfl : r = r₀ := Option.some.inj ((h.swap (by simp)).symm.trans hpays.stored)
  obtain ⟨schedule', hschedule', hpayment'⟩ := hpays.scheduled
  obtain rfl : schedule = schedule' := Option.some.inj (h.listed.symm.trans hschedule')
  obtain rfl : payment = payment' := Option.some.inj (hpayment.symm.trans hpayment')
  have hflags : ((s.paymentsMade i).getD []).set index true = flagsOf schedule.length rest := by
    rw [h.made, Option.getD_some, flagsOf_set hnew]
  have hdone : ScheduleDone s i index ↔ rest = [] := by
    rw [ScheduleDone, hflags, flagsOf_done hlt]
  have hswap : s'.swap i = some r' := by
    have hescrow := congrArg (fun c => Escrow.swap c i) hpays.escrow
    simpa [Escrow.pay, Escrow.setSwap] using hescrow
  have hexec : exec env (.makeScheduledPayment i index) s = .ok (u, s') := hpaid
  have hbook : s'.paymentSchedule = s.paymentSchedule :=
    congrArg Docket.paymentSchedule (exec_docket hexec id)
  refine ⟨⟨fun hsome => ?_, h.pending, ?_, ?_⟩, ?_, ?_⟩
  · rw [hswap, hpays.open_ fun hall => hsome (hdone.mp hall)]
  · rw [hbook]
    exact h.listed
  · rw [hpays.made, update_self, hflags]
  · exact congrArg Escrow.transfers hpays.escrow
  · rw [hswap]
    by_cases hrest : rest = []
    · refine iff_of_true ⟨r', rfl, ?_⟩ hrest
      rw [hpays.done (hdone.mpr hrest)]
      rfl
    · refine iff_of_false (fun hto => ?_) hrest
      obtain ⟨r'', hr'', hstatus⟩ := hto
      obtain rfl := Option.some.inj hr''
      rw [hpays.open_ fun hall => hrest (hdone.mp hall)] at hstatus
      exact h.pending hstatus

theorem payment_possible (payment : PaymentSchedule) : ∃ tr t env, Run ActStep s tr t ∧
    SameSale i s t ∧ r.buyer ∈ Env.auths env ∧ payment.dueTimestamp ≤ Env.timestamp env ∧
      payment.amount ≤ t.balance r.token r.buyer := by
  let rich : Address → Address → ℤ := fun t a => max (s.balance t a) payment.amount
  let env : Env := ⟨payment.dueTimestamp, [r.buyer], fun _ => ⟨fun _ => none, fun _ _ _ => none⟩,
    fun _ _ => none⟩
  have hstep : ActStep s ⟨env, none⟩ { s with balance := rich } :=
    .elsewhere rich fun t => le_max_left _ _
  exact ⟨_, _, env, Run.start.next hstep, ⟨rfl, rfl, rfl⟩, by simp [env], le_rfl, le_max_right _ _⟩

theorem range'_cons_iff {count : ℕ} (hlt : index < count) (hle : rest.length < count) :
    index :: rest = List.range' (count - (rest.length + 1)) (rest.length + 1) ↔
      rest.length = count - (index + 1) ∧ rest = List.range' (count - rest.length) rest.length := by
  have hnext : count - (rest.length + 1) + 1 = count - rest.length := by omega
  rw [List.range'_succ, List.cons.injEq, hnext]
  refine and_congr_left fun _ => ?_
  omega

theorem paysOff_iff (h : Underway i schedule r order s) (hnodup : order.Nodup)
    (hlt : ∀ index ∈ order, index < schedule.length) (hle : order.length ≤ schedule.length) :
    PaysOff i schedule r order total s ↔
      (∀ index ∈ order, 0 ≤ amountAt schedule index) ∧
      order = List.range' (schedule.length - order.length) order.length ∧
      total + (order.map (amountAt schedule)).sum = r.price := by
  induction order generalizing s total with
  | nil => simp [PaysOff]
  | cons index rest ih =>
    obtain ⟨hnew, hnodup⟩ := List.nodup_cons.mp hnodup
    have hindex : index < schedule.length := hlt index (by simp)
    have hrest : ∀ j ∈ rest, j < schedule.length := fun j hj => hlt j (by simp [hj])
    have hshort : rest.length < schedule.length := by simpa using hle
    have hpayment : schedule[index]? = some schedule[index] := List.getElem?_eq_getElem hindex
    have hamount : amountAt schedule index = schedule[index].amount := by
      simp [amountAt, hpayment]
    have hopen : (flagsOf schedule.length (index :: rest))[index]? = some false := by
      simp [flagsOf_getElem? hindex]
    rw [List.length_cons, range'_cons_iff hindex hshort, List.forall_mem_cons, List.map_cons,
      List.sum_cons, hamount]
    constructor
    · intro hpays
      obtain ⟨tr, t, env, hrun, hsame, hauth, hdue, hfunds⟩ := payment_possible schedule[index]
      obtain ⟨t', hok, htransfers, hevent, haccepted, hlater⟩ :=
        hpays tr t env _ hrun hsame hauth hpayment hdue hfunds
      have ht := h.kept hsame
      obtain ⟨hunder, -⟩ := ht.paid hnew hrest hpayment hok
      have hpos := (makeScheduledPayment_runs (ht.swap (by simp)) hauth ht.listed ht.made hpayment
        hopen hdue hfunds).mp ⟨t', hok⟩
      have htold := makeScheduledPayment_tells hok ht.listed hpayment
      have hcount : rest.length = schedule.length - (index + 1) := by
        rw [hevent] at htold
        simpa using htold
      obtain ⟨hall, horder, htotal⟩ := (ih hunder hnodup hrest hshort.le).mp hlater
      exact ⟨⟨hpos, hall⟩, ⟨hcount, horder⟩, by omega⟩
    · intro hconds
      obtain ⟨⟨hpos, hall⟩, ⟨hcount, horder⟩, htotal⟩ := hconds
      intro tr t env payment hrun hsame hauth hpayment' hdue hfunds
      obtain rfl : schedule[index] = payment := Option.some.inj (hpayment.symm.trans hpayment')
      have ht := h.kept hsame
      obtain ⟨t', hok⟩ := (makeScheduledPayment_runs (ht.swap (by simp)) hauth ht.listed ht.made
        hpayment hopen hdue hfunds).mpr hpos
      obtain ⟨hunder, htransfers, haccepted⟩ := ht.paid hnew hrest hpayment hok
      have htold := makeScheduledPayment_tells hok ht.listed hpayment
      rw [← hcount] at htold
      refine ⟨t', hok, htransfers, htold, haccepted, ?_⟩
      exact (ih hunder hnodup hrest hshort.le).mpr ⟨hall, horder, by omega⟩

end Progress

section Sales

variable {env : Env} {s s' : State} {token seller buyer : Address} {i ipId : ℕ} {r : SwapRecord}
  {schedule : List PaymentSchedule} {order : List ℕ}

def State.scheduleBook (s : State) :
    (ℕ → Option (List PaymentSchedule)) × (ℕ → Option (List Bool)) :=
  (s.paymentSchedule, s.paymentsMade)

instance : Aside State.scheduleBook := ⟨fun _ _ _ => rfl⟩

instance : Blind .indexes State.scheduleBook := ⟨fun _ => rfl⟩

instance : Blind .history State.scheduleBook := ⟨fun _ => rfl⟩

theorem flagsOf_all {count : ℕ} (horder : order.Perm (List.range count)) :
    flagsOf count order = List.replicate count false := by
  refine List.ext_getElem (by simp [flagsOf]) fun j hj _ => ?_
  have hmem : j ∈ order := horder.mem_iff.mpr (by simpa [flagsOf] using hj)
  simp [flagsOf, hmem]

theorem initiateSwapWithSchedule_underway
    (h : initiateSwapWithSchedule env token ipId seller schedule buyer s = .ok (i, s'))
    (hr : s'.swap i = some r) (horder : order.Perm (List.range schedule.length)) :
    Underway i schedule r order s' ∧ r.price =
      schedule.foldl (fun total payment => saturatingI128 (total + payment.amount)) 0 := by
  obtain ⟨-, -, -, -, rfl, r', s₁, s₂, rfl, hopen, hindex, hannounce⟩ :=
    initiateSwapWithSchedule_opening h
  have e₂ := appendIpSwap_escrow hindex
  have hescrow := opening_escrow rfl hopen (by simpa using e₂) hannounce
  have hswap : s'.swap s.escrow.count = some _ :=
    (congrArg (fun c => Escrow.swap c s.escrow.count) hescrow).trans (update_self ..)
  obtain rfl := Option.some.inj (hr.symm.trans hswap)
  have hbook : s'.scheduleBook = _ :=
    (Keeps.eq State.scheduleBook hannounce).trans (Keeps.eq State.scheduleBook hindex)
  have hlisted := congrFun (congrArg Prod.fst hbook) s.escrow.count
  have hmade := congrFun (congrArg Prod.snd hbook) s.escrow.count
  refine ⟨⟨fun _ => hr, by simp [SwapRecord.inInstallments, pendingSwap], ?_, ?_⟩, rfl⟩
  · exact hlisted.trans (update_self ..)
  · rw [flagsOf_all horder]
    exact hmade.trans (update_self ..)

/-- The payments of a schedule go as announced in exactly one order, its own, and only if no entry
is negative and the price is really their sum. -/
theorem schedule_pays_off_iff
    (h : initiateSwapWithSchedule env token ipId seller schedule buyer s = .ok (i, s'))
    (hr : s'.swap i = some r) (horder : order.Perm (List.range schedule.length)) :
    PaysOff i schedule r order 0 s' ↔ order = List.range schedule.length ∧
      (∀ payment ∈ schedule, 0 ≤ payment.amount) ∧
      (schedule.map PaymentSchedule.amount).sum ≤ i128Max := by
  obtain ⟨hunder, hprice⟩ := initiateSwapWithSchedule_underway h hr horder
  have hlength : order.length = schedule.length := by simpa using horder.length_eq
  have hnodup : order.Nodup := horder.nodup_iff.mpr List.nodup_range
  have hlt : ∀ index ∈ order, index < schedule.length :=
    fun index hmem => List.mem_range.mp (horder.mem_iff.mp hmem)
  have hamounts : (∀ index ∈ order, 0 ≤ amountAt schedule index) ↔
      ∀ payment ∈ schedule, 0 ≤ payment.amount := by
    constructor
    · intro hall payment hmem
      obtain ⟨index, hindex, rfl⟩ := List.getElem_of_mem hmem
      have hpos := hall index (horder.mem_iff.mpr (List.mem_range.mpr hindex))
      simpa [amountAt, hindex] using hpos
    · intro hall index hmem
      have hindex := hlt index hmem
      simpa [amountAt, hindex] using hall schedule[index] (List.getElem_mem hindex)
  have hsum : (order.map (amountAt schedule)).sum = (schedule.map PaymentSchedule.amount).sum := by
    rw [(horder.map _).sum_eq, sum_amountAt]
  rw [paysOff_iff hunder hnodup hlt hlength.le, hamounts, hsum, hlength, Nat.sub_self, zero_add,
    ← List.range_eq_range']
  constructor
  · intro hconds
    obtain ⟨hpos, hinorder, htotal⟩ := hconds
    rw [hprice, foldl_saturating hpos le_rfl (by decide)] at htotal
    exact ⟨hinorder, hpos, by omega⟩
  · intro hconds
    obtain ⟨hinorder, hpos, hmax⟩ := hconds
    refine ⟨hpos, hinorder, ?_⟩
    rw [hprice, foldl_saturating hpos le_rfl (by decide)]
    omega

end Sales

section Scenes

open Scenario

def halves : List PaymentSchedule := [⟨2, 500⟩, ⟨3, 500⟩]

def answersWith {α : Type} (x : SwapTx α) (s : State) (seen : α → State → Bool) : Bool :=
  match x s with
  | .ok (a, s') => seen a s'
  | .error _ => false

theorem answers_of_seen {α : Type} {x : SwapTx α} {s : State} {seen : α → State → Bool}
    (h : answersWith x s seen = true) : ∃ a s', x s = .ok (a, s') ∧ seen a s' = true := by
  unfold answersWith at h
  cases hx : x s with
  | error e => simp [hx] at h
  | ok p =>
    rw [hx] at h
    exact ⟨p.1, p.2, rfl, h⟩

def seenOpen (id : ℕ) (s : State) : Bool :=
  decide (id = 0) && (s.swap 0).any fun r => r.buyer = buyer ∧ 500 ≤ s.balance r.token r.buyer

theorem open_of_seen {id : ℕ} {s : State} (h : seenOpen id s = true) :
    id = 0 ∧ ∃ r, s.swap 0 = some r ∧ r.buyer = buyer ∧ 500 ≤ s.balance r.token r.buyer := by
  simpa [seenOpen, Option.any_eq_true] using h

theorem halves_offered : ∃ s s' r, ActStep (State.empty funds)
      ⟨env [] 0, some (.initializeContract registry)⟩ s ∧
    initiateSwapWithSchedule (env [seller] 1) token 1 seller halves buyer s = .ok (0, s') ∧
    s'.swap 0 = some r ∧ r.buyer = buyer ∧ 500 ≤ s'.balance r.token r.buyer := by
  have hseen : answersWith (exec (env [] 0) (.initializeContract registry)) (State.empty funds)
      (fun _ s => answersWith
        (initiateSwapWithSchedule (env [seller] 1) token 1 seller halves buyer)
        s seenOpen) = true := by decide +kernel
  obtain ⟨_, s, h₁, hseen⟩ := answers_of_seen hseen
  obtain ⟨id, s', h₂, hseen⟩ := answers_of_seen hseen
  obtain ⟨rfl, r, hr, hbuyer, hfunds⟩ := open_of_seen hseen
  exact ⟨s, s', r, .call h₁, h₂, hr, hbuyer, hfunds⟩

theorem halves_paid_in_order : ∃ s s' r,
    initiateSwapWithSchedule (env [seller] 1) token 1 seller halves buyer s = .ok (0, s') ∧
    s'.swap 0 = some r ∧ PaysOff 0 halves r [0, 1] 0 s' := by
  obtain ⟨s, s', r, -, h, hr, -⟩ := halves_offered
  refine ⟨s, s', r, h, hr, (schedule_pays_off_iff h hr (.refl _)).mpr ⟨rfl, ?_, ?_⟩⟩
  · simp [halves]
  · simp [halves, i128Max]

/-- The second half is paid first, and announced as the last. -/
theorem half_left_unannounced : ∃ tr s s' r,
    Run ActStep (State.empty funds) tr s ∧
    initiateSwapWithSchedule (env [seller] 1) token 1 seller halves buyer s = .ok (0, s') ∧
    s'.swap 0 = some r ∧ [1, 0].Perm (List.range halves.length) ∧
    ¬ PaysOff 0 halves r [1, 0] 0 s' := by
  obtain ⟨s, s', r, h₁, h₂, hr, hbuyer, hfunds⟩ := halves_offered
  refine ⟨_, s, s', r, Run.start.next h₁, h₂, hr, by decide, fun hpays => ?_⟩
  obtain ⟨hunder, -⟩ := initiateSwapWithSchedule_underway h₂ hr (.refl _)
  have hauth : r.buyer ∈ (env [buyer] 3).auths := by simp [hbuyer, env]
  obtain ⟨t', hok, -, htold, -⟩ := hpays [] s' (env [buyer] 3) ⟨3, 500⟩ .start ⟨rfl, rfl, rfl⟩ hauth
    rfl le_rfl hfunds
  have hreally := makeScheduledPayment_tells hok hunder.listed rfl
  rw [htold] at hreally
  simp [halves] at hreally

end Scenes

end AtomicIp.AtomicSwap
