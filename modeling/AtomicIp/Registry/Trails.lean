import AtomicIp.Registry.Views

/-!
The audit trail of an IP against its record. Transfers, revocations and merges are entered for
every IP, but of the entry points that register one only `commit_ip` enters it.
-/

set_option autoImplicit false

namespace AtomicIp.IpRegistry

open Function Tx

def Books.trail (b : Books) (ipId : ℕ) : List AuditEntry := (b.ipAuditTrail ipId).getD []

def State.trail (s : State) (ipId : ℕ) : List AuditEntry := (s.ipAuditTrail ipId).getD []

def trailOwner (trail : List AuditEntry) : Option Address :=
  (trail.reverse.find? fun entry => entry.action = "committed" ∨ entry.action = "xferred").map
    AuditEntry.actor

/-- The record can be read off the trail, which has only grown. -/
structure Reconstructs (tr : List (Act × State)) (s : State) (ipId : ℕ) (r : IpRecord) :
    Prop where
  shown : getIpAuditTrail ipId s = .ok (s.trail ipId, s)
  first : (s.trail ipId).head?.map AuditEntry.action = some "committed"
  extended : ∀ v ∈ visited State.empty tr, v.trail ipId <+: s.trail ipId
  owner : trailOwner (s.trail ipId) = some r.owner
  revoked : r.revoked = true ↔ ∃ entry ∈ s.trail ipId, entry.action = "revoked"

/-- What a trail tells about the record, with or without an entry for its registration. -/
structure Tells (committed : Bool) (trail : List AuditEntry) (r : IpRecord) : Prop where
  first : committed = true → trail.head?.map AuditEntry.action = some "committed"
  silent : committed = false → ∀ entry ∈ trail, entry.action ≠ "committed"
  owner : trailOwner trail = some r.owner ∨ trailOwner trail = none ∧ committed = false
  revoked : r.revoked = true ↔ ∃ entry ∈ trail, entry.action = "revoked"

theorem getIpAuditTrail_eq {s : State} {ipId : ℕ} {r : IpRecord}
    (hr : s.ledger.ipRecord ipId = some r) :
    getIpAuditTrail ipId s = .ok (s.trail ipId, s) :=
  Tx.bind_of_ok (requireIpExists_ok.mpr ⟨hr, rfl⟩)

theorem trailOwner_append (trail : List AuditEntry) (entry : AuditEntry) :
    trailOwner (trail ++ [entry]) =
      if entry.action = "committed" ∨ entry.action = "xferred" then some entry.actor
      else trailOwner trail := by
  rw [trailOwner, List.reverse_append, List.reverse_singleton, List.singleton_append,
    List.find?_cons]
  by_cases h : entry.action = "committed" ∨ entry.action = "xferred"
  · simp [h]
  · simp [h, trailOwner]

namespace Tells

variable {committed : Bool} {trail : List AuditEntry} {r r' : IpRecord} {entry : AuditEntry}

theorem unlisted (h : r.revoked = false) : Tells false [] r where
  first h := by cases h
  silent _ := by simp
  owner := .inr ⟨rfl, rfl⟩
  revoked := by simp [h]

theorem registered (haction : entry.action = "committed") (howner : r.owner = entry.actor)
    (hlive : r.revoked = false) : Tells true [entry] r where
  first _ := by simp [haction]
  silent h := by cases h
  owner := by simp [trailOwner, haction, howner]
  revoked := by simp [hlive, haction]

theorem congr (h : Tells committed trail r) (howner : r'.owner = r.owner)
    (hrevoked : r'.revoked = r.revoked) : Tells committed trail r' where
  first := h.first
  silent := h.silent
  owner := howner ▸ h.owner
  revoked := hrevoked ▸ h.revoked

theorem append (h : Tells committed trail r) (haction : entry.action ≠ "committed")
    (howner : entry.action = "xferred" ∧ r'.owner = entry.actor ∨
      entry.action ≠ "xferred" ∧ r'.owner = r.owner)
    (hrevoked : r'.revoked = true ↔ r.revoked = true ∨ entry.action = "revoked") :
    Tells committed (trail ++ [entry]) r' where
  first hcommitted := by
    have hfirst := h.first hcommitted
    cases trail with
    | nil => cases hfirst
    | cons e trail => exact hfirst
  silent hcommitted e he := by
    rcases List.mem_append.mp he with he | he
    · exact h.silent hcommitted e he
    · rwa [List.mem_singleton.mp he]
  owner := by
    rw [trailOwner_append]
    rcases howner with ⟨hpassed, hnew⟩ | ⟨hkept, hsame⟩
    · rw [if_pos (.inr hpassed), hnew]
      exact .inl rfl
    · rw [if_neg (by simp [haction, hkept]), hsame]
      exact h.owner
  revoked := by
    rw [hrevoked, h.revoked]
    constructor
    · rintro (⟨e, he, hrev⟩ | hrev)
      · exact ⟨e, List.mem_append_left _ he, hrev⟩
      · exact ⟨entry, by simp, hrev⟩
    · rintro ⟨e, he, hrev⟩
      rcases List.mem_append.mp he with he | he
      · exact .inl ⟨e, he, hrev⟩
      · rw [List.mem_singleton.mp he] at hrev
        exact .inr hrev

end Tells

namespace Books

variable {env : Env} {b b' : Books} {i j : ℕ} {entry : AuditEntry}
  {origin : ℕ → Option (BytesN 32)} {owner : Address} {hash : BytesN 32} {r r' : IpRecord}

@[simp] theorem trail_log {sha256 : Bytes → BytesN 32} : (b.log sha256).trail i = b.trail i := by
  simp only [trail, log_ipAuditTrail]

theorem trail_audit_self : (b.audit i entry).trail i = b.trail i ++ [entry] := by
  simp [trail, audit]

theorem trail_audit_of_ne (h : j ≠ i) : (b.audit i entry).trail j = b.trail j := by
  simp [trail, audit, h]

theorem trail_audit_prefix : b.trail j <+: (b.audit i entry).trail j := by
  by_cases hj : j = i
  · subst hj
    rw [trail_audit_self]
    exact List.prefix_append _ _
  · exact (trail_audit_of_ne hj).symm ▸ List.prefix_refl (b.trail j)

theorem Step.trail_extended {e : Entry} (hstep : Books.Step env b e b') (i : ℕ) :
    b.trail i <+: b'.trail i := by
  cases hstep with
  | @committed c owner hash =>
    rw [trail_log]
    exact trail_audit_prefix (b := b.onLedger c)
  | logged => exact trail_log.symm ▸ List.prefix_refl (b.trail i)
  | @transferred ipId r owner =>
    exact trail_audit_prefix (b := b.onLedger (b.ledger.transfer ipId r owner))
  | @revoked ipId r actor =>
    exact trail_audit_prefix (b := b.onLedger (b.ledger.setIpRecord ipId (some r.revoke)))
  | merged => exact trail_audit_prefix
  | _ => exact List.prefix_refl _

/-- The trails tell about all records; other ids have none, and were not registered. -/
structure Audited (origin : ℕ → Option (BytesN 32)) (b : Books) : Prop where
  wf : b.ledger.Wf
  absent : ∀ i, b.ledger.ipRecord i = none → origin i = none ∧ b.trail i = []
  tells : ∀ i r, b.ledger.ipRecord i = some r → Tells (origin i).isSome (b.trail i) r

namespace Audited

theorem empty : State.empty.books.Audited fun _ => none where
  wf := .empty
  absent _ _ := ⟨rfl, rfl⟩
  tells i r hr := by cases hr

theorem log {sha256 : Bytes → BytesN 32} (h : b.Audited origin) :
    (b.log sha256).Audited origin where
  wf := by
    rw [log_ledger]
    exact h.wf
  absent i hr := by
    rw [log_ledger] at hr
    rw [trail_log]
    exact h.absent i hr
  tells i r hr := by
    rw [log_ledger] at hr
    rw [trail_log]
    exact h.tells i r hr

theorem write {origin' : ℕ → Option (BytesN 32)} (h : b.Audited origin) (hwf : b'.ledger.Wf)
    (hr : b'.ledger.ipRecord i = some r)
    (hrecords : ∀ j, j ≠ i → b'.ledger.ipRecord j = b.ledger.ipRecord j)
    (htrails : ∀ j, j ≠ i → b'.trail j = b.trail j) (horigin : ∀ j, j ≠ i → origin' j = origin j)
    (htells : Tells (origin' i).isSome (b'.trail i) r) : b'.Audited origin' where
  wf := hwf
  absent j hj := by
    have hne : j ≠ i := by
      rintro rfl
      rw [hr] at hj
      cases hj
    rw [hrecords j hne] at hj
    rw [horigin j hne, htrails j hne]
    exact h.absent j hj
  tells j q hq := by
    by_cases hj : j = i
    · subst hj
      rw [hr] at hq
      rwa [← Option.some.inj hq]
    · rw [hrecords j hj] at hq
      rw [horigin j hj, htrails j hj]
      exact h.tells j q hq

theorem registered {c : Ledger} {parent : Option ℕ} {origin' : ℕ → Option (BytesN 32)}
    (h : b.Audited origin) (henrolls : Enrolls env owner hash parent b.ledger c)
    (hledger : b'.ledger = c) (htrails : ∀ j, j ≠ b.ledger.count → b'.trail j = b.trail j)
    (horigin : ∀ j, j ≠ b.ledger.count → origin' j = origin j)
    (htells : Tells (origin' b.ledger.count).isSome (b'.trail b.ledger.count)
      (newRecord b.ledger.count owner hash env.timestamp parent)) : b'.Audited origin' := by
  subst hledger
  refine h.write (henrolls.wf h.wf) ?_ (fun j hj => ?_) htrails horigin htells
  · rw [henrolls.ledger]
    exact update_self ..
  · rw [henrolls.ledger]
    exact update_of_ne hj _ _

theorem added {c : Ledger} {parent : Option ℕ} (h : b.Audited origin)
    (henrolls : Enrolls env owner hash parent b.ledger c) (hledger : b'.ledger = c)
    (htrail : b'.trail = b.trail) : b'.Audited origin := by
  obtain ⟨horigin, hnone⟩ := h.absent _ h.wf.absent
  refine h.registered henrolls hledger (fun j _ => by rw [htrail]) (fun _ _ => rfl) ?_
  rw [horigin, htrail, hnone]
  exact .unlisted rfl

theorem committed (h : b.Audited origin) (hstep : Books.Step env b (.committed owner hash) b') :
    b'.Audited (update origin b.ledger.count (some hash)) := by
  obtain ⟨-, hnone⟩ := h.absent _ h.wf.absent
  cases hstep with
  | committed henrolls =>
    rename_i c
    refine log (h.registered henrolls rfl (fun j hj => ?_) (fun j hj => update_of_ne hj _ _) ?_)
    · exact trail_audit_of_ne (b := b.onLedger c) hj
    · have hfirst : ((b.onLedger c).audit b.ledger.count
          ⟨"committed", owner, env.timestamp⟩).trail b.ledger.count =
          [⟨"committed", owner, env.timestamp⟩] := by
        rw [trail_audit_self, show (b.onLedger c).trail b.ledger.count = [] from hnone]
        rfl
      have htells : Tells true [⟨"committed", owner, env.timestamp⟩]
          (newRecord b.ledger.count owner hash env.timestamp none) := .registered rfl rfl rfl
      rw [← hfirst] at htells
      rw [update_self]
      exact htells

theorem entered (h : b.Audited origin) (hr : b.ledger.ipRecord i = some r)
    (hwf : b'.ledger.Wf) (hrecord : b'.ledger.ipRecord = update b.ledger.ipRecord i (some r'))
    (htrail : b'.ipAuditTrail = (b.audit i entry).ipAuditTrail)
    (haction : entry.action ≠ "committed")
    (howner : entry.action = "xferred" ∧ r'.owner = entry.actor ∨
      entry.action ≠ "xferred" ∧ r'.owner = r.owner)
    (hrevoked : r'.revoked = true ↔ r.revoked = true ∨ entry.action = "revoked") :
    b'.Audited origin := by
  have htrails : b'.trail = (b.audit i entry).trail := by
    funext j
    rw [trail, htrail]
    rfl
  refine h.write (i := i) (r := r') hwf ?_ (fun j hj => ?_) (fun j hj => ?_) (fun _ _ => rfl) ?_
  · rw [hrecord, update_self]
  · rw [hrecord, update_of_ne hj]
  · rw [htrails, trail_audit_of_ne hj]
  · rw [htrails, trail_audit_self]
    exact (h.tells i r hr).append haction howner hrevoked

theorem step {e : Entry} (hother : ∀ owner hash, e ≠ .committed owner hash)
    (h : b.Audited origin) (hstep : Books.Step env b e b') : b'.Audited origin := by
  have hwf := hstep.wf h.wf
  cases hstep with
  | committed => exact absurd rfl (hother _ _)
  | added henrolls => exact h.added henrolls rfl rfl
  | logged => exact h.log
  | versioned _ henrolls => exact h.added henrolls rfl rfl
  | rotated hmove =>
    cases hmove with
    | rotated hr =>
      refine h.write (r := IpRecord.rehashed _ _) hwf (update_self ..)
        (fun j hj => update_of_ne hj _ _) (fun _ _ => rfl) (fun _ _ => rfl) ?_
      exact (h.tells _ _ hr).congr rfl rfl
  | transferred hr =>
    exact h.entered hr hwf rfl rfl (by simp) (.inl ⟨rfl, rfl⟩) (by simp [IpRecord.ownedBy])
  | revoked hr =>
    exact h.entered hr hwf rfl rfl (by simp) (.inr ⟨by simp, rfl⟩) (by simp [IpRecord.revoke])
  | merged hr =>
    obtain ⟨r, hr⟩ := Option.isSome_iff_exists.mp hr
    have hsame : b.ledger.ipRecord = update b.ledger.ipRecord _ (some r) :=
      (update_eq_self_iff.mpr hr.symm).symm
    exact h.entered hr hwf hsame rfl (by simp) (.inr ⟨by simp, rfl⟩) (by simp)
  | revised r' hr hrevises hrevoked =>
    refine h.write (r := r') hwf (update_self ..) (fun j hj => update_of_ne hj _ _)
      (fun _ _ => rfl) (fun _ _ => rfl) ?_
    exact (h.tells _ _ hr).congr hrevises.owner hrevoked

end Audited

end Books

section Runs

variable {crypto : Crypto} {tr : List (Act × State)} {s s' : State} {act : Act} {i : ℕ}
  {r : IpRecord}

theorem run_audited (hrun : Run (ActStep crypto) State.empty tr s) :
    s.books.Audited (committedHash tr) :=
  run_entries (I := fun origin b => b.Audited origin) .empty
    (fun _ _ _ _ _ _ h hstep => h.committed hstep)
    (fun _ _ _ _ _ hother h hstep => h.step hother hstep) hrun

theorem ActStep.trail_extended (hact : ActStep crypto s act s') (i : ℕ) :
    s.trail i <+: s'.trail i := by
  obtain ⟨es, hpath, -⟩ := exec_books hact
  exact hpath.invariant (I := fun b => s.books.trail i <+: b.trail i) (P := fun _ => True)
    (fun _ _ _ _ hb hstep => hb.trans (hstep.trail_extended i)) (fun _ _ => trivial)
    (List.prefix_refl _)

theorem run_trail_extended (hrun : Run (ActStep crypto) State.empty tr s) (i : ℕ) :
    ∀ v ∈ visited State.empty tr, v.trail i <+: s.trail i := by
  induction hrun with
  | start => simp
  | next hrun hact ih =>
    intro v hv
    rcases List.mem_cons.mp hv with rfl | hv
    · exact List.prefix_refl _
    · exact (ih v hv).trans (hact.trail_extended i)

/-- The record can be read off the trail exactly when `commit_ip` registered the IP. -/
theorem reconstructs_iff (hrun : Run (ActStep crypto) State.empty tr s)
    (hr : s.ipRecord i = some r) :
    Reconstructs tr s i r ↔ (committedHash tr i).isSome = true := by
  have htells := (run_audited hrun).tells i r hr
  constructor
  · intro hreads
    cases horigin : committedHash tr i with
    | some hash => rfl
    | none =>
      rw [horigin] at htells
      obtain ⟨entry, hfirst, haction⟩ := Option.map_eq_some_iff.mp hreads.first
      have hmem : entry ∈ s.books.trail i := List.mem_of_mem_head? hfirst
      exact absurd haction (htells.silent rfl entry hmem)
  · intro horigin
    rw [horigin] at htells
    refine ⟨getIpAuditTrail_eq hr, htells.first rfl, run_trail_extended hrun i, ?_,
      htells.revoked⟩
    rcases htells.owner with howner | ⟨-, hfalse⟩
    · exact howner
    · cases hfalse

end Runs

section Designs

open Scenario

theorem sold_design_told : ∃ (s : State) (r : IpRecord), s.ipRecord 1 = some r ∧
    r.owner = rival ∧ trailOwner (s.trail 1) = some r.owner := by
  obtain ⟨tr, s, hrun, hlabels, hseen⟩ := played State.empty
    [act 5 inventor (.commitIp inventor design 0), act 6 inventor (.transferIp 1 rival)]
    (fun s => (s.ipRecord 1).map IpRecord.owner = some rival) (by decide +kernel)
  obtain ⟨r, hr, howner⟩ := Option.map_eq_some_iff.mp (of_decide_eq_true hseen)
  obtain ⟨⟨a, s₂⟩, tr', rfl, rfl, htr'⟩ := List.map_eq_cons_iff.mp hlabels
  obtain ⟨⟨a', s₁⟩, rfl, rfl⟩ := List.map_eq_singleton_iff.mp htr'
  exact ⟨s, r, hr, howner, ((reconstructs_iff hrun hr).mpr rfl).owner⟩

/-- An IP from a batch has no trail. -/
theorem batch_untold : ∃ (tr : List (Act × State)) (s : State) (r : IpRecord),
    Run (ActStep crypto) State.empty tr s ∧ s.ipRecord 1 = some r ∧ s.trail 1 = [] ∧
      ¬ Reconstructs tr s 1 r := by
  obtain ⟨tr, s, hrun, -, hseen⟩ := played State.empty
    [act 5 inventor (.batchCommitIp inventor [design])]
    (fun s => (s.ipRecord 1).isSome && s.trail 1 = []) (by decide +kernel)
  simp only [Bool.and_eq_true, decide_eq_true_eq] at hseen
  obtain ⟨r, hr⟩ := Option.isSome_iff_exists.mp hseen.1
  refine ⟨tr, s, r, hrun, hr, hseen.2, fun hreads => ?_⟩
  have hfirst := hreads.first
  rw [hseen.2] at hfirst
  cases hfirst

end Designs

end AtomicIp.IpRegistry
