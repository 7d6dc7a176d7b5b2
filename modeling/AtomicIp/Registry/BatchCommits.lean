import AtomicIp.Lib.Batch
import AtomicIp.Registry.Records
import AtomicIp.Registry.Trails

/-!
The batch of commitments against the loop of single ones. Both take the same hashes and give out
the same ids, but what a single commitment derives from its hash the batch leaves out.
-/

set_option autoImplicit false

namespace AtomicIp.IpRegistry

open Function Tx

section Elements

variable {env : Env} {s s' : State} {owner : Address} {hash : BytesN 32} {id : ℕ}

/-- Nothing stands against registering the hash next. -/
structure Fresh (hash : BytesN 32) (c : Ledger) : Prop where
  nonzero : hash ≠ .zero 32
  free : c.commitmentOwner hash = none
  count : c.count + 1 < 2 ^ 64

theorem updateCommitmentChecksum_total : ∃ s', updateCommitmentChecksum env s = .ok ((), s') := by
  unfold updateCommitmentChecksum nextIpId
  rw [Tx.load_bind, Tx.onlyIf]
  split_ifs
  · rw [Tx.load_bind]
    cases s.ipRecord (s.nextId.getD 1 - 1) with
    | none => exact ⟨_, rfl⟩
    | some record => exact ⟨_, rfl⟩
  · exact ⟨_, rfl⟩

theorem commitOne_runs : (∃ id s', commitOne env owner hash s = .ok (id, s')) ↔
    Fresh hash s.ledger := by
  constructor
  · intro h
    obtain ⟨id, s', h⟩ := h
    simp [commitOne] at h
    obtain ⟨hnonzero, hfree, s₁, howner, ⟨hcount, rfl⟩, rfl⟩ := h
    exact ⟨hnonzero, hfree, hcount⟩
  · intro h
    simp [commitOne]
    exact ⟨h.nonzero, h.free, ⟨_, rfl⟩, h.count⟩

theorem commitIp_runs : (∃ id s', commitIp env owner hash 0 s = .ok (id, s')) ↔
    owner ∈ env.auths ∧ Fresh hash s.ledger := by
  constructor
  · intro h
    obtain ⟨id, s', h⟩ := h
    simp [commitIp] at h
    obtain ⟨hauth, s₁, hadmin, hnonzero, hfree, s₂, howner, hcount, -⟩ := h
    obtain rfl := Tx.store_ok.mp hadmin
    exact ⟨hauth, hnonzero, hfree, hcount⟩
  · intro h
    obtain ⟨hauth, hfresh⟩ := h
    simp [commitIp]
    exact ⟨hauth, _, _, rfl, hfresh.nonzero, hfresh.free, _, rfl, hfresh.count, _, rfl, _,
      rfl, _, rfl, (), updateCommitmentChecksum_total.choose_spec⟩

theorem commitOne_id (h : commitOne env owner hash s = .ok (id, s')) : id = s.ledger.count := by
  simp [commitOne] at h
  obtain ⟨-, -, s₁, howner, ⟨hcount, rfl⟩, rfl⟩ := h
  rfl

theorem commitIp_id {powDifficulty : ℕ}
    (h : commitIp env owner hash powDifficulty s = .ok (id, s')) : id = s.ledger.count := by
  simp [commitIp] at h
  obtain ⟨-, s₁, hadmin, -, -, -, s₂, howner, hcount, s₃, haudit, s₄, hshard, s₅, hcompress,
    ⟨_, hchecksum⟩, rfl⟩ := h
  obtain rfl := Tx.store_ok.mp hadmin
  rfl

/-- The hashes can all be registered, one after the other. -/
structure Committable (hashes : List (BytesN 32)) (c : Ledger) : Prop where
  nonzero : ∀ hash ∈ hashes, hash ≠ .zero 32
  free : ∀ hash ∈ hashes, c.commitmentOwner hash = none
  nodup : hashes.Nodup
  count : hashes ≠ [] → c.count + hashes.length < 2 ^ 64

theorem Enrolls.committable {c c' : Ledger} {hashes : List (BytesN 32)} {parent : Option ℕ}
    (h : Enrolls env owner hash parent c c') (hfresh : Fresh hash c) :
    Committable (hash :: hashes) c ↔ Committable hashes c' := by
  have howner : c'.commitmentOwner = update c.commitmentOwner hash (some owner) := by
    rw [h.ledger]
    rfl
  have hcount : c'.count = c.count + 1 := by
    rw [h.ledger]
    rfl
  constructor
  · intro hall
    obtain ⟨hnew, hnodup⟩ := List.nodup_cons.mp hall.nodup
    refine ⟨fun g hg => hall.nonzero g (by simp [hg]), fun g hg => ?_, hnodup, fun _ => ?_⟩
    · have hne : g ≠ hash := fun heq => hnew (heq ▸ hg)
      rw [howner, update_of_ne hne]
      exact hall.free g (by simp [hg])
    · have hroom := hall.count (by simp)
      rw [List.length_cons] at hroom
      omega
  · intro hall
    have hne : ∀ g ∈ hashes, g ≠ hash := by
      rintro g hg rfl
      have hfree := hall.free g hg
      rw [howner, update_self] at hfree
      cases hfree
    refine ⟨?_, ?_, List.nodup_cons.mpr ⟨fun hmem => hne _ hmem rfl, hall.nodup⟩, fun _ => ?_⟩
    · exact List.forall_mem_cons.mpr ⟨hfresh.nonzero, hall.nonzero⟩
    · refine List.forall_mem_cons.mpr ⟨hfresh.free, fun g hg => ?_⟩
      have hfree := hall.free g hg
      rwa [howner, update_of_ne (hne g hg)] at hfree
    · have hroom := hfresh.count
      cases hashes with
      | nil => simpa using hroom
      | cons g rest =>
        have hrest := hall.count (by simp)
        simp only [List.length_cons] at hrest ⊢
        omega

theorem Committable.fresh {hashes : List (BytesN 32)} {c : Ledger}
    (h : Committable (hash :: hashes) c) : Fresh hash c where
  nonzero := h.nonzero hash (by simp)
  free := h.free hash (by simp)
  count := by
    have hroom := h.count (by simp)
    rw [List.length_cons] at hroom
    omega

theorem forEach_commits {hashes : List (BytesN 32)} {ids : List ℕ}
    {body : BytesN 32 → RegistryTx ℕ}
    (hruns : ∀ hash s, (∃ id s', body hash s = .ok (id, s')) ↔ Fresh hash s.ledger)
    (hbody : ∀ hash s id s', body hash s = .ok (id, s') →
      id = s.ledger.count ∧ Enrolls env owner hash none s.ledger s'.ledger) :
    (∃ s', Tx.forEach hashes body s = .ok (ids, s')) ↔
      Committable hashes s.ledger ∧ ids = List.range' s.ledger.count hashes.length := by
  induction hashes generalizing s ids with
  | nil =>
    simp only [Tx.forEach_nil_ok, List.length_nil, List.range'_zero]
    constructor
    · intro h
      obtain ⟨s', hids, -⟩ := h
      exact ⟨⟨by simp, by simp, .nil, by simp⟩, hids⟩
    · intro h
      exact ⟨s, h.2, rfl⟩
  | cons hash hashes ih =>
    constructor
    · intro h
      obtain ⟨s', h⟩ := h
      obtain ⟨id, s₁, ids', hone, hrest, rfl⟩ := Tx.forEach_cons_ok.mp h
      obtain ⟨hid, henrolls⟩ := hbody hash s id s₁ hone
      obtain ⟨hall, hids⟩ := ih.mp ⟨s', hrest⟩
      have hcount : s₁.ledger.count = s.ledger.count + 1 := by
        rw [henrolls.ledger]
        rfl
      have hfresh := (hruns hash s).mp ⟨id, s₁, hone⟩
      refine ⟨(henrolls.committable hfresh).mpr hall, ?_⟩
      rw [hid, hids, hcount, List.length_cons, List.range'_succ]
    · intro h
      obtain ⟨hall, hids⟩ := h
      obtain ⟨id, s₁, hone⟩ := (hruns hash s).mpr hall.fresh
      obtain ⟨hid, henrolls⟩ := hbody hash s id s₁ hone
      have hcount : s₁.ledger.count = s.ledger.count + 1 := by
        rw [henrolls.ledger]
        rfl
      obtain ⟨s', hrest⟩ := ih.mpr ⟨(henrolls.committable hall.fresh).mp hall, rfl⟩
      refine ⟨s', Tx.forEach_cons_ok.mpr ⟨id, s₁, _, hone, hrest, ?_⟩⟩
      rw [hid, hids, hcount, List.length_cons, List.range'_succ]

end Elements

section Lists

variable {env : Env} {s s' : State} {owner : Address} {hashes : List (BytesN 32)} {ids : List ℕ}

theorem commits_run (hauth : owner ∈ env.auths) :
    (∃ s', Tx.forEach hashes (fun hash => commitIp env owner hash 0) s = .ok (ids, s')) ↔
      Committable hashes s.ledger ∧ ids = List.range' s.ledger.count hashes.length :=
  forEach_commits (fun _ _ => commitIp_runs.trans (and_iff_right hauth))
    fun _ _ _ _ h => ⟨commitIp_id h, commitIp_enrolls h⟩

theorem batchCommitIp_runs : (∃ s', batchCommitIp env owner hashes s = .ok (ids, s')) ↔
    owner ∈ env.auths ∧ Committable hashes s.ledger ∧
      ids = List.range' s.ledger.count hashes.length := by
  by_cases hauth : owner ∈ env.auths
  · have hloop : ∀ t : State, (∃ s', Tx.forEach hashes (commitOne env owner) t = .ok (ids, s')) ↔
        Committable hashes t.ledger ∧ ids = List.range' t.ledger.count hashes.length :=
      fun t => forEach_commits (fun _ _ => commitOne_runs)
        fun _ _ _ _ h => ⟨commitOne_id h, commitOne_enrolls hauth h⟩
    have hadmin : (s.setAdmin (some (s.admin.getD currentContractAddress))).ledger = s.ledger := rfl
    rw [and_iff_right hauth, ← hadmin, ← hloop]
    simp [batchCommitIp, hauth]
    constructor
    · intro h
      obtain ⟨s', s₁, hinit, s₂, hrun, -⟩ := h
      obtain rfl := Tx.store_ok.mp hinit
      exact ⟨s₂, hrun⟩
    · intro h
      obtain ⟨s₂, hrun⟩ := h
      exact ⟨_, _, rfl, s₂, hrun, (), updateCommitmentChecksum_total.choose_spec⟩
  · refine iff_of_false (fun h => ?_) fun h => hauth h.1
    obtain ⟨s', h⟩ := h
    simp [batchCommitIp] at h
    exact hauth h.1

theorem batchCommitIp_trail (h : batchCommitIp env owner hashes s = .ok (ids, s')) (i : ℕ) :
    s'.trail i = s.trail i := by
  have hentries : ∀ e ∈ hashes.map (Entry.added owner) ++ [.logged],
      e = .logged ∨ ∃ hash, e = .added owner hash := by
    intro e he
    rcases List.mem_append.mp he with he | he
    · obtain ⟨hash, -, rfl⟩ := List.mem_map.mp he
      exact .inr ⟨hash, rfl⟩
    · exact .inl (List.mem_singleton.mp he)
  refine (batchCommitIp_books h).invariant (I := fun b => b.trail i = s.books.trail i)
    (fun b e b' hentry hb hstep => ?_) hentries rfl
  rcases hentry with rfl | ⟨hash, rfl⟩
  · cases hstep with
    | logged => exact Books.trail_log.trans hb
  · cases hstep with
    | added => exact hb

theorem Books.Step.trail_committed {hash : BytesN 32} {b b' : Books}
    (h : Books.Step env b (.committed owner hash) b') : b'.trail b.ledger.count =
      b.trail b.ledger.count ++ [⟨"committed", owner, env.timestamp⟩] := by
  cases h with
  | @committed c =>
    rw [trail_log]
    exact trail_audit_self (b := b.onLedger c)

theorem commits_trail {hash : BytesN 32} {ids : List ℕ}
    (h : Tx.forEach (hash :: hashes) (fun hash => commitIp env owner hash 0) s = .ok (ids, s')) :
    s.trail s.ledger.count ≠ s'.trail s.ledger.count := by
  obtain ⟨id, s₁, ids', hone, hrest, -⟩ := Tx.forEach_cons_ok.mp h
  have hgrown : s₁.trail s.ledger.count <+: s'.trail s.ledger.count :=
    Tx.forEach_rel (R := fun t t' => t.trail s.ledger.count <+: t'.trail s.ledger.count)
      (fun _ => List.prefix_refl _) List.IsPrefix.trans
      (fun _ _ _ _ _ hbody => (commitIp_books hbody).trail_extended _) hrest
  have hfirst : s₁.trail s.ledger.count =
      s.trail s.ledger.count ++ [⟨"committed", owner, env.timestamp⟩] :=
    (commitIp_books hone).trail_committed
  intro hsame
  have hlength := hgrown.length_le
  rw [hfirst, ← hsame, List.length_append, List.length_singleton] at hlength
  omega

/-- What is stored, without the difficulty that every single commitment keeps. -/
def State.unrated (s : State) : State := { s with ipPowDifficulty := fun _ => none, events := [] }

/-- The batch and the loop answer the same and leave the same storage. -/
def CommitsFold (env : Env) (owner : Address) (hashes : List (BytesN 32)) (s : State) : Prop :=
  answer State.unrated (batchCommitIp env owner hashes s) =
    answer State.unrated (Tx.forEach hashes (fun hash => commitIp env owner hash 0) s)

theorem batch_commits_agree (hsome : hashes ≠ []) :
    (∃ s', batchCommitIp env owner hashes s = .ok (ids, s')) ↔
      ∃ s', Tx.forEach hashes (fun hash => commitIp env owner hash 0) s = .ok (ids, s') := by
  by_cases hauth : owner ∈ env.auths
  · rw [batchCommitIp_runs, commits_run hauth, and_iff_right hauth]
  · refine iff_of_false (fun h => hauth (batchCommitIp_runs.mp h).1) fun h => ?_
    obtain ⟨hash, rest, rfl⟩ := List.exists_cons_of_ne_nil hsome
    obtain ⟨s', h⟩ := h
    obtain ⟨id, s₁, ids', hone, -⟩ := Tx.forEach_cons_ok.mp h
    exact hauth (commitIp_runs.mp ⟨id, s₁, hone⟩).1

theorem updateCommitmentChecksum_idle (h : ¬ 1 < s.ledger.count) :
    updateCommitmentChecksum env s = .ok ((), s) := by
  have hcount : ¬ 1 < s.nextId.getD 1 := h
  unfold updateCommitmentChecksum nextIpId
  rw [Tx.load_bind, Tx.onlyIf, if_neg hcount]
  rfl

theorem updateCommitmentChecksum_logs {u : Unit} (hwf : s.ledger.Wf) (hcount : 1 < s.ledger.count)
    (h : updateCommitmentChecksum env s = .ok (u, s')) :
    s'.commitmentHashes ≠ s.commitmentHashes := by
  obtain ⟨r, hr⟩ : ∃ r, s.ledger.ipRecord (s.ledger.count - 1) = some r :=
    Option.isSome_iff_exists.mp ((hwf.stored _).mpr ⟨by omega, by omega⟩)
  have hlog : s'.books.commitmentHashes =
      some (s.books.commitmentHashes.getD [] ++ [r.commitmentHash]) := by
    rw [updateCommitmentChecksum_books h, Books.log_of_record hcount hr]
  intro hsame
  have hgrown : s.commitmentHashes = some (s.commitmentHashes.getD [] ++ [r.commitmentHash]) :=
    hsame.symm.trans hlog
  have hlength := congrArg (fun o => (o.getD []).length) hgrown
  simp at hlength

theorem no_commits_fold (hwf : s.ledger.Wf) : CommitsFold env owner [] s ↔
    owner ∈ env.auths ∧ s.admin ≠ none ∧ s.ledger.count = 1 := by
  by_cases hauth : owner ∈ env.auths
  · have hallowed : (requireAuth env.auths owner : RegistryTx Unit) s = .ok ((), s) :=
      requireAuth_ok.mpr ⟨hauth, rfl⟩
    obtain ⟨t, ht⟩ : ∃ t, t = s.setAdmin (some (s.admin.getD currentContractAddress)) := ⟨_, rfl⟩
    have hadmin : initAdmin s = .ok ((), t) := by rw [ht]; rfl
    obtain ⟨s', hchecksum⟩ : ∃ s', updateCommitmentChecksum env t = .ok ((), s') :=
      updateCommitmentChecksum_total
    have hnone : Tx.forEach [] (commitOne env owner) t = .ok ([], t) := rfl
    have hbatch : batchCommitIp env owner [] s = .ok ([], s') := by
      rw [batchCommitIp, bind_of_ok hallowed, bind_of_ok hadmin, bind_of_ok hnone,
        bind_of_ok hchecksum]
      rfl
    have hfold : CommitsFold env owner [] s ↔ s'.unrated = s.unrated := by
      rw [CommitsFold, hbatch]
      change some ([], s'.unrated) = some ([], s.unrated) ↔ _
      rw [Option.some.injEq, Prod.mk.injEq, and_iff_right rfl]
    have hledger : t.ledger = s.ledger := by rw [ht]; rfl
    rw [hfold, and_iff_right hauth]
    by_cases hcount : 1 < s.ledger.count
    · refine iff_of_false (fun hsame => ?_) fun h => by omega
      refine updateCommitmentChecksum_logs (hledger ▸ hwf) (hledger ▸ hcount) hchecksum ?_
      rw [ht]
      exact show s'.unrated.commitmentHashes = s.unrated.commitmentHashes from congrArg _ hsame
    · have hone : s.ledger.count = 1 := by
        have hcounted := hwf.counted
        omega
      have hidle : updateCommitmentChecksum env t = .ok ((), t) :=
        updateCommitmentChecksum_idle (hledger ▸ hcount)
      obtain rfl : s' = t := by
        rw [hidle] at hchecksum
        exact (Prod.mk.inj (Except.ok.inj hchecksum)).2.symm
      rw [and_iff_left hone, ht]
      constructor
      · intro hsame
        have hset : some (s.admin.getD currentContractAddress) = s.admin :=
          congrArg State.admin hsame
        rw [← hset]
        exact Option.some_ne_none _
      · intro hset
        obtain ⟨a, ha⟩ := Option.ne_none_iff_exists'.mp hset
        have hkept : s.setAdmin (some (s.admin.getD currentContractAddress)) = s := by
          rw [ha, Option.getD_some, ← ha]
          rfl
        rw [hkept]
  · refine iff_of_false (fun hfold => ?_) fun h => hauth h.1
    obtain ⟨e, hbatch⟩ : ∃ e, batchCommitIp env owner [] s = .error e :=
      refused fun _ s' h => hauth (batchCommitIp_runs.mp ⟨s', h⟩).1
    rw [CommitsFold, hbatch] at hfold
    cases hfold

theorem some_commits_fold (hsome : hashes ≠ []) : CommitsFold env owner hashes s ↔
    ¬ (owner ∈ env.auths ∧ Committable hashes s.ledger) := by
  by_cases hruns : owner ∈ env.auths ∧ Committable hashes s.ledger
  · refine iff_of_false (fun hfold => ?_) fun h => h hruns
    obtain ⟨s₁, hbatch⟩ := batchCommitIp_runs.mpr ⟨hruns.1, hruns.2, rfl⟩
    obtain ⟨s₂, hloop⟩ := (commits_run hruns.1).mpr ⟨hruns.2, rfl⟩
    rw [CommitsFold, hbatch, hloop] at hfold
    have hview : s₁.unrated = s₂.unrated := (Prod.mk.inj (Option.some.inj hfold)).2
    have htrails : s₁.trail s.ledger.count = s₂.trail s.ledger.count :=
      show s₁.unrated.trail _ = s₂.unrated.trail _ from congrArg (State.trail · _) hview
    obtain ⟨hash, rest, rfl⟩ := List.exists_cons_of_ne_nil hsome
    exact commits_trail hloop ((batchCommitIp_trail hbatch _).symm.trans htrails)
  · refine iff_of_true ?_ hruns
    obtain ⟨e, hbatch⟩ : ∃ e, batchCommitIp env owner hashes s = .error e := by
      refine refused fun ids s' h => hruns ?_
      obtain ⟨hauth, hall, -⟩ := batchCommitIp_runs.mp ⟨s', h⟩
      exact ⟨hauth, hall⟩
    obtain ⟨e', hloop⟩ : ∃ e, Tx.forEach hashes (fun hash => commitIp env owner hash 0) s =
        .error e := by
      refine refused fun ids s' h => ?_
      obtain ⟨s₁, hok⟩ := (batch_commits_agree hsome).mpr ⟨s', h⟩
      rw [hbatch] at hok
      cases hok
    rw [CommitsFold, hbatch, hloop]
    rfl

end Lists

section Runs

variable {env : Env} {s : State} {owner : Address} {hashes : List (BytesN 32)} {crypto : Crypto}
  {tr : List (Act × State)}

/-- The batch leaves the storage that the loop leaves if and only if both are refused, or there is
nothing to register and nothing to set up. -/
theorem batch_commits_fold_iff (hrun : Run (ActStep crypto) State.empty tr s) :
    CommitsFold env owner hashes s ↔
      (hashes ≠ [] → ¬ (owner ∈ env.auths ∧ Committable hashes s.ledger)) ∧
      (hashes = [] → owner ∈ env.auths ∧ s.admin ≠ none ∧ s.ledger.count = 1) := by
  by_cases hsome : hashes = []
  · subst hsome
    simpa using no_commits_fold (run_wf hrun)
  · simpa [hsome] using some_commits_fold hsome

end Runs

section Designs

open Scenario

def today : Env where
  crypto := crypto
  timestamp := 6
  auths := [inventor]
  budget := 10

/-- A batch with a design that is registered already is refused, and so is the loop. -/
theorem registered_design_refused : ∃ (tr : List (Act × State)) (s : State),
    Run (ActStep crypto) State.empty tr s ∧ s.ledger.commitmentOwner design = some inventor ∧
      CommitsFold today inventor [laterDesign, design] s := by
  obtain ⟨tr, s, hrun, -, hseen⟩ := played State.empty
    [act 5 inventor (.commitIp inventor design 0)]
    (fun s => s.commitmentOwner design = some inventor) (by decide +kernel)
  have howner : s.ledger.commitmentOwner design = some inventor := of_decide_eq_true hseen
  refine ⟨tr, s, hrun, howner, (batch_commits_fold_iff hrun).mpr ⟨fun _ hall => ?_, by simp⟩⟩
  have hfree := hall.2.free design (by simp)
  rw [howner] at hfree
  cases hfree

/-- Two designs registered at once have no trails, and only the second is logged. -/
theorem designs_untold : ∃ ids s s',
    batchCommitIp today inventor [laterDesign, design] State.empty = .ok (ids, s) ∧
    Tx.forEach [laterDesign, design] (fun hash => commitIp today inventor hash 0) State.empty =
      .ok (ids, s') ∧
    s.trail 1 = [] ∧ s'.trail 1 ≠ [] ∧
    s.commitmentHashes = some [design] ∧ s'.commitmentHashes = some [laterDesign, design] ∧
    ¬ CommitsFold today inventor [laterDesign, design] State.empty := by
  have hruns : ∃ s s',
      batchCommitIp today inventor [laterDesign, design] State.empty = .ok ([1, 2], s) ∧
      Tx.forEach [laterDesign, design] (fun hash => commitIp today inventor hash 0) State.empty =
        .ok ([1, 2], s') ∧
      s.trail 1 = [] ∧ s'.trail 1 = [⟨"committed", inventor, 6⟩] ∧
      s.commitmentHashes = some [design] ∧ s'.commitmentHashes = some [laterDesign, design] :=
    ⟨_, _, rfl, rfl, rfl, rfl, rfl, rfl⟩
  obtain ⟨s, s', hbatch, hloop, htrail, htrail', hlog, hlog'⟩ := hruns
  refine ⟨[1, 2], s, s', hbatch, hloop, htrail, by simp [htrail'], hlog, hlog', fun hfold => ?_⟩
  rw [CommitsFold, hbatch, hloop] at hfold
  have hview : s.unrated = s'.unrated := (Prod.mk.inj (Option.some.inj hfold)).2
  have hsame : s.commitmentHashes = s'.commitmentHashes :=
    show s.unrated.commitmentHashes = s'.unrated.commitmentHashes from congrArg _ hview
  rw [hlog, hlog'] at hsame
  cases hsame

end Designs

end AtomicIp.IpRegistry
