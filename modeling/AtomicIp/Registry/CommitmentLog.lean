import AtomicIp.Registry.Views

/-!
The log of the commitments and its checksum. A registration logs the hash of the newest
record, once, however many records it has added.
-/

set_option autoImplicit false

namespace AtomicIp.IpRegistry

open Function

def Ledger.hashes (c : Ledger) : List (BytesN 32) :=
  (List.range' 1 (c.count - 1)).filterMap fun i => (c.ipRecord i).map IpRecord.commitmentHash

/-- The log has the hash of every record once, in the order of the ids, and its checksum covers
them. -/
structure State.LogComplete (sha256 : Bytes → BytesN 32) (s : State) : Prop where
  log : s.commitmentHashes.getD [] = s.ledger.hashes
  checksum : s.ledger.hashes ≠ [] →
    s.ipCommitmentChecksum = some (sha256 (s.ledger.hashes.flatMap BytesN.bytes))
  verified : verifyCommitmentIntegrity sha256 s = true

def Call.Commits : Call → Prop
  | .commitIp .. | .batchCommitIp .. | .batchCommitIpAnonymous .. | .commitIpDelegated ..
  | .createIpVersion .. => True
  | _ => False

/-- One hash is registered and logged, or nothing at all into an empty registry. -/
def Call.LogsEach (c : Ledger) : Call → Prop
  | .commitIp .. | .commitIpDelegated .. => True
  | .batchCommitIp _ hashes => hashes.length = 1 ∨ hashes = [] ∧ c.count = 1
  | .batchCommitIpAnonymous _ hashes => hashes.length = 1
  | _ => False

namespace Ledger

variable {env : Env} {c c' : Ledger} {owner : Address} {hash : BytesN 32} {parent : Option ℕ}

theorem Wf.hashes_length (h : c.Wf) : c.hashes.length = c.count - 1 := by
  have hall : ∀ i ∈ List.range' 1 (c.count - 1),
      ((c.ipRecord i).map IpRecord.commitmentHash).isSome = true := by
    intro i hi
    rw [List.mem_range'_1] at hi
    rw [Option.isSome_map, h.stored]
    omega
  rw [hashes, List.filterMap_length_eq_length.mpr hall, List.length_range']

theorem Wf.hashes_eq_nil (h : c.Wf) : c.hashes = [] ↔ c.count = 1 := by
  have hcounted := h.counted
  rw [← List.length_eq_zero_iff, h.hashes_length]
  omega

end Ledger

section Registration

variable {env : Env} {c c' : Ledger} {owner : Address} {hash : BytesN 32} {parent : Option ℕ}

theorem Enrolls.hashes (h : Enrolls env owner hash parent c c') (hwf : c.Wf) :
    c'.hashes = c.hashes ++ [hash] := by
  have hcounted := hwf.counted
  have hcount : c'.count - 1 = (c.count - 1) + 1 := by
    rw [h.ledger]
    change c.count + 1 - 1 = c.count - 1 + 1
    omega
  have hnew : [1 + (c.count - 1)].filterMap
      (fun i => (c'.ipRecord i).map IpRecord.commitmentHash) = [hash] := by
    refine List.filterMap_cons_some ?_
    rw [h.ledger, Nat.add_sub_cancel' hcounted]
    exact congrArg (Option.map IpRecord.commitmentHash) (update_self c.count _ c.ipRecord)
  have hold : (List.range' 1 (c.count - 1)).filterMap
      (fun i => (c'.ipRecord i).map IpRecord.commitmentHash) = c.hashes := by
    refine List.filterMap_congr fun i hi => ?_
    rw [List.mem_range'_1] at hi
    have hne : i ≠ c.count := by omega
    rw [h.ledger]
    exact congrArg (Option.map IpRecord.commitmentHash) (update_of_ne hne _ _)
  rw [Ledger.hashes, hcount, List.range'_1_concat, List.filterMap_append, hold, hnew]

theorem Ledger.Wf.newest (h : c.Wf) (hcount : 1 < c.count) : ∃ r,
    c.ipRecord (c.count - 1) = some r ∧ c.hashes.getLast? = some r.commitmentHash := by
  obtain ⟨r, hr⟩ := Option.isSome_iff_exists.mp ((h.stored (c.count - 1)).mpr (by omega))
  refine ⟨r, hr, ?_⟩
  have hsplit : c.count - 1 = (c.count - 2) + 1 := by omega
  have hlast : [1 + (c.count - 2)].filterMap
      (fun i => (c.ipRecord i).map IpRecord.commitmentHash) = [r.commitmentHash] := by
    refine List.filterMap_cons_some ?_
    rw [show 1 + (c.count - 2) = c.count - 1 by omega, hr]
    rfl
  rw [Ledger.hashes, hsplit, List.range'_1_concat, List.filterMap_append, hlast,
    List.getLast?_concat]

end Registration

namespace Books

variable {env : Env} {sha256 : Bytes → BytesN 32} {b b' : Books} {owner : Address}
  {hash : BytesN 32} {hashes : List (BytesN 32)}

def logged (b : Books) : List (BytesN 32) := b.commitmentHashes.getD []

def Sealed (sha256 : Bytes → BytesN 32) (b : Books) : Prop :=
  b.ipCommitmentChecksum = b.commitmentHashes.map fun log => sha256 (log.flatMap BytesN.bytes)

theorem Sealed.log (h : b.Sealed sha256) : (b.log sha256).Sealed sha256 := by
  by_cases hcount : 1 < b.ledger.count
  · cases hr : b.ledger.ipRecord (b.ledger.count - 1) with
    | none =>
      simp only [Books.log, hr]
      exact h
    | some r =>
      rw [log_of_record hcount hr]
      rfl
  · rwa [log_of_count hcount]

theorem Sealed.step {e : Entry} (h : b.Sealed env.crypto.sha256) (hstep : Books.Step env b e b') :
    b'.Sealed env.crypto.sha256 := by
  cases hstep with
  | committed => exact Sealed.log h
  | logged => exact h.log
  | _ => exact h

theorem logged_log (h : b.ledger.Wf) :
    (b.log sha256).logged = b.logged ++ b.ledger.hashes.getLast?.toList := by
  by_cases hcount : 1 < b.ledger.count
  · obtain ⟨r, hr, hlast⟩ := h.newest hcount
    rw [log_of_record hcount hr, hlast]
    rfl
  · have hcounted := h.counted
    have hnone := h.hashes_eq_nil.mpr (by omega)
    rw [log_of_count hcount, hnone]
    exact (List.append_nil _).symm

theorem added (hwf : b.ledger.Wf)
    (hpath : Path (Books.Step env) b (hashes.map (.added owner)) b') :
    b'.ledger.Wf ∧ b'.ledger.hashes = b.ledger.hashes ++ hashes ∧ b'.logged = b.logged := by
  induction hashes generalizing b with
  | nil =>
    cases hpath
    exact ⟨hwf, (List.append_nil _).symm, rfl⟩
  | cons hash hashes ih =>
    cases hpath with
    | cons hstep hrest =>
      cases hstep with
      | added henrolls =>
        obtain ⟨hwf', hhashes, hlogged⟩ := ih (henrolls.wf hwf) hrest
        refine ⟨hwf', ?_, hlogged⟩
        rw [hhashes, onLedger, henrolls.hashes hwf, List.append_assoc, List.singleton_append]

theorem added_logged (hwf : b.ledger.Wf)
    (hpath : Path (Books.Step env) b (hashes.map (.added owner) ++ [.logged]) b') :
    b'.ledger.hashes = b.ledger.hashes ++ hashes ∧
      b'.logged = b.logged ++ b'.ledger.hashes.getLast?.toList := by
  obtain ⟨b₁, hadded, hlog⟩ := Path.append_iff.mp hpath
  obtain ⟨hwf₁, hhashes, hlogged⟩ := added hwf hadded
  cases Path.single_iff.mp hlog
  rw [log_ledger, logged_log hwf₁, hlogged]
  exact ⟨hhashes, rfl⟩

theorem committed_logged (hwf : b.ledger.Wf)
    (hstep : Books.Step env b (.committed owner hash) b') :
    b'.ledger.hashes = b.ledger.hashes ++ [hash] ∧
      b'.logged = b.logged ++ b'.ledger.hashes.getLast?.toList := by
  cases hstep with
  | committed henrolls =>
    rw [log_ledger]
    exact ⟨henrolls.hashes hwf, logged_log (henrolls.wf hwf)⟩

theorem versioned_logged {parentIpId : ℕ} (hwf : b.ledger.Wf)
    (hstep : Books.Step env b (.versioned parentIpId hash) b') :
    b'.ledger.hashes = b.ledger.hashes ++ [hash] ∧ b'.logged = b.logged ++ [] := by
  cases hstep with
  | versioned _ henrolls => exact ⟨henrolls.hashes hwf, (List.append_nil _).symm⟩

end Books

section Calls

variable {env : Env} {s s' : State} {call : Call}

def Call.logs : Call → Bool
  | .createIpVersion .. => false
  | _ => true

theorem exec_logs (hwf : s.ledger.Wf) (hcall : call.Commits)
    (h : exec env call s = .ok ((), s')) :
    s'.ledger.hashes = s.ledger.hashes ++ call.submits ∧ s'.books.logged = s.books.logged ++
      if call.logs then s'.ledger.hashes.getLast?.toList else [] := by
  obtain ⟨es, hpath, henters⟩ := exec_books h
  cases call with
  | commitIp owner hash =>
    obtain rfl := henters
    exact Books.committed_logged hwf (Path.single_iff.mp hpath)
  | batchCommitIp owner hashes =>
    obtain rfl := henters
    exact Books.added_logged hwf hpath
  | batchCommitIpAnonymous _ hashes =>
    obtain ⟨-, rfl⟩ := henters
    exact Books.added_logged hwf hpath
  | commitIpDelegated owner hash =>
    obtain rfl := henters
    have hone : Path (Books.Step env) s.books ([hash].map (.added owner) ++ [.logged]) s'.books :=
      hpath
    exact Books.added_logged hwf hone
  | createIpVersion parentIpId hash =>
    obtain rfl := henters
    exact Books.versioned_logged hwf (Path.single_iff.mp hpath)
  | _ => exact absurd hcall id

end Calls

theorem getLast_toList_eq {α : Type} {xs ys : List α} :
    (xs ++ ys).getLast?.toList = ys ↔ ys.length = 1 ∨ ys = [] ∧ xs = [] := by
  rcases List.eq_nil_or_concat ys with rfl | ⟨zs, y, rfl⟩
  · simp
  · rw [List.concat_eq_append, ← List.append_assoc, List.getLast?_concat]
    simp

section Runs

variable {crypto : Crypto} {tr : List (Act × State)} {s s' : State} {act : Act}

theorem ActStep.sealed (hact : ActStep crypto s act s') (h : s.books.Sealed crypto.sha256) :
    s'.books.Sealed crypto.sha256 := by
  obtain ⟨es, hpath, -⟩ := exec_books hact
  exact hpath.invariant (I := Books.Sealed crypto.sha256) (P := fun _ => True)
    (fun _ _ _ _ hb hstep => hb.step hstep) (fun _ _ => trivial) h

theorem Books.Sealed.complete_iff {sha256 : Bytes → BytesN 32} (h : s.books.Sealed sha256) :
    s.LogComplete sha256 ↔ s.books.logged = s.ledger.hashes := by
  have hseal : s.ipCommitmentChecksum =
    s.commitmentHashes.map fun log => sha256 (log.flatMap BytesN.bytes) := h
  constructor
  · intro hcomplete
    exact hcomplete.log
  · intro hlog
    refine ⟨hlog, fun hsome => ?_, ?_⟩
    · have hlog' : s.commitmentHashes.getD [] = s.ledger.hashes := hlog
      cases hhashes : s.commitmentHashes with
      | none =>
        rw [hhashes] at hlog'
        exact absurd hlog'.symm hsome
      | some log =>
        rw [hhashes] at hlog' hseal
        rw [hseal, ← hlog']
        rfl
    · rw [verifyCommitmentIntegrity, hseal]
      cases s.commitmentHashes with
      | none => rfl
      | some log => simp

/-- A registration keeps a complete log complete exactly when it logs each hash. -/
theorem logged_iff (hwf : s.ledger.Wf) (hlog : s.books.logged = s.ledger.hashes)
    (hcall : act.call.Commits) (hact : ActStep crypto s act s') :
    s'.books.logged = s'.ledger.hashes ↔ act.call.LogsEach s.ledger := by
  obtain ⟨hhashes, hlogged⟩ := exec_logs hwf hcall hact
  rw [hlogged, hhashes, hlog, List.append_cancel_left_eq]
  cases hcase : act.call with
  | commitIp owner hash =>
    simp [Call.logs, Call.submits, Call.LogsEach]
  | commitIpDelegated owner hash =>
    simp [Call.logs, Call.submits, Call.LogsEach]
  | createIpVersion parentIpId hash =>
    simp [Call.logs, Call.submits, Call.LogsEach]
  | batchCommitIp owner hashes =>
    simp only [Call.logs, Call.submits, Call.LogsEach, if_true, getLast_toList_eq,
      hwf.hashes_eq_nil]
  | batchCommitIpAnonymous blindedOwner hashes =>
    have hsome : hashes ≠ [] := by
      obtain ⟨es, -, henters⟩ := exec_books hact
      rw [hcase] at henters
      exact henters.1
    simp only [Call.logs, Call.submits, Call.LogsEach, if_true, getLast_toList_eq, hsome,
      false_and, or_false]
  | _ =>
    rw [hcase] at hcall
    exact absurd hcall id

/-- The log is complete throughout a run of registrations exactly when each of them logs each
hash it registers. -/
theorem log_complete_iff
    (hrun : Run (Restrict (ActStep crypto) fun _ act => act.call.Commits) State.empty tr s) :
    (∀ v ∈ visited State.empty tr, v.LogComplete crypto.sha256) ↔
      ∀ past a act b, (past, a, act, b) ∈ steps State.empty tr → act.call.LogsEach a.ledger := by
  have hseal : State.empty.books.Sealed crypto.sha256 := rfl
  refine hrun.visited_iff_steps (J := fun s => s.ledger.Wf ∧ s.books.Sealed crypto.sha256)
    (hseal.complete_iff.mpr rfl) ⟨.empty, hseal⟩ ?_ ?_
  · intro s act s' hJ hstep
    exact ⟨ActStep.wf hstep.1 hJ.1, hstep.1.sealed hJ.2⟩
  · intro s act s' hJ hcomplete hstep
    have hlog := hJ.2.complete_iff.mp hcomplete
    rw [(hstep.1.sealed hJ.2).complete_iff]
    exact logged_iff hJ.1 hlog hstep.2 hstep.1

end Runs

section Drawings

open Scenario

theorem committing (acts : List Act) (seen : State → Bool) (hacts : ∀ act ∈ acts, act.call.Commits)
    (h : endsIn perform acts State.empty seen = true) : ∃ tr s,
      Run (Restrict (ActStep crypto) fun _ act => act.call.Commits) State.empty tr s ∧
        tr.map Prod.fst = acts.reverse ∧ seen s = true :=
  endsIn_run h fun _ act _ hmem hexec => ⟨hexec, hacts act hmem⟩

theorem drawing_logged : ∃ (tr : List (Act × State)) (s : State), s.ledger.count = 3 ∧
    ∀ v ∈ visited State.empty tr, v.LogComplete crypto.sha256 := by
  obtain ⟨tr, s, hrun, hlabels, hseen⟩ := committing
    [act 5 inventor (.commitIp inventor design 0),
      act 6 inventor (.batchCommitIp inventor [.fill 32 2])] (fun s => s.ledger.count = 3)
    (by simp [act, Call.Commits]) (by decide +kernel)
  refine ⟨tr, s, of_decide_eq_true hseen, (log_complete_iff hrun).mpr ?_⟩
  intro past a k b hmem
  have hact : k ∈ tr.map Prod.fst := List.mem_map_of_mem (mem_of_mem_steps hmem)
  rw [hlabels] at hact
  simp only [List.reverse_cons, List.reverse_nil, List.nil_append, List.cons_append,
    List.mem_cons, List.not_mem_nil, or_false] at hact
  rcases hact with rfl | rfl
  · exact .inl rfl
  · trivial

/-- Of two drawings registered at once only the second is logged. -/
theorem first_drawing_unlogged : ∃ (tr : List (Act × State)) (s : State),
    Run (Restrict (ActStep crypto) fun _ act => act.call.Commits) State.empty tr s ∧
      s.commitmentHashes = some [.fill 32 3] ∧ ¬ s.LogComplete crypto.sha256 := by
  obtain ⟨tr, s, hrun, -, hseen⟩ := committing
    [act 5 inventor (.batchCommitIp inventor [.fill 32 2, .fill 32 3])]
    (fun s => s.commitmentHashes = some [.fill 32 3] && s.ledger.hashes.length = 2)
    (by simp [act, Call.Commits]) (by decide +kernel)
  simp only [Bool.and_eq_true, decide_eq_true_eq] at hseen
  obtain ⟨hlog, htwo⟩ := hseen
  refine ⟨tr, s, hrun, hlog, fun hcomplete => ?_⟩
  have hlength := congrArg List.length hcomplete.log
  rw [hlog, htwo] at hlength
  cases hlength

end Drawings

end AtomicIp.IpRegistry
