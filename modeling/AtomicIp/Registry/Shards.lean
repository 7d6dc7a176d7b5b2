import AtomicIp.Lib.Index
import AtomicIp.Registry.Views

/-!
Shards and compressed hashes. Both are written down once, by `commit_ip`, for the hash it
registers; no later call touches them.
-/

set_option autoImplicit false

namespace AtomicIp.IpRegistry

open Function Tx

/-- What is derived for an IP fits the hash: its place in one shard only, and the compressed
hash. -/
structure State.Derives (s : State) (ipId : ℕ) (hash : BytesN 32) : Prop where
  once : ∃ ids, getShardIpIds (getCommitmentShard hash) s = .ok (ids, s) ∧ ids.count ipId = 1
  nowhere_else : ∀ shard, shard ≠ getCommitmentShard hash →
    ∃ ids, getShardIpIds shard s = .ok (ids, s) ∧ ipId ∉ ids
  compressed : ∃ compressed, getCompressedCommitment ipId s = .ok (compressed, s) ∧
    compressed.bytes = CompressionAlgo.truncate16.compress hash ∧
    (getCommitmentCompression ipId s = .ok (.truncate16, s) →
      getCompressedBytes ipId s = .ok (compressed.bytes, s))

theorem commitmentShard_congr {hash hash' : BytesN 32}
    (h : hash.bytes.take 16 = hash'.bytes.take 16) :
    commitmentShard hash = commitmentShard hash' := by
  have hfirst : ∀ hash : BytesN 32, hash.bytes.headD 0 = (hash.bytes.take 16).headD 0 := by
    intro hash
    rw [List.headD_eq_head?_getD, List.headD_eq_head?_getD, List.head?_take,
      if_neg (by decide)]
  rw [commitmentShard, commitmentShard, hfirst, hfirst hash', h]

/-- Every IP from `commit_ip` is once in the shard of its first hash, and that hash is stored
compressed; the others are nowhere. -/
structure Books.Derived (origin : ℕ → Option (BytesN 32)) (b : Books) : Prop where
  wf : b.ledger.Wf
  known : ∀ i hash, origin i = some hash → i < b.ledger.count
  sharded : ∀ i shard, (listed b.shardIps shard).count i =
    if (origin i).map commitmentShard = some shard then 1 else 0
  compressed : ∀ i, b.compressedCommitment i =
    (origin i).map fun hash => hash.truncate (by decide)

namespace Books.Derived

variable {env : Env} {b b' : Books} {origin : ℕ → Option (BytesN 32)} {owner : Address}
  {hash : BytesN 32}

theorem empty : State.empty.books.Derived fun _ => none where
  wf := .empty
  known i hash h := by cases h
  sharded i shard := rfl
  compressed i := rfl

theorem fresh (h : b.Derived origin) : origin b.ledger.count = none := by
  cases horigin : origin b.ledger.count with
  | none => rfl
  | some hash => exact absurd (h.known _ _ horigin) (Nat.lt_irrefl _)

theorem fresh_count (h : b.Derived origin) (shard : ℕ) :
    (listed b.shardIps shard).count b.ledger.count = 0 := by
  rw [h.sharded, h.fresh]
  rfl

theorem committed (h : b.Derived origin)
    (hstep : Books.Step env b (.committed owner hash) b') :
    b'.Derived (update origin b.ledger.count (some hash)) := by
  have hwf := hstep.wf h.wf
  have hcount : b'.ledger.count = b.ledger.count + 1 := by
    cases hstep with
    | committed henrolls =>
      rw [Books.log_ledger]
      exact henrolls.count
  have hshards : b'.shardIps = filed b.shardIps (commitmentShard hash) b.ledger.count := by
    cases hstep with
    | committed =>
      rw [Books.log_shardIps]
      rfl
  have hcompressed : b'.compressedCommitment = update b.compressedCommitment b.ledger.count
      (some (hash.truncate compressedSize_le)) := by
    cases hstep with
    | committed =>
      rw [Books.log_compressedCommitment]
      rfl
  refine ⟨hwf, fun i hash' horigin => ?_, fun i shard => ?_, fun i => ?_⟩
  · rcases update_eq_some horigin with ⟨rfl, -⟩ | ⟨-, hold⟩
    · omega
    · have hbelow := h.known i hash' hold
      omega
  · rw [hshards]
    by_cases hi : i = b.ledger.count <;> by_cases hs : shard = commitmentShard hash
    · subst hi hs
      rw [listed_filed_self, List.count_append, h.fresh_count, update_self]
      simp
    · subst hi
      rw [listed_filed_of_ne hs, h.fresh_count, update_self]
      simp [Ne.symm hs]
    · subst hs
      rw [listed_filed_self, List.count_append, h.sharded, update_of_ne hi]
      simp [Ne.symm hi]
    · rw [listed_filed_of_ne hs, h.sharded, update_of_ne hi]
  · rw [hcompressed]
    by_cases hi : i = b.ledger.count
    · subst hi
      rw [update_self, update_self]
      rfl
    · rw [update_of_ne hi, update_of_ne hi, h.compressed]

theorem kept {e : Entry} (hother : ∀ owner hash, e ≠ .committed owner hash) (h : b.Derived origin)
    (hstep : Books.Step env b e b') : b'.Derived origin := by
  have hwf := hstep.wf h.wf
  have hle := hstep.count_le
  have hsame : b'.shardIps = b.shardIps ∧ b'.compressedCommitment = b.compressedCommitment := by
    cases hstep with
    | committed => exact absurd rfl (hother _ _)
    | logged => exact ⟨Books.log_shardIps, Books.log_compressedCommitment⟩
    | _ => exact ⟨rfl, rfl⟩
  refine ⟨hwf, fun i hash horigin => ?_, fun i shard => ?_, fun i => ?_⟩
  · exact Nat.lt_of_lt_of_le (h.known i hash horigin) hle
  · rw [hsame.1, h.sharded]
  · rw [hsame.2, h.compressed]

end Books.Derived

section Runs

variable {crypto : Crypto} {tr : List (Act × State)} {s : State} {i : ℕ} {r : IpRecord}
  {hash : BytesN 32}

theorem run_derived (hrun : Run (ActStep crypto) State.empty tr s) :
    s.books.Derived (committedHash tr) :=
  run_entries (I := fun origin b => b.Derived origin) .empty
    (fun _ _ _ _ _ _ h hstep => h.committed hstep)
    (fun _ _ _ _ _ hother h hstep => h.kept hother hstep) hrun

theorem State.derives_of_origin {origin : ℕ → Option (BytesN 32)} (h : s.books.Derived origin)
    (hr : s.ledger.ipRecord i = some r) (horigin : origin i = some hash)
    (hsame : hash.bytes.take 16 = r.commitmentHash.bytes.take 16) :
    s.Derives i r.commitmentHash := by
  have hshard : getCommitmentShard r.commitmentHash = commitmentShard hash :=
    (commitmentShard_congr hsame).symm
  have hread : getCompressedCommitment i s = .ok (hash.truncate (by decide), s) := by
    refine getCompressedCommitment_ok.mpr ⟨⟨r, hr⟩, ?_, rfl⟩
    have hstored := h.compressed i
    rw [horigin] at hstored
    rw [show s.compressedCommitment i = some (hash.truncate compressedSize_le) from hstored]
    rfl
  refine ⟨⟨_, rfl, ?_⟩, fun shard hshard' => ⟨_, rfl, ?_⟩, _, hread, hsame, fun halgo => ?_⟩
  · have hcount := h.sharded i (commitmentShard hash)
    rw [horigin] at hcount
    rw [hshard]
    exact hcount.trans (if_pos rfl)
  · have hcount := h.sharded i shard
    rw [horigin, if_neg (by rintro ⟨⟩; exact hshard' hshard.symm)] at hcount
    exact List.count_eq_zero.mp hcount
  · rw [getCompressedBytes, Tx.bind_of_ok (requireIpExists_ok.mpr ⟨hr, rfl⟩), Tx.bind_of_ok halgo]
    exact congrArg (fun bytes => Except.ok (bytes, s)) hsame.symm

/-- What is derived for an IP fits its hash exactly when it came from `commit_ip`, with a hash
of the same first sixteen bytes. -/
theorem derives_iff (hrun : Run (ActStep crypto) State.empty tr s)
    (hr : s.ipRecord i = some r) :
    s.Derives i r.commitmentHash ↔ ∃ hash, committedHash tr i = some hash ∧
      hash.bytes.take 16 = r.commitmentHash.bytes.take 16 := by
  have h := run_derived hrun
  constructor
  · intro hderives
    obtain ⟨compressed, hread, hbytes, -⟩ := hderives.compressed
    have hcount := h.sharded i (getCommitmentShard r.commitmentHash)
    have hread' := (getCompressedCommitment_ok.mp hread).2.1
    have hstored := h.compressed i
    cases horigin : committedHash tr i with
    | none =>
      rw [horigin] at hcount
      obtain ⟨ids, hids, honce⟩ := hderives.once
      obtain ⟨rfl, -⟩ := Tx.load_ok.mp hids
      cases honce.symm.trans hcount
    | some hash =>
      rw [horigin] at hstored
      rw [show s.compressedCommitment i = _ from hstored] at hread'
      rw [hread'] at hbytes
      exact ⟨hash, rfl, hbytes⟩
  · intro horigin
    obtain ⟨hash, horigin, hsame⟩ := horigin
    exact State.derives_of_origin h hr horigin hsame

end Runs

section Designs

open Scenario

def redrawnDesign : BytesN 32 := ⟨design.bytes.take 16 ++ List.replicate 16 0, rfl⟩

/-- A design sold and replaced by one of the same first half is in its shard, which is also the old
one's, and stored compressed. -/
theorem redrawn_design_derived : ∃ s : State, (s.ipRecord 1).map IpRecord.owner = some rival ∧
    redrawnDesign ≠ design ∧ s.Derives 1 redrawnDesign := by
  obtain ⟨tr, s, hrun, hlabels, hseen⟩ := played State.empty
    [act 5 inventor (.commitIp inventor design 0), act 6 inventor (.transferIp 1 rival),
      act 7 rival (.rotateCommitmentKey 1 redrawnDesign secret secret)]
    (fun s => (s.ipRecord 1).any fun r => r.owner = rival ∧ r.commitmentHash = redrawnDesign)
    (by decide +kernel)
  simp only [Option.any_eq_true, decide_eq_true_eq] at hseen
  obtain ⟨r, hr, howner, hhash⟩ := hseen
  obtain ⟨⟨_, s₃⟩, tr₂, rfl, rfl, htr₂⟩ := List.map_eq_cons_iff.mp hlabels
  obtain ⟨⟨_, s₂⟩, tr₁, rfl, rfl, htr₁⟩ := List.map_eq_cons_iff.mp htr₂
  obtain ⟨⟨_, s₁⟩, rfl, rfl⟩ := List.map_eq_singleton_iff.mp htr₁
  refine ⟨s, by rw [hr, Option.map_some, howner], by decide, ?_⟩
  rw [← hhash]
  exact (derives_iff hrun hr).mpr ⟨design, rfl, by rw [hhash]; decide⟩

/-- After a rotation the IP is still in its old shard. -/
theorem rotated_design_stale : ∃ (tr : List (Act × State)) (s : State) (r : IpRecord),
    Run (ActStep crypto) State.empty tr s ∧ s.ipRecord 1 = some r ∧
      r.commitmentHash = laterDesign ∧ s.shardIps (getCommitmentShard design) = some [1] ∧
        ¬ s.Derives 1 r.commitmentHash := by
  obtain ⟨tr, s, hrun, -, hseen⟩ := played State.empty
    [act 5 inventor (.commitIp inventor design 0),
      act 6 inventor (.rotateCommitmentKey 1 laterDesign secret secret)]
    (fun s => (s.ipRecord 1).map IpRecord.commitmentHash = some laterDesign &&
      s.shardIps (getCommitmentShard design) = some [1] &&
      s.shardIps (getCommitmentShard laterDesign) = none) (by decide +kernel)
  simp only [Bool.and_eq_true, decide_eq_true_eq] at hseen
  obtain ⟨⟨hnew, hold⟩, hnone⟩ := hseen
  obtain ⟨r, hr, hhash⟩ := Option.map_eq_some_iff.mp hnew
  refine ⟨tr, s, r, hrun, hr, hhash, hold, fun hderives => ?_⟩
  obtain ⟨ids, hids, honce⟩ := hderives.once
  rw [(Tx.load_ok.mp hids).1, hhash, hnone] at honce
  cases honce

end Designs

end AtomicIp.IpRegistry
