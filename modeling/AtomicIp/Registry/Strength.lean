import AtomicIp.Registry.ProofOfWork
import AtomicIp.Registry.Rotations
import Mathlib.Data.Finset.Card

set_option autoImplicit false

namespace AtomicIp.IpRegistry

open Function Tx

def seenBytes (bytes : Bytes) : List Bool :=
  bytes.foldl (fun seen b => seen.set b.toNat true) (List.replicate 256 false)

def uniqueBytes (bytes : Bytes) : ℕ := ((seenBytes bytes).filter id).length

def entropyScore (hash : BytesN 32) : ℕ := uniqueBytes hash.bytes * 50 / 32

def powScore (powDifficulty : ℕ) : ℕ := if 32 ≤ powDifficulty then 50 else powDifficulty * 50 / 32

def getIpStrength (ipId : ℕ) : RegistryTx ℕ := do
  let record ← requireIpExists ipId
  let powDifficulty ← Tx.load fun s => (s.ipPowDifficulty ipId).getD 0
  pure (min (entropyScore record.commitmentHash + powScore powDifficulty) 100)

section Bytes

variable {b : UInt8} {bytes few : Bytes} {v k : ℕ}

theorem length_seenBytes : (seenBytes bytes).length = 256 := by
  have hfold : ∀ seen : List Bool,
      (bytes.foldl (fun seen b => seen.set b.toNat true) seen).length = seen.length := by
    induction bytes with
    | nil => exact fun _ => rfl
    | cons b rest ih =>
      intro seen
      rw [List.foldl_cons, ih, List.length_set]
  rw [seenBytes, hfold, List.length_replicate]

theorem seenBytes_get (hv : v < 256) :
    (seenBytes bytes)[v]? = some (decide (v ∈ bytes.map UInt8.toNat)) := by
  have hfold : ∀ seen : List Bool, ∀ old : Bool, seen[v]? = some old →
      (bytes.foldl (fun seen b => seen.set b.toNat true) seen)[v]? =
        some (old || decide (v ∈ bytes.map UInt8.toNat)) := by
    induction bytes with
    | nil =>
      intro seen old hold
      simp [hold]
    | cons b rest ih =>
      intro seen old hold
      rw [List.foldl_cons]
      by_cases hb : b.toNat = v
      · have hlt : b.toNat < seen.length := by
          rw [hb]
          exact (List.getElem?_eq_some_iff.mp hold).1
        rw [ih _ true (by rw [← hb]; exact List.getElem?_set_self hlt)]
        simp [hb]
      · rw [ih _ old (by rw [List.getElem?_set_ne hb, hold])]
        simp [Ne.symm hb]
  rw [seenBytes, hfold _ false (by rw [List.getElem?_replicate, if_pos hv]), Bool.false_or]

theorem seenBytes_eq : seenBytes bytes =
    (List.range 256).map fun v => decide (v ∈ bytes.map UInt8.toNat) := by
  refine List.ext_getElem? fun v => ?_
  by_cases hv : v < 256
  · rw [seenBytes_get hv, List.getElem?_map, List.getElem?_range hv]
    rfl
  · rw [List.getElem?_eq_none (by rw [length_seenBytes]; omega),
      List.getElem?_eq_none (by rw [List.length_map, List.length_range]; omega)]

theorem uniqueBytes_eq : uniqueBytes bytes =
    ((List.range 256).filter fun v => decide (v ∈ bytes.map UInt8.toNat)).length := by
  rw [uniqueBytes, seenBytes_eq, List.filter_map, List.length_map]
  rfl

theorem uniqueBytes_le (h : ∀ b ∈ bytes, b ∈ few) : uniqueBytes bytes ≤ few.length := by
  have hlength : (few.map UInt8.toNat).length = few.length := List.length_map _
  rw [uniqueBytes_eq, ← hlength]
  refine (List.subperm_of_subset (List.nodup_range.filter _) fun v hv => ?_).length_le
  obtain ⟨b, hb, rfl⟩ := List.mem_map.mp (of_decide_eq_true (List.mem_filter.mp hv).2)
  exact List.mem_map_of_mem (h b hb)

theorem uniqueBytes_pos (h : b ∈ bytes) : 0 < uniqueBytes bytes := by
  rw [uniqueBytes_eq]
  refine List.length_pos_of_mem (a := b.toNat) (List.mem_filter.mpr ⟨?_, ?_⟩)
  · exact List.mem_range.mpr b.toNat_lt
  · exact decide_eq_true (List.mem_map_of_mem h)

theorem take_zero (h : 8 * k ≤ leadingZeroBits bytes) : ∀ b ∈ bytes.take k, b = 0 := by
  induction bytes generalizing k with
  | nil => simp
  | cons b rest ih =>
    cases k with
    | zero => simp
    | succ k =>
      rw [leadingZeroBits_cons] at h
      have hbyte : ¬ (byteBits b).findIdx id < 8 := by
        intro hlt
        rw [if_pos hlt] at h
        omega
      have hzero : b = 0 := eq_zero_iff_bits.mpr
        ((le_zeroBits_iff (Nat.le_refl 8)).mp (Nat.le_of_not_lt hbyte))
      rw [if_neg hbyte] at h
      intro c hc
      rw [List.take_succ_cons, List.mem_cons] at hc
      rcases hc with rfl | hc
      · exact hzero
      · exact ih (by omega) c hc

theorem uniqueBytes_zeros (h : 8 * k ≤ leadingZeroBits bytes) :
    uniqueBytes bytes ≤ bytes.length - k + 1 := by
  rw [← List.length_drop, ← List.length_cons (a := 0)]
  refine uniqueBytes_le fun b hb => ?_
  rw [← List.take_append_drop k bytes, List.mem_append] at hb
  rcases hb with hb | hb
  · rw [take_zero h b hb]
    exact List.mem_cons_self
  · exact List.mem_cons_of_mem 0 hb

end Bytes

section Ratings

variable {crypto : Crypto} {env : Env} {s s' : State} {act : Act} {id : ℕ} {owner : Address}
  {hash : BytesN 32}

instance : Blind .ownerIps State.ipPowDifficulty := ⟨fun _ => rfl⟩

instance : Blind .derived State.ipPowDifficulty := ⟨fun _ => rfl⟩

theorem blind_ratings {t : Table} (h : t ≠ .ratings) : Blind t State.ipPowDifficulty := by
  cases t with
  | ratings => exact absurd rfl h
  | _ => exact ⟨fun _ => rfl⟩

theorem ActStep.ratings (hact : ActStep crypto s act s')
    (hother : ∀ owner hash difficulty, act.call ≠ .commitIp owner hash difficulty) :
    s'.ipPowDifficulty = s.ipPowDifficulty := by
  refine exec_frame State.ipPowDifficulty hact fun t ht => blind_ratings ?_
  rintro rfl
  obtain ⟨timestamp, auths, budget, call⟩ := act
  cases call with
  | commitIp owner hash difficulty => exact hother owner hash difficulty rfl
  | _ => simp [Call.writes] at ht

theorem commitIp_rates {difficulty : ℕ}
    (h : commitIp env owner hash difficulty s = .ok (id, s')) :
    difficulty ≤ leadingZeroBits hash.bytes ∧
      s'.ipPowDifficulty = update s.ipPowDifficulty s.ledger.count (some difficulty) := by
  simp [commitIp] at h
  obtain ⟨-, s₁, hadmin, hzero, -, hmet, s₂, howner, -, s₃, haudit, s₄, hshard, s₅, hcompress,
    ⟨_, hchecksum⟩, -⟩ := h
  obtain rfl := Tx.store_ok.mp hadmin
  constructor
  · have hwork := leadingZeros_hash.mp hmet
    have hlt := leadingZeroBits_hash hzero
    omega
  · have hrated := Keeps.eq State.ipPowDifficulty howner
    rw [Keeps.eq State.ipPowDifficulty hchecksum, Keeps.eq State.ipPowDifficulty hcompress,
      Keeps.eq State.ipPowDifficulty hshard, Keeps.eq State.ipPowDifficulty haudit]
    exact hrated

end Ratings

section Runs

variable {crypto : Crypto} {s s' : State} {act : Act} {i : ℕ} {tr : List (Act × State)}
  {r : IpRecord}

def Commits (hash : BytesN 32) (difficulty : ℕ) (act : Act) : Prop :=
  ∃ owner, act.call = .commitIp owner hash difficulty

/-- The rating of an IP is of work in its first hash, and a `commit_ip` asked for it. -/
def Rated (i : ℕ) (tr : List (Act × State)) (s : State) : Prop :=
  ∀ difficulty, s.ipPowDifficulty i = some difficulty → ∃ hash, (s.hashes i).head? = some hash ∧
    difficulty ≤ leadingZeroBits hash.bytes ∧
    Happened (fun _ act _ => Commits hash difficulty act) State.empty tr

theorem Rehashing.first {hash : BytesN 32} (h : Rehashing crypto act s s' i)
    (hfirst : (s.hashes i).head? = some hash) : (s'.hashes i).head? = some hash := by
  obtain ⟨rest, hrest⟩ := h.grown
  rw [← hrest, List.head?_append, hfirst]
  rfl

theorem Rated.kept (h : Rated i tr s) (hrehashing : Rehashing crypto act s s' i)
    (hsame : s'.ipPowDifficulty i = s.ipPowDifficulty i) : Rated i ((act, s') :: tr) s' := by
  intro difficulty hrating
  obtain ⟨hash, hfirst, hwork, hcommitted⟩ := h difficulty (hsame.symm.trans hrating)
  exact ⟨hash, hrehashing.first hfirst, hwork, happened_cons.mpr (.inr hcommitted)⟩

theorem Enrolls.firstHash {owner : Address} {hash : BytesN 32} {parent : Option ℕ} {env : Env}
    (h : Enrolls env owner hash parent s.ledger s'.ledger) (hwf : s.ledger.Wf)
    (hlogged : Logged crypto s.ledger.count tr s) : s'.hashes s.ledger.count = [hash] := by
  have hnone : s.hashOf s.ledger.count = none := by
    rw [State.hashOf, State.ipRecord_ledger, hwf.absent]
    rfl
  have haway : s'.ledger.rotatedAway s.ledger.count = [] := by
    rw [h.ledger]
    exact hlogged.absent hnone
  have hstored : s'.ledger.ipRecord s.ledger.count =
      some (newRecord s.ledger.count owner hash env.timestamp parent) := by
    rw [h.ledger]
    exact update_self ..
  rw [State.hashes, haway, hashOf_some hstored]
  rfl

theorem run_rated (hrun : Run (ActStep crypto) State.empty tr s) (i : ℕ) : Rated i tr s := by
  induction hrun with
  | start =>
    intro difficulty hrating
    cases (show none = some difficulty from hrating)
  | @next tr s s' act hrun hact ih =>
    have hwf := run_wf hrun
    have hrehashing := hact.rehashing hwf i
    by_cases hcommits : ∃ owner hash difficulty, act.call = .commitIp owner hash difficulty
    · obtain ⟨owner, hash, difficulty, hcall⟩ := hcommits
      have hexec := hact
      rw [ActStep, hcall] at hexec
      obtain ⟨id, hexec⟩ := Tx.void_ok.mp hexec
      obtain ⟨hwork, hrates⟩ := commitIp_rates hexec
      by_cases hi : i = s.ledger.count
      · subst hi
        intro d hrating
        rw [hrates, update_self, Option.some.injEq] at hrating
        subst hrating
        refine ⟨hash, ?_, hwork, happened_cons.mpr (.inl ⟨owner, hcall⟩)⟩
        rw [(commitIp_enrolls hexec).firstHash hwf (run_logged hrun _)]
        rfl
      · refine ih.kept hrehashing ?_
        rw [hrates, update_of_ne hi]
    · refine ih.kept hrehashing ?_
      rw [hact.ratings fun owner hash difficulty hcall => hcommits ⟨owner, hash, difficulty, hcall⟩]

theorem getIpStrength_eq (hr : s.ipRecord i = some r) : getIpStrength i s =
    .ok (min (entropyScore r.commitmentHash + powScore ((s.ipPowDifficulty i).getD 0)) 100, s) := by
  simp at hr
  simp [getIpStrength, requireIpExists, hr]

theorem entropyScore_pos {hash : BytesN 32} : 0 < entropyScore hash := by
  have hsome : hash.bytes ≠ [] := by
    intro hempty
    have hsize := hash.size
    rw [hempty] at hsize
    cases hsize
  obtain ⟨b, hb⟩ := List.exists_mem_of_ne_nil _ hsome
  have hpos := uniqueBytes_pos hb
  rw [entropyScore]
  omega

theorem scores_le {hash : BytesN 32} {difficulty : ℕ}
    (hwork : difficulty ≤ leadingZeroBits hash.bytes) :
    entropyScore hash + powScore difficulty ≤ 95 := by
  have hunique : ∀ k, 8 * k ≤ leadingZeroBits hash.bytes →
      uniqueBytes hash.bytes ≤ 32 - k + 1 := by
    intro k hk
    have hzeros := uniqueBytes_zeros hk
    rwa [hash.size] at hzeros
  have hall : uniqueBytes hash.bytes ≤ 32 := by
    have hle : uniqueBytes hash.bytes ≤ hash.bytes.length := uniqueBytes_le fun b hb => hb
    rwa [hash.size] at hle
  rw [entropyScore, powScore]
  by_cases hfour : 32 ≤ difficulty
  · have hle := hunique 4 (by omega)
    rw [if_pos hfour]
    omega
  · rw [if_neg hfour]
    by_cases hthree : 24 ≤ difficulty
    · have hle := hunique 3 (by omega)
      omega
    · by_cases htwo : 16 ≤ difficulty
      · have hle := hunique 2 (by omega)
        omega
      · omega

/-- In every run a registered IP has a strength from 1 to 100, in which the work counted is work
that the first of its hashes has and a `commit_ip` asked for. Unrotated, it has 95 at most. -/
theorem strength_earned (hrun : Run (ActStep crypto) State.empty tr s)
    (hr : s.ipRecord i = some r) :
    ∃ strength hashes first difficulty, getIpStrength i s = .ok (strength, s) ∧
      getKeyRotationHistory i s = .ok (hashes, s) ∧
      (hashes ++ [r.commitmentHash]).head? = some first ∧
      strength = min (entropyScore r.commitmentHash + powScore difficulty) 100 ∧
      difficulty ≤ leadingZeroBits first.bytes ∧
      (0 < difficulty →
        Happened (fun _ act _ => Commits first difficulty act) State.empty tr) ∧
      0 < strength ∧ (hashes = [] → strength ≤ 95) := by
  have hhashes : s.hashes i = s.ledger.rotatedAway i ++ [r.commitmentHash] := by
    rw [State.hashes, hashOf_some hr]
    rfl
  obtain ⟨first, difficulty, hfirst, hdifficulty, hwork, hcommitted⟩ : ∃ first difficulty,
      (s.ledger.rotatedAway i ++ [r.commitmentHash]).head? = some first ∧
      (s.ipPowDifficulty i).getD 0 = difficulty ∧ difficulty ≤ leadingZeroBits first.bytes ∧
      (0 < difficulty →
        Happened (fun _ act _ => Commits first difficulty act) State.empty tr) := by
    cases hrating : s.ipPowDifficulty i with
    | some difficulty =>
      obtain ⟨first, hfirst, hwork, hcommitted⟩ := run_rated hrun i difficulty hrating
      exact ⟨first, difficulty, hhashes ▸ hfirst, rfl, hwork, fun _ => hcommitted⟩
    | none =>
      obtain ⟨first, hfirst⟩ : ∃ first,
          (s.ledger.rotatedAway i ++ [r.commitmentHash]).head? = some first :=
        Option.isSome_iff_exists.mp (by simp)
      exact ⟨first, 0, hfirst, rfl, Nat.zero_le _, fun hpos => absurd hpos (Nat.lt_irrefl 0)⟩
  have hpos : 0 < entropyScore r.commitmentHash := entropyScore_pos
  have hstrength := getIpStrength_eq hr
  rw [hdifficulty] at hstrength
  refine ⟨_, _, first, difficulty, hstrength, getKeyRotationHistory_eq hr, hfirst, rfl, hwork,
    hcommitted, by omega, fun hnone => ?_⟩
  rw [hnone, List.nil_append, List.head?_cons, Option.some.injEq] at hfirst
  have hle := scores_le (hfirst ▸ hwork)
  omega

end Runs

section Designs

open Scenario

def minedDesign : BytesN 32 :=
  ⟨[0, 0, 0, 0, 1, 2, 3, 4, 5, 6, 7, 8, 9, 10, 11, 12, 13, 14, 15, 16, 17, 18, 19, 20, 21, 22, 23,
    24, 25, 26, 27, 28], rfl⟩

theorem design_rated : ∃ (tr : List (Act × State)) (s : State) (strength : ℕ)
    (hashes : List (BytesN 32)), Run (ActStep Scenario.crypto) State.empty tr s ∧
      getIpStrength 1 s = .ok (strength, s) ∧ getKeyRotationHistory 1 s = .ok (hashes, s) ∧
      (hashes = [] → strength ≤ 95) := by
  obtain ⟨tr, s, hrun, -, hseen⟩ := played State.empty
    [act 5 inventor (.commitIp inventor minedDesign 32)]
    (fun s => (s.ipRecord 1).isSome) (by decide)
  obtain ⟨r, hr⟩ := Option.isSome_iff_exists.mp hseen
  obtain ⟨strength, hashes, first, difficulty, hview, hhistory, -, -, -, -, -, hle⟩ :=
    strength_earned hrun hr
  exact ⟨tr, s, strength, hashes, hrun, hview, hhistory, hle⟩

example : entropyScore minedDesign + powScore 32 = 95 := by decide

end Designs

end AtomicIp.IpRegistry
