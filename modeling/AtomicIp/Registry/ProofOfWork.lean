import AtomicIp.Lib.Bits
import AtomicIp.Registry.Tables

set_option autoImplicit false

namespace AtomicIp.IpRegistry

def getPowDifficulty : RegistryTx ℕ := Tx.load fun s => s.powDifficulty.getD 4

/-- Without a stored difficulty it does not ask for the one `getPowDifficulty` shows. -/
def verifyCommitmentPow (sha256 : Bytes → BytesN 32) (commitmentHash : BytesN 32) (nonce : ℕ) :
    RegistryTx Bool := do
  let difficulty ← Tx.load fun s => s.powDifficulty.getD 2
  if difficulty = 0 then pure true
  else meetsPow (sha256 (commitmentHash.bytes ++ u64BeBytes nonce)).bytes difficulty

section Loop

variable {byte : UInt8} {bytes : Bytes} {hash : BytesN 32} {bits difficulty : ℕ} {s : State}

theorem leadingMask_getMsbD : ∀ bits < 9, 0 < bits → ∀ i < 8,
    (leadingMask bits).toBitVec.getMsbD i = decide (i < bits) := by decide

theorem masked_eq_zero (hpos : 0 < bits) (hle : bits ≤ 8) :
    byte &&& leadingMask bits = 0 ↔ bits ≤ (byteBits byte).findIdx id := by
  rw [le_zeroBits_iff hle, eq_zero_iff_bits]
  have hmasked : ∀ i < 8, (byte &&& leadingMask bits).toBitVec.getMsbD i =
      (byte.toBitVec.getMsbD i && decide (i < bits)) := by
    intro i hi
    rw [UInt8.toBitVec_and, BitVec.getMsbD_and, leadingMask_getMsbD bits (by omega) hpos i hi]
  constructor
  · intro h i hi
    have hbit := h i (by omega)
    rw [hmasked i (by omega)] at hbit
    simpa [hi] using hbit
  · intro h i hi
    rw [hmasked i hi]
    by_cases hlt : i < bits
    · rw [h i hlt]
      rfl
    · simp [hlt]

theorem leadingZeros_iff : leadingZeros bytes difficulty = true ↔
    min difficulty (8 * bytes.length) ≤ leadingZeroBits bytes := by
  induction bytes generalizing difficulty with
  | nil => simp [leadingZeros]
  | cons byte rest ih =>
    by_cases hzero : difficulty = 0
    · simp [hzero]
    · have hmask : byte &&& leadingMask (min 8 difficulty) = 0 ↔
          min 8 difficulty ≤ (byteBits byte).findIdx id := masked_eq_zero (by omega) (by omega)
      have hbyte : (byteBits byte).findIdx id ≤ 8 := by
        rw [← length_byteBits (b := byte)]
        exact List.findIdx_le_length
      rw [leadingZeros, if_neg hzero, leadingZeroBits_cons, List.length_cons]
      by_cases hpass : byte &&& leadingMask (min 8 difficulty) = 0
      · have hbits := hmask.mp hpass
        rw [if_neg (not_not_intro hpass), ih]
        split <;> omega
      · have hbits := mt hmask.mpr hpass
        rw [if_pos hpass, if_pos (by omega)]
        constructor
        · intro h
          cases h
        · intro h
          omega

theorem leadingZeros_hash : leadingZeros hash.bytes difficulty = true ↔
    min difficulty 256 ≤ leadingZeroBits hash.bytes := by
  rw [leadingZeros_iff, hash.size]

theorem leadingZeroBits_hash (hne : hash ≠ .zero 32) : leadingZeroBits hash.bytes < 256 := by
  have hbyte : ∃ b ∈ hash.bytes, b ≠ 0 := by
    by_contra hnone
    refine hne (BytesN.ext (List.eq_replicate_iff.mpr ⟨hash.size, fun b hb => ?_⟩))
    by_contra hb0
    exact hnone ⟨b, hb, hb0⟩
  have hlt := leadingZeroBits_lt hbyte
  rwa [hash.size] at hlt

theorem requirePow_eq : requirePow hash difficulty s =
    if min difficulty 256 ≤ leadingZeroBits hash.bytes then .ok ((), s)
    else .error (.contract .insufficientPoW) := by
  by_cases hmet : leadingZeros hash.bytes difficulty = true
  · rw [if_pos (leadingZeros_hash.mp hmet)]
    exact requirePow_ok.mpr ⟨hmet, rfl⟩
  · have hpos : difficulty ≠ 0 := by
      intro hzero
      exact hmet (hzero ▸ leadingZeros_zero)
    rw [if_neg (mt leadingZeros_hash.mpr hmet), requirePow, Tx.onlyIf, if_pos hpos,
      Tx.bind_of_ok meetsPow_eq, require, Tx.ensure, if_neg hmet]
    rfl

/-- A hash that is not all zero passes exactly with as many leading zeros as asked for, and
nothing overflows. -/
theorem requirePow_iff (hne : hash ≠ .zero 32) (difficulty : ℕ) (s : State) :
    (requirePow hash difficulty s = .ok ((), s) ↔ difficulty ≤ leadingZeroBits hash.bytes) ∧
      (¬ difficulty ≤ leadingZeroBits hash.bytes →
        requirePow hash difficulty s = .error (.contract .insufficientPoW)) ∧
      requirePow hash difficulty s ≠ .error .overflow := by
  have hlt := leadingZeroBits_hash hne
  rw [requirePow_eq]
  by_cases hmet : difficulty ≤ leadingZeroBits hash.bytes
  · rw [if_pos (by omega)]
    simp [hmet]
  · rw [if_neg (by omega)]
    simp [hmet]

theorem requirePow_ones :
    (requirePow (.fill 32 1) 7 State.empty = .ok ((), State.empty) ↔
      7 ≤ leadingZeroBits (BytesN.fill 32 1).bytes) ∧
    (requirePow (.fill 32 1) 300 State.empty = .ok ((), State.empty) ↔
      300 ≤ leadingZeroBits (BytesN.fill 32 1).bytes) ∧
    leadingZeroBits (BytesN.fill 32 1).bytes = 7 := by
  have hne : BytesN.fill 32 1 ≠ .zero 32 := by decide
  exact ⟨(requirePow_iff hne 7 State.empty).1, (requirePow_iff hne 300 State.empty).1, by decide⟩

end Loop

section Verifier

variable {crypto : Crypto} {sha256 : Bytes → BytesN 32} {hash : BytesN 32} {nonce : ℕ}
  {tr : List (Act × State)} {s : State}

/-- The verifier asks for the difficulty that is shown. -/
def EnforcesPow (sha256 : Bytes → BytesN 32) (hash : BytesN 32) (nonce : ℕ) (s : State) : Prop :=
  ∃ difficulty, getPowDifficulty s = .ok (difficulty, s) ∧
    (verifyCommitmentPow sha256 hash nonce s = .ok (true, s) ↔
      difficulty ≤ leadingZeroBits (sha256 (hash.bytes ++ u64BeBytes nonce)).bytes)

theorem run_powDifficulty (hrun : Run (ActStep crypto) State.empty tr s) :
    s.powDifficulty = none := by
  refine hrun.invariant (I := fun s => s.powDifficulty = none) rfl fun _ _ _ hnone hact => ?_
  rw [exec_frame State.powDifficulty hact fun t _ => ⟨fun s => by cases t <;> rfl⟩]
  exact hnone

theorem verifyCommitmentPow_iff : verifyCommitmentPow sha256 hash nonce s = .ok (true, s) ↔
    min (s.powDifficulty.getD 2) 256 ≤
      leadingZeroBits (sha256 (hash.bytes ++ u64BeBytes nonce)).bytes := by
  rw [verifyCommitmentPow, Tx.load_bind_ok, ← leadingZeros_hash]
  by_cases hzero : s.powDifficulty.getD 2 = 0
  · rw [if_pos hzero, hzero, leadingZeros_zero]
    exact ⟨fun _ => rfl, fun _ => rfl⟩
  · rw [if_neg hzero, meetsPow_eq]
    simp

/-- What is verified is what is shown, but for two or three leading zeros. -/
theorem enforcesPow_iff (hrun : Run (ActStep crypto) State.empty tr s)
    (sha256 : Bytes → BytesN 32) (hash : BytesN 32) (nonce : ℕ) :
    EnforcesPow sha256 hash nonce s ↔
      leadingZeroBits (sha256 (hash.bytes ++ u64BeBytes nonce)).bytes ≠ 2 ∧
        leadingZeroBits (sha256 (hash.bytes ++ u64BeBytes nonce)).bytes ≠ 3 := by
  have hshown : getPowDifficulty s = .ok (4, s) := by
    rw [getPowDifficulty, Tx.load, run_powDifficulty hrun]
    rfl
  have hverified : verifyCommitmentPow sha256 hash nonce s = .ok (true, s) ↔
      2 ≤ leadingZeroBits (sha256 (hash.bytes ++ u64BeBytes nonce)).bytes := by
    rw [verifyCommitmentPow_iff, run_powDifficulty hrun]
    rfl
  constructor
  · intro h
    obtain ⟨difficulty, hdifficulty, hiff⟩ := h
    rw [hshown] at hdifficulty
    cases hdifficulty
    rw [hverified] at hiff
    omega
  · intro h
    refine ⟨4, hshown, hverified.trans ?_⟩
    omega

end Verifier

section Scenarios

open Scenario

namespace Scenario

def threeZeros : BytesN 32 :=
  ⟨[18, 103, 194, 18, 250, 130, 142, 158, 80, 10, 95, 196, 48, 113, 56, 201, 21, 10, 148, 39,
    244, 120, 40, 129, 113, 106, 200, 89, 90, 74, 199, 24], rfl⟩

def fourZeros : BytesN 32 :=
  ⟨[11, 212, 245, 33, 72, 19, 137, 82, 113, 46, 149, 132, 239, 157, 184, 229, 90, 175, 68, 212,
    212, 4, 84, 28, 103, 179, 45, 58, 239, 105, 168, 225], rfl⟩

def powSha256 (data : Bytes) : BytesN 32 :=
  if data = laterDesign.bytes ++ u64BeBytes 0 then threeZeros
  else if data = laterDesign.bytes ++ u64BeBytes 7 then fourZeros
  else .zero 32

end Scenario

theorem four_zeros_enforced : ∃ tr s, Run (ActStep crypto) State.empty tr s ∧
    s.nextId = some 2 ∧ EnforcesPow powSha256 laterDesign 7 s := by
  obtain ⟨tr, s, hrun, -, hseen⟩ := played State.empty
    [act 5 inventor (.commitIp inventor design 0)] (fun s => s.nextId = some 2) rfl
  refine ⟨tr, s, hrun, of_decide_eq_true hseen, ?_⟩
  exact (enforcesPow_iff hrun powSha256 laterDesign 7).mpr ⟨by decide, by decide⟩

theorem three_zeros_pass : getPowDifficulty State.empty = .ok (4, State.empty) ∧
    verifyCommitmentPow powSha256 laterDesign 0 State.empty = .ok (true, State.empty) ∧
    ¬ 4 ≤ leadingZeroBits (powSha256 (laterDesign.bytes ++ u64BeBytes 0)).bytes :=
  ⟨rfl, rfl, by decide⟩

end Scenarios

end AtomicIp.IpRegistry
