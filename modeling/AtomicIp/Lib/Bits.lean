import Mathlib.Data.List.Basic
import Mathlib.Data.Nat.Notation

set_option autoImplicit false

namespace AtomicIp

def byteBits (b : UInt8) : List Bool := (List.range 8).map b.toBitVec.getMsbD

def bits (bytes : List UInt8) : List Bool := bytes.flatMap byteBits

/-- The number of zeros ahead of the first one; all of them if there is no one. -/
def leadingZeroBits (bytes : List UInt8) : ℕ := (bits bytes).findIdx id

section Bits

variable {b : UInt8} {bytes : List UInt8} {n i : ℕ}

@[simp] theorem length_byteBits : (byteBits b).length = 8 := by simp [byteBits]

@[simp] theorem length_bits : (bits bytes).length = 8 * bytes.length := by
  induction bytes with
  | nil => rfl
  | cons b rest ih =>
    simp only [bits, List.flatMap_cons, List.length_append, length_byteBits, List.length_cons] at *
    omega

theorem leadingZeroBits_cons : leadingZeroBits (b :: bytes) =
    if (byteBits b).findIdx id < 8 then (byteBits b).findIdx id else leadingZeroBits bytes + 8 := by
  simp only [leadingZeroBits, bits, List.flatMap_cons, List.findIdx_append, length_byteBits]

theorem le_zeroBits_iff (hn : n ≤ 8) :
    n ≤ (byteBits b).findIdx id ↔ ∀ i < n, b.toBitVec.getMsbD i = false := by
  constructor
  · intro hle i hi
    have hbit := List.not_of_lt_findIdx (Nat.lt_of_lt_of_le hi hle)
    simpa [byteBits] using hbit
  · intro hzero
    by_contra hlt
    have hbound : (byteBits b).findIdx id < (byteBits b).length := by
      rw [length_byteBits]
      omega
    have hone : id (byteBits b)[(byteBits b).findIdx id] = true :=
      List.findIdx_getElem
    have hnone := hzero ((byteBits b).findIdx id) (by omega)
    simp only [byteBits, List.getElem_map, List.getElem_range, id] at hone hnone
    rw [hnone] at hone
    cases hone

theorem eq_zero_iff_bits : b = 0 ↔ ∀ i < 8, b.toBitVec.getMsbD i = false := by
  constructor
  · intro h i _
    rw [h]
    exact BitVec.getMsbD_zero
  · intro h
    apply UInt8.toBitVec_inj.mp
    refine BitVec.eq_of_getMsbD_eq fun i hi => ?_
    rw [h i hi]
    exact BitVec.getMsbD_zero.symm

theorem leadingZeroBits_lt (h : ∃ b ∈ bytes, b ≠ 0) : leadingZeroBits bytes < 8 * bytes.length := by
  obtain ⟨b, hb, hne⟩ := h
  rw [← length_bits, leadingZeroBits, List.findIdx_lt_length]
  have hone : ∃ i < 8, b.toBitVec.getMsbD i = true := by
    by_contra hnone
    refine hne (eq_zero_iff_bits.mpr fun i hi => ?_)
    by_contra hbit
    exact hnone ⟨i, hi, by simpa using hbit⟩
  obtain ⟨i, hi, hbit⟩ := hone
  refine ⟨true, ?_, rfl⟩
  rw [bits, List.mem_flatMap]
  exact ⟨b, hb, List.mem_map.mpr ⟨i, List.mem_range.mpr hi, hbit⟩⟩

end Bits

end AtomicIp
