import Mathlib.Algebra.Group.Nat.Defs
import Mathlib.Tactic.Common

/-! # Naturally aligned regions

A region whose size is a power of two and whose base is a multiple of it can be decoded without
an adder: an address lies in it exactly when it agrees with the base in the bits that the mask
`~(size - 1)` keeps.
-/

namespace IbexWb.Memory

variable {width exponent : Nat}

def regionMask (size : BitVec width) : BitVec width := ~~~(size - BitVec.ofNat width 1)

variable {size : BitVec width}

/-- The mask of a power of two keeps the bits from the exponent on. -/
theorem getLsbD_regionMask (power : size.toNat = 2 ^ exponent) (bit : Nat) :
    (regionMask size).getLsbD bit = (decide (bit < width) && decide (exponent ≤ bit)) := by
  by_cases inside : bit < width
  · have inRange : 2 ^ exponent < 2 ^ width := power ▸ size.isLt
    have below : (size - BitVec.ofNat width 1).toNat = 2 ^ exponent - 1 := by
      have one : (BitVec.ofNat width 1).toNat = 1 := by
        rw [BitVec.toNat_ofNat, Nat.mod_eq_of_lt (Nat.one_lt_two_pow (by omega))]
      rw [BitVec.toNat_sub_of_le (BitVec.le_def.mpr (by rw [one, power]; exact Nat.two_pow_pos _)),
        one, power]
    rw [regionMask, BitVec.getLsbD_not, ← BitVec.testBit_toNat, below, Nat.testBit_two_pow_sub_one]
    by_cases low : bit < exponent
    · simp [low, inside]
    · simp [low, inside, Nat.not_lt.mp low]
  · rw [BitVec.getLsbD_of_ge _ _ (by omega)]
    simp [inside]

/-- Under the mask a value vanishes when its bits from the exponent on do. -/
theorem and_regionMask_eq_zero (power : size.toNat = 2 ^ exponent) (value : BitVec width) :
    value &&& regionMask size = BitVec.ofNat width 0 ↔ value >>> exponent = BitVec.ofNat width 0 := by
  constructor
  · intro masked
    apply BitVec.eq_of_getLsbD_eq
    intro bit _
    have kept := congrArg (fun vector => vector.getLsbD (exponent + bit)) masked
    simp only [BitVec.getLsbD_and, getLsbD_regionMask power, BitVec.getLsbD_zero] at kept
    rw [BitVec.getLsbD_ushiftRight, BitVec.getLsbD_zero]
    by_cases inside : exponent + bit < width
    · simpa [inside] using kept
    · exact BitVec.getLsbD_of_ge _ _ (by omega)
  · intro small
    apply BitVec.eq_of_getLsbD_eq
    intro bit _
    rw [BitVec.getLsbD_and, getLsbD_regionMask power, BitVec.getLsbD_zero]
    by_cases high : exponent ≤ bit
    · have cleared := congrArg (fun vector => vector.getLsbD (bit - exponent)) small
      simp only [BitVec.getLsbD_ushiftRight, BitVec.getLsbD_zero, Nat.add_sub_cancel' high] at cleared
      rw [cleared, Bool.false_and]
    · simp [high]

theorem div_eq_div_iff_mem {base adr unit : Nat} (positive : 0 < unit) (aligned : unit ∣ base) :
    adr / unit = base / unit ↔ base ≤ adr ∧ adr < base + unit := by
  obtain ⟨index, rfl⟩ := aligned
  rw [Nat.mul_div_cancel_left _ positive, Nat.div_eq_iff positive, Nat.mul_comm index unit]
  omega

/-- The comparison under the mask is membership in the interval. -/
theorem xor_and_regionMask_eq_zero (power : size.toNat = 2 ^ exponent) {base adr : BitVec width}
    (aligned : size.toNat ∣ base.toNat) :
    (adr ^^^ base) &&& regionMask size = BitVec.ofNat width 0 ↔
      base.toNat ≤ adr.toNat ∧ adr.toNat < base.toNat + size.toNat := by
  rw [and_regionMask_eq_zero power, BitVec.ushiftRight_xor_distrib, BitVec.xor_eq_zero_iff,
    ← BitVec.toNat_inj, BitVec.toNat_ushiftRight, BitVec.toNat_ushiftRight,
    Nat.shiftRight_eq_div_pow, Nat.shiftRight_eq_div_pow, ← power]
  exact div_eq_div_iff_mem (power ▸ Nat.two_pow_pos _) aligned

end IbexWb.Memory
