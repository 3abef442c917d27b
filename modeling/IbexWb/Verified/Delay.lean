import IbexWb.Sw.Led
import Mathlib.Computability.StateTransition

/-! # How long `usleep` waits

The delay loop tests its counter behind the decrement, so it makes `2 ^ 32` rounds for a counter
that starts at zero.  `usleep_ibex` starts it at zero for 0 microseconds, and drops the high bits
of the number of rounds for more than 687 seconds.  For all times in between it waits the 50 cycles
of each microsecond, rounded down to a whole number of rounds.
-/

namespace IbexWb.Led

open StateTransition

/-- The rounds that the loop makes. -/
def rounds (loops : BitVec 32) : Nat := if loops = 0 then 2 ^ 32 else loops.toNat

/-- One round takes eight cycles. -/
theorem reaches_round (loops : BitVec 32) (cycles : Nat) : Reaches delayStep ⟨0, loops, cycles⟩
    ⟨if loops - 1 = 0 then 6 else 0, loops - 1, cycles + 8⟩ := by
  -- `addi` has no counterpart that subtracts
  have minusOne : loops + (-1 : BitVec 12).signExtend 32 = loops - 1 :=
    (BitVec.sub_eq_add_neg loops 1).symm
  have branch : delayStep ⟨5, loops - 1, cycles + 5⟩ =
      some ⟨if loops - 1 = 0 then 6 else 0, loops - 1, cycles + 8⟩ := rfl
  have decrement : delayStep ⟨4, loops, cycles + 4⟩ = some ⟨5, loops - 1, cycles + 5⟩ :=
    congrArg (fun value => some (⟨5, value, cycles + 5⟩ : Timed)) minusOne
  refine .head rfl (.head rfl (.head rfl (.head rfl ?_)))
  exact .head decrement (.single branch)

theorem reaches_exit (count : Nat) (least : 1 ≤ count) (most : count ≤ 2 ^ 32) (cycles : Nat) :
    Reaches delayStep ⟨0, BitVec.ofNat 32 count, cycles⟩ ⟨6, 0, cycles + 8 * count⟩ := by
  induction count, least using Nat.le_induction generalizing cycles with
  | base => exact reaches_round 1 cycles
  | succ count least inductionHypothesis =>
    have round := reaches_round (BitVec.ofNat 32 (count + 1)) cycles
    have left : BitVec.ofNat 32 (count + 1) - 1 = BitVec.ofNat 32 count := by
      rw [BitVec.ofNat_add]
      exact BitVec.add_sub_cancel _ _
    have some : BitVec.ofNat 32 count ≠ 0 := by
      intro zero
      have value := congrArg BitVec.toNat zero
      simp only [BitVec.toNat_ofNat, BitVec.ofNat_eq_ofNat] at value
      omega
    rw [left, if_neg some] at round
    have rest := inductionHypothesis (by omega) (cycles + 8)
    have total : cycles + 8 + 8 * count = cycles + 8 * (count + 1) := by omega
    exact round.trans (total ▸ rest)

/-- The loop ends for every counter. -/
theorem eval_delay (loops : BitVec 32) :
    eval delayStep ⟨0, loops, 0⟩ = Part.some ⟨6, 0, 8 * rounds loops⟩ := by
  refine Part.eq_some_iff.mpr (mem_eval.mpr ⟨?_, rfl⟩)
  have counted : BitVec.ofNat 32 (rounds loops) = loops := by
    rw [rounds]
    split
    · next zero => exact zero.symm
    · exact (BitVec.ofNat_toNat 32 loops).trans (BitVec.setWidth_eq loops)
  have bounds : 1 ≤ rounds loops ∧ rounds loops ≤ 2 ^ 32 := by
    have below := loops.isLt
    rw [rounds]
    split
    · decide
    · next some =>
      have positive : loops.toNat ≠ 0 := fun zero => some (BitVec.eq_of_toNat_eq zero)
      omega
  have exits := reaches_exit (rounds loops) bounds.1 bounds.2 0
  rwa [counted, Nat.zero_add] at exits

/-- The division is exact on 64 bits, and 32 of them are kept. -/
theorem toNat_usecCycles (usec : BitVec 32) :
    (usecCycles usec).toNat = 50 * usec.toNat / 8 % 2 ^ 32 := by
  have small := usec.isLt
  have frequency : clkFixedFreqHz.toNat = 50000000 := by decide
  have thousand : (1000 : BitVec 64).toNat = 1000 := by decide
  have eight : (8 : BitVec 64).toNat = 8 := by decide
  have whole : usec.toNat < 2 ^ 64 := Nat.lt_trans small (by decide)
  have product : 50000000 * usec.toNat < 2 ^ 64 := by omega
  have quotient : 50000000 * usec.toNat / 1000 / 1000 / 8 = 50 * usec.toNat / 8 := by
    rw [Nat.div_div_eq_div_mul, Nat.div_div_eq_div_mul]
    omega
  simp only [usecCycles, BitVec.toNat_setWidth, BitVec.toNat_udiv, BitVec.toNat_mul, frequency,
    thousand, eight, Nat.mod_eq_of_lt whole, Nat.mod_eq_of_lt product, quotient]

theorem rounds_usecCycles (usec : BitVec 32) : rounds (usecCycles usec) =
    if 50 * usec.toNat / 8 % 2 ^ 32 = 0 then 2 ^ 32 else 50 * usec.toNat / 8 % 2 ^ 32 := by
  have zero : usecCycles usec = 0 ↔ 50 * usec.toNat / 8 % 2 ^ 32 = 0 := by
    rw [← toNat_usecCycles]
    exact BitVec.toNat_inj.symm
  rw [rounds, toNat_usecCycles]
  exact if_congr zero rfl rfl

theorem waits_iff (usec : BitVec 32) :
    (∃ final ∈ eval delayStep (usleepIbex usec),
      final.cycles ≤ 50 * usec.toNat ∧ 50 * usec.toNat < final.cycles + 8) ↔
      1 ≤ usec.toNat ∧ usec.toNat ≤ 687194767 := by
  have small := usec.isLt
  simp only [usleepIbex, eval_delay, Part.mem_some_iff, exists_eq_left]
  have whole : (8 * rounds (usecCycles usec) ≤ 50 * usec.toNat ∧
      50 * usec.toNat < 8 * rounds (usecCycles usec) + 8) ↔
        rounds (usecCycles usec) = 50 * usec.toNat / 8 := by omega
  have fits : 50 * usec.toNat / 8 < 2 ^ 32 ↔ usec.toNat ≤ 687194767 := by omega
  have none : 50 * usec.toNat / 8 = 0 ↔ usec.toNat = 0 := by omega
  have other : 50 * usec.toNat / 8 ≠ 2 ^ 32 := by omega
  rw [whole, rounds_usecCycles, ← fits, Nat.one_le_iff_ne_zero, ne_eq, ← none]
  -- the quotient is below `2 ^ 35`, and only its low 32 bits reach the loop
  generalize 50 * usec.toNat / 8 = quotient at *
  split
  · next multiple =>
    constructor
    · exact fun equal => absurd equal.symm other
    · rintro ⟨positive, below⟩
      exact absurd ((Nat.mod_eq_of_lt below).symm.trans multiple) positive
  · next some =>
    constructor
    · intro equal
      exact ⟨fun zero => some (equal.trans zero), equal ▸ Nat.mod_lt _ (by decide)⟩
    · exact fun bounds => Nat.mod_eq_of_lt bounds.2

/-- The loop of `usleep_ibex` ends for every time, after eight cycles for each of its rounds: as many
as the low 32 bits of the quotient say, but `2 ^ 32` where these are zero, as for 0 microseconds.
So it waits as long as it is asked to, up to one round, exactly for the times from 1 microsecond to
687194767. -/
theorem usleep_iff (usec : BitVec 32) :
    eval delayStep (usleepIbex usec) = Part.some ⟨6, 0, 8 * rounds (usecCycles usec)⟩ ∧
      rounds (usecCycles usec) =
        (if 50 * usec.toNat / 8 % 2 ^ 32 = 0 then 2 ^ 32 else 50 * usec.toNat / 8 % 2 ^ 32) ∧
      rounds (usecCycles 0) = 2 ^ 32 ∧
      ((∃ final ∈ eval delayStep (usleepIbex usec),
        final.cycles ≤ 50 * usec.toNat ∧ 50 * usec.toNat < final.cycles + 8) ↔
        1 ≤ usec.toNat ∧ usec.toNat ≤ 687194767) :=
  ⟨eval_delay (usecCycles usec), rounds_usecCycles usec, rounds_usecCycles 0, waits_iff usec⟩

end IbexWb.Led
