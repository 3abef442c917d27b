import IbexWb.Binary.Congruential
import IbexWb.Sw.Beebsc

/-! # The random numbers of `beebsc.c`

The seed runs through all residues modulo `2 ^ 31`, and a result has its upper 15 bits.  So the low
bits of the results are worse than the high ones, but all of them are uniform over their period.
-/

namespace IbexWb.Beebsc

open Binary Binary.Congruential

/-- The result of the call with a number, the first one being zero. -/
def draw (seed : BitVec 32) (number : Nat) : BitVec 32 :=
  (rand ((fun seed => (rand seed).2)^[number] seed)).1

/-- `1103515245` is `4 b + 1` for this `b`. -/
def factor : Nat := 275878811

theorem toNat_rand (seed : BitVec 32) :
    (rand seed).2.toNat = next factor 12345 seed.toNat % 2 ^ 31 := by
  have mask : (BitVec.ofNat 32 (1 <<< 31 - 1)).toNat = 2 ^ 31 - 1 := by decide
  have multiplier : (1103515245#32).toNat = 4 * factor + 1 := by decide
  have increment : (12345#32).toNat = 12345 := by decide
  rw [rand, BitVec.toNat_and, mask, Nat.and_two_pow_sub_one_eq_mod, BitVec.toNat_add,
    BitVec.toNat_mul, multiplier, increment, next, Nat.mul_comm, factor]
  omega

theorem seed_modEq (seed : BitVec 32) (number : Nat) :
    ((fun seed => (rand seed).2)^[number] seed).toNat ≡ (next factor 12345)^[number] seed.toNat
      [MOD 2 ^ 31] := by
  induction number with
  | zero => exact Nat.ModEq.refl _
  | succ number inductionHypothesis =>
    rw [Function.iterate_succ_apply', Function.iterate_succ_apply', toNat_rand]
    exact (Nat.mod_modEq _ _).trans ((inductionHypothesis.mul_left _).add_right _)

/-- The low bits of a result are a window of the sequence. -/
theorem draw_mod (seed : BitVec 32) (number : Nat) {bits : Nat} (few : bits ≤ 15) :
    (draw seed number).toNat % 2 ^ bits =
      window 16 bits ((next factor 12345)^[1 + number] seed.toNat) := by
  have shifted : (draw seed number).toNat =
      ((fun seed => (rand seed).2)^[number + 1] seed).toNat / 2 ^ 16 := by
    rw [Function.iterate_succ_apply', ← Nat.shiftRight_eq_div_pow]
    exact BitVec.toNat_ushiftRight _ _
  rw [shifted, Nat.add_comm 1]
  exact window_of_modEq ((seed_modEq seed (number + 1)).of_dvd (pow_dvd_pow 2 (by omega)))

/-- The low bits of the results repeat after as many calls as there are values of the places of the
seed that they depend on, and not earlier. -/
theorem rand_periodic (seed : BitVec 32) {bits : Nat} (some : 0 < bits) (few : bits ≤ 15)
    (first second : Nat) :
    (∀ number, (draw seed (first + number)).toNat % 2 ^ bits =
        (draw seed (second + number)).toNat % 2 ^ bits) ↔
      first ≡ second [MOD 2 ^ (16 + bits)] := by
  simp only [draw_mod seed _ few, ← Nat.add_assoc]
  rw [window_periodic (by decide) some]
  exact ⟨Nat.ModEq.add_left_cancel' 1, Nat.ModEq.add_left 1⟩

theorem rand_periodic_all : (∀ number, (draw 0 (7 + number)).toNat % 2 ^ 15 =
      (draw 0 (7 + 2 ^ 31 + number)).toNat % 2 ^ 15) ↔
    7 ≡ 7 + 2 ^ 31 [MOD 2 ^ (16 + 15)] :=
  rand_periodic 0 (by decide) (Nat.le_refl 15) 7 (7 + 2 ^ 31)

/-- Over a period each value of the low bits comes equally often. -/
theorem rand_uniform (seed : BitVec 32) {bits : Nat} (few : bits ≤ 15) {value : Nat}
    (small : value < 2 ^ bits) (first : Nat) :
    ((Finset.range (2 ^ (16 + bits))).filter fun number =>
      (draw seed (first + number)).toNat % 2 ^ bits = value).card = 2 ^ 16 := by
  simp only [draw_mod seed _ few, ← Nat.add_assoc]
  exact window_uniform (by decide) small (1 + first) seed.toNat

theorem rand_uniform_top : ((Finset.range (2 ^ (16 + 15))).filter fun number =>
    (draw 0 (3 + number)).toNat % 2 ^ 15 = 32767).card = 2 ^ 16 :=
  rand_uniform 0 (Nat.le_refl 15) (by decide) 3

end IbexWb.Beebsc
