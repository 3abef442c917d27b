import IbexWb.Binary.Lfsr
import Mathlib.Algebra.CharP.Two
import Mathlib.Algebra.Field.ZMod
import Mathlib.Algebra.Polynomial.Div
import Mathlib.Data.List.Induction
import Mathlib.Tactic.Ring

/-! # Registers as remainders of polynomials

The places of a shift register are the coefficients of a polynomial over the field with two
elements, the highest one in the lowest place.  A shift multiplies with `X` and takes the remainder
modulo the generator, so a message that is absorbed leaves the remainder of its polynomial.
-/

namespace IbexWb.Binary.Lfsr

open Polynomial

variable {width : Nat}

noncomputable def coefficients (register : BitVec width) : (ZMod 2)[X] :=
  ∑ place : Fin width, if register.getLsbD place then X ^ (width - 1 - place) else 0

noncomputable def generator (feedback : BitVec width) : (ZMod 2)[X] :=
  X ^ width + coefficients feedback

/-- The first bit of a message has the highest degree. -/
noncomputable def message (bits : List Bool) : (ZMod 2)[X] :=
  bits.foldl (fun polynomial bit => X * polynomial + if bit then 1 else 0) 0

theorem degree_coefficients (register : BitVec width) : (coefficients register).degree < width := by
  refine (degree_sum_le _ _).trans_lt ((Finset.sup_lt_iff (WithBot.bot_lt_coe _)).mpr ?_)
  intro place _
  split
  · refine (degree_X_pow_le _).trans_lt ?_
    have inside := place.isLt
    exact Nat.cast_lt.mpr (by omega)
  · rw [degree_zero]
    exact WithBot.bot_lt_coe _

theorem monic_generator (feedback : BitVec width) : (generator feedback).Monic :=
  monic_X_pow_add (degree_coefficients feedback)

theorem degree_generator (feedback : BitVec width) : (generator feedback).degree = width := by
  have lower : (coefficients feedback).degree < (X ^ width : (ZMod 2)[X]).degree := by
    rw [degree_X_pow]
    exact degree_coefficients feedback
  rw [generator, degree_add_eq_left_of_degree_lt lower, degree_X_pow]

theorem coefficients_xor (x y : BitVec width) :
    coefficients (x ^^^ y) = coefficients x + coefficients y := by
  rw [coefficients, coefficients, coefficients, ← Finset.sum_add_distrib]
  refine Finset.sum_congr rfl fun place _ => ?_
  rw [BitVec.getLsbD_xor]
  cases x.getLsbD place <;> cases y.getLsbD place <;> simp [CharTwo.add_self_eq_zero]

theorem coefficients_ite (bit : Bool) (word : BitVec width) :
    coefficients (if bit then word else 0) = if bit then coefficients word else 0 := by
  cases bit with
  | true => rfl
  | false => exact Finset.sum_eq_zero fun place _ => if_neg (by simp)

theorem coefficients_first (positive : 0 < width) :
    coefficients (BitVec.twoPow width 0) = X ^ (width - 1) := by
  obtain ⟨rest, rfl⟩ := Nat.exists_eq_add_one.mpr positive
  rw [coefficients, Fin.sum_univ_succ]
  simp

/-- A shift without feedback, and the bit that falls out. -/
theorem X_mul_coefficients (register : BitVec width) : X * coefficients register =
    coefficients (register >>> 1) + if register.getLsbD 0 then X ^ width else 0 := by
  cases width with
  | zero => simp [coefficients]
  | succ rest =>
    have inner : ∀ place : Fin rest,
        X * (if register.getLsbD (place.val + 1) then
          (X : (ZMod 2)[X]) ^ (rest + 1 - 1 - (place.val + 1)) else 0) =
        if (register >>> 1).getLsbD place then X ^ (rest + 1 - 1 - place.val) else 0 := by
      intro place
      have inside := place.isLt
      have degree : rest - place.val = rest - (place.val + 1) + 1 := by omega
      rw [BitVec.getLsbD_ushiftRight, Nat.add_comm 1, Nat.add_sub_cancel, degree]
      split
      · rw [pow_succ']
      · exact mul_zero X
    rw [coefficients, coefficients, Fin.sum_univ_succ, Fin.sum_univ_castSucc, mul_add,
      Finset.mul_sum]
    have last : (register >>> 1).getLsbD rest = false := by simp
    have first : X * (if register.getLsbD 0 then (X : (ZMod 2)[X]) ^ (rest + 1 - 1) else 0) =
        if register.getLsbD 0 then X ^ (rest + 1) else 0 := by
      split
      · rw [Nat.add_sub_cancel, pow_succ']
      · exact mul_zero X
    simp only [Fin.val_succ, Fin.val_castSucc, Fin.val_last, Fin.val_zero, Nat.sub_zero, inner,
      last]
    rw [if_neg Bool.false_ne_true, add_zero, add_comm]
    exact congrArg (_ + ·) first

theorem coefficients_shift (feedback register : BitVec width) :
    coefficients (shift feedback register) =
      X * coefficients register + if register.getLsbD 0 then generator feedback else 0 := by
  rw [shift, coefficients_xor, coefficients_ite, X_mul_coefficients, generator]
  split
  · rw [add_assoc, ← add_assoc (X ^ width), CharTwo.add_self_eq_zero, zero_add]
  · rw [add_zero, add_zero]

theorem coefficients_absorb (positive : 0 < width) (feedback register : BitVec width) (bit : Bool) :
    ∃ multiple, coefficients (absorb feedback register bit) =
      X * coefficients register + X ^ width * (if bit then 1 else 0) +
        generator feedback * multiple := by
  -- a bit enters at the place of the highest degree and is shifted out of it
  have entered : X * (if bit then coefficients (BitVec.twoPow width 0) else 0) =
      X ^ width * if bit then 1 else 0 := by
    rw [coefficients_first positive]
    split
    · rw [← pow_succ', Nat.sub_add_cancel positive, mul_one]
    · rw [mul_zero, mul_zero]
  refine ⟨if (register ^^^ if bit then BitVec.twoPow width 0 else 0).getLsbD 0 then 1 else 0, ?_⟩
  rw [absorb, coefficients_shift, coefficients_xor, coefficients_ite, mul_add, entered,
    mul_ite (_ = true) (generator feedback), mul_one, mul_zero]

theorem message_append_singleton (bits : List Bool) (bit : Bool) :
    message (bits ++ [bit]) = X * message bits + if bit then 1 else 0 := by
  rw [message, List.foldl_append]
  rfl

theorem exists_foldl_absorb (positive : 0 < width) (feedback register : BitVec width)
    (bits : List Bool) :
    ∃ multiple, coefficients (bits.foldl (absorb feedback) register) =
      X ^ bits.length * coefficients register + X ^ width * message bits +
        generator feedback * multiple := by
  induction bits using List.reverseRecOn with
  | nil => exact ⟨0, by simp [message]⟩
  | append_singleton bits bit inductionHypothesis =>
    obtain ⟨before, absorbed⟩ := inductionHypothesis
    obtain ⟨last, step⟩ :=
      coefficients_absorb positive feedback (bits.foldl (absorb feedback) register) bit
    refine ⟨X * before + last, ?_⟩
    rw [List.foldl_append, List.foldl_cons, List.foldl_nil, step, absorbed,
      message_append_singleton, List.length_append, List.length_singleton, pow_succ']
    ring

/-- The register is the remainder of the message behind its initial contents. -/
theorem coefficients_foldl_absorb (positive : 0 < width) (feedback register : BitVec width)
    (bits : List Bool) :
    coefficients (bits.foldl (absorb feedback) register) =
      (X ^ bits.length * coefficients register + X ^ width * message bits) %ₘ
        generator feedback := by
  obtain ⟨multiple, absorbed⟩ := exists_foldl_absorb positive feedback register bits
  have small := (degree_coefficients (bits.foldl (absorb feedback) register)).trans_eq
    (degree_generator feedback).symm
  rw [← (modByMonic_eq_self_iff (monic_generator feedback)).mpr small, absorbed]
  refine modByMonic_eq_of_dvd_sub (monic_generator feedback) ?_
  rw [add_sub_cancel_left]
  exact dvd_mul_right _ _

end IbexWb.Binary.Lfsr
