import IbexWb.Binary.Linear
import Mathlib.Logic.Function.Iterate

/-! # Shift registers with linear feedback

The register shifts to the right, and a one that falls out is fed back as a constant vector.  Bits
of a message are added to the lowest place before the shift.  As the register is linear, several
bits may be added at once, and the feedback of several shifts may be looked up.
-/

namespace IbexWb.Binary.Lfsr

variable {width : Nat} (feedback : BitVec width)

def shift (register : BitVec width) : BitVec width :=
  register >>> 1 ^^^ if register.getLsbD 0 then feedback else 0

def absorb (register : BitVec width) (bit : Bool) : BitVec width :=
  shift feedback (register ^^^ if bit then BitVec.twoPow width 0 else 0)

theorem linear_shift : Linear (shift feedback) :=
  (linear_ushiftRight 1).xor (linear_ite 0 feedback)

theorem linear_shifts (count : Nat) : Linear (shift feedback)^[count] := by
  induction count with
  | zero => exact linear_id
  | succ count inductionHypothesis => exact inductionHypothesis.comp (linear_shift feedback)

/-! ## Shifts of a single bit -/

theorem ushiftRight_twoPow (count place : Nat) :
    BitVec.twoPow width (count + place) >>> count =
      if count + place < width then BitVec.twoPow width place else 0 := by
  apply BitVec.eq_of_getLsbD_eq
  intro bit inside
  rw [BitVec.getLsbD_ushiftRight, BitVec.getLsbD_twoPow]
  by_cases bound : count + place < width
  · simp [bound, inside]
    omega
  · simp [bound]

theorem ushiftRight_twoPow_of_lt {count place : Nat} (below : place < count) :
    BitVec.twoPow width place >>> count = 0 := by
  apply BitVec.eq_of_getLsbD_eq
  intro bit inside
  simp [BitVec.getLsbD_ushiftRight, BitVec.getLsbD_twoPow]
  omega

theorem shift_twoPow {place : Nat} (inside : 1 + place < width) :
    shift feedback (BitVec.twoPow width (1 + place)) = BitVec.twoPow width place := by
  have kept : (BitVec.twoPow width (1 + place)).getLsbD 0 = false := by simp
  rw [shift, kept, ushiftRight_twoPow, if_pos inside]
  exact BitVec.xor_zero

theorem shifts_twoPow (count place : Nat) (inside : count + place < width) :
    (shift feedback)^[count] (BitVec.twoPow width (count + place)) = BitVec.twoPow width place := by
  induction count with
  | zero => rw [Nat.zero_add]; rfl
  | succ count inductionHypothesis =>
    rw [Function.iterate_succ_apply, Nat.add_comm count 1, Nat.add_assoc, shift_twoPow]
    · exact inductionHypothesis (by omega)
    · omega

/-! ## Several bits -/

theorem linear_low (count : Nat) : Linear (low count : BitVec width → BitVec width) := by
  intro x y
  apply BitVec.eq_of_getLsbD_eq
  intro bit _
  rw [BitVec.getLsbD_xor, getLsbD_low, getLsbD_low, getLsbD_low, BitVec.getLsbD_xor]
  exact Bool.and_xor_distrib_right _ _ _

/-- The feedback of several shifts depends on the bits that fall out. -/
theorem shifts_eq (count : Nat) (register : BitVec width) :
    (shift feedback)^[count] register =
      (shift feedback)^[count] (low count register) ^^^ register >>> count := by
  refine (linear_shifts feedback count).eq_of_twoPow
    (((linear_shifts feedback count).comp (linear_low count)).xor (linear_ushiftRight count))
    (fun place inside => ?_) register
  rcases Nat.lt_or_ge place count with below | above
  · rw [ushiftRight_twoPow_of_lt below, low_twoPow, if_pos below]
    exact BitVec.xor_zero.symm
  · obtain ⟨rest, rfl⟩ := Nat.exists_eq_add_of_le above
    rw [shifts_twoPow feedback count rest inside, low_twoPow, if_neg (by omega),
      (linear_shifts feedback count).map_zero, ushiftRight_twoPow, if_pos inside]
    exact BitVec.zero_xor.symm

/-- Bits of a word that are absorbed one by one may be added at once. -/
theorem foldl_absorb {count : Nat} (bound : count ≤ width) (word register : BitVec width) :
    ((List.range count).map word.getLsbD).foldl (absorb feedback) register =
      (shift feedback)^[count] (register ^^^ low count word) := by
  induction count with
  | zero =>
    rw [low_zero]
    exact BitVec.xor_zero.symm
  | succ count inductionHypothesis =>
    -- the next bit was added `count` places up and has come down by now
    have top : (shift feedback)^[count]
        (if word.getLsbD count then BitVec.twoPow width count else 0) =
          if word.getLsbD count then BitVec.twoPow width 0 else 0 := by
      split
      · exact shifts_twoPow feedback count 0 (by omega)
      · exact (linear_shifts feedback count).map_zero
    rw [List.range_succ, List.map_append, List.foldl_append,
      inductionHypothesis (Nat.le_of_succ_le bound), low_succ, ← BitVec.xor_assoc,
      Function.iterate_succ_apply',
      linear_shifts feedback count (register ^^^ low count word), top]
    rfl

/-! ## Words of equal length -/

/-- With the highest place fed back nothing is lost in a shift. -/
theorem shift_injective (top : feedback.getLsbD (width - 1) = true) :
    Function.Injective (shift feedback) := by
  have kernel (register : BitVec width) (lost : shift feedback register = 0) : register = 0 := by
    have places (place : Nat) : (register >>> 1).getLsbD place =
        (if register.getLsbD 0 then feedback else 0).getLsbD place :=
      congrArg (·.getLsbD place) (BitVec.xor_eq_zero_iff.mp lost)
    cases out : register.getLsbD 0 with
    | true =>
      -- the place that the shift leaves free would be set
      have last := places (width - 1)
      rw [out, if_pos rfl, top, BitVec.getLsbD_ushiftRight] at last
      exact absurd (BitVec.lt_of_getLsbD last) (by omega)
    | false =>
      apply BitVec.eq_of_getLsbD_eq
      intro place _
      refine Eq.trans ?_ BitVec.getLsbD_zero.symm
      cases place with
      | zero => exact out
      | succ place =>
        have moved := places place
        rw [out, if_neg Bool.false_ne_true, BitVec.getLsbD_ushiftRight, Nat.add_comm] at moved
        exact moved.trans BitVec.getLsbD_zero
  intro x y same
  have lost : shift feedback (x ^^^ y) = 0 := by
    rw [linear_shift, same]
    exact BitVec.xor_self
  exact BitVec.xor_eq_zero_iff.mp (kernel (x ^^^ y) lost)

theorem absorb_injective (top : feedback.getLsbD (width - 1) = true) (bit : Bool) :
    Function.Injective fun register => absorb feedback register bit := by
  intro x y same
  exact (BitVec.xor_left_inj _).mp (shift_injective feedback top same)

theorem foldl_absorb_injective (top : feedback.getLsbD (width - 1) = true) (bits : List Bool) :
    Function.Injective fun register => bits.foldl (absorb feedback) register := by
  induction bits with
  | nil => exact fun _ _ same => same
  | cons bit rest inductionHypothesis =>
    exact inductionHypothesis.comp (absorb_injective feedback top bit)

theorem exists_word {bits : List Bool} (short : bits.length ≤ width) :
    ∃ word : BitVec width, (List.range bits.length).map word.getLsbD = bits ∧
      low bits.length word = word := by
  have places (place : Nat) : ((BitVec.ofBoolListLE bits).setWidth width).getLsbD place =
      bits.getD place false := by
    rw [BitVec.getLsbD_setWidth, BitVec.getLsbD_ofBoolListLE]
    by_cases inside : place < width
    · rw [decide_eq_true inside, Bool.true_and]
    · simp [inside, List.getElem?_eq_none (Nat.le_trans short (Nat.not_lt.mp inside))]
  refine ⟨(BitVec.ofBoolListLE bits).setWidth width, ?_, ?_⟩
  · apply List.ext_getElem
    · rw [List.length_map, List.length_range]
    · intro place _ inside
      rw [List.getElem_map, List.getElem_range, places]
      simp [inside]
  · apply BitVec.eq_of_getLsbD_eq
    intro place _
    rw [getLsbD_low, places]
    by_cases inside : place < bits.length
    · rw [decide_eq_true inside, Bool.and_true]
    · simp [inside]

/-- A register tells two bursts of its length or less from each other, whatever comes before and
after them. -/
theorem foldl_burst_ne (top : feedback.getLsbD (width - 1) = true) (front back : List Bool)
    {left right : List Bool} (short : left.length ≤ width) (same : left.length = right.length)
    (differ : left ≠ right) (register : BitVec width) :
    (front ++ left ++ back).foldl (absorb feedback) register ≠
      (front ++ right ++ back).foldl (absorb feedback) register := by
  rw [List.foldl_append, List.foldl_append, List.foldl_append, List.foldl_append]
  generalize front.foldl (absorb feedback) register = before
  intro collision
  have after := foldl_absorb_injective feedback top back collision
  obtain ⟨x, leftBits, leftLow⟩ := exists_word short
  obtain ⟨y, rightBits, rightLow⟩ := exists_word (same ▸ short)
  have leftRun := foldl_absorb feedback short x before
  have rightRun := foldl_absorb feedback (same ▸ short) y before
  rw [leftBits, leftLow] at leftRun
  rw [rightBits, rightLow] at rightRun
  rw [leftRun, rightRun, same] at after
  have words := (shift_injective feedback top).iterate right.length after
  obtain rfl := (BitVec.xor_right_inj before).mp words
  exact differ (leftBits.symm.trans (same ▸ rightBits))

end IbexWb.Binary.Lfsr
