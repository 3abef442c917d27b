import Mathlib.Algebra.Group.Nat.Defs
import Mathlib.Tactic.Common

/-! # Linear functions on bit vectors

A function on bit vectors is linear when it respects the exclusive or.  A linear function is
determined by its values on the vectors with a single bit, so an identity between two of them can
be checked on these.
-/

namespace IbexWb.Binary

variable {m n k : Nat}

def Linear (f : BitVec m → BitVec n) : Prop := ∀ x y, f (x ^^^ y) = f x ^^^ f y

/-! ## Closure -/

theorem linear_id : Linear (fun x : BitVec m => x) := fun _ _ => rfl

theorem linear_zero : Linear (fun _ : BitVec m => (0 : BitVec n)) := fun _ _ => BitVec.xor_self.symm

theorem Linear.comp {f : BitVec n → BitVec k} {g : BitVec m → BitVec n} (outer : Linear f)
    (inner : Linear g) : Linear fun x => f (g x) := fun x y =>
  (congrArg f (inner x y)).trans (outer (g x) (g y))

theorem xor_xor_xor_comm (a b c d : BitVec n) :
    (a ^^^ b) ^^^ (c ^^^ d) = (a ^^^ c) ^^^ (b ^^^ d) := by
  rw [BitVec.xor_assoc, ← BitVec.xor_assoc b, BitVec.xor_comm b c, BitVec.xor_assoc c,
    ← BitVec.xor_assoc a]

theorem Linear.xor {f g : BitVec m → BitVec n} (left : Linear f) (right : Linear g) :
    Linear fun x => f x ^^^ g x := by
  intro x y
  show f (x ^^^ y) ^^^ g (x ^^^ y) = _
  rw [left, right, xor_xor_xor_comm]

theorem linear_shiftLeft (amount : Nat) : Linear fun x : BitVec m => x <<< amount :=
  fun x y => BitVec.shiftLeft_xor_distrib x y amount

theorem linear_ushiftRight (amount : Nat) : Linear fun x : BitVec m => x >>> amount :=
  fun x y => BitVec.ushiftRight_xor_distrib x y amount

/-- A constant that a bit of the argument switches on. -/
theorem linear_ite (bit : Nat) (constant : BitVec n) :
    Linear fun x : BitVec m => if x.getLsbD bit then constant else 0 := by
  intro x y
  simp only [BitVec.getLsbD_xor]
  cases x.getLsbD bit <;> cases y.getLsbD bit <;> simp

/-! ## Linear functions and single bits -/

theorem Linear.map_zero {f : BitVec m → BitVec n} (linear : Linear f) : f 0 = 0 := by
  have doubled := linear 0 0
  rwa [BitVec.xor_self, BitVec.xor_self] at doubled

def low (count : Nat) (x : BitVec m) : BitVec m := x &&& BitVec.ofNat m (2 ^ count - 1)

theorem getLsbD_low (count : Nat) (x : BitVec m) (bit : Nat) :
    (low count x).getLsbD bit = (x.getLsbD bit && decide (bit < count)) := by
  rw [low, BitVec.getLsbD_and, BitVec.getLsbD_ofNat, Nat.testBit_two_pow_sub_one]
  by_cases inside : bit < m
  · rw [decide_eq_true inside, Bool.true_and]
  · rw [BitVec.getLsbD_of_ge _ _ (Nat.not_lt.mp inside), Bool.false_and, Bool.false_and]

theorem low_zero (x : BitVec m) : low 0 x = 0 := BitVec.and_zero

theorem low_width (x : BitVec m) : low m x = x := by
  apply BitVec.eq_of_getLsbD_eq
  intro bit inside
  rw [getLsbD_low, decide_eq_true inside, Bool.and_true]

theorem low_succ (count : Nat) (x : BitVec m) :
    low (count + 1) x = low count x ^^^ if x.getLsbD count then BitVec.twoPow m count else 0 := by
  apply BitVec.eq_of_getLsbD_eq
  intro bit inside
  have single : (if x.getLsbD count then BitVec.twoPow m count else 0).getLsbD bit =
      (x.getLsbD count && decide (bit = count)) := by
    cases x.getLsbD count <;> simp [inside, eq_comm]
  rw [getLsbD_low, BitVec.getLsbD_xor, getLsbD_low, single]
  rcases Nat.lt_trichotomy bit count with before | rfl | after
  · simp [before, Nat.lt_succ_of_lt before, Nat.ne_of_lt before]
  · simp
  · simp [Nat.not_lt.mpr (Nat.le_of_lt after), Nat.not_lt.mpr (Nat.succ_le_of_lt after),
      Nat.ne_of_gt after]

theorem low_twoPow (count place : Nat) :
    low count (BitVec.twoPow m place) = if place < count then BitVec.twoPow m place else 0 := by
  apply BitVec.eq_of_getLsbD_eq
  intro bit inside
  rw [getLsbD_low, BitVec.getLsbD_twoPow]
  by_cases below : place < count
  · rw [if_pos below, BitVec.getLsbD_twoPow]
    simp
    omega
  · rw [if_neg below]
    simp
    omega

/-- Two linear functions that agree on the single bits are equal. -/
theorem Linear.eq_of_twoPow {f g : BitVec m → BitVec n} (left : Linear f) (right : Linear g)
    (agree : ∀ bit, bit < m → f (BitVec.twoPow m bit) = g (BitVec.twoPow m bit)) (x : BitVec m) :
    f x = g x := by
  have upTo : ∀ count, count ≤ m → f (low count x) = g (low count x) := by
    intro count
    induction count with
    | zero =>
      intro _
      rw [low_zero, left.map_zero, right.map_zero]
    | succ count inductionHypothesis =>
      intro bound
      rw [low_succ, left, right, inductionHypothesis (Nat.le_of_succ_le bound)]
      congr 1
      split
      · exact agree count bound
      · exact left.map_zero.trans right.map_zero.symm
  rw [← low_width x]
  exact upTo m (Nat.le_refl m)

end IbexWb.Binary
