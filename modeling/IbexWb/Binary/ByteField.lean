import IbexWb.Binary.Linear
import Mathlib.Algebra.Field.Defs
import Mathlib.Algebra.Field.Basic

/-! # The field of the bytes

A byte is a polynomial of degree at most seven over the field with two elements, and products are
taken modulo `x ^ 8 + x ^ 4 + x ^ 3 + x + 1`.  Multiplication is linear in both factors, so its
laws are checked on the powers of `x`.
-/

namespace IbexWb.Binary

/-! ## Multiplication -/

/-- The product with `x`. -/
def xtime (a : BitVec 8) : BitVec 8 := a <<< 1 ^^^ if a.getLsbD 7 then 0x1b#8 else 0

/-- The product with the lowest `count` coefficients of the second factor. -/
def mulLow : Nat → BitVec 8 → BitVec 8 → BitVec 8
  | 0, _, _ => 0
  | count + 1, a, b => (if b.getLsbD 0 then a else 0) ^^^ mulLow count (xtime a) (b >>> 1)

def mul (a b : BitVec 8) : BitVec 8 := mulLow 8 a b

theorem linear_xtime : Linear xtime := (linear_shiftLeft 1).xor (linear_ite 7 0x1b#8)

theorem linear_mulLow_left (count : Nat) (b : BitVec 8) : Linear fun a => mulLow count a b := by
  induction count generalizing b with
  | zero => exact linear_zero
  | succ count inductionHypothesis =>
    refine Linear.xor ?_ ((inductionHypothesis (b >>> 1)).comp linear_xtime)
    cases b.getLsbD 0 with
    | false => exact linear_zero
    | true => exact linear_id

theorem linear_mulLow_right (count : Nat) (a : BitVec 8) : Linear (mulLow count a) := by
  induction count generalizing a with
  | zero => exact linear_zero
  | succ count inductionHypothesis =>
    exact (linear_ite 0 a).xor ((inductionHypothesis (xtime a)).comp (linear_ushiftRight 1))

theorem linear_mul_left (b : BitVec 8) : Linear fun a => mul a b := linear_mulLow_left 8 b

theorem linear_mul_right (a : BitVec 8) : Linear (mul a) := linear_mulLow_right 8 a

theorem one_mul (a : BitVec 8) : mul 1 a = a :=
  (linear_mul_right 1).eq_of_twoPow linear_id (by decide) a

theorem mul_comm (a b : BitVec 8) : mul a b = mul b a := by
  refine (linear_mul_left b).eq_of_twoPow (linear_mul_right b) (fun i inside => ?_) a
  refine (linear_mul_right _).eq_of_twoPow (linear_mul_left _) (fun j bound => ?_) b
  revert i j
  decide

theorem mul_assoc (a b c : BitVec 8) : mul (mul a b) c = mul a (mul b c) := by
  refine ((linear_mul_left c).comp (linear_mul_left b)).eq_of_twoPow (linear_mul_left _)
    (fun i inside => ?_) a
  refine ((linear_mul_left c).comp (linear_mul_right _)).eq_of_twoPow
    ((linear_mul_right _).comp (linear_mul_left c)) (fun j bound => ?_) b
  refine (linear_mul_right _).eq_of_twoPow ((linear_mul_right _).comp (linear_mul_right _))
    (fun k last => ?_) c
  revert i j k
  decide +kernel

/-- The inverse is the power 254: the product of the squares, from the second power on. -/
def inverse (a : BitVec 8) : BitVec 8 :=
  let square (b : BitVec 8) : BitVec 8 := mul b b
  let a2 := square a
  let a4 := square a2
  let a8 := square a4
  let a16 := square a8
  let a32 := square a16
  let a64 := square a32
  mul a2 (mul a4 (mul a8 (mul a16 (mul a32 (mul a64 (square a64))))))

theorem mul_inverse : ∀ a : BitVec 8, a ≠ 0 → mul a (inverse a) = 1 := by
  decide +kernel

theorem inverse_zero : inverse 0 = 0 := by
  decide +kernel

/-! ## The field -/

def ByteField : Type := BitVec 8

namespace ByteField

def ofBits (bits : BitVec 8) : ByteField := bits

def bits (a : ByteField) : BitVec 8 := a

instance : DecidableEq ByteField := inferInstanceAs (DecidableEq (BitVec 8))

instance : Zero ByteField := ⟨ofBits 0⟩

instance : One ByteField := ⟨ofBits 1⟩

instance : Add ByteField := ⟨fun a b => ofBits (a.bits ^^^ b.bits)⟩

instance : Neg ByteField := ⟨fun a => a⟩

instance : Mul ByteField := ⟨fun a b => ofBits (mul a.bits b.bits)⟩

instance : Inv ByteField := ⟨fun a => ofBits (inverse a.bits)⟩

instance : Field ByteField where
  add_assoc := BitVec.xor_assoc
  zero_add _ := BitVec.zero_xor
  add_zero _ := BitVec.xor_zero
  nsmul := nsmulRec
  zsmul := zsmulRec
  neg_add_cancel _ := BitVec.xor_self
  add_comm := BitVec.xor_comm
  left_distrib a b c := linear_mul_right a b c
  right_distrib a b c := linear_mul_left c a b
  zero_mul a := (linear_mul_left a).map_zero
  mul_zero a := (linear_mul_right a).map_zero
  mul_assoc := mul_assoc
  one_mul := one_mul
  mul_one a := (mul_comm a 1).trans (one_mul a)
  mul_comm := mul_comm
  exists_pair_ne := ⟨ofBits 0, ofBits 1, by decide⟩
  mul_inv_cancel := mul_inverse
  inv_zero := inverse_zero
  nnqsmul := _
  nnqsmul_def := fun _ _ => rfl
  qsmul := _
  qsmul_def := fun _ _ => rfl

variable (a b : ByteField)

@[simp] theorem bits_ofBits (byte : BitVec 8) : (ofBits byte).bits = byte := rfl

@[simp] theorem bits_add : (a + b).bits = a.bits ^^^ b.bits := rfl

@[simp] theorem bits_mul : (a * b).bits = mul a.bits b.bits := rfl

@[simp] theorem bits_zero : (0 : ByteField).bits = 0 := rfl

@[simp] theorem bits_one : (1 : ByteField).bits = 1 := rfl

end ByteField

end IbexWb.Binary
