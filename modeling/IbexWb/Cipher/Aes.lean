import IbexWb.Binary.ByteField
import IbexWb.Cipher.KeyAlternating
import Mathlib.Data.Matrix.Mul
import Mathlib.Data.Matrix.Basic
import Mathlib.Data.Fin.VecNotation

/-! # AES

A block is a four by four matrix of bytes.  A round substitutes each byte, rotates the rows and
multiplies the columns with a constant matrix; the round keys are the columns of the expanded key,
four at a time.
-/

namespace IbexWb.Aes

open Binary Cipher

abbrev Column := Fin 4 → ByteField

abbrev State := Matrix (Fin 4) (Fin 4) ByteField

/-! ## Substitution of a byte -/

def affine (a : BitVec 8) : BitVec 8 :=
  a ^^^ a.rotateLeft 1 ^^^ a.rotateLeft 2 ^^^ a.rotateLeft 3 ^^^ a.rotateLeft 4 ^^^ 0x63#8

def unaffine (a : BitVec 8) : BitVec 8 :=
  a.rotateLeft 1 ^^^ a.rotateLeft 3 ^^^ a.rotateLeft 6 ^^^ 0x05#8

theorem unaffine_affine : ∀ a, unaffine (affine a) = a := by
  decide +kernel

theorem affine_unaffine : ∀ a, affine (unaffine a) = a := by
  decide +kernel

/-- The inverse in the field, followed by an affine map of the bits. -/
def subByte : Equiv.Perm ByteField where
  toFun a := ByteField.ofBits (affine a⁻¹.bits)
  invFun a := (ByteField.ofBits (unaffine a.bits))⁻¹
  left_inv a := by
    show (ByteField.ofBits (unaffine (affine a⁻¹.bits)))⁻¹ = a
    rw [unaffine_affine]
    exact inv_inv a
  right_inv a := by
    show ByteField.ofBits (affine ((ByteField.ofBits (unaffine a.bits))⁻¹)⁻¹.bits) = a
    rw [inv_inv]
    exact affine_unaffine a

/-! ## The parts of a round -/

def subBytes : Equiv.Perm State := subByte.mapMatrix

def shiftRows : Equiv.Perm State where
  toFun state := Matrix.of fun row column => state row (column + row)
  invFun state := Matrix.of fun row column => state row (column - row)
  left_inv state := by
    have back : ∀ row column : Fin 4, column - row + row = column := by decide
    ext row column
    exact congrArg (state row) (back row column)
  right_inv state := by
    have forth : ∀ row column : Fin 4, column + row - row = column := by decide
    ext row column
    exact congrArg (state row) (forth row column)

/-- The circulant matrix whose first row is given. -/
def circulant (row : Fin 4 → ByteField) : State := Matrix.of fun i j => row (j - i)

theorem circulant_apply (row : Fin 4 → ByteField) (i j : Fin 4) : circulant row i j = row (j - i) := rfl

def mixMatrix : State :=
  circulant ![ByteField.ofBits 2, ByteField.ofBits 3, ByteField.ofBits 1, ByteField.ofBits 1]

def unmixMatrix : State :=
  circulant ![ByteField.ofBits 14, ByteField.ofBits 11, ByteField.ofBits 13, ByteField.ofBits 9]

theorem unmixMatrix_mul_mixMatrix : unmixMatrix * mixMatrix = 1 := by
  decide +kernel

theorem mixMatrix_mul_unmixMatrix : mixMatrix * unmixMatrix = 1 := by
  decide +kernel

def mixColumns : State ≃+ State where
  toFun state := mixMatrix * state
  invFun state := unmixMatrix * state
  left_inv state := by
    show unmixMatrix * (mixMatrix * state) = state
    rw [← Matrix.mul_assoc, unmixMatrix_mul_mixMatrix, Matrix.one_mul]
  right_inv state := by
    show mixMatrix * (unmixMatrix * state) = state
    rw [← Matrix.mul_assoc, mixMatrix_mul_unmixMatrix, Matrix.one_mul]
  map_add' := Matrix.mul_add mixMatrix

def parts : Parts State := ⟨subBytes.trans shiftRows, mixColumns⟩

/-! ## Key expansion -/

def subWord (word : Column) : Column := fun row => subByte (word row)

def rotWord (word : Column) : Column := fun row => word (row + 1)

/-- A power of `x` in the first row. -/
def rcon (round : Nat) : Column := ![ByteField.ofBits 2 ^ (round - 1), 0, 0, 0]

/-- What the word before contributes to the word with number `i`. -/
def temp (nk i : Nat) (word : Column) : Column :=
  if i % nk = 0 then subWord (rotWord word) + rcon (i / nk)
  else if 6 < nk ∧ i % nk = 4 then subWord word
  else word

/-- The words of the expanded key, of which the first `nk` are the key. -/
def expandedKey (nk : Nat) (key : Nat → Column) (i : Nat) : Column :=
  if i < nk ∨ nk = 0 then key i
  else expandedKey nk key (i - nk) + temp nk i (expandedKey nk key (i - 1))
termination_by i
decreasing_by all_goals omega

def roundKey (words : Nat → Column) (round : Nat) : State :=
  Matrix.of fun row column => words (4 * round + column) row

def schedule (words : Nat → Column) (rounds : Nat) : Schedule State where
  first := roundKey words 0
  inner := (List.range' 1 (rounds - 1)).map (roundKey words)
  last := roundKey words rounds

/-- AES with a key of `nk` words. -/
def cipher (nk : Nat) (key : Nat → Column) : Equiv.Perm State :=
  parts.cipher (schedule (expandedKey nk key) (nk + 6))

end IbexWb.Aes
