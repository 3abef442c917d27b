import IbexWb.Cipher.Aes
import IbexWb.Memory.Bytes
import IbexWb.Sw.NettleAes
import Mathlib.Algebra.BigOperators.Fin

/-! # The tables of AES

Every entry of the lookup tables is a column of the matrix times the substituted byte.  The tables
are compared with these products entry by entry; all the rest is about columns.
-/

namespace IbexWb.NettleAes

open Binary Memory
open Aes (Column State subByte mixMatrix unmixMatrix)

/-! ## Words as columns -/

def columnOf (word : BitVec 32) : Column := fun row => ByteField.ofBits (byte word row)

theorem columnOf_xor (a b : BitVec 32) : columnOf (a ^^^ b) = columnOf a + columnOf b :=
  funext fun _ => BitVec.extractLsb'_xor

theorem columnOf_ofBytes (bytes : Nat → BitVec 8) :
    columnOf (ofBytes bytes) = fun row : Fin 4 => ByteField.ofBits (bytes row) :=
  funext fun row => byte_ofBytes bytes row.isLt

/-- A column of the matrix times a byte. -/
def productWord (column : Column) (a : BitVec 8) : BitVec 32 :=
  ofBytes fun row =>
    if inside : row < 4 then (column ⟨row, inside⟩ * ByteField.ofBits a).bits else 0

theorem columnOf_productWord (column : Column) (a : BitVec 8) :
    columnOf (productWord column a) = fun row => column row * ByteField.ofBits a := by
  rw [productWord, columnOf_ofBytes]
  funext row
  rw [dif_pos row.isLt]
  rfl

/-! ## The bytes of a word -/

theorem setWidth_shift (x : BitVec 32) (index : Nat) :
    (x >>> (8 * index)).setWidth 8 = byte x index := by
  apply BitVec.eq_of_toNat_eq
  simp [byte]

theorem b0_eq (x : BitVec 32) : b0 x = byte x 0 := by
  rw [b0, setWidth_and, ← setWidth_shift, Nat.mul_zero, BitVec.ushiftRight_zero]

theorem b1_eq (x : BitVec 32) : b1 x = byte x 1 := by
  rw [b1, setWidth_and, ← setWidth_shift]

theorem b2_eq (x : BitVec 32) : b2 x = byte x 2 := by
  rw [b2, setWidth_and, ← setWidth_shift]

theorem b3_eq (x : BitVec 32) : b3 x = byte x 3 := by
  rw [b3, setWidth_and, ← setWidth_shift]

/-- Four bytes that are shifted into place. -/
theorem or_shifted_eq (a b c d : BitVec 8) :
    a.setWidth 32 ||| b.setWidth 32 <<< 8 ||| c.setWidth 32 <<< 16 ||| d.setWidth 32 <<< 24 =
      d ++ c ++ b ++ a := by
  ext bit inside
  simp
  grind

/-! ## Lookups -/

/-- The tables of `T` hold the substitution and its products with the columns of the matrix. -/
structure Tables (T : AesTable) (sub : Equiv.Perm ByteField) (matrix : State) : Prop where
  sbox : ∀ a, ByteField.ofBits (element T.sbox a) = sub (ByteField.ofBits a)
  table0 : ∀ a, element T.table0 a = productWord (fun row => matrix row 0) (element T.sbox a)
  table1 : ∀ a, element T.table1 a = productWord (fun row => matrix row 1) (element T.sbox a)
  table2 : ∀ a, element T.table2 a = productWord (fun row => matrix row 2) (element T.sbox a)
  table3 : ∀ a, element T.table3 a = productWord (fun row => matrix row 3) (element T.sbox a)

theorem encryptTables : Tables aesEncryptTable subByte mixMatrix where
  sbox := element_of_range (f := subByte) (by decide +kernel)
  table0 := element_of_map (by decide +kernel)
  table1 := element_of_map (by decide +kernel)
  table2 := element_of_map (by decide +kernel)
  table3 := element_of_map (by decide +kernel)

theorem decryptTables : Tables aesDecryptTable subByte.symm unmixMatrix where
  sbox := element_of_range (f := subByte.symm) (by decide +kernel)
  table0 := element_of_map (by decide +kernel)
  table1 := element_of_map (by decide +kernel)
  table2 := element_of_map (by decide +kernel)
  table3 := element_of_map (by decide +kernel)

section Lookups

variable {T : AesTable} {sub : Equiv.Perm ByteField} {matrix : State}

/-- The substituted bytes of four words, one from each. -/
def substituted (sub : Equiv.Perm ByteField) (w0 w1 w2 w3 : BitVec 32) : Column := fun row =>
  sub (columnOf (![w0, w1, w2, w3] row) row)

theorem columnOf_append (a b c d : BitVec 8) : columnOf (d ++ c ++ b ++ a) =
    ![ByteField.ofBits a, ByteField.ofBits b, ByteField.ofBits c, ByteField.ofBits d] := by
  have bytes := columnOf_ofBytes fun index => (![a, b, c, d] : Fin 4 → BitVec 8) (Fin.ofNat 4 index)
  refine bytes.trans (funext fun row => ?_)
  fin_cases row <;> rfl

theorem Tables.columnOf_subbyte (tables : Tables T sub matrix) (w0 w1 w2 w3 : BitVec 32) :
    columnOf ((element T.sbox (b0 w0)).setWidth 32 ||| (element T.sbox (b1 w1)).setWidth 32 <<< 8 |||
      (element T.sbox (b2 w2)).setWidth 32 <<< 16 ||| (element T.sbox (b3 w3)).setWidth 32 <<< 24) =
      substituted sub w0 w1 w2 w3 := by
  rw [or_shifted_eq, columnOf_append]
  simp only [tables.sbox, b0_eq, b1_eq, b2_eq, b3_eq]
  funext row
  fin_cases row <;> rfl

theorem Tables.columnOf_aesFinalRound (tables : Tables T sub matrix) (w0 w1 w2 w3 k : BitVec 32) :
    columnOf (aesFinalRound T w0 w1 w2 w3 k) = substituted sub w0 w1 w2 w3 + columnOf k := by
  rw [aesFinalRound, columnOf_xor, tables.columnOf_subbyte]

theorem Tables.columnOf_aesRound (tables : Tables T sub matrix) (w0 w1 w2 w3 k : BitVec 32) :
    columnOf (aesRound T w0 w1 w2 w3 k) =
      matrix.mulVec (substituted sub w0 w1 w2 w3) + columnOf k := by
  simp only [aesRound, columnOf_xor, tables.table0, tables.table1, tables.table2, tables.table3,
    columnOf_productWord, tables.sbox, b0_eq, b1_eq, b2_eq, b3_eq]
  funext row
  simp [Matrix.mulVec, dotProduct, Fin.sum_univ_four, substituted, columnOf]

end Lookups

end IbexWb.NettleAes
