import IbexWb.Verified.AesTables
import Mathlib.Data.List.GetD

/-! # Blocks of AES

The four words of a block are the columns of a state.  A pass of the round loop computes a round
of the cipher with the round key that the subkeys hold, so a block is encrypted or decrypted as
the key-alternating cipher says, whichever the tables are.
-/

namespace IbexWb.NettleAes

open Binary Cipher Memory
open Aes (Column State subByte subBytes shiftRows mixColumns mixMatrix unmixMatrix roundKey schedule)

/-! ## Words and states -/

def stateOf (w : Words) : State :=
  Matrix.of fun row column => columnOf (![w.w0, w.w1, w.w2, w.w3] column) row

/-- The subkeys as columns. -/
def keyColumns (keys : Nat → BitVec 32) (i : Nat) : Column := columnOf (keys i)

def blockAt (src : Nat → BitVec 8) : State :=
  Matrix.of fun row column => ByteField.ofBits (src (4 * column + row))

def bytesOf (state : State) : List (BitVec 8) :=
  (List.finRange 4).flatMap fun column => (List.finRange 4).map fun row => (state row column).bits

theorem columnOf_leReadUint32 (p : Nat → BitVec 8) :
    columnOf (leReadUint32 p) = fun row : Fin 4 => ByteField.ofBits (p row) := by
  have reverse (x y z t : BitVec 32) : x ||| y ||| z ||| t = t ||| z ||| y ||| x := by ac_rfl
  -- the source combines the bytes from the highest one on
  have word : leReadUint32 p = p 3 ++ p 2 ++ p 1 ++ p 0 :=
    (reverse _ _ _ _).trans (or_shifted_eq (p 0) (p 1) (p 2) (p 3))
  rw [word, columnOf_append]
  funext row
  fin_cases row <;> rfl

theorem leWriteUint32_eq (word : BitVec 32) :
    leWriteUint32 word = (List.finRange 4).map fun row => (columnOf word row).bits := by
  rw [leWriteUint32, setWidth_and, setWidth_and, setWidth_and, setWidth_and]
  simp only [← setWidth_shift, columnOf]
  rfl

theorem stateOf_readBlock (keys : Nat → BitVec 32) (src : Nat → BitVec 8) :
    stateOf (readBlock keys src) = blockAt src + roundKey (keyColumns keys) 0 := by
  ext row column
  fin_cases column <;>
    simp [stateOf, readBlock, columnOf_xor, columnOf_leReadUint32, blockAt, roundKey, keyColumns]

theorem writeBlock_eq (t : Words) : writeBlock t = bytesOf (stateOf t) := by
  simp only [writeBlock, leWriteUint32_eq]
  rfl

/-! ## A pass of the round loop -/

/-- What a lookup does to the bytes that it takes from four words. -/
def Looks (lookup : Lookup) (sub : Equiv.Perm ByteField) (matrix : State) : Prop :=
  ∀ w0 w1 w2 w3 k, columnOf (lookup w0 w1 w2 w3 k) =
    matrix.mulVec (substituted sub w0 w1 w2 w3) + columnOf k

section Looks

variable {lookup : Lookup} {sub : Equiv.Perm ByteField} {matrix : State}

theorem Looks.stateOf_ascending (looks : Looks lookup sub matrix) (keys : Nat → BitVec 32)
    (w : Words) (i : Nat) : stateOf (ascending lookup keys w i) =
      matrix * shiftRows (sub.mapMatrix (stateOf w)) + roundKey (keyColumns keys) i := by
  ext row column
  fin_cases column <;>
    simp [stateOf, ascending, looks _ _ _ _ _, Matrix.mul_apply, Matrix.mulVec, dotProduct,
      Fin.sum_univ_four, substituted, shiftRows, roundKey, keyColumns]

theorem Looks.stateOf_descending (looks : Looks lookup sub matrix) (keys : Nat → BitVec 32)
    (w : Words) (i : Nat) : stateOf (descending lookup keys w i) =
      matrix * sub.mapMatrix (shiftRows.symm (stateOf w)) + roundKey (keyColumns keys) i := by
  ext row column
  fin_cases column <;>
    simp [stateOf, descending, looks _ _ _ _ _, Matrix.mul_apply, Matrix.mulVec, dotProduct,
      Fin.sum_univ_four, substituted, shiftRows, roundKey, keyColumns]

end Looks

theorem Tables.looks {T : AesTable} {sub : Equiv.Perm ByteField} {matrix : State}
    (tables : Tables T sub matrix) : Looks (aesRound T) sub matrix := tables.columnOf_aesRound

theorem Tables.looks_final {T : AesTable} {sub : Equiv.Perm ByteField} {matrix : State}
    (tables : Tables T sub matrix) : Looks (aesFinalRound T) sub 1 := fun w0 w1 w2 w3 k => by
  rw [tables.columnOf_aesFinalRound, Matrix.one_mulVec]

/-- The passes with the tables of `T` are the rounds with the parts of a cipher. -/
structure Computes (T : AesTable) (order : Lookup → (Nat → BitVec 32) → Words → Nat → Words)
    (parts : Parts State) : Prop where
  round : ∀ keys w i, stateOf (order (aesRound T) keys w i) =
    parts.round (stateOf w) (roundKey (keyColumns keys) i)
  final : ∀ keys w i, stateOf (order (aesFinalRound T) keys w i) =
    parts.sub (stateOf w) + roundKey (keyColumns keys) i

theorem computes_encrypt : Computes aesEncryptTable ascending Aes.parts where
  round := encryptTables.looks.stateOf_ascending
  final keys w i := by
    rw [encryptTables.looks_final.stateOf_ascending, Matrix.one_mul]
    rfl

theorem computes_decrypt : Computes aesDecryptTable descending Aes.parts.inverse where
  round := decryptTables.looks.stateOf_descending
  final keys w i := by
    rw [decryptTables.looks_final.stateOf_descending, Matrix.one_mul]
    rfl

/-! ## Blocks -/

section Blocks

variable {T : AesTable} {order : Lookup → (Nat → BitVec 32) → Words → Nat → Words}
  {parts : Parts State}

theorem Computes.foldl_round (computes : Computes T order parts) (keys : Nat → BitVec 32)
    (passes : List Nat) (w : Words) :
    stateOf (passes.foldl (order (aesRound T) keys) w) =
      (passes.map (roundKey (keyColumns keys))).foldl parts.round (stateOf w) := by
  induction passes generalizing w with
  | nil => rfl
  | cons i rest inductionHypothesis =>
    rw [List.foldl_cons, inductionHypothesis, computes.round]
    rfl

theorem Computes.cryptBlock_eq (computes : Computes T order parts) {rounds : Nat}
    (positive : 0 < rounds) (keys : Nat → BitVec 32) (src : Nat → BitVec 8) :
    cryptBlock T order rounds keys src =
      bytesOf (parts.encrypt (schedule (keyColumns keys) rounds) (blockAt src)) := by
  rw [cryptBlock, writeBlock_eq, computes.final, computes.foldl_round, stateOf_readBlock,
    Nat.add_sub_cancel' positive]
  rfl

end Blocks

/-! ## Messages -/

/-- The blocks that start at every sixteenth byte. -/
def blocksAt (src : Nat → BitVec 8) (count : Nat) : List State :=
  (List.range count).map fun number => blockAt fun offset => src (16 * number + offset)

theorem blocksAt_succ (src : Nat → BitVec 8) (count : Nat) : blocksAt src (count + 1) =
    blockAt src :: blocksAt (fun offset => src (16 + offset)) count := by
  rw [blocksAt, List.range_succ_eq_map, List.map_cons, List.map_map, Nat.mul_zero]
  simp only [Nat.zero_add]
  refine congrArg _ (List.map_congr_left fun number _ => ?_)
  refine congrArg blockAt (funext fun offset => congrArg src ?_)
  omega

theorem forBlocks_eq {block : (Nat → BitVec 8) → List (BitVec 8)} {f : State → State}
    (each : ∀ src, block src = bytesOf (f (blockAt src))) (count : Nat) (src : Nat → BitVec 8) :
    forBlocks block count src = ((blocksAt src count).map f).flatMap bytesOf := by
  induction count generalizing src with
  | zero => rfl
  | succ count inductionHypothesis =>
    rw [forBlocks, each, inductionHypothesis, blocksAt_succ, List.map_cons, List.flatMap_cons]

/-- The memory that starts with the bytes. -/
def memory (bytes : List (BitVec 8)) (address : Nat) : BitVec 8 := bytes.getD address 0

theorem length_bytesOf (state : State) : (bytesOf state).length = 16 := rfl

theorem length_flatMap_bytesOf (states : List State) :
    (states.flatMap bytesOf).length = 16 * states.length := by
  induction states with
  | nil => rfl
  | cons state rest inductionHypothesis =>
    rw [List.flatMap_cons, List.length_append, length_bytesOf, inductionHypothesis,
      List.length_cons]
    omega

theorem getD_bytesOf (state : State) (row column : Fin 4) :
    (bytesOf state).getD (4 * column + row) 0 = (state row column).bits := by
  fin_cases column <;> fin_cases row <;> rfl

theorem blockAt_append (state : State) (rest : List (BitVec 8)) :
    blockAt (memory (bytesOf state ++ rest)) = state := by
  ext row column
  have inside : 4 * column.val + row.val < (bytesOf state).length := by
    rw [length_bytesOf]
    omega
  show memory (bytesOf state ++ rest) (4 * column + row) = state row column
  rw [memory, List.getD_append _ _ _ _ inside, getD_bytesOf]
  rfl

theorem memory_append (front rest : List (BitVec 8)) (offset : Nat) :
    memory (front ++ rest) (front.length + offset) = memory rest offset := by
  rw [memory, List.getD_append_right _ _ _ _ (Nat.le_add_right _ _), Nat.add_sub_cancel_left]
  rfl

/-- Blocks that are written are read back. -/
theorem blocksAt_memory (states : List State) :
    blocksAt (memory (states.flatMap bytesOf)) states.length = states := by
  induction states with
  | nil => rfl
  | cons state rest inductionHypothesis =>
    rw [List.length_cons, blocksAt_succ, List.flatMap_cons, blockAt_append]
    refine congrArg _ (Eq.trans ?_ inductionHypothesis)
    refine congrArg (blocksAt · _) (funext fun offset => ?_)
    exact memory_append (bytesOf state) _ offset

theorem bytesOf_blockAt (src : Nat → BitVec 8) :
    bytesOf (blockAt src) = (List.range 16).map src := rfl

/-- Bytes that are read in blocks are written back. -/
theorem flatMap_blocksAt (count : Nat) (src : Nat → BitVec 8) :
    (blocksAt src count).flatMap bytesOf = (List.range (16 * count)).map src := by
  induction count generalizing src with
  | zero => rfl
  | succ count inductionHypothesis =>
    rw [blocksAt_succ, List.flatMap_cons, bytesOf_blockAt, inductionHypothesis, Nat.mul_succ,
      Nat.add_comm, List.range_add, List.map_append, List.map_map]
    rfl

theorem map_memory (bytes : List (BitVec 8)) : (List.range bytes.length).map (memory bytes) = bytes := by
  apply List.ext_getElem
  · rw [List.length_map, List.length_range]
  · intro index bound inside
    rw [List.getElem_map, List.getElem_range, memory, List.getD_eq_getElem _ _ inside]

end IbexWb.NettleAes
