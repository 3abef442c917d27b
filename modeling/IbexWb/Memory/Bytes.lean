import Mathlib.Tactic.Common

/-! # Byte-addressed memory with word access

A memory gives a byte for each address.  `word` reads the four bytes from an address on as one
little-endian word, `store` writes those bytes of a word that are enabled, and `ofWords` lays out
a vector of words.  What `word` reads after a `store` is given byte by byte at the same address;
at an address whose four bytes lie apart nothing changes.
-/

namespace IbexWb.Memory

/-! ## Words and their bytes -/

def byte (data : BitVec 32) (index : Nat) : BitVec 8 := data.extractLsb' (8 * index) 8

def ofBytes (bytes : Nat → BitVec 8) : BitVec 32 := bytes 3 ++ bytes 2 ++ bytes 1 ++ bytes 0

theorem ofBytes_congr {left right : Nat → BitVec 8}
    (agree : ∀ index, index < 4 → left index = right index) : ofBytes left = ofBytes right := by
  rw [ofBytes, ofBytes, agree 0 (by omega), agree 1 (by omega), agree 2 (by omega),
    agree 3 (by omega)]

theorem getLsbD_ofBytes (bytes : Nat → BitVec 8) (index offset : Nat) (bound : index < 4)
    (inside : offset < 8) :
    (ofBytes bytes).getLsbD (8 * index + offset) = (bytes index).getLsbD offset := by
  rw [ofBytes, BitVec.getLsbD_append, BitVec.getLsbD_append, BitVec.getLsbD_append]
  -- the byte with number `index` is found behind `index` shorter ones
  match index, bound with
  | 0, _ => rw [if_pos (by omega), Nat.mul_zero, Nat.zero_add]
  | 1, _ => rw [if_neg (by omega), if_pos (by omega), Nat.add_sub_cancel_left]
  | 2, _ =>
    rw [if_neg (by omega), if_neg (by omega), if_pos (by omega), Nat.sub_sub,
      Nat.add_sub_cancel_left]
  | 3, _ =>
    rw [if_neg (by omega), if_neg (by omega), if_neg (by omega), Nat.sub_sub, Nat.sub_sub,
      Nat.add_sub_cancel_left]

theorem byte_ofBytes (bytes : Nat → BitVec 8) {index : Nat} (bound : index < 4) :
    byte (ofBytes bytes) index = bytes index := by
  apply BitVec.eq_of_getLsbD_eq
  intro offset inside
  rw [byte, BitVec.getLsbD_extractLsb', decide_eq_true inside, Bool.true_and]
  exact getLsbD_ofBytes bytes index offset bound inside

theorem ofBytes_byte (data : BitVec 32) : ofBytes (byte data) = data := by
  apply BitVec.eq_of_getLsbD_eq
  intro bit inside
  have split : 8 * (bit / 8) + bit % 8 = bit := Nat.div_add_mod bit 8
  rw [← split, getLsbD_ofBytes _ _ _ (by omega) (by omega), byte, BitVec.getLsbD_extractLsb',
    decide_eq_true (by omega), Bool.true_and]

theorem toNat_ofBytes (bytes : Nat → BitVec 8) : (ofBytes bytes).toNat = (bytes 0).toNat +
    256 * (bytes 1).toNat + 65536 * (bytes 2).toNat + 16777216 * (bytes 3).toNat := by
  simp only [ofBytes, BitVec.toNat_append]
  rw [← Nat.shiftLeft_add_eq_or_of_lt (bytes 0).isLt, ← Nat.shiftLeft_add_eq_or_of_lt (bytes 1).isLt,
    ← Nat.shiftLeft_add_eq_or_of_lt (bytes 2).isLt]
  simp only [Nat.shiftLeft_eq]
  omega

/-! ## Memories -/

def word (memory : Nat → BitVec 8) (address : Nat) : BitVec 32 :=
  ofBytes fun index => memory (address + index)

/-- Write the enabled bytes of `data` to the four addresses from `address` on. -/
def store (memory : Nat → BitVec 8) (address : Nat) (enable : BitVec 4) (data : BitVec 32) :
    Nat → BitVec 8 := fun target =>
  if address ≤ target ∧ target < address + 4 ∧ enable.getLsbD (target - address) = true then
    byte data (target - address)
  else memory target

def ofWords {count : Nat} (base : Nat) (words : Fin count → BitVec 32) : Nat → BitVec 8 :=
  fun address =>
    if inside : base ≤ address ∧ (address - base) / 4 < count then
      byte (words ⟨(address - base) / 4, inside.2⟩) ((address - base) % 4)
    else 0

theorem word_store_self (memory : Nat → BitVec 8) (address : Nat) (enable : BitVec 4)
    (data : BitVec 32) :
    word (store memory address enable data) address = ofBytes fun index =>
      if enable.getLsbD index then byte data index else byte (word memory address) index := by
  apply ofBytes_congr
  intro index bound
  have old : byte (word memory address) index = memory (address + index) := byte_ofBytes _ bound
  rw [store, Nat.add_sub_cancel_left, old]
  cases enable.getLsbD index with
  | false => rw [if_neg (by simp), if_neg (by simp)]
  | true => rw [if_pos ⟨by omega, by omega, rfl⟩, if_pos rfl]

theorem word_store_of_apart (memory : Nat → BitVec 8) {address other : Nat} (enable : BitVec 4)
    (data : BitVec 32) (apart : other + 4 ≤ address ∨ address + 4 ≤ other) :
    word (store memory address enable data) other = word memory other := by
  apply ofBytes_congr
  intro index bound
  rw [store, if_neg]
  omega

theorem word_ofWords {count : Nat} (base : Nat) (words : Fin count → BitVec 32) (index : Fin count) :
    word (ofWords base words) (base + 4 * index) = words index := by
  rw [← ofBytes_byte (words index)]
  apply ofBytes_congr
  intro offset bound
  have which : (base + 4 * index.val + offset - base) / 4 = index := by omega
  have within : (base + 4 * index.val + offset - base) % 4 = offset := by omega
  have inside := index.isLt
  rw [ofWords, dif_pos ⟨by omega, by omega⟩]
  simp only [which, within]

end IbexWb.Memory
