import IbexWb.Memory.AlignedRegion
import IbexWb.Soc.AddressMap

/-! # `wb_interconnect_xbar`: the address map of the crossbar

The wrapper packs the parameter arrays into the vectors `SLAVE_ADDR` and `SLAVE_MASK` of the
crossbar, which takes a slave when the address agrees with its base under its mask.  The vectors
have an element for each of the `nums` slaves, but the wrapper fills in three: a fourth slave gets
base and mask zero, and with that mask every address agrees.

An index that a parameter array does not have reads an unknown value.  `unknown` gives it; the
vectors are cut before it.
-/

namespace IbexWb.Xbar

open SharedBus (Params)

variable {nums : Nat}

/-! ## Packed vectors -/

/-- `array[index]`, for a constant index. -/
def element (array : Fin nums → BitVec 32) (unknown : Fin 3 → BitVec 32) (index : Fin 3) :
    BitVec 32 :=
  if bound : index < nums then array ⟨index, bound⟩ else unknown index

/-- A concatenation of three words, assigned to a vector of `nums` words. -/
def pack (nums : Nat) (word : Fin 3 → BitVec 32) : BitVec (nums * 32) :=
  (word 2 ++ word 1 ++ word 0).setWidth (nums * 32)

/-- `vector[i]` -/
def part (vector : BitVec (nums * 32)) (i : Fin nums) : BitVec 32 :=
  vector.extractLsb' (i * 32) 32

section Wrapper

variable (params : Params nums) (unknown : Params 3)

def slaveAddr : BitVec (nums * 32) :=
  pack nums (element params.baseAddr unknown.baseAddr)

def slaveMask : BitVec (nums * 32) :=
  pack nums fun index => ~~~(element params.size unknown.size index - 1#32)

/-- The decoder of the crossbar. -/
def decode (adr : Adr) : Fin nums → Bool := fun i =>
  ((adr ^^^ part (slaveAddr params unknown) i) &&& part (slaveMask params unknown) i) == 0#32

end Wrapper

theorem element_of_lt (array : Fin nums → BitVec 32) (unknown : Fin 3 → BitVec 32) (i : Fin nums)
    (three : i.val < 3) : element array unknown ⟨i, three⟩ = array i :=
  dif_pos i.isLt

theorem part_pack (word : Fin 3 → BitVec 32) (i : Fin nums) :
    part (pack nums word) i = if three : i.val < 3 then word ⟨i, three⟩ else 0#32 := by
  apply BitVec.eq_of_getLsbD_eq
  intro bit inside
  have fits : i.val * 32 + bit < nums * 32 := by
    have bound := i.isLt
    omega
  rw [part, pack, BitVec.getLsbD_extractLsb', BitVec.getLsbD_setWidth, BitVec.getLsbD_append,
    BitVec.getLsbD_append, decide_eq_true inside, decide_eq_true fits, Bool.true_and, Bool.true_and]
  -- the word with number `i` is found behind `i` others
  match index : i.val with
  | 0 => simp [inside]
  | 1 =>
    rw [if_neg (by omega), if_pos (by omega)]
    simp
  | 2 =>
    rw [if_neg (by omega), if_neg (by omega), Nat.sub_sub, Nat.add_sub_cancel_left]
    simp
  | rest + 3 =>
    rw [if_neg (by omega), if_neg (by omega), BitVec.getLsbD_of_ge _ _ (by omega),
      dif_neg (by omega), BitVec.getLsbD_zero]

section Decode

variable {params : Params nums} {unknown : Params 3} {adr : Adr} {i : Fin nums}

/-- The first three slaves are decoded by their base and size. -/
theorem decode_of_lt (three : i.val < 3) : decode params unknown adr i = true ↔
    (adr ^^^ params.baseAddr i) &&& ~~~(params.size i - 1#32) = 0#32 := by
  rw [decode, slaveAddr, slaveMask, part_pack, part_pack, dif_pos three, dif_pos three,
    element_of_lt, element_of_lt, beq_iff_eq]

/-- A slave after the third takes every address. -/
theorem decode_of_ge (further : 3 ≤ i.val) : decode params unknown adr i = true := by
  rw [decode, slaveMask, part_pack _ i, dif_neg (Nat.not_lt.mpr further), BitVec.and_zero]
  rfl

end Decode

/-! ## The maps that both interconnects are meant for -/

/-- Each region is naturally aligned and ends below the top of the address space. -/
structure Aligned (params : Params nums) : Prop where
  power : ∀ i, ∃ exponent, (params.size i).toNat = 2 ^ exponent
  multiple : ∀ i, (params.size i).toNat ∣ (params.baseAddr i).toNat
  below : params.BelowTop

theorem Aligned.decode_iff_covers {params : Params nums} (aligned : Aligned params)
    {unknown : Params 3} {adr : Adr} {i : Fin nums} (three : i.val < 3) :
    decode params unknown adr i = true ↔ params.Covers i adr := by
  obtain ⟨exponent, power⟩ := aligned.power i
  rw [decode_of_lt three]
  exact Memory.xor_and_regionMask_eq_zero power (aligned.multiple i)

end IbexWb.Xbar
