import Mathlib.Tactic.Common

/-! # Tables with an entry for each byte

What a table holds is checked by comparing the list of its entries with the list of the values
that a function has on the bytes, or with another table.
-/

namespace IbexWb.Binary

variable {α β : Type}

/-! ## Indices -/

theorem setWidth_and (x : BitVec 32) : (x &&& 0xff).setWidth 8 = x.setWidth 8 := by
  apply BitVec.eq_of_toNat_eq
  have mask : x.toNat &&& 0xff = x.toNat % 2 ^ 8 := Nat.and_two_pow_sub_one_eq_mod x.toNat 8
  rw [BitVec.toNat_setWidth, BitVec.toNat_setWidth, BitVec.toNat_and]
  exact (congrArg (· % 2 ^ 8) mask).trans (Nat.mod_mod _ _)

/-! ## Entries -/

/-- `table[index]` -/
def element (table : Vector α 256) (index : BitVec 8) : α := table.get index.toFin

theorem element_eq_getElem (table : Vector α 256) (index : BitVec 8) :
    some (element table index) = table.toList[index.toNat]? := by
  have bound : index.toNat < table.toList.length := by
    rw [Vector.length_toList]
    exact index.isLt
  rw [List.getElem?_eq_getElem bound]
  rfl

theorem element_of_range {table : Vector α 256} {f : BitVec 8 → α}
    (listed : table.toList = (List.range 256).map fun index => f (BitVec.ofNat 8 index))
    (index : BitVec 8) : element table index = f index := by
  have entry := element_eq_getElem table index
  rw [listed, List.getElem?_map, List.getElem?_range index.isLt] at entry
  simpa using entry

theorem element_of_map {table : Vector β 256} {box : Vector α 256} {f : α → β}
    (listed : table.toList = box.toList.map f) (index : BitVec 8) :
    element table index = f (element box index) := by
  have entry := element_eq_getElem table index
  rw [listed, List.getElem?_map, ← element_eq_getElem] at entry
  exact Option.some.inj entry

end IbexWb.Binary
