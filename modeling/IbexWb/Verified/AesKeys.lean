import IbexWb.Verified.AesBlocks

/-! # The key schedules of AES

`_aes_set_key` expands the key into the words of AES and writes no others.  `_nettle_aes_invert`
gives the schedule of the inverse cipher, with the same result whether it works in place or copies.
-/

namespace IbexWb.NettleAes

open Binary Cipher Memory
open Aes (Column State subByte mixMatrix unmixMatrix mixColumns roundKey schedule expandedKey)

/-! ## Rotations -/

theorem byte_rotl32 (x : BitVec 32) (row places : Fin 4) :
    byte (rotl32 (8 * places) x) row = byte x (row - places).val := by
  apply BitVec.eq_of_getLsbD_eq
  intro bit inside
  -- the bits are found by comparing `bit` with the distances, for each row and rotation
  fin_cases places <;> fin_cases row <;> simp [rotl32, byte, inside]
  all_goals grind

theorem columnOf_rotl32 (places : Fin 4) (x : BitVec 32) :
    columnOf (rotl32 (8 * places) x) = fun row => columnOf x (row - places) :=
  funext fun row => byte_rotl32 x row places

theorem columnOf_rotWord (x : BitVec 32) : columnOf (rotl32 24 x) = Aes.rotWord (columnOf x) := by
  have upward : ∀ row : Fin 4, row - 3 = row + 1 := by decide
  refine (columnOf_rotl32 3 x).trans (funext fun row => ?_)
  rw [upward]
  rfl

/-! ## Loading the key -/

/-- The words of the key as columns. -/
def keyWords (key : Nat → BitVec 8) (i : Nat) : Column := fun row =>
  ByteField.ofBits (key (4 * i + row))

theorem foldl_update {α : Type} (f : Nat → α) (base count : Nat) (memory : Nat → α) :
    (List.range count).foldl (fun memory k => Function.update memory (base + k) (f k)) memory =
      fun i => if base ≤ i ∧ i < base + count then f (i - base) else memory i := by
  induction count with
  | zero =>
    funext i
    rw [if_neg (by omega)]
    rfl
  | succ count inductionHypothesis =>
    rw [List.range_succ, List.foldl_append, inductionHypothesis]
    funext i
    rw [List.foldl_cons, List.foldl_nil, Function.update_apply]
    grind

theorem loadKey_eq (key : Nat → BitVec 8) (count : Nat) (subkeys : Nat → BitVec 32) :
    (List.range count).foldl (fun subkeys i => Function.update subkeys i
      (leReadUint32 fun offset => key (i * 4 + offset))) subkeys =
    fun i => if i < count then leReadUint32 fun offset => key (i * 4 + offset) else subkeys i := by
  have loaded := foldl_update (fun i => leReadUint32 fun offset => key (i * 4 + offset)) 0 count
    subkeys
  simpa using loaded

/-! ## Expansion -/

theorem columnOf_subbyte (x : BitVec 32) : columnOf (subbyte x sbox) = Aes.subWord (columnOf x) := by
  have bytes := encryptTables.columnOf_subbyte x x x x
  refine bytes.trans (funext fun row => ?_)
  fin_cases row <;> rfl

theorem columnOf_rcon {index : Nat} {constant : BitVec 8} (present : rcon[index]? = some constant) :
    columnOf (constant.setWidth 32) = Aes.rcon (index + 1) := by
  have listed : rcon = (List.range 10).map fun index => (ByteField.ofBits 2 ^ index).bits := by
    decide +kernel
  have word : constant.setWidth 32 = 0#8 ++ 0#8 ++ 0#8 ++ constant := by
    rw [← or_shifted_eq]
    simp
  rw [listed, List.getElem?_map, Option.map_eq_some_iff] at present
  obtain ⟨_, entry, rfl⟩ := present
  obtain ⟨_, rfl⟩ := List.getElem?_eq_some_iff.mp entry
  rw [word, columnOf_append, List.getElem_range]
  rfl

/-- The words below `i` are expanded, the others are as before, and `rp` counts the multiples of
`nk` below `i`. -/
structure Expanded (nk : Nat) (key : Nat → BitVec 8) (before : Nat → BitVec 32) (i : Nat)
    (state : Expansion) : Prop where
  words : ∀ n, n < i → columnOf (state.subkeys n) = expandedKey nk (keyWords key) n
  others : ∀ n, i ≤ n → state.subkeys n = before n
  rp : state.rp = (i - 1) / nk

variable {nk : Nat} {key : Nat → BitVec 8} {before : Nat → BitVec 32}

theorem expandedKey_of_le (positive : 0 < nk) {i : Nat} (bound : nk ≤ i) (words : Nat → Column) :
    expandedKey nk words i = expandedKey nk words (i - nk) +
      Aes.temp nk i (expandedKey nk words (i - 1)) := by
  rw [expandedKey, if_neg (by omega)]

/-- The last step of a pass: the word is written. -/
theorem Expanded.write {i : Nat} {state : Expansion} (expanded : Expanded nk key before i state)
    (positive : 0 < nk) (bound : nk ≤ i) {t : BitVec 32} {rp : Nat}
    (word : columnOf t = Aes.temp nk i (columnOf (state.subkeys (i - 1)))) (counted : rp = i / nk) :
    Expanded nk key before (i + 1)
      ⟨Function.update state.subkeys i (state.subkeys (i - nk) ^^^ t), rp⟩ where
  words := by
    intro n inside
    show columnOf (Function.update state.subkeys i _ n) = _
    rcases Nat.lt_or_eq_of_le (Nat.le_of_lt_succ inside) with earlier | rfl
    · rw [Function.update_of_ne (Nat.ne_of_lt earlier)]
      exact expanded.words n earlier
    · rw [Function.update_self, columnOf_xor, word, expanded.words (n - nk) (by omega),
        expanded.words (n - 1) (by omega), expandedKey_of_le positive bound]
  others := by
    intro n outside
    show Function.update state.subkeys i _ n = _
    rw [Function.update_of_ne (by omega)]
    exact expanded.others n (by omega)
  rp := counted

theorem expand_of_multiple {i : Nat} {state : Expansion} (multiple : i % nk = 0)
    {constant : BitVec 8} (present : rcon[state.rp]? = some constant) :
    expand nk state i = some ⟨Function.update state.subkeys i (state.subkeys (i - nk) ^^^
      (subbyte (rotl32 24 (state.subkeys (i - 1))) sbox ^^^ constant.setWidth 32)), state.rp + 1⟩ := by
  simp [expand, multiple, present]

theorem expand_of_other {i : Nat} {state : Expansion} (other : i % nk ≠ 0) :
    expand nk state i = some ⟨Function.update state.subkeys i (state.subkeys (i - nk) ^^^
      if 6 < nk ∧ i % nk = 4 then subbyte (state.subkeys (i - 1)) sbox
      else state.subkeys (i - 1)), state.rp⟩ := by
  by_cases substituted : 6 < nk ∧ i % nk = 4 <;> simp [expand, other, substituted]

theorem Expanded.expand {i : Nat} {state : Expansion} (expanded : Expanded nk key before i state)
    (positive : 0 < nk) (bound : nk ≤ i) (constants : i / nk ≤ rcon.length) :
    ∃ next, expand nk state i = some next ∧ Expanded nk key before (i + 1) next := by
  -- the constants are used up at the multiples of `nk`, as `rp` counts
  have divided : i / nk = (i - 1) / nk + if nk ∣ i then 1 else 0 := by
    have counted : (i - 1 + 1) / nk = _ := Nat.succ_div
    rwa [Nat.sub_add_cancel (by omega)] at counted
  by_cases multiple : i % nk = 0
  · rw [if_pos (Nat.dvd_of_mod_eq_zero multiple), ← expanded.rp] at divided
    have present := List.getElem?_eq_getElem (l := rcon) (i := state.rp) (by omega)
    refine ⟨_, expand_of_multiple multiple present, expanded.write positive bound ?_ divided.symm⟩
    rw [columnOf_xor, columnOf_subbyte, columnOf_rcon present, ← divided, Aes.temp, if_pos multiple]
    congr 2
    exact columnOf_rotWord _
  · rw [if_neg (mt Nat.mod_eq_zero_of_dvd multiple), ← expanded.rp] at divided
    refine ⟨_, expand_of_other multiple, expanded.write positive bound ?_ divided.symm⟩
    rw [Aes.temp, if_neg multiple]
    split
    · exact columnOf_subbyte _
    · rfl

theorem Expanded.foldlM {state : Expansion} (positive : 0 < nk) (count : Nat)
    (constants : (nk + count - 1) / nk ≤ rcon.length)
    (expanded : Expanded nk key before nk state) :
    ∃ last, (List.range' nk count).foldlM (NettleAes.expand nk) state = some last ∧
      Expanded nk key before (nk + count) last := by
  induction count with
  | zero => exact ⟨state, rfl, expanded⟩
  | succ count inductionHypothesis =>
    have fewer : (nk + count - 1) / nk ≤ (nk + (count + 1) - 1) / nk :=
      Nat.div_le_div_right (by omega)
    obtain ⟨middle, run, reached⟩ := inductionHypothesis (Nat.le_trans fewer constants)
    obtain ⟨last, step, done⟩ := reached.expand positive (Nat.le_add_right nk count) constants
    refine ⟨last, ?_, done⟩
    rw [List.range'_concat, List.foldlM_append, run, Nat.one_mul]
    simp [step]

/-- `_aes_set_key` succeeds, writes the expanded key, and nothing behind it. -/
theorem aesSetKey_eq (enough : 4 ≤ nk) (subkeys : Nat → BitVec 32) (key : Nat → BitVec 8) :
    ∃ keys, aesSetKey (nk + 6) nk subkeys key = some keys ∧
      (∀ i, i < 4 * (nk + 7) → keyColumns keys i = expandedKey nk (keyWords key) i) ∧
      ∀ i, 4 * (nk + 7) ≤ i → keys i = subkeys i := by
  -- the key has at least four words, so ten constants are enough
  have constants : (nk + (4 * (nk + 7) - nk) - 1) / nk ≤ rcon.length := by
    refine Nat.le_of_lt_succ (Nat.div_lt_of_lt_mul ?_)
    show _ < nk * 11
    omega
  have loaded : Expanded nk key subkeys nk ⟨fun i => if i < nk then
      leReadUint32 fun offset => key (i * 4 + offset) else subkeys i, 0⟩ := by
    refine ⟨fun n inside => ?_, fun n outside => if_neg (Nat.not_lt.mpr outside), ?_⟩
    · show columnOf (if n < nk then _ else _) = _
      rw [if_pos inside, columnOf_leReadUint32, expandedKey, if_pos (Or.inl inside), Nat.mul_comm]
      rfl
    · exact (Nat.div_eq_of_lt (by omega)).symm
  obtain ⟨last, run, expanded⟩ := loaded.foldlM (by omega) _ constants
  have whole : nk + (4 * (nk + 7) - nk) = 4 * (nk + 7) := by omega
  refine ⟨last.subkeys, ?_, fun i inside => expanded.words i (by omega),
    fun i outside => expanded.others i (by omega)⟩
  rw [aesSetKey, loadKey_eq]
  have total : 16 / 4 * (nk + 6 + 1) = 4 * (nk + 7) := rfl
  simp [total, run, show nk ≠ 0 by omega]

/-! ## Reversal -/

/-- The words of group `g` come from group `first + last - g`. -/
def reversedFrom (first last : Nat) (keys : Nat → BitVec 32) (i : Nat) : BitVec 32 :=
  if first ≤ i / 4 ∧ i / 4 ≤ last then keys (4 * (first + last - i / 4) + i % 4) else keys i

theorem foldl_swap (a b count : Nat) (apart : a + count ≤ b) (keys : Nat → BitVec 32) :
    (List.range count).foldl (fun keys k => swap (a + k) (b + k) keys) keys = fun i =>
      if a ≤ i ∧ i < a + count then keys (b + (i - a))
      else if b ≤ i ∧ i < b + count then keys (a + (i - b))
      else keys i := by
  induction count with
  | zero =>
    funext i
    rw [if_neg (by omega), if_neg (by omega)]
    rfl
  | succ count inductionHypothesis =>
    rw [List.range_succ, List.foldl_append, inductionHypothesis (by omega)]
    funext i
    rw [List.foldl_cons, List.foldl_nil, swap, Function.update_apply, Function.update_apply]
    grind

/-- The index of the first word of a group; there are 2 ^ 30 groups. -/
def groupIndex (group : Nat) : BitVec 32 := BitVec.ofNat 32 (4 * group)

theorem toNat_groupIndex {group : Nat} (inside : group < 2 ^ 30) :
    (groupIndex group).toNat = 4 * group := by
  rw [groupIndex, BitVec.toNat_ofNat]
  omega

/-- An index into a group does not wrap. -/
theorem toNat_groupIndex_add {group : Nat} (inside : group < 2 ^ 30) {k : Nat} (bound : k < 4) :
    (groupIndex group + BitVec.ofNat 32 k).toNat = 4 * group + k := by
  rw [BitVec.toNat_add, toNat_groupIndex inside, BitVec.toNat_ofNat]
  omega

theorem groupIndex_lt_iff {first last : Nat} (firstInside : first < 2 ^ 30)
    (lastInside : last < 2 ^ 30) : groupIndex first < groupIndex last ↔ first < last := by
  rw [BitVec.lt_def, toNat_groupIndex firstInside, toNat_groupIndex lastInside]
  omega

theorem groupIndex_succ (group : Nat) : groupIndex group + 4 = groupIndex (group + 1) :=
  (BitVec.ofNat_add (4 * group) 4).symm

theorem groupIndex_sub {first last : Nat} (ordered : first ≤ last) :
    groupIndex last - groupIndex first = groupIndex (last - first) := by
  obtain ⟨distance, rfl⟩ := Nat.exists_eq_add_of_le ordered
  have added : groupIndex (first + distance) = groupIndex distance + groupIndex first := by
    rw [groupIndex, Nat.mul_add, BitVec.ofNat_add, BitVec.add_comm]
    rfl
  rw [added, BitVec.add_sub_cancel, Nat.add_sub_cancel_left]

section InPlace

variable {first last : Nat} (firstInside : first < 2 ^ 30) (lastInside : last < 2 ^ 30)
  (fuel : Nat) (keys : Nat → BitVec 32)

include firstInside lastInside

theorem reverseInPlace_pass (crossing : first < last) :
    reverseInPlace (fuel + 1) (groupIndex first) (groupIndex last) keys =
      reverseInPlace fuel (groupIndex (first + 1)) (groupIndex (last - 1))
        ((List.range 4).foldl (fun keys k => swap (4 * first + k) (4 * last + k) keys) keys) := by
  have below := (groupIndex_lt_iff firstInside lastInside).mpr crossing
  have before : groupIndex last - groupIndex 1 = groupIndex (last - 1) :=
    groupIndex_sub (Nat.one_le_of_lt crossing)
  rw [reverseInPlace, if_pos below, groupIndex_succ, ← before]
  congr 1
  refine List.foldl_ext _ _ _ fun keys k member => ?_
  have bound := List.mem_range.mp member
  rw [toNat_groupIndex_add firstInside bound, toNat_groupIndex_add lastInside bound]

theorem reverseInPlace_done (crossed : last ≤ first) :
    reverseInPlace (fuel + 1) (groupIndex first) (groupIndex last) keys = some keys := by
  have above := mt (groupIndex_lt_iff firstInside lastInside).mp (Nat.not_lt.mpr crossed)
  rw [reverseInPlace, if_neg above]

end InPlace

theorem reversedFrom_crossed {first last : Nat} (crossed : last ≤ first) (keys : Nat → BitVec 32) :
    reversedFrom first last keys = keys := by
  funext i
  rw [reversedFrom]
  split
  · congr 1
    omega
  · rfl

/-- From the groups `first` and `last` on, the loop reverses the groups between them. -/
theorem reverseInPlace_eq (fuel first last : Nat) (enough : last ≤ first + 2 * fuel)
    (firstInside : first < 2 ^ 30) (lastInside : last < 2 ^ 30) (keys : Nat → BitVec 32) :
    reverseInPlace (fuel + 1) (groupIndex first) (groupIndex last) keys =
      some (reversedFrom first last keys) := by
  induction fuel generalizing first last keys with
  | zero =>
    rw [Nat.mul_zero, Nat.add_zero] at enough
    rw [reverseInPlace_done firstInside lastInside _ _ enough, reversedFrom_crossed enough]
  | succ fuel inductionHypothesis =>
    rcases Nat.lt_or_ge first last with crossing | crossed
    · -- the two groups outside are swapped, and the loop goes on with those between them
      rw [reverseInPlace_pass firstInside lastInside _ _ crossing,
        inductionHypothesis (first + 1) (last - 1) (by omega) (by omega) (by omega),
        foldl_swap _ _ _ (by omega)]
      congr 1
      funext i
      simp only [reversedFrom]
      grind
    · rw [reverseInPlace_done firstInside lastInside _ _ crossed, reversedFrom_crossed crossed]

section Copy

variable {group last : Nat} (groupInside : group < 2 ^ 30) (lastInside : last < 2 ^ 30)
  (fuel : Nat) (dst src : Nat → BitVec 32)

include groupInside lastInside

theorem reverseCopy_pass (within : group ≤ last) :
    reverseCopy (groupIndex last) src (fuel + 1) (groupIndex group) dst =
      reverseCopy (groupIndex last) src fuel (groupIndex (group + 1))
        fun i => if 4 * group ≤ i ∧ i < 4 * group + 4 then
          src (4 * (last - group) + (i - 4 * group)) else dst i := by
  have below : groupIndex group ≤ groupIndex last := BitVec.not_lt.mp
    (mt (groupIndex_lt_iff lastInside groupInside).mp (Nat.not_lt.mpr within))
  rw [reverseCopy, if_pos below, groupIndex_succ, groupIndex_sub within,
    ← foldl_update fun k => src (4 * (last - group) + k)]
  congr 1
  refine List.foldl_ext _ _ _ fun dst k member => ?_
  have bound := List.mem_range.mp member
  rw [toNat_groupIndex_add groupInside bound, toNat_groupIndex_add (by omega) bound]

theorem reverseCopy_done (behind : last < group) :
    reverseCopy (groupIndex last) src (fuel + 1) (groupIndex group) dst = some dst := by
  have above : ¬ groupIndex group ≤ groupIndex last := BitVec.not_le.mpr
    ((groupIndex_lt_iff lastInside groupInside).mpr behind)
  rw [reverseCopy, if_neg above]

end Copy

/-- From `group` on, the loop fills the groups up to the last one. -/
theorem reverseCopy_eq (fuel group last : Nat) (enough : last + 1 ≤ group + fuel)
    (groupInside : group < 2 ^ 30) (lastInside : last < 2 ^ 30 - 1) (dst src : Nat → BitVec 32) :
    reverseCopy (groupIndex last) src (fuel + 1) (groupIndex group) dst = some fun i =>
      if group ≤ i / 4 ∧ i / 4 ≤ last then src (4 * (last - i / 4) + i % 4) else dst i := by
  induction fuel generalizing group dst with
  | zero =>
    rw [reverseCopy_done groupInside (by omega) _ _ _ (by omega)]
    congr 1
    funext i
    rw [if_neg (by omega)]
  | succ fuel inductionHypothesis =>
    rcases Nat.lt_or_ge last group with behind | within
    · rw [reverseCopy_done groupInside (by omega) _ _ _ behind]
      congr 1
      funext i
      rw [if_neg (by omega)]
    · rw [reverseCopy_pass groupInside (by omega) _ _ _ within,
        inductionHypothesis (group + 1) (by omega) (by omega)]
      congr 1
      funext i
      grind

/-- Behind the greatest multiple of four the index wraps to zero, so the loop never ends. -/
theorem reverseCopy_never (src : Nat → BitVec 32) (fuel : Nat) (i : BitVec 32)
    (multiple : i.toNat % 4 = 0) (dst : Nat → BitVec 32) :
    reverseCopy (groupIndex (2 ^ 30 - 1)) src fuel i dst = none := by
  induction fuel generalizing i dst with
  | zero => rfl
  | succ fuel inductionHypothesis =>
    have within : i ≤ groupIndex (2 ^ 30 - 1) := by
      rw [BitVec.le_def, toNat_groupIndex (by decide)]
      omega
    have next : (i + 4).toNat % 4 = 0 := by
      rw [BitVec.toNat_add]
      show (i.toNat + 4) % 2 ^ 32 % 4 = 0
      omega
    rw [reverseCopy, if_pos within, inductionHypothesis (i + 4) next]

/-! ## Inversion -/

theorem mtable_eq (a : BitVec 8) :
    element mtable a = productWord (fun row => unmixMatrix row 0) a :=
  element_of_range (by decide +kernel) a

/-- A rotated entry of `mtable` is the product with another column of the matrix. -/
theorem columnOf_rotl32_mtable (places : Fin 4) (a : BitVec 8) :
    columnOf (rotl32 (8 * places) (element mtable a)) =
      fun row => unmixMatrix row places * ByteField.ofBits a := by
  have distance : ∀ row places : Fin 4, 0 - (row - places) = places - row := by decide
  have turned (row : Fin 4) : unmixMatrix (row - places) 0 = unmixMatrix row places := by
    rw [unmixMatrix, Aes.circulant_apply, Aes.circulant_apply, distance]
  rw [columnOf_rotl32, mtable_eq, columnOf_productWord]
  exact funext fun row => congrArg (· * ByteField.ofBits a) (turned row)

theorem columnOf_mixColumn (key : BitVec 32) :
    columnOf (mixColumn mtable key) = unmixMatrix.mulVec (columnOf key) := by
  have b0_shift (x : BitVec 32) (index : Nat) : b0 (x >>> (8 * index)) = byte x index := by
    rw [b0, setWidth_and, setWidth_shift]
  have first : columnOf (element mtable (b0 key)) =
      fun row => unmixMatrix row 0 * columnOf key 0 := by
    rw [mtable_eq, columnOf_productWord, b0_eq]
    rfl
  have turned (places : Fin 4) :
      columnOf (rotl32 (8 * places) (element mtable (b0 (key >>> (8 * places.val))))) =
        fun row => unmixMatrix row places * columnOf key places := by
    rw [columnOf_rotl32_mtable, b0_shift]
    rfl
  rw [mixColumn, columnOf_xor, columnOf_xor, columnOf_xor, first,
    ← BitVec.shiftRight_add, ← BitVec.shiftRight_add]
  refine (congrArg₂ _ (congrArg₂ _ (congrArg₂ _ rfl (turned 1)) (turned 2)) (turned 3)).trans ?_
  funext row
  simp [Matrix.mulVec, dotProduct, Fin.sum_univ_four]

theorem foldl_update_self {α : Type} (f : α → α) (base count : Nat) (memory : Nat → α) :
    (List.range' base count).foldl (fun memory i => Function.update memory i (f (memory i))) memory =
      fun i => if base ≤ i ∧ i < base + count then f (memory i) else memory i := by
  induction count with
  | zero =>
    funext i
    rw [if_neg (by omega)]
    rfl
  | succ count inductionHypothesis =>
    rw [List.range'_concat, List.foldl_append, inductionHypothesis, Nat.one_mul]
    funext i
    rw [List.foldl_cons, List.foldl_nil, Function.update_apply]
    grind

/-- The words of the inverse schedule, and all others as they are in `dst`. -/
def inverted (rounds : Nat) (dst src : Nat → BitVec 32) (i : Nat) : BitVec 32 :=
  let word := src (4 * (rounds - i / 4) + i % 4)
  if 4 * rounds + 4 ≤ i then dst i
  else if 4 ≤ i ∧ i < 4 * rounds then mixColumn mtable word
  else word

/-- The group that the loops of `_nettle_aes_invert` take for the last one. -/
def lastGroup (rounds : BitVec 32) : Nat := rounds.toNat % 2 ^ 30

theorem lastGroup_lt (rounds : BitVec 32) : lastGroup rounds < 2 ^ 30 :=
  Nat.mod_lt _ (by decide)

theorem rounds_mul (rounds : BitVec 32) : rounds * 4 = groupIndex (lastGroup rounds) := by
  apply BitVec.eq_of_toNat_eq
  rw [toNat_groupIndex (lastGroup_lt rounds), lastGroup, BitVec.toNat_mul]
  show rounds.toNat * 4 % 2 ^ 32 = _
  omega

/-- The groups up to the last one in the opposite order. -/
def reversed (last : Nat) (dst src : Nat → BitVec 32) (i : Nat) : BitVec 32 :=
  if i / 4 ≤ last then src (4 * (last - i / 4) + i % 4) else dst i

/-- The last loop mixes the words between the first and the last group. -/
theorem mixed_reversed (last : Nat) (dst src : Nat → BitVec 32) :
    (List.range' 4 (4 * last - 4)).foldl (fun dst i =>
      Function.update dst i (mixColumn mtable (dst i))) (reversed last dst src) =
      inverted last dst src := by
  rw [foldl_update_self]
  funext i
  simp only [reversed, inverted]
  grind

theorem nettleAesInvert_of_reversed {rounds : BitVec 32} {same : Bool} {dst src : Nat → BitVec 32}
    (ends : (if same then
        reverseInPlace (lastGroup rounds + 2) (groupIndex 0) (groupIndex (lastGroup rounds)) dst
      else
        reverseCopy (groupIndex (lastGroup rounds)) src (lastGroup rounds + 2) (groupIndex 0) dst) =
      some (reversed (lastGroup rounds) dst src)) :
    nettleAesInvert rounds same dst src = some (inverted (lastGroup rounds) dst src) := by
  have total := toNat_groupIndex (lastGroup_lt rounds)
  have start : groupIndex 0 = 0 := rfl
  rw [nettleAesInvert, BitVec.mul_comm 4, rounds_mul, total, Nat.mul_div_cancel_left _ (by decide),
    ← start, ends, ← mixed_reversed]
  rfl

theorem nettleAesInvert_inPlace (rounds : BitVec 32) (keys : Nat → BitVec 32) :
    nettleAesInvert rounds true keys keys = some (inverted (lastGroup rounds) keys keys) := by
  refine nettleAesInvert_of_reversed ?_
  rw [if_pos rfl, reverseInPlace_eq _ _ _ (by omega) (by decide) (lastGroup_lt rounds)]
  congr 1
  funext i
  simp [reversedFrom, reversed]

theorem nettleAesInvert_copy {rounds : BitVec 32} (bound : lastGroup rounds < 2 ^ 30 - 1)
    (dst src : Nat → BitVec 32) :
    nettleAesInvert rounds false dst src = some (inverted (lastGroup rounds) dst src) := by
  refine nettleAesInvert_of_reversed ?_
  rw [if_neg Bool.false_ne_true, reverseCopy_eq _ _ _ (by omega) (by decide) bound]
  congr 1
  funext i
  simp [reversed]

end IbexWb.NettleAes
