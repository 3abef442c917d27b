import IbexWb.Verified.ImageStores

/-! # Whether the converters preserve an image

Only groups of four bytes become words.  Up to three bytes left over at the end of a record stay
tokens of their own, and each of them is stored as a word: the first in the last word of the record,
in place of all of them, and the others in the words behind it.  The image survives where those
other bytes are zero, and where the words that they go to end up zero or belong to a later record,
whose own words are stored after them.
-/

namespace IbexWb.Scripts

open Text

/-! ## The stores of a record -/

theorem groupValue_single (byte : HexByte) : groupValue [byte] = byte.value.setWidth 32 := by
  apply BitVec.eq_of_toNat_eq
  have bound := byte.value.isLt
  rw [groupValue, Memory.toNat_ofBytes, BitVec.toNat_setWidth, Nat.mod_eq_of_lt (by omega)]
  simp

/-- The words come first, and the bytes left over behind them. -/
theorem getElem?_groups (bytes : List HexByte) : ∀ index,
    ((groups bytes).map groupValue)[index]? =
      if 4 * index + 3 < bytes.length then
        some (Memory.ofBytes fun offset => (bytes[4 * index + offset]?.map HexByte.value).getD 0)
      else bytes[3 * (bytes.length / 4) + index]?.map fun byte => byte.value.setWidth 32 := by
  induction bytes using groups.induct with
  | case1 a b c d rest inductionHypothesis =>
    intro index
    rw [groups, List.map_cons]
    cases index with
    | zero =>
      rw [if_pos (by simp), List.getElem?_cons_zero]
      rfl
    | succ index =>
      have length : (a :: b :: c :: d :: rest).length = rest.length + 4 := rfl
      have shifted : ∀ position, (a :: b :: c :: d :: rest)[position + 4]? = rest[position]? :=
        fun _ => rfl
      rw [List.getElem?_cons_succ, inductionHypothesis, length]
      refine if_congr (by omega) ?_ ?_
      · refine congrArg some (Memory.ofBytes_congr fun offset _ => ?_)
        rw [show 4 * (index + 1) + offset = 4 * index + offset + 4 by omega, shifted]
      · rw [show 3 * ((rest.length + 4) / 4) + (index + 1) =
          3 * (rest.length / 4) + index + 4 by omega, shifted]
  | case2 rest short =>
    intro index
    have bound := length_lt_four short
    rw [groups, if_neg (by omega), Nat.div_eq_of_lt bound, Nat.mul_zero, Nat.zero_add]
    · simp [groupValue_single, Function.comp_def]
    · exact short

namespace Record

variable (record : Record)

/-- How many words have all their bytes. -/
def whole : Nat := record.bytes.length / 4

/-- How many bytes are left over. -/
def left : Nat := record.bytes.length % 4

/-- A byte left over, by its number among them. -/
def spare (index : Nat) : BitVec 8 := record.byte (4 * record.whole + index)

/-- Where the token of a byte left over is stored. -/
def spareAddress (index : Nat) : Nat := record.address + record.whole + index

variable {record}

theorem word?_eq_some {address : Nat} {value : BitVec 32} : record.word? address = some value ↔
    record.Covers address ∧ record.word (address - record.address) = value := by
  by_cases covers : record.Covers address
  · rw [word?, if_pos covers, Option.some.injEq, and_iff_right covers]
  · rw [word?, if_neg covers]
    exact iff_of_false nofun fun both => covers both.1

theorem covers_iff {address : Nat} : record.Covers address ↔ record.address ≤ address ∧
    (address < record.spareAddress 0 ∨ address = record.spareAddress 0 ∧ 0 < record.left) := by
  rw [Covers, words, spareAddress, whole, left]
  omega

theorem word?_word {index : Nat} (inside : index < record.whole) :
    record.word? (record.address + index) = some (record.word index) := by
  rw [word?, if_pos, Nat.add_sub_cancel_left]
  refine covers_iff.mpr ⟨Nat.le_add_right _ _, Or.inl ?_⟩
  rw [spareAddress]
  omega

theorem word?_spare (remaining : 0 < record.left) :
    record.word? (record.spareAddress 0) = some (record.word record.whole) := by
  rw [word?, if_pos, spareAddress, Nat.add_zero, Nat.add_sub_cancel_left]
  refine covers_iff.mpr ⟨?_, Or.inr ⟨rfl, remaining⟩⟩
  rw [spareAddress]
  omega

/-- The tokens behind the first byte left over go to no word of the record. -/
theorem word?_beyond {index : Nat} (positive : 1 ≤ index) :
    record.word? (record.spareAddress index) = none := by
  refine if_neg fun covers => ?_
  have bounds := (covers_iff.mp covers).2
  rw [spareAddress, spareAddress] at bounds
  omega

theorem load_writes_word {index : Nat} (inside : index < record.whole) :
    Memory.load record.writes (record.address + index) = some (record.word index) := by
  rw [whole] at inside
  rw [writes, Memory.load_burst, if_pos (by omega), Nat.add_sub_cancel_left, getElem?_groups,
    if_pos (by omega)]
  rfl

theorem load_writes_spare {index : Nat} (inside : index < record.left) :
    Memory.load record.writes (record.spareAddress index) =
      some ((record.spare index).setWidth 32) := by
  rw [left] at inside
  have position : 3 * (record.bytes.length / 4) + (record.bytes.length / 4 + index) =
      4 * (record.bytes.length / 4) + index := by omega
  have present : 4 * (record.bytes.length / 4) + index < record.bytes.length := by omega
  rw [writes, Memory.load_burst, spareAddress, if_pos (by omega), Nat.add_assoc,
    Nat.add_sub_cancel_left, getElem?_groups, whole, if_neg (by omega), position, spare, byte, whole,
    List.getElem?_eq_getElem present]
  rfl

/-- A record stores to its words, and from the second byte left over on behind them. -/
theorem stored_cases {address : Nat} {value : BitVec 32}
    (stored : Memory.load record.writes address = some value) :
    (∃ word, record.word? address = some word) ∨ ∃ index, 1 ≤ index ∧ index < record.left ∧
      address = record.spareAddress index ∧ value = (record.spare index).setWidth 32 := by
  by_cases above : record.address ≤ address
  · obtain ⟨offset, rfl⟩ := Nat.exists_eq_add_of_le above
    by_cases inside : offset < record.whole
    · exact Or.inl ⟨_, word?_word inside⟩
    · obtain ⟨index, rfl⟩ := Nat.exists_eq_add_of_le (Nat.le_of_not_lt inside)
      rw [← Nat.add_assoc, ← spareAddress] at stored ⊢
      by_cases remaining : index < record.left
      · cases index with
        | zero => exact Or.inl ⟨_, word?_spare remaining⟩
        | succ index =>
          rw [load_writes_spare remaining] at stored
          exact Or.inr ⟨index + 1, Nat.succ_pos index, remaining, rfl,
            (Option.some.inj stored).symm⟩
      · rw [left] at remaining
        rw [writes, Memory.load_burst, spareAddress, whole, if_pos (by omega), Nat.add_assoc,
          Nat.add_sub_cancel_left, getElem?_groups, if_neg (by omega),
          List.getElem?_eq_none (by omega)] at stored
        exact absurd stored nofun
  · rw [writes, Memory.load_burst, if_neg above] at stored
    exact absurd stored nofun

/-! ## The bytes left over -/

theorem left_lt (record : Record) : record.left < 4 := Nat.mod_lt _ (by decide)

theorem byte_word_whole {index : Nat} (bound : index < 4) :
    Memory.byte (record.word record.whole) index = record.spare index :=
  Memory.byte_ofBytes _ bound

theorem spare_of_left_le {index : Nat} (outside : record.left ≤ index) :
    record.spare index = 0 := by
  rw [left] at outside
  rw [spare, byte, whole, List.getElem?_eq_none (by omega)]
  rfl

/-- The last word is the first byte left over if the others are zero. -/
theorem word_whole (zero : ∀ index, 1 ≤ index → index < record.left → record.spare index = 0) :
    record.word record.whole = (record.spare 0).setWidth 32 := by
  have beyond : ∀ index, 1 ≤ index → (record.spare index).toNat = 0 := by
    intro index positive
    by_cases inside : index < record.left
    · rw [zero index positive inside]
      rfl
    · rw [spare_of_left_le (Nat.le_of_not_lt inside)]
      rfl
  apply BitVec.eq_of_toNat_eq
  have bound := (record.spare 0).isLt
  have word : (record.word record.whole).toNat = (record.spare 0).toNat +
      256 * (record.spare 1).toNat + 65536 * (record.spare 2).toNat +
        16777216 * (record.spare 3).toNat := Memory.toNat_ofBytes _
  rw [word, beyond 1 (by decide), beyond 2 (by decide), beyond 3 (by decide), BitVec.toNat_setWidth]
  omega

/-- To each of its words a record stores something, and the right value if all bytes left over but
the first are zero. -/
theorem stored_of_word? {address : Nat} {word : BitVec 32}
    (belongs : record.word? address = some word) :
    ∃ value, Memory.load record.writes address = some value ∧
      ((∀ index, 1 ≤ index → index < record.left → record.spare index = 0) → value = word) := by
  obtain ⟨covers, _⟩ := word?_eq_some.mp belongs
  obtain ⟨above, full | ⟨rfl, remaining⟩⟩ := covers_iff.mp covers
  · obtain ⟨index, rfl⟩ := Nat.exists_eq_add_of_le above
    rw [spareAddress] at full
    have inside : index < record.whole := by omega
    rw [word?_word inside] at belongs
    exact ⟨_, load_writes_word inside, fun _ => Option.some.inj belongs⟩
  · rw [word?_spare remaining] at belongs
    exact ⟨_, load_writes_spare remaining,
      fun zero => (word_whole zero).symm.trans (Option.some.inj belongs)⟩

end Record

/-- A word below 256 has one byte only. -/
theorem byte_setWidth (data : BitVec 8) {index : Nat} (positive : 1 ≤ index) :
    Memory.byte (data.setWidth 32) index = 0 := by
  apply BitVec.eq_of_getLsbD_eq
  intro offset inside
  rw [Memory.byte, BitVec.getLsbD_extractLsb', BitVec.getLsbD_setWidth,
    BitVec.getLsbD_of_ge _ _ (by omega)]
  simp

/-! ## Images -/

/-- The text that a script makes of the image is read as the image. -/
def Preserves (records : List Record) : Prop :=
  readmemh (hex2vmem (render records)) = some (image records) ∧
    readMif (hex2mif (render records)) = image records

/-- Each byte left over but the first is zero, and the word that it goes to belongs to a later
record or is zero too. -/
def Harmless (records : List Record) : Prop :=
  ∀ (record : Fin records.length) index, 1 ≤ index → index < (records.get record).left →
    (records.get record).spare index = 0 ∧ ∃ (owner : Fin records.length) (value : BitVec 32),
      (records.get owner).word? ((records.get record).spareAddress index) = some value ∧
        (record < owner ∨ value = 0)

section Images

variable {records : List Record}

theorem preserves_iff : Preserves records ↔
    Memory.load (records.flatMap Record.writes) = image records := by
  rw [Preserves, readmemh_hex2vmem, readMif_hex2mif, Option.some.injEq, and_self]

variable (disjoint : Disjoint records)
include disjoint

theorem owner_unique {first second : Fin records.length} {address : Nat} {value other : BitVec 32}
    (belongs : (records.get first).word? address = some value)
    (belongsOther : (records.get second).word? address = some other) : first = second :=
  disjoint first second address (Record.word?_eq_some.mp belongs).1
    (Record.word?_eq_some.mp belongsOther).1

theorem image_eq_some {address : Nat} {value : BitVec 32} : image records address = some value ↔
    ∃ owner : Fin records.length, (records.get owner).word? address = some value := by
  have found : ∀ value, image records address = some value →
      ∃ owner : Fin records.length, (records.get owner).word? address = some value := by
    intro value equal
    obtain ⟨record, member, belongs⟩ := List.exists_of_findSome?_eq_some equal
    obtain ⟨owner, rfl⟩ := List.get_of_mem member
    exact ⟨owner, belongs⟩
  refine ⟨found value, fun ⟨owner, belongs⟩ => ?_⟩
  cases equal : image records address with
  | none =>
    have free := List.findSome?_eq_none_iff.mp equal _ (records.get_mem owner)
    rw [belongs] at free
    exact absurd free nofun
  | some other =>
    obtain ⟨another, belongsOther⟩ := found other equal
    obtain rfl := owner_unique disjoint belongs belongsOther
    rw [← belongs, belongsOther]

/-- At the last word of a record something is stored that has one byte only. -/
theorem spare_eq_zero (agree : Memory.load (records.flatMap Record.writes) = image records)
    (record : Fin records.length) {index : Nat} (positive : 1 ≤ index)
    (inside : index < (records.get record).left) : (records.get record).spare index = 0 := by
  have remaining : 0 < (records.get record).left := Nat.lt_of_le_of_lt (Nat.zero_le _) inside
  have belongs := Record.word?_spare remaining
  have value := (image_eq_some disjoint).mpr ⟨record, belongs⟩
  rw [← agree, Memory.load_flatMap_eq_some] at value
  obtain ⟨last, stored, _⟩ := value
  have bound := Record.left_lt (records.get record)
  have narrow : ∃ data : BitVec 8,
      (records.get record).word (records.get record).whole = data.setWidth 32 := by
    obtain ⟨word, belongsLast⟩ | ⟨position, _, _, _, value⟩ := Record.stored_cases stored
    · -- only the record itself has a word here, and what it stores is the byte
      obtain rfl := owner_unique disjoint belongs belongsLast
      rw [Record.load_writes_spare remaining] at stored
      exact ⟨_, (Option.some.inj stored).symm⟩
    · exact ⟨_, value⟩
  obtain ⟨data, value⟩ := narrow
  rw [← Record.byte_word_whole (by omega), value, byte_setWidth data positive]

theorem harmless_of_load (agree : Memory.load (records.flatMap Record.writes) = image records) :
    Harmless records := by
  intro record index positive inside
  have zero := spare_eq_zero disjoint agree record positive inside
  refine ⟨zero, ?_⟩
  have own := Record.load_writes_spare inside
  cases equal : Memory.load (records.flatMap Record.writes)
      ((records.get record).spareAddress index) with
  | none =>
    have free := (Memory.load_flatMap_eq_none Record.writes).mp equal record
    rw [own] at free
    exact absurd free nofun
  | some value =>
    obtain ⟨owner, belongs⟩ := (image_eq_some disjoint).mp ((congrFun agree _).symm.trans equal)
    refine ⟨owner, value, belongs, ?_⟩
    obtain ⟨last, stored, final⟩ := (Memory.load_flatMap_eq_some Record.writes).mp equal
    obtain ⟨word, belongsLast⟩ | ⟨position, behind, within, _, rfl⟩ := Record.stored_cases stored
    · -- the owner stores last, so it comes behind the record
      obtain rfl := owner_unique disjoint belongs belongsLast
      refine Or.inl ((Nat.lt_or_ge record owner).resolve_right fun before => ?_)
      obtain earlier | same := Nat.lt_or_eq_of_le before
      · rw [final record earlier] at own
        exact absurd own nofun
      · obtain rfl := Fin.ext same
        rw [Record.word?_beyond positive] at belongs
        exact absurd belongs nofun
    · rw [spare_eq_zero disjoint agree last behind within]
      exact Or.inr rfl

theorem load_of_harmless (harmless : Harmless records) :
    Memory.load (records.flatMap Record.writes) = image records := by
  funext address
  cases equal : Memory.load (records.flatMap Record.writes) address with
  | none =>
    refine (Option.eq_none_iff_forall_ne_some.mpr fun value some => ?_).symm
    obtain ⟨owner, belongs⟩ := (image_eq_some disjoint).mp some
    obtain ⟨stored, own, _⟩ := Record.stored_of_word? belongs
    rw [(Memory.load_flatMap_eq_none Record.writes).mp equal owner] at own
    exact absurd own nofun
  | some value =>
    refine ((image_eq_some disjoint).mpr ?_).symm
    obtain ⟨last, stored, final⟩ := (Memory.load_flatMap_eq_some Record.writes).mp equal
    obtain ⟨word, belongs⟩ | ⟨index, positive, inside, rfl, rfl⟩ := Record.stored_cases stored
    · obtain ⟨other, own, right⟩ := Record.stored_of_word? belongs
      rw [own, Option.some.injEq] at stored
      have same := right fun index positive inside => (harmless last index positive inside).1
      exact ⟨last, by rw [belongs, ← same, stored]⟩
    · obtain ⟨zero, owner, word, belongs, later | rfl⟩ := harmless last index positive inside
      · -- a later record would have stored its word after the byte
        obtain ⟨other, own, _⟩ := Record.stored_of_word? belongs
        rw [final owner later] at own
        exact absurd own nofun
      · rw [zero]
        exact ⟨owner, belongs⟩

end Images

/-! ## The converters -/

/-- The converters preserve an image whose records lie apart exactly if the bytes left over at the
end of a record do no harm. -/
theorem preserves_iff_harmless {records : List Record} (disjoint : Disjoint records) :
    Preserves records ↔ Harmless records := by
  rw [preserves_iff]
  exact ⟨harmless_of_load disjoint, load_of_harmless disjoint⟩

def zero : HexDigit := ⟨'0', 0, by decide⟩

def one : HexDigit := ⟨'1', 1, by decide⟩

/-- Two bytes, the second with the given digit. -/
def halfword (digit : HexDigit) : Record where
  digits := [zero]
  lines := [[⟨zero, one⟩, ⟨zero, digit⟩]]
  addressed := List.cons_ne_nil _ _
  small := by decide
  filled := List.forall_mem_singleton.mpr ⟨List.cons_ne_nil _ _, by simp⟩
  full := nofun

/-- The word behind the two bytes. -/
def nextWord : Record where
  digits := [one]
  lines := [[⟨zero, one⟩, ⟨zero, one⟩, ⟨zero, one⟩, ⟨zero, one⟩]]
  addressed := List.cons_ne_nil _ _
  small := by decide
  filled := List.forall_mem_singleton.mpr ⟨List.cons_ne_nil _ _, by simp⟩
  full := nofun

theorem preserves_zeroByte : Preserves [halfword zero, nextWord] := by
  refine (preserves_iff_harmless ?_).mpr ?_
  · intro first second address
    match first, second with
    | 0, 0 | 1, 1 => exact fun _ _ => rfl
    | 0, 1 =>
      intro (halfwordCovers : 0 ≤ address ∧ address < 1) (wordCovers : 1 ≤ address ∧ address < 2)
      omega
    | 1, 0 =>
      intro (wordCovers : 1 ≤ address ∧ address < 2) (halfwordCovers : 0 ≤ address ∧ address < 1)
      omega
  · intro record index positive inside
    match record with
    | 0 =>
      obtain rfl : index = 1 := Nat.le_antisymm (Nat.le_of_lt_succ inside) positive
      exact ⟨by decide, 1, _, rfl, Or.inl (by decide)⟩
    | 1 => exact absurd inside (Nat.not_lt_zero index)

/-- The second byte is lost from its word, and the word behind the image is written. -/
theorem halfword_lost : Disjoint [halfword one] ∧ ¬ Preserves [halfword one] := by
  have single : Subsingleton (Fin 1) := inferInstance
  refine ⟨fun first second _ _ _ => single.elim first second, fun preserved => ?_⟩
  have word := congrFun (preserves_iff.mp preserved) 0
  exact absurd word (by decide)

end IbexWb.Scripts
