import IbexWb.Verified.ImageText

/-! # What the readers store

Both readers take the tokens of a converted image as words, one after the other.  The files differ
in what stands around the tokens: `readmemh` counts the addresses itself, and the entries of the
other file have theirs written down by the script.
-/

namespace IbexWb.Scripts

open Text

/-- The stores of a record: a word for each of its groups. -/
def Record.writes (record : Record) : List (Nat × BitVec 32) :=
  Memory.burst record.address ((groups record.bytes).map groupValue)

/-! ## The value of a token -/

/-- The digits of a group in the order of the token. -/
def groupDigits (group : List HexByte) : List HexDigit :=
  group.reverse.flatMap fun byte => [byte.high, byte.low]

theorem groupText_eq (group : List HexByte) : groupText group = text (groupDigits group) := by
  rw [text, groupDigits, List.map_flatMap]
  rfl

theorem toNat_byte (byte : HexByte) : byte.value.toNat = 16 * byte.high.value + byte.low.value := by
  have high := byte.high.value_lt
  have low := byte.low.value_lt
  rw [HexByte.value, BitVec.toNat_ofNat, Nat.mod_eq_of_lt (by omega)]

section Group

variable {group : List HexByte} (isGroup : IsGroup group)
include isGroup

theorem toNat_groupValue : (groupValue group).toNat = numeral (groupDigits group) := by
  rw [groupValue, Memory.toNat_ofBytes]
  obtain four | one := isGroup
  · obtain ⟨a, b, c, d, rfl⟩ := List.length_eq_four.mp four
    simp [numeral, groupDigits, toNat_byte]
    omega
  · obtain ⟨a, rfl⟩ := List.length_eq_one_iff.mp one
    simp [numeral, groupDigits, toNat_byte]

theorem hexValue?_groupText : hexValue? (groupText group) = some (groupValue group).toNat := by
  have nonempty : groupDigits group ≠ [] := by
    intro empty
    refine (isField_groupText isGroup).1 ?_
    rw [groupText_eq, empty]
    rfl
  rw [groupText_eq, hexValue?_text nonempty, toNat_groupValue isGroup]

end Group

/-! ## `$readmemh` -/

theorem stores?_cons {token : List Char} {value : BitVec 32}
    (reads : hexValue? token = some value.toNat) (address : Nat) (rest : List (List Char)) :
    stores? address (token :: rest) =
      (stores? (address + 1) rest).map fun later => (address, value) :: later := by
  rw [stores?, reads, Option.bind_some, BitVec.ofNat_toNat, BitVec.setWidth_eq]
  -- an address is no numeral
  rintro digits rfl
  exact absurd reads nofun

theorem stores?_groups {groups : List (List HexByte)} (areGroups : ∀ group ∈ groups, IsGroup group)
    (rest : List (List Char)) : ∀ address, stores? address (groups.map groupText ++ rest) =
      (stores? (address + groups.length) rest).map fun later =>
        Memory.burst address (groups.map groupValue) ++ later := by
  induction groups with
  | nil =>
    intro address
    exact Option.map_id'.symm
  | cons group groups inductionHypothesis =>
    intro address
    obtain ⟨isGroup, areGroups⟩ := List.forall_mem_cons.mp areGroups
    rw [List.map_cons, List.cons_append, stores?_cons (hexValue?_groupText isGroup),
      inductionHypothesis areGroups, Option.map_map, List.length_cons, Nat.add_right_comm]
    rfl

theorem stores?_records (records : List Record) : ∀ address,
    stores? address (records.flatMap fun record => record.heading :: record.tokens) =
      some (records.flatMap Record.writes) := by
  induction records with
  | nil => exact fun _ => rfl
  | cons record records inductionHypothesis =>
    intro address
    rw [List.flatMap_cons, List.cons_append, Record.heading, stores?,
      hexValue?_text record.addressed, Option.bind_some, Record.tokens,
      stores?_groups (isGroup_of_mem record.bytes), inductionHypothesis]
    rfl

theorem readmemh_hex2vmem (records : List Record) :
    readmemh (hex2vmem (render records)) =
      some (Memory.load (records.flatMap Record.writes)) := by
  rw [readmemh, fields_hex2vmem, stores?_records]
  rfl

/-! ## The entries of `hex2mif.pl` -/

/-- The rows of entries from an address on. -/
def listing : Nat → List (List Char) → List (List (List Char))
  | _, [] => []
  | addr, data :: rest => [hex8 addr ++ [':'], data ++ [';']] :: listing (addr + 1) rest

theorem entries_eq (data : List (List Char)) : ∀ addr, entries addr data =
    typeset (listing addr data) := by
  induction data with
  | nil => exact fun _ => rfl
  | cons first rest inductionHypothesis =>
    intro addr
    rw [entries, listing, typeset_cons, inductionHypothesis, entry]
    simp [spaced, List.intercalate]

theorem listing_append (first second : List (List Char)) : ∀ addr,
    listing addr (first ++ second) = listing addr first ++ listing (addr + first.length) second := by
  induction first with
  | nil => exact fun _ => rfl
  | cons data rest inductionHypothesis =>
    intro addr
    rw [List.cons_append, listing, listing, inductionHypothesis, List.length_cons,
      Nat.add_right_comm]
    rfl

theorem address?_heading (record : Record) :
    address? (spaced [record.heading] ++ ['\n']) = some (text record.digits) := by
  have word : (text record.digits ++ ['\n']).takeWhile isWord = text record.digits := by
    rw [List.takeWhile_append_of_pos (isWord_text record.digits)]
    exact List.append_nil _
  have nonempty : text record.digits ≠ [] := by
    simpa [text] using record.addressed
  rw [spaced, List.intercalate_singleton, Record.heading, List.cons_append, address?, word,
    if_neg nonempty]

theorem address?_of_isWord {first : Char} (word : isWord first = true) (rest : List Char) :
    address? (first :: rest) = none := by
  rw [address?]
  intro rest equal
  obtain ⟨rfl, _⟩ := List.cons.inj equal
  exact absurd word (by decide)

theorem address?_data {line : List HexByte} (nonempty : line ≠ []) :
    address? (spaced (line.map HexByte.text) ++ ['\n']) = none := by
  obtain ⟨byte, rest, rfl⟩ := List.exists_cons_of_ne_nil nonempty
  have word := isWord_char byte.high
  cases rest with
  | nil => exact address?_of_isWord word _
  | cons next rest =>
    rw [List.map_cons, List.map_cons, spaced_cons_cons]
    exact address?_of_isWord word _

theorem hex_text (digits : List HexDigit) : hex (text digits) = numeral digits := by
  have all : (text digits).takeWhile (fun char => (digitValue? char).isSome) = text digits := by
    refine List.takeWhile_eq_self_iff.mpr fun char member => ?_
    obtain ⟨digit, _, rfl⟩ := List.mem_map.mp member
    rw [digit.valid]
    rfl
  rw [hex, all, hexFrom?_text]
  rfl

/-- The fields of a line of data are its groups. -/
theorem split_substitute {line : List HexByte} (nonempty : line ≠ []) :
    split (substitute (spaced (line.map HexByte.text) ++ ['\n'])) =
      (groups line).map groupText := by
  rw [substitute_line, split_spaced]
  · simpa using groups_ne_nil nonempty
  · exact isField_groups line

theorem contents_data {data : List (List HexByte)} (filled : ∀ line ∈ data, line ≠ [])
    (rest : List (List Char)) : ∀ addr,
    contents addr ((data.map fun line => spaced (line.map HexByte.text) ++ ['\n']) ++ rest) =
      typeset (listing addr ((data.flatMap groups).map groupText)) ++
        contents (addr + (data.flatMap groups).length) rest := by
  induction data with
  | nil => exact fun _ => rfl
  | cons line data inductionHypothesis =>
    intro addr
    obtain ⟨nonempty, filled⟩ := List.forall_mem_cons.mp filled
    rw [List.map_cons, List.cons_append, contents, address?_data nonempty]
    dsimp only
    rw [split_substitute nonempty, entries_eq, List.length_map, inductionHypothesis filled,
      List.flatMap_cons, List.map_append, listing_append, List.length_append, List.length_map,
      typeset_append, List.append_assoc, Nat.add_assoc]

theorem contents_records (records : List Record) : ∀ addr,
    contents addr ((records.flatMap Record.rows).map fun row => spaced row ++ ['\n']) =
      typeset (records.flatMap fun record => listing record.address record.tokens) := by
  induction records with
  | nil => exact fun _ => rfl
  | cons record records inductionHypothesis =>
    intro addr
    have filled : ∀ line ∈ record.lines, line ≠ [] := fun line member =>
      (record.filled line member).1
    rw [List.flatMap_cons, Record.rows, List.cons_append, List.map_cons, List.map_append,
      List.map_map, ← Record.heading, contents, address?_heading]
    dsimp only [Function.comp_def]
    rw [hex_text, contents_data filled, inductionHypothesis, groups_flatten record.full,
      List.flatMap_cons, typeset_append]
    rfl

/-! ## Reading the entries -/

theorem isField_of_hexValue? {field : List Char} {value : Nat}
    (reads : hexValue? field = some value) : IsField field := by
  by_cases empty : field = []
  · rw [empty] at reads
    exact absurd reads nofun
  · rw [hexValue?, if_neg empty] at reads
    refine ⟨empty, fun char member => ?_⟩
    obtain ⟨digit, valid⟩ := digits_of_hexFrom? reads char member
    exact isSpace_of_isWord (isWord_char ⟨char, digit, valid⟩)

theorem isRow_entry (addr : Nat) {data : List Char} (field : IsField data) :
    IsRow [hex8 addr ++ [':'], data ++ [';']] := by
  refine ⟨List.cons_ne_nil _ _, List.forall_mem_cons.mpr ⟨?_, List.forall_mem_singleton.mpr ?_⟩⟩
  · exact (isField_of_hexValue? (hexValue?_hex8 addr)).concat (by decide)
  · exact field.concat (by decide)

theorem isRow_listing {data : List (List Char)} (fields : ∀ field ∈ data, IsField field) :
    ∀ addr, ∀ row ∈ listing addr data, IsRow row := by
  induction data with
  | nil => exact fun _ => nofun
  | cons first rest inductionHypothesis =>
    intro addr
    obtain ⟨field, fields⟩ := List.forall_mem_cons.mp fields
    exact List.forall_mem_cons.mpr ⟨isRow_entry addr field, inductionHypothesis fields _⟩

theorem chop?_concat (field : List Char) (last : Char) :
    chop? last (field ++ [last]) = some field := by
  rw [chop?, List.getLast?_concat, if_pos rfl, List.dropLast_concat]

theorem parseLine?_row {group : List HexByte} (isGroup : IsGroup group) (addr : Nat) :
    parseLine? (spaced [hex8 addr ++ [':'], groupText group ++ [';']] ++ ['\n']) =
      some (addr, groupValue group) := by
  have row := isRow_entry addr (isField_groupText isGroup)
  rw [parseLine?, split_spaced row.1 row.2]
  dsimp only
  rw [chop?_concat, chop?_concat, Option.bind_some, Option.bind_some, hexValue?_hex8,
    hexValue?_groupText isGroup, Option.bind_some, Option.map_some, BitVec.ofNat_toNat,
    BitVec.setWidth_eq]

theorem parseLine?_listing {groups : List (List HexByte)}
    (areGroups : ∀ group ∈ groups, IsGroup group) : ∀ addr,
    (listing addr (groups.map groupText)).filterMap (fun row => parseLine? (spaced row ++ ['\n'])) =
      Memory.burst addr (groups.map groupValue) := by
  induction groups with
  | nil => exact fun _ => rfl
  | cons group groups inductionHypothesis =>
    intro addr
    obtain ⟨isGroup, areGroups⟩ := List.forall_mem_cons.mp areGroups
    rw [List.map_cons, listing, List.filterMap_cons, parseLine?_row isGroup addr,
      inductionHypothesis areGroups]
    rfl

/-- The lines around the entries are none. -/
theorem parseLine?_frame : (header.map fun line => line ++ ['\n']).filterMap parseLine? = [] ∧
    (lines "END;\n".toList).filterMap parseLine? = [] := by
  decide

theorem readMif_hex2mif (records : List Record) :
    readMif (hex2mif (render records)) = Memory.load (records.flatMap Record.writes) := by
  have unbroken : ∀ line ∈ header, '\n' ∉ line := by decide
  have inner : ∀ line ∈ header, ∀ char ∈ line, char ≠ '\n' := fun line member =>
    List.forall_mem_ne'.mpr (unbroken line member)
  have areRows : ∀ row ∈ records.flatMap fun record => listing record.address record.tokens,
      IsRow row := by
    intro row member
    obtain ⟨record, _, inListing⟩ := List.mem_flatMap.mp member
    exact isRow_listing (isField_groups record.bytes) record.address row inListing
  rw [readMif, hex2mif, lines_render, contents_records, List.append_assoc, lines_flatMap inner,
    lines_typeset_append areRows, List.filterMap_append, List.filterMap_append, parseLine?_frame.1,
    parseLine?_frame.2, List.append_nil, List.nil_append, List.filterMap_map, List.filterMap_flatMap]
  congr 1
  refine List.flatMap_congr fun record _ => ?_
  exact parseLine?_listing (isGroup_of_mem record.bytes) record.address

end IbexWb.Scripts
