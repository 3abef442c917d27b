import IbexWb.Scripts.Converters
import IbexWb.Scripts.Readers
import IbexWb.Scripts.Records

/-! # What the converters write

Every line of a record but its last has four full groups of bytes, so the substitution finds the
groups of the whole record (`groups`), and the bytes that it leaves over are those at the record's
end.  They stay tokens of their own.  Both readers then make the same stores: one for each token
of a record, from its address on.
-/

namespace IbexWb.Scripts

open Text

/-! ## Groups of bytes -/

/-- The groups of four that the substitution turns into words, and the bytes left over. -/
def groups : List HexByte → List (List HexByte)
  | a :: b :: c :: d :: rest => [a, b, c, d] :: groups rest
  | rest => rest.map fun byte => [byte]

/-- A group as the substitution writes it, the last byte first. -/
def groupText (group : List HexByte) : List Char := group.reverse.flatMap HexByte.text

def groupValue (group : List HexByte) : BitVec 32 :=
  Memory.ofBytes fun index => (group[index]?.map HexByte.value).getD 0

/-- A word or a single byte. -/
def IsGroup (group : List HexByte) : Prop := group.length = 4 ∨ group.length = 1

theorem isGroup_of_mem (bytes : List HexByte) : ∀ group ∈ groups bytes, IsGroup group := by
  induction bytes using groups.induct with
  | case1 a b c d rest inductionHypothesis =>
    rw [groups]
    exact List.forall_mem_cons.mpr ⟨Or.inl rfl, inductionHypothesis⟩
  | case2 rest short =>
    rw [groups]
    · intro group member
      obtain ⟨byte, _, rfl⟩ := List.mem_map.mp member
      exact Or.inr rfl
    · exact short

theorem groups_ne_nil {bytes : List HexByte} (nonempty : bytes ≠ []) : groups bytes ≠ [] := by
  match bytes with
  | [_] | [_, _] | [_, _, _] | _ :: _ :: _ :: _ :: _ => simp [groups]

theorem length_lt_four {bytes : List HexByte}
    (short : ∀ a b c d rest, bytes = a :: b :: c :: d :: rest → False) : bytes.length < 4 := by
  match bytes with
  | [] | [_] | [_, _] | [_, _, _] => simp
  | a :: b :: c :: d :: rest => exact absurd rfl (short a b c d rest)

theorem groups_append {line : List HexByte} (full : 4 ∣ line.length) (rest : List HexByte) :
    groups (line ++ rest) = groups line ++ groups rest := by
  induction line using groups.induct with
  | case1 a b c d line inductionHypothesis =>
    have left : 4 ∣ line.length := by
      simp only [List.length_cons] at full
      omega
    exact congrArg ([a, b, c, d] :: ·) (inductionHypothesis left)
  | case2 line short =>
    have bound := length_lt_four short
    obtain rfl : line = [] := List.eq_nil_of_length_eq_zero (by omega)
    rfl

/-- The groups of the lines of a record are those of its bytes. -/
theorem groups_flatten {lines : List (List HexByte)}
    (full : ∀ line ∈ lines.dropLast, line.length = 16) :
    lines.flatMap groups = groups lines.flatten := by
  induction lines with
  | nil => rfl
  | cons line rest inductionHypothesis =>
    cases rest with
    | nil => simp
    | cons next rest =>
      rw [List.dropLast_cons_cons] at full
      obtain ⟨first, others⟩ := List.forall_mem_cons.mp full
      rw [List.flatMap_cons, inductionHypothesis others, List.flatten_cons (l := line),
        groups_append (by rw [first]; decide)]

/-! ## A line through the substitution -/

theorem swap?_of_first {char : Char} (rest : List Char) (blank : isWord char = false) :
    swap? (char :: rest) = none := by
  rw [swap?.eq_def]
  split
  next equal =>
    obtain ⟨rfl, _⟩ := List.cons.inj equal
    rw [blank]
    rfl
  next => rfl

theorem swap?_of_no_space {line : List Char} (solid : ' ' ∉ line) : swap? line = none := by
  rw [swap?.eq_def]
  split
  · refine if_neg fun found => solid ?_
    simp only [Bool.and_eq_true, beq_iff_eq] at found
    simp [found]
  · rfl

theorem swap?_of_length {line : List Char} (short : line.length < 11) : swap? line = none := by
  rw [swap?.eq_def]
  split
  · simp only [List.length_cons] at short
    omega
  · rfl

theorem isWord_ofNat : ∀ code < 103, 48 ≤ code ∧ code ≤ 57 ∨ 97 ≤ code ∧ code ≤ 102 ∨
    65 ≤ code ∧ code ≤ 70 → isWord (Char.ofNat code) = true := by
  decide

theorem isWord_char (digit : HexDigit) : isWord digit.char = true := by
  have ranges := (ranges_of_digitValue digit.valid).2
  rw [← Char.ofNat_toNat digit.char]
  exact isWord_ofNat _ (by omega) ranges

theorem isField_byte (byte : HexByte) : IsField byte.text := by
  refine ⟨List.cons_ne_nil _ _, List.forall_mem_cons.mpr ⟨?_, List.forall_mem_singleton.mpr ?_⟩⟩
  · exact isSpace_of_isWord (isWord_char byte.high)
  · exact isSpace_of_isWord (isWord_char byte.low)

theorem swap?_bytes (a b c d : HexByte) (rest : List Char) :
    swap? (a.text ++ ' ' :: (b.text ++ ' ' :: (c.text ++ ' ' :: (d.text ++ rest)))) =
      some (11, groupText [a, b, c, d]) := by
  simp only [HexByte.text, List.cons_append, List.nil_append, swap?, isWord_char, beq_self_eq_true,
    Bool.and_self, if_true]
  rfl

/-- A group of four is found and the search goes on behind it. -/
theorem substitute_bytes (a b c d : HexByte) (rest : List Char) :
    substitute (a.text ++ ' ' :: (b.text ++ ' ' :: (c.text ++ ' ' :: (d.text ++ rest)))) =
      groupText [a, b, c, d] ++ substitute rest :=
  replaceAll_hit (swap?_bytes a b c d rest)

theorem substitute_newline : substitute ['\n'] = ['\n'] := by decide

/-- Fewer than four bytes stay what they are. -/
theorem substitute_short {bytes : List HexByte} (short : bytes.length < 4) :
    substitute (spaced (bytes.map HexByte.text) ++ ['\n']) =
      spaced (bytes.map HexByte.text) ++ ['\n'] := by
  have bound : (spaced (bytes.map HexByte.text) ++ ['\n']).length < 11 := by
    match bytes with
    | [] | [_] | [_, _] | [_, _, _] => simp [spaced, List.intercalate, HexByte.text]
    | _ :: _ :: _ :: _ :: _ => simp at short; omega
  exact replaceAll_of_none fun suffix ends =>
    swap?_of_length (Nat.lt_of_le_of_lt ends.length_le bound)

theorem substitute_line (bytes : List HexByte) :
    substitute (spaced (bytes.map HexByte.text) ++ ['\n']) =
      spaced ((groups bytes).map groupText) ++ ['\n'] := by
  induction bytes using groups.induct with
  | case1 a b c d rest inductionHypothesis =>
    cases rest with
    | nil =>
      have line : spaced ([a, b, c, d].map HexByte.text) ++ ['\n'] =
          a.text ++ ' ' :: (b.text ++ ' ' :: (c.text ++ ' ' :: (d.text ++ ['\n']))) := by
        simp [spaced, List.intercalate]
      rw [line, substitute_bytes, substitute_newline]
      simp [groups, spaced]
    | cons next rest =>
      have line : spaced ((a :: b :: c :: d :: next :: rest).map HexByte.text) ++ ['\n'] =
          a.text ++ ' ' :: (b.text ++ ' ' :: (c.text ++ ' ' :: (d.text ++ ' ' ::
            (spaced ((next :: rest).map HexByte.text) ++ ['\n'])))) := by
        simp [spaced_cons_cons]
      have blank : substitute (' ' :: (spaced ((next :: rest).map HexByte.text) ++ ['\n'])) =
          ' ' :: substitute (spaced ((next :: rest).map HexByte.text) ++ ['\n']) :=
        replaceAll_miss (swap?_of_first _ (by decide))
      have more : (groups (next :: rest)).map groupText ≠ [] := by
        simpa using groups_ne_nil (List.cons_ne_nil next rest)
      rw [line, substitute_bytes, blank, inductionHypothesis, groups, List.map_cons,
        spaced_cons _ more]
      simp
  | case2 bytes short =>
    rw [substitute_short (length_lt_four short), groups]
    · simp [groupText, Function.comp_def]
    · exact short

/-! ## A file through `hex2vmem.pl` -/

namespace Record

variable (record : Record)

/-- The line with the address of the record. -/
def heading : List Char := '@' :: text record.digits

/-- The tokens that the substitution makes of the data. -/
def tokens : List (List Char) := (groups record.bytes).map groupText

/-- The rows of the record after the substitution. -/
def converted : List (List (List Char)) :=
  [record.heading] :: record.lines.map fun line => (groups line).map groupText

end Record

theorem isWord_text (digits : List HexDigit) : ∀ char ∈ text digits, isWord char = true := by
  intro char member
  obtain ⟨digit, _, rfl⟩ := List.mem_map.mp member
  exact isWord_char digit

theorem isRow_heading (record : Record) : IsRow [record.heading] := by
  refine ⟨List.cons_ne_nil _ _, List.forall_mem_singleton.mpr ⟨List.cons_ne_nil _ _, ?_⟩⟩
  refine List.forall_mem_cons.mpr ⟨by decide, fun char member => ?_⟩
  exact isSpace_of_isWord (isWord_text record.digits char member)

theorem isField_groupText {group : List HexByte} (isGroup : IsGroup group) :
    IsField (groupText group) := by
  constructor
  · intro empty
    have length := congrArg List.length empty
    obtain four | one := isGroup
    · simp [groupText, HexByte.text, four] at length
    · simp [groupText, HexByte.text, one] at length
  · intro char member
    obtain ⟨byte, _, inByte⟩ := List.mem_flatMap.mp member
    exact (isField_byte byte).2 char inByte

theorem isField_groups (bytes : List HexByte) :
    ∀ field ∈ (groups bytes).map groupText, IsField field := by
  intro field member
  obtain ⟨group, inGroups, rfl⟩ := List.mem_map.mp member
  exact isField_groupText (isGroup_of_mem bytes group inGroups)

theorem isRow_rows (record : Record) : ∀ row ∈ record.rows, IsRow row := by
  refine List.forall_mem_cons.mpr ⟨isRow_heading record, fun row member => ?_⟩
  obtain ⟨line, inLines, rfl⟩ := List.mem_map.mp member
  refine ⟨by simpa using (record.filled line inLines).1, fun field inRow => ?_⟩
  obtain ⟨byte, _, rfl⟩ := List.mem_map.mp inRow
  exact isField_byte byte

theorem isRow_converted (record : Record) : ∀ row ∈ record.converted, IsRow row := by
  refine List.forall_mem_cons.mpr ⟨isRow_heading record, fun row member => ?_⟩
  obtain ⟨line, inLines, rfl⟩ := List.mem_map.mp member
  exact ⟨by simpa using groups_ne_nil (record.filled line inLines).1, isField_groups line⟩

theorem substitute_heading (record : Record) :
    substitute (spaced [record.heading] ++ ['\n']) = spaced [record.heading] ++ ['\n'] := by
  have solid : ' ' ∉ spaced [record.heading] ++ ['\n'] := by
    rw [spaced, List.intercalate_singleton, List.mem_append]
    rintro (inner | last)
    · exact absurd ((isRow_heading record).2 _ List.mem_cons_self |>.2 _ inner) (by decide)
    · exact absurd last (by decide)
  exact replaceAll_of_none fun suffix ends =>
    swap?_of_no_space fun member => solid (ends.subset member)

theorem substitute_rows (record : Record) :
    (record.rows.map fun row => spaced row ++ ['\n']).flatMap substitute =
      typeset record.converted := by
  rw [Record.rows, List.map_cons, List.flatMap_cons, ← Record.heading, substitute_heading,
    Record.converted, typeset, List.flatMap_cons, List.map_map, List.flatMap_map, List.flatMap_map]
  simp only [Function.comp_apply, substitute_line]

theorem lines_render (records : List Record) : lines (render records) =
    (records.flatMap Record.rows).map fun row => spaced row ++ ['\n'] := by
  refine lines_typeset fun row member => ?_
  obtain ⟨record, _, inRows⟩ := List.mem_flatMap.mp member
  exact isRow_rows record row inRows

theorem hex2vmem_render (records : List Record) :
    hex2vmem (render records) = typeset (records.flatMap Record.converted) := by
  rw [hex2vmem, lines_render, List.map_flatMap, List.flatMap_assoc]
  simp only [substitute_rows]
  rw [typeset, List.flatMap_assoc]
  rfl

theorem converted_flatten (record : Record) :
    record.converted.flatten = record.heading :: record.tokens := by
  rw [Record.converted, List.flatten_cons, ← List.flatMap_def, Record.tokens, Record.bytes,
    ← groups_flatten record.full, List.map_flatMap]
  rfl

theorem fields_hex2vmem (records : List Record) : fields (hex2vmem (render records)) =
    records.flatMap fun record => record.heading :: record.tokens := by
  rw [hex2vmem_render, fields_typeset]
  · rw [List.flatMap_def, List.flatten_flatten, List.map_map, List.flatMap_def]
    exact congrArg List.flatten (List.map_congr_left fun record _ => converted_flatten record)
  · intro row member
    obtain ⟨record, _, inRows⟩ := List.mem_flatMap.mp member
    exact isRow_converted record row inRows

end IbexWb.Scripts
