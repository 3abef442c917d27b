import Mathlib.Data.List.DropRight
import Mathlib.Tactic.Common

/-! # Lines, fields and global replacement

The parts of a line-oriented script that do not depend on what it is for: a text is read line by
line, a line is split into fields at white space, and a global substitution goes through a text
from left to right and goes on behind each match.
-/

namespace IbexWb.Text

/-! ## Characters -/

/-- `\w`, for the characters of ASCII. -/
def isWord (char : Char) : Bool := char.isAlphanum || char == '_'

/-- `\s` -/
def isSpace (char : Char) : Bool :=
  char == ' ' || char == '\t' || char == '\n' || char == '\x0b' || char == '\x0c' || char == '\r'

theorem isSpace_of_isWord {char : Char} (word : isWord char = true) : isSpace char = false := by
  refine Bool.eq_false_iff.mpr fun space => ?_
  simp only [isSpace, Bool.or_eq_true, beq_iff_eq] at space
  obtain (((((rfl | rfl) | rfl) | rfl) | rfl) | rfl) := space <;> exact absurd word (by decide)

/-! ## Lines -/

/-- The lines of a text, each with the newline that ends it. -/
def lines : List Char → List (List Char)
  | [] => []
  | char :: rest =>
    if char = '\n' then [char] :: lines rest
    else
      match lines rest with
      | [] => [[char]]
      | line :: more => (char :: line) :: more

theorem lines_append {line : List Char} (rest : List Char) (inner : ∀ char ∈ line, char ≠ '\n') :
    lines (line ++ '\n' :: rest) = (line ++ ['\n']) :: lines rest := by
  induction line with
  | nil => rfl
  | cons char line inductionHypothesis =>
    obtain ⟨first, others⟩ := List.forall_mem_cons.mp inner
    rw [List.cons_append, lines, if_neg first, inductionHypothesis others]
    rfl

/-- A text put together of lines is cut into these lines. -/
theorem lines_flatMap {parts : List (List Char)}
    (inner : ∀ part ∈ parts, ∀ char ∈ part, char ≠ '\n') (rest : List Char) :
    lines ((parts.flatMap fun part => part ++ ['\n']) ++ rest) =
      (parts.map fun part => part ++ ['\n']) ++ lines rest := by
  induction parts with
  | nil => rfl
  | cons part others inductionHypothesis =>
    obtain ⟨first, inner⟩ := List.forall_mem_cons.mp inner
    rw [List.flatMap_cons, List.append_assoc, List.append_assoc, List.singleton_append,
      lines_append _ first, inductionHypothesis inner]
    rfl

/-! ## Fields -/

/-- All fields between white space that are not empty. -/
def fields (text : List Char) : List (List Char) :=
  (text.splitOnP isSpace).filter fun field => !field.isEmpty

/-- The fields of a line, cut at each character of white space; empty fields at the end are
dropped. -/
def split (line : List Char) : List (List Char) :=
  (line.splitOnP isSpace).rdropWhile fun field => field.isEmpty

/-- A word: not empty, and without white space. -/
def IsField (field : List Char) : Prop := field ≠ [] ∧ ∀ char ∈ field, isSpace char = false

theorem IsField.concat {field : List Char} (isField : IsField field) {last : Char}
    (solid : isSpace last = false) : IsField (field ++ [last]) :=
  ⟨List.concat_ne_nil _ _, List.forall_mem_append.mpr
    ⟨isField.2, List.forall_mem_singleton.mpr solid⟩⟩

/-- Fields with single spaces between them. -/
def spaced (words : List (List Char)) : List Char := List.intercalate [' '] words

theorem spaced_cons_cons (first second : List Char) (rest : List (List Char)) :
    spaced (first :: second :: rest) = first ++ ' ' :: spaced (second :: rest) := by
  simp [spaced, List.intercalate]

theorem spaced_cons (first : List Char) {rest : List (List Char)} (more : rest ≠ []) :
    spaced (first :: rest) = first ++ ' ' :: spaced rest := by
  obtain ⟨second, others, rfl⟩ := List.exists_cons_of_ne_nil more
  exact spaced_cons_cons first second others

section Spaced

variable {words : List (List Char)}

theorem splitOnP_spaced (nonempty : words ≠ []) (fields : ∀ field ∈ words, IsField field) :
    (spaced words).splitOnP isSpace = words := by
  induction words with
  | nil => exact absurd rfl nonempty
  | cons first rest inductionHypothesis =>
    obtain ⟨field, others⟩ := List.forall_mem_cons.mp fields
    cases rest with
    | nil =>
      rw [spaced, List.intercalate_singleton]
      exact List.splitOnP_eq_singleton field.2
    | cons second rest =>
      rw [spaced_cons_cons, List.splitOnP_append_cons_of_forall_mem field.2 ' ' (by decide),
        inductionHypothesis (List.cons_ne_nil second rest) others]

theorem split_spaced (nonempty : words ≠ []) (fields : ∀ field ∈ words, IsField field) :
    split (spaced words ++ ['\n']) = words := by
  rw [split, List.splitOnP_append_cons _ _ (by decide), splitOnP_spaced nonempty fields,
    List.splitOnP_nil, List.rdropWhile_concat_pos _ _ _ rfl, List.rdropWhile_eq_self_iff]
  intro busy
  have last := (fields _ (List.getLast_mem busy)).1
  simpa using last

theorem fields_append (nonempty : words ≠ []) (wellFormed : ∀ field ∈ words, IsField field)
    (rest : List Char) : fields (spaced words ++ '\n' :: rest) = words ++ fields rest := by
  rw [fields, List.splitOnP_append_cons _ _ (by decide), splitOnP_spaced nonempty wellFormed,
    List.filter_append, fields]
  congr 1
  refine List.filter_eq_self.mpr fun field member => ?_
  simpa using (wellFormed field member).1

theorem newline_not_mem_spaced (fields : ∀ field ∈ words, IsField field) :
    ∀ char ∈ spaced words, char ≠ '\n' := by
  induction words with
  | nil => exact nofun
  | cons first rest inductionHypothesis =>
    obtain ⟨field, others⟩ := List.forall_mem_cons.mp fields
    have inner : ∀ char ∈ first, char ≠ '\n' := by
      rintro char member rfl
      exact absurd (field.2 _ member) (by decide)
    cases rest with
    | nil =>
      rw [spaced, List.intercalate_singleton]
      exact inner
    | cons second rest =>
      rw [spaced_cons_cons]
      intro char member
      obtain here | rfl | there := List.mem_append.mp member |>.imp_right List.mem_cons.mp
      · exact inner char here
      · decide
      · exact inductionHypothesis others char there

end Spaced

/-! ## Typeset rows -/

/-- A line for each row of words. -/
def typeset (rows : List (List (List Char))) : List Char :=
  rows.flatMap fun row => spaced row ++ ['\n']

def IsRow (row : List (List Char)) : Prop := row ≠ [] ∧ ∀ field ∈ row, IsField field

section Typeset

variable {rows : List (List (List Char))}

theorem typeset_cons (row : List (List Char)) (rest : List (List (List Char))) :
    typeset (row :: rest) = spaced row ++ '\n' :: typeset rest := by
  rw [typeset, List.flatMap_cons, List.append_assoc]
  rfl

theorem typeset_append (first second : List (List (List Char))) :
    typeset (first ++ second) = typeset first ++ typeset second :=
  List.flatMap_append

theorem lines_typeset_append (wellFormed : ∀ row ∈ rows, IsRow row) (rest : List Char) :
    lines (typeset rows ++ rest) = (rows.map fun row => spaced row ++ ['\n']) ++ lines rest := by
  have inner : ∀ part ∈ rows.map spaced, ∀ char ∈ part, char ≠ '\n' := by
    intro part member
    obtain ⟨row, inRows, rfl⟩ := List.mem_map.mp member
    exact newline_not_mem_spaced (wellFormed row inRows).2
  have cut := lines_flatMap inner rest
  rwa [List.flatMap_map, List.map_map] at cut

theorem lines_typeset (wellFormed : ∀ row ∈ rows, IsRow row) :
    lines (typeset rows) = rows.map fun row => spaced row ++ ['\n'] := by
  have appended := lines_typeset_append wellFormed []
  rwa [List.append_nil, lines, List.append_nil] at appended

theorem fields_typeset (wellFormed : ∀ row ∈ rows, IsRow row) :
    fields (typeset rows) = rows.flatten := by
  induction rows with
  | nil => rfl
  | cons row rest inductionHypothesis =>
    obtain ⟨first, others⟩ := List.forall_mem_cons.mp wellFormed
    rw [typeset_cons, fields_append first.1 first.2, inductionHypothesis others, List.flatten_cons]

end Typeset

/-! ## Replacement -/

section Replace

variable {α : Type} (find : List α → Option (Nat × List α))

/-- Go through a text, leaving out the next `skip` characters: they belong to a match.  `find`
tells the length of a match at the front of a text and what replaces it. -/
def replaceFrom : Nat → List α → List α
  | _, [] => []
  | skip + 1, _ :: rest => replaceFrom skip rest
  | 0, char :: rest =>
    match find (char :: rest) with
    | some (width, replacement) => replacement ++ replaceFrom (width - 1) rest
    | none => char :: replaceFrom 0 rest

/-- `s/…/…/g` -/
def replaceAll (text : List α) : List α := replaceFrom find 0 text

variable {find}

theorem replaceFrom_eq (skip : Nat) (text : List α) :
    replaceFrom find skip text = replaceAll find (text.drop skip) := by
  induction text generalizing skip with
  | nil => rw [List.drop_nil, replaceAll, replaceFrom, replaceFrom]
  | cons char rest inductionHypothesis =>
    cases skip with
    | zero => rfl
    | succ skip => rw [replaceFrom, inductionHypothesis, List.drop_succ_cons]

theorem replaceAll_hit {char : α} {rest replacement : List α} {width : Nat}
    (hit : find (char :: rest) = some (width + 1, replacement)) :
    replaceAll find (char :: rest) = replacement ++ replaceAll find (rest.drop width) := by
  rw [replaceAll, replaceFrom, hit]
  exact congrArg (replacement ++ ·) (replaceFrom_eq width rest)

theorem replaceAll_miss {char : α} {rest : List α} (miss : find (char :: rest) = none) :
    replaceAll find (char :: rest) = char :: replaceAll find rest := by
  rw [replaceAll, replaceFrom, miss]
  rfl

/-- A text in which nothing is found stays what it is. -/
theorem replaceAll_of_none {text : List α} (none : ∀ suffix, suffix <:+ text → find suffix = none) :
    replaceAll find text = text := by
  induction text with
  | nil => rfl
  | cons char rest inductionHypothesis =>
    rw [replaceAll_miss (none _ (List.suffix_refl _)),
      inductionHypothesis fun suffix ends => none suffix (ends.trans (List.suffix_cons char rest))]

end Replace

end IbexWb.Text
