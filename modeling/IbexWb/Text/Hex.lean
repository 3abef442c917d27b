import Mathlib.Algebra.Group.Nat.Defs
import Mathlib.Tactic.Common

/-! # Hexadecimal numerals

Digits are read in either case.  `HexDigit` is a character together with its value, so that a text
made of digits has a value without a parser in between; `hexValue?_text` says that the parser
finds it.
-/

namespace IbexWb.Text

def digitValue? (char : Char) : Option Nat :=
  if '0' ≤ char ∧ char ≤ '9' then some (char.toNat - '0'.toNat)
  else if 'a' ≤ char ∧ char ≤ 'f' then some (char.toNat - 'a'.toNat + 10)
  else if 'A' ≤ char ∧ char ≤ 'F' then some (char.toNat - 'A'.toNat + 10)
  else none

/-- The numeral, read behind digits of the given value. -/
def hexFrom? (value : Nat) : List Char → Option Nat
  | [] => some value
  | char :: rest => (digitValue? char).bind fun digit => hexFrom? (16 * value + digit) rest

def hexValue? (text : List Char) : Option Nat := if text = [] then none else hexFrom? 0 text

theorem hexFrom?_append (value : Nat) (left right : List Char) : hexFrom? value (left ++ right) =
    (hexFrom? value left).bind fun value => hexFrom? value right := by
  induction left generalizing value with
  | nil => rfl
  | cons char rest inductionHypothesis =>
    rw [List.cons_append, hexFrom?, hexFrom?]
    cases digitValue? char with
    | none => rfl
    | some digit => exact inductionHypothesis _

theorem digits_of_hexFrom? {value result : Nat} {text : List Char}
    (reads : hexFrom? value text = some result) :
    ∀ char ∈ text, ∃ digit, digitValue? char = some digit := by
  induction text generalizing value with
  | nil => exact nofun
  | cons char rest inductionHypothesis =>
    obtain ⟨digit, valid, reads⟩ := Option.bind_eq_some_iff.mp reads
    exact List.forall_mem_cons.mpr ⟨⟨digit, valid⟩, inductionHypothesis reads⟩

/-! ## Digits -/

structure HexDigit where
  char : Char
  value : Nat
  valid : digitValue? char = some value

/-- What the characters of digits are: the ranges of the three kinds. -/
theorem ranges_of_digitValue {char : Char} {value : Nat} (valid : digitValue? char = some value) :
    value < 16 ∧ (48 ≤ char.toNat ∧ char.toNat ≤ 57 ∨ 97 ≤ char.toNat ∧ char.toNat ≤ 102 ∨
      65 ≤ char.toNat ∧ char.toNat ≤ 70) := by
  have range : ∀ low high : Char, low ≤ char ∧ char ≤ high →
      low.toNat ≤ char.toNat ∧ char.toNat ≤ high.toNat := fun _ _ bounds => bounds
  rw [digitValue?] at valid
  split at valid
  next bounds =>
    have numbers : 48 ≤ char.toNat ∧ char.toNat ≤ 57 := range '0' '9' bounds
    obtain rfl : char.toNat - 48 = value := Option.some.inj valid
    omega
  next =>
    split at valid
    next bounds =>
      have numbers : 97 ≤ char.toNat ∧ char.toNat ≤ 102 := range 'a' 'f' bounds
      obtain rfl : char.toNat - 97 + 10 = value := Option.some.inj valid
      omega
    next =>
      split at valid
      next bounds =>
        have numbers : 65 ≤ char.toNat ∧ char.toNat ≤ 70 := range 'A' 'F' bounds
        obtain rfl : char.toNat - 65 + 10 = value := Option.some.inj valid
        omega
      next => exact absurd valid nofun

theorem HexDigit.value_lt (digit : HexDigit) : digit.value < 16 :=
  (ranges_of_digitValue digit.valid).1

def text (digits : List HexDigit) : List Char := digits.map HexDigit.char

def numeral (digits : List HexDigit) : Nat :=
  digits.foldl (fun value digit => 16 * value + digit.value) 0

theorem hexFrom?_text (digits : List HexDigit) : ∀ value, hexFrom? value (text digits) =
    some (digits.foldl (fun value digit => 16 * value + digit.value) value) := by
  induction digits with
  | nil => exact fun _ => rfl
  | cons digit rest inductionHypothesis =>
    intro value
    rw [text, List.map_cons, hexFrom?, digit.valid]
    exact inductionHypothesis _

theorem hexValue?_text {digits : List HexDigit} (nonempty : digits ≠ []) :
    hexValue? (text digits) = some (numeral digits) := by
  rw [hexValue?, if_neg (by simpa [text] using nonempty)]
  exact hexFrom?_text digits 0

/-! ## Writing numerals -/

/-- The numeral in capitals, filled up with zeros: `%08X`. -/
def hex8 (value : Nat) : List Char :=
  let digits := (Nat.toDigits 16 value).map Char.toUpper
  List.replicate (8 - digits.length) '0' ++ digits

theorem digitValue?_digitChar : ∀ value < 16,
    digitValue? (Nat.digitChar value).toUpper = some value := by
  decide

theorem hexFrom?_toDigits (value : Nat) :
    hexFrom? 0 ((Nat.toDigits 16 value).map Char.toUpper) = some value := by
  induction value using Nat.strongRecOn with
  | ind value inductionHypothesis =>
    rw [Nat.toDigits_eq_if (by decide)]
    by_cases single : value < 16
    · rw [if_pos single, List.map_singleton, hexFrom?, digitValue?_digitChar value single]
      simp [hexFrom?]
    · rw [if_neg single, List.map_append, hexFrom?_append,
        inductionHypothesis (value / 16) (by omega), List.map_singleton, Option.bind_some, hexFrom?,
        digitValue?_digitChar _ (Nat.mod_lt value (by decide))]
      exact congrArg some (Nat.div_add_mod value 16)

theorem hexFrom?_zeros (count : Nat) (rest : List Char) :
    hexFrom? 0 (List.replicate count '0' ++ rest) = hexFrom? 0 rest := by
  induction count with
  | zero => rfl
  | succ count inductionHypothesis =>
    rw [List.replicate_succ, List.cons_append, hexFrom?]
    exact inductionHypothesis

theorem hexValue?_hex8 (value : Nat) : hexValue? (hex8 value) = some value := by
  have nonempty : hex8 value ≠ [] := by
    simp [hex8, Nat.toDigits_ne_nil]
  rw [hexValue?, if_neg nonempty, hex8, hexFrom?_zeros]
  exact hexFrom?_toDigits value

end IbexWb.Text
