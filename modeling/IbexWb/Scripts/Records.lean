import IbexWb.Memory.Bytes
import IbexWb.Text.Hex
import IbexWb.Text.Replace

/-! # Program images

The text that `objcopy -O verilog` writes is made of records: a line with a word address, then
lines of bytes.  `render` is this text, `image` the memory it is meant to describe: the bytes of a
record from its address on, four to a word, the first byte the least significant.
-/

namespace IbexWb.Scripts

open Text

structure HexByte where
  high : HexDigit
  low : HexDigit

def HexByte.text (byte : HexByte) : List Char := [byte.high.char, byte.low.char]

def HexByte.value (byte : HexByte) : BitVec 8 :=
  BitVec.ofNat 8 (16 * byte.high.value + byte.low.value)

/-- A record has lines of up to 16 bytes, and all of them but the last are full. -/
structure Record where
  digits : List HexDigit
  lines : List (List HexByte)
  addressed : digits ≠ []
  small : numeral digits < 2 ^ 32
  filled : ∀ line ∈ lines, line ≠ [] ∧ line.length ≤ 16
  full : ∀ line ∈ lines.dropLast, line.length = 16

namespace Record

def address (record : Record) : Nat := numeral record.digits

def bytes (record : Record) : List HexByte := record.lines.flatten

/-- The words of each line of the text. -/
def rows (record : Record) : List (List (List Char)) :=
  ['@' :: text record.digits] :: record.lines.map fun line => line.map HexByte.text

/-! ## The memory that a record describes -/

/-- The bytes missing at the end of the record count as zero. -/
def byte (record : Record) (index : Nat) : BitVec 8 :=
  (record.bytes[index]?.map HexByte.value).getD 0

def word (record : Record) (index : Nat) : BitVec 32 :=
  Memory.ofBytes fun offset => record.byte (4 * index + offset)

/-- How many words the bytes of the record take. -/
def words (record : Record) : Nat := (record.bytes.length + 3) / 4

def Covers (record : Record) (address : Nat) : Prop :=
  record.address ≤ address ∧ address < record.address + record.words

instance (record : Record) (address : Nat) : Decidable (record.Covers address) :=
  inferInstanceAs (Decidable (_ ∧ _))

/-- The value of the word at an address. -/
def word? (record : Record) (address : Nat) : Option (BitVec 32) :=
  if record.Covers address then some (record.word (address - record.address)) else none

end Record

def render (records : List Record) : List Char := typeset (records.flatMap Record.rows)

def image (records : List Record) (address : Nat) : Option (BitVec 32) :=
  records.findSome? fun record => record.word? address

/-- No word belongs to two records. -/
def Disjoint (records : List Record) : Prop :=
  ∀ (first second : Fin records.length) address, (records.get first).Covers address →
    (records.get second).Covers address → first = second

end IbexWb.Scripts
