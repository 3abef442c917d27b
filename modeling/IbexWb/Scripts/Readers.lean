import IbexWb.Memory.Writes
import IbexWb.Text.Hex
import IbexWb.Text.Replace

/-! # Reading memory files

`readmemh` reads a file as `$readmemh` does: a token `@W` sets the address, any other token is a
word that is stored there, and the address moves on.  `readMif` takes the entries of a memory
initialization file, a line with an address and a word each, and passes over its other lines.
-/

namespace IbexWb.Scripts

open Text

/-- The stores that the tokens of a file make, in their order. -/
def stores? : Nat → List (List Char) → Option (List (Nat × BitVec 32))
  | _, [] => some []
  | _, ('@' :: digits) :: rest => (hexValue? digits).bind fun address => stores? address rest
  | address, token :: rest => (hexValue? token).bind fun value =>
    (stores? (address + 1) rest).map fun later => (address, BitVec.ofNat 32 value) :: later

def readmemh (file : List Char) : Option (Nat → Option (BitVec 32)) :=
  (stores? 0 (fields file)).map Memory.load

/-- The field without a character at its end. -/
def chop? (last : Char) (field : List Char) : Option (List Char) :=
  if field.getLast? = some last then some field.dropLast else none

/-- A line `address: word;`. -/
def parseLine? (line : List Char) : Option (Nat × BitVec 32) :=
  match split line with
  | [address, data] =>
    ((chop? ':' address).bind hexValue?).bind fun address =>
      ((chop? ';' data).bind hexValue?).map fun value => (address, BitVec.ofNat 32 value)
  | _ => none

def readMif (file : List Char) : Nat → Option (BitVec 32) :=
  Memory.load ((lines file).filterMap parseLine?)

end IbexWb.Scripts
