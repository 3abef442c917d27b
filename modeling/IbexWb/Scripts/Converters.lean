import IbexWb.Text.Hex
import IbexWb.Text.Replace

/-! # `hex2vmem.pl` and `hex2mif.pl`

Both scripts go through the image line by line and turn groups of four bytes into words, with one
substitution for all groups of a line.  `hex2vmem.pl` prints the line that comes of it,
`hex2mif.pl` an entry for each of its fields.

The functions are those of Perl on the characters of ASCII.  A prefix `0x` and underscores, which
Perl's `hex` allows in a numeral, are not modelled.
-/

namespace IbexWb.Scripts

open Text

/-- `(\w\w) (\w\w) (\w\w) (\w\w)` at the front of a text, and `$4$3$2$1`. -/
def swap? : List Char → Option (Nat × List Char)
  | a :: b :: s :: c :: d :: t :: e :: f :: u :: g :: h :: _ =>
    if isWord a && isWord b && s == ' ' && isWord c && isWord d && t == ' ' &&
        isWord e && isWord f && u == ' ' && isWord g && isWord h then
      some (11, [g, h, e, f, c, d, a, b])
    else none
  | _ => none

/-- `s/(\w\w) (\w\w) (\w\w) (\w\w)/$4$3$2$1/g` -/
def substitute (line : List Char) : List Char := replaceAll swap? line

def hex2vmem (text : List Char) : List Char := (lines text).flatMap substitute

/-! ## `hex2mif.pl` -/

/-- `/^@(\w+)/` -/
def address? : List Char → Option (List Char)
  | '@' :: rest =>
    let digits := rest.takeWhile isWord
    if digits = [] then none else some digits
  | _ => none

/-- Perl's `hex`, which stops at the first character that is no digit. -/
def hex (digits : List Char) : Nat :=
  (hexFrom? 0 (digits.takeWhile fun char => (digitValue? char).isSome)).getD 0

/-- `printf("%08X: %s;\n", $addr, $_)` -/
def entry (addr : Nat) (data : List Char) : List Char :=
  hex8 addr ++ [':', ' '] ++ data ++ [';', '\n']

def entries : Nat → List (List Char) → List Char
  | _, [] => []
  | addr, data :: rest => entry addr data ++ entries (addr + 1) rest

/-- The loop of the script; `addr` is the address of the next entry. -/
def contents : Nat → List (List Char) → List Char
  | _, [] => []
  | addr, line :: rest =>
    match address? line with
    | some digits => contents (hex digits) rest
    | none =>
      let data := split (substitute line)
      entries addr data ++ contents (addr + data.length) rest

def header : List (List Char) :=
  [ "-- Quartus II generated Memory Initialization File (.mif)".toList,
    "WIDTH=32;".toList,
    "DEPTH=16384;".toList,
    "ADDRESS_RADIX=HEX;".toList,
    "DATA_RADIX=HEX;".toList,
    "CONTENT BEGIN".toList ]

def hex2mif (text : List Char) : List Char :=
  (header.flatMap fun line => line ++ ['\n']) ++ contents 0 (lines text) ++ "END;\n".toList

end IbexWb.Scripts
