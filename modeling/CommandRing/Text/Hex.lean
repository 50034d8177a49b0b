/-!
# Bytes as hexadecimal text

A byte is written as `0x` and two lower case digits. A dump puts sixteen of them on a row: every
byte is followed by a blank, the last of a full row by a line break instead.
-/

namespace CommandRing.Hex

/-- The lower case digit for a value below sixteen. -/
def digit (n : Nat) : Char :=
  if n < 10 then Char.ofNat (48 + n) else Char.ofNat (87 + n)

/-- The characters of a byte: `0x` and two digits. -/
def byteChars (b : UInt8) : List Char :=
  ['0', 'x', digit (b.toNat / 16), digit (b.toNat % 16)]

def byte (b : UInt8) : String := String.ofList (byteChars b)

/-- What follows the byte in a column. -/
def gap (column : Nat) : Char := if column % 16 = 15 then '\n' else ' '

/-- The characters of `bytes`, written from column `column` on. -/
def dumpFrom (column : Nat) : List UInt8 → List Char
  | [] => []
  | b :: rest => byteChars b ++ gap column :: dumpFrom (column + 1) rest

/-- Rows of sixteen bytes. -/
def dump (bytes : List UInt8) : String := String.ofList (dumpFrom 0 bytes)

end CommandRing.Hex
