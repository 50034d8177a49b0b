import CommandRing.Error

/-!
# Numerals below a limit

A numeral is a run of digits of its base, in either letter case, with at most one plus sign in front.
It is read from the left: the first character that is no digit, or the first digit that takes the
value to the limit, decides how it fails. No value is ever reduced or cut.
-/

namespace CommandRing.Numeral

/-- The value of a digit, letters of both cases following the ten figures. -/
def digitValue (base : Nat) (c : Char) : Option Nat :=
  let value :=
    if '0' ≤ c ∧ c ≤ '9' then c.toNat - '0'.toNat
    else if 'a' ≤ c ∧ c ≤ 'z' then c.toNat - 'a'.toNat + 10
    else if 'A' ≤ c ∧ c ≤ 'Z' then c.toNat - 'A'.toNat + 10
    else base
  if value < base then some value else none

/-- Reads digits behind a value that was read already. -/
def readDigits (base limit value : Nat) : List Char → Except IoFault Nat
  | [] => .ok value
  | c :: rest =>
    match digitValue base c with
    | none => .error .invalidDigit
    | some digit =>
      let longer := value * base + digit
      if longer < limit then readDigits base limit longer rest else .error .numeralTooLarge

/-- Reads a whole numeral. A sign by itself is no numeral. -/
def parse (base limit : Nat) : List Char → Except IoFault Nat
  | [] => .error .emptyNumeral
  | ['+'] => .error .invalidDigit
  | '+' :: digits => readDigits base limit 0 digits
  | digits => readDigits base limit 0 digits

end CommandRing.Numeral
