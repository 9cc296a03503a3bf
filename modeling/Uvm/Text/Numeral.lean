import Uvm.Text.Basic

/-! Numerals: numbers as decimal and hexadecimal digits, bytes as pairs of digits, and the
value of a digit in a radix. -/
namespace Uvm.Text

def decimal (n : Nat) : Text := Nat.toDigits 10 n

/-- Hexadecimal digits in lower case, without a mark in front. -/
def hex (n : Nat) : Text := Nat.toDigits 16 n

/-- The mark `0x` and at least `width` lower-case digits. -/
def hexMarked (width : Nat) (n : Nat) : Text := '0' :: 'x' :: List.leftpad width '0' (hex n)

/-- The two lower-case digits of a byte. -/
def hexPair (b : UInt8) : Text :=
  [Nat.digitChar (b.toNat / 16), Nat.digitChar (b.toNat % 16)]

/-- The two upper-case digits of a byte. -/
def hexPairUpper (b : UInt8) : Text := (hexPair b).map Char.toUpper

/-- The value of an ASCII digit or letter, taken as a digit of any radix up to 36. -/
def digitValue (c : Char) : Option Nat :=
  if '0' ≤ c ∧ c ≤ '9' then some (c.toNat - '0'.toNat)
  else if 'a' ≤ c ∧ c ≤ 'z' then some (c.toNat - 'a'.toNat + 10)
  else if 'A' ≤ c ∧ c ≤ 'Z' then some (c.toNat - 'A'.toNat + 10)
  else none

/-- The value of a digit of the radix; other characters have none. -/
def digit? (radix : Nat) (c : Char) : Option Nat :=
  (digitValue c).filter fun d => decide (d < radix)

/-- The positional value of digits, the most significant first. A character that is no digit
counts as zero. -/
def positional (radix : Nat) (digits : Text) : Nat :=
  digits.foldl (fun value c => value * radix + (digit? radix c).getD 0) 0

end Uvm.Text
