import Uvm.Text.Quoted
import Uvm.Text.Numeral

/-! Operand literals: decimal digits, or hexadecimal digits after `0x` or `0X`, with a value
below 2^64. -/
namespace Uvm.Literal

inductive Fault where
  | noDigits
  | badDigit (c : Char)
  | outOfRange
  deriving DecidableEq, Repr

def Fault.message : Fault → Text
  | .noDigits => "no digits"
  | .badDigit c => "invalid digit " ++ Text.quoteChar c
  | .outOfRange => "value does not fit in 64 bits"

/-- Values stay below this bound. -/
def bound : Nat := 1 <<< 64

/-- The radix of a trimmed literal and the digits it is written with. -/
def radixDigits : Text → Nat × Text
  | '0' :: 'x' :: digits => (16, digits)
  | '0' :: 'X' :: digits => (16, digits)
  | digits => (10, digits)

/-- The value of non-empty digits, or the first character that is no digit of the radix. -/
def value (radix : Nat) (digits : Text) : Except Fault Nat :=
  match digits.find? fun c => (Text.digit? radix c).isNone with
  | some c => .error (.badDigit c)
  | none =>
    let n := Text.positional radix digits
    if n < bound then .ok n else .error .outOfRange

/-- Reads a literal; white space around it does not matter. -/
def parse (token : Text) : Except Fault Nat :=
  match radixDigits (Text.trim token) with
  | (_, []) => .error .noDigits
  | (radix, digits) => value radix digits

/-- A token that starts with an ASCII digit is meant as a literal, well formed or not. -/
def looksNumeric (token : Text) : Bool :=
  match Text.trim token with
  | [] => false
  | c :: _ => (Text.digit? 10 c).isSome

end Uvm.Literal
