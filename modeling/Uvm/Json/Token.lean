import Uvm.Text.Numeral

/-! The tokens of a strict JSON text. Numbers keep their digits, so that they can have any
size; a string that holds half of a surrogate pair is a token, but stands for no text. -/
namespace Uvm.Json

inductive Token where
  /-- One of the marks `[ ] { } , :`. -/
  | mark (c : Char)
  | null
  | bool (value : Bool)
  | number (digits : Text)
  | string (text : Option Text)
  deriving DecidableEq, Repr

def isSpace (c : Char) : Bool := c == ' ' || c == '\n' || c == '\t' || c == '\r'

def isMark (c : Char) : Bool :=
  c == '[' || c == ']' || c == '\x7b' || c == '\x7d' || c == ',' || c == ':'

/-- The characters that a number can be written with. -/
def isNumberChar (c : Char) : Bool :=
  (Text.digit? 10 c).isSome || c == '-' || c == '+' || c == '.' || c == 'e' || c == 'E'

/-- Digits and nothing after them. -/
def isDigits (t : Text) : Bool := !t.isEmpty && t.all fun c => (Text.digit? 10 c).isSome

/-- A whole number without superfluous zeros in front. -/
def isWhole (t : Text) : Bool := isDigits t && (t.length == 1 || t.head? != some '0')

/-- What follows `e` or `E` in a number. -/
def isExponent : Text → Bool
  | '+' :: digits => isDigits digits
  | '-' :: digits => isDigits digits
  | digits => isDigits digits

/-- A number without its sign: whole part, then an optional fraction and exponent. -/
def isUnsigned (t : Text) : Bool :=
  let mantissa := t.takeWhile fun c => c != 'e' && c != 'E'
  let whole := mantissa.takeWhile (· != '.')
  let fraction := mantissa.drop whole.length
  isWhole whole
    && (fraction.isEmpty || isDigits (fraction.drop 1))
    && (mantissa.length == t.length || isExponent (t.drop (mantissa.length + 1)))

def isNumber : Text → Bool
  | '-' :: rest => isUnsigned rest
  | t => isUnsigned t

/-- The character of a one-letter escape. -/
def escaped? : Char → Option Char
  | '"' => some '"'
  | '\\' => some '\\'
  | '/' => some '/'
  | 'b' => some '\x08'
  | 'f' => some '\x0c'
  | 'n' => some '\n'
  | 'r' => some '\r'
  | 't' => some '\t'
  | _ => none

/-- The number of four hexadecimal digits. -/
def quad? (digits : Text) : Option Nat :=
  if digits.all fun c => (Text.digit? 16 c).isSome then some (Text.positional 16 digits) else none

/-- The code units of a string up to its closing quote, and what follows the quote. Characters
count as one unit, an escape may be half of a surrogate pair. -/
def scanString : Text → Option (List Nat × Text)
  | [] => none
  | '"' :: rest => some ([], rest)
  | '\\' :: 'u' :: a :: b :: c :: d :: rest =>
    match quad? [a, b, c, d], scanString rest with
    | some unit, some (units, rest) => some (unit :: units, rest)
    | _, _ => none
  | '\\' :: letter :: rest =>
    match escaped? letter, scanString rest with
    | some c, some (units, rest) => some (c.toNat :: units, rest)
    | _, _ => none
  | c :: rest =>
    if c.toNat < 0x20 ∨ c = '\\' then none
    else (scanString rest).map fun (units, rest) => (c.toNat :: units, rest)

def isHigh (unit : Nat) : Bool := decide (0xD800 ≤ unit) && decide (unit < 0xDC00)

def isLow (unit : Nat) : Bool := decide (0xDC00 ≤ unit) && decide (unit < 0xE000)

/-- The text of code units in which every surrogate has its other half. -/
def ofUnits : List Nat → Option Text
  | [] => some []
  | [unit] => if isHigh unit || isLow unit then none else some [Char.ofNat unit]
  | unit :: next :: rest =>
    if isHigh unit && isLow next then
      (ofUnits rest).map (Char.ofNat (0x10000 + (unit - 0xD800) * 0x400 + (next - 0xDC00)) :: ·)
    else if isHigh unit || isLow unit then none
    else (ofUnits (next :: rest)).map (Char.ofNat unit :: ·)

/-- The first token of a text and the text after it. -/
def Token.scanFirst : Text → Option (Token × Text)
  | 'n' :: 'u' :: 'l' :: 'l' :: rest => some (.null, rest)
  | 't' :: 'r' :: 'u' :: 'e' :: rest => some (.bool true, rest)
  | 'f' :: 'a' :: 'l' :: 's' :: 'e' :: rest => some (.bool false, rest)
  | '"' :: rest => (scanString rest).map fun (units, rest) => (.string (ofUnits units), rest)
  | c :: rest =>
    if isMark c then some (.mark c, rest)
    else
      let digits := (c :: rest).takeWhile isNumberChar
      if isNumber digits then some (.number digits, (c :: rest).drop digits.length) else none
  | [] => none

theorem scanString_shorter (t : Text) :
    ∀ units rest, scanString t = some (units, rest) → rest.length < t.length := by
  fun_induction scanString t <;> simp only [List.length_cons, List.length_nil] <;>
    grind [Option.map_eq_some_iff]

theorem Token.scanFirst_shorter {t rest : Text} {token : Token}
    (h : scanFirst t = some (token, rest)) : rest.length < t.length := by
  have number_pos (digits : Text) (hn : isNumber digits = true) : 0 < digits.length := by
    cases digits with
    | nil => cases hn
    | cons _ _ => exact Nat.succ_pos _
  revert h
  fun_cases scanFirst t <;> simp only [List.length_cons, List.length_nil] <;>
    grind [→ scanString_shorter, Option.map_eq_some_iff, List.length_drop]

/-- All tokens of a text, white space between them skipped. -/
def Token.scan (t : Text) : Option (List Token) :=
  match t with
  | [] => some []
  | c :: rest =>
    if isSpace c then scan rest
    else
      match _ : scanFirst (c :: rest) with
      | none => none
      | some (token, after) => (scan after).map (token :: ·)
termination_by t.length
decreasing_by
  · exact Nat.lt_succ_self _
  · exact scanFirst_shorter ‹_›

end Uvm.Json
