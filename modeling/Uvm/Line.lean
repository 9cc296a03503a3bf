import Uvm.Text.Basic
import Uvm.Text.Upper

/-! One line of source. A comment runs from the first `;` to the end of the line, a label line
ends in `:`, and every other line that is not empty is an instruction. -/
namespace Uvm

inductive Line where
  | blank
  | label (name : Text)
  | instruction (mnemonic : Text) (operands : List Text)
  deriving DecidableEq, Repr

namespace Line

/-- The text before a comment, trimmed anew, or all of it when there is none. -/
def cutComment (t : Text) : Text :=
  match t.findIdx? (· == ';') with
  | some start => Text.trim (t.take start)
  | none => t

/-- The operands in some words. They are separated by commas, white space or both. -/
def operandsOf (words : List Text) : List Text :=
  ((words.flatMap fun word => word.splitOn ',').map Text.trim).filter fun o => !o.isEmpty

/-- The reading of one line. An instruction's first word is its mnemonic, in upper case and with any
comma or colon in it; the operands are looked for after it. -/
def read (line : Text) : Line :=
  let body := cutComment (Text.trim line)
  if body.isEmpty then .blank
  else if body.getLast? = some ':' then .label (Text.trim body.dropLast)
  else
    match Text.words body with
    | [] => .blank
    | mnemonic :: rest => .instruction (Text.upper mnemonic) (operandsOf rest)

end Line

end Uvm
