import Uvm.Text.Numeral
import Uvm.Text.Hidden
import Uvm.Text.Extender

/-! Quoted text in messages: every character that would not show, or that would change the
one before it, is written as an escape. -/
namespace Uvm.Text

/-- A character by its code point. -/
def escapeCode (c : Char) : Text := "\\u\x7b" ++ hex c.toNat ++ "\x7d"

/-- A character as it stands between quotes of the kind `quote`. The other kind of quote needs
no escape. -/
def escape (quote : Char) (c : Char) : Text :=
  if c = quote ∨ c = '\\' then ['\\', c]
  else if c = '\n' then "\\n"
  else if c = '\r' then "\\r"
  else if c = '\t' then "\\t"
  else if c = '\x00' then "\\0"
  else if isExtender c || isHidden c then escapeCode c
  else [c]

def quote (t : Text) : Text := '"' :: t.flatMap (escape '"') ++ ['"']

def quoteChar (c : Char) : Text := '\x27' :: escape '\x27' c ++ ['\x27']

end Uvm.Text
