import Uvm.Text.Basic
import Uvm.Text.UpperTable

/-! Upper-casing: the full mapping, character by character, free of context and locale. -/
namespace Uvm.Text

/-- The upper case of a code point; one without an upper case stays as it is. -/
def upperCodes (n : Nat) : List Nat :=
  match caseSequences.lookup n with
  | some codes => codes
  | none =>
    match caseRuns.find? fun run => run.covers n with
    | some run => [run.map n]
    | none => [n]

def upperChar (c : Char) : Text := (upperCodes c.toNat).map Char.ofNat

def upper (t : Text) : Text := t.flatMap upperChar

end Uvm.Text
