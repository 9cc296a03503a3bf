import Uvm.Text.Numeral

/-! A part of a byte string, given by what to skip and how much to keep. -/
namespace Uvm

inductive WindowFault where
  | skipTooLarge (skip size : Nat)
  | lengthTooLarge (length left : Nat)
  deriving DecidableEq, Repr

def WindowFault.message : WindowFault → Text
  | .skipTooLarge skip size =>
    "--skip " ++ Text.decimal skip ++ " exceeds file size " ++ Text.decimal size
  | .lengthTooLarge length left =>
    "--len " ++ Text.decimal length ++ " exceeds the " ++ Text.decimal left
      ++ " bytes left after --skip"

/-- The bytes after the first `skip`, all of them or the first `length`. Both bounds have to lie
inside the bytes. -/
def window (bytes : List UInt8) (skip : Nat) (length : Option Nat) :
    Except WindowFault (List UInt8) :=
  if bytes.length < skip then .error (.skipTooLarge skip bytes.length)
  else
    let rest := bytes.drop skip
    match length with
    | none => .ok rest
    | some length =>
      if rest.length < length then .error (.lengthTooLarge length rest.length)
      else .ok (rest.take length)

end Uvm
