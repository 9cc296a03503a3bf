import Uvm.Text.Numeral

/-! Bytes as hexadecimal literals, a given number on each line. -/
namespace Uvm

/-- A byte as a literal. -/
def hexToken (b : UInt8) : Text := '0' :: 'x' :: Text.hexPairUpper b

/-- A list cut into pieces of `width + 1` items; the last piece may be shorter. -/
def chunks {α : Type} (width : Nat) : List α → List (List α)
  | [] => []
  | a :: rest => (a :: rest.take width) :: chunks width (rest.drop width)
termination_by items => items.length
decreasing_by
  simp only [List.length_drop, List.length_cons]
  omega

def hexLine (bytes : List UInt8) : Text := List.intercalate " " (bytes.map hexToken)

/-- The lines of a dump with `perLine` bytes on each; zero counts as one. -/
def hexDump (perLine : Nat) (bytes : List UInt8) : List Text :=
  (chunks (perLine - 1) bytes).map hexLine

end Uvm
