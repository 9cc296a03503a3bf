import Uvm.Code.Decoding
import Uvm.Text.Layout

/-! Byte strings as rows: one for each instruction of the sweep, then one for each byte that is
left. -/
namespace Uvm

structure Row where
  offset : Nat
  mnemonic : Text
  operand : Nat
  bytes : List UInt8
  deriving DecidableEq, Repr

namespace Row

/-- The mnemonic of a row that shows a single byte. -/
def byteMnemonic : Text := ".byte"

def ofByte (offset : Nat) (b : UInt8) : Row := ⟨offset, byteMnemonic, b.toNat, [b]⟩

/-- Instruction bytes are shown in a column as wide as the longest instruction. -/
def columns : Nat := 4

def cell (b : UInt8) : Text := Text.hexPair b ++ " "

def emptyCell : Text := "   "

def bytesColumn (row : Row) : Text :=
  row.bytes.flatMap cell ++ (List.replicate (columns - row.bytes.length) emptyCell).flatten ++ " "

def statement (row : Row) : Text :=
  if row.mnemonic = byteMnemonic then row.mnemonic ++ " " ++ Text.hexMarked 2 row.operand
  else row.mnemonic ++ " " ++ Text.decimal row.operand

/-- The row as a line of text, its line feed included. -/
def render (showBytes : Bool) (row : Row) : Text :=
  Text.hexMarked 4 row.offset ++ ": " ++ (if showBytes then row.bytesColumn else [])
    ++ row.statement ++ "\n"

/-- The row as an object of four members. Mnemonics hold no character that needs an escape. -/
def layout (row : Row) : Text.Layout :=
  .object [("offset", .text (Text.decimal row.offset)),
    ("mnemonic", .text ('"' :: row.mnemonic ++ ['"'])),
    ("operand", .text (Text.decimal row.operand)),
    ("bytes", .array (row.bytes.map fun b => .text (Text.decimal b.toNat)))]

end Row

/-- One row for each byte, the first standing at `offset`. -/
def byteRows (offset : Nat) : List UInt8 → List Row
  | [] => []
  | b :: rest => Row.ofByte offset b :: byteRows (offset + 1) rest

/-- The rows of bytes that stand at `offset` and start with these instructions. -/
def rowsFrom (offset : Nat) (bytes : List UInt8) : List (Nat × Decoded) → List Row
  | [] => byteRows offset bytes
  | (start, d) :: rest =>
    ⟨start, d.op.mnemonic, d.operand, bytes.take d.length⟩
      :: rowsFrom (start + d.length) (bytes.drop d.length) rest

/-- The rows of a byte string. -/
def listing (bytes : List UInt8) : List Row := rowsFrom 0 bytes (sweep bytes).instructions

def renderRows (showBytes : Bool) (rows : List Row) : Text := rows.flatMap (Row.render showBytes)

/-- The rows as an indented array of objects. -/
def layoutRows (rows : List Row) : Text := (Text.Layout.array (rows.map Row.layout)).render

end Uvm
