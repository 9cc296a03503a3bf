import Uvm.Op
import Uvm.Text.Numeral

/-! Instructions as bytes. An operand wider than its field is cut to the field's low bits or
refused, as the caller asks. -/
namespace Uvm

/-- What becomes of an operand that is wider than its field. -/
inductive OnOverflow where
  | mask
  | reject
  deriving DecidableEq, Repr

/-- An operand that does not fit the field of its instruction. -/
structure Overflow where
  op : Op
  value : Nat
  deriving DecidableEq, Repr

def Overflow.message (o : Overflow) : Text :=
  o.op.mnemonic ++ " operand " ++ Text.hexMarked 1 o.value ++ " does not fit in "
    ++ Text.decimal o.op.fieldBits ++ " bits"

/-- The `count` low bytes of a number, the lowest first. -/
def littleEndian : Nat → Nat → List UInt8
  | 0, _ => []
  | count + 1, n => UInt8.ofNat n :: littleEndian count (n / 256)

/-- The number whose bytes these are, the lowest first. -/
def ofLittleEndian : List UInt8 → Nat
  | [] => 0
  | b :: rest => b.toNat + 256 * ofLittleEndian rest

/-- Appends one instruction to `out`: its opcode, then as many of the eight bytes of the operand as
the instruction has room for. What is left in `out` comes back with the outcome, whichever it is. -/
def encodeInto (out : List UInt8) (op : Op) (operand : Nat) (policy : OnOverflow) :
    List UInt8 × Except Overflow Unit :=
  let field := operand &&& op.fieldMask
  if field ≠ operand ∧ policy = .reject then (out, .error ⟨op, operand⟩)
  else
    let out := out ++ [op.opcode]
    let out := out ++ (littleEndian 8 field).take (op.length - 1)
    (out, .ok ())

/-- The bytes of one instruction. -/
def encode (op : Op) (operand : Nat) (policy : OnOverflow) : Except Overflow (List UInt8) :=
  match encodeInto [] op operand policy with
  | (_, .error overflow) => .error overflow
  | (out, .ok ()) => .ok out

end Uvm
