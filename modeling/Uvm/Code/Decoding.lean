import Uvm.Code.Encoding

/-! Bytes as instructions. `decode` reads one instruction off the front of a byte string;
`sweep` reads as many as there are and tells where it had to stop. -/
namespace Uvm

structure Decoded where
  op : Op
  operand : Nat
  length : Nat
  deriving DecidableEq, Repr

/-- The instruction as a line of source. -/
def Decoded.source (d : Decoded) : Text := d.op.mnemonic ++ " " ++ Text.decimal d.operand

/-- The instruction that a byte string starts with, if it starts with a whole one. The field is
read as a number of four bytes, of which those that it lacks are zero. -/
def decode : List UInt8 → Option Decoded
  | [] => none
  | byte :: rest =>
    match Op.ofOpcode? byte with
    | none => none
    | some op =>
      if op.length - 1 ≤ rest.length then
        let field := rest.take (op.length - 1)
        some ⟨op, ofLittleEndian (field.rightpad 4 0), op.length⟩
      else none

theorem Op.length_pos (op : Op) : 0 < op.length := by
  cases op <;> decide

theorem decode_length_pos {bytes : List UInt8} {d : Decoded} (h : decode bytes = some d) :
    0 < d.length := by
  unfold decode at h
  split at h
  · cases h
  · split at h
    · cases h
    · split at h
      · cases h
        exact Op.length_pos _
      · cases h

theorem ne_nil_of_decode {bytes : List UInt8} {d : Decoded} (h : decode bytes = some d) :
    bytes ≠ [] := by
  rintro rfl
  cases h

/-- The instructions found from the front on, each with its offset, and the offset of the first
byte that belongs to none. -/
structure Sweep where
  instructions : List (Nat × Decoded)
  stoppedAt : Option Nat
  deriving DecidableEq, Repr

/-- The instructions as a source, one a line. -/
def Sweep.source (s : Sweep) : Text :=
  List.intercalate "\n" (s.instructions.map fun i => i.2.source)

/-- The sweep of bytes that stand at `offset`. -/
def sweepFrom (offset : Nat) (bytes : List UInt8) : Sweep :=
  match _ : decode bytes with
  | none => ⟨[], if bytes.isEmpty then none else some offset⟩
  | some d =>
    let rest := sweepFrom (offset + d.length) (bytes.drop d.length)
    ⟨(offset, d) :: rest.instructions, rest.stoppedAt⟩
termination_by bytes.length
decreasing_by
  have := decode_length_pos ‹_›
  have := List.length_pos_iff.mpr (ne_nil_of_decode ‹_›)
  simp only [List.length_drop]
  omega

def sweep (bytes : List UInt8) : Sweep := sweepFrom 0 bytes

end Uvm
