import Uvm.Text.Basic

/-! The instruction set: four instructions, each an opcode byte followed by a little-endian
operand field of 16 or 24 bits. -/
namespace Uvm

inductive Op where
  | load
  | read
  | write
  | sub
  deriving DecidableEq, Repr

namespace Op

def all : List Op := [load, read, write, sub]

/-- The word that stands for the instruction in source and in listings. -/
def mnemonic : Op → Text
  | load => "LOAD"
  | read => "READ"
  | write => "WRITE"
  | sub => "SUB"

/-- The name of the instruction in data files. -/
def name : Op → Text
  | load => "Load"
  | read => "Read"
  | write => "Write"
  | sub => "Sub"

def opcode : Op → UInt8
  | load => 0xCA
  | read => 0x9C
  | write => 0x5D
  | sub => 0xAF

/-- The width of the operand field. -/
def fieldBits : Op → Nat
  | load => 24
  | read => 16
  | write => 24
  | sub => 24

/-- The number of bytes of a whole instruction, its opcode included. -/
def length : Op → Nat
  | load => 4
  | read => 3
  | write => 4
  | sub => 4

/-- The bits of the operand field, all of them set. -/
def fieldMask (op : Op) : Nat := (1 <<< op.fieldBits) - 1

/-- The number of operands in source. -/
def arity : Op → Nat
  | _ => 1

def ofMnemonic? (text : Text) : Option Op := all.find? fun op => op.mnemonic == text

def ofName? (text : Text) : Option Op := all.find? fun op => op.name == text

def ofOpcode? (byte : UInt8) : Option Op := all.find? fun op => op.opcode == byte

end Op

/-- The first word of an instruction line: one of the instructions, or some other text. -/
inductive Mnemonic where
  | known (op : Op)
  | unsupported (text : Text)
  deriving DecidableEq, Repr

namespace Mnemonic

/-- Only the exact upper-case words are known. -/
def ofText (text : Text) : Mnemonic :=
  match Op.ofMnemonic? text with
  | some op => .known op
  | none => .unsupported text

def text : Mnemonic → Text
  | known op => op.mnemonic
  | unsupported text => text

theorem text_ofText (t : Text) : (ofText t).text = t := by
  unfold ofText
  cases h : Op.ofMnemonic? t with
  | none => rfl
  | some op => simpa [text] using List.find?_some h

theorem ofText_mnemonic (op : Op) : ofText op.mnemonic = .known op := by
  cases op <;> decide

theorem ofText_eq_known_iff {t : Text} {op : Op} : ofText t = .known op ↔ t = op.mnemonic := by
  constructor
  · intro h
    rw [← text_ofText t, h, text]
  · rintro rfl
    exact ofText_mnemonic op

theorem ofText_eq_unsupported_iff {t text : Text} :
    ofText t = .unsupported text ↔ text = t ∧ ∀ op : Op, t ≠ op.mnemonic := by
  constructor
  · intro h
    refine ⟨?_, fun op hop => ?_⟩
    · have htext := text_ofText t
      rw [h] at htext
      exact htext
    · rw [ofText_eq_known_iff.mpr hop] at h
      cases h
  · rintro ⟨rfl, hnone⟩
    cases h : ofText text with
    | known op => exact absurd (ofText_eq_known_iff.mp h) (hnone op)
    | unsupported other =>
      have htext := text_ofText text
      rw [h] at htext
      rw [show other = text from htext]

end Mnemonic

end Uvm
