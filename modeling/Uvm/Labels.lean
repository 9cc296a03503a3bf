import Uvm.Trace

/-! Labels and the instruction indices they stand for. A name is bound once and keeps its
first binding. -/
namespace Uvm

/-- A definition of a label: the instruction index it stands for and its source line. -/
structure LabelDef where
  name : Text
  index : Nat
  line : Nat
  deriving DecidableEq, Repr

/-- The definitions in the order they were made. -/
structure Labels where
  defs : List LabelDef
  deriving DecidableEq, Repr

namespace Labels

def empty : Labels := ⟨[]⟩

def find? (labels : Labels) (name : Text) : Option LabelDef :=
  labels.defs.find? fun d => d.name == name

/-- The instruction index of a name. -/
def get? (labels : Labels) (name : Text) : Option Nat := (labels.find? name).map (·.index)

def size (labels : Labels) : Nat := labels.defs.length

def isEmpty (labels : Labels) : Bool := labels.defs.isEmpty

/-- Names a label may have: not empty, not to be taken for a literal, and in one piece as an
operand. -/
def isName (name : Text) : Bool :=
  !name.isEmpty && !Literal.looksNumeric name && !name.any fun c => Text.isBlank c || c == ','

/-- Binds a name. A name that is not allowed is refused before one that is already bound, and the
definition is logged before it is made. -/
def define (labels : Labels) (name : Text) (index line : Nat) : Step Labels :=
  if !isName name then .failed labels ⟨line, .badLabel name⟩
  else
    match labels.find? name with
    | some d => .failed labels ⟨line, .duplicateLabel name d.line⟩
    | none =>
      .logged ⟨labels.defs ++ [⟨name, index, line⟩]⟩ (.labelDefined name index line)

end Labels

end Uvm
