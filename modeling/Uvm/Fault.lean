import Uvm.Literal
import Uvm.Code.Encoding

/-! What can be wrong with a source, and how it is said. -/
namespace Uvm

inductive Cause where
  | badLiteral (token : Text) (fault : Literal.Fault)
  | unresolvedLabel (name : Text)
  | unknownMnemonic (text : Text)
  | operandCount (op : Op) (found : Nat)
  | overflow (overflow : Overflow)
  | duplicateLabel (name : Text) (first : Nat)
  | badLabel (name : Text)
  deriving DecidableEq, Repr

def Cause.message : Cause → Text
  | .badLiteral token fault => "invalid literal " ++ Text.quote token ++ ": " ++ fault.message
  | .unresolvedLabel name => "unresolved label " ++ Text.quote name
  | .unknownMnemonic text => "unknown mnemonic " ++ Text.quote text
  | .operandCount op found =>
    op.mnemonic ++ " takes " ++ Text.decimal op.arity ++ " operand(s), got " ++ Text.decimal found
  | .overflow o => o.message
  | .duplicateLabel name first =>
    "label " ++ Text.quote name ++ " already defined on line " ++ Text.decimal first
  | .badLabel name => "invalid label name " ++ Text.quote name

/-- A cause and the source line, counted from 1, that has it. -/
structure Fault where
  line : Nat
  cause : Cause
  deriving DecidableEq, Repr

def Fault.message (fault : Fault) : Text :=
  "line " ++ Text.decimal fault.line ++ ": " ++ fault.cause.message

/-- The fault's message and the messages of what lies behind it, the outermost first. -/
def Fault.chain (fault : Fault) : List Text :=
  match fault.cause with
  | .badLiteral _ literal => [fault.message, literal.message]
  | _ => [fault.message]

end Uvm
