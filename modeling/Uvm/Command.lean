import Uvm.Op
import Uvm.Text.Numeral

/-! Instructions of a source in program order, their operands still text. -/
namespace Uvm

structure Command where
  mnemonic : Mnemonic
  operands : List Text
  line : Nat
  deriving DecidableEq, Repr

namespace Command

/-- The command as a line of source. -/
def source (command : Command) : Text :=
  match command.operands with
  | [] => command.mnemonic.text
  | operands => command.mnemonic.text ++ " " ++ List.intercalate ", " operands

/-- The commands as lines of source, each after its index. -/
def numberedFrom (index : Nat) : List Command → List Text
  | [] => []
  | command :: rest =>
    (Text.decimal index ++ ": " ++ command.source) :: numberedFrom (index + 1) rest

def numbered (commands : List Command) : List Text := numberedFrom 0 commands

end Command

end Uvm
