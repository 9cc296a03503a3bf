import Uvm.Labels
import Uvm.Line
import Uvm.Trace

/-! A source as commands and labels. Labels stand for the index of the next instruction, so
they can be used before the line that defines them; `Program.resolve` puts the index, in
decimal, in place of each operand that names a label. -/
namespace Uvm

structure Program where
  commands : List Command
  labels : Labels
  deriving DecidableEq, Repr

namespace Program

def empty : Program := ⟨[], .empty⟩

/-- Reads one line into what was read so far. A label stands for the number of commands read. -/
def scanLine (program : Program) (line : Nat) (text : Text) : Step Program :=
  match Line.read text with
  | .blank => .done program
  | .label name =>
    (program.labels.define name program.commands.length line).within fun labels =>
      { program with labels }
  | .instruction mnemonic operands =>
    .done { program with commands := program.commands ++ [⟨.ofText mnemonic, operands, line⟩] }

/-- Reads lines, the first of which has number `line`, into what was read so far. A line that fails
is the last one. -/
def scanFrom (program : Program) (line : Nat) : List Text → Step Program
  | [] => .done program
  | text :: rest =>
    let step := program.scanLine line text
    match step.result with
    | .error _ => step
    | .ok () => (step.state.scanFrom (line + 1) rest).behind step.events

def scan (lines : List Text) : Traced Program := (empty.scanFrom 1 lines).finish

/-- The commands and labels of some lines. -/
def ofLines (lines : List Text) : Except Fault Program := (scan lines).result

end Program

namespace Labels

/-- An operand with its label, if it is one, replaced. Operands that are neither a label nor
meant as a literal have no meaning. -/
def resolveOperand (labels : Labels) (line : Nat) (operand : Text) : Except Fault Text :=
  match labels.get? operand with
  | some index => .ok (Text.decimal index)
  | none =>
    if Literal.looksNumeric operand then .ok operand
    else .error ⟨line, .unresolvedLabel operand⟩

def resolveOperands (labels : Labels) (line : Nat) : List Text → Except Fault (List Text)
  | [] => .ok []
  | operand :: rest =>
    match labels.resolveOperand line operand with
    | .error fault => .error fault
    | .ok operand => (labels.resolveOperands line rest).map (operand :: ·)

/-- The commands with all labels replaced, or the first operand that cannot be. -/
def resolve (labels : Labels) : List Command → Except Fault (List Command)
  | [] => .ok []
  | command :: rest =>
    match labels.resolveOperands command.line command.operands with
    | .error fault => .error fault
    | .ok operands => (labels.resolve rest).map ({ command with operands } :: ·)

end Labels

namespace Program

def resolve (program : Program) : Except Fault (List Command) :=
  program.labels.resolve program.commands

end Program

/-- Both passes over some lines. -/
def resolveTraced (lines : List Text) : Traced (List Command) :=
  (Program.scan lines).andThen fun program => .ofExcept program.resolve

/-- The resolved commands of some lines. -/
def resolve (lines : List Text) : Except Fault (List Command) := (resolveTraced lines).result

/-- The resolved commands of a source. -/
def resolveSource (source : Text) : Except Fault (List Command) := resolve (Text.lines source)

end Uvm
