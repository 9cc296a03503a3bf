import Uvm.Program
import Uvm.Settings

/-! From source to machine code. Under `failFast` the first command that cannot be encoded ends
the run; under `bestEffort` such commands are dropped and reported. -/
namespace Uvm

/-- The machine code of a source and the faults of the commands that were dropped. -/
structure Assembly where
  bytes : List UInt8
  diagnostics : List Fault
  deriving DecidableEq, Repr

namespace Assembly

def empty : Assembly := ⟨[], []⟩

end Assembly

/-- Appends one command to `out`. Its mnemonic is judged first, then the number of its operands, the
literal, and last the width of the value. The log shows what was appended. -/
def Command.encodeInto (policy : OnOverflow) (command : Command) (out : List UInt8) :
    Step (List UInt8) :=
  match command.mnemonic with
  | .unsupported text => .failed out ⟨command.line, .unknownMnemonic text⟩
  | .known op =>
    match command.operands with
    | [token] =>
      match Literal.parse token with
      | .error fault => .failed out ⟨command.line, .badLiteral token fault⟩
      | .ok value =>
        let start := out.length
        match Uvm.encodeInto out op value policy with
        | (out, .error overflow) => .failed out ⟨command.line, .overflow overflow⟩
        | (out, .ok ()) => .logged out (.encoded command.line op value (out.drop start))
    | operands => .failed out ⟨command.line, .operandCount op operands.length⟩

/-- Appends commands to what is assembled so far. -/
def generateInto (settings : Settings) (out : Assembly) : List Command → Step Assembly
  | [] => .done out
  | command :: rest =>
    let step := (command.encodeInto settings.overflow out.bytes).within fun bytes =>
      { out with bytes }
    match step.result, settings.errors with
    | .ok (), _ => (generateInto settings step.state rest).behind step.events
    | .error _, .failFast => step
    | .error fault, .bestEffort =>
      let out := step.state
      (generateInto settings { out with diagnostics := out.diagnostics ++ [fault] } rest).behind
        (step.events ++ [.dropped command fault])

/-- The machine code of resolved commands. -/
def generate (settings : Settings) (commands : List Command) : Traced Assembly :=
  (generateInto settings .empty commands).finish

/-- The machine code of a source, with everything that happened on the way. -/
def assembleTraced (settings : Settings) (source : Text) : Traced Assembly :=
  (resolveTraced (Text.lines source)).andThen (generate settings)

def assemble (settings : Settings) (source : Text) : Except Fault Assembly :=
  (assembleTraced settings source).result

end Uvm
