import Uvm.Json.Records
import Uvm.Tool.Arguments
import Uvm.Tool.Assembler
import Uvm.Tool.Disassembler

/-! How the two tools are called: their options, what they say about themselves, and the JSON that
they read and write. -/
namespace Uvm.Tool

/-- A command line that asks for help or for the version, or makes no sense, is an end at once. -/
def Request.reading {Options : Type} (help version : Text) (options? : Arguments → Option Options) :
    Request → Reading Options
  | .help => .exit (.printed help)
  | .version => .exit (.printed version)
  | .refused => .exit .refused
  | .run given =>
    match options? given with
    | some options => .run options
    | none => .exit .refused

namespace Assembler

def version : Text := "uvm-asm 0.1.0\n"

def helpLines : List Text :=
  ["UVM assembler: source text to raw machine code",
    "",
    "Usage: uvm-asm [OPTIONS] [INPUT] [OUTPUT]",
    "",
    "Arguments:",
    "  [INPUT]   Assembly source (one instruction or label per line)",
    "  [OUTPUT]  Raw binary output",
    "",
    "Options:",
    "      --test                   Print the assembled bytes and run the reference vectors afterwards",
    "      --ir                     Print the resolved commands of INPUT and exit without encoding",
    "      --self-check             Check the reference encodings and exit",
    "      --write-sample [<PATH>]  Write a sample program covering the reference encodings",
    "      --best-effort            Drop commands that fail to encode instead of stopping",
    "      --reject-overflow        Reject operands wider than their field instead of masking them",
    "      --config <FILE>          JSON assembler configuration",
    "  -h, --help                   Print help",
    "  -V, --version                Print version"]

def help : Text := Text.unlines helpLines

def grammar : Grammar where
  options := [("test", .nothing), ("ir", .nothing), ("self-check", .nothing),
    ("write-sample", .optionalValue .path "sample.asm"), ("best-effort", .nothing),
    ("reject-overflow", .nothing), ("config", .value .path)]
  positionals := [.path, .path]

def Options.ofArguments (given : Arguments) : Options where
  input := given.positionals[0]?
  output := given.positionals[1]?
  test := given.has "test"
  showCommands := given.has "ir"
  selfCheck := given.has "self-check"
  writeSample := given.value? "write-sample"
  bestEffort := given.has "best-effort"
  rejectOverflow := given.has "reject-overflow"
  config := given.value? "config"

def standard : Setup where
  parse args := (grammar.read args).reading help version fun given => some (.ofArguments given)
  help := help
  config := Settings.parse?

end Assembler

namespace Disassembler

def version : Text := "uvm-disasm 0.1.0\n"

def helpLines : List Text :=
  ["UVM disassembler CLI",
    "",
    "Usage: uvm-disasm [OPTIONS] <BINFILE>",
    "",
    "Arguments:",
    "  <BINFILE>  Input binary path",
    "",
    "Options:",
    "      --skip <SKIP>      Skip N bytes at start of file before decoding [default: 0]",
    "      --len <LEN>        Limit bytes decoded (default: to EOF after --skip)",
    "      --format <FORMAT>  Output format: text or json [default: text] [possible values: text, json]",
    "      --show-bytes       Show instruction bytes (text format only)",
    "      --out <FILE>       Write output to file instead of stdout",
    "  -h, --help             Print help",
    "  -V, --version          Print version"]

def help : Text := Text.unlines helpLines

def grammar : Grammar where
  options := [("skip", .value .size), ("len", .value .size),
    ("format", .value (.oneOf ["text", "json"])), ("show-bytes", .nothing), ("out", .value .text)]
  positionals := [.text]

/-- The input file has to be given. -/
def Options.ofArguments? (given : Arguments) : Option Options :=
  given.positionals.head?.map fun input =>
    { input
      skip := ((given.value? "skip").bind size?).getD 0
      length := (given.value? "len").bind size?
      json := given.value? "format" == some "json".toList
      showBytes := given.has "show-bytes"
      out := given.value? "out" }

def standard : Setup where
  parse args := (grammar.read args).reading help version Options.ofArguments?
  json := layoutRows

end Disassembler

end Uvm.Tool
