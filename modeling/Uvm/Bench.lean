import Uvm.Assembly
import Uvm.Listing

/-! A bench holds an assembler's settings, the commands it read last and the bytes it works on. Each
step leaves a bench behind, also one that fails. -/
namespace Uvm

structure Bench where
  settings : Settings := {}
  commands : List Command := []
  bytes : List UInt8 := []
  deriving DecidableEq, Repr

namespace Bench

def configure (bench : Bench) (settings : Settings) : Bench := { bench with settings }

/-- Reads the commands of a source. -/
def load (bench : Bench) (source : Text) : Bench × Except Fault Unit :=
  match resolveSource source with
  | .error fault => (bench, .error fault)
  | .ok commands => ({ bench with commands }, .ok ())

/-- Encodes the commands into the bytes. -/
def generate (bench : Bench) : Bench × Except Fault Assembly :=
  match (Uvm.generate bench.settings bench.commands).result with
  | .error fault => (bench, .error fault)
  | .ok assembly => ({ bench with bytes := assembly.bytes }, .ok assembly)

/-- Appends one instruction. -/
def emit (bench : Bench) (op : Op) (operand : Nat) : Bench × Except Overflow Unit :=
  let (bytes, outcome) := encodeInto bench.bytes op operand bench.settings.overflow
  ({ bench with bytes }, outcome)

/-- Keeps at most `length` bytes. -/
def truncate (bench : Bench) (length : Nat) : Bench :=
  { bench with bytes := bench.bytes.take length }

def append (bench : Bench) (bytes : List UInt8) : Bench :=
  { bench with bytes := bench.bytes ++ bytes }

/-- Reads the commands of the bytes' own disassembly. -/
def reload (bench : Bench) : Bench × Except Fault Unit := bench.load (sweep bench.bytes).source

end Bench

end Uvm
