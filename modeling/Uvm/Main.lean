import Uvm.Tool.Standard

/-! The command line: the first argument chooses the tool, the others are the tool's own. -/
namespace Uvm

/-- The number of an error, which is reported with either sign. -/
def systemCode (code : UInt32) : Nat := min code.toNat (0 - code).toNat

/-- The file system's answer to a request that it refused. -/
def FileFault.ofError : IO.Error → FileFault
  | .noFileOrDirectory .. => .notFound
  | .inappropriateType _ code _ => if systemCode code = 21 then .isDirectory else .notDirectory
  | .permissionDenied _ code _ => ⟨systemCode code, "Permission denied"⟩
  | .invalidArgument _ code text =>
    if systemCode code = 36 then .nameTooLong else ⟨systemCode code, text⟩
  | error => ⟨0, toString error⟩

/-- Runs a plan on real files. -/
def Plan.perform {α : Type} : Plan α → IO α
  | .done result => pure result
  | .read path next => do
    let answer ← (IO.FS.readBinFile (String.ofList path)).toBaseIO
    match answer with
    | .ok content => (next (.ok content.toList)).perform
    | .error error => (next (.error (.ofError error))).perform
  | .write path content next => do
    let answer ← (IO.FS.writeBinFile (String.ofList path) ⟨content.toArray⟩).toBaseIO
    match answer with
    | .ok () => (next (.ok ())).perform
    | .error error => (next (.error (.ofError error))).perform

end Uvm

def main (args : List String) : IO UInt32 := do
  let plan : Uvm.Plan Uvm.Tool.Report :=
    match args.map String.toList with
    | ['a', 's', 'm'] :: rest => Uvm.Tool.Assembler.standard.run rest
    | ['d', 'i', 's', 'a', 's', 'm'] :: rest => Uvm.Tool.Disassembler.standard.run rest
    | _ => .done .refused
  let report ← plan.perform
  IO.print (String.ofList report.stdout)
  IO.eprint (String.ofList report.stderr)
  return UInt32.ofNat report.code
