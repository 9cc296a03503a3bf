import Uvm.Listing
import Uvm.Plan
import Uvm.Tool.Report
import Uvm.Window

/-! The disassembler as a command line tool. -/
namespace Uvm.Tool.Disassembler

structure Options where
  input : Text
  skip : Nat
  length : Option Nat
  json : Bool
  showBytes : Bool
  out : Option Text
  deriving DecidableEq, Repr

/-- What the disassembler does not do itself: reading the command line and writing a listing as
JSON. -/
structure Setup where
  parse : List Text → Reading Options
  json : List Row → Text

/-- The window of a file. -/
def load (path : Text) (skip : Nat) (length : Option Nat) : Plan (Except Failure (List UInt8)) :=
  .read path fun
    | .error fault => .done (.error ⟨"reading " ++ path, [fault.message]⟩)
    | .ok content =>
      match window content skip length with
      | .error fault => .done (.error { message := fault.message })
      | .ok bytes => .done (.ok bytes)

/-- The listing of some bytes in the format that is asked for. -/
def Setup.render (setup : Setup) (options : Options) (bytes : List UInt8) : Text :=
  if options.json then setup.json (listing bytes) ++ "\n"
  else renderRows options.showBytes (listing bytes)

/-- What is done with options that make sense. -/
def Setup.execute (setup : Setup) (options : Options) : Plan Report :=
  (load options.input options.skip options.length).bind fun
    | .error failure => .done (.failed failure)
    | .ok bytes =>
      match options.out with
      | none => .done (.printed (setup.render options bytes))
      | some path =>
        .write path (utf8 (setup.render options bytes)) fun
          | .error fault => .done (.failed { message := fault.message })
          | .ok () => .done (.printed [])

def Setup.run (setup : Setup) (args : List Text) : Plan Report :=
  match setup.parse args with
  | .exit report => .done report
  | .run options => setup.execute options

end Uvm.Tool.Disassembler
