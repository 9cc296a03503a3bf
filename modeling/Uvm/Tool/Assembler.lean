import Uvm.HexDump
import Uvm.Plan
import Uvm.Reference
import Uvm.Tool.Report

/-! The assembler as a command line tool. -/
namespace Uvm.Tool.Assembler

structure Options where
  input : Option Text
  output : Option Text
  test : Bool
  showCommands : Bool
  selfCheck : Bool
  writeSample : Option Text
  bestEffort : Bool
  rejectOverflow : Bool
  config : Option Text
  deriving DecidableEq, Repr

/-- What the assembler does not do itself: reading the command line, saying how it is to be used,
and reading a configuration file. -/
structure Setup where
  parse : List Text → Reading Options
  help : Text
  config : Text → Option Settings

/-- The options that are given win over the settings of the configuration file. -/
def Options.override (options : Options) (settings : Settings) : Settings where
  errors := if options.bestEffort then .bestEffort else settings.errors
  overflow := if options.rejectOverflow then .reject else settings.overflow

/-- The settings of the configuration file, or the default ones. -/
def Setup.readConfig (setup : Setup) (file : Option Text) : Plan (Except Failure Settings) :=
  match file with
  | none => .done (.ok {})
  | some path =>
    (Plan.readText path).bind fun
      | .error message => .done (.error ⟨"reading config " ++ path, [message]⟩)
      | .ok t =>
        match setup.config t with
        | none => .done (.error { message := "parsing config " ++ path })
        | some settings => .done (.ok settings)

def checkLines (check : Reference.Check) : List Text :=
  [check.source,
    "  expected: " ++ hexLine check.expected,
    match check.actual with
    | .ok bytes => "  actual:   " ++ hexLine bytes
    | .error fault => "  actual:   error: " ++ fault.message,
    if check.passed then "  PASS" else "  FAIL"]

/-- Prints the reference encodings after `before`; all of them have to be right. -/
def selfCheck (before : Text) (settings : Settings) : Report :=
  let checks := Reference.check settings
  let stdout := before ++ Text.unlines (checks.flatMap checkLines)
  let wrong := checks.countP fun check => !check.passed
  if wrong = 0 then .printed stdout
  else
    { Report.failed { message := Text.decimal wrong ++ " of " ++ Text.decimal checks.length
        ++ " reference encodings failed" } with stdout }

def writeSample (path : Text) : Plan Report :=
  .write path (utf8 Reference.sample) fun
    | .error fault => .done (.failed ⟨"writing " ++ path, [fault.message]⟩)
    | .ok () => .done (.printed ("Wrote sample program to " ++ path ++ "\n"))

/-- Prints the resolved commands of a source file. -/
def printCommands (input : Option Text) : Plan Report :=
  match input with
  | none => .done (.failed { message := "--ir needs an INPUT file" })
  | some path =>
    (Plan.readText path).bind fun
      | .error message => .done (.failed ⟨"reading " ++ path, [message]⟩)
      | .ok source =>
        match resolveSource source with
        | .error fault => .done (.failed ⟨"resolving " ++ path, fault.chain⟩)
        | .ok commands => .done (.printed (Text.unlines (Command.numbered commands)))

def warnings (diagnostics : List Fault) : Text :=
  Text.unlines (diagnostics.map fun fault => "warning: " ++ fault.message)

/-- What is printed about machine code that was written. -/
def summary (test : Bool) (settings : Settings) (bytes : List UInt8) : Report :=
  let size := "Binary size: " ++ Text.decimal bytes.length ++ " bytes\n"
  if test then selfCheck (size ++ "\nBytes:\n" ++ Text.unlines (hexDump 8 bytes) ++ "\n") settings
  else .printed size

/-- Assembles a source file into a binary file. A source without machine code is a failure. -/
def assembleFile (test : Bool) (settings : Settings) (input output : Text) : Plan Report :=
  (Plan.readText input).bind fun
    | .error message => .done (.failed ⟨"reading " ++ input, [message]⟩)
    | .ok source =>
      match assemble settings source with
      | .error fault => .done (.failed ⟨"assembling " ++ input, fault.chain⟩)
      | .ok ⟨bytes, diagnostics⟩ =>
        if bytes.isEmpty then
          .done ((Report.failed { message := input ++ " produced no machine code" }).withWarnings
            (warnings diagnostics))
        else
          .write output bytes fun
            | .error fault =>
              .done ((Report.failed ⟨"writing " ++ output, [fault.message]⟩).withWarnings
                (warnings diagnostics))
            | .ok () => .done ((summary test settings bytes).withWarnings (warnings diagnostics))

/-- What is done with options that make sense. -/
def Setup.execute (setup : Setup) (options : Options) : Plan Report :=
  (setup.readConfig options.config).bind fun
    | .error failure => .done (.failed failure)
    | .ok configured =>
      let settings := options.override configured
      if options.selfCheck then .done (selfCheck [] settings)
      else
        match options.writeSample with
        | some path => writeSample path
        | none =>
          if options.showCommands then printCommands options.input
          else
            match options.input, options.output with
            | some input, some output => assembleFile options.test settings input output
            | _, _ =>
              .done (.printed (setup.help ++ "\nSample program:\n\n" ++ Reference.sample ++ "\n"))

def Setup.run (setup : Setup) (args : List Text) : Plan Report :=
  match setup.parse args with
  | .exit report => .done report
  | .run options => setup.execute options

end Uvm.Tool.Assembler
