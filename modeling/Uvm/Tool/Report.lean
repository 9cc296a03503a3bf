import Uvm.Text.Numeral

/-! What a run of a tool prints, and its exit code. -/
namespace Uvm.Tool

structure Report where
  code : Nat
  stdout : Text
  stderr : Text
  deriving DecidableEq, Repr

/-- A failure and what caused it, the nearest cause first. -/
structure Failure where
  message : Text
  causes : List Text := []
  deriving DecidableEq, Repr

namespace Failure

/-- Numbered causes, each on its line. -/
def numberedFrom (index : Nat) : List Text → Text
  | [] => []
  | cause :: rest =>
    List.leftpad 5 ' ' (Text.decimal index) ++ ": " ++ cause ++ "\n"
      ++ numberedFrom (index + 1) rest

/-- A single cause needs no number. -/
def renderCauses : List Text → Text
  | [] => []
  | [cause] => "\nCaused by:\n    " ++ cause ++ "\n"
  | causes => "\nCaused by:\n" ++ numberedFrom 0 causes

def render (failure : Failure) : Text :=
  "Error: " ++ failure.message ++ "\n" ++ renderCauses failure.causes

/-- The failure and its causes on one line. -/
def brief (failure : Failure) : Text := List.intercalate ": " (failure.message :: failure.causes)

end Failure

namespace Report

def printed (stdout : Text) : Report := ⟨0, stdout, []⟩

def failed (failure : Failure) : Report := ⟨1, [], failure.render⟩

/-- The arguments make no sense. -/
def refused : Report :=
  ⟨2, [], "error: invalid arguments\n\nFor more information, try '--help'.\n"⟩

/-- Warnings come before everything else on standard error. -/
def withWarnings (warnings : Text) (report : Report) : Report :=
  { report with stderr := warnings ++ report.stderr }

end Report

/-- What a command line comes to: an end at once, as for a request for help or a mistake, or a run
with some options. -/
inductive Reading (Options : Type) where
  | exit (report : Report)
  | run (options : Options)
  deriving DecidableEq, Repr

end Uvm.Tool
