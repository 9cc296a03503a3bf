import Uvm.Code.Encoding

/-! How an assembler treats commands that it cannot encode. -/
namespace Uvm

/-- What becomes of a command that cannot be encoded. -/
inductive OnError where
  | failFast
  | bestEffort
  deriving DecidableEq, Repr

structure Settings where
  errors : OnError := .failFast
  overflow : OnOverflow := .mask
  deriving DecidableEq, Repr

namespace OnError

def all : List OnError := [failFast, bestEffort]

/-- The word for the policy in configuration files. -/
def name : OnError → Text
  | failFast => "fail-fast"
  | bestEffort => "best-effort"

def ofName? (text : Text) : Option OnError := all.find? fun policy => policy.name == text

end OnError

namespace OnOverflow

def all : List OnOverflow := [mask, reject]

/-- The word for the policy in configuration files. -/
def name : OnOverflow → Text
  | mask => "mask"
  | reject => "reject"

def ofName? (text : Text) : Option OnOverflow := all.find? fun policy => policy.name == text

end OnOverflow

namespace Settings

def bestEffort : Settings := { errors := .bestEffort }

def strict : Settings := { overflow := .reject }

end Settings

end Uvm
