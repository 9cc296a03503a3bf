import Uvm.Json.Value
import Uvm.Settings
import Uvm.Code.Decoding

/-! The records that are kept as JSON: settings and decoded instructions. -/
namespace Uvm

namespace Settings

def fieldNames : List Text := ["errors", "overflow"]

/-- The value of a field given as a word, or its default when the field is missing. -/
def wordField? {α : Type} (ofName? : Text → Option α) (default : α) : Option Json → Option α
  | none => some default
  | some json => json.word?.bind ofName?

/-- Settings from a record in which any field may be missing. -/
def ofJson? (json : Json) : Option Settings :=
  match json.fields? fieldNames with
  | some [errors, overflow] => do
    let errors ← wordField? OnError.ofName? ({} : Settings).errors errors
    let overflow ← wordField? OnOverflow.ofName? ({} : Settings).overflow overflow
    return { errors, overflow }
  | _ => none

/-- Settings from the text of a configuration file. -/
def parse? (t : Text) : Option Settings := (Json.parse? t).bind ofJson?

/-- The settings as the text of a configuration file. -/
def render (settings : Settings) : Text :=
  "\x7b\"errors\":\"" ++ settings.errors.name ++ "\",\"overflow\":\"" ++ settings.overflow.name
    ++ "\"\x7d"

end Settings

namespace Decoded

def fieldNames : List Text := ["op", "operand", "len"]

/-- A decoded instruction from a record in which no field may be missing. -/
def ofJson? (json : Json) : Option Decoded :=
  match json.fields? fieldNames with
  | some [some op, some operand, some length] => do
    let op ← op.word?.bind Op.ofName?
    let operand ← operand.natBelow? (1 <<< 32)
    let length ← length.natBelow? (1 <<< 64)
    return { op, operand, length }
  | _ => none

def parse? (t : Text) : Option Decoded := (Json.parse? t).bind ofJson?

end Decoded

end Uvm
