import Uvm.Json.Token

/-! JSON values. They are read off the tokens one by one, with the containers that are still
open kept on a stack, so that values may be nested to any depth. -/
namespace Uvm

inductive Json where
  | null
  | bool (value : Bool)
  | number (digits : Text)
  | string (text : Option Text)
  | array (items : List Json)
  | object (members : List (Option Text × Json))

namespace Json

/-- An open container. Its contents are in reverse order; `key` waits for its value. -/
inductive Pending where
  | array (items : List Json)
  | object (members : List (Option Text × Json)) (key : Option Text)

/-- What may come next. -/
inductive Expecting where
  | value
  | firstItem
  | firstKey
  | key
  | colon
  | next
  | nothing (result : Json)

structure Reader where
  pending : List Pending
  expecting : Expecting

namespace Reader

def start : Reader := ⟨[], .value⟩

/-- A value is complete: it goes into the innermost container. -/
def put (value : Json) : List Pending → Reader
  | [] => ⟨[], .nothing value⟩
  | .array items :: rest => ⟨.array (value :: items) :: rest, .next⟩
  | .object members key :: rest => ⟨.object ((key, value) :: members) key :: rest, .next⟩

/-- The first token of a value. -/
def beginValue (pending : List Pending) : Token → Option Reader
  | .null => some (put .null pending)
  | .bool value => some (put (.bool value) pending)
  | .number digits => some (put (.number digits) pending)
  | .string text => some (put (.string text) pending)
  | .mark '[' => some ⟨.array [] :: pending, .firstItem⟩
  | .mark '\x7b' => some ⟨.object [] none :: pending, .firstKey⟩
  | .mark _ => none

/-- The key of a member. -/
def beginMember : List Pending → Token → Option Reader
  | .object members _ :: rest, .string key => some ⟨.object members key :: rest, .colon⟩
  | _, _ => none

/-- The end of the innermost container. -/
def close : List Pending → Token → Option Reader
  | .array items :: rest, .mark ']' => some (put (.array items.reverse) rest)
  | .object members _ :: rest, .mark '\x7d' => some (put (.object members.reverse) rest)
  | _, _ => none

/-- After a complete value: a comma, or the end of the container. -/
def proceed : List Pending → Token → Option Reader
  | .array items :: rest, .mark ',' => some ⟨.array items :: rest, .value⟩
  | .object members key :: rest, .mark ',' => some ⟨.object members key :: rest, .key⟩
  | pending, token => close pending token

def step (reader : Reader) (token : Token) : Option Reader :=
  match reader.expecting with
  | .value => beginValue reader.pending token
  | .firstItem => (close reader.pending token).or (beginValue reader.pending token)
  | .firstKey => (close reader.pending token).or (beginMember reader.pending token)
  | .key => beginMember reader.pending token
  | .colon => if token = .mark ':' then some { reader with expecting := .value } else none
  | .next => proceed reader.pending token
  | .nothing _ => none

def result? (reader : Reader) : Option Json :=
  match reader.expecting with
  | .nothing value => some value
  | _ => none

end Reader

/-- The value that a text is. -/
def parse? (t : Text) : Option Json := do
  let tokens ← Token.scan t
  let reader ← tokens.foldlM Reader.step .start
  reader.result?

/-- The values of a record's fields, in the order of their names. A record is an object, whose
other members do not matter, or the array of the first of its values. No field may be given
twice. -/
def fields? (names : List Text) : Json → Option (List (Option Json))
  | .array items =>
    if items.length ≤ names.length then
      some (items.map some ++ List.replicate (names.length - items.length) none)
    else none
  | .object members =>
    if (members.all fun m => m.1.isSome)
        && names.all fun name => decide ((members.countP fun m => m.1 == some name) ≤ 1) then
      some (names.map fun name => (members.find? fun m => m.1 == some name).map (·.2))
    else none
  | _ => none

/-- One of several words: a string, or an object whose only member is that word with `null`. -/
def word? : Json → Option Text
  | .string text => text
  | .object [(key, .null)] => key
  | _ => none

/-- A whole number below a bound. -/
def natBelow? (bound : Nat) : Json → Option Nat
  | .number digits =>
    if isWhole digits then some (Text.positional 10 digits) |>.filter fun n => decide (n < bound)
    else none
  | _ => none

end Json

end Uvm
