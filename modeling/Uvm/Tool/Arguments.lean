import Uvm.Text.Numeral

/-! Command line arguments: long options with or without a value, a fixed number of other
arguments, and the two requests that end the reading, for help and for the version. Arguments
are judged from left to right, so of a request and a mistake the first one counts. -/
namespace Uvm.Tool

/-- The values that an option or argument accepts. -/
inductive Accepts where
  | text
  | path
  | size
  | oneOf (words : List Text)

/-- Sizes are 64-bit numbers in decimal, with an optional plus sign. -/
def size? (t : Text) : Option Nat :=
  let digits := if t.head? = some '+' then t.drop 1 else t
  if !digits.isEmpty && digits.all (fun c => (Text.digit? 10 c).isSome) then
    (some (Text.positional 10 digits)).filter fun n => decide (n < 1 <<< 64)
  else none

def Accepts.ok : Accepts → Text → Bool
  | .text, _ => true
  | .path, value => !value.isEmpty
  | .size, value => (size? value).isSome
  | .oneOf words, value => words.contains value

inductive Takes where
  | nothing
  | value (accepts : Accepts)
  /-- Without a value the option stands for the default one. -/
  | optionalValue (accepts : Accepts) (default : Text)

structure Grammar where
  options : List (Text × Takes)
  positionals : List Accepts

/-- What was given: each option at most once, with its value if it has one. -/
structure Arguments where
  options : List (Text × Option Text) := []
  positionals : List Text := []
  deriving DecidableEq, Repr

namespace Arguments

def has (given : Arguments) (name : Text) : Bool := given.options.any fun o => o.1 == name

def value? (given : Arguments) (name : Text) : Option Text :=
  (given.options.find? fun o => o.1 == name).bind (·.2)

def addOption (given : Arguments) (name : Text) (value : Option Text) : Arguments :=
  { given with options := given.options ++ [(name, value)] }

def addPositional (given : Arguments) (value : Text) : Arguments :=
  { given with positionals := given.positionals ++ [value] }

end Arguments

inductive Request where
  | help
  | version
  | refused
  | run (arguments : Arguments)
  deriving DecidableEq, Repr

/-- A lone dash is a value; anything else that starts with one is an option. -/
def isValue : Text → Bool
  | '-' :: _ :: _ => false
  | _ => true

/-- A long option's name and the value after its equals sign. -/
def splitAttached (t : Text) : Text × Option Text :=
  let name := t.takeWhile (· != '=')
  (name, if name.length < t.length then some (t.drop (name.length + 1)) else none)

/-- The value of an option, and whether it is the next argument. -/
def Takes.value? : Takes → Option Text → Option Text → Option (Option Text × Bool)
  | .nothing, none, _ => some (none, false)
  | .nothing, some _, _ => none
  | .value accepts, some attached, _
  | .optionalValue accepts _, some attached, _ =>
    if accepts.ok attached then some (some attached, false) else none
  | .value _, none, none => none
  | .value accepts, none, some next =>
    if isValue next && accepts.ok next then some (some next, true) else none
  | .optionalValue _ default, none, none => some (some default, false)
  | .optionalValue accepts default, none, some next =>
    if !isValue next then some (some default, false)
    else if accepts.ok next then some (some next, true)
    else none

/-- A long option without its two dashes, and the argument that follows it, if there is one. The
result is what was given so far and whether that argument is used up. -/
def Grammar.long (grammar : Grammar) (given : Arguments) (option : Text) (next : Option Text) :
    Except Request (Arguments × Bool) :=
  let (name, attached) := splitAttached option
  if name = "help".toList then .error (if attached.isSome then .refused else .help)
  else if name = "version".toList then .error (if attached.isSome then .refused else .version)
  else if given.has name then .error .refused
  else
    match (grammar.options.lookup name).bind fun takes => takes.value? attached next with
    | some (value, used) => .ok (given.addOption name value, used)
    | none => .error .refused

/-- An option. Short ones can be written together; the first of them decides. -/
def Grammar.option (grammar : Grammar) (given : Arguments) (next : Option Text) :
    Text → Except Request (Arguments × Bool)
  | '-' :: '-' :: option => grammar.long given option next
  | '-' :: 'h' :: _ => .error .help
  | '-' :: 'V' :: _ => .error .version
  | _ => .error .refused

/-- An argument that is no option, if one more is allowed and this is a value for it. -/
def Grammar.positional? (grammar : Grammar) (given : Arguments) (value : Text) :
    Option Arguments :=
  match grammar.positionals[given.positionals.length]? with
  | some accepts => if accepts.ok value then some (given.addPositional value) else none
  | none => none

/-- Reads arguments after those that are already `given`. After `--` there are no more options. -/
def Grammar.readFrom (grammar : Grammar) (given : Arguments) (optionsEnded : Bool) :
    List Text → Request
  | [] => .run given
  | arg :: rest =>
    if optionsEnded || isValue arg then
      match grammar.positional? given arg with
      | some given => grammar.readFrom given optionsEnded rest
      | none => .refused
    else if arg = "--".toList then grammar.readFrom given true rest
    else
      match grammar.option given rest.head? arg, rest with
      | .error request, _ => request
      | .ok (given, true), _ :: rest => grammar.readFrom given false rest
      | .ok (given, _), rest => grammar.readFrom given false rest

def Grammar.read (grammar : Grammar) (args : List Text) : Request :=
  grammar.readFrom {} false args

end Uvm.Tool
