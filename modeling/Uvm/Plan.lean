import Uvm.Text.Numeral

/-! What a command line tool does with files, as a value: the files it asks for and the files
it writes, each with what happens next. The same plan runs on any file system, that of the machine
or one that is a value. -/
namespace Uvm

/-- A refusal by the file system. -/
structure FileFault where
  code : Nat
  text : Text
  deriving DecidableEq, Repr

namespace FileFault

def message (fault : FileFault) : Text :=
  fault.text ++ " (os error " ++ Text.decimal fault.code ++ ")"

def notFound : FileFault := ⟨2, "No such file or directory"⟩

def notDirectory : FileFault := ⟨20, "Not a directory"⟩

def isDirectory : FileFault := ⟨21, "Is a directory"⟩

def nameTooLong : FileFault := ⟨36, "File name too long"⟩

end FileFault

/-- A file system by its answers. A write leaves a state behind whether or not it is refused. -/
structure FileSystem (σ : Type) where
  read : σ → Text → Except FileFault (List UInt8)
  write : σ → Text → List UInt8 → σ × Except FileFault Unit

inductive Plan (α : Type) where
  | done (result : α)
  | read (path : Text) (next : Except FileFault (List UInt8) → Plan α)
  | write (path : Text) (content : List UInt8) (next : Except FileFault Unit → Plan α)

/-- The bytes of a text in UTF-8. -/
def utf8 (t : Text) : List UInt8 := (String.ofList t).toUTF8.data.toList

/-- The text of some bytes, if they are UTF-8. -/
def ofUtf8? (bytes : List UInt8) : Option Text :=
  (String.fromUTF8? ⟨bytes.toArray⟩).map String.toList

namespace Plan

variable {α β σ : Type}

def bind (plan : Plan α) (next : α → Plan β) : Plan β :=
  match plan with
  | done a => next a
  | read path k => .read path fun answer => (k answer).bind next
  | write path content k => .write path content fun answer => (k answer).bind next

/-- Reads a file as text; the error is a message. -/
def readText (path : Text) : Plan (Except Text Text) :=
  .read path fun
    | .error fault => .done (.error fault.message)
    | .ok bytes =>
      match ofUtf8? bytes with
      | some t => .done (.ok t)
      | none => .done (.error "stream did not contain valid UTF-8")

/-- Runs a plan on a file system in a given state. -/
def runOn (files : FileSystem σ) (s : σ) : Plan α → α × σ
  | .done result => (result, s)
  | .read path next => (next (files.read s path)).runOn files s
  | .write path content next =>
    let (after, answer) := files.write s path content
    (next answer).runOn files after

end Plan

end Uvm
