import Uvm.Plan

/-! A file system as a value: a tree of entries under a root, and the folder that paths without a
leading slash start from. All that is in it can be read and written. -/
namespace Uvm

inductive Entry where
  | file (content : List UInt8)
  | folder
  /-- What is written to a device is lost, and nothing is read from it. -/
  | device
  deriving DecidableEq, Repr

/-- The names on the way from the root to an entry. -/
abbrev Place := List Text

structure Disk where
  entries : List (Place × Entry)
  home : Place
  deriving DecidableEq, Repr

namespace Disk

/-- The entry at a place; the root is at the empty place. -/
def entryAt (disk : Disk) : Place → Option Entry
  | [] => some .folder
  | place => (disk.entries.find? fun e => e.1 == place).map (·.2)

/-- Puts an entry at a place, instead of the one that is there. -/
def insert (disk : Disk) (place : Place) (entry : Entry) : Disk :=
  { disk with entries := disk.entries.filter (fun e => e.1 != place) ++ [(place, entry)] }

/-- The names in a path, without the empty ones. -/
def names (path : Text) : List Text := (path.splitOn '/').filter fun name => !name.isEmpty

/-- Puts an entry at a place, and folders on the way to it where there is nothing. -/
def install (disk : Disk) (place : Place) (entry : Entry) : Disk :=
  let way := ((List.range place.length).drop 1).map place.take
  let disk := way.foldl (fun d p => if (d.entryAt p).isSome then d else d.insert p .folder) disk
  disk.insert place entry

/-- A disk with an empty home and the null device. -/
def fresh : Disk :=
  let disk : Disk := { entries := [], home := ["tmp", "home"] }
  (disk.install ["dev", "null"] .device).install disk.home .folder

/-- A name of more than 255 bytes is too long. -/
def isTooLong (name : Text) : Bool := decide (255 < (utf8 name).length)

/-- A path of 4096 bytes or more is too long, wherever it leads. -/
def isTooLongPath (path : Text) : Bool := decide (4096 ≤ (utf8 path).length)

/-- A path that ends in a slash can only mean a folder. -/
def meansFolder (path : Text) : Bool := path.getLast? == some '/'

/-- Goes from a folder into the one with the given name. The root is in itself. -/
def enter (disk : Disk) (here : Place) (name : Text) : Except FileFault Place :=
  if name = ['.'] then .ok here
  else if name = ['.', '.'] then .ok here.dropLast
  else if isTooLong name then .error .nameTooLong
  else
    match disk.entryAt (here ++ [name]) with
    | none => .error .notFound
    | some .folder => .ok (here ++ [name])
    | some _ => .error .notDirectory

/-- Follows names that all have to lead to folders. -/
def follow (disk : Disk) (here : Place) : List Text → Except FileFault Place
  | [] => .ok here
  | name :: rest =>
    match disk.enter here name with
    | .error fault => .error fault
    | .ok here => disk.follow here rest

/-- What a path leads to: a folder by its dots or slashes alone, or a name in a folder. -/
inductive Target where
  | folder
  | name (parent : Place) (name : Text)
  deriving DecidableEq, Repr

/-- A path starts at the root if it starts with a slash, and at home otherwise. -/
def target (disk : Disk) (path : Text) : Except FileFault Target :=
  if path = [] then .error .notFound
  else if isTooLongPath path then .error .nameTooLong
  else
    let start := if path.head? = some '/' then [] else disk.home
    match disk.follow start (names path).dropLast with
    | .error fault => .error fault
    | .ok parent =>
      match (names path).getLast? with
      | none => .ok .folder
      | some name =>
        if name = ['.'] ∨ name = ['.', '.'] then .ok .folder else .ok (.name parent name)

def read (disk : Disk) (path : Text) : Except FileFault (List UInt8) :=
  match disk.target path with
  | .error fault => .error fault
  | .ok .folder => .error .isDirectory
  | .ok (.name parent name) =>
    if isTooLong name then .error .nameTooLong
    else
      match disk.entryAt (parent ++ [name]) with
      | none => .error .notFound
      | some .folder => .error .isDirectory
      | some (.file content) => if meansFolder path then .error .notDirectory else .ok content
      | some .device => if meansFolder path then .error .notDirectory else .ok []

/-- Writes a file. A path that means a folder is refused before its last name is looked at. -/
def write (disk : Disk) (path : Text) (content : List UInt8) : Disk × Except FileFault Unit :=
  match disk.target path with
  | .error fault => (disk, .error fault)
  | .ok .folder => (disk, .error .isDirectory)
  | .ok (.name parent name) =>
    if meansFolder path then (disk, .error .isDirectory)
    else if isTooLong name then (disk, .error .nameTooLong)
    else
      match disk.entryAt (parent ++ [name]) with
      | some .folder => (disk, .error .isDirectory)
      | some .device => (disk, .ok ())
      | _ => (disk.insert (parent ++ [name]) (.file content), .ok ())

def files : FileSystem Disk := ⟨read, write⟩

/-- The files of `after` that `before` does not hold with the same content. -/
def changes (before after : Disk) : List (Place × List UInt8) :=
  after.entries.filterMap fun (place, entry) =>
    match entry with
    | .file content => if before.entryAt place = some entry then none else some (place, content)
    | _ => none

end Disk

end Uvm
