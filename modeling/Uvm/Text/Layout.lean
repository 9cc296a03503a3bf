import Uvm.Text.Basic

/-! Indented documents of nested arrays and objects: one item a line, two spaces deeper than
the bracket that holds it. -/
namespace Uvm.Text

/-- A document, given the depth at which it stands. -/
structure Layout where
  atDepth : Nat → Text

namespace Layout

def indent (depth : Nat) : Text := List.replicate (2 * depth) ' '

/-- A document on a single line. -/
def text (t : Text) : Layout := ⟨fun _ => t⟩

/-- Items between two brackets; without items the brackets stay together. -/
def bracketed (opening closing : Char) (items : List Layout) : Layout :=
  ⟨fun depth =>
    if items.isEmpty then [opening, closing]
    else
      [opening, '\n']
        ++ List.intercalate ",\n"
          (items.map fun item => indent (depth + 1) ++ item.atDepth (depth + 1))
        ++ "\n" ++ indent depth ++ [closing]⟩

def array (items : List Layout) : Layout := bracketed '[' ']' items

def object (members : List (Text × Layout)) : Layout :=
  bracketed '\x7b' '\x7d' (members.map fun (key, value) =>
    ⟨fun depth => '"' :: key ++ "\": " ++ value.atDepth depth⟩)

def render (layout : Layout) : Text := layout.atDepth 0

end Layout

end Uvm.Text
