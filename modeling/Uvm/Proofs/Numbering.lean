import Uvm.Proofs.Binding
import Uvm.Proofs.LabelFree

/-! Lines and their numbers. All that matters of some lines is what those that are not blank say, in
which order, and which numbers they go by. When these lines go by other numbers, everything comes
out as before with the new numbers in place of the old ones. -/
namespace Uvm

namespace Line

/-- The lines that are not blank, each with its number; the first line has number `number`. -/
def contentFrom (number : Nat) : List Line → List (Nat × Line)
  | [] => []
  | blank :: rest => contentFrom (number + 1) rest
  | line :: rest => (number, line) :: contentFrom (number + 1) rest

def content (lines : List Line) : List (Nat × Line) := contentFrom 1 lines

theorem contentFrom_append (number : Nat) (above below : List Line) :
    contentFrom number (above ++ below) =
      contentFrom number above ++ contentFrom (number + above.length) below := by
  induction above generalizing number with
  | nil => rfl
  | cons line rest ih =>
    have hnext : number + 1 + rest.length = number + (line :: rest).length := by
      rw [List.length_cons]
      omega
    cases line <;> simp [contentFrom, ih, hnext]

theorem contentFrom_cons {line : Line} (h : line ≠ .blank) (number : Nat) (rest : List Line) :
    contentFrom number (line :: rest) = (number, line) :: contentFrom (number + 1) rest := by
  cases line with
  | blank => exact absurd rfl h
  | label name => rfl
  | instruction mnemonic operands => rfl

theorem mem_contentFrom_iff {number n : Nat} {lines : List Line} {line : Line} :
    (n, line) ∈ contentFrom number lines ↔
      line ≠ .blank ∧ ∃ p, lines[p]? = some line ∧ n = number + p := by
  induction lines generalizing number with
  | nil => simp [contentFrom]
  | cons first rest ih =>
    -- The line is the first one or a later one, whose number counts from there.
    rw [← Nat.or_exists_add_one]
    by_cases hblank : first = .blank
    · subst hblank
      constructor
      · intro h
        obtain ⟨hne, p, hp, rfl⟩ := ih.mp h
        exact ⟨hne, .inr ⟨p, hp, by omega⟩⟩
      · rintro ⟨hne, ⟨hfirst, -⟩ | ⟨p, hp, rfl⟩⟩
        · exact absurd (Option.some.inj hfirst).symm hne
        · exact ih.mpr ⟨hne, p, hp, by omega⟩
    · rw [contentFrom_cons hblank, List.mem_cons, ih, Prod.mk.injEq]
      constructor
      · rintro (⟨rfl, rfl⟩ | ⟨hne, p, hp, rfl⟩)
        · exact ⟨hblank, .inl ⟨rfl, rfl⟩⟩
        · exact ⟨hne, .inr ⟨p, hp, by omega⟩⟩
      · rintro ⟨hne, ⟨hfirst, rfl⟩ | ⟨p, hp, rfl⟩⟩
        · exact .inl ⟨rfl, (Option.some.inj hfirst).symm⟩
        · exact .inr ⟨hne, p, hp, by omega⟩

theorem mem_content_iff {lines : List Line} {n : Nat} {line : Line} :
    (n, line) ∈ content lines ↔ At lines n line ∧ line ≠ .blank := by
  rw [content, mem_contentFrom_iff, At, and_comm]
  simp only [Nat.add_comm 1]

theorem contentFrom_add (number k : Nat) (lines : List Line) :
    contentFrom (number + k) lines = (contentFrom number lines).map (Prod.map (· + k) id) := by
  induction lines generalizing number with
  | nil => rfl
  | cons line rest ih =>
    have hrest := ih (number + 1)
    rw [Nat.add_right_comm] at hrest
    cases line <;> simp [contentFrom, hrest]

end Line

namespace Program

/-- The command on a numbered line. -/
def command? : Nat × Line → Option Command
  | (n, .instruction mnemonic operands) => some ⟨.ofText mnemonic, operands, n⟩
  | _ => none

/-- The definitions of labels on numbered lines, after `index` instructions. -/
def bindings (index : Nat) : List (Nat × Line) → List LabelDef
  | [] => []
  | (_, .blank) :: rest => bindings index rest
  | (n, .label name) :: rest => ⟨name, index, n⟩ :: bindings index rest
  | (_, .instruction _ _) :: rest => bindings (index + 1) rest

theorem commandsFrom_eq_filterMap (number : Nat) (lines : List Line) :
    commandsFrom number lines = (Line.contentFrom number lines).filterMap command? := by
  induction lines generalizing number with
  | nil => rfl
  | cons line rest ih =>
    cases line <;> simp [commandsFrom, Line.contentFrom, command?, List.filterMap_cons, ih]

theorem defsFrom_eq_bindings (number index : Nat) (lines : List Line) :
    defsFrom number index lines = bindings index (Line.contentFrom number lines) := by
  induction lines generalizing number index with
  | nil => rfl
  | cons line rest ih => cases line <;> simp [defsFrom, Line.contentFrom, bindings, ih]

end Program

def LabelDef.relocate (f : Nat → Nat) (d : LabelDef) : LabelDef := { d with line := f d.line }

def Labels.relocate (f : Nat → Nat) (labels : Labels) : Labels :=
  ⟨labels.defs.map (LabelDef.relocate f)⟩

/-- An outcome with the lines of its fault counted another way and its value mapped. -/
def renumber {α β : Type} (f : Nat → Nat) (g : α → β) : Except Fault α → Except Fault β
  | .ok a => .ok (g a)
  | .error fault => .error (fault.relocate f)

namespace Program

variable (f : Nat → Nat)

theorem filterMap_command?_map (lines : List (Nat × Line)) :
    (lines.map (Prod.map f id)).filterMap command? =
      (lines.filterMap command?).map (Command.relocate f) := by
  rw [List.filterMap_map, List.map_filterMap]
  apply List.filterMap_congr
  rintro ⟨n, line⟩ -
  cases line <;> rfl

theorem bindings_map (index : Nat) (lines : List (Nat × Line)) :
    bindings index (lines.map (Prod.map f id)) =
      (bindings index lines).map (LabelDef.relocate f) := by
  induction lines generalizing index with
  | nil => rfl
  | cons first rest ih =>
    obtain ⟨n, line⟩ := first
    cases line <;> simp [bindings, ih, LabelDef.relocate]

theorem commandsFrom_add (number k : Nat) (lines : List Line) :
    commandsFrom (number + k) lines =
      (commandsFrom number lines).map (Command.relocate (· + k)) := by
  rw [commandsFrom_eq_filterMap, Line.contentFrom_add, filterMap_command?_map,
    ← commandsFrom_eq_filterMap]

end Program

namespace Labels

variable (f : Nat → Nat) (labels : Labels)

theorem find?_relocate (name : Text) :
    (labels.relocate f).find? name = (labels.find? name).map (LabelDef.relocate f) := by
  rw [find?, relocate, List.find?_map]
  rfl

theorem get?_relocate (name : Text) : (labels.relocate f).get? name = labels.get? name := by
  rw [get?, find?_relocate, Option.map_map]
  rfl

theorem extend_relocate (name : Text) (index line : Nat) :
    (labels.relocate f).extend name index (f line) =
      renumber f (relocate f) (labels.extend name index line) := by
  rw [extend, extend, find?_relocate]
  cases isName name with
  | false => rfl
  | true =>
    cases labels.find? name with
    | some d => rfl
    | none => simp [renumber, relocate, LabelDef.relocate]

theorem extendAll_relocate (defs : List LabelDef) :
    (labels.relocate f).extendAll (defs.map (LabelDef.relocate f)) =
      renumber f (relocate f) (labels.extendAll defs) := by
  induction defs generalizing labels with
  | nil => rfl
  | cons d rest ih =>
    have hextend := labels.extend_relocate f d.name d.index d.line
    rw [List.map_cons, extendAll, extendAll, LabelDef.relocate]
    dsimp only
    rw [hextend]
    cases labels.extend d.name d.index d.line with
    | error fault => rfl
    | ok next => exact ih next

theorem resolveOperand_relocate (line : Nat) (operand : Text) :
    (labels.relocate f).resolveOperand (f line) operand =
      renumber f id (labels.resolveOperand line operand) := by
  rw [resolveOperand, resolveOperand, get?_relocate]
  cases labels.get? operand with
  | some index => rfl
  | none =>
    by_cases hnumeric : Literal.looksNumeric operand = true
    · simp [hnumeric, renumber]
    · simp [hnumeric, renumber, Fault.relocate, Cause.relocate]

theorem resolveOperands_relocate (line : Nat) (operands : List Text) :
    (labels.relocate f).resolveOperands (f line) operands =
      renumber f id (labels.resolveOperands line operands) := by
  induction operands with
  | nil => rfl
  | cons operand rest ih =>
    rw [resolveOperands, resolveOperands, resolveOperand_relocate]
    cases labels.resolveOperand line operand with
    | error fault => rfl
    | ok t =>
      simp only [renumber, ih]
      cases labels.resolveOperands line rest <;> rfl

theorem resolve_relocate (commands : List Command) :
    (labels.relocate f).resolve (commands.map (Command.relocate f)) =
      renumber f (List.map (Command.relocate f)) (labels.resolve commands) := by
  induction commands with
  | nil => rfl
  | cons command rest ih =>
    have hoperands := labels.resolveOperands_relocate f command.line command.operands
    rw [List.map_cons, resolve, resolve, Command.relocate]
    dsimp only
    rw [hoperands]
    cases labels.resolveOperands command.line command.operands with
    | error fault => rfl
    | ok operands =>
      simp only [renumber, ih]
      cases labels.resolve rest <;> rfl

end Labels

/-- The same lines but for blank ones, line `n` now going by the number `f n`. -/
def Line.Renumbered (f : Nat → Nat) (lines other : List Line) : Prop :=
  content other = (content lines).map (Prod.map f id)

namespace Program

variable {f : Nat → Nat} {texts others : List Text}

/-- The first pass makes the same of renumbered lines, with the new numbers. -/
theorem ofLines_renumbered (h : Line.Renumbered f (texts.map Line.read) (others.map Line.read)) :
    ofLines others =
      renumber f (fun p => ⟨p.commands.map (Command.relocate f), p.labels.relocate f⟩)
        (ofLines texts) := by
  have hcommands : commandsFrom 1 (others.map Line.read) =
      (commandsFrom 1 (texts.map Line.read)).map (Command.relocate f) := by
    rw [commandsFrom_eq_filterMap, commandsFrom_eq_filterMap, ← filterMap_command?_map]
    exact congrArg (List.filterMap command?) h
  have hdefs : (table (others.map Line.read)).defs =
      (table (texts.map Line.read)).defs.map (LabelDef.relocate f) := by
    rw [table, table, defsFrom_eq_bindings, defsFrom_eq_bindings, ← bindings_map]
    exact congrArg (bindings 0) h
  have hempty : Labels.empty.extendAll (table (others.map Line.read)).defs =
      renumber f (Labels.relocate f)
        (Labels.empty.extendAll (table (texts.map Line.read)).defs) := by
    rw [hdefs]
    exact Labels.empty.extendAll_relocate f _
  rw [ofLines_eq_map, ofLines_eq_map, hempty, hcommands]
  cases Labels.empty.extendAll (table (texts.map Line.read)).defs <;> rfl

end Program

theorem resolve_renumbered {f : Nat → Nat} {texts others : List Text}
    (h : Line.Renumbered f (texts.map Line.read) (others.map Line.read)) :
    resolve others = renumber f (List.map (Command.relocate f)) (resolve texts) := by
  rw [resolve_eq_bind, resolve_eq_bind, Program.ofLines_renumbered h]
  cases Program.ofLines texts with
  | error fault => rfl
  | ok p => exact p.labels.resolve_relocate f p.commands

/-- Renumbered lines assemble to the same machine code, and their faults go by the new numbers. -/
theorem assemble_renumbered {f : Nat → Nat} {source other : Text}
    (h : Line.Renumbered f (Program.linesOf source) (Program.linesOf other))
    (settings : Settings) :
    assemble settings other = relocate f (assemble settings source) := by
  rw [assemble_eq_bind, assemble_eq_bind, resolveSource, resolveSource, resolve_renumbered h]
  cases resolve (Text.lines source) with
  | error fault => rfl
  | ok commands => exact generate_relocate f settings commands

end Uvm
