import Uvm.Program
import Uvm.Proofs.Literal
import Mathlib.Data.List.Nodup

/-! The two passes over a source, each told apart from the other. What the first pass collects is
`commandsFrom` and `defsFrom`, two plain walks over the lines read, and it succeeds when all those
definitions can be made one after the other; the second pass succeeds when every operand has a
meaning, and then rewrites each on its own. -/
namespace Uvm

section Except

variable {ε α β : Type} {x : Except ε α} {e : ε} {b : β}

theorem map_eq_ok_iff {f : α → β} : x.map f = .ok b ↔ ∃ a, x = .ok a ∧ f a = b := by
  cases x <;> simp [Except.map]

theorem map_eq_error_iff {f : α → β} : x.map f = .error e ↔ x = .error e := by
  cases x <;> simp [Except.map]

theorem bind_eq_ok_iff {f : α → Except ε β} :
    x.bind f = .ok b ↔ ∃ a, x = .ok a ∧ f a = .ok b := by
  cases x <;> simp [Except.bind]

theorem bind_eq_error_iff {f : α → Except ε β} :
    x.bind f = .error e ↔ x = .error e ∨ ∃ a, x = .ok a ∧ f a = .error e := by
  cases x <;> simp [Except.bind]

end Except

namespace Program

/-- The commands of lines of which the first has number `line`. -/
def commandsFrom (line : Nat) : List Line → List Command
  | [] => []
  | .instruction mnemonic operands :: rest =>
    ⟨.ofText mnemonic, operands, line⟩ :: commandsFrom (line + 1) rest
  | _ :: rest => commandsFrom (line + 1) rest

/-- The definitions of labels in lines of which the first has number `line` and has `index`
instructions before it. -/
def defsFrom (line index : Nat) : List Line → List LabelDef
  | [] => []
  | .blank :: rest => defsFrom (line + 1) index rest
  | .label name :: rest => ⟨name, index, line⟩ :: defsFrom (line + 1) index rest
  | .instruction _ _ :: rest => defsFrom (line + 1) (index + 1) rest

end Program

namespace Labels

/-- The table with one definition more, if it can be made. -/
def extend (labels : Labels) (name : Text) (index line : Nat) : Except Fault Labels :=
  if !isName name then .error ⟨line, .badLabel name⟩
  else
    match labels.find? name with
    | some d => .error ⟨line, .duplicateLabel name d.line⟩
    | none => .ok ⟨labels.defs ++ [⟨name, index, line⟩]⟩

/-- A definition that is refused changes nothing in the table and in the log. -/
theorem define_eq (labels : Labels) (name : Text) (index line : Nat) :
    labels.define name index line =
      match labels.extend name index line with
      | .error fault => .failed labels fault
      | .ok after => .logged after (.labelDefined name index line) := by
  unfold define extend
  cases isName name with
  | false => rfl
  | true =>
    cases labels.find? name with
    | some d => rfl
    | none => rfl

/-- Makes definitions one after the other. -/
def extendAll (labels : Labels) : List LabelDef → Except Fault Labels
  | [] => .ok labels
  | d :: rest =>
    match labels.extend d.name d.index d.line with
    | .error fault => .error fault
    | .ok labels => labels.extendAll rest

end Labels

/-- The first pass is a walk that collects the commands and a walk that makes the definitions. -/
theorem Program.result_scanFrom (program : Program) (line : Nat) (texts : List Text) :
    (program.scanFrom line texts).finish.result =
      (program.labels.extendAll
        (defsFrom line program.commands.length (texts.map Line.read))).map fun labels =>
          ⟨program.commands ++ commandsFrom line (texts.map Line.read), labels⟩ := by
  induction texts generalizing program line with
  | nil => simp [scanFrom, defsFrom, commandsFrom, Labels.extendAll, Except.map]
  | cons text rest ih =>
    rw [scanFrom, scanLine, List.map_cons]
    cases hread : Line.read text with
    | blank => exact ih program (line + 1)
    | label name =>
      simp only [defsFrom, commandsFrom, Labels.extendAll, Labels.define_eq]
      cases program.labels.extend name program.commands.length line with
      | error fault => rfl
      | ok labels => exact ih { program with labels } (line + 1)
    | instruction mnemonic operands =>
      have hrest := ih
        { program with commands := program.commands ++ [⟨.ofText mnemonic, operands, line⟩] }
        (line + 1)
      simp only [List.length_append, List.length_singleton, List.append_assoc,
        List.singleton_append] at hrest
      exact hrest

namespace Labels

/-- Names a label may have, said character by character. -/
structure ValidName (name : Text) : Prop where
  nonempty : name ≠ []
  whole : ∀ c ∈ name, Text.isBlank c = false ∧ c ≠ ','
  not_numeric : ∀ c, name.head? = some c → c.isDigit = false

theorem isName_iff {name : Text} : isName name = true ↔ ValidName name := by
  have hparts : isName name = true ↔ name ≠ [] ∧ Literal.looksNumeric name = false ∧
      ∀ c ∈ name, Text.isBlank c = false ∧ c ≠ ',' := by
    simp [isName, and_assoc]
  rw [hparts]
  constructor
  · rintro ⟨hne, hnumeric, hwhole⟩
    refine ⟨hne, hwhole, fun c hc => ?_⟩
    rw [Bool.eq_false_iff] at hnumeric ⊢
    intro hdigit
    obtain ⟨rest, rfl⟩ := List.head?_eq_some_iff.mp hc
    have hstarts := Literal.looksNumeric_iff fun c hc => (hwhole c hc).1
    exact hnumeric (hstarts.mpr ⟨c, rest, rfl, hdigit⟩)
  · rintro ⟨hne, hwhole, hnot⟩
    refine ⟨hne, ?_, hwhole⟩
    rw [Bool.eq_false_iff]
    intro hnumeric
    obtain ⟨c, rest, rfl, hdigit⟩ :=
      (Literal.looksNumeric_iff fun c hc => (hwhole c hc).1).mp hnumeric
    rw [hnot c rfl] at hdigit
    cases hdigit

/-- The names bound so far. -/
def names (labels : Labels) : List Text := labels.defs.map LabelDef.name

theorem find?_eq_none_iff {labels : Labels} {name : Text} :
    labels.find? name = none ↔ name ∉ labels.names := by
  simp [find?, names]

theorem get?_eq_none_iff {labels : Labels} {name : Text} :
    labels.get? name = none ↔ name ∉ labels.names := by
  rw [get?, Option.map_eq_none_iff, find?_eq_none_iff]

theorem extend_eq_ok_iff {labels after : Labels} {name : Text} {index line : Nat} :
    labels.extend name index line = .ok after ↔
      ValidName name ∧ name ∉ labels.names ∧ after = ⟨labels.defs ++ [⟨name, index, line⟩]⟩ := by
  rw [← isName_iff, ← find?_eq_none_iff, extend]
  cases isName name with
  | false => simp
  | true =>
    cases labels.find? name with
    | some d => simp
    | none => simp [eq_comm]

/-- Definitions can be made one after the other when each name is allowed and none comes twice. -/
theorem extendAll_eq_ok_iff {labels after : Labels} {defs : List LabelDef}
    (hnodup : labels.names.Nodup) :
    labels.extendAll defs = .ok after ↔
      (∀ d ∈ defs, ValidName d.name) ∧ (labels.names ++ defs.map LabelDef.name).Nodup ∧
        after = ⟨labels.defs ++ defs⟩ := by
  induction defs generalizing labels with
  | nil => simp [extendAll, hnodup, eq_comm]
  | cons d rest ih =>
    have hsnoc : (⟨labels.defs ++ [d]⟩ : Labels).names = labels.names ++ [d.name] := by simp [names]
    rw [extendAll]
    cases hextend : labels.extend d.name d.index d.line with
    | error fault =>
      simp only [reduceCtorEq, false_iff]
      rintro ⟨hvalid, hdistinct, -⟩
      have hfresh : d.name ∉ labels.names := by
        intro hmem
        exact (List.nodup_append.mp hdistinct).2.2 _ hmem _ List.mem_cons_self rfl
      have hok : labels.extend d.name d.index d.line = .ok ⟨labels.defs ++ [d]⟩ :=
        extend_eq_ok_iff.mpr ⟨hvalid d List.mem_cons_self, hfresh, rfl⟩
      rw [hextend] at hok
      cases hok
    | ok next =>
      obtain ⟨hvalid, hfresh, rfl⟩ := extend_eq_ok_iff.mp hextend
      have hnext : (⟨labels.defs ++ [d]⟩ : Labels).names.Nodup := by
        rw [hsnoc, ← List.concat_eq_append]
        exact List.Nodup.concat hfresh hnodup
      simp only [ih hnext, hsnoc, List.append_assoc, List.singleton_append, List.map_cons,
        List.forall_mem_cons, hvalid, true_and]

theorem extendAll_empty_eq_ok_iff {after : Labels} {defs : List LabelDef} :
    empty.extendAll defs = .ok after ↔
      (∀ d ∈ defs, ValidName d.name) ∧ (defs.map LabelDef.name).Nodup ∧ after = ⟨defs⟩ := by
  have hempty : empty.names.Nodup := List.nodup_nil
  exact extendAll_eq_ok_iff hempty

/-- With distinct names, a name stands for the index of its only definition. -/
theorem get?_eq_some_iff {labels : Labels} (hnodup : labels.names.Nodup) {name : Text} {k : Nat} :
    labels.get? name = some k ↔ ∃ d ∈ labels.defs, d.name = name ∧ d.index = k := by
  rw [get?, Option.map_eq_some_iff]
  constructor
  · rintro ⟨d, hd, rfl⟩
    exact ⟨d, List.mem_of_find?_eq_some hd, by simpa using List.find?_some hd, rfl⟩
  · rintro ⟨d, hd, rfl, rfl⟩
    cases hfind : labels.find? d.name with
    | none => exact absurd (List.mem_map_of_mem hd) (find?_eq_none_iff.mp hfind)
    | some e =>
      have hname : e.name = d.name := by simpa using List.find?_some hfind
      have heq : e = d := List.inj_on_of_nodup_map hnodup (List.mem_of_find?_eq_some hfind) hd hname
      exact ⟨e, rfl, by rw [heq]⟩

/-- Operands with a meaning are labels and what is meant as a literal. -/
def Resolves (labels : Labels) (operand : Text) : Prop :=
  (labels.get? operand).isSome = true ∨ Literal.looksNumeric operand = true

/-- The operand with its index in place of a label. -/
def rewrite (labels : Labels) (operand : Text) : Text :=
  match labels.get? operand with
  | some index => Text.decimal index
  | none => operand

def rewriteCommand (labels : Labels) (command : Command) : Command :=
  { command with operands := command.operands.map labels.rewrite }

theorem resolveOperand_eq_ok_iff {labels : Labels} {line : Nat} {operand t : Text} :
    labels.resolveOperand line operand = .ok t ↔
      labels.Resolves operand ∧ t = labels.rewrite operand := by
  unfold resolveOperand Resolves rewrite
  cases labels.get? operand with
  | some index =>
    simp only [Except.ok.injEq, Option.isSome_some, true_or, true_and]
    exact eq_comm
  | none =>
    by_cases hnumeric : Literal.looksNumeric operand = true
    · simp only [hnumeric, ↓reduceIte, Except.ok.injEq, or_true, true_and]
      exact eq_comm
    · simp [hnumeric]

theorem resolveOperands_eq_ok_iff {labels : Labels} {line : Nat} {operands ts : List Text} :
    labels.resolveOperands line operands = .ok ts ↔
      (∀ o ∈ operands, labels.Resolves o) ∧ ts = operands.map labels.rewrite := by
  induction operands generalizing ts with
  | nil => simp [resolveOperands, eq_comm]
  | cons operand rest ih =>
    rw [resolveOperands, List.forall_mem_cons, List.map_cons]
    cases hfirst : labels.resolveOperand line operand with
    | error fault =>
      have hnot : ¬ labels.Resolves operand := by
        intro h
        rw [resolveOperand_eq_ok_iff.mpr ⟨h, rfl⟩] at hfirst
        cases hfirst
      simp [hnot]
    | ok t =>
      obtain ⟨hresolves, rfl⟩ := resolveOperand_eq_ok_iff.mp hfirst
      simp only [map_eq_ok_iff, ih, hresolves, true_and]
      constructor
      · rintro ⟨_, ⟨hrest, rfl⟩, rfl⟩
        exact ⟨hrest, rfl⟩
      · rintro ⟨hrest, rfl⟩
        exact ⟨_, ⟨hrest, rfl⟩, rfl⟩

/-- The second pass succeeds when every operand has a meaning, and changes operands only. -/
theorem resolve_eq_ok_iff {labels : Labels} {commands after : List Command} :
    labels.resolve commands = .ok after ↔
      (∀ c ∈ commands, ∀ o ∈ c.operands, labels.Resolves o) ∧
        after = commands.map labels.rewriteCommand := by
  induction commands generalizing after with
  | nil => simp [resolve, eq_comm]
  | cons command rest ih =>
    rw [resolve, List.forall_mem_cons, List.map_cons]
    cases hfirst : labels.resolveOperands command.line command.operands with
    | error fault =>
      have hnot : ¬ ∀ o ∈ command.operands, labels.Resolves o := by
        intro h
        rw [resolveOperands_eq_ok_iff.mpr ⟨h, rfl⟩] at hfirst
        cases hfirst
      simp only [reduceCtorEq, false_iff]
      exact fun h => hnot h.1.1
    | ok operands =>
      obtain ⟨hresolves, rfl⟩ := resolveOperands_eq_ok_iff.mp hfirst
      simp only [map_eq_ok_iff, ih]
      constructor
      · rintro ⟨_, ⟨hrest, rfl⟩, rfl⟩
        exact ⟨⟨hresolves, hrest⟩, rfl⟩
      · rintro ⟨⟨-, hrest⟩, rfl⟩
        exact ⟨_, ⟨hrest, rfl⟩, rfl⟩

end Labels

namespace Program

/-- The lines of a source as they are read. -/
def linesOf (source : Text) : List Line := (Text.lines source).map Line.read

/-- The labels of the lines of a source. -/
def table (lines : List Line) : Labels := ⟨defsFrom 1 0 lines⟩

/-- The commands of the lines of a source, labels replaced. -/
def resolved (lines : List Line) : List Command :=
  (commandsFrom 1 lines).map (table lines).rewriteCommand

/-- All labels can be defined and all operands have a meaning. -/
structure Resolvable (lines : List Line) : Prop where
  names_valid : ∀ d ∈ (table lines).defs, Labels.ValidName d.name
  names_distinct : (table lines).names.Nodup
  operands_known : ∀ c ∈ commandsFrom 1 lines, ∀ o ∈ c.operands, (table lines).Resolves o

end Program

theorem Program.ofLines_eq_map (texts : List Text) :
    ofLines texts = (Labels.empty.extendAll (table (texts.map Line.read)).defs).map fun labels =>
      ⟨commandsFrom 1 (texts.map Line.read), labels⟩ :=
  result_scanFrom .empty 1 texts

theorem Program.ofLines_eq_ok_iff {texts : List Text} {program : Program} :
    ofLines texts = .ok program ↔
      (∀ d ∈ (table (texts.map Line.read)).defs, Labels.ValidName d.name) ∧
        (table (texts.map Line.read)).names.Nodup ∧
        program = ⟨commandsFrom 1 (texts.map Line.read), table (texts.map Line.read)⟩ := by
  rw [ofLines_eq_map, map_eq_ok_iff]
  simp only [Labels.extendAll_empty_eq_ok_iff]
  constructor
  · rintro ⟨labels, ⟨hvalid, hdistinct, rfl⟩, rfl⟩
    exact ⟨hvalid, hdistinct, rfl⟩
  · rintro ⟨hvalid, hdistinct, rfl⟩
    exact ⟨_, ⟨hvalid, hdistinct, rfl⟩, rfl⟩

theorem resolve_eq_bind (texts : List Text) :
    resolve texts = (Program.ofLines texts).bind Program.resolve := by
  rw [resolve, resolveTraced, Traced.result_andThen]
  rfl

theorem resolve_eq_ok_iff {texts : List Text} {commands : List Command} :
    resolve texts = .ok commands ↔
      Program.Resolvable (texts.map Line.read) ∧
        commands = Program.resolved (texts.map Line.read) := by
  rw [resolve_eq_bind, bind_eq_ok_iff]
  simp only [Program.ofLines_eq_ok_iff, Program.resolve, Labels.resolve_eq_ok_iff]
  constructor
  · rintro ⟨_, ⟨hvalid, hdistinct, rfl⟩, hknown, rfl⟩
    exact ⟨⟨hvalid, hdistinct, hknown⟩, rfl⟩
  · rintro ⟨hlines, rfl⟩
    exact ⟨_, ⟨hlines.names_valid, hlines.names_distinct, rfl⟩, hlines.operands_known, rfl⟩

theorem resolveSource_eq_ok_iff {source : Text} {commands : List Command} :
    resolveSource source = .ok commands ↔
      Program.Resolvable (Program.linesOf source) ∧
        commands = Program.resolved (Program.linesOf source) :=
  resolve_eq_ok_iff

namespace Line

def isInstruction : Line → Bool
  | instruction _ _ => true
  | _ => false

/-- The words of the instruction lines, in order: the mnemonic and the operands. -/
def instructions : List Line → List (Text × List Text)
  | [] => []
  | instruction mnemonic operands :: rest => (mnemonic, operands) :: instructions rest
  | _ :: rest => instructions rest

/-- The names of the label lines, in order. -/
def labelNames : List Line → List Text
  | [] => []
  | label name :: rest => name :: labelNames rest
  | _ :: rest => labelNames rest

theorem mem_instructions_iff {lines : List Line} {mnemonic : Text} {operands : List Text} :
    (mnemonic, operands) ∈ instructions lines ↔ .instruction mnemonic operands ∈ lines := by
  induction lines with
  | nil => simp [instructions]
  | cons l rest ih => cases l <;> simp [instructions, ih]

theorem mem_labelNames_iff {lines : List Line} {name : Text} :
    name ∈ labelNames lines ↔ .label name ∈ lines := by
  induction lines with
  | nil => simp [labelNames]
  | cons l rest ih => cases l <;> simp [labelNames, ih]

theorem length_instructions (lines : List Line) :
    (instructions lines).length = lines.countP isInstruction := by
  induction lines with
  | nil => rfl
  | cons l rest ih => cases l <;> simp [instructions, isInstruction, List.countP_cons, ih]

end Line

namespace Program

theorem map_name_defsFrom (line index : Nat) (lines : List Line) :
    (defsFrom line index lines).map LabelDef.name = Line.labelNames lines := by
  induction lines generalizing line index with
  | nil => rfl
  | cons l rest ih => cases l <;> simp [defsFrom, Line.labelNames, ih]

theorem map_commandsFrom (line : Nat) (lines : List Line) :
    (commandsFrom line lines).map (fun c => (c.mnemonic, c.operands)) =
      (Line.instructions lines).map fun i => (.ofText i.1, i.2) := by
  induction lines generalizing line with
  | nil => rfl
  | cons l rest ih => cases l <;> simp [commandsFrom, Line.instructions, ih]

/-- Commands stand on instruction lines. -/
theorem mem_commandsFrom_iff {line : Nat} {lines : List Line} {mnemonic : Mnemonic}
    {operands : List Text} :
    (∃ c ∈ commandsFrom line lines, c.mnemonic = mnemonic ∧ c.operands = operands) ↔
      ∃ text, .instruction text operands ∈ lines ∧ mnemonic = .ofText text := by
  have hmem : (mnemonic, operands) ∈
        (commandsFrom line lines).map (fun c => (c.mnemonic, c.operands)) ↔
      (mnemonic, operands) ∈ (Line.instructions lines).map fun i => (.ofText i.1, i.2) := by
    rw [map_commandsFrom]
  simp only [List.mem_map, Prod.exists, Prod.mk.injEq] at hmem
  rw [hmem]
  constructor
  · rintro ⟨text, _, hline, rfl, rfl⟩
    exact ⟨text, Line.mem_instructions_iff.mp hline, rfl⟩
  · rintro ⟨text, hline, rfl⟩
    exact ⟨text, operands, Line.mem_instructions_iff.mpr hline, rfl, rfl⟩

/-- A definition stands on a label line; its index counts the instructions before that line. -/
theorem mem_defsFrom_iff {line index : Nat} {lines : List Line} {d : LabelDef} :
    d ∈ defsFrom line index lines ↔
      ∃ before after, lines = before ++ .label d.name :: after ∧
        d.index = index + before.countP Line.isInstruction ∧ d.line = line + before.length := by
  induction lines generalizing line index with
  | nil => simp [defsFrom]
  | cons l rest ih =>
    -- The line is the one that defines, or it stands before the one that does.
    have hsplit (P : List Line → Prop) :
        (∃ before after, l :: rest = before ++ .label d.name :: after ∧ P before) ↔
          (l = .label d.name ∧ P []) ∨
          ∃ before after, rest = before ++ .label d.name :: after ∧ P (l :: before) := by
      constructor
      · rintro ⟨before, after, heq, hp⟩
        cases before with
        | nil => exact .inl ⟨(List.cons.inj heq).1, hp⟩
        | cons b before =>
          obtain ⟨rfl, rfl⟩ := List.cons.inj heq
          exact .inr ⟨before, after, rfl, hp⟩
      · rintro (⟨rfl, hp⟩ | ⟨before, after, rfl, hp⟩)
        · exact ⟨[], rest, rfl, hp⟩
        · exact ⟨l :: before, after, rfl, hp⟩
    rw [hsplit]
    cases l with
    | blank => simp [defsFrom, ih, Line.isInstruction, Nat.add_assoc, Nat.add_comm 1]
    | label name =>
      obtain ⟨dname, dindex, dline⟩ := d
      simp [defsFrom, ih, Line.isInstruction, Nat.add_assoc, Nat.add_comm 1, eq_comm]
    | instruction mnemonic operands =>
      simp [defsFrom, ih, List.countP_cons, Line.isInstruction, Nat.add_assoc, Nat.add_comm 1]

end Program

end Uvm
