import Uvm.Proofs.Generation
import Uvm.Proofs.Reading

/-! Sources without labels. Resolved commands, printed one a line, are a source that stands for the
same commands: nothing in it is taken for a label again, and the words are read back as they are.
Only the line numbers are new. -/
namespace Uvm

/-- A command without labels that can be read back from its printed line. -/
structure Command.Plain (command : Command) : Prop where
  named : .ofText command.mnemonic.text = command.mnemonic
  upper : Text.upper command.mnemonic.text = command.mnemonic.text
  word : Line.IsWord command.mnemonic.text
  operands : ∀ o ∈ command.operands, Line.IsOperand o ∧ Literal.looksNumeric o = true
  no_colon : command.source.getLast? ≠ some ':'

theorem Command.Plain.read {command : Command} (h : command.Plain) :
    Line.read command.source = .instruction command.mnemonic.text command.operands := by
  rw [read_source h.word (fun o ho => (h.operands o ho).1) h.no_colon, h.upper]

/-- A printed command is one line. -/
theorem Command.Plain.one_line {command : Command} (h : command.Plain) :
    command.source ≠ [] ∧ '\n' ∉ command.source ∧ '\r' ∉ command.source := by
  have hchar : ∀ c ∈ command.source, Text.isBlank c = false ∨ c = ' ' := by
    intro c hc
    rw [source_eq, List.mem_append] at hc
    rcases hc with hc | hc
    · exact .inl (h.word.whole c hc).1
    · rcases mem_tail hc with rfl | rfl | ⟨o, ho, hc⟩
      · exact .inr rfl
      · exact .inl (by decide)
      · exact .inl ((h.operands o ho).1.not_blank c hc)
  refine ⟨?_, fun hc => ?_, fun hc => ?_⟩
  · simp [source_eq, h.word.nonempty]
  · exact absurd (hchar _ hc) (by decide)
  · exact absurd (hchar _ hc) (by decide)

theorem linesOf_sources {commands : List Command} (h : ∀ c ∈ commands, c.Plain) :
    Program.linesOf (List.intercalate "\n" (commands.map Command.source)) =
      commands.map fun c => .instruction c.mnemonic.text c.operands := by
  rw [Program.linesOf, Text.lines_intercalate]
  · rw [List.map_map]
    exact List.map_congr_left fun c hc => (h c hc).read
  · intro t ht
    obtain ⟨c, hc, rfl⟩ := List.mem_map.mp ht
    exact (h c hc).one_line

namespace Program

theorem defsFrom_instructions (line index : Nat) (commands : List Command) :
    defsFrom line index (commands.map fun c => .instruction c.mnemonic.text c.operands) = [] := by
  induction commands generalizing line index with
  | nil => rfl
  | cons c rest ih => exact ih (line + 1) (index + 1)

theorem commandsFrom_instructions {commands : List Command}
    (h : ∀ c ∈ commands, .ofText c.mnemonic.text = c.mnemonic) (line : Nat) :
    commandsFrom line (commands.map fun c => .instruction c.mnemonic.text c.operands) =
      commands.mapIdx fun i c => { c with line := line + i } := by
  induction commands generalizing line with
  | nil => rfl
  | cons c rest ih =>
    have hrest := ih (fun d hd => h d (List.mem_cons_of_mem _ hd)) (line + 1)
    rw [List.map_cons, commandsFrom, hrest, h c List.mem_cons_self, List.mapIdx_cons]
    simp [Nat.add_assoc, Nat.add_comm 1]

end Program

theorem Labels.rewriteCommand_empty (command : Command) :
    (⟨[]⟩ : Labels).rewriteCommand command = command := by
  have hrewrite : (⟨[]⟩ : Labels).rewrite = id := rfl
  rw [rewriteCommand, hrewrite, List.map_id]

/-- Printed commands are a source of the same commands, numbered line by line. -/
theorem resolveSource_sources {commands : List Command} (h : ∀ c ∈ commands, c.Plain) :
    resolveSource (List.intercalate "\n" (commands.map Command.source)) =
      .ok (commands.mapIdx fun i c => { c with line := i + 1 }) := by
  have hcommands := Program.commandsFrom_instructions (fun c hc => (h c hc).named) 1
  have hdefs := Program.defsFrom_instructions 1 0 commands
  refine resolveSource_eq_ok_iff.mpr ?_
  rw [linesOf_sources h]
  refine ⟨⟨?_, ?_, ?_⟩, ?_⟩
  · simp [Program.table, hdefs]
  · simp [Program.table, Labels.names, hdefs]
  · intro c hc o ho
    rw [hcommands, List.mem_mapIdx] at hc
    obtain ⟨i, hi, rfl⟩ := hc
    exact .inr ((h _ (List.getElem_mem hi)).operands o ho).2
  · rw [Program.resolved, Program.table, hcommands, hdefs,
      List.map_congr_left fun c _ => Labels.rewriteCommand_empty c, List.map_id']
    simp only [Nat.add_comm 1]

theorem isOperand_decimal (n : Nat) : Line.IsOperand (Text.decimal n) := by
  refine ⟨Text.decimal_ne_nil n, fun c hc => ?_⟩
  have hmark := Text.isDigit_not_mark (Text.isDigit_of_mem_decimal hc)
  obtain ⟨hblank, hcomma, -, hsemicolon⟩ := Text.not_mark_iff.mp hmark
  exact ⟨Line.isOperandChar_iff.mpr ⟨hblank, hcomma⟩, hsemicolon⟩

theorem looksNumeric_decimal (n : Nat) : Literal.looksNumeric (Text.decimal n) = true :=
  (Literal.looksNumeric_iff (isOperand_decimal n).not_blank).mpr
    (Literal.denotes_decimal n).starts_with_digit

/-- No label is left in an operand that has been rewritten. -/
theorem Labels.Resolves.looksNumeric_rewrite {labels : Labels} {operand : Text}
    (h : labels.Resolves operand) : Literal.looksNumeric (labels.rewrite operand) = true := by
  unfold rewrite
  cases hget : labels.get? operand with
  | some index => exact looksNumeric_decimal index
  | none => exact h.resolve_left (by simp [hget])

theorem Labels.isOperand_rewrite {operand : Text} (h : Line.IsOperand operand) (labels : Labels) :
    Line.IsOperand (labels.rewrite operand) := by
  unfold rewrite
  cases labels.get? operand with
  | some index => exact isOperand_decimal index
  | none => exact h

/-- What the two passes make of a source can be printed and read back. -/
theorem plain_of_resolveSource {source : Text} {commands : List Command}
    (h : resolveSource source = .ok commands) {c : Command} (hc : c ∈ commands)
    (hcolon : c.source.getLast? ≠ some ':') : c.Plain := by
  obtain ⟨hlines, rfl⟩ := resolveSource_eq_ok_iff.mp h
  obtain ⟨c, hmem, rfl⟩ := List.mem_map.mp hc
  obtain ⟨mnemonic, hline, hname⟩ := Program.mem_commandsFrom_iff.mp ⟨c, hmem, rfl, rfl⟩
  obtain ⟨text, -, hread⟩ := List.mem_map.mp hline
  obtain ⟨⟨word, hword, rfl⟩, hoperands⟩ := Line.of_read_instruction hread
  have htext : c.mnemonic.text = Text.upper word := by rw [hname, Mnemonic.text_ofText]
  refine ⟨?_, ?_, ?_, ?_, hcolon⟩
  · simp only [Labels.rewriteCommand, hname, Mnemonic.text_ofText]
  · simp only [Labels.rewriteCommand, htext, Text.upper_upper]
  · simpa only [Labels.rewriteCommand, htext] using hword.upper
  · intro o ho
    obtain ⟨t, ht, rfl⟩ := List.mem_map.mp ho
    exact ⟨Labels.isOperand_rewrite (hoperands t ht) _,
      (hlines.operands_known c hmem t ht).looksNumeric_rewrite⟩

/-- The same cause with its lines counted another way. -/
def Cause.relocate (f : Nat → Nat) : Cause → Cause
  | .duplicateLabel name first => .duplicateLabel name (f first)
  | cause => cause

def Fault.relocate (f : Nat → Nat) (fault : Fault) : Fault :=
  ⟨f fault.line, fault.cause.relocate f⟩

def Command.relocate (f : Nat → Nat) (command : Command) : Command :=
  { command with line := f command.line }

/-- The same outcome, machine code and all, with the lines of its faults counted another way. -/
def relocate (f : Nat → Nat) : Except Fault Assembly → Except Fault Assembly
  | .ok a => .ok { a with diagnostics := a.diagnostics.map (Fault.relocate f) }
  | .error fault => .error (fault.relocate f)

theorem Command.encode_relocate (f : Nat → Nat) (policy : OnOverflow) (command : Command) :
    (command.relocate f).encode policy =
      match command.encode policy with
      | .ok e => .ok e
      | .error fault => .error (fault.relocate f) := by
  obtain ⟨mnemonic, operands, line⟩ := command
  cases mnemonic with
  | unsupported text => rfl
  | known op =>
    match operands with
    | [] => rfl
    | _ :: _ :: _ => rfl
    | [token] =>
      simp only [encode, relocate]
      cases hparse : Literal.parse token with
      | error fault => rfl
      | ok value =>
        cases hencode : Uvm.encode op value policy with
        | error overflow =>
          simp only [hencode]
          rfl
        | ok bytes => simp only [hencode]

theorem generate_relocate (f : Nat → Nat) (settings : Settings) (commands : List Command) :
    (generate settings (commands.map (Command.relocate f))).result =
      relocate f (generate settings commands).result := by
  induction commands with
  | nil => rfl
  | cons c rest ih =>
    rw [List.map_cons, generate_cons, generate_cons, Command.encode_relocate]
    cases c.encode settings.overflow with
    | ok e =>
      simp only [Traced.result_after, Traced.result_map, ih]
      cases (generate settings rest).result <;> rfl
    | error fault =>
      cases settings.errors with
      | failFast => rfl
      | bestEffort =>
        simp only [Traced.result_after, Traced.result_map, ih]
        cases (generate settings rest).result <;> rfl

/-- The line that the `n`-th of some commands came from, counted from 1. -/
def originalLine (commands : List Command) (n : Nat) : Nat :=
  ((commands[n - 1]?).map Command.line).getD 0

theorem relocate_originalLine (commands : List Command) :
    (commands.mapIdx fun i c => { c with line := i + 1 }).map
      (Command.relocate (originalLine commands)) = commands := by
  apply List.ext_getElem?
  intro i
  simp only [List.getElem?_map, List.getElem?_mapIdx]
  cases h : commands[i]? with
  | none => rfl
  | some c => simp [Command.relocate, originalLine, h]

/-- Printed commands have the outcome of the commands, each fault on the line of its command. -/
theorem generate_eq_assemble_sources {commands : List Command} (h : ∀ c ∈ commands, c.Plain)
    (settings : Settings) :
    (generate settings commands).result =
      relocate (originalLine commands)
        (assemble settings (List.intercalate "\n" (commands.map Command.source))) := by
  rw [assemble_of_resolveSource (resolveSource_sources h), ← generate_relocate,
    relocate_originalLine]

theorem eq_ok_of_relocate {f : Nat → Nat} {outcome : Except Fault Assembly} {bytes : List UInt8}
    (h : relocate f outcome = .ok ⟨bytes, []⟩) : outcome = .ok ⟨bytes, []⟩ := by
  cases outcome with
  | error fault => cases h
  | ok a =>
    obtain ⟨found, diagnostics⟩ := a
    simpa [relocate] using h

/-- Labels can be taken out of a source: its resolved commands, printed one a line, are a source of
the same commands in the same order, and under all settings it has the same outcome up to the line
numbers, each line standing for the line its command came from. -/
theorem resolved_commands_printed {source : Text} {commands : List Command}
    (h : resolveSource source = .ok commands)
    (hcolon : ∀ c ∈ commands, c.source.getLast? ≠ some ':') :
    resolveSource (List.intercalate "\n" (commands.map Command.source)) =
        .ok (commands.mapIdx fun i c => { c with line := i + 1 }) ∧
      ∃ f : Nat → Nat, (∀ i c, commands[i]? = some c → f (i + 1) = c.line) ∧
        ∀ settings, assemble settings source =
          relocate f (assemble settings (List.intercalate "\n" (commands.map Command.source))) := by
  have hplain : ∀ c ∈ commands, c.Plain := fun c hc => plain_of_resolveSource h hc (hcolon c hc)
  refine ⟨resolveSource_sources hplain, originalLine commands, ?_, fun settings => ?_⟩
  · intro i c hc
    simp [originalLine, hc]
  · rw [assemble_of_resolveSource h, generate_eq_assemble_sources hplain]

theorem resolved_commands_printed_with_labels :
    let source : Text := "top:\nload end\nnop 0xZZ,7 ; none\nend:\nSUB top"
    let commands : List Command := [⟨.known .load, ["2"], 2⟩,
      ⟨.unsupported "NOP", ["0xZZ", "7"], 3⟩, ⟨.known .sub, ["0"], 5⟩]
    resolveSource source = .ok commands ∧
      List.intercalate "\n" (commands.map Command.source) = ("LOAD 2\nNOP 0xZZ, 7\nSUB 0" : Text) ∧
      resolveSource "LOAD 2\nNOP 0xZZ, 7\nSUB 0" =
        .ok (commands.mapIdx fun i c => { c with line := i + 1 }) := by
  intro source commands
  have hsource : resolveSource source = .ok commands := by rfl
  have hprinted := (resolved_commands_printed hsource (by decide)).1
  have htext : List.intercalate "\n" (commands.map Command.source) =
      ("LOAD 2\nNOP 0xZZ, 7\nSUB 0" : Text) := by decide
  exact ⟨hsource, htext, htext ▸ hprinted⟩

end Uvm
