import Uvm.Proofs.Meaning

/-! What the first pass binds. Its commands are the instruction lines in order, each with the number
of its line, and a label stands for the place among the commands that its line separates: those
before it come from lines above, those from it on come from lines below. -/
namespace Uvm

namespace Line

def isLabel : Line → Bool
  | label _ => true
  | _ => false

theorem length_labelNames (lines : List Line) :
    (labelNames lines).length = lines.countP isLabel := by
  induction lines with
  | nil => rfl
  | cons l rest ih => cases l <;> simp [labelNames, isLabel, List.countP_cons, ih]

/-- Line number `l`, counted from 1, is this one. -/
def At (lines : List Line) (l : Nat) (line : Line) : Prop := ∃ p, lines[p]? = some line ∧ l = p + 1

variable {lines : List Line} {line other : Line} {l : Nat}

theorem At.unique (h : At lines l line) (hother : At lines l other) : line = other := by
  obtain ⟨p, hp, rfl⟩ := h
  obtain ⟨q, hq, hl⟩ := hother
  obtain rfl : p = q := by omega
  rw [hp] at hq
  exact Option.some.inj hq

theorem at_iff_append :
    At lines l line ↔ ∃ before after, lines = before ++ line :: after ∧ l = before.length + 1 := by
  constructor
  · rintro ⟨p, hp, rfl⟩
    obtain ⟨hlt, rfl⟩ := List.getElem?_eq_some_iff.mp hp
    refine ⟨lines.take p, lines.drop (p + 1), ?_, ?_⟩
    · rw [← List.drop_eq_getElem_cons hlt, List.take_append_drop]
    · rw [List.length_take, Nat.min_eq_left (Nat.le_of_lt hlt)]
  · rintro ⟨before, after, rfl, rfl⟩
    exact ⟨before.length, by simp, rfl⟩

end Line

namespace Program

theorem commandsFrom_append (line : Nat) (before after : List Line) :
    commandsFrom line (before ++ after) =
      commandsFrom line before ++ commandsFrom (line + before.length) after := by
  induction before generalizing line with
  | nil => rfl
  | cons l rest ih =>
    have hnext : line + 1 + rest.length = line + (l :: rest).length := by
      rw [List.length_cons]
      omega
    cases l <;> simp [commandsFrom, ih, hnext]

theorem length_commandsFrom (line : Nat) (lines : List Line) :
    (commandsFrom line lines).length = lines.countP Line.isInstruction := by
  have hlength := congrArg List.length (map_commandsFrom line lines)
  rw [List.length_map, List.length_map, Line.length_instructions] at hlength
  exact hlength

theorem mem_commandsFrom_iff_getElem? {line : Nat} {lines : List Line} {c : Command} :
    c ∈ commandsFrom line lines ↔
      ∃ p mnemonic operands, lines[p]? = some (.instruction mnemonic operands) ∧
        c = ⟨.ofText mnemonic, operands, line + p⟩ := by
  induction lines generalizing line with
  | nil => simp [commandsFrom]
  | cons l rest ih =>
    -- The command stands on the first line or on a later one, whose number counts from there.
    rw [← Nat.or_exists_add_one]
    cases l <;> simp [commandsFrom, ih, Nat.add_assoc, Nat.add_comm 1]

theorem mem_commandsFrom_one_iff {lines : List Line} {c : Command} :
    c ∈ commandsFrom 1 lines ↔
      ∃ mnemonic, Line.At lines c.line (.instruction mnemonic c.operands) ∧
        c.mnemonic = .ofText mnemonic := by
  rw [mem_commandsFrom_iff_getElem?]
  constructor
  · rintro ⟨p, mnemonic, operands, hp, rfl⟩
    exact ⟨mnemonic, ⟨p, hp, Nat.add_comm 1 p⟩, rfl⟩
  · rintro ⟨mnemonic, ⟨p, hp, hline⟩, hmnemonic⟩
    obtain ⟨cmnemonic, operands, line⟩ := c
    dsimp only at hp hline hmnemonic
    exact ⟨p, mnemonic, operands, hp, by rw [hmnemonic, hline, Nat.add_comm 1 p]⟩

/-- Commands come in the order of their lines. -/
theorem pairwise_line_commandsFrom (line : Nat) (lines : List Line) :
    (commandsFrom line lines).Pairwise fun c d => c.line < d.line := by
  induction lines generalizing line with
  | nil => exact .nil
  | cons l rest ih =>
    cases l with
    | blank => exact ih (line + 1)
    | label name => exact ih (line + 1)
    | instruction mnemonic operands =>
      refine List.pairwise_cons.mpr ⟨fun d hd => ?_, ih (line + 1)⟩
      obtain ⟨p, _, _, -, rfl⟩ := mem_commandsFrom_iff_getElem?.mp hd
      dsimp only
      omega

/-- The first `k` commands come from lines above `l` and the others from lines below it. -/
structure Separates (commands : List Command) (l k : Nat) : Prop where
  le_length : k ≤ commands.length
  above : ∀ c ∈ commands.take k, c.line < l
  below : ∀ c ∈ commands.drop k, l < c.line

/-- A command between two places would be above the line and below it. -/
theorem Separates.le {commands : List Command} {l j k : Nat} (hj : Separates commands l j)
    (hk : Separates commands l k) : j ≤ k := by
  by_contra hlt
  have hk_lt : k < commands.length := by
    have := hj.le_length
    omega
  have hmem_take : commands[k] ∈ commands.take j :=
    List.mem_take_iff_getElem.mpr ⟨k, by omega, rfl⟩
  have hmem_drop : commands[k] ∈ commands.drop k := by
    rw [List.drop_eq_getElem_cons hk_lt]
    exact List.mem_cons_self
  have habove := hj.above _ hmem_take
  have hbelow := hk.below _ hmem_drop
  omega

theorem Separates.unique {commands : List Command} {l j k : Nat} (hj : Separates commands l j)
    (hk : Separates commands l k) : j = k :=
  Nat.le_antisymm (hj.le hk) (hk.le hj)

/-- A label line separates the commands at the number of instructions before it. -/
theorem separates_of_label (before after : List Line) (name : Text) :
    Separates (commandsFrom 1 (before ++ .label name :: after)) (before.length + 1)
      (before.countP Line.isInstruction) := by
  have hsplit : commandsFrom 1 (before ++ .label name :: after) =
      commandsFrom 1 before ++ commandsFrom (1 + before.length + 1) after := by
    rw [commandsFrom_append]
    rfl
  rw [hsplit, ← length_commandsFrom 1 before]
  refine ⟨?_, fun c hc => ?_, fun c hc => ?_⟩
  · rw [List.length_append]
    exact Nat.le_add_right _ _
  · rw [List.take_left] at hc
    obtain ⟨p, _, _, hp, rfl⟩ := mem_commandsFrom_iff_getElem?.mp hc
    obtain ⟨hlt, -⟩ := List.getElem?_eq_some_iff.mp hp
    dsimp only
    omega
  · rw [List.drop_left] at hc
    obtain ⟨p, _, _, -, rfl⟩ := mem_commandsFrom_iff_getElem?.mp hc
    dsimp only
    omega

theorem ofLines_eq_ok_iff_wellLabelled {texts : List Text} {program : Program} :
    ofLines texts = .ok program ↔
      WellLabelled (texts.map Line.read) ∧
        program = ⟨commandsFrom 1 (texts.map Line.read), table (texts.map Line.read)⟩ := by
  rw [ofLines_eq_ok_iff, wellLabelled_iff, and_assoc]

theorem defines_iff {lines : List Line} {name : Text} {k : Nat} :
    Defines lines name k ↔
      ∃ l, Line.At lines l (.label name) ∧ Separates (commandsFrom 1 lines) l k := by
  constructor
  · rintro ⟨before, after, rfl, rfl⟩
    refine ⟨before.length + 1, ?_, separates_of_label before after name⟩
    exact Line.at_iff_append.mpr ⟨before, after, rfl, rfl⟩
  · rintro ⟨l, hline, hk⟩
    obtain ⟨before, after, rfl, rfl⟩ := Line.at_iff_append.mp hline
    exact ⟨before, after, rfl, hk.unique (separates_of_label before after name)⟩

theorem exists_separates {lines : List Line} {name : Text} {l : Nat}
    (h : Line.At lines l (.label name)) : ∃ k, Separates (commandsFrom 1 lines) l k := by
  obtain ⟨before, after, rfl, rfl⟩ := Line.at_iff_append.mp h
  exact ⟨_, separates_of_label before after name⟩

theorem get?_table_eq_some_iff {lines : List Line} (h : WellLabelled lines) {name : Text}
    {k : Nat} :
    (table lines).get? name = some k ↔
      ∃ l, Line.At lines l (.label name) ∧ Separates (commandsFrom 1 lines) l k :=
  (get?_table_iff h).trans defines_iff

theorem exists_get?_table_iff {lines : List Line} (h : WellLabelled lines) {name : Text} :
    (∃ k, (table lines).get? name = some k) ↔ ∃ l, Line.At lines l (.label name) := by
  constructor
  · rintro ⟨k, hk⟩
    obtain ⟨l, hline, -⟩ := (get?_table_eq_some_iff h).mp hk
    exact ⟨l, hline⟩
  · rintro ⟨l, hline⟩
    obtain ⟨k, hk⟩ := exists_separates hline
    exact ⟨k, (get?_table_eq_some_iff h).mpr ⟨l, hline, hk⟩⟩

/-- The first pass returns the instruction lines as commands, one each and in order, with the
numbers of their lines. The names it binds are those of the label lines, and each stands for the one
place that its line separates the commands at. -/
theorem ofLines_binds {texts : List Text} {program : Program}
    (h : ofLines texts = .ok program) :
    let lines := texts.map Line.read
    (∀ c, c ∈ program.commands ↔ ∃ mnemonic,
      Line.At lines c.line (.instruction mnemonic c.operands) ∧ c.mnemonic = .ofText mnemonic) ∧
    program.commands.Pairwise (fun c d => c.line < d.line) ∧
    program.commands.length = lines.countP Line.isInstruction ∧
    (∀ name, (∃ k, program.labels.get? name = some k) ↔ ∃ l, Line.At lines l (.label name)) ∧
    (∀ name l, Line.At lines l (.label name) → ∃ k, program.labels.get? name = some k ∧
      ∀ j, Separates program.commands l j ↔ j = k) ∧
    (∀ name, (¬ ∃ l, Line.At lines l (.label name)) → program.labels.get? name = none) ∧
    program.labels.size = lines.countP Line.isLabel := by
  intro lines
  obtain ⟨hlabels, rfl⟩ := ofLines_eq_ok_iff_wellLabelled.mp h
  refine ⟨fun c => mem_commandsFrom_one_iff, pairwise_line_commandsFrom 1 lines,
    length_commandsFrom 1 lines, fun name => exists_get?_table_iff hlabels, ?_, ?_, ?_⟩
  · intro name l hline
    obtain ⟨k, hk⟩ := exists_separates hline
    refine ⟨k, (get?_table_eq_some_iff hlabels).mpr ⟨l, hline, hk⟩, fun j => ⟨fun hj => ?_, ?_⟩⟩
    · exact hj.unique hk
    · rintro rfl
      exact hk
  · intro name hnone
    rw [Option.eq_none_iff_forall_ne_some]
    intro k hk
    exact hnone ((exists_get?_table_iff hlabels).mp ⟨k, hk⟩)
  · rw [← Line.length_labelNames, ← names_table, Labels.names, List.length_map]
    rfl

theorem ofLines_binds_trailing_label :
    let texts : List Text := ["LOAD end", "", "top: ; here", "SUB top", "end:"]
    let program : Program :=
      ⟨[⟨.known .load, ["end"], 1⟩, ⟨.known .sub, ["top"], 4⟩], ⟨[⟨"top", 1, 3⟩, ⟨"end", 2, 5⟩]⟩⟩
    ofLines texts = .ok program ∧ Line.At (texts.map Line.read) 5 (.label "end") ∧
      program.labels.get? "end" = some 2 ∧ ∀ j, Separates program.commands 5 j ↔ j = 2 := by
  intro texts program
  have hok : ofLines texts = .ok program := by rfl
  have hline : Line.At (texts.map Line.read) 5 (.label "end") := ⟨4, by decide, rfl⟩
  obtain ⟨-, -, -, -, hplace, -⟩ := ofLines_binds hok
  obtain ⟨k, hget, hunique⟩ := hplace _ 5 hline
  have htwo : program.labels.get? "end" = some 2 := by rfl
  rw [htwo] at hget
  obtain rfl : 2 = k := Option.some.inj hget
  exact ⟨hok, hline, htwo, hunique⟩

end Program

end Uvm
