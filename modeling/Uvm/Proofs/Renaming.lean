import Uvm.Proofs.Meaning
import Mathlib.Data.List.Find
import Mathlib.Data.Set.Function

/-! Label names are only names. Labels can be given other names, each its own, on their lines and
wherever an operand uses them, and the lines still stand for the same commands. No name is taken for
a literal, so no literal is caught by a new name, and an instruction is printed with a comma at its
end, so a name that ends in a colon makes no label of it. -/
namespace Uvm

namespace Line

/-- Names that can be printed as labels and as operands. -/
structure Printable (name : Text) : Prop extends Labels.ValidName name where
  no_comment : ';' ∉ name

theorem Printable.isOperand {name : Text} (h : Printable name) : IsOperand name := by
  refine ⟨h.nonempty, fun c hc => ⟨isOperandChar_iff.mpr (h.whole c hc), ?_⟩⟩
  rintro rfl
  exact h.no_comment hc

theorem read_printed_label {name : Text} (h : Printable name) :
    read (name ++ ":") = .label name := by
  have hblank : ∀ c ∈ name, Text.isBlank c = false := fun c hc => (h.whole c hc).1
  have hcomment : ';' ∉ name ++ [':'] := by simp [h.no_comment]
  have htrim : Text.trim (name ++ [':']) = name ++ [':'] := by
    apply Text.trim_eq_self_of_no_blank
    rw [List.forall_mem_append]
    exact ⟨hblank, List.forall_mem_singleton.mpr (by decide)⟩
  have hbody : body (name ++ [':']) = name ++ [':'] := by rw [body_of_no_comment hcomment, htrim]
  change read (name ++ [':']) = .label name
  rw [read_eq_ofBody, hbody, ofBody, if_neg (by simp), if_pos (by simp), List.dropLast_concat,
    Text.trim_eq_self_of_no_blank hblank]

theorem read_printed_instruction {mnemonic : Text} {operands : List Text} (hword : IsWord mnemonic)
    (hoperands : ∀ o ∈ operands, IsOperand o) :
    read (mnemonic ++ " " ++ List.intercalate "," operands ++ ",") =
      .instruction (Text.upper mnemonic) operands := by
  have hsplit : mnemonic ++ (" " : Text) ++ List.intercalate "," operands ++ ("," : Text) =
      mnemonic ++ ' ' :: (List.intercalate "," operands ++ [',']) := by simp
  have hruns : Text.runs isOperandChar (' ' :: (List.intercalate "," operands ++ [','])) =
      operands := by
    rw [Text.runs_cons_of_not (by decide)]
    have hcomma : ∀ c ∈ [','], isOperandChar c = false := List.forall_mem_singleton.mpr (by decide)
    refine Text.runs_intercalate (by decide) hcomma hcomma fun o ho => ?_
    exact ⟨(hoperands o ho).nonempty, fun c hc => ((hoperands o ho).whole c hc).1⟩
  have hcomment : ∀ c ∈ ' ' :: (List.intercalate "," operands ++ [',']), c ≠ ';' := by
    intro c hc
    rw [List.mem_cons, List.mem_append, List.mem_singleton] at hc
    rcases hc with rfl | hc | rfl
    · decide
    · rcases Text.mem_intercalate hc with hc | ⟨o, ho, hc⟩
      · obtain rfl : c = ',' := by simpa using hc
        decide
      · exact ((hoperands o ho).whole c hc).2
    · decide
  rw [hsplit, read_append hword ?_ hcomment ?_, hruns]
  · intro c hc
    cases hc
    decide
  · intro c hc
    rw [← List.cons_append, ← List.append_assoc, List.getLast?_concat] at hc
    cases hc
    decide

end Line

namespace Program

/-- Gives the labels of some lines other names and leaves other words alone. -/
def relabel (lines : List Line) (r : Text → Text) (word : Text) : Text :=
  if .label word ∈ lines then r word else word

/-- A line printed anew, with other names for the labels of `lines`. -/
def printRelabelled (lines : List Line) (r : Text → Text) (text : Text) : Text :=
  match Line.read text with
  | .blank => text
  | .label name => r name ++ ":"
  | .instruction mnemonic operands =>
    mnemonic ++ " " ++ List.intercalate "," (operands.map (relabel lines r)) ++ ","

end Program

/-- The line with other words for the name of a label and for operands. -/
def Line.rename (f : Text → Text) : Line → Line
  | .blank => .blank
  | .label name => .label (f name)
  | .instruction mnemonic operands => .instruction mnemonic (operands.map f)

def LabelDef.rename (f : Text → Text) (d : LabelDef) : LabelDef := { d with name := f d.name }

def Labels.rename (f : Text → Text) (labels : Labels) : Labels := ⟨labels.defs.map (.rename f)⟩

def Command.rename (f : Text → Text) (command : Command) : Command :=
  { command with operands := command.operands.map f }

section

variable {f : Text → Text}

namespace Labels

theorem names_rename (labels : Labels) : (labels.rename f).names = labels.names.map f := by
  simp only [names, rename, List.map_map]
  rfl

/-- A word finds what it found before, unless a name is now spelt like it that was not. -/
theorem get?_rename {labels : Labels} {word : Text}
    (h : ∀ name ∈ labels.names, f name = f word → name = word) :
    (labels.rename f).get? (f word) = labels.get? word := by
  have hsame : ∀ d ∈ labels.defs, ((LabelDef.rename f d).name == f word) = (d.name == word) := by
    intro d hd
    rw [Bool.eq_iff_iff, beq_iff_eq, beq_iff_eq]
    constructor
    · exact h d.name (List.mem_map_of_mem hd)
    · rintro rfl
      rfl
  have hfind : (labels.rename f).find? (f word) = (labels.find? word).map (.rename f) := by
    rw [find?, rename, List.find?_map]
    exact congrArg _ (List.find?_congr hsame)
  rw [get?, hfind, get?, Option.map_map]
  rfl

end Labels

namespace Program

theorem defsFrom_rename (line index : Nat) (lines : List Line) :
    defsFrom line index (lines.map (.rename f)) =
      (defsFrom line index lines).map (.rename f) := by
  induction lines generalizing line index with
  | nil => rfl
  | cons l rest ih => cases l <;> simp [Line.rename, LabelDef.rename, defsFrom, ih]

theorem commandsFrom_rename (line : Nat) (lines : List Line) :
    commandsFrom line (lines.map (.rename f)) = (commandsFrom line lines).map (.rename f) := by
  induction lines generalizing line with
  | nil => rfl
  | cons l rest ih => cases l <;> simp [Line.rename, Command.rename, commandsFrom, ih]

theorem table_rename (lines : List Line) :
    table (lines.map (.rename f)) = (table lines).rename f := by
  rw [table, defsFrom_rename]
  rfl

theorem mem_names_table_iff {lines : List Line} {name : Text} :
    name ∈ (table lines).names ↔ .label name ∈ lines := by
  rw [names_table, Line.mem_labelNames_iff]

/-- Other names for the labels of `lines`, each allowed and each its own. -/
structure Renaming (lines : List Line) (f : Text → Text) : Prop where
  names_valid : ∀ name, .label name ∈ lines → Labels.ValidName (f name)
  injective : Set.InjOn f {name | .label name ∈ lines}
  others : ∀ word, .label word ∉ lines → f word = word

variable {lines : List Line}

/-- A literal keeps its spelling, and no new name is spelt like a literal. -/
theorem Renaming.get?_eq (hf : Renaming lines f) {operand : Text}
    (h : (table lines).Resolves operand) :
    ((table lines).rename f).get? (f operand) = (table lines).get? operand := by
  apply Labels.get?_rename
  intro name hname heq
  rw [mem_names_table_iff] at hname
  by_cases hlabel : .label operand ∈ lines
  · exact hf.injective hname hlabel heq
  · have hunbound : (table lines).get? operand = none := by
      rw [Labels.get?_eq_none_iff, mem_names_table_iff]
      exact hlabel
    have hnumeric : Literal.looksNumeric operand = true := by
      refine h.resolve_left ?_
      simp [hunbound]
    have hvalid := Labels.isName_iff.mpr (hf.names_valid name hname)
    rw [heq, hf.others operand hlabel] at hvalid
    simp [Labels.isName, hnumeric] at hvalid

theorem Renaming.eq_of_unbound (hf : Renaming lines f) {operand : Text}
    (h : (table lines).get? operand = none) : f operand = operand := by
  rw [Labels.get?_eq_none_iff, mem_names_table_iff] at h
  exact hf.others operand h

theorem Renaming.resolves (hf : Renaming lines f) {operand : Text}
    (h : (table lines).Resolves operand) : ((table lines).rename f).Resolves (f operand) := by
  rw [Labels.Resolves, hf.get?_eq h]
  cases hget : (table lines).get? operand with
  | some k => exact .inl rfl
  | none =>
    rw [hf.eq_of_unbound hget]
    exact .inr (h.resolve_left (by simp [hget]))

theorem Renaming.rewrite_eq (hf : Renaming lines f) {operand : Text}
    (h : (table lines).Resolves operand) :
    ((table lines).rename f).rewrite (f operand) = (table lines).rewrite operand := by
  rw [Labels.rewrite, hf.get?_eq h, Labels.rewrite]
  cases hget : (table lines).get? operand with
  | some k => rfl
  | none => exact hf.eq_of_unbound hget

/-- Lines with other names for their labels are resolved when the lines were. -/
theorem Resolvable.rename (h : Resolvable lines) (hf : Renaming lines f) :
    Resolvable (lines.map (.rename f)) := by
  refine ⟨?_, ?_, ?_⟩
  · rw [table_rename, Labels.rename, List.forall_mem_map]
    intro d hd
    exact hf.names_valid d.name (mem_names_table_iff.mp (List.mem_map_of_mem hd))
  · rw [table_rename, Labels.names_rename]
    refine List.Nodup.map_on (fun a ha b hb => ?_) h.names_distinct
    exact hf.injective (mem_names_table_iff.mp ha) (mem_names_table_iff.mp hb)
  · rw [table_rename, commandsFrom_rename, List.forall_mem_map]
    intro c hc
    rw [Command.rename, List.forall_mem_map]
    exact fun o ho => hf.resolves (h.operands_known c hc o ho)

/-- Lines with other names for their labels are resolved to the same commands. -/
theorem Resolvable.resolved_rename (h : Resolvable lines) (hf : Renaming lines f) :
    resolved (lines.map (.rename f)) = resolved lines := by
  rw [resolved, resolved, table_rename, commandsFrom_rename, List.map_map]
  refine List.map_congr_left fun c hc => ?_
  rw [Function.comp_apply, Command.rename, Labels.rewriteCommand, Labels.rewriteCommand,
    List.map_map]
  congr 1
  exact List.map_congr_left fun o ho => hf.rewrite_eq (h.operands_known c hc o ho)

end Program

end

namespace Program

variable {lines : List Line} {r : Text → Text}

theorem relabel_of_label {name : Text} (h : .label name ∈ lines) : relabel lines r name = r name :=
  if_pos h

theorem relabel_of_other {word : Text} (h : .label word ∉ lines) : relabel lines r word = word :=
  if_neg h

theorem renaming_relabel (hnames : ∀ name, .label name ∈ lines → Line.Printable (r name))
    (hinjective : Set.InjOn r {name | .label name ∈ lines}) :
    Renaming lines (relabel lines r) := by
  refine ⟨fun name hname => ?_, fun a ha b hb heq => ?_, fun word => relabel_of_other⟩
  · rw [relabel_of_label hname]
    exact (hnames name hname).toValidName
  · rw [relabel_of_label ha, relabel_of_label hb] at heq
    exact hinjective ha hb heq

theorem isOperand_relabel (hnames : ∀ name, .label name ∈ lines → Line.Printable (r name))
    {operand : Text} (h : Line.IsOperand operand) : Line.IsOperand (relabel lines r operand) := by
  by_cases hlabel : .label operand ∈ lines
  · rw [relabel_of_label hlabel]
    exact (hnames operand hlabel).isOperand
  · rw [relabel_of_other hlabel]
    exact h

/-- What was printed is read as the line with other names. -/
theorem read_printRelabelled (hnames : ∀ name, .label name ∈ lines → Line.Printable (r name))
    {text : Text} (htext : Line.read text ∈ lines) :
    Line.read (printRelabelled lines r text) = (Line.read text).rename (relabel lines r) := by
  unfold printRelabelled
  cases hread : Line.read text with
  | blank => exact hread
  | label name =>
    rw [hread] at htext
    rw [Line.rename, relabel_of_label htext]
    exact Line.read_printed_label (hnames name htext)
  | instruction mnemonic operands =>
    obtain ⟨⟨word, hword, rfl⟩, hoperands⟩ := Line.of_read_instruction hread
    have hrenamed : ∀ o ∈ operands.map (relabel lines r), Line.IsOperand o := by
      rw [List.forall_mem_map]
      exact fun o ho => isOperand_relabel hnames (hoperands o ho)
    have hprinted := Line.read_printed_instruction hword.upper hrenamed
    rw [Text.upper_upper] at hprinted
    exact hprinted

end Program

/-- The printed lines, in which every label has its new name, are resolved to the commands of the
lines they were printed from. -/
theorem resolve_printRelabelled {texts : List Text} {commands : List Command} {r : Text → Text}
    (h : resolve texts = .ok commands)
    (hnames : ∀ name, .label name ∈ texts.map Line.read → Line.Printable (r name))
    (hinjective : Set.InjOn r {name | .label name ∈ texts.map Line.read}) :
    resolve (texts.map (Program.printRelabelled (texts.map Line.read) r)) = .ok commands := by
  obtain ⟨hlines, rfl⟩ := resolve_eq_ok_iff.mp h
  have hrenaming := Program.renaming_relabel hnames hinjective
  have hread : (texts.map (Program.printRelabelled (texts.map Line.read) r)).map Line.read =
      (texts.map Line.read).map (.rename (Program.relabel (texts.map Line.read) r)) := by
    rw [List.map_map, List.map_map]
    refine List.map_congr_left fun text htext => ?_
    exact Program.read_printRelabelled hnames (List.mem_map_of_mem htext)
  rw [resolve_eq_ok_iff, hread]
  exact ⟨hlines.rename hrenaming, (hlines.resolved_rename hrenaming).symm⟩

/-- New names that are spelt like a mnemonic, differ in case only, or end in a colon. -/
theorem resolve_printRelabelled_with_confusing_names :
    let texts : List Text := ["a:", "load a, 0x5", " ; a:", "A:", "sub A b", "b:"]
    let r : Text → Text := fun name =>
      if name = "a" then "LOAD" else if name = "A" then "load" else "x:"
    let printed : List Text := ["LOAD:", "LOAD LOAD,0x5,", " ; a:", "load:", "SUB load,x:,", "x::"]
    let commands : List Command :=
      [⟨.ofText "LOAD", ["0", "0x5"], 2⟩, ⟨.ofText "SUB", ["1", "2"], 5⟩]
    resolve texts = .ok commands ∧
      texts.map (Program.printRelabelled (texts.map Line.read) r) = printed ∧
      resolve printed = .ok commands := by
  intro texts r printed commands
  have htexts : resolve texts = .ok commands := rfl
  have hprinted : texts.map (Program.printRelabelled (texts.map Line.read) r) = printed := by
    decide
  have hlabels : ∀ name, .label name ∈ texts.map Line.read →
      name ∈ (["a", "A", "b"] : List Text) := by
    intro name hname
    exact Line.mem_labelNames_iff.mpr hname
  have hnew : ∀ name ∈ (["a", "A", "b"] : List Text),
      Labels.isName (r name) = true ∧ ';' ∉ r name := by decide
  refine ⟨htexts, hprinted, ?_⟩
  rw [← hprinted]
  refine resolve_printRelabelled htexts (fun name hname => ?_) fun m hm n hn heq => ?_
  · obtain ⟨hvalid, hcomment⟩ := hnew name (hlabels name hname)
    exact ⟨Labels.isName_iff.mp hvalid, hcomment⟩
  · exact List.inj_on_of_nodup_map (by decide) (hlabels m hm) (hlabels n hn) heq

end Uvm
