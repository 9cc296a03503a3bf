import Uvm.Proofs.Concatenation
import Uvm.Proofs.Disassembly
import Uvm.Proofs.Grammar
import Uvm.Proofs.Renaming
import Uvm.Proofs.Substitution

/-! Using a label in one more line. A line at the end of a program adds a command or a definition
and leaves what stands above it alone. A name can always be used in front of a comma; at the end of
a line it can be used unless it ends in a colon, which makes a label of the whole line. -/
namespace Uvm

namespace Line

theorem no_comment_of_read_label {line name : Text} (h : read line = .label name) : ';' ∉ name := by
  obtain ⟨front, hbody, rfl⟩ := read_eq_label_iff.mp h
  intro hmem
  have hcomment : ';' ∈ body line := by
    rw [hbody]
    exact List.mem_append_left _ (Text.mem_of_mem_trim hmem)
  exact ne_semicolon_of_mem_body hcomment rfl

variable (op : Op) {name : Text}

theorem read_use_comma (h : IsOperand name) :
    read (op.mnemonic ++ " " ++ name ++ ",") = .instruction op.mnemonic [name] := by
  have hread := read_printed_instruction op.isWord_mnemonic (List.forall_mem_singleton.mpr h)
  rw [op.upper_mnemonic, List.intercalate_singleton] at hread
  exact hread

theorem read_use (h : IsOperand name) (hcolon : name.getLast? ≠ some ':') :
    read (op.mnemonic ++ " " ++ name) = .instruction op.mnemonic [name] := by
  have hlast : (op.mnemonic ++ " " ++ name).getLast? ≠ some ':' := by
    rw [List.getLast?_append_of_ne_nil _ h.nonempty]
    exact hcolon
  have hsource : (⟨.known op, [name], 0⟩ : Command).source = op.mnemonic ++ " " ++ name := by
    change op.mnemonic ++ " " ++ List.intercalate ", " [name] = _
    rw [List.intercalate_singleton]
  have hread : read (⟨.known op, [name], 0⟩ : Command).source =
      .instruction (Text.upper op.mnemonic) [name] := by
    refine Command.read_source op.isWord_mnemonic (List.forall_mem_singleton.mpr h) ?_
    rwa [hsource]
  rw [hsource, op.upper_mnemonic] at hread
  exact hread

theorem trim_use (h : IsOperand name) :
    Text.trim (op.mnemonic ++ " " ++ name) = op.mnemonic ++ " " ++ name := by
  have hword := op.isWord_mnemonic
  apply Text.trim_eq_self
  · intro c hc
    rw [List.append_assoc, List.head?_append_of_ne_nil _ hword.nonempty] at hc
    exact (hword.whole c (List.mem_of_head? hc)).1
  · intro c hc
    rw [List.getLast?_append_of_ne_nil _ h.nonempty] at hc
    exact h.not_blank c (List.mem_of_getLast? hc)

/-- A colon at the end makes the words before it a name. -/
theorem read_use_colon {front : Text} (h : IsOperand (front ++ [':'])) :
    read (op.mnemonic ++ " " ++ (front ++ [':'])) =
      .label (Text.trim (op.mnemonic ++ " " ++ front)) := by
  have hcomment : ';' ∉ op.mnemonic ++ " " ++ (front ++ [':']) := by
    intro hmem
    rw [List.mem_append, List.mem_append] at hmem
    rcases hmem with (hmem | hmem) | hmem
    · exact (op.isWord_mnemonic.whole _ hmem).2 rfl
    · exact absurd hmem (by decide)
    · exact (h.whole _ hmem).2 rfl
  apply read_eq_label_iff.mpr
  refine ⟨op.mnemonic ++ " " ++ front, ?_, rfl⟩
  rw [body_of_no_comment hcomment, trim_use op h]
  exact (List.append_assoc _ _ _).symm

/-- But they are not an allowed one, as there is white space between them. -/
theorem extend_use_colon {front : Text} (h : IsOperand front) (labels : Labels)
    (index line : Nat) :
    labels.extend (Text.trim (op.mnemonic ++ " " ++ front)) index line =
      .error ⟨line, .badLabel (op.mnemonic ++ " " ++ front)⟩ := by
  rw [trim_use op h]
  apply Labels.extend_of_not_validName
  intro hvalid
  exact absurd (hvalid.whole ' ' (by simp)).1 (by decide)

end Line

namespace Program

variable {texts : List Text} {p : Program} {text : Text}

theorem ofLines_append_instruction (hp : ofLines texts = .ok p) {mnemonic : Text}
    {operands : List Text} (hread : Line.read text = .instruction mnemonic operands) :
    ofLines (texts ++ [text]) =
      .ok ⟨p.commands ++ [⟨.ofText mnemonic, operands, texts.length + 1⟩], p.labels⟩ := by
  rw [ofLines_append_of_ok hp, List.map_singleton, hread, Nat.add_comm]
  rfl

theorem ofLines_append_label (hp : ofLines texts = .ok p) {name : Text}
    (hread : Line.read text = .label name) :
    ofLines (texts ++ [text]) =
      (p.labels.extend name p.commands.length (texts.length + 1)).map fun labels =>
        ⟨p.commands, labels⟩ := by
  have hdefs : (table [.label name]).defs.map (LabelDef.shift p.commands.length texts.length) =
      [⟨name, p.commands.length, texts.length + 1⟩] := by
    simp [table, defsFrom, LabelDef.shift, Nat.add_comm]
  rw [ofLines_append_of_ok hp, List.map_singleton, hread, hdefs, Labels.extendAll]
  cases p.labels.extend name p.commands.length (texts.length + 1) with
  | error fault => rfl
  | ok labels => simp [Labels.extendAll, commandsFrom, Except.map]

theorem valid_of_ofLines (hp : ofLines texts = .ok p) : p.labels.Valid := by
  obtain ⟨hvalid, -, rfl⟩ := ofLines_eq_ok_iff.mp hp
  exact List.forall_mem_map.mpr hvalid

theorem printable_of_get? (hp : ofLines texts = .ok p) {name : Text} {k : Nat}
    (hk : p.labels.get? name = some k) : Line.Printable name := by
  obtain ⟨hlabels, rfl⟩ := ofLines_eq_ok_iff_wellLabelled.mp hp
  obtain ⟨l, i, hline, -⟩ := (exists_get?_table_iff hlabels).mp ⟨k, hk⟩
  have hmem := List.mem_of_getElem? hline
  obtain ⟨text, -, hread⟩ := List.mem_map.mp hmem
  exact ⟨hlabels.names_valid name hmem, Line.no_comment_of_read_label hread⟩

end Program

section
variable {texts : List Text} {p : Program} {commands : List Command}
  (hp : Program.ofLines texts = .ok p) (h : p.resolve = .ok commands)

include hp h

theorem resolve_append_instruction {text mnemonic : Text} {operands : List Text}
    (hread : Line.read text = .instruction mnemonic operands)
    (hoperands : ∀ o ∈ operands, p.labels.Resolves o) :
    resolve (texts ++ [text]) = .ok (commands ++
      [⟨.ofText mnemonic, operands.map p.labels.rewrite, texts.length + 1⟩]) := by
  obtain ⟨hknown, rfl⟩ := Labels.resolve_eq_ok_iff.mp h
  rw [resolve_eq_bind, Program.ofLines_append_instruction hp hread]
  apply Labels.resolve_eq_ok_iff.mpr
  constructor
  · intro c hc
    rcases List.mem_append.mp hc with hc | hc
    · exact hknown c hc
    · rw [List.mem_singleton.mp hc]
      exact hoperands
  · rw [List.map_append]
    rfl

/-- A name in place of the operand is worth its index. -/
theorem resolve_append_bound {op : Op} {text name : Text} {k : Nat}
    (hread : Line.read text = .instruction op.mnemonic [name])
    (hname : p.labels.get? name = some k) :
    resolve (texts ++ [text]) =
      .ok (commands ++ [⟨.known op, [Text.decimal k], texts.length + 1⟩]) := by
  have hbound : p.labels.Resolves name := .inl (by rw [hname]; rfl)
  rw [resolve_append_instruction hp h hread (List.forall_mem_singleton.mpr hbound),
    Mnemonic.ofText_mnemonic, List.map_singleton, Labels.rewrite, hname]

/-- The commands above a new label keep the meaning they had without it. -/
theorem resolve_append_label {text name : Text} (hread : Line.read text = .label name) :
    resolve (texts ++ [text]) =
      (p.labels.define name p.commands.length (texts.length + 1)).result.map
        fun _ => commands := by
  rw [resolve_eq_bind, Program.ofLines_append_label hp hread, Labels.result_define]
  cases hextend : p.labels.extend name p.commands.length (texts.length + 1) with
  | error fault => rfl
  | ok labels =>
    -- The new name was no operand above: it would have been a label already, or a literal.
    have hrun : Session.run Labels.add p.labels [⟨name, p.commands.length, texts.length + 1⟩] =
        labels := by
      change (p.labels.define name p.commands.length (texts.length + 1)).state = labels
      rw [Labels.define_eq, hextend]
      rfl
    have hwithin := Labels.within_run p.labels [⟨name, p.commands.length, texts.length + 1⟩]
    have hvalid := Labels.valid_run (Program.valid_of_ofLines hp)
      [⟨name, p.commands.length, texts.length + 1⟩]
    rw [hrun] at hwithin hvalid
    exact hwithin.resolve_eq hvalid h

end

/-- A label of a program can be used in one more line of it, in front of a comma. Without the comma
it can be used unless it ends in a colon. Then the whole line is a label and adds no command: it is
refused, or what it defines is no more than the mnemonic, and the commands stay as they are. -/
theorem resolve_append_use {texts : List Text} {commands : List Command} {program : Program}
    {name : Text} {k : Nat} (h : resolve texts = .ok commands)
    (hprogram : Program.ofLines texts = .ok program)
    (hname : program.labels.get? name = some k) :
    let used := commands ++ [⟨.known .load, [Text.decimal k], texts.length + 1⟩]
    resolve (texts ++ ["LOAD " ++ name ++ ","]) = .ok used ∧
    (resolve (texts ++ ["LOAD " ++ name]) = .ok used ↔ name.getLast? ≠ some ':') ∧
    ∀ front, name = front ++ [':'] →
      Line.read ("LOAD " ++ name) = .label (Text.trim ("LOAD " ++ front)) ∧
      resolve (texts ++ ["LOAD " ++ name]) =
        (program.labels.define (Text.trim ("LOAD " ++ front)) program.commands.length
          (texts.length + 1)).result.map (fun _ => commands) ∧
      (front ≠ [] → resolve (texts ++ ["LOAD " ++ name]) =
        .error ⟨texts.length + 1, .badLabel ("LOAD " ++ front)⟩) := by
  intro used
  have hresolve : program.resolve = .ok commands := by
    rw [resolve_eq_bind, hprogram] at h
    exact h
  have hoperand := (Program.printable_of_get? hprogram hname).isOperand
  have hcolon : ∀ front, name = front ++ [':'] →
      Line.read ("LOAD " ++ name) = .label (Text.trim ("LOAD " ++ front)) := by
    rintro front rfl
    exact Line.read_use_colon .load hoperand
  refine ⟨?_, ⟨fun hsame hlast => ?_, fun hlast => ?_⟩, fun front hfront => ?_⟩
  · exact resolve_append_bound hprogram hresolve (Line.read_use_comma .load hoperand) hname
  · -- The label line leaves the commands as they are, and one more was promised.
    obtain ⟨front, hfront⟩ := List.getLast?_eq_some_iff.mp hlast
    rw [resolve_append_label hprogram hresolve (hcolon front hfront), map_eq_ok_iff] at hsame
    obtain ⟨labels, -, hshort⟩ := hsame
    simp [used] at hshort
  · exact resolve_append_bound hprogram hresolve (Line.read_use .load hoperand hlast) hname
  · have hlabel := resolve_append_label hprogram hresolve (hcolon front hfront)
    refine ⟨hcolon front hfront, hlabel, fun hsome => ?_⟩
    have hfrontOperand : Line.IsOperand front := by
      refine ⟨hsome, fun c hc => hoperand.whole c ?_⟩
      rw [hfront]
      exact List.mem_append_left _ hc
    rw [hlabel]
    apply map_eq_error_iff.mpr
    rw [Labels.result_define, map_eq_error_iff]
    exact Line.extend_use_colon .load hfrontOperand _ _ _

theorem resolve_append_use_of_names_with_colons :
    let texts : List Text := ["a::", "SUB a:,", "::", "b:"]
    let commands : List Command := [⟨.known .sub, ["0"], 2⟩]
    let program : Program :=
      ⟨[⟨.known .sub, ["a:"], 2⟩], ⟨[⟨"a:", 0, 1⟩, ⟨":", 1, 3⟩, ⟨"b", 1, 4⟩]⟩⟩
    resolve texts = .ok commands ∧ Program.ofLines texts = .ok program ∧
    resolve (texts ++ ["LOAD a:,".toList]) = .ok (commands ++ [⟨.known .load, ["0"], 5⟩]) ∧
    resolve (texts ++ ["LOAD a:".toList]) = .error ⟨5, .badLabel "LOAD a"⟩ ∧
    Line.read "LOAD :" = .label "LOAD" ∧ resolve (texts ++ ["LOAD :".toList]) = .ok commands ∧
    resolve (texts ++ ["LOAD b".toList]) = .ok (commands ++ [⟨.known .load, ["1"], 5⟩]) := by
  intro texts commands program
  have htexts : resolve texts = .ok commands := by rfl
  have hprogram : Program.ofLines texts = .ok program := by rfl
  have ha : program.labels.get? "a:" = some 0 := by rfl
  have hcolon : program.labels.get? ":" = some 1 := by rfl
  have hb : program.labels.get? "b" = some 1 := by rfl
  obtain ⟨hcomma, -, hlabel⟩ := resolve_append_use htexts hprogram ha
  obtain ⟨-, hplain, -⟩ := resolve_append_use htexts hprogram hb
  obtain ⟨-, -, hmnemonic⟩ := resolve_append_use htexts hprogram hcolon
  obtain ⟨hread, hkept, -⟩ := hmnemonic [] rfl
  exact ⟨htexts, hprogram, hcomma, (hlabel "a" rfl).2.2 (by decide), hread, hkept,
    hplain.mpr (by decide)⟩

end Uvm
