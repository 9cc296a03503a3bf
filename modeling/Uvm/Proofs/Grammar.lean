import Uvm.Proofs.Reading

/-! The grammar of a line, said by positions and maximality and not by a way to compute it. A text
is trimmed when only white space is missing at its ends, a prefix is the longest when no longer one
will do, and the runs of a text are its maximal stretches in the order of their positions. Reading a
line finds exactly these. -/
namespace Uvm

namespace Line

/-- What a line says: its longest prefix without a semicolon, trimmed. -/
def IsBody (line body : Text) : Prop :=
  ∃ front, Text.LongestPrefix (· != ';') line front ∧ Text.Trimmed front body

theorem isBody_iff {line b : Text} : IsBody line b ↔ b = body line := by
  simp only [IsBody, Text.longestPrefix_iff, Text.trimmed_iff, exists_eq_left]
  rfl

theorem read_eq_blank_iff {line : Text} : read line = .blank ↔ body line = [] := by
  rw [read_eq_ofBody, ofBody, instructionOf]
  split
  · next hempty => simp [hempty]
  · next hne => split <;> simp [hne]

theorem read_eq_label_iff {line name : Text} :
    read line = .label name ↔
      ∃ front, body line = front ++ [':'] ∧ name = Text.trim front := by
  rw [read_eq_ofBody, ofBody, instructionOf]
  split
  · next hempty => simp [hempty]
  · split
    · next hcolon =>
      obtain ⟨front, hfront⟩ := List.getLast?_eq_some_iff.mp hcolon
      simp [hfront, eq_comm]
    · next hcolon =>
      simp only [reduceCtorEq, false_iff]
      rintro ⟨front, hfront, -⟩
      exact hcolon (by simp [hfront])

theorem read_eq_instruction_iff {line mnemonic : Text} {operands : List Text} :
    read line = .instruction mnemonic operands ↔
      body line ≠ [] ∧ (body line).getLast? ≠ some ':' ∧
        mnemonic = Text.upper ((body line).takeWhile fun c => !Text.isBlank c) ∧
        operands = Text.runs isOperandChar ((body line).dropWhile fun c => !Text.isBlank c) := by
  rw [read_eq_ofBody, ofBody, instructionOf]
  split
  · next hempty => simp [hempty]
  · next hne =>
    split
    · next hcolon => simp [hcolon]
    · next hcolon => simp [hne, hcolon, eq_comm]

/-- Every line has one body. It is blank when that is empty, a label when it ends in a colon, the
name being what stands before, trimmed, and otherwise an instruction: the mnemonic is the upper case
of the longest word at the front, whatever signs are in it, and the operands are the maximal runs of
other characters than white space and commas in the rest. So an operand is never empty and holds no
white space, comma or semicolon. -/
theorem read_grammar (line : Text) :
    ∃ body, (∀ other, IsBody line other ↔ other = body) ∧
      (read line = .blank ↔ body = []) ∧
      (∀ name, read line = .label name ↔
        ∃ front, body = front ++ [':'] ∧ Text.Trimmed front name) ∧
      (∀ mnemonic operands, read line = .instruction mnemonic operands ↔
        body ≠ [] ∧ (∀ front, body ≠ front ++ [':']) ∧ ∃ word rest, body = word ++ rest ∧
          Text.LongestPrefix (fun c => !Text.isBlank c) body word ∧
          mnemonic = Text.upper word ∧
          Text.Runs (fun c => !Text.isBlank c && c != ',') rest operands) ∧
      ∀ mnemonic operands, read line = .instruction mnemonic operands →
        ∀ o ∈ operands, o ≠ [] ∧ ∀ c ∈ o, Text.isBlank c = false ∧ c ≠ ',' ∧ c ≠ ';' := by
  refine ⟨body line, fun other => isBody_iff, read_eq_blank_iff, fun name => ?_,
    fun mnemonic operands => ?_, fun mnemonic operands hread o ho => ?_⟩
  · simp only [read_eq_label_iff, Text.trimmed_iff]
  · have hcolon : (body line).getLast? ≠ some ':' ↔ ∀ front, body line ≠ front ++ [':'] := by
      rw [ne_eq, List.getLast?_eq_some_iff, not_exists]
    rw [read_eq_instruction_iff, hcolon]
    simp only [Text.longestPrefix_iff, Text.runs_iff]
    refine and_congr_right fun _ => and_congr_right fun _ => ⟨?_, ?_⟩
    · rintro ⟨rfl, rfl⟩
      exact ⟨_, _, List.takeWhile_append_dropWhile.symm, rfl, rfl, rfl⟩
    · rintro ⟨word, rest, hbody, hword, rfl, rfl⟩
      have hrest : rest = (body line).dropWhile fun c => !Text.isBlank c := by
        have hsame : word ++ rest = word ++ (body line).dropWhile fun c => !Text.isBlank c := by
          rw [← hbody, hword, List.takeWhile_append_dropWhile]
        exact List.append_cancel_left hsame
      exact ⟨by rw [hword], by rw [hrest]; rfl⟩
  · have hoperand := (of_read_instruction hread).2 o ho
    refine ⟨hoperand.nonempty, fun c hc => ?_⟩
    obtain ⟨hchar, hcomment⟩ := hoperand.whole c hc
    obtain ⟨hblank, hcomma⟩ := isOperandChar_iff.mp hchar
    exact ⟨hblank, hcomma, hcomment⟩

theorem read_grammar_of_crowded_line :
    let line : Text := "\tſub,x: a,,b\u00A0,0x;c:"
    read line = .instruction "SUB,X:" ["a", "b", "0x"] ∧
      (∀ o ∈ (["a", "b", "0x"] : List Text), ∀ c ∈ o, c ≠ ',') ∧
      ∃ word rest, IsBody line (word ++ rest) ∧
        Text.LongestPrefix (fun c => !Text.isBlank c) (word ++ rest) word ∧
        "SUB,X:".toList = Text.upper word ∧
        Text.Runs (fun c => !Text.isBlank c && c != ',') rest ["a", "b", "0x"] := by
  intro line
  have hread : read line = .instruction "SUB,X:" ["a", "b", "0x"] := by decide +kernel
  obtain ⟨b, hbody, -, -, hinstruction, hoperands⟩ := read_grammar line
  obtain ⟨-, -, word, rest, rfl, hword, hupper, hruns⟩ := (hinstruction _ _).mp hread
  exact ⟨hread, fun o ho c hc => ((hoperands _ _ hread o ho).2 c hc).2.1,
    word, rest, (hbody _).mpr rfl, hword, hupper, hruns⟩

end Line

end Uvm
