import Uvm.Line
import Uvm.Command
import Uvm.Proofs.Runs
import Uvm.Proofs.Upper

/-! Lines in one pass. A line is read by trimming, cutting and splitting it several times over; what
comes of this is found in one pass over its body, the text before the comment. So the tokens of an
instruction line are known, and a printed line is read as the tokens that it was printed from. The
one trap for a printed command is a colon at its end. -/
namespace Uvm

namespace Line

/-- What a line says: the text before the comment, without white space at its ends. -/
def body (line : Text) : Text := Text.trim (line.takeWhile (· != ';'))

def isOperandChar (c : Char) : Bool := !Text.isBlank c && c != ','

/-- The mnemonic is the first word, the operands are the runs after it. -/
def instructionOf (body : Text) : Line :=
  .instruction (Text.upper (body.takeWhile fun c => !Text.isBlank c))
    (Text.runs isOperandChar (body.dropWhile fun c => !Text.isBlank c))

/-- The reading of a line in one pass over its body. -/
def ofBody (body : Text) : Line :=
  if body = [] then .blank
  else if body.getLast? = some ':' then .label (Text.trim body.dropLast)
  else instructionOf body

/-- A text that can stand at the front of an instruction. -/
structure IsWord (t : Text) : Prop where
  nonempty : t ≠ []
  whole : ∀ c ∈ t, Text.isBlank c = false ∧ c ≠ ';'

/-- A text that can stand as an operand. -/
structure IsOperand (t : Text) : Prop where
  nonempty : t ≠ []
  whole : ∀ c ∈ t, isOperandChar c = true ∧ c ≠ ';'

theorem isOperandChar_iff {c : Char} :
    isOperandChar c = true ↔ Text.isBlank c = false ∧ c ≠ ',' := by
  simp [isOperandChar]

theorem IsOperand.not_blank {t : Text} (h : IsOperand t) : ∀ c ∈ t, Text.isBlank c = false :=
  fun c hc => (isOperandChar_iff.mp (h.whole c hc).1).1

theorem IsWord.upper {t : Text} (h : IsWord t) : IsWord (Text.upper t) := by
  refine ⟨Text.upper_ne_nil h.nonempty, fun c hc => ⟨?_, ?_⟩⟩
  · rw [Bool.eq_false_iff]
    intro hblank
    have hmem := Text.mem_of_mem_upper (Text.marks_has_iff.mpr (.inl hblank)) hc
    rw [(h.whole c hmem).1] at hblank
    cases hblank
  · rintro rfl
    exact (h.whole ';' (Text.mem_of_mem_upper (by decide) hc)).2 rfl

theorem body_of_no_comment {line : Text} (h : ';' ∉ line) : body line = Text.trim line := by
  have hwhole : ∀ c ∈ line, (c != ';') = true := by
    intro c hc
    rw [bne_iff_ne]
    rintro rfl
    exact h hc
  rw [body, List.takeWhile_eq_self_iff.mpr hwhole]

/-- Trimming first and cutting then leaves the same as the other way round. -/
theorem cutComment_trim (line : Text) : cutComment (Text.trim line) = body line := by
  by_cases hcomment : ';' ∈ line
  · obtain ⟨front, rest, rfl, hfront⟩ := List.eq_append_cons_of_mem hcomment
    have hkept : ∀ c ∈ front, (c != ';') = true := by
      intro c hc
      rw [bne_iff_ne]
      rintro rfl
      exact hfront hc
    have hdropped : ∀ c ∈ front.dropWhile Text.isBlank, (c == ';') = false := by
      intro c hc
      simpa using hkept c ((List.dropWhile_sublist _).subset hc)
    have hplace : (front.dropWhile Text.isBlank ++ ';' :: rest.rdropWhile Text.isBlank).findIdx?
        (· == ';') = some (front.dropWhile Text.isBlank).length := by
      rw [List.findIdx?_append, List.findIdx?_eq_none_iff.mpr hdropped]
      simp [List.findIdx?_cons]
    rw [Text.trim_append_cons (by decide), cutComment, hplace, body,
      List.takeWhile_append_of_pos hkept, List.takeWhile_cons_of_neg (by decide), List.append_nil]
    simp only [List.take_left, Text.trim_dropWhile]
  · have hnone : ∀ c ∈ Text.trim line, (c == ';') = false := by
      intro c hc
      rw [beq_eq_false_iff_ne]
      rintro rfl
      exact hcomment (Text.mem_of_mem_trim hc)
    rw [body_of_no_comment hcomment, cutComment, List.findIdx?_eq_none_iff.mpr hnone]

/-- Words without white space that are split at commas give their runs, so nothing is left to
trim. -/
theorem operandsOf_eq {words : List Text} (h : ∀ w ∈ words, ∀ c ∈ w, Text.isBlank c = false) :
    operandsOf words = words.flatMap (Text.runs (· != ',')) := by
  have hsplit (w : Text) : w.splitOn ',' = w.splitOnP fun c => !(c != ',') := by
    simp [List.splitOn_eq_splitOnP, bne]
  have htrimmed : ((words.flatMap fun w => w.splitOn ',').map Text.trim) =
      words.flatMap fun w => w.splitOn ',' := by
    refine (List.map_congr_left fun piece hpiece => ?_).trans (List.map_id _)
    obtain ⟨w, hw, hmem⟩ := List.mem_flatMap.mp hpiece
    rw [hsplit] at hmem
    exact Text.trim_eq_self_of_no_blank fun c hc => h w hw c (Text.mem_of_mem_splitOnP hmem hc)
  rw [operandsOf, htrimmed, List.filter_flatMap]
  refine List.flatMap_congr fun w _ => ?_
  rw [hsplit, Text.filter_splitOnP]

/-- Splitting a body into words and the words at commas gives its first word and the runs in the
rest. -/
theorem words_body {b : Text} (hne : b ≠ [])
    (hfirst : ∀ c, b.head? = some c → Text.isBlank c = false) :
    Text.words b = b.takeWhile (fun c => !Text.isBlank c) ::
      Text.runs (fun c => !Text.isBlank c) (b.dropWhile fun c => !Text.isBlank c) := by
  have hword : b.takeWhile (fun c => !Text.isBlank c) ≠ [] := by
    obtain ⟨c, rest, rfl⟩ := List.exists_cons_of_ne_nil hne
    simp [hfirst c rfl]
  have hstop : ∀ c, (b.dropWhile fun c => !Text.isBlank c).head? = some c →
      (!Text.isBlank c) = false := by
    intro c hc
    have hnot := List.head?_dropWhile_not (fun c => !Text.isBlank c) b
    rw [hc] at hnot
    exact hnot
  rw [Text.words_eq_runs, ← Text.runs_append hword (fun c hc => List.mem_takeWhile_imp hc) hstop,
    List.takeWhile_append_dropWhile]

theorem read_eq_ofBody (line : Text) : read line = ofBody (body line) := by
  rw [read, cutComment_trim, ofBody]
  by_cases hne : body line = []
  · simp [hne]
  · by_cases hcolon : (body line).getLast? = some ':'
    · simp [hne, hcolon]
    · have hwords := words_body hne fun c => Text.head?_trim_not_blank
      have hoperands : ∀ w ∈ Text.runs (fun c => !Text.isBlank c)
          ((body line).dropWhile fun c => !Text.isBlank c), ∀ c ∈ w, Text.isBlank c = false := by
        intro w hw c hc
        simpa using ((Text.of_mem_runs hw).2 c hc).1
      simp only [List.isEmpty_iff, hne, hcolon, ↓reduceIte, hwords, operandsOf_eq hoperands,
        Text.flatMap_runs]
      rfl

theorem ne_semicolon_of_mem_body {line : Text} {c : Char} (h : c ∈ body line) : c ≠ ';' := by
  simpa using List.mem_takeWhile_imp (Text.mem_of_mem_trim h)

/-- The tokens of an instruction: a word in upper case, and operands in one piece each. -/
theorem of_read_instruction {line mnemonic : Text} {operands : List Text}
    (h : read line = .instruction mnemonic operands) :
    (∃ word, IsWord word ∧ mnemonic = Text.upper word) ∧ ∀ o ∈ operands, IsOperand o := by
  rw [read_eq_ofBody, ofBody] at h
  split at h
  · cases h
  · next hne =>
    split at h
    · cases h
    · simp only [instructionOf, instruction.injEq] at h
      obtain ⟨rfl, rfl⟩ := h
      refine ⟨⟨_, ⟨?_, fun c hc => ?_⟩, rfl⟩, fun o ho => ?_⟩
      · obtain ⟨c, rest, hbody⟩ := List.exists_cons_of_ne_nil hne
        have hc : Text.isBlank c = false := Text.head?_trim_not_blank (by
          rw [← body, hbody]
          rfl)
        simp [hbody, hc]
      · have hmem := (List.takeWhile_prefix _).subset hc
        exact ⟨by simpa using List.mem_takeWhile_imp hc, ne_semicolon_of_mem_body hmem⟩
      · obtain ⟨honempty, hchars⟩ := Text.of_mem_runs ho
        refine ⟨honempty, fun c hc => ⟨(hchars c hc).1, ?_⟩⟩
        exact ne_semicolon_of_mem_body ((List.dropWhile_sublist _).subset (hchars c hc).2)

/-- A word with something after it is read as the upper case of that word and the operands in the
rest, unless it ends in a colon. -/
theorem read_append {word rest : Text} (hword : IsWord word)
    (hblank : ∀ c, rest.head? = some c → Text.isBlank c = true) (hrest : ∀ c ∈ rest, c ≠ ';')
    (hlast : ∀ c, (word ++ rest).getLast? = some c → Text.isBlank c = false ∧ c ≠ ':') :
    read (word ++ rest) = .instruction (Text.upper word) (Text.runs isOperandChar rest) := by
  have hne : word ++ rest ≠ [] := by simp [hword.nonempty]
  have hbody : body (word ++ rest) = word ++ rest := by
    have hcomment : ';' ∉ word ++ rest := by
      rw [List.mem_append]
      rintro (hc | hc)
      · exact (hword.whole _ hc).2 rfl
      · exact hrest _ hc rfl
    rw [body_of_no_comment hcomment]
    refine Text.trim_eq_self (fun c hc => ?_) fun c hc => (hlast c hc).1
    obtain ⟨d, word, rfl⟩ := List.exists_cons_of_ne_nil hword.nonempty
    cases hc
    exact (hword.whole c List.mem_cons_self).1
  have hfirst : ∀ c ∈ word, (!Text.isBlank c) = true := by
    intro c hc
    simp [(hword.whole c hc).1]
  have hsecond : rest.takeWhile (fun c => !Text.isBlank c) = [] ∧
      rest.dropWhile (fun c => !Text.isBlank c) = rest := by
    cases rest with
    | nil => exact ⟨rfl, rfl⟩
    | cons c rest => simp [hblank c rfl]
  rw [read_eq_ofBody, hbody, ofBody, if_neg hne, if_neg fun h => (hlast ':' h).2 rfl, instructionOf,
    List.takeWhile_append_of_pos hfirst, List.dropWhile_append_of_pos hfirst, hsecond.1, hsecond.2,
    List.append_nil]

end Line

namespace Command

/-- The text after the mnemonic of a printed command. -/
def tail (operands : List Text) : Text :=
  if operands = [] then [] else ' ' :: List.intercalate ", " operands

theorem source_eq (command : Command) :
    command.source = command.mnemonic.text ++ tail command.operands := by
  unfold source tail
  cases h : command.operands with
  | nil => simp
  | cons o rest => simp

theorem runs_tail {operands : List Text} (h : ∀ o ∈ operands, Line.IsOperand o) :
    Text.runs Line.isOperandChar (tail operands) = operands := by
  unfold tail
  split
  · next hnil => rw [hnil, Text.runs]
  · rw [Text.runs_cons_of_not (by decide), ← List.append_nil (List.intercalate ", " operands)]
    have hseparator : ∀ c ∈ (", " : Text), Line.isOperandChar c = false := by
      intro c hc
      rcases (by simpa using hc : c = ',' ∨ c = ' ') with rfl | rfl
      · decide
      · decide
    refine Text.runs_intercalate (by decide) hseparator (by simp) fun o ho => ?_
    exact ⟨(h o ho).nonempty, fun c hc => ((h o ho).whole c hc).1⟩

theorem mem_tail {operands : List Text} {c : Char} (h : c ∈ tail operands) :
    c = ' ' ∨ c = ',' ∨ ∃ o ∈ operands, c ∈ o := by
  unfold tail at h
  split at h
  · simp at h
  · rcases List.mem_cons.mp h with rfl | h
    · exact .inl rfl
    · rcases Text.mem_intercalate h with h | h
      · rcases (by simpa using h : c = ',' ∨ c = ' ') with rfl | rfl
        · exact .inr (.inl rfl)
        · exact .inl rfl
      · exact .inr (.inr h)

theorem getLast?_tail {operands : List Text} {c : Char} (h : ∀ o ∈ operands, Line.IsOperand o)
    (hc : (tail operands).getLast? = some c) : ∃ o ∈ operands, c ∈ o := by
  unfold tail at hc
  split at hc
  · simp at hc
  · next hne =>
    have hjoin : List.intercalate ", " operands ≠ [] :=
      Text.intercalate_ne_nil hne fun o ho => (h o ho).nonempty
    rw [← List.singleton_append, List.getLast?_append_of_ne_nil _ hjoin] at hc
    obtain ⟨o, ho, hlast⟩ := Text.getLast?_intercalate (fun o ho => (h o ho).nonempty) hc
    exact ⟨o, ho, List.mem_of_getLast? hlast⟩

/-- A printed command is read as what it was printed from, unless it ends in a colon. -/
theorem read_source {command : Command} (hword : Line.IsWord command.mnemonic.text)
    (hoperands : ∀ o ∈ command.operands, Line.IsOperand o)
    (hcolon : command.source.getLast? ≠ some ':') :
    Line.read command.source =
      .instruction (Text.upper command.mnemonic.text) command.operands := by
  rw [source_eq] at hcolon ⊢
  rw [Line.read_append hword ?_ ?_ ?_, runs_tail hoperands]
  · intro c hc
    unfold tail at hc
    split at hc
    · cases hc
    · cases hc
      decide
  · intro c hc
    rcases mem_tail hc with rfl | rfl | ⟨o, ho, hc⟩
    · decide
    · decide
    · exact ((hoperands o ho).whole c hc).2
  · intro c hc
    refine ⟨?_, fun h => hcolon (h ▸ hc)⟩
    rw [List.getLast?_append] at hc
    cases htail : (tail command.operands).getLast? with
    | none =>
      rw [htail] at hc
      exact (hword.whole c (List.mem_of_getLast? hc)).1
    | some d =>
      rw [htail] at hc
      cases hc
      obtain ⟨o, ho, hc⟩ := getLast?_tail hoperands htail
      exact (hoperands o ho).not_blank c hc

end Command

end Uvm
