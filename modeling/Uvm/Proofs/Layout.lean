import Uvm.Proofs.Numbering
import Mathlib.Order.Monotone.Basic

/-! Layout does not matter. A source can be laid out another way: with more blank lines and
comments, with white space around its lines, with other line ends. It still assembles to the same
machine code, and its faults are the same but for the numbers of the lines, which are those that the
lines go by now. -/
namespace Uvm

namespace Line

variable {c : Char} {line text : Text}

/-- What stands behind a semicolon belongs to the comment. -/
theorem body_append_comment (line text : Text) : body (line ++ ';' :: text) = body line := by
  rw [body, body, List.takeWhile_append]
  split
  · next hlength =>
    have hwhole := (List.takeWhile_prefix (· != ';')).eq_of_length hlength
    simp [hwhole]
  · rfl

theorem read_append_comment (line text : Text) : read (line ++ ';' :: text) = read line := by
  rw [read_eq_ofBody, body_append_comment, ← read_eq_ofBody]

theorem read_cons_blank (h : Text.isBlank c = true) (line : Text) :
    read (c :: line) = read line := by
  have hne : c ≠ ';' := by
    rintro rfl
    exact absurd h (by decide)
  have hkeep : (c :: line).takeWhile (· != ';') = c :: line.takeWhile (· != ';') := by simp [hne]
  rw [read_eq_ofBody, body, hkeep, Text.trim_cons_blank h, ← body, ← read_eq_ofBody]

theorem read_append_blank (h : Text.isBlank c = true) (line : Text) :
    read (line ++ [c]) = read line := by
  by_cases hcomment : ';' ∈ line
  · obtain ⟨before, after, rfl⟩ := List.append_of_mem hcomment
    rw [List.append_assoc, List.cons_append, read_append_comment, read_append_comment]
  · have hnone : ';' ∉ line ++ [c] := by
      rw [List.mem_append, List.mem_singleton]
      rintro (hmem | rfl)
      · exact hcomment hmem
      · exact absurd h (by decide)
    rw [read_eq_ofBody, body_of_no_comment hnone, Text.trim_append_blank h,
      ← body_of_no_comment hcomment, ← read_eq_ofBody]

theorem read_of_forall_blank (h : ∀ c ∈ line, Text.isBlank c = true) : read line = .blank := by
  induction line with
  | nil => rfl
  | cons c line ih =>
    obtain ⟨hc, hline⟩ := List.forall_mem_cons.mp h
    rw [read_cons_blank hc, ih hline]

/-- A line with white space added at one of its ends, or a comment. -/
inductive Dressed (line : Text) : Text → Prop where
  | indented (c : Char) (blank : Text.isBlank c = true) (same_line : c ≠ '\n') :
      Dressed line (c :: line)
  | trailed (c : Char) (blank : Text.isBlank c = true) (same_line : c ≠ '\n') :
      Dressed line (line ++ [c])
  | commented (text : Text) (same_line : '\n' ∉ text) : Dressed line (line ++ ';' :: text)

/-- A line of white space, or of a comment with nothing but white space before it. -/
inductive Vacant : Text → Prop where
  | blank {line : Text} (blank : ∀ c ∈ line, Text.isBlank c = true) : Vacant line
  | comment (indent text : Text) (blank : ∀ c ∈ indent, Text.isBlank c = true) :
      Vacant (indent ++ ';' :: text)

theorem Dressed.read_eq {dressed : Text} (h : Dressed line dressed) : read dressed = read line := by
  cases h with
  | indented c blank => exact read_cons_blank blank line
  | trailed c blank => exact read_append_blank blank line
  | commented text => exact read_append_comment line text

theorem Dressed.same_line {dressed : Text} (h : Dressed line dressed) (hline : '\n' ∉ line) :
    '\n' ∉ dressed := by
  cases h with
  | indented c blank same_line => simp [hline, Ne.symm same_line]
  | trailed c blank same_line => simp [hline, Ne.symm same_line]
  | commented text same_line => simp [hline, same_line]

theorem Vacant.read_eq (h : Vacant line) : read line = .blank := by
  cases h with
  | blank blank => exact read_of_forall_blank blank
  | comment indent text blank => rw [read_append_comment, read_of_forall_blank blank]

end Line

/-- A text starts with a line end, and this is the rest: the end of the source, a line feed, or a
carriage return with a line feed. -/
inductive LineEnd : Text → Text → Prop where
  | finish : LineEnd [] []
  | lineFeed (rest : Text) : LineEnd ('\n' :: rest) rest
  | carriageReturn (rest : Text) : LineEnd ('\r' :: '\n' :: rest) rest

/-- The numbers of lines after one has been put in behind the first `k`. -/
def skip (k n : Nat) : Nat := if n ≤ k then n else n + 1

/-- A change of layout, with the numbers that the lines go by after it: a line is dressed, a line
that says nothing is put in, all line ends change, or the last one comes or goes. -/
inductive Edit : (Nat → Nat) → Text → Text → Prop where
  | dress (above : List Text) (line : Text) {dressed below rest : Text}
      (lines : ∀ t ∈ above, '\n' ∉ t) (same_line : '\n' ∉ line)
      (change : Line.Dressed line dressed) (line_end : LineEnd below rest) :
      Edit id (Text.unlines above ++ line ++ below) (Text.unlines above ++ dressed ++ below)
  | insert (above : List Text) {line : Text} (below : Text) (lines : ∀ t ∈ above, '\n' ∉ t)
      (same_line : '\n' ∉ line) (vacant : Line.Vacant line) :
      Edit (skip above.length) (Text.unlines above ++ below)
        (Text.unlines above ++ line ++ '\n' :: below)
  | addReturns (source : Text) : Edit id source (Text.returns source)
  | addFinal (source : Text) {final : Text} (line_end : LineEnd final []) :
      Edit id source (source ++ final)
  | dropFinal (source : Text) {final : Text} (line_end : LineEnd final []) :
      Edit id (source ++ final) source

/-- Any number of changes of layout, one after the other. -/
inductive Edited : (Nat → Nat) → Text → Text → Prop where
  | same (source : Text) : Edited id source source
  | next {f g : Nat → Nat} {source before after : Text} (done : Edited f source before)
      (edit : Edit g before after) : Edited (g ∘ f) source after

namespace Program

theorem linesOf_eq_map_cut (source : Text) : linesOf source = (Text.cut source).map Line.read := by
  have halike : List.Forall₂ (fun line raw => Line.read line = Line.read raw)
      (Text.lines source) (Text.cut source) := by
    refine (Text.forall₂_lines_cut source).imp ?_
    rintro line raw (rfl | rfl)
    · rfl
    · exact (Line.read_append_blank (by decide) line).symm
  rw [← List.forall₂_eq_eq_eq, linesOf, List.forall₂_map_left_iff, List.forall₂_map_right_iff]
  exact halike

theorem linesOf_unlines_append {above : List Text} (h : ∀ t ∈ above, '\n' ∉ t) (rest : Text) :
    linesOf (Text.unlines above ++ rest) = above.map Line.read ++ linesOf rest := by
  rw [linesOf_eq_map_cut, linesOf_eq_map_cut, Text.cut_unlines_append h, List.map_append]

theorem linesOf_append_line_feed {line : Text} (h : '\n' ∉ line) (rest : Text) :
    linesOf (line ++ '\n' :: rest) = Line.read line :: linesOf rest := by
  rw [linesOf_eq_map_cut, linesOf_eq_map_cut, Text.cut_append_line_feed h, List.map_cons]

/-- Before a line end, only the reading of a line matters. -/
theorem content_linesOf {above : List Text} {line below rest : Text}
    (hlines : ∀ t ∈ above, '\n' ∉ t) (hline : '\n' ∉ line) (hend : LineEnd below rest) :
    Line.content (linesOf (Text.unlines above ++ line ++ below)) =
      Line.content (above.map Line.read ++ Line.read line :: linesOf rest) := by
  rw [List.append_assoc, linesOf_unlines_append hlines]
  cases hend with
  | finish =>
    rw [List.append_nil]
    by_cases hne : line = []
    · subst hne
      -- There is no line here, but an empty one would say nothing.
      simp only [Line.content, Line.contentFrom_append]
      rfl
    · rw [linesOf_eq_map_cut line, Text.cut_eq_singleton hne hline]
      rfl
  | lineFeed => rw [linesOf_append_line_feed hline]
  | carriageReturn =>
    have hreturn : line ++ '\r' :: '\n' :: rest = (line ++ ['\r']) ++ '\n' :: rest := by simp
    rw [hreturn, linesOf_append_line_feed (by simp [hline]), Line.read_append_blank (by decide)]

/-- A last line end makes no difference, or that of an empty line. -/
theorem content_append_final (source : Text) {final : Text} (h : LineEnd final []) :
    Line.content (linesOf (source ++ final)) = Line.content (linesOf source) := by
  obtain ⟨above, line, hlines, hline, rfl⟩ := Text.exists_unlines source
  have hnone := content_linesOf hlines hline .finish
  rw [List.append_nil] at hnone
  rw [hnone, content_linesOf hlines hline h]

end Program

namespace Line

theorem content_insert (above below : List Line) :
    content (above ++ .blank :: below) =
      (content (above ++ below)).map (Prod.map (skip above.length) id) := by
  have hstay : (contentFrom 1 above).map (Prod.map (skip above.length) id) =
      contentFrom 1 above := by
    refine (List.map_congr_left ?_).trans (List.map_id _)
    rintro ⟨n, line⟩ hmem
    obtain ⟨-, p, hp, rfl⟩ := mem_contentFrom_iff.mp hmem
    obtain ⟨hlt, -⟩ := List.getElem?_eq_some_iff.mp hp
    have hskip : skip above.length (1 + p) = 1 + p := if_pos (by omega)
    rw [Prod.map_apply, hskip]
    rfl
  have hmove : (contentFrom (1 + above.length) below).map (Prod.map (skip above.length) id) =
      contentFrom (1 + above.length + 1) below := by
    rw [contentFrom_add (1 + above.length) 1]
    apply List.map_congr_left
    rintro ⟨n, line⟩ hmem
    obtain ⟨-, p, -, rfl⟩ := mem_contentFrom_iff.mp hmem
    have hskip : skip above.length (1 + above.length + p) = 1 + above.length + p + 1 :=
      if_neg (by omega)
    rw [Prod.map_apply, Prod.map_apply, hskip]
  rw [content, content, contentFrom_append, contentFrom_append, List.map_append, hstay, hmove]
  rfl

theorem renumbered_id_of_eq {lines other : List Line} (h : content other = content lines) :
    Renumbered id lines other := by
  rw [Renumbered, h, Prod.map_id, List.map_id]

end Line

theorem Edit.renumbered {f : Nat → Nat} {source edited : Text} (h : Edit f source edited) :
    Line.Renumbered f (Program.linesOf source) (Program.linesOf edited) := by
  cases h with
  | dress above line lines same_line change line_end =>
    apply Line.renumbered_id_of_eq
    rw [Program.content_linesOf lines (change.same_line same_line) line_end,
      Program.content_linesOf lines same_line line_end, change.read_eq]
  | insert above below lines same_line vacant =>
    rw [Line.Renumbered, List.append_assoc, Program.linesOf_unlines_append lines,
      Program.linesOf_unlines_append lines, Program.linesOf_append_line_feed same_line,
      vacant.read_eq, Line.content_insert, List.length_map]
  | addReturns =>
    apply Line.renumbered_id_of_eq
    rw [Program.linesOf, Text.lines_returns, ← Program.linesOf_eq_map_cut]
  | addFinal source line_end =>
    exact Line.renumbered_id_of_eq (Program.content_append_final source line_end)
  | dropFinal source line_end =>
    exact Line.renumbered_id_of_eq (Program.content_append_final edited line_end).symm

theorem skip_strictMono (k : Nat) : StrictMono (skip k) := by
  intro m n hlt
  unfold skip
  split <;> split <;> omega

theorem Edit.strictMono {f : Nat → Nat} {source edited : Text} (h : Edit f source edited) :
    StrictMono f := by
  cases h with
  | insert above => exact skip_strictMono above.length
  | dress => exact strictMono_id
  | addReturns => exact strictMono_id
  | addFinal => exact strictMono_id
  | dropFinal => exact strictMono_id

/-- Over any number of changes, lines keep their order and what they say. -/
theorem Edited.renumbered {f : Nat → Nat} {source edited : Text} (h : Edited f source edited) :
    StrictMono f ∧ Line.Renumbered f (Program.linesOf source) (Program.linesOf edited) := by
  induction h with
  | same source => exact ⟨strictMono_id, Line.renumbered_id_of_eq rfl⟩
  | next done edit ih =>
    obtain ⟨hmono, hcontent⟩ := ih
    refine ⟨edit.strictMono.comp hmono, ?_⟩
    have hnext := edit.renumbered
    rw [Line.Renumbered] at hcontent hnext ⊢
    rw [hnext, hcontent, List.map_map, Prod.map_comp_map, Function.id_comp]

theorem Line.Renumbered.at_iff {f : Nat → Nat} {lines other : List Line}
    (h : Renumbered f lines other) {line : Line} (hne : line ≠ .blank) {m : Nat} :
    At other m line ↔ ∃ n, At lines n line ∧ m = f n := by
  have hmem : (m, line) ∈ content other ↔ (m, line) ∈ (content lines).map (Prod.map f id) := by
    rw [h]
  simp only [mem_content_iff, List.mem_map, Prod.exists, Prod.map_apply, id, Prod.mk.injEq] at hmem
  constructor
  · intro hat
    obtain ⟨n, _, ⟨hn, -⟩, rfl, rfl⟩ := hmem.mp ⟨hat, hne⟩
    exact ⟨n, hn, rfl⟩
  · rintro ⟨n, hn, rfl⟩
    exact (hmem.mpr ⟨n, line, ⟨hn, hne⟩, rfl, rfl⟩).1

/-- A source that is laid out another way has the same outcome under all settings: the same machine
code, and the same faults but for their lines. A line that says something stands in the new layout
with the same reading, in the same order, and every fault goes by the number that its line has
there. -/
theorem assemble_edited {f : Nat → Nat} {source edited : Text} (h : Edited f source edited) :
    (∀ settings, assemble settings edited = relocate f (assemble settings source)) ∧
    StrictMono f ∧
    ∀ line, line ≠ .blank → ∀ m, Line.At (Program.linesOf edited) m line ↔
      ∃ n, Line.At (Program.linesOf source) n line ∧ m = f n := by
  obtain ⟨hmono, hrenumbered⟩ := h.renumbered
  exact ⟨assemble_renumbered hrenumbered, hmono, fun line hne m => hrenumbered.at_iff hne⟩

theorem assemble_edited_with_duplicate_label :
    let source : Text := "a:\nJMP a\na:"
    let edited : Text := "; head\r\n\ta:\r\nJMP a; x:\r\na:\r\n"
    let settings : Settings := ⟨.bestEffort, .mask⟩
    (∃ f, Edited f source edited) ∧
      assemble settings source = .error ⟨3, .duplicateLabel "a" 1⟩ ∧
      assemble settings edited = .error ⟨4, .duplicateLabel "a" 2⟩ := by
  intro source edited settings
  have hhead : Edit (skip 0) source "; head\na:\nJMP a\na:" :=
    .insert [] source (by simp) (by decide) (.comment [] " head" (by simp))
  have hindent : Edit id "; head\na:\nJMP a\na:" "; head\n\ta:\nJMP a\na:" :=
    .dress ["; head"] "a:" (by decide) (by decide) (.indented '\t' (by decide) (by decide))
      (.lineFeed "JMP a\na:")
  have hcomment : Edit id "; head\n\ta:\nJMP a\na:" "; head\n\ta:\nJMP a; x:\na:" :=
    .dress ["; head", "\ta:"] "JMP a" (by decide) (by decide) (.commented " x:" (by decide))
      (.lineFeed "a:")
  have hreturns : Edit id "; head\n\ta:\nJMP a; x:\na:" "; head\r\n\ta:\r\nJMP a; x:\r\na:" :=
    .addReturns _
  have hfinal : Edit id "; head\r\n\ta:\r\nJMP a; x:\r\na:" edited :=
    .addFinal _ (.carriageReturn [])
  have hedited := ((((Edited.same source).next hhead).next hindent).next hcomment).next hreturns
  have hsource : assemble settings source = .error ⟨3, .duplicateLabel "a" 1⟩ := by rfl
  refine ⟨⟨_, hedited.next hfinal⟩, hsource, ?_⟩
  rw [(assemble_edited (hedited.next hfinal)).1, hsource]
  rfl

end Uvm
