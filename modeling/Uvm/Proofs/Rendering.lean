import Uvm.Proofs.Disassembly
import Uvm.Proofs.Numerals
import Uvm.Proofs.Tiling

/-! The text of a listing loses nothing. It is cut back into its lines, each line at the first colon
and its statement at the first space, since offsets, mnemonics and numerals hold neither; the column
of bytes between them has the same width in every row. What a row says then settles which bytes it
shows, and the rows tile the byte string. -/
namespace Uvm

namespace Row

theorem ShowsCode.bytes_eq {row : Row} {op : Op} (h : row.ShowsCode op) :
    row.bytes = code op row.operand :=
  (encode_eq_ok_iff.mp h.encoded).2

namespace Shows

variable {row other : Row}

theorem length_le (h : row.Shows) : row.bytes.length ≤ columns := by
  rcases h with ⟨op, hcode⟩ | ⟨b, hbyte⟩
  · rw [hcode.bytes_eq, length_code]
    cases op <;> decide
  · rw [hbyte.single, List.length_singleton]
    decide

theorem mnemonic_not_blank (h : row.Shows) {c : Char} (hc : Text.isBlank c = true) :
    c ∉ row.mnemonic := by
  intro hmem
  rcases h with ⟨op, hcode⟩ | ⟨b, hbyte⟩
  · rw [hcode.named] at hmem
    have hword := (op.isWord_mnemonic.whole c hmem).1
    rw [hc] at hword
    cases hword
  · rw [hbyte.named] at hmem
    have hword : Row.byteMnemonic.all (fun c => !Text.isBlank c) = true := by decide
    have hnot := List.all_eq_true.mp hword c hmem
    rw [hc] at hnot
    cases hnot

/-- What a row says settles which bytes it shows. -/
theorem bytes_eq (h : row.Shows) (hother : other.Shows) (hmnemonic : row.mnemonic = other.mnemonic)
    (hoperand : row.operand = other.operand) : row.bytes = other.bytes := by
  -- A row that shows a byte is never taken for an instruction.
  have hapart (op : Op) : op.mnemonic ≠ ".byte".toList := by cases op <;> decide
  rcases h with ⟨op, hcode⟩ | ⟨b, hbyte⟩
  · rcases hother with ⟨op', hcode'⟩ | ⟨b', hbyte'⟩
    · have hop : op = op' := by
        have hknown := Mnemonic.ofText_mnemonic op
        rw [← hcode.named, hmnemonic, hcode'.named, Mnemonic.ofText_mnemonic] at hknown
        exact (Mnemonic.known.inj hknown).symm
      rw [hcode.bytes_eq, hcode'.bytes_eq, hop, hoperand]
    · rw [hcode.named, hbyte'.named] at hmnemonic
      exact absurd hmnemonic (hapart op)
  · rcases hother with ⟨op', hcode'⟩ | ⟨b', hbyte'⟩
    · rw [hbyte.named, hcode'.named] at hmnemonic
      exact absurd hmnemonic.symm (hapart op')
    · have hsame : b = b' := by
        apply UInt8.toNat_inj.mp
        rw [← hbyte.valued, hoperand, hbyte'.valued]
      rw [hbyte.single, hbyte'.single, hsame]

end Shows

/-- The operand of a row as it is printed. -/
def operandText (row : Row) : Text :=
  if row.mnemonic = byteMnemonic then Text.hexMarked 2 row.operand else Text.decimal row.operand

theorem statement_eq (row : Row) : row.statement = row.mnemonic ++ ' ' :: row.operandText := by
  unfold statement operandText
  split <;> simp

/-- The text of a row between its offset and its end. -/
def behind (showBytes : Bool) (row : Row) : Text :=
  (if showBytes then row.bytesColumn else []) ++ row.statement

/-- The text of a row without its line feed. -/
def line (showBytes : Bool) (row : Row) : Text :=
  Text.hexMarked 4 row.offset ++ ':' :: ' ' :: row.behind showBytes

theorem render_eq (showBytes : Bool) (row : Row) :
    row.render showBytes = row.line showBytes ++ ['\n'] := by
  simp [render, line, behind]

theorem not_mem_operandText (row : Row) {c : Char} (hc : Text.marks.has c = true) :
    c ∉ row.operandText := by
  unfold operandText
  split
  · exact Text.not_mem_hexMarked hc 2 _
  · exact (Text.spells_decimal row.operand).not_mem_of_mark (by decide) hc

theorem length_bytesColumn {row : Row} (h : row.bytes.length ≤ columns) :
    row.bytesColumn.length = 3 * columns + 1 := by
  have hcells : (row.bytes.flatMap cell).length = 3 * row.bytes.length := by
    have hcell : (fun b => (cell b).length) = fun _ => 3 := by
      funext b
      rfl
    rw [List.length_flatMap, hcell, List.map_const', List.sum_replicate_nat, Nat.mul_comm]
  have hgap : (List.replicate (columns - row.bytes.length) emptyCell).flatten.length =
      3 * (columns - row.bytes.length) := by
    rw [List.length_flatten, List.map_replicate, List.sum_replicate_nat, Nat.mul_comm]
    rfl
  rw [bytesColumn, List.length_append, List.length_append, hcells, hgap]
  simp only [String.reduceToList, List.length_singleton]
  omega

/-- The column of bytes holds digits and spaces. -/
theorem not_mem_bytesColumn (row : Row) {c : Char} (hc : Text.marks.has c = true)
    (hspace : c ≠ ' ') : c ∉ row.bytesColumn := by
  intro hmem
  simp only [bytesColumn, List.mem_append, List.mem_flatMap, List.mem_flatten,
    List.mem_replicate] at hmem
  rcases hmem with (⟨b, -, hcell⟩ | ⟨gap, ⟨-, rfl⟩, hgap⟩) | htail
  · rcases List.mem_append.mp hcell with hpair | htail
    · exact (Text.spells_hexPair b).not_mem_of_mark (by decide) hc hpair
    · exact hspace (List.mem_singleton.mp htail)
  · simp [emptyCell, hspace] at hgap
  · exact hspace (List.mem_singleton.mp htail)

theorem Shows.not_mem_line {row : Row} (h : row.Shows) {c : Char} (hc : Text.isBlank c = true)
    (hspace : c ≠ ' ') (showBytes : Bool) : c ∉ row.line showBytes := by
  have hmark : Text.marks.has c = true := Text.marks_has_iff.mpr (.inl hc)
  have hcolon : c ≠ ':' := by
    rintro rfl
    exact absurd hc (by decide)
  have hstatement : c ∉ row.statement := by
    rw [statement_eq, List.mem_append, List.mem_cons]
    rintro (hword | hsep | hoperand)
    · exact h.mnemonic_not_blank hc hword
    · exact hspace hsep
    · exact row.not_mem_operandText hmark hoperand
  have hbehind : c ∉ row.behind showBytes := by
    cases showBytes with
    | false => exact hstatement
    | true =>
      intro hmem
      rcases List.mem_append.mp hmem with hcolumn | hrest
      · exact row.not_mem_bytesColumn hmark hspace hcolumn
      · exact hstatement hrest
  rw [line, List.mem_append, List.mem_cons, List.mem_cons]
  rintro (hoffset | hsep | hsep | hrest)
  · exact Text.not_mem_hexMarked hmark 4 _ hoffset
  · exact hcolon hsep
  · exact hspace hsep
  · exact hbehind hrest

theorem operand_eq_of_operandText {row other : Row} (hmnemonic : row.mnemonic = other.mnemonic)
    (h : row.operandText = other.operandText) : row.operand = other.operand := by
  unfold operandText at h
  rw [hmnemonic] at h
  split at h
  · exact Text.hexMarked_inj h
  · exact Text.decimal_inj h

namespace Shows

variable {row other : Row} {showBytes : Bool}

theorem statement_inj (h : row.Shows) (hother : other.Shows)
    (hsame : row.statement = other.statement) :
    row.mnemonic = other.mnemonic ∧ row.operand = other.operand := by
  have hspace : Text.isBlank ' ' = true := by decide
  rw [statement_eq, statement_eq] at hsame
  obtain ⟨hmnemonic, hoperand⟩ :=
    Text.cut_unique (h.mnemonic_not_blank hspace) (hother.mnemonic_not_blank hspace) hsame
  exact ⟨hmnemonic, operand_eq_of_operandText hmnemonic hoperand⟩

/-- The column of bytes is as wide in one row as in another, so it need not be read. -/
theorem behind_inj (h : row.Shows) (hother : other.Shows)
    (hsame : row.behind showBytes = other.behind showBytes) : row.statement = other.statement := by
  cases showBytes with
  | false => exact hsame
  | true =>
    have hwidth : row.bytesColumn.length = other.bytesColumn.length := by
      rw [length_bytesColumn h.length_le, length_bytesColumn hother.length_le]
    exact (List.append_inj hsame hwidth).2

theorem bytes_eq_of_line (h : row.Shows) (hother : other.Shows)
    (hsame : row.line showBytes = other.line showBytes) : row.bytes = other.bytes := by
  have hcolon : Text.marks.has ':' = true := by decide
  obtain ⟨-, hrest⟩ :=
    Text.cut_unique (Text.not_mem_hexMarked hcolon 4 _) (Text.not_mem_hexMarked hcolon 4 _) hsame
  have hbehind := (List.cons_eq_cons.mp hrest).2
  obtain ⟨hmnemonic, hoperand⟩ := h.statement_inj hother (h.behind_inj hother hbehind)
  exact h.bytes_eq hother hmnemonic hoperand

end Shows

end Row

theorem lines_renderRows {rows : List Row} (h : ∀ row ∈ rows, row.Shows) (showBytes : Bool) :
    Text.lines (renderRows showBytes rows) = rows.map (Row.line showBytes) := by
  induction rows with
  | nil => rfl
  | cons row rows ih =>
    obtain ⟨hrow, hrows⟩ := List.forall_mem_cons.mp h
    have hfeed := hrow.not_mem_line (by decide : Text.isBlank '\n' = true) (by decide) showBytes
    have hreturn := hrow.not_mem_line (by decide : Text.isBlank '\r' = true) (by decide) showBytes
    rw [renderRows, List.flatMap_cons, Row.render_eq, List.append_assoc, List.singleton_append,
      Text.lines_append_line_feed hfeed hreturn, List.map_cons, ← ih hrows, renderRows]

theorem map_bytes_of_map_line {rows others : List Row} {showBytes : Bool}
    (hrows : ∀ row ∈ rows, row.Shows) (hothers : ∀ row ∈ others, row.Shows)
    (h : rows.map (Row.line showBytes) = others.map (Row.line showBytes)) :
    rows.map Row.bytes = others.map Row.bytes := by
  induction rows generalizing others with
  | nil => rw [List.map_eq_nil_iff.mp h.symm]
  | cons row rows ih =>
    cases others with
    | nil => cases h
    | cons other others =>
      obtain ⟨hrow, hrows⟩ := List.forall_mem_cons.mp hrows
      obtain ⟨hother, hothers⟩ := List.forall_mem_cons.mp hothers
      obtain ⟨hline, hrest⟩ := List.cons_eq_cons.mp h
      rw [List.map_cons, List.map_cons, hrow.bytes_eq_of_line hother hline, ih hrows hothers hrest]

/-- Two byte strings with the same listing as a text are the same, whether or not the text shows the
bytes and however long they are. -/
theorem renderRows_listing_inj (showBytes : Bool) {a b : List UInt8}
    (h : renderRows showBytes (listing a) = renderRows showBytes (listing b)) : a = b := by
  have hlines := congrArg Text.lines h
  rw [lines_renderRows fun row => shows_of_mem_listing,
    lines_renderRows fun row => shows_of_mem_listing] at hlines
  have hbytes := map_bytes_of_map_line (fun row => shows_of_mem_listing)
    (fun row => shows_of_mem_listing) hlines
  calc a = ((listing a).map Row.bytes).flatten := by
        rw [← List.flatMap_def, (tiles_listing a).flatMap_bytes]
    _ = ((listing b).map Row.bytes).flatten := by rw [hbytes]
    _ = b := by rw [← List.flatMap_def, (tiles_listing b).flatMap_bytes]

theorem renderRows_listing_inj_of_cut_program :
    let a : List UInt8 := [0x9C, 0x0C, 0x01, 0xAF]
    let b : List UInt8 := code .read 0x1010C ++ [Op.sub.opcode]
    let text : Text := "0x0000: 9c 0c 01     READ 268\n0x0003: af           .byte 0xaf\n"
    renderRows true (listing a) = text ∧ renderRows true (listing b) = text ∧ a = b := by
  intro a b text
  have hsweep : sweep a = ⟨[(0, ⟨.read, 268, 3⟩)], some 3⟩ := by cbv
  have hsweep' : sweep b = ⟨[(0, ⟨.read, 268, 3⟩)], some 3⟩ := by cbv
  have ha : renderRows true (listing a) = text := by
    rw [listing, hsweep]
    decide
  have hb : renderRows true (listing b) = text := by
    rw [listing, hsweep']
    decide
  exact ⟨ha, hb, renderRows_listing_inj true (ha.trans hb.symm)⟩

end Uvm
