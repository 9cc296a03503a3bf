import Uvm.HexDump
import Uvm.Proofs.Numerals
import Mathlib.Algebra.Order.Floor.Div

/-! A hex dump is wrapped evenly and can be read back. `Wrapped` says what even means for any
pieces, and how many pieces there are follows from it; the lines of a dump come apart at their
spaces into the tokens of such pieces, since no token holds a space, and a token is a literal of its
byte. -/
namespace Uvm

section
variable {α β : Type}

/-- Pieces of `width` items each, of which only the last may be shorter. None is empty. -/
inductive Wrapped (width : Nat) : List (List α) → Prop where
  | nil : Wrapped width []
  | last {piece : List α} (some : 1 ≤ piece.length) (fits : piece.length ≤ width) :
      Wrapped width [piece]
  | full {piece : List α} {rest : List (List α)} (fills : piece.length = width) (more : rest ≠ [])
      (wrapped : Wrapped width rest) : Wrapped width (piece :: rest)

namespace Wrapped

variable {width : Nat} {pieces : List (List α)}

theorem length_of_mem_dropLast (h : Wrapped width pieces) :
    ∀ piece ∈ pieces.dropLast, piece.length = width := by
  induction h with
  | nil => simp
  | last => simp
  | full fills more _ ih =>
    rw [List.dropLast_cons_of_ne_nil more]
    exact List.forall_mem_cons.mpr ⟨fills, ih⟩

theorem bounds (h : Wrapped width pieces) (hwidth : 0 < width) :
    ∀ piece ∈ pieces, 1 ≤ piece.length ∧ piece.length ≤ width := by
  induction h with
  | nil => simp
  | last some fits => exact List.forall_mem_singleton.mpr ⟨some, fits⟩
  | full fills _ _ ih => exact List.forall_mem_cons.mpr ⟨by omega, ih⟩

theorem length_flatten_pos (h : Wrapped width pieces) (hwidth : 0 < width) (hsome : pieces ≠ []) :
    0 < pieces.flatten.length := by
  obtain ⟨piece, rest, rfl⟩ := List.exists_cons_of_ne_nil hsome
  have hpiece := h.bounds hwidth piece List.mem_cons_self
  rw [List.flatten_cons, List.length_append]
  omega

/-- As many pieces as the items need. -/
theorem length_eq (h : Wrapped width pieces) (hwidth : 0 < width) :
    pieces.length = pieces.flatten.length ⌈/⌉ width := by
  induction h with
  | nil => simp
  | @last piece some fits =>
    have hone : (piece.length + width - 1) / width = 1 := by
      apply Nat.div_eq_of_lt_le <;> omega
    simp [Nat.ceilDiv_eq_add_pred_div, hone]
  | @full piece rest fills more wrapped ih =>
    -- The pieces behind a full one hold something, so rounding up commutes with taking it away.
    have hpos := wrapped.length_flatten_pos hwidth more
    have hcount : width + rest.flatten.length + width - 1 =
        rest.flatten.length + width - 1 + width := by omega
    rw [Nat.ceilDiv_eq_add_pred_div] at ih ⊢
    rw [List.length_cons, ih, List.flatten_cons, List.length_append, fills, hcount,
      Nat.add_div_right _ hwidth]

theorem map (h : Wrapped width pieces) (f : α → β) : Wrapped width (pieces.map (List.map f)) := by
  induction h with
  | nil => exact .nil
  | last some fits => exact .last (by simpa using some) (by simpa using fits)
  | full fills more _ ih => exact .full (by simpa using fills) (by simpa using more) ih

end Wrapped

variable (width : Nat)

theorem flatten_chunks (items : List α) : (chunks width items).flatten = items := by
  fun_induction chunks width items with
  | case1 => rfl
  | case2 a rest ih => rw [List.flatten_cons, ih, List.cons_append, List.take_append_drop]

theorem wrapped_chunks (items : List α) : Wrapped (width + 1) (chunks width items) := by
  fun_induction chunks width items with
  | case1 => exact .nil
  | case2 a rest ih =>
    by_cases hend : rest.drop width = []
    · -- The first chunk has taken everything.
      have hshort := List.drop_eq_nil_iff.mp hend
      rw [hend, chunks]
      apply Wrapped.last
      · simp
      · rw [List.take_of_length_le hshort, List.length_cons]
        omega
    · have hlong : width < rest.length := by
        apply Nat.lt_of_not_le
        intro hle
        exact hend (List.drop_eq_nil_iff.mpr hle)
      refine .full ?_ ?_ ih
      · rw [List.length_cons, List.length_take]
        omega
      · intro hnone
        apply hend
        rw [← flatten_chunks width (rest.drop width), hnone, List.flatten_nil]

end

theorem parse_hexToken (b : UInt8) : Literal.parse (hexToken b) = .ok b.toNat := by
  have hsome : Text.hexPairUpper b ≠ [] := by simp [Text.hexPairUpper, Text.hexPair]
  have hbound : b.toNat < Literal.bound := Nat.lt_trans b.toNat_lt (by decide)
  exact Literal.parse_marked (Text.spells_hexPairUpper b) hsome hbound (.inl rfl)

theorem splitOn_hexLine {bytes : List UInt8} (h : bytes ≠ []) :
    (hexLine bytes).splitOn ' ' = bytes.map hexToken := by
  have hspace : ∀ token ∈ bytes.map hexToken, ' ' ∉ token := by
    rw [List.forall_mem_map]
    intro b _
    exact (Text.spells_hexPairUpper b).not_mem_marked (.inl rfl) (by decide)
  rw [hexLine]
  change (List.intercalate [' '] (bytes.map hexToken)).splitOn ' ' = bytes.map hexToken
  apply List.splitOn_intercalate ' ' hspace
  simpa using h

/-- A line of a dump is split into the tokens of its chunk. -/
theorem map_splitOn_hexDump (perLine : Nat) (bytes : List UInt8) :
    (hexDump perLine bytes).map (List.splitOn ' ') =
      (chunks (perLine - 1) bytes).map (List.map hexToken) := by
  rw [hexDump, List.map_map]
  apply List.map_congr_left
  intro chunk hchunk
  have hpos := ((wrapped_chunks (perLine - 1) bytes).bounds (Nat.succ_pos _) chunk hchunk).1
  exact splitOn_hexLine (List.length_pos_iff.mp hpos)

/-- A dump has as many lines as its bytes need. Split at single spaces, each line but the last has
as many tokens as were asked for, one if none were, and the last has some and no more than that;
read as literals in the order of the lines, the tokens are the bytes. -/
theorem hexDump_reads_back (perLine : Nat) (bytes : List UInt8) :
    let width := max perLine 1
    let lines := hexDump perLine bytes
    let tokens := lines.map (List.splitOn ' ')
    lines.length = bytes.length ⌈/⌉ width ∧
    (∀ row ∈ tokens.dropLast, row.length = width) ∧
    (∀ row, tokens.getLast? = some row → 1 ≤ row.length ∧ row.length ≤ width) ∧
    tokens.flatten.map Literal.parse = bytes.map fun b => .ok b.toNat := by
  intro width lines tokens
  have hwidth : perLine - 1 + 1 = width := by omega
  have hpos : 0 < width := by omega
  have htokens : tokens = (chunks (perLine - 1) bytes).map (List.map hexToken) :=
    map_splitOn_hexDump perLine bytes
  have hwrapped : Wrapped width tokens := by
    rw [htokens, ← hwidth]
    exact (wrapped_chunks (perLine - 1) bytes).map hexToken
  have hflatten : tokens.flatten = bytes.map hexToken := by
    rw [htokens, ← List.map_flatten, flatten_chunks]
  refine ⟨?_, hwrapped.length_of_mem_dropLast, fun row hrow => ?_, ?_⟩
  · calc lines.length = tokens.length := (List.length_map _).symm
      _ = tokens.flatten.length ⌈/⌉ width := hwrapped.length_eq hpos
      _ = bytes.length ⌈/⌉ width := by rw [hflatten, List.length_map]
  · exact hwrapped.bounds hpos row (List.mem_of_getLast? hrow)
  · rw [hflatten, List.map_map]
    exact List.map_congr_left fun b _ => parse_hexToken b

theorem hexDump_reads_back_with_short_last_line :
    let bytes : List UInt8 := [0xCA, 0x29, 0x02, 0x00, 0x9C]
    let first : List Text := ["0xCA", "0x29", "0x02", "0x00"]
    let last : List Text := ["0x9C"]
    let tokens := (hexDump 4 bytes).map (List.splitOn ' ')
    tokens = [first, last] ∧ (hexDump 4 bytes).length = 5 ⌈/⌉ 4 ∧ first.length = 4 ∧
      1 ≤ last.length ∧
      tokens.flatten.map Literal.parse = [.ok 0xCA, .ok 0x29, .ok 2, .ok 0, .ok 0x9C] ∧
      (hexDump 0 bytes).length = 5 ⌈/⌉ 1 := by
  intro bytes first last tokens
  have hchunks : chunks 3 bytes = [[0xCA, 0x29, 0x02, 0x00], [0x9C]] := by simp [bytes, chunks]
  have htokens : tokens = [first, last] := by
    change ((chunks 3 bytes).map hexLine).map (List.splitOn ' ') = [first, last]
    rw [hchunks]
    decide
  obtain ⟨hcount, hfull, hlast, hread⟩ := hexDump_reads_back 4 bytes
  refine ⟨htokens, hcount, hfull first ?_, (hlast last ?_).1, hread, (hexDump_reads_back 0 bytes).1⟩
  · change first ∈ tokens.dropLast
    rw [htokens]
    exact List.mem_cons_self
  · change tokens.getLast? = some last
    rw [htokens]
    rfl

end Uvm
