import Uvm.Listing
import Uvm.Proofs.Inversion

/-! Listings tile the bytes they show. `Tiles` says that rows stand one behind the other with no
byte left out or shown twice; the instructions of a sweep are the first of these rows, each cut out
of the bytes at its own place, and the bytes behind them are the others. -/
namespace Uvm

namespace Row

/-- The row of an instruction of some bytes, cut out where it stands. -/
def ofInstruction (bytes : List UInt8) (i : Nat × Decoded) : Row :=
  ⟨i.1, i.2.op.mnemonic, i.2.operand, bytes.extract i.1 (i.1 + i.2.length)⟩

/-- The row names an instruction, and its bytes are the instruction with the operand it shows. -/
structure ShowsCode (row : Row) (op : Op) : Prop where
  named : row.mnemonic = op.mnemonic
  fits : row.operand < 2 ^ op.fieldBits
  encoded : encode op row.operand .reject = .ok row.bytes

/-- The row shows a single byte by its value. -/
structure ShowsByte (row : Row) (b : UInt8) : Prop where
  named : row.mnemonic = ".byte"
  valued : row.operand = b.toNat
  single : row.bytes = [b]

/-- The row shows an instruction or a single byte. -/
def Shows (row : Row) : Prop := (∃ op, row.ShowsCode op) ∨ ∃ b, row.ShowsByte b

end Row

/-- The rows show the bytes from an offset on, each row starting where the one before it ends. -/
inductive Tiles : Nat → List Row → List UInt8 → Prop where
  | nil (start : Nat) : Tiles start [] []
  | cons {start : Nat} {row : Row} {rows : List Row} {bytes : List UInt8}
      (here : row.offset = start) (rest : Tiles (start + row.bytes.length) rows bytes) :
      Tiles start (row :: rows) (row.bytes ++ bytes)

namespace Tiles

variable {start : Nat} {rows : List Row} {bytes : List UInt8}

theorem flatMap_bytes (h : Tiles start rows bytes) : rows.flatMap Row.bytes = bytes := by
  induction h with
  | nil => rfl
  | cons here rest ih => rw [List.flatMap_cons, ih]

theorem offset_eq {front back : List Row} {row : Row}
    (h : Tiles start (front ++ row :: back) bytes) :
    row.offset = start + (front.flatMap Row.bytes).length := by
  induction front generalizing start bytes with
  | nil =>
    cases h with
    | cons here rest => exact here
  | cons first front ih =>
    cases h with
    | cons here rest =>
      rw [ih rest, List.flatMap_cons, List.length_append, Nat.add_assoc]

end Tiles

theorem tiles_byteRows (offset : Nat) (bytes : List UInt8) :
    Tiles offset (byteRows offset bytes) bytes := by
  induction bytes generalizing offset with
  | nil => exact .nil offset
  | cons b rest ih => exact .cons rfl (ih (offset + 1))

theorem showsByte_of_mem_byteRows {offset : Nat} {bytes : List UInt8} {row : Row}
    (h : row ∈ byteRows offset bytes) : ∃ b, row.ShowsByte b := by
  induction bytes generalizing offset with
  | nil => cases h
  | cons b rest ih =>
    rcases List.mem_cons.mp h with rfl | h
    · exact ⟨b, rfl, rfl, rfl⟩
    · exact ih h

theorem head?_byteRows (offset : Nat) (bytes : List UInt8) :
    (byteRows offset bytes).head?.map Row.offset = if bytes = [] then none else some offset := by
  cases bytes <;> rfl

namespace Walk

variable {bytes : List UInt8} {offset stop : Nat} {instructions : List (Nat × Decoded)}

/-- Rows are cut off the front of what is left, and that is what stands at their offsets. -/
theorem rowsFrom_eq (h : Walk bytes offset instructions stop) :
    rowsFrom offset (bytes.drop offset) instructions =
      instructions.map (Row.ofInstruction bytes) ++ byteRows stop (bytes.drop stop) := by
  induction h with
  | stay => rfl
  | @step offset stop d rest decoded onward ih =>
    have hcut : (bytes.drop offset).take d.length = bytes.extract offset (offset + d.length) := by
      rw [List.extract_eq_take_drop, Nat.add_sub_cancel_left]
    rw [rowsFrom, List.drop_drop, ih, hcut]
    rfl

theorem tiles_rowsFrom (h : Walk bytes offset instructions stop) :
    Tiles offset (rowsFrom offset (bytes.drop offset) instructions) (bytes.drop offset) := by
  induction h with
  | stay offset => exact tiles_byteRows offset _
  | @step offset stop d rest decoded onward ih =>
    have hlength : ((bytes.drop offset).take d.length).length = d.length :=
      List.length_take_of_le (length_le_of_decode decoded)
    have hsplit : bytes.drop offset =
        (bytes.drop offset).take d.length ++ bytes.drop (offset + d.length) := by
      rw [← List.drop_drop, List.take_append_drop]
    rw [rowsFrom, List.drop_drop]
    nth_rewrite 2 [hsplit]
    exact .cons rfl (by rwa [hlength])

/-- No instruction reaches past the end of the bytes. -/
theorem end_le_of_mem (h : Walk bytes offset instructions stop) {i : Nat × Decoded}
    (hi : i ∈ instructions) : i.1 + i.2.length ≤ bytes.length := by
  have hdecode := h.decode_of_mem hi
  have hpos := decode_length_pos hdecode
  have hlength := length_le_of_decode hdecode
  rw [List.length_drop] at hlength
  omega

theorem showsCode_of_mem (h : Walk bytes offset instructions stop) {i : Nat × Decoded}
    (hi : i ∈ instructions) : (Row.ofInstruction bytes i).ShowsCode i.2.op := by
  have hdecode := h.decode_of_mem hi
  obtain ⟨-, hfits, -⟩ := code_of_decode hdecode
  have hencode := encode_of_decode hdecode
  refine ⟨rfl, by rwa [← Op.fieldBound_eq_two_pow], ?_⟩
  rw [Row.ofInstruction, List.extract_eq_take_drop, Nat.add_sub_cancel_left]
  exact hencode

end Walk

theorem tiles_listing (bytes : List UInt8) : Tiles 0 (listing bytes) bytes := by
  obtain ⟨stop, hwalk, -⟩ := exists_walk_sweep bytes
  exact hwalk.tiles_rowsFrom

theorem shows_of_mem_listing {bytes : List UInt8} {row : Row} (h : row ∈ listing bytes) :
    row.Shows := by
  obtain ⟨stop, hwalk, -⟩ := exists_walk_sweep bytes
  have hrows : listing bytes = _ := hwalk.rowsFrom_eq
  rw [hrows, List.mem_append] at h
  rcases h with h | h
  · obtain ⟨i, hi, rfl⟩ := List.mem_map.mp h
    exact .inl ⟨i.2.op, hwalk.showsCode_of_mem hi⟩
  · exact .inr (showsByte_of_mem_byteRows h)

/-- A listing shows every byte once and in order, at its offset. First come the instructions of the
sweep, one row for each, cut out of the bytes without reaching past their end; the bytes of such a
row are the encoding of what it shows. Then comes one row for each byte that is left, from the
offset where the sweep stopped; there are none exactly when it did not stop early. -/
theorem listing_tiles (bytes : List UInt8) :
    ∃ codeRows restRows : List Row,
      listing bytes = codeRows ++ restRows ∧
      (listing bytes).flatMap Row.bytes = bytes ∧
      (∀ front row back, listing bytes = front ++ row :: back →
        row.offset = (front.flatMap Row.bytes).length) ∧
      (∀ row ∈ codeRows, ∃ op, row.ShowsCode op) ∧
      (∀ row ∈ restRows, ∃ b, row.ShowsByte b) ∧
      (sweep bytes).stoppedAt = restRows.head?.map Row.offset ∧
      codeRows = (sweep bytes).instructions.map (Row.ofInstruction bytes) ∧
      (∀ i ∈ (sweep bytes).instructions, i.1 + i.2.length ≤ bytes.length) ∧
      ∀ stop, (sweep bytes).stoppedAt = some stop →
        stop ≤ bytes.length ∧ restRows = byteRows stop (bytes.drop stop) := by
  obtain ⟨stop, hwalk, hin, -, hstopped⟩ := exists_walk_sweep bytes
  refine ⟨(sweep bytes).instructions.map (Row.ofInstruction bytes),
    byteRows stop (bytes.drop stop), hwalk.rowsFrom_eq, (tiles_listing bytes).flatMap_bytes, ?_, ?_,
    fun row => showsByte_of_mem_byteRows, ?_, rfl, fun i hi => hwalk.end_le_of_mem hi, ?_⟩
  · intro front row back hlisting
    have htiles := tiles_listing bytes
    rw [hlisting] at htiles
    rw [htiles.offset_eq, Nat.zero_add]
  · intro row hrow
    obtain ⟨i, hi, rfl⟩ := List.mem_map.mp hrow
    exact ⟨i.2.op, hwalk.showsCode_of_mem hi⟩
  · have hend : bytes.drop stop = [] ↔ stop = bytes.length := by
      rw [List.drop_eq_nil_iff]
      omega
    rw [hstopped, head?_byteRows]
    simp only [hend]
  · intro place hplace
    rw [hstopped] at hplace
    split at hplace
    · cases hplace
    · cases hplace
      exact ⟨hin, rfl⟩

theorem listing_tiles_of_trailing_bytes :
    let bytes : List UInt8 := [0x9C, 0x0C, 0x01, 0x00, 0xCA]
    let read : Row := ⟨0, "READ", 268, [0x9C, 0x0C, 0x01]⟩
    listing bytes = [read, ⟨3, ".byte", 0, [0x00]⟩, ⟨4, ".byte", 0xCA, [0xCA]⟩] ∧
      (sweep bytes).stoppedAt = some 3 ∧ 3 ≤ bytes.length ∧
      4 = ([read, ⟨3, ".byte", 0, [0x00]⟩].flatMap Row.bytes).length ∧
      ∃ op, read.ShowsCode op := by
  intro bytes read
  have hsweep : sweep bytes = ⟨[(0, ⟨.read, 268, 3⟩)], some 3⟩ := by cbv
  have hlisting : listing bytes =
      [read, ⟨3, ".byte", 0, [0x00]⟩] ++ ⟨4, ".byte", 0xCA, [0xCA]⟩ :: [] := by
    rw [listing, hsweep]
    rfl
  have hstopped : (sweep bytes).stoppedAt = some 3 := by rw [hsweep]
  have hfirst : (0, ⟨.read, 268, 3⟩) ∈ (sweep bytes).instructions := by
    rw [hsweep]
    exact List.mem_singleton_self _
  have hread : Row.ofInstruction bytes (0, ⟨.read, 268, 3⟩) = read := by rfl
  obtain ⟨codeRows, restRows, -, -, hoffset, hcode, -, -, rfl, -, hrest⟩ := listing_tiles bytes
  exact ⟨hlisting, hstopped, (hrest 3 hstopped).1, hoffset _ _ _ hlisting,
    hcode read (List.mem_map.mpr ⟨_, hfirst, hread⟩)⟩

end Uvm
