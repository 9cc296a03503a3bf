import Uvm.Proofs.Code
import Mathlib.Data.List.Chain

/-! The language of machine code. `Encodes` says which byte strings are the encodings of
instructions one after the other, and a sweep is a `Walk` over a byte string that goes on as long as
there is something to decode. What a sweep walks over is in the language, byte for byte, and a byte
string is in the language in one way only: as the instructions that its sweep finds. -/
namespace Uvm

/-- The bytes are the encodings of the instructions, every operand within its field. -/
inductive Encodes : List (Op × Nat) → List UInt8 → Prop where
  | nil : Encodes [] []
  | cons {op : Op} {v : Nat} {front : List UInt8} {items : List (Op × Nat)} {bytes : List UInt8}
      (fits : v < 2 ^ op.fieldBits) (encoded : encode op v .reject = .ok front)
      (rest : Encodes items bytes) : Encodes ((op, v) :: items) (front ++ bytes)

theorem Encodes.cons_code {op : Op} {v : Nat} {items : List (Op × Nat)} {bytes : List UInt8}
    (fits : v < op.fieldBound) (rest : Encodes items bytes) :
    Encodes ((op, v) :: items) (code op v ++ bytes) := by
  have hencoded : encode op v .reject = .ok (code op v) :=
    encode_eq_ok_iff.mpr ⟨fun _ => fits, rfl⟩
  rw [Op.fieldBound_eq_two_pow] at fits
  exact .cons fits hencoded rest

theorem Encodes.eq_codes {items : List (Op × Nat)} {bytes : List UInt8} (h : Encodes items bytes) :
    (∀ i ∈ items, i.2 < i.1.fieldBound) ∧ bytes = items.flatMap fun i => code i.1 i.2 := by
  induction h with
  | nil => simp
  | cons fits encoded rest ih =>
    obtain ⟨hfits, rfl⟩ := ih
    obtain ⟨-, rfl⟩ := encode_eq_ok_iff.mp encoded
    rw [← Op.fieldBound_eq_two_pow] at fits
    exact ⟨List.forall_mem_cons.mpr ⟨fits, hfits⟩, rfl⟩

namespace Sweep

/-- The instructions of a sweep, without their places. -/
def items (s : Sweep) : List (Op × Nat) := s.instructions.map fun i => (i.2.op, i.2.operand)

/-- The offset after the last instruction, zero when there is none. -/
def finish (s : Sweep) : Nat := s.instructions.getLast?.elim 0 fun i => i.1 + i.2.length

end Sweep

/-- The instructions met on the way over a byte string from one offset to another, each one decoded
where the one before it ends. -/
inductive Walk (bytes : List UInt8) : Nat → List (Nat × Decoded) → Nat → Prop where
  | stay (offset : Nat) : Walk bytes offset [] offset
  | step {offset stop : Nat} {d : Decoded} {rest : List (Nat × Decoded)}
      (decoded : decode (bytes.drop offset) = some d)
      (onward : Walk bytes (offset + d.length) rest stop) :
      Walk bytes offset ((offset, d) :: rest) stop

theorem length_le_of_decode {bytes : List UInt8} {d : Decoded} (h : decode bytes = some d) :
    d.length ≤ bytes.length := by
  obtain ⟨hbytes, -, hlength⟩ := code_of_decode h
  have htotal := congrArg List.length hbytes
  rw [List.length_append, length_code] at htotal
  omega

/-- A sweep that has come to an offset goes on from there until nothing decodes. -/
theorem exists_walk_sweepFrom {bytes : List UInt8} {offset : Nat} (hin : offset ≤ bytes.length) :
    ∃ stop, Walk bytes offset (sweepFrom offset (bytes.drop offset)).instructions stop ∧
      stop ≤ bytes.length ∧ decode (bytes.drop stop) = none ∧
      (sweepFrom offset (bytes.drop offset)).stoppedAt =
        if stop = bytes.length then none else some stop := by
  generalize hrest : bytes.drop offset = rest
  fun_induction sweepFrom offset rest with
  | case1 offset rest hnone =>
    subst hrest
    refine ⟨offset, .stay offset, hin, hnone, ?_⟩
    have hempty : (bytes.drop offset).isEmpty = true ↔ offset = bytes.length := by
      rw [List.isEmpty_iff, List.drop_eq_nil_iff]
      omega
    simp only [hempty]
  | case2 offset rest d hsome next ih =>
    subst hrest
    have hlength := length_le_of_decode hsome
    rw [List.length_drop] at hlength
    obtain ⟨stop, hwalk, hstop⟩ := ih (by omega) List.drop_drop.symm
    exact ⟨stop, .step hsome hwalk, hstop⟩

theorem exists_walk_sweep (bytes : List UInt8) :
    ∃ stop, Walk bytes 0 (sweep bytes).instructions stop ∧ stop ≤ bytes.length ∧
      decode (bytes.drop stop) = none ∧
      (sweep bytes).stoppedAt = if stop = bytes.length then none else some stop :=
  exists_walk_sweepFrom (Nat.zero_le bytes.length)

namespace Walk

variable {bytes : List UInt8} {offset stop : Nat} {instructions : List (Nat × Decoded)}

theorem starts (h : Walk bytes offset instructions stop) :
    ∀ i ∈ instructions.head?, i.1 = offset := by
  cases h with
  | stay => simp
  | step decoded onward => simp

/-- Each instruction starts where the one before it ends. -/
theorem adjacent (h : Walk bytes offset instructions stop) :
    instructions.IsChain fun i j => j.1 = i.1 + i.2.length := by
  induction h with
  | stay => exact .nil
  | step decoded onward ih => exact List.isChain_cons.mpr ⟨onward.starts, ih⟩

theorem decode_of_mem (h : Walk bytes offset instructions stop) {i : Nat × Decoded}
    (hi : i ∈ instructions) : decode (bytes.drop i.1) = some i.2 := by
  induction h with
  | stay => cases hi
  | step decoded onward ih =>
    rcases List.mem_cons.mp hi with rfl | hi
    · exact decoded
    · exact ih hi

theorem stop_eq (h : Walk bytes offset instructions stop) :
    stop = instructions.getLast?.elim offset fun i => i.1 + i.2.length := by
  induction h with
  | stay => rfl
  | step decoded onward ih =>
    rw [ih, List.getLast?_cons, Option.elim_some]
    -- Without a further instruction the walk ends after this one.
    cases List.getLast? _ <;> rfl

/-- What is walked over is encoded instructions, and nothing between them is left out. -/
theorem encodes (h : Walk bytes offset instructions stop) :
    ∃ front, Encodes (instructions.map fun i => (i.2.op, i.2.operand)) front ∧
      bytes.drop offset = front ++ bytes.drop stop := by
  induction h with
  | stay => exact ⟨[], .nil, rfl⟩
  | step decoded onward ih =>
    obtain ⟨front, hencodes, hfront⟩ := ih
    obtain ⟨hbytes, hfits, -⟩ := code_of_decode decoded
    refine ⟨_, .cons_code hfits hencodes, ?_⟩
    rw [hbytes, List.drop_drop, hfront, List.append_assoc]

end Walk

/-- Encoded instructions are found again by a sweep, so no other instructions have these bytes. -/
theorem Encodes.sweep_eq {items : List (Op × Nat)} {bytes : List UInt8} (h : Encodes items bytes) :
    (sweep bytes).stoppedAt = none ∧ (sweep bytes).items = items := by
  obtain ⟨hfits, rfl⟩ := h.eq_codes
  obtain ⟨hstop, hlist⟩ := sweepFrom_codes items 0
  refine ⟨hstop, ?_⟩
  calc (sweep (items.flatMap fun i => code i.1 i.2)).items
      = ((sweepFrom 0 (items.flatMap fun i => code i.1 i.2)).instructions.map Prod.snd).map
          fun d => (d.op, d.operand) := by
        rw [List.map_map]
        rfl
    _ = items.map fun i => (i.1, i.2 % i.1.fieldBound) := by
        rw [hlist, List.map_map]
        rfl
    _ = items.map id := by
        apply List.map_congr_left
        intro i hi
        rw [Nat.mod_eq_of_lt (hfits i hi)]
        rfl
    _ = items := List.map_id items

/-- A sweep starts at the front, goes from each instruction to the next without a gap, and stops at
the first offset where nothing decodes, or at the end. The bytes it has passed are the encodings of
what it found. So it reaches the end of exactly the byte strings that are encodings of instructions,
and no other instructions than those it found have these encodings. -/
theorem sweep_language (bytes : List UInt8) :
    let s := sweep bytes
    (∀ i ∈ s.instructions.head?, i.1 = 0) ∧
    s.instructions.IsChain (fun i j => j.1 = i.1 + i.2.length) ∧
    (∀ i ∈ s.instructions, decode (bytes.drop i.1) = some i.2) ∧
    s.finish ≤ bytes.length ∧
    Encodes s.items (bytes.take s.finish) ∧
    (s.stoppedAt = none ↔ s.finish = bytes.length) ∧
    (s.finish ≠ bytes.length → s.stoppedAt = some s.finish ∧ decode (bytes.drop s.finish) = none) ∧
    (s.stoppedAt = none ↔ ∃ items, Encodes items bytes) ∧
    ∀ items, Encodes items bytes → items = s.items := by
  intro s
  obtain ⟨stop, hwalk, hin, hnone, hstopped⟩ := exists_walk_sweepFrom (Nat.zero_le bytes.length)
  rw [List.drop_zero] at hwalk hstopped
  obtain rfl : stop = s.finish := hwalk.stop_eq
  have hstopped : s.stoppedAt = if s.finish = bytes.length then none else some s.finish := hstopped
  have hpassed : Encodes s.items (bytes.take s.finish) := by
    obtain ⟨front, hencodes, hfront⟩ := hwalk.encodes
    have hwhole : bytes.take s.finish ++ bytes.drop s.finish = front ++ bytes.drop s.finish := by
      rw [List.take_append_drop, ← hfront, List.drop_zero]
    rw [List.append_cancel_right hwhole]
    exact hencodes
  have hend : s.stoppedAt = none ↔ s.finish = bytes.length := by
    rw [hstopped]
    by_cases h : s.finish = bytes.length <;> simp [h]
  refine ⟨hwalk.starts, hwalk.adjacent, fun i hi => hwalk.decode_of_mem hi, hin, hpassed, hend,
    fun hshort => ?_, ⟨fun hwhole => ?_, ?_⟩, fun items h => h.sweep_eq.2.symm⟩
  · rw [hstopped, if_neg hshort]
    exact ⟨rfl, hnone⟩
  · rw [hend.mp hwhole, List.take_length] at hpassed
    exact ⟨_, hpassed⟩
  · rintro ⟨items, h⟩
    exact h.sweep_eq.1

theorem sweep_language_of_cut_instruction :
    let bytes : List UInt8 := [0x9C, 0x0C, 0x01, 0xAF, 0xC7]
    Encodes [(.read, 268)] (bytes.take 3) ∧ (sweep (bytes.take 3)).items = [(.read, 268)] ∧
      (sweep bytes).finish = 3 ∧ (sweep bytes).stoppedAt = some 3 := by
  intro bytes
  have hsweep : sweep bytes = ⟨[(0, ⟨.read, 268, 3⟩)], some 3⟩ := by cbv
  have hfinish : (sweep bytes).finish = 3 := by
    rw [hsweep]
    rfl
  have hshort : (sweep bytes).finish ≠ bytes.length := by
    rw [hfinish]
    decide
  have hfits : 268 < Op.read.fieldBound := by decide
  have hencodes : Encodes [(.read, 268)] (bytes.take 3) := Encodes.cons_code hfits .nil
  obtain ⟨-, -, -, -, -, -, hstopped, -⟩ := sweep_language bytes
  obtain ⟨-, -, -, -, -, -, -, -, honly⟩ := sweep_language (bytes.take 3)
  refine ⟨hencodes, (honly _ hencodes).symm, hfinish, ?_⟩
  rw [(hstopped hshort).1, hfinish]

end Uvm
