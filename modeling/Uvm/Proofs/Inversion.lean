import Uvm.Proofs.Language

/-! Encoding and decoding undo each other wherever the bytes stand. An encoded instruction is found
again whatever comes after it, and what was decoded is encoded again to the bytes it was read from,
on which alone it depends. Both sides can refuse, and it is said exactly when. -/
namespace Uvm

/-- Byte strings that do not start with a whole instruction. -/
inductive Undecodable : List UInt8 → Prop where
  | empty : Undecodable []
  | unknown {byte : UInt8} {rest : List UInt8} (unused : ∀ op : Op, op.opcode ≠ byte) :
      Undecodable (byte :: rest)
  | cut {op : Op} {rest : List UInt8} (short : (op.opcode :: rest).length < op.length) :
      Undecodable (op.opcode :: rest)

theorem decode_cons_of_unused {byte : UInt8} (unused : ∀ op : Op, op.opcode ≠ byte)
    (rest : List UInt8) : decode (byte :: rest) = none := by
  rw [decode_cons]
  cases hop : Op.ofOpcode? byte with
  | none => rfl
  | some op => exact absurd (Op.opcode_of_ofOpcode? hop) (unused op)

theorem decode_opcode_cons_eq_none_iff {op : Op} {rest : List UInt8} :
    decode (op.opcode :: rest) = none ↔ (op.opcode :: rest).length < op.length := by
  have hshort : op.fieldBytes ≤ rest.length ↔ ¬ (op.opcode :: rest).length < op.length := by
    rw [List.length_cons, Op.length_eq]
    omega
  rw [decode_cons, Op.ofOpcode?_opcode, Option.bind_some]
  simp only [hshort, ite_eq_right_iff, reduceCtorEq, imp_false, not_not]

theorem decode_eq_none_iff {bytes : List UInt8} : decode bytes = none ↔ Undecodable bytes := by
  constructor
  · intro hnone
    cases bytes with
    | nil => exact .empty
    | cons byte rest =>
      by_cases hop : ∃ op : Op, op.opcode = byte
      · obtain ⟨op, rfl⟩ := hop
        exact .cut (decode_opcode_cons_eq_none_iff.mp hnone)
      · exact .unknown fun op hbyte => hop ⟨op, hbyte⟩
  · intro h
    cases h with
    | empty => rfl
    | unknown unused => exact decode_cons_of_unused unused _
    | cut short => exact decode_opcode_cons_eq_none_iff.mpr short

section
variable {bytes : List UInt8} {d : Decoded} (h : decode bytes = some d)
include h

theorem take_of_decode : bytes.take d.length = code d.op d.operand := by
  obtain ⟨hbytes, -, hlength⟩ := code_of_decode h
  rw [hlength] at hbytes ⊢
  rw [hbytes, ← length_code d.op d.operand, List.take_left]

/-- A decoded instruction is encoded to the bytes it was read from. -/
theorem encode_of_decode : encode d.op d.operand .reject = .ok (bytes.take d.length) := by
  obtain ⟨-, hfits, -⟩ := code_of_decode h
  exact encode_eq_ok_iff.mpr ⟨fun _ => hfits, take_of_decode h⟩

/-- Decoding does not look past the instruction that it finds. -/
theorem decode_of_take_prefix {other : List UInt8} (hfront : bytes.take d.length <+: other) :
    decode other = some d := by
  obtain ⟨rest, rfl⟩ := hfront
  rw [take_of_decode h, decode_code_append, ← Decoded.eq_ofCode h]

end

/-- Encoding refuses an operand exactly when it does not fit and is to be rejected; otherwise the
instruction has the length of its kind and is decoded again, with the operand modulo the field,
whatever follows it. What is decoded lies within the bytes, has an operand that fits, is encoded to
the bytes it was read from, and is read from every byte string that starts with these; and nothing
is decoded only where no whole instruction stands. -/
theorem encode_decode_inverse :
    (∀ (op : Op) (v : Nat) (policy : OnOverflow),
      (∀ overflow, encode op v policy = .error overflow ↔
        (policy = .reject ∧ 2 ^ op.fieldBits ≤ v) ∧ overflow = ⟨op, v⟩) ∧
      (¬ (policy = .reject ∧ 2 ^ op.fieldBits ≤ v) → ∃ front,
        encode op v policy = .ok front ∧ front.length = op.length ∧
        ∀ rest, decode (front ++ rest) = some ⟨op, v % 2 ^ op.fieldBits, op.length⟩)) ∧
    ∀ bytes : List UInt8,
      (∀ d, decode bytes = some d →
        d.length = d.op.length ∧ d.length ≤ bytes.length ∧ d.operand < 2 ^ d.op.fieldBits ∧
        encode d.op d.operand .reject = .ok (bytes.take d.length) ∧
        ∀ other, bytes.take d.length <+: other → decode other = some d) ∧
      (decode bytes = none ↔ Undecodable bytes) := by
  simp only [← Op.fieldBound_eq_two_pow]
  refine ⟨fun op v policy => ⟨fun overflow => encode_eq_error_iff, fun hfits => ?_⟩,
    fun bytes => ⟨fun d hd => ?_, decode_eq_none_iff⟩⟩
  · have hencode : encode op v policy = .ok (code op v) := by
      refine encode_eq_ok_iff.mpr ⟨fun hreject => ?_, rfl⟩
      by_contra hwide
      exact hfits ⟨hreject, Nat.le_of_not_lt hwide⟩
    exact ⟨_, hencode, length_code op v, decode_code_append op v⟩
  · obtain ⟨-, hfits, hlength⟩ := code_of_decode hd
    exact ⟨hlength, length_le_of_decode hd, hfits, encode_of_decode hd,
      fun other hfront => decode_of_take_prefix hd hfront⟩

theorem encode_decode_inverse_at_field_bounds :
    encode .read 0x10000 .reject = .error ⟨.read, 0x10000⟩ ∧
    (∃ front, encode .read 0x1FFFF .mask = .ok front ∧
      decode (front ++ [0xCA, 1]) = some ⟨.read, 0xFFFF, 3⟩) ∧
    decode [0xAF, 0xFF, 0xFF, 0xFF, 0x9C] = some ⟨.sub, 0xFFFFFF, 4⟩ ∧
    encode .sub 0xFFFFFF .reject = .ok [0xAF, 0xFF, 0xFF, 0xFF] ∧
    decode [0xAF, 0xFF, 0xFF] = none := by
  obtain ⟨hencode, hdecode⟩ := encode_decode_inverse
  have hrefused := (hencode .read 0x10000 .reject).1 ⟨.read, 0x10000⟩
  obtain ⟨front, hfront, -, hrest⟩ := (hencode .read 0x1FFFF .mask).2 (by decide)
  have hsub : decode [0xAF, 0xFF, 0xFF, 0xFF, 0x9C] = some ⟨.sub, 0xFFFFFF, 4⟩ := by decide
  obtain ⟨-, -, -, hagain, -⟩ := (hdecode _).1 _ hsub
  refine ⟨hrefused.mpr (by decide), ⟨front, hfront, hrest _⟩, hsub, hagain, ?_⟩
  have hcut : Undecodable (Op.sub.opcode :: [0xFF, 0xFF]) := .cut (by decide)
  exact (hdecode _).2.mpr hcut

end Uvm
