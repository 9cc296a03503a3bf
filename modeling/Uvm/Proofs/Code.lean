import Uvm.Code.Decoding
import Mathlib.Algebra.Order.Group.Nat

/-! Machine code and what it decodes to. `code` is the one encoding of an instruction: encoding
writes it, decoding reads nothing else, and a sweep that does not stop early has read a sequence
of such codes from end to end. -/
namespace Uvm

namespace Op

/-- The number of bytes of the operand field. -/
def fieldBytes (op : Op) : Nat := op.length - 1

/-- Operands below this fit the field. -/
def fieldBound (op : Op) : Nat := 1 <<< op.fieldBits

end Op

/-- The bytes of an instruction, its operand taken modulo the field. -/
def code (op : Op) (v : Nat) : List UInt8 :=
  op.opcode :: littleEndian op.fieldBytes (v % op.fieldBound)

/-- What the bytes of an instruction decode to. -/
def Decoded.ofCode (op : Op) (v : Nat) : Decoded := ⟨op, v % op.fieldBound, op.length⟩

theorem length_littleEndian (count n : Nat) : (littleEndian count n).length = count := by
  induction count generalizing n with
  | zero => rfl
  | succ count ih => simp [littleEndian, ih]

theorem ofLittleEndian_littleEndian (count n : Nat) :
    ofLittleEndian (littleEndian count n) = n % 256 ^ count := by
  induction count generalizing n with
  | zero => simp [littleEndian, ofLittleEndian, Nat.mod_one]
  | succ count ih =>
    rw [littleEndian, ofLittleEndian, ih, Nat.pow_succ, Nat.mul_comm _ 256, Nat.mod_mul]
    simp

theorem ofLittleEndian_lt (bytes : List UInt8) : ofLittleEndian bytes < 256 ^ bytes.length := by
  induction bytes with
  | nil => simp [ofLittleEndian]
  | cons b rest ih =>
    have hb := b.toNat_lt
    rw [ofLittleEndian, List.length_cons, Nat.pow_succ]
    omega

theorem littleEndian_ofLittleEndian (bytes : List UInt8) :
    littleEndian bytes.length (ofLittleEndian bytes) = bytes := by
  induction bytes with
  | nil => rfl
  | cons b rest ih =>
    have hb := b.toNat_lt
    have hlow : UInt8.ofNat (b.toNat + 256 * ofLittleEndian rest) = b := by
      apply UInt8.toNat_inj.mp
      simp only [UInt8.toNat_ofNat']
      omega
    have hhigh : (b.toNat + 256 * ofLittleEndian rest) / 256 = ofLittleEndian rest := by omega
    rw [ofLittleEndian, List.length_cons, littleEndian, hlow, hhigh, ih]

theorem take_littleEndian {count size : Nat} (h : count ≤ size) (n : Nat) :
    (littleEndian size n).take count = littleEndian count n := by
  induction count generalizing size n with
  | zero => simp [littleEndian]
  | succ count ih =>
    obtain ⟨size, rfl⟩ := Nat.exists_eq_add_of_le' (Nat.lt_of_lt_of_le (Nat.succ_pos count) h)
    rw [littleEndian, List.take_succ_cons, ih (Nat.le_of_succ_le_succ h), littleEndian]

/-- Zeros behind the highest byte change nothing. -/
theorem ofLittleEndian_rightpad (size : Nat) (bytes : List UInt8) :
    ofLittleEndian (bytes.rightpad size 0) = ofLittleEndian bytes := by
  have hzeros (count : Nat) : ofLittleEndian (List.replicate count 0) = 0 := by
    induction count with
    | zero => rfl
    | succ count ih => simp [List.replicate_succ, ofLittleEndian, ih]
  have happend (count : Nat) :
      ofLittleEndian (bytes ++ List.replicate count 0) = ofLittleEndian bytes := by
    induction bytes with
    | nil => exact hzeros count
    | cons b rest ih => simp [ofLittleEndian, ih]
  exact happend _

namespace Op

/-- In the table, the widths in bits and the lengths in bytes go together. -/
theorem fieldBits_eq (op : Op) : op.fieldBits = 8 * op.fieldBytes := by
  cases op <;> rfl

theorem length_eq (op : Op) : op.length = op.fieldBytes + 1 := by
  cases op <;> rfl

theorem fieldBytes_le (op : Op) : op.fieldBytes ≤ 4 := by
  cases op <;> decide

theorem fieldBound_eq_two_pow (op : Op) : op.fieldBound = 2 ^ op.fieldBits := by
  rw [fieldBound, Nat.one_shiftLeft]

theorem fieldBound_eq_pow_fieldBytes (op : Op) : op.fieldBound = 256 ^ op.fieldBytes := by
  rw [fieldBound_eq_two_pow, fieldBits_eq, Nat.pow_mul]

theorem fieldBound_pos (op : Op) : 0 < op.fieldBound := by
  rw [fieldBound_eq_two_pow]
  exact Nat.two_pow_pos _

/-- The mask keeps the remainder modulo the field. -/
theorem and_fieldMask (op : Op) (v : Nat) : v &&& op.fieldMask = v % op.fieldBound := by
  rw [fieldMask, fieldBound, Nat.one_shiftLeft, Nat.and_two_pow_sub_one_eq_mod]

theorem ofOpcode?_opcode (op : Op) : ofOpcode? op.opcode = some op := by
  cases op <;> decide

theorem opcode_of_ofOpcode? {byte : UInt8} {op : Op} (h : ofOpcode? byte = some op) :
    op.opcode = byte := by
  simpa using List.find?_some h

end Op

theorem length_code (op : Op) (v : Nat) : (code op v).length = op.length := by
  rw [code, List.length_cons, length_littleEndian, Op.length_eq]

/-- An operand that is too wide is refused if that is asked for, and then nothing is appended; else
the code of the instruction is. -/
theorem encodeInto_eq (out : List UInt8) (op : Op) (v : Nat) (policy : OnOverflow) :
    encodeInto out op v policy =
      if policy = .reject ∧ op.fieldBound ≤ v then (out, .error ⟨op, v⟩)
      else (out ++ code op v, .ok ()) := by
  have hwide : v % op.fieldBound ≠ v ↔ op.fieldBound ≤ v := by
    rw [ne_eq, Nat.mod_eq_iff_lt op.fieldBound_pos.ne', Nat.not_lt]
  have hfield : (littleEndian 8 (v % op.fieldBound)).take (op.length - 1) =
      littleEndian op.fieldBytes (v % op.fieldBound) :=
    take_littleEndian (Nat.le_trans op.fieldBytes_le (by decide)) _
  simp only [encodeInto, op.and_fieldMask, hwide, hfield, and_comm, code, List.append_assoc,
    List.singleton_append]

/-- A refused operand leaves no byte behind. -/
theorem encodeInto_of_error {out : List UInt8} {op : Op} {v : Nat} {policy : OnOverflow}
    {overflow : Overflow} (h : (encodeInto out op v policy).2 = .error overflow) :
    (encodeInto out op v policy).1 = out := by
  rw [encodeInto_eq] at h ⊢
  split at h
  · next hrefused => rw [if_pos hrefused]
  · cases h

theorem encode_eq (op : Op) (v : Nat) (policy : OnOverflow) :
    encode op v policy =
      if policy = .reject ∧ op.fieldBound ≤ v then .error ⟨op, v⟩ else .ok (code op v) := by
  by_cases hrefused : policy = .reject ∧ op.fieldBound ≤ v
  · rw [encode, encodeInto_eq, if_pos hrefused, if_pos hrefused]
  · rw [encode, encodeInto_eq, if_neg hrefused, if_neg hrefused, List.nil_append]

theorem encode_eq_ok_iff {op : Op} {v : Nat} {policy : OnOverflow} {bytes : List UInt8} :
    encode op v policy = .ok bytes ↔
      (policy = .reject → v < op.fieldBound) ∧ bytes = code op v := by
  rw [encode_eq]
  split
  · next hrefused =>
    simp only [reduceCtorEq, false_iff]
    rintro ⟨hfits, -⟩
    exact absurd (hfits hrefused.1) (Nat.not_lt.mpr hrefused.2)
  · next haccepted =>
    simp only [not_and, Nat.not_le] at haccepted
    rw [Except.ok.injEq, eq_comm]
    exact ⟨fun h => ⟨haccepted, h⟩, And.right⟩

theorem encode_eq_error_iff {op : Op} {v : Nat} {policy : OnOverflow} {overflow : Overflow} :
    encode op v policy = .error overflow ↔
      (policy = .reject ∧ op.fieldBound ≤ v) ∧ overflow = ⟨op, v⟩ := by
  rw [encode_eq]
  split
  · next hrefused => simp [hrefused, eq_comm]
  · next haccepted => simp [haccepted]

/-- The code of an instruction is found by its opcode and the bytes behind it. -/
theorem decode_cons (byte : UInt8) (rest : List UInt8) :
    decode (byte :: rest) =
      (Op.ofOpcode? byte).bind fun op =>
        if op.fieldBytes ≤ rest.length then
          some ⟨op, ofLittleEndian (rest.take op.fieldBytes), op.length⟩
        else none := by
  rw [decode]
  cases Op.ofOpcode? byte with
  | none => rfl
  | some op =>
    simp only [ofLittleEndian_rightpad]
    rfl

theorem decode_code_append (op : Op) (v : Nat) (rest : List UInt8) :
    decode (code op v ++ rest) = some (.ofCode op v) := by
  have htake : (littleEndian op.fieldBytes (v % op.fieldBound) ++ rest).take op.fieldBytes =
      littleEndian op.fieldBytes (v % op.fieldBound) := by
    rw [List.take_append_of_le_length (by rw [length_littleEndian]),
      List.take_of_length_le (by rw [length_littleEndian])]
  have hlength : op.fieldBytes ≤
      (littleEndian op.fieldBytes (v % op.fieldBound) ++ rest).length := by
    rw [List.length_append, length_littleEndian]
    exact Nat.le_add_right _ _
  rw [code, List.cons_append, decode_cons, Op.ofOpcode?_opcode, Option.bind_some, if_pos hlength,
    htake, ofLittleEndian_littleEndian, ← Op.fieldBound_eq_pow_fieldBytes, Nat.mod_mod]
  rfl

/-- Nothing but the code of an instruction decodes to it. -/
theorem code_of_decode {bytes : List UInt8} {d : Decoded} (h : decode bytes = some d) :
    bytes = code d.op d.operand ++ bytes.drop d.length ∧
      d.operand < d.op.fieldBound ∧ d.length = d.op.length := by
  cases bytes with
  | nil => cases h
  | cons byte rest =>
    rw [decode_cons, Option.bind_eq_some_iff] at h
    obtain ⟨op, hop, h⟩ := h
    split at h
    · next hlength =>
      cases h
      have hwhole : (rest.take op.fieldBytes).length = op.fieldBytes :=
        List.length_take_of_le hlength
      have hlt : ofLittleEndian (rest.take op.fieldBytes) < op.fieldBound := by
        have := ofLittleEndian_lt (rest.take op.fieldBytes)
        rwa [hwhole, ← Op.fieldBound_eq_pow_fieldBytes] at this
      have hfield := littleEndian_ofLittleEndian (rest.take op.fieldBytes)
      rw [hwhole] at hfield
      refine ⟨?_, hlt, rfl⟩
      rw [code, Nat.mod_eq_of_lt hlt, hfield, Op.opcode_of_ofOpcode? hop, Op.length_eq,
        List.drop_succ_cons, List.cons_append, List.take_append_drop]
    · cases h

theorem Decoded.eq_ofCode {bytes : List UInt8} {d : Decoded} (h : decode bytes = some d) :
    d = .ofCode d.op d.operand := by
  obtain ⟨-, hlt, hlength⟩ := code_of_decode h
  cases d
  simp_all [Decoded.ofCode, Nat.mod_eq_of_lt]

theorem sweepFrom_of_decode {bytes : List UInt8} {d : Decoded} (h : decode bytes = some d)
    (offset : Nat) :
    sweepFrom offset bytes =
      ⟨(offset, d) :: (sweepFrom (offset + d.length) (bytes.drop d.length)).instructions,
        (sweepFrom (offset + d.length) (bytes.drop d.length)).stoppedAt⟩ := by
  rw [sweepFrom]
  split <;> simp_all

theorem instructions_sweepFrom_of_decode_none {bytes : List UInt8} (h : decode bytes = none)
    (offset : Nat) : (sweepFrom offset bytes).instructions = [] := by
  rw [sweepFrom]
  split <;> simp_all

theorem sweepFrom_nil (offset : Nat) : sweepFrom offset [] = ⟨[], none⟩ := by
  rw [sweepFrom]
  rfl

theorem sweepFrom_code_append (op : Op) (v offset : Nat) (rest : List UInt8) :
    sweepFrom offset (code op v ++ rest) =
      ⟨(offset, .ofCode op v) :: (sweepFrom (offset + op.length) rest).instructions,
        (sweepFrom (offset + op.length) rest).stoppedAt⟩ := by
  have hdrop : (code op v ++ rest).drop op.length = rest := by
    rw [← length_code op v, List.drop_left]
  rw [sweepFrom_of_decode (decode_code_append op v rest)]
  simp only [Decoded.ofCode, hdrop]

/-- A sequence of codes is swept to its end, one instruction for each code. -/
theorem sweepFrom_codes (items : List (Op × Nat)) (offset : Nat) :
    (sweepFrom offset (items.flatMap fun i => code i.1 i.2)).stoppedAt = none ∧
      (sweepFrom offset (items.flatMap fun i => code i.1 i.2)).instructions.map Prod.snd =
        items.map fun i => .ofCode i.1 i.2 := by
  induction items generalizing offset with
  | nil => simp [sweepFrom_nil]
  | cons i items ih =>
    obtain ⟨hstop, hlist⟩ := ih (offset + i.1.length)
    rw [List.flatMap_cons, sweepFrom_code_append]
    exact ⟨hstop, by rw [List.map_cons, List.map_cons, hlist]⟩

/-- A byte string that is swept to its end is the sequence of the codes found in it. -/
theorem codes_of_sweepFrom {bytes : List UInt8} {offset : Nat}
    (h : (sweepFrom offset bytes).stoppedAt = none) :
    bytes = (sweepFrom offset bytes).instructions.flatMap fun i => code i.2.op i.2.operand := by
  fun_induction sweepFrom offset bytes with
  | case1 offset bytes hd => simpa using h
  | case2 offset bytes d hd rest ih =>
    rw [List.flatMap_cons, ← ih h]
    exact (code_of_decode hd).1

theorem eq_ofCode_of_mem_sweepFrom {bytes : List UInt8} {offset : Nat} {i : Nat × Decoded}
    (h : i ∈ (sweepFrom offset bytes).instructions) :
    i.2 = .ofCode i.2.op i.2.operand := by
  fun_induction sweepFrom offset bytes with
  | case1 offset bytes hd => simp at h
  | case2 offset bytes d hd rest ih =>
    rcases List.mem_cons.mp h with rfl | h
    · exact Decoded.eq_ofCode hd
    · exact ih h

theorem le_of_mem_sweepFrom {bytes : List UInt8} {offset : Nat} {i : Nat × Decoded}
    (h : i ∈ (sweepFrom offset bytes).instructions) : offset ≤ i.1 := by
  fun_induction sweepFrom offset bytes with
  | case1 offset bytes hd => simp at h
  | case2 offset bytes d hd rest ih =>
    rcases List.mem_cons.mp h with rfl | h
    · exact Nat.le_refl _
    · have := ih h
      omega

end Uvm
