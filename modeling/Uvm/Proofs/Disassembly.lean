import Uvm.Proofs.LabelFree

/-! Machine code and its disassembly. Byte strings that can be swept to their end are exactly what
assembling gives, and the source they are disassembled to assembles to the same bytes under all
settings. -/
namespace Uvm

/-- The command that a decoded instruction is printed as. -/
def Decoded.command (d : Decoded) : Command := ⟨.known d.op, [Text.decimal d.operand], 0⟩

theorem Decoded.source_command (d : Decoded) : d.command.source = d.source := by
  simp only [command, Command.source, List.intercalate_singleton, source]
  rfl

theorem Op.isWord_mnemonic (op : Op) : Line.IsWord op.mnemonic := by
  have hchars : op.mnemonic.all (fun c => !Text.isBlank c && c != ';') = true := by
    cases op <;> decide
  refine ⟨by cases op <;> decide, fun c hc => ?_⟩
  simpa using List.all_eq_true.mp hchars c hc

theorem Op.upper_mnemonic (op : Op) : Text.upper op.mnemonic = op.mnemonic := by
  cases op <;> decide

theorem Decoded.plain (d : Decoded) : d.command.Plain := by
  refine ⟨?_, ?_, d.op.isWord_mnemonic, fun o ho => ?_, fun hcolon => ?_⟩
  · exact Mnemonic.ofText_mnemonic d.op
  · exact d.op.upper_mnemonic
  · rw [List.mem_singleton.mp ho]
    exact ⟨isOperand_decimal d.operand, looksNumeric_decimal d.operand⟩
  · have hlast : (Text.decimal d.operand).getLast? = some ':' := by
      rw [Decoded.source_command, Decoded.source,
        List.getLast?_append_of_ne_nil _ (Text.decimal_ne_nil _)] at hcolon
      exact hcolon
    exact absurd (Text.isDigit_of_mem_decimal (List.mem_of_getLast? hlast)) (by decide)

theorem Sweep.source_eq (s : Sweep) :
    s.source =
      List.intercalate "\n" ((s.instructions.map fun i => i.2.command).map Command.source) := by
  rw [source, List.map_map]
  congr 1
  exact List.map_congr_left fun i _ => (Decoded.source_command i.2).symm

/-- An operand that fits its field is printed and read without loss. -/
theorem Command.encode_known {op : Op} {v line : Nat} (h : v < op.fieldBound)
    (policy : OnOverflow) :
    (⟨.known op, [Text.decimal v], line⟩ : Command).encode policy = .ok ⟨op, v, code op v⟩ := by
  have hbound : op.fieldBound ≤ Literal.bound := by cases op <;> decide
  refine encode_eq_ok_iff.mpr ⟨rfl, ⟨_, rfl, ?_⟩, fun _ => h, rfl⟩
  exact Literal.parse_decimal (Nat.lt_of_lt_of_le h hbound)

theorem lt_of_mem_sweepFrom {bytes : List UInt8} {offset : Nat} {i : Nat × Decoded}
    (h : i ∈ (sweepFrom offset bytes).instructions) : i.2.operand < i.2.op.fieldBound := by
  have hcode := congrArg Decoded.operand (eq_ofCode_of_mem_sweepFrom h)
  rw [hcode]
  exact Nat.mod_lt _ i.2.op.fieldBound_pos

theorem generate_commands {instructions : List (Nat × Decoded)}
    (h : ∀ i ∈ instructions, i.2.operand < i.2.op.fieldBound) (settings : Settings) :
    (generate settings (instructions.map fun i => i.2.command)).result =
      .ok ⟨instructions.flatMap fun i => code i.2.op i.2.operand, []⟩ := by
  have hencode : ∀ i ∈ instructions, i.2.command.encode settings.overflow =
      .ok ⟨i.2.op, i.2.operand, code i.2.op i.2.operand⟩ :=
    fun i hi => Command.encode_known (h i hi) _
  rw [generate_of_no_fault]
  · rw [List.flatMap_map, List.flatMap_congr fun i hi => Command.bytes_of_ok (hencode i hi)]
  · intro c hc
    obtain ⟨i, hi, rfl⟩ := List.mem_map.mp hc
    exact Command.fault?_of_ok (hencode i hi)

/-- The disassembly of a whole byte string assembles to it. -/
theorem assemble_source_sweep {bytes : List UInt8} (h : (sweep bytes).stoppedAt = none)
    (settings : Settings) : assemble settings (sweep bytes).source = .ok ⟨bytes, []⟩ := by
  have hplain : ∀ c ∈ (sweep bytes).instructions.map (fun i => i.2.command), c.Plain := by
    intro c hc
    obtain ⟨i, -, rfl⟩ := List.mem_map.mp hc
    exact i.2.plain
  have hcodes : bytes = (sweep bytes).instructions.flatMap fun i => code i.2.op i.2.operand :=
    codes_of_sweepFrom h
  have hfits : ∀ i ∈ (sweep bytes).instructions, i.2.operand < i.2.op.fieldBound :=
    fun i hi => lt_of_mem_sweepFrom hi
  have hgenerate := generate_commands hfits settings
  rw [generate_eq_assemble_sources hplain, ← Sweep.source_eq, ← hcodes] at hgenerate
  exact eq_ok_of_relocate hgenerate

/-- Disassembling and assembling again gives back every byte string that is made of whole
instructions, and these are all that assembling ever gives, dropped commands or not. -/
theorem assemble_disassembly :
    (∀ (settings : Settings) (bytes : List UInt8), (sweep bytes).stoppedAt = none →
      assemble settings (sweep bytes).source = .ok ⟨bytes, []⟩) ∧
    ∀ (settings : Settings) (source : Text) (a : Assembly), assemble settings source = .ok a →
      (sweep a.bytes).stoppedAt = none ∧
        ∀ other : Settings, assemble other (sweep a.bytes).source = .ok ⟨a.bytes, []⟩ := by
  refine ⟨fun settings bytes h => assemble_source_sweep h settings, fun settings source a h => ?_⟩
  obtain ⟨commands, -, hgenerate⟩ := assemble_eq_ok_iff.mp h
  have hstop := (sweep_generate hgenerate).1
  exact ⟨hstop, assemble_source_sweep hstop⟩

theorem assemble_disassembly_of_best_effort :
    let a : Assembly := ⟨[0xCA, 1, 0, 0, 0x9C, 0x45, 0x23], [⟨2, .unknownMnemonic "JMP"⟩]⟩
    assemble .bestEffort "LOAD 1\nJMP 2\nREAD 0x12345" = .ok a ∧
      (sweep a.bytes).stoppedAt = none ∧
      assemble .strict (sweep a.bytes).source = .ok ⟨a.bytes, []⟩ := by
  intro a
  have hok : assemble .bestEffort "LOAD 1\nJMP 2\nREAD 0x12345" = .ok a := by rfl
  obtain ⟨hstop, -⟩ := assemble_disassembly.2 _ _ a hok
  exact ⟨hok, hstop, assemble_disassembly.1 .strict a.bytes hstop⟩

end Uvm
