import Uvm.Proofs.Binding
import Uvm.Proofs.Overflow

/-! Where a labelled instruction ends up. A label stands for the number of commands above it, but
best effort may drop some of them. The machine code of the commands above is a front part of all the
machine code, the instructions in it are as many as were not dropped, and the labelled instruction
is the next one. So the index is its place as long as nothing above was dropped. -/
namespace Uvm

theorem pairwise_offset_sweepFrom (offset : Nat) (bytes : List UInt8) :
    (sweepFrom offset bytes).instructions.Pairwise fun i j => i.1 < j.1 := by
  fun_induction sweepFrom offset bytes with
  | case1 offset bytes hd => exact .nil
  | case2 offset bytes d hd rest ih =>
    refine List.pairwise_cons.mpr ⟨fun j hj => ?_, ih⟩
    have hpos := decode_length_pos hd
    have hle := le_of_mem_sweepFrom hj
    dsimp only
    omega

/-- No two instructions of a sweep start at the same place. -/
theorem index_unique_of_offset {bytes : List UInt8} {i j : Nat} {x y : Nat × Decoded}
    (hi : (sweep bytes).instructions[i]? = some x) (hj : (sweep bytes).instructions[j]? = some y)
    (hsame : x.1 = y.1) : i = j := by
  have hnodup : ((sweep bytes).instructions.map Prod.fst).Nodup := by
    rw [List.Nodup, List.pairwise_map]
    exact (pairwise_offset_sweepFrom 0 bytes).imp fun h => Nat.ne_of_lt h
  obtain ⟨hlt, -⟩ := List.getElem?_eq_some_iff.mp hi
  refine (List.getElem?_inj (by rwa [List.length_map]) hnodup).mp ?_
  rw [List.getElem?_map, List.getElem?_map, hi, hj, Option.map_some, Option.map_some, hsame]

/-- A sweep goes over codes first and then over what comes after them. -/
theorem sweepFrom_codes_append (items : List (Op × Nat)) (rest : List UInt8) (offset : Nat) :
    (sweepFrom offset ((items.flatMap fun i => code i.1 i.2) ++ rest)).instructions =
      (sweepFrom offset (items.flatMap fun i => code i.1 i.2)).instructions ++
        (sweepFrom (offset + (items.flatMap fun i => code i.1 i.2).length) rest).instructions := by
  induction items generalizing offset with
  | nil => simp [sweepFrom_nil]
  | cons i items ih =>
    rw [List.flatMap_cons, List.append_assoc, sweepFrom_code_append, sweepFrom_code_append, ih,
      List.length_append, length_code, Nat.add_assoc]
    rfl

namespace Command

theorem line_of_encode_error {policy : OnOverflow} {command : Command} {fault : Fault}
    (h : command.encode policy = .error fault) : fault.line = command.line := by
  unfold encode at h
  split at h
  · cases h
    rfl
  · split at h
    · split at h
      · cases h
        rfl
      · split at h
        · cases h
          rfl
        · cases h
    · cases h
      rfl

theorem line_of_fault? {policy : OnOverflow} {command : Command} {fault : Fault}
    (h : command.fault? policy = some fault) : fault.line = command.line := by
  cases hencode : command.encode policy with
  | ok e =>
    rw [fault?_of_ok hencode] at h
    cases h
  | error other =>
    rw [fault?_of_error hencode] at h
    cases h
    exact line_of_encode_error hencode

/-- A command is encoded or has a fault. -/
theorem length_items_add_length_faults (policy : OnOverflow) (commands : List Command) :
    (commands.filterMap (item? policy)).length + (commands.filterMap (fault? policy)).length =
      commands.length := by
  induction commands with
  | nil => rfl
  | cons c rest ih =>
    rw [List.filterMap_cons, List.filterMap_cons, List.length_cons, ← ih]
    cases h : c.encode policy with
    | ok e =>
      simp only [item?, h, fault?_of_ok h, List.length_cons]
      omega
    | error fault =>
      simp only [item?, h, fault?_of_error h, List.length_cons]
      omega

/-- The machine code of commands starts with that of the first ones, and what is found in it starts
with what is found there. -/
theorem instructions_sweep_append (policy : OnOverflow) (before after : List Command) :
    (sweep ((before ++ after).flatMap (bytes policy))).instructions =
      (sweep (before.flatMap (bytes policy))).instructions ++
        (sweepFrom (before.flatMap (bytes policy)).length
          (after.flatMap (bytes policy))).instructions := by
  have happend := sweepFrom_codes_append (before.filterMap (item? policy))
    (after.flatMap (bytes policy)) 0
  rw [← flatMap_bytes, Nat.zero_add] at happend
  rw [List.flatMap_append]
  exact happend

theorem sweepFrom_bytes_cons {policy : OnOverflow} {command : Command} {d : Decoded}
    (h : command.instruction? policy = some d) (rest : List Command) (offset : Nat) :
    (sweepFrom offset ((command :: rest).flatMap (bytes policy))).instructions.head? =
      some (offset, d) := by
  cases hencode : command.encode policy with
  | error fault =>
    rw [instruction?_of_error hencode] at h
    cases h
  | ok e =>
    rw [instruction?_of_ok hencode] at h
    cases h
    rw [List.flatMap_cons, bytes_of_ok hencode, (encode_eq_ok_iff.mp hencode).2.2.2,
      sweepFrom_code_append]
    rfl

/-- The instruction of a command comes after the instructions of the commands before it. -/
theorem getElem?_sweep_bytes {policy : OnOverflow} {commands : List Command} {k : Nat} {c : Command}
    {d : Decoded} (hc : commands[k]? = some c) (hd : c.instruction? policy = some d) :
    (sweep (commands.flatMap (bytes policy))).instructions[
        (sweep ((commands.take k).flatMap (bytes policy))).instructions.length]? =
      some (((commands.take k).flatMap (bytes policy)).length, d) := by
  obtain ⟨hlt, rfl⟩ := List.getElem?_eq_some_iff.mp hc
  have hsplit : commands = commands.take k ++ commands[k] :: commands.drop (k + 1) := by
    rw [← List.drop_eq_getElem_cons hlt, List.take_append_drop]
  have hinstructions := instructions_sweep_append policy (commands.take k)
    (commands[k] :: commands.drop (k + 1))
  rw [← hsplit] at hinstructions
  rw [hinstructions, List.getElem?_append_right (Nat.le_refl _), Nat.sub_self,
    ← List.head?_eq_getElem?, sweepFrom_bytes_cons hd]

end Command

namespace Program

variable {commands : List Command} {l k : Nat}

theorem Separates.map (h : Separates commands l k) {f : Command → Command}
    (hf : ∀ c, (f c).line = c.line) : Separates (commands.map f) l k := by
  refine ⟨by rw [List.length_map]; exact h.le_length, ?_, ?_⟩
  · rw [← List.map_take, List.forall_mem_map]
    intro c hc
    rw [hf]
    exact h.above c hc
  · rw [← List.map_drop, List.forall_mem_map]
    intro c hc
    rw [hf]
    exact h.below c hc

theorem Separates.mem_take_iff (h : Separates commands l k) {c : Command} :
    c ∈ commands.take k ↔ c ∈ commands ∧ c.line < l := by
  constructor
  · intro hc
    exact ⟨List.mem_of_mem_take hc, h.above c hc⟩
  · rintro ⟨hc, hlt⟩
    rw [← List.take_append_drop k commands, List.mem_append] at hc
    rcases hc with hc | hc
    · exact hc
    · have := h.below c hc
      omega

/-- The faults on lines above a label are those of the commands before it. -/
theorem Separates.countP_faults (h : Separates commands l k) (policy : OnOverflow) :
    (commands.filterMap (Command.fault? policy)).countP (fun fault => decide (fault.line < l)) =
      ((commands.take k).filterMap (Command.fault? policy)).length := by
  have hsplit : commands.filterMap (Command.fault? policy) =
      (commands.take k).filterMap (Command.fault? policy) ++
        (commands.drop k).filterMap (Command.fault? policy) := by
    rw [← List.filterMap_append, List.take_append_drop]
  have habove : ((commands.take k).filterMap (Command.fault? policy)).countP
      (fun fault => decide (fault.line < l)) =
        ((commands.take k).filterMap (Command.fault? policy)).length := by
    rw [List.countP_eq_length]
    intro fault hfault
    obtain ⟨c, hc, hfault⟩ := List.mem_filterMap.mp hfault
    rw [decide_eq_true_eq, Command.line_of_fault? hfault]
    exact h.above c hc
  have hbelow : ((commands.drop k).filterMap (Command.fault? policy)).countP
      (fun fault => decide (fault.line < l)) = 0 := by
    rw [List.countP_eq_zero]
    intro fault hfault
    obtain ⟨c, hc, hfault⟩ := List.mem_filterMap.mp hfault
    have := h.below c hc
    rw [decide_eq_true_eq, Command.line_of_fault? hfault]
    omega
  rw [hsplit, List.countP_append, habove, hbelow, Nat.add_zero]

/-- Among resolved commands, too, a label separates those above its line from those below it. -/
theorem separates_of_get? {source name : Text} {program : Program} {commands : List Command}
    (hprogram : ofLines (Text.lines source) = .ok program)
    (hcommands : resolveSource source = .ok commands)
    (hline : Line.At (linesOf source) l (.label name))
    (hindex : program.labels.get? name = some k) : Separates commands l k := by
  obtain ⟨hlabels, rfl⟩ := ofLines_eq_ok_iff_wellLabelled.mp hprogram
  obtain ⟨-, rfl⟩ := resolveSource_eq_ok_iff.mp hcommands
  obtain ⟨j, hj⟩ := exists_separates hline
  have hget : (table (linesOf source)).get? name = some j :=
    (get?_table_eq_some_iff hlabels).mpr ⟨l, hline, hj⟩
  obtain rfl : k = j := Option.some.inj (hindex.symm.trans hget)
  exact hj.map fun c => rfl

end Program

theorem length_sweep_generate {policy : OnOverflow} {commands : List Command} {a : Assembly}
    (h : (generate ⟨.bestEffort, policy⟩ commands).result = .ok a) :
    (sweep a.bytes).instructions.length + a.diagnostics.length = commands.length := by
  have hlength := congrArg List.length (sweep_generate h).2
  rw [List.length_map, List.length_map] at hlength
  rw [hlength, (of_generate_eq_ok h).2, Command.length_items_add_length_faults]

/-- The commands above a label make as many instructions as they are when none is dropped. -/
theorem Program.Separates.length_sweep_iff {commands : List Command} {l k : Nat}
    (h : Separates commands l k) (policy : OnOverflow) :
    (sweep ((commands.take k).flatMap (Command.bytes policy))).instructions.length = k ↔
      ∀ c ∈ commands, c.line < l → (c.encodeInto policy []).result = .ok () := by
  have hlength := length_sweep_generate (generate_bestEffort policy (commands.take k))
  rw [List.length_take_of_le h.le_length] at hlength
  have hnone :
      (sweep ((commands.take k).flatMap (Command.bytes policy))).instructions.length = k ↔
        (commands.take k).filterMap (Command.fault? policy) = [] := by
    rw [← List.length_eq_zero_iff]
    dsimp only at hlength
    omega
  rw [hnone, List.filterMap_eq_nil_iff]
  simp only [h.mem_take_iff, and_imp, Command.fault?_eq_none_iff_encodeInto]

/-- Under best effort, the machine code of the commands above a label is a front part of all the
machine code, and it holds as many instructions as the index of the label less the commands above it
that were dropped. The labelled instruction follows it. So it has the index of the label exactly
when no command above the label was dropped. -/
theorem label_emitted {source name : Text} {program : Program} {commands : List Command} {l k : Nat}
    (hprogram : Program.ofLines (Text.lines source) = .ok program)
    (hcommands : resolveSource source = .ok commands)
    (hline : Line.At (Program.linesOf source) l (.label name))
    (hindex : program.labels.get? name = some k) (policy : OnOverflow) :
    ∃ a p : Assembly,
      (generate ⟨.bestEffort, policy⟩ commands).result = .ok a ∧
      (generate ⟨.bestEffort, policy⟩ (commands.take k)).result = .ok p ∧
      p.bytes <+: a.bytes ∧ (sweep p.bytes).stoppedAt = none ∧
      (sweep p.bytes).instructions.length +
        a.diagnostics.countP (fun fault => decide (fault.line < l)) = k ∧
      ((sweep p.bytes).instructions.length = k ↔
        ∀ c ∈ commands, c.line < l → (c.encodeInto policy []).result = .ok ()) ∧
      ∀ c d, commands[k]? = some c → c.instruction? policy = some d →
        (sweep a.bytes).instructions[(sweep p.bytes).instructions.length]? =
          some (p.bytes.length, d) ∧
        ((sweep a.bytes).instructions[k]? = some (p.bytes.length, d) ↔
          ∀ c ∈ commands, c.line < l → (c.encodeInto policy []).result = .ok ()) := by
  have hseparates := Program.separates_of_get? hprogram hcommands hline hindex
  have ha := generate_bestEffort policy commands
  have hp := generate_bestEffort policy (commands.take k)
  have hlength := length_sweep_generate hp
  rw [List.length_take_of_le hseparates.le_length] at hlength
  have hplace := hseparates.length_sweep_iff policy
  refine ⟨_, _, ha, hp, ?_, (sweep_generate hp).1, ?_, hplace, fun c d hc hd => ?_⟩
  · refine ⟨(commands.drop k).flatMap (Command.bytes policy), ?_⟩
    rw [← List.flatMap_append, List.take_append_drop]
  · rw [hseparates.countP_faults]
    exact hlength
  · have hnext := Command.getElem?_sweep_bytes hc hd
    refine ⟨hnext, ?_⟩
    rw [← hplace]
    constructor
    · intro hk
      exact index_unique_of_offset hnext hk rfl
    · intro hk
      rwa [hk] at hnext

theorem label_emitted_behind_dropped_command :
    let source : Text := "LOAD 1\nJMP 2\nhere:\nSUB here"
    let program : Program := ⟨[⟨.known .load, ["1"], 1⟩, ⟨.unsupported "JMP", ["2"], 2⟩,
      ⟨.known .sub, ["here"], 4⟩], ⟨[⟨"here", 2, 3⟩]⟩⟩
    let commands : List Command := [⟨.known .load, ["1"], 1⟩, ⟨.unsupported "JMP", ["2"], 2⟩,
      ⟨.known .sub, ["2"], 4⟩]
    Program.ofLines (Text.lines source) = .ok program ∧ resolveSource source = .ok commands ∧
      Line.At (Program.linesOf source) 3 (.label "here") ∧
      program.labels.get? "here" = some 2 ∧
      ∃ a p : Assembly, (generate ⟨.bestEffort, .mask⟩ commands).result = .ok a ∧
        a.diagnostics = [⟨2, .unknownMnemonic "JMP"⟩] ∧
        (sweep p.bytes).instructions.length = 1 ∧
        (sweep a.bytes).instructions[1]? = some (p.bytes.length, ⟨.sub, 2, 4⟩) ∧
        (sweep a.bytes).instructions[2]? ≠ some (p.bytes.length, ⟨.sub, 2, 4⟩) := by
  intro source program commands
  have hprogram : Program.ofLines (Text.lines source) = .ok program := by rfl
  have hcommands : resolveSource source = .ok commands := by rfl
  have hline : Line.At (Program.linesOf source) 3 (.label "here") := ⟨2, by decide, rfl⟩
  have hindex : program.labels.get? "here" = some 2 := by rfl
  obtain ⟨a, p, ha, -, -, -, hlength, -, hplace⟩ :=
    label_emitted hprogram hcommands hline hindex .mask
  have hdiagnostics : a.diagnostics = [⟨2, .unknownMnemonic "JMP"⟩] := by
    have hcomputed := generate_bestEffort .mask commands
    rw [ha] at hcomputed
    rw [Except.ok.inj hcomputed]
    decide
  have hone : (sweep p.bytes).instructions.length = 1 := by
    rw [hdiagnostics] at hlength
    exact Nat.add_right_cancel hlength
  obtain ⟨hnext, hiff⟩ := hplace ⟨.known .sub, ["2"], 4⟩ ⟨.sub, 2, 4⟩ rfl (by decide)
  rw [hone] at hnext
  refine ⟨hprogram, hcommands, hline, hindex, a, p, ha, hdiagnostics, hone, hnext, fun htwo => ?_⟩
  have hencoded := hiff.mp htwo ⟨.unsupported "JMP", ["2"], 2⟩ (by decide) (by decide)
  cases hencoded

end Uvm
