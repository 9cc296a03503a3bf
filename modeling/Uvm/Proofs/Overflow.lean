import Uvm.Proofs.Generation

/-! Masking against rejecting. The two overflow policies encode a command alike, refuse it alike, or
disagree about the width of its operand, and then only `reject` refuses it. Over a list of commands
the difference is as large as that: `reject` drops the instructions of the commands that it reports
as too wide, and everything else is the same. -/
namespace Uvm

def Fault.isOverflow (fault : Fault) : Bool :=
  match fault.cause with
  | .overflow _ => true
  | _ => false

namespace Command

/-- What the two policies make of a command. -/
inductive Fate (command : Command) : Prop where
  | encoded (e : Encoded) (masked : command.encode .mask = .ok e)
      (rejected : command.encode .reject = .ok e)
  | refused (fault : Fault) (other : fault.isOverflow = false)
      (masked : command.encode .mask = .error fault)
      (rejected : command.encode .reject = .error fault)
  | tooWide (e : Encoded) (fault : Fault) (overflow : fault.isOverflow = true)
      (masked : command.encode .mask = .ok e) (rejected : command.encode .reject = .error fault)

theorem fate (command : Command) : command.Fate := by
  obtain ⟨mnemonic, operands, line⟩ := command
  cases mnemonic with
  | unsupported text => exact .refused _ rfl rfl rfl
  | known op =>
    match operands with
    | [] => exact .refused _ rfl rfl rfl
    | _ :: _ :: _ => exact .refused _ rfl rfl rfl
    | [token] =>
      cases hparse : Literal.parse token with
      | error fault =>
        have hencode (policy : OnOverflow) : (⟨.known op, [token], line⟩ : Command).encode policy =
            .error ⟨line, .badLiteral token fault⟩ := by
          simp only [Command.encode, hparse]
        exact .refused _ rfl (hencode .mask) (hencode .reject)
      | ok v =>
        have hmask : (⟨.known op, [token], line⟩ : Command).encode .mask =
            .ok ⟨op, v, code op v⟩ := by
          refine encode_eq_ok_iff.mpr ⟨rfl, ⟨token, rfl, hparse⟩, fun hpolicy => ?_, rfl⟩
          cases hpolicy
        by_cases hfits : v < op.fieldBound
        · refine .encoded _ hmask (encode_eq_ok_iff.mpr ?_)
          exact ⟨rfl, ⟨token, rfl, hparse⟩, fun _ => hfits, rfl⟩
        · have hwide : Uvm.encode op v .reject = .error ⟨op, v⟩ :=
            Uvm.encode_eq_error_iff.mpr ⟨⟨rfl, Nat.le_of_not_lt hfits⟩, rfl⟩
          have hreject : (⟨.known op, [token], line⟩ : Command).encode .reject =
              .error ⟨line, .overflow ⟨op, v⟩⟩ := by
            simp only [Command.encode, hparse, hwide]
          exact .tooWide _ _ rfl hmask hreject

/-- The instruction in the bytes that a command contributes. -/
def instruction? (policy : OnOverflow) (command : Command) : Option Decoded :=
  decode (command.bytes policy)

/-- The fault of a rejected command, if it is that the operand is too wide. -/
def overflow? (command : Command) : Option Fault :=
  (command.fault? .reject).filter Fault.isOverflow

/-- The masked instruction of a command, with the fault that rejecting finds in its width. -/
def row? (command : Command) : Option (Decoded × Option Fault) :=
  (command.instruction? .mask).map fun d => (d, command.overflow?)

theorem instruction?_of_ok {policy : OnOverflow} {command : Command} {e : Encoded}
    (h : command.encode policy = .ok e) :
    command.instruction? policy = some (.ofCode e.op e.value) := by
  have hdecode := decode_code_append e.op e.value []
  rw [List.append_nil] at hdecode
  rw [instruction?, bytes_of_ok h, (encode_eq_ok_iff.mp h).2.2.2, hdecode]

theorem instruction?_of_error {policy : OnOverflow} {command : Command} {fault : Fault}
    (h : command.encode policy = .error fault) : command.instruction? policy = none := by
  rw [instruction?, bytes_of_error h]
  rfl

theorem instruction?_eq_map_item? (policy : OnOverflow) (command : Command) :
    command.instruction? policy = (command.item? policy).map fun i => .ofCode i.1 i.2 := by
  cases h : command.encode policy with
  | ok e => simp only [instruction?_of_ok h, item?, h, Option.map_some]
  | error fault => simp only [instruction?_of_error h, item?, h, Option.map_none]

theorem overflow?_of_ok {command : Command} {e : Encoded}
    (h : command.encode .reject = .ok e) : command.overflow? = none := by
  rw [overflow?, fault?_of_ok h, Option.filter_none]

theorem overflow?_of_error {command : Command} {fault : Fault}
    (h : command.encode .reject = .error fault) :
    command.overflow? = if fault.isOverflow then some fault else none := by
  rw [overflow?, fault?_of_error h, Option.filter_some]

theorem fault?_mask (command : Command) :
    command.fault? .mask = (command.fault? .reject).filter fun fault => !fault.isOverflow := by
  cases command.fate with
  | encoded e masked rejected => rw [fault?_of_ok masked, fault?_of_ok rejected, Option.filter_none]
  | refused fault other masked rejected =>
    rw [fault?_of_error masked, fault?_of_error rejected, Option.filter_some, other]
    rfl
  | tooWide e fault overflow masked rejected =>
    rw [fault?_of_ok masked, fault?_of_error rejected, Option.filter_some, overflow]
    rfl

theorem row?_map_fst (command : Command) :
    command.row?.map Prod.fst = command.instruction? .mask := by
  rw [row?, Option.map_map]
  exact Option.map_id'

theorem row?_filter (command : Command) :
    (command.row?.filter fun row => row.2.isNone).map Prod.fst = command.instruction? .reject := by
  cases command.fate with
  | encoded e masked rejected =>
    simp [row?, instruction?_of_ok masked, instruction?_of_ok rejected, overflow?_of_ok rejected]
  | refused fault other masked rejected =>
    simp [row?, instruction?_of_error masked, instruction?_of_error rejected]
  | tooWide e fault overflow masked rejected =>
    simp [row?, instruction?_of_ok masked, instruction?_of_error rejected,
      overflow?_of_error rejected, overflow]

theorem row?_bind_snd (command : Command) : command.row?.bind Prod.snd = command.overflow? := by
  cases command.fate with
  | encoded e masked rejected => simp [row?, instruction?_of_ok masked]
  | refused fault other masked rejected =>
    simp [row?, instruction?_of_error masked, overflow?_of_error rejected, other]
  | tooWide e fault overflow masked rejected => simp [row?, instruction?_of_ok masked]

theorem eq_of_overflow?_eq_none {command : Command} (h : command.overflow? = none) :
    command.bytes .mask = command.bytes .reject ∧
      command.fault? .mask = command.fault? .reject := by
  cases command.fate with
  | encoded e masked rejected =>
    rw [bytes_of_ok masked, bytes_of_ok rejected, fault?_of_ok masked, fault?_of_ok rejected]
    exact ⟨rfl, rfl⟩
  | refused fault other masked rejected =>
    rw [bytes_of_error masked, bytes_of_error rejected, fault?_of_error masked,
      fault?_of_error rejected]
    exact ⟨rfl, rfl⟩
  | tooWide e fault overflow masked rejected =>
    rw [overflow?_of_error rejected, overflow] at h
    cases h

end Command

theorem instructions_sweep_generate {settings : Settings} {commands : List Command} {a : Assembly}
    (h : (generate settings commands).result = .ok a) :
    (sweep a.bytes).instructions.map Prod.snd =
      commands.filterMap (Command.instruction? settings.overflow) := by
  rw [(sweep_generate h).2, List.map_filterMap]
  exact List.filterMap_congr fun c _ => (c.instruction?_eq_map_item? settings.overflow).symm

/-- Masking finds the faults of rejecting less those about width. -/
theorem faults_mask (commands : List Command) :
    commands.filterMap (Command.fault? .mask) =
      (commands.filterMap (Command.fault? .reject)).filter fun fault => !fault.isOverflow := by
  rw [List.filter_filterMap]
  exact List.filterMap_congr fun c _ => c.fault?_mask

/-- The faults of rejecting that are about width belong to instructions that masking encodes. -/
theorem overflows_reject (commands : List Command) :
    (commands.filterMap (Command.fault? .reject)).filter Fault.isOverflow =
      (commands.filterMap Command.row?).filterMap Prod.snd := by
  rw [List.filter_filterMap, List.filterMap_filterMap]
  exact List.filterMap_congr fun c _ => c.row?_bind_snd.symm

theorem generate_mask_eq_reject {commands : List Command}
    (h : (commands.filterMap (Command.fault? .reject)).filter Fault.isOverflow = [])
    (errors : OnError) :
    (generate ⟨errors, .mask⟩ commands).result = (generate ⟨errors, .reject⟩ commands).result := by
  rw [List.filter_filterMap, List.filterMap_eq_nil_iff] at h
  have hbytes : commands.flatMap (Command.bytes .mask) = commands.flatMap (Command.bytes .reject) :=
    List.flatMap_congr fun c hc => (Command.eq_of_overflow?_eq_none (h c hc)).1
  have hfaults : commands.filterMap (Command.fault? .mask) =
      commands.filterMap (Command.fault? .reject) :=
    List.filterMap_congr fun c hc => (Command.eq_of_overflow?_eq_none (h c hc)).2
  cases errors with
  | bestEffort => rw [generate_bestEffort, generate_bestEffort, hbytes, hfaults]
  | failFast => rw [generate_failFast, generate_failFast, hbytes, hfaults]

/-- Masking never faults an operand for its width. Best effort reports the same under both policies,
less the faults about width, and rejecting leaves out the instructions of just the commands that
have such a fault. Without one the outputs are the same; and fail fast, when rejecting succeeds or
fails for another reason, does the same when masking. -/
theorem generate_mask_reject (commands : List Command) :
    let rows := commands.filterMap Command.row?
    ∃ m r : Assembly,
      (generate ⟨.bestEffort, .mask⟩ commands).result = .ok m ∧
      (generate ⟨.bestEffort, .reject⟩ commands).result = .ok r ∧
      (∀ fault ∈ m.diagnostics, fault.isOverflow = false) ∧
      (∀ errors fault, (generate ⟨errors, .mask⟩ commands).result = .error fault →
        fault.isOverflow = false) ∧
      m.diagnostics = r.diagnostics.filter (fun fault => !fault.isOverflow) ∧
      r.diagnostics.filter Fault.isOverflow = rows.filterMap Prod.snd ∧
      (sweep m.bytes).stoppedAt = none ∧ (sweep r.bytes).stoppedAt = none ∧
      (sweep m.bytes).instructions.map Prod.snd = rows.map Prod.fst ∧
      (sweep r.bytes).instructions.map Prod.snd =
        (rows.filter fun row => row.2.isNone).map Prod.fst ∧
      (r.diagnostics.filter Fault.isOverflow = [] → m = r) ∧
      (∀ a, (generate ⟨.failFast, .reject⟩ commands).result = .ok a →
        (generate ⟨.failFast, .mask⟩ commands).result = .ok a) ∧
      ∀ fault, (generate ⟨.failFast, .reject⟩ commands).result = .error fault →
        fault.isOverflow = false →
        (generate ⟨.failFast, .mask⟩ commands).result = .error fault := by
  intro rows
  have hm := generate_bestEffort .mask commands
  have hr := generate_bestEffort .reject commands
  have hnever : ∀ fault ∈ commands.filterMap (Command.fault? .mask), fault.isOverflow = false := by
    intro fault hfault
    rw [faults_mask] at hfault
    simpa using (List.mem_filter.mp hfault).2
  refine ⟨_, _, hm, hr, hnever, ?_, faults_mask commands, overflows_reject commands,
    (sweep_generate hm).1, (sweep_generate hr).1, ?_, ?_, ?_, ?_, ?_⟩
  · intro errors fault herror
    exact hnever fault (List.mem_of_head? (generate_eq_error_iff.mp herror).2)
  · rw [instructions_sweep_generate hm, List.map_filterMap]
    exact List.filterMap_congr fun c _ => c.row?_map_fst.symm
  · rw [instructions_sweep_generate hr, List.filter_filterMap, List.map_filterMap]
    exact List.filterMap_congr fun c _ => c.row?_filter.symm
  · intro hnone
    have hsame := generate_mask_eq_reject hnone .bestEffort
    rw [hm, hr] at hsame
    exact Except.ok.inj hsame
  · intro a hok
    have hnone : commands.filterMap (Command.fault? .reject) = [] := by
      have hclean := (generate_failFast_eq_ok_iff.mp hok).1
      exact List.filterMap_eq_nil_iff.mpr fun c hc => Command.fault?_eq_none_iff.mpr (hclean c hc)
    rw [generate_mask_eq_reject (by rw [hnone, List.filter_nil]), hok]
  · intro fault herror hother
    obtain ⟨-, hfirst⟩ := generate_eq_error_iff.mp herror
    obtain ⟨rest, hfaults⟩ := List.head?_eq_some_iff.mp hfirst
    refine generate_eq_error_iff.mpr ⟨rfl, ?_⟩
    -- The first fault is not about width, so it stays the first when those are left out.
    rw [faults_mask, hfaults, List.filter_cons_of_pos (by rw [hother]; rfl), List.head?_cons]

theorem generate_mask_reject_on_wide_operand :
    let commands : List Command :=
      [⟨.unsupported "JMP", ["2"], 1⟩, ⟨.known .read, ["0x12345"], 2⟩, ⟨.known .sub, ["3"], 3⟩]
    (generate ⟨.failFast, .reject⟩ commands).result = .error ⟨1, .unknownMnemonic "JMP"⟩ ∧
    (generate ⟨.failFast, .mask⟩ commands).result = .error ⟨1, .unknownMnemonic "JMP"⟩ ∧
    ∃ m r : Assembly,
      (generate ⟨.bestEffort, .mask⟩ commands).result = .ok m ∧
      (generate ⟨.bestEffort, .reject⟩ commands).result = .ok r ∧
      r.diagnostics.filter Fault.isOverflow = [⟨2, .overflow ⟨.read, 0x12345⟩⟩] ∧
      (sweep m.bytes).instructions.map Prod.snd = [⟨.read, 0x2345, 3⟩, ⟨.sub, 3, 4⟩] ∧
      (sweep r.bytes).instructions.map Prod.snd = [⟨.sub, 3, 4⟩] := by
  intro commands
  have herror : (generate ⟨.failFast, .reject⟩ commands).result =
      .error ⟨1, .unknownMnemonic "JMP"⟩ := by rfl
  obtain ⟨m, r, hm, hr, -, -, -, hreports, -, -, hmasked, hrejected, -, -, hother⟩ :=
    generate_mask_reject commands
  refine ⟨herror, hother _ herror rfl, m, r, hm, hr, ?_, ?_, ?_⟩
  · exact hreports.trans (by decide)
  · exact hmasked.trans (by decide)
  · exact hrejected.trans (by decide)

end Uvm
