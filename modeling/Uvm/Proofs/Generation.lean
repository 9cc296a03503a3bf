import Uvm.Assembly
import Uvm.Proofs.Code
import Uvm.Proofs.Resolution

/-! Commands are encoded one by one into a buffer that they share. Whatever the buffer holds, a
command appends its bytes as a whole or nothing at all, and what becomes of it does not depend on
the others. So the two error policies see the same bytes and the same faults: best effort collects
all of them, fail fast ends at the first fault. -/
namespace Uvm

/-- An encoded command: its instruction, the operand before masking, and its bytes. -/
structure Encoded where
  op : Op
  value : Nat
  bytes : List UInt8
  deriving DecidableEq, Repr

/-- What one command is encoded to, apart from any buffer. -/
def Command.encode (policy : OnOverflow) (command : Command) : Except Fault Encoded :=
  match command.mnemonic with
  | .unsupported text => .error ⟨command.line, .unknownMnemonic text⟩
  | .known op =>
    match command.operands with
    | [token] =>
      match Literal.parse token with
      | .error fault => .error ⟨command.line, .badLiteral token fault⟩
      | .ok value =>
        match Uvm.encode op value policy with
        | .error overflow => .error ⟨command.line, .overflow overflow⟩
        | .ok bytes => .ok ⟨op, value, bytes⟩
    | operands => .error ⟨command.line, .operandCount op operands.length⟩

/-- One part of an assembly and then the other. -/
def Assembly.append (a b : Assembly) : Assembly :=
  ⟨a.bytes ++ b.bytes, a.diagnostics ++ b.diagnostics⟩

namespace Command

/-- A command appends its bytes, and the log shows these and no others; a command that fails leaves
the buffer and the log as they were. -/
theorem encodeInto_eq (policy : OnOverflow) (command : Command) (out : List UInt8) :
    command.encodeInto policy out =
      match command.encode policy with
      | .ok e => .logged (out ++ e.bytes) (.encoded command.line e.op e.value e.bytes)
      | .error fault => .failed out fault := by
  obtain ⟨mnemonic, operands, line⟩ := command
  cases mnemonic with
  | unsupported text => rfl
  | known op =>
    match operands with
    | [] => rfl
    | _ :: _ :: _ => rfl
    | [token] =>
      cases hparse : Literal.parse token with
      | error fault => simp only [encodeInto, encode, hparse]
      | ok v =>
        by_cases hrefused : policy = .reject ∧ op.fieldBound ≤ v
        · simp only [encodeInto, encode, hparse, Uvm.encodeInto_eq, Uvm.encode_eq, if_pos hrefused]
        · simp only [encodeInto, encode, hparse, Uvm.encodeInto_eq, Uvm.encode_eq,
            if_neg hrefused, List.drop_left]

/-- The bytes that a command contributes: none when it cannot be encoded. -/
def bytes (policy : OnOverflow) (command : Command) : List UInt8 :=
  (command.encodeInto policy []).state

/-- The fault of a command that cannot be encoded. -/
def fault? (policy : OnOverflow) (command : Command) : Option Fault :=
  match (command.encodeInto policy []).result with
  | .ok () => none
  | .error fault => some fault

theorem bytes_of_ok {policy : OnOverflow} {command : Command} {e : Encoded}
    (h : command.encode policy = .ok e) : command.bytes policy = e.bytes := by
  rw [bytes, encodeInto_eq, h]
  rfl

theorem fault?_of_ok {policy : OnOverflow} {command : Command} {e : Encoded}
    (h : command.encode policy = .ok e) : command.fault? policy = none := by
  rw [fault?, encodeInto_eq, h]
  rfl

theorem bytes_of_error {policy : OnOverflow} {command : Command} {fault : Fault}
    (h : command.encode policy = .error fault) : command.bytes policy = [] := by
  rw [bytes, encodeInto_eq, h]
  rfl

theorem fault?_of_error {policy : OnOverflow} {command : Command} {fault : Fault}
    (h : command.encode policy = .error fault) : command.fault? policy = some fault := by
  rw [fault?, encodeInto_eq, h]
  rfl

theorem state_encodeInto (policy : OnOverflow) (command : Command) (out : List UInt8) :
    (command.encodeInto policy out).state = out ++ command.bytes policy := by
  rw [encodeInto_eq]
  cases h : command.encode policy with
  | ok e =>
    rw [bytes_of_ok h]
    rfl
  | error fault =>
    rw [bytes_of_error h, List.append_nil]
    rfl

/-- Whether a command can be encoded does not depend on the buffer. -/
theorem result_encodeInto (policy : OnOverflow) (command : Command) (out : List UInt8) :
    (command.encodeInto policy out).result =
      match command.fault? policy with
      | none => .ok ()
      | some fault => .error fault := by
  rw [encodeInto_eq]
  cases h : command.encode policy with
  | ok e =>
    rw [fault?_of_ok h]
    rfl
  | error fault =>
    rw [fault?_of_error h]
    rfl

theorem fault?_eq_none_iff_encodeInto {policy : OnOverflow} {command : Command} :
    command.fault? policy = none ↔ (command.encodeInto policy []).result = .ok () := by
  rw [result_encodeInto]
  cases command.fault? policy <;> simp

/-- Exactly the commands with a known mnemonic and a single operand that is a literal of a fitting
value are encoded. -/
theorem encode_eq_ok_iff {policy : OnOverflow} {command : Command} {e : Encoded} :
    command.encode policy = .ok e ↔
      command.mnemonic = .known e.op ∧
      (∃ token, command.operands = [token] ∧ Literal.parse token = .ok e.value) ∧
      (policy = .reject → e.value < e.op.fieldBound) ∧ e.bytes = code e.op e.value := by
  obtain ⟨mnemonic, operands, line⟩ := command
  obtain ⟨op, value, bytes⟩ := e
  unfold Command.encode
  cases mnemonic with
  | unsupported text => simp
  | known found =>
    match operands with
    | [] => simp
    | _ :: _ :: _ => simp
    | [token] =>
      cases hparse : Literal.parse token with
      | error fault => simp [hparse]
      | ok v =>
        cases hencode : Uvm.encode found v policy with
        | error overflow =>
          have hnot (bytes : List UInt8) : Uvm.encode found v policy ≠ .ok bytes := by
            simp [hencode]
          simp only [ne_eq, Uvm.encode_eq_ok_iff, not_and] at hnot
          simp only [hencode, reduceCtorEq, Mnemonic.known.injEq, List.cons.injEq, and_true,
            exists_eq_left', hparse, Except.ok.injEq, false_iff]
          rintro ⟨rfl, rfl, hfits, rfl⟩
          exact hnot _ hfits rfl
        | ok code =>
          obtain ⟨hfits, rfl⟩ := Uvm.encode_eq_ok_iff.mp hencode
          simp only [hencode, Except.ok.injEq, Encoded.mk.injEq, Mnemonic.known.injEq,
            List.cons.injEq, and_true, exists_eq_left', hparse]
          constructor
          · rintro ⟨rfl, rfl, rfl⟩
            exact ⟨rfl, rfl, hfits, rfl⟩
          · rintro ⟨rfl, rfl, -, rfl⟩
            exact ⟨rfl, rfl, rfl⟩

end Command

/-- What was assembled before stays in front, and nothing else depends on it. -/
theorem generateInto_append (settings : Settings) (before out : Assembly)
    (commands : List Command) :
    generateInto settings (before.append out) commands =
      (generateInto settings out commands).within before.append := by
  induction commands generalizing out with
  | nil => rfl
  | cons command rest ih =>
    rw [generateInto, generateInto, Command.encodeInto_eq, Command.encodeInto_eq]
    cases command.encode settings.overflow with
    | ok e =>
      have hrest := ih { out with bytes := out.bytes ++ e.bytes }
      simp only [Assembly.append, ← List.append_assoc] at hrest
      simp only [Step.within, Step.logged, Assembly.append, hrest]
      rfl
    | error fault =>
      cases settings.errors with
      | failFast => rfl
      | bestEffort =>
        have hrest := ih { out with diagnostics := out.diagnostics ++ [fault] }
        simp only [Assembly.append, ← List.append_assoc] at hrest
        simp only [Step.within, Step.failed, Assembly.append, hrest]
        rfl

/-- The commands that a run comes to. -/
def reached (settings : Settings) (commands : List Command) : List Command :=
  match settings.errors with
  | .bestEffort => commands
  | .failFast => commands.takeWhile fun c => (c.fault? settings.overflow).isNone

theorem reached_of_bestEffort {settings : Settings} (h : settings.errors = .bestEffort)
    (commands : List Command) : reached settings commands = commands := by
  rw [reached, h]

theorem reached_of_failFast {settings : Settings} (h : settings.errors = .failFast)
    (commands : List Command) :
    reached settings commands =
      commands.takeWhile fun c => (c.fault? settings.overflow).isNone := by
  rw [reached, h]

theorem reached_cons_of_ok {settings : Settings} {command : Command} {e : Encoded}
    (h : command.encode settings.overflow = .ok e) (rest : List Command) :
    reached settings (command :: rest) = command :: reached settings rest := by
  cases herrors : settings.errors <;> simp [reached, herrors, Command.fault?_of_ok h]

theorem reached_cons_of_error {settings : Settings} {command : Command} {fault : Fault}
    (h : command.encode settings.overflow = .error fault) (herrors : settings.errors = .failFast)
    (rest : List Command) : reached settings (command :: rest) = [] := by
  simp [reached, herrors, Command.fault?_of_error h]

/-- Where the run ends, also where it fails, the buffer holds the bytes of the commands that the run
has come to. -/
theorem bytes_generateInto (settings : Settings) (out : Assembly) (commands : List Command) :
    (generateInto settings out commands).state.bytes =
      out.bytes ++ (reached settings commands).flatMap (Command.bytes settings.overflow) := by
  induction commands generalizing out with
  | nil => cases herrors : settings.errors <;> simp [reached, herrors, generateInto, Step.done]
  | cons command rest ih =>
    rw [generateInto, Command.encodeInto_eq]
    cases h : command.encode settings.overflow with
    | ok e =>
      rw [reached_cons_of_ok h, List.flatMap_cons, Command.bytes_of_ok h, ← List.append_assoc]
      exact ih { out with bytes := out.bytes ++ e.bytes }
    | error fault =>
      cases herrors : settings.errors with
      | failFast =>
        rw [reached_cons_of_error h herrors, List.flatMap_nil, List.append_nil]
        rfl
      | bestEffort =>
        have hrest := ih { out with diagnostics := out.diagnostics ++ [fault] }
        rw [reached_of_bestEffort herrors] at hrest ⊢
        rw [List.flatMap_cons, Command.bytes_of_error h, List.nil_append]
        exact hrest

theorem generate_nil (settings : Settings) : generate settings [] = .ok .empty := rfl

/-- The machine code of a command comes before that of the others, and so does its fault. -/
theorem generate_cons (settings : Settings) (command : Command) (rest : List Command) :
    generate settings (command :: rest) =
      match command.encode settings.overflow with
      | .ok e =>
        ((generate settings rest).map (Assembly.append ⟨e.bytes, []⟩)).after
          (.encoded command.line e.op e.value e.bytes)
      | .error fault =>
        match settings.errors with
        | .failFast => .fail fault
        | .bestEffort =>
          ((generate settings rest).map (Assembly.append ⟨[], [fault]⟩)).after
            (.dropped command fault) := by
  have hrest (out : Assembly) : generateInto settings out rest =
      (generateInto settings .empty rest).within out.append := by
    rw [← generateInto_append, Assembly.append, Assembly.empty, List.append_nil, List.append_nil]
  rw [generate, generateInto, Command.encodeInto_eq]
  cases command.encode settings.overflow with
  | ok e =>
    simp only [Step.within, Step.logged]
    rw [Step.finish_behind_singleton, hrest, Step.finish_within]
    rfl
  | error fault =>
    cases settings.errors with
    | failFast => rfl
    | bestEffort =>
      simp only [Step.within, Step.failed, List.nil_append]
      rw [Step.finish_behind_singleton, hrest, Step.finish_within]
      rfl

theorem generate_bestEffort (policy : OnOverflow) (commands : List Command) :
    (generate ⟨.bestEffort, policy⟩ commands).result =
      .ok ⟨commands.flatMap (Command.bytes policy),
        commands.filterMap (Command.fault? policy)⟩ := by
  induction commands with
  | nil => rfl
  | cons command rest ih =>
    rw [generate_cons, List.flatMap_cons, List.filterMap_cons]
    cases h : command.encode policy with
    | ok e =>
      simp only [Traced.result_after, Traced.result_map, ih, Command.bytes_of_ok h,
        Command.fault?_of_ok h]
      rfl
    | error fault =>
      simp only [Traced.result_after, Traced.result_map, ih, Command.bytes_of_error h,
        Command.fault?_of_error h]
      rfl

theorem generate_failFast (policy : OnOverflow) (commands : List Command) :
    (generate ⟨.failFast, policy⟩ commands).result =
      match commands.filterMap (Command.fault? policy) with
      | [] => .ok ⟨commands.flatMap (Command.bytes policy), []⟩
      | first :: _ => .error first := by
  induction commands with
  | nil => rfl
  | cons command rest ih =>
    rw [generate_cons, List.flatMap_cons, List.filterMap_cons]
    cases h : command.encode policy with
    | ok e =>
      simp only [Traced.result_after, Traced.result_map, ih, Command.bytes_of_ok h,
        Command.fault?_of_ok h]
      cases rest.filterMap (Command.fault? policy) <;> rfl
    | error fault => simp [Command.fault?_of_error h]

/-- Whatever the settings, machine code is made of the bytes of the single commands. -/
theorem of_generate_eq_ok {settings : Settings} {commands : List Command} {a : Assembly}
    (h : (generate settings commands).result = .ok a) :
    a.bytes = commands.flatMap (Command.bytes settings.overflow) ∧
      a.diagnostics = commands.filterMap (Command.fault? settings.overflow) := by
  obtain ⟨errors, policy⟩ := settings
  cases errors with
  | bestEffort =>
    rw [generate_bestEffort] at h
    cases h
    exact ⟨rfl, rfl⟩
  | failFast =>
    rw [generate_failFast] at h
    cases hfaults : commands.filterMap (Command.fault? policy) with
    | nil =>
      rw [hfaults] at h
      cases h
      exact ⟨rfl, rfl⟩
    | cons first rest =>
      rw [hfaults] at h
      cases h

/-- Only fail fast ends in a fault, and it is the first that a command has. -/
theorem generate_eq_error_iff {settings : Settings} {commands : List Command} {fault : Fault} :
    (generate settings commands).result = .error fault ↔
      settings.errors = .failFast ∧
        (commands.filterMap (Command.fault? settings.overflow)).head? = some fault := by
  obtain ⟨errors, policy⟩ := settings
  cases errors with
  | bestEffort => simp [generate_bestEffort]
  | failFast =>
    rw [generate_failFast]
    cases commands.filterMap (Command.fault? policy) <;> simp

/-- Whatever the settings, commands that can all be encoded are. -/
theorem generate_of_no_fault {settings : Settings} {commands : List Command}
    (h : ∀ c ∈ commands, c.fault? settings.overflow = none) :
    (generate settings commands).result =
      .ok ⟨commands.flatMap (Command.bytes settings.overflow), []⟩ := by
  have hfaults : commands.filterMap (Command.fault? settings.overflow) = [] :=
    List.filterMap_eq_nil_iff.mpr h
  obtain ⟨errors, policy⟩ := settings
  cases errors with
  | bestEffort => rw [generate_bestEffort, hfaults]
  | failFast => rw [generate_failFast, hfaults]

theorem assemble_eq_bind (settings : Settings) (source : Text) :
    assemble settings source =
      (resolveSource source).bind fun commands => (generate settings commands).result := by
  rw [assemble, assembleTraced, Traced.result_andThen]
  rfl

theorem assemble_of_resolveSource {source : Text} {commands : List Command}
    (h : resolveSource source = .ok commands) (settings : Settings) :
    assemble settings source = (generate settings commands).result := by
  rw [assemble_eq_bind, h]
  rfl

theorem assemble_eq_ok_iff {settings : Settings} {source : Text} {a : Assembly} :
    assemble settings source = .ok a ↔
      ∃ commands, resolveSource source = .ok commands ∧
        (generate settings commands).result = .ok a := by
  rw [assemble_eq_bind, bind_eq_ok_iff]

namespace Command

/-- The instruction that a command is encoded to, its operand not yet cut down to the field. -/
def item? (policy : OnOverflow) (command : Command) : Option (Op × Nat) :=
  match command.encode policy with
  | .ok e => some (e.op, e.value)
  | .error _ => none

theorem item?_eq_some_iff {policy : OnOverflow} {command : Command} {op : Op} {v : Nat} :
    command.item? policy = some (op, v) ↔
      command.mnemonic = .known op ∧
      (∃ token, command.operands = [token] ∧ Literal.parse token = .ok v) ∧
      (policy = .reject → v < op.fieldBound) := by
  have hencode : command.item? policy = some (op, v) ↔
      command.encode policy = .ok ⟨op, v, code op v⟩ := by
    cases h : command.encode policy with
    | error fault => simp [item?, h]
    | ok e =>
      have hbytes := (encode_eq_ok_iff.mp h).2.2.2
      obtain ⟨eop, value, bytes⟩ := e
      simp only [item?, h, Option.some.injEq, Prod.mk.injEq, Except.ok.injEq, Encoded.mk.injEq]
      constructor
      · rintro ⟨rfl, rfl⟩
        exact ⟨rfl, rfl, hbytes⟩
      · rintro ⟨rfl, rfl, -⟩
        exact ⟨rfl, rfl⟩
  rw [hencode, encode_eq_ok_iff]
  simp

theorem fault?_eq_none_iff {policy : OnOverflow} {command : Command} :
    command.fault? policy = none ↔ ∃ i, command.item? policy = some i := by
  cases h : command.encode policy with
  | ok e => simp [fault?_of_ok h, item?, h]
  | error fault => simp [fault?_of_error h, item?, h]

theorem flatMap_bytes (policy : OnOverflow) (commands : List Command) :
    commands.flatMap (bytes policy) =
      (commands.filterMap (item? policy)).flatMap fun i => code i.1 i.2 := by
  induction commands with
  | nil => rfl
  | cons c rest ih =>
    rw [List.flatMap_cons, List.filterMap_cons, ih]
    cases h : c.encode policy with
    | error fault => simp [item?, h, bytes_of_error h]
    | ok e =>
      have hbytes := (encode_eq_ok_iff.mp h).2.2.2
      simp [item?, h, bytes_of_ok h, hbytes]

end Command

theorem generate_failFast_eq_ok_iff {policy : OnOverflow} {commands : List Command} {a : Assembly} :
    (generate ⟨.failFast, policy⟩ commands).result = .ok a ↔
      (∀ c ∈ commands, ∃ i, c.item? policy = some i) ∧
        a = ⟨commands.flatMap (Command.bytes policy), []⟩ := by
  simp only [← Command.fault?_eq_none_iff, ← List.filterMap_eq_nil_iff, generate_failFast]
  cases commands.filterMap (Command.fault? policy) with
  | nil => simp [eq_comm]
  | cons first rest => simp

/-- Machine code is swept to its end, and holds the instructions of the commands that were not
dropped. -/
theorem sweep_generate {settings : Settings} {commands : List Command} {a : Assembly}
    (h : (generate settings commands).result = .ok a) :
    (sweep a.bytes).stoppedAt = none ∧
      (sweep a.bytes).instructions.map Prod.snd =
        (commands.filterMap (Command.item? settings.overflow)).map fun i => .ofCode i.1 i.2 := by
  rw [(of_generate_eq_ok h).1, Command.flatMap_bytes]
  exact sweepFrom_codes _ 0

/-- What fail fast makes of a single command. -/
def alone (policy : OnOverflow) (command : Command) : Except Fault Assembly :=
  (generate ⟨.failFast, policy⟩ [command]).result

theorem alone_of_ok {policy : OnOverflow} {command : Command} {e : Encoded}
    (h : command.encode policy = .ok e) : alone policy command = .ok ⟨e.bytes, []⟩ := by
  simp [alone, generate_failFast, Command.fault?_of_ok h, Command.bytes_of_ok h]

theorem alone_of_error {policy : OnOverflow} {command : Command} {fault : Fault}
    (h : command.encode policy = .error fault) : alone policy command = .error fault := by
  simp [alone, generate_failFast, Command.fault?_of_error h]

theorem bytes_eq_alone (policy : OnOverflow) (command : Command) :
    command.bytes policy = match alone policy command with
      | .ok a => a.bytes
      | .error _ => [] := by
  cases h : command.encode policy with
  | ok e => rw [Command.bytes_of_ok h, alone_of_ok h]
  | error fault => rw [Command.bytes_of_error h, alone_of_error h]

theorem fault?_eq_alone (policy : OnOverflow) (command : Command) :
    command.fault? policy = match alone policy command with
      | .ok _ => none
      | .error fault => some fault := by
  cases h : command.encode policy with
  | ok e => rw [Command.fault?_of_ok h, alone_of_ok h]
  | error fault => rw [Command.fault?_of_error h, alone_of_error h]

theorem encode_of_alone_error {policy : OnOverflow} {command : Command} {fault : Fault}
    (h : alone policy command = .error fault) : command.encode policy = .error fault := by
  cases hencode : command.encode policy with
  | ok e =>
    rw [alone_of_ok hencode] at h
    cases h
  | error other =>
    rw [alone_of_error hencode] at h
    cases h
    rfl

/-- A command at the end that fails adds no byte, whether or not the run has come to it. -/
theorem bytes_generateInto_concat {settings : Settings} {command : Command} {fault : Fault}
    (h : command.encode settings.overflow = .error fault) (out : Assembly)
    (before : List Command) :
    (generateInto settings out (before ++ [command])).state.bytes =
      (generateInto settings out before).state.bytes := by
  rw [bytes_generateInto, bytes_generateInto]
  cases herrors : settings.errors with
  | bestEffort =>
    simp [reached_of_bestEffort herrors, Command.bytes_of_error h]
  | failFast =>
    rw [reached_of_failFast herrors, reached_of_failFast herrors, List.takeWhile_append]
    split
    · next hall =>
      have hwhole := (List.takeWhile_prefix _).eq_of_length hall
      rw [List.takeWhile_cons_of_neg (by simp [Command.fault?_of_error h]), List.append_nil,
        hwhole]
    · rfl

/-- Best effort never fails: its bytes are those of the commands that succeed alone and its
diagnostics are the faults of the others. Fail fast gives the same when there are no diagnostics and
otherwise the first of them. Whatever the buffer holds, a command appends the bytes that it has
alone, and one that fails leaves the buffer as it was, wherever it stands and under either policy.
-/
theorem generate_policies_agree (policy : OnOverflow) (commands : List Command) :
    ∃ a : Assembly,
      (generate ⟨.bestEffort, policy⟩ commands).result = .ok a ∧
      a.bytes = commands.flatMap (fun c => match alone policy c with
        | .ok b => b.bytes
        | .error _ => []) ∧
      a.diagnostics = commands.filterMap (fun c => match alone policy c with
        | .ok _ => none
        | .error fault => some fault) ∧
      ((∃ b, (generate ⟨.failFast, policy⟩ commands).result = .ok b) ↔ a.diagnostics = []) ∧
      (a.diagnostics = [] → (generate ⟨.failFast, policy⟩ commands).result = .ok a) ∧
      (∀ first rest, a.diagnostics = first :: rest →
        (generate ⟨.failFast, policy⟩ commands).result = .error first) ∧
      (∀ c ∈ commands, ∀ out : List UInt8,
        (∀ b, alone policy c = .ok b →
          (c.encodeInto policy out).result = .ok () ∧
          (c.encodeInto policy out).state = out ++ b.bytes) ∧
        ∀ fault, alone policy c = .error fault →
          (c.encodeInto policy out).result = .error fault ∧
          (c.encodeInto policy out).state = out) ∧
      ∀ before c after fault, commands = before ++ c :: after → alone policy c = .error fault →
        (∀ errors out, (generateInto ⟨errors, policy⟩ out (before ++ [c])).state.bytes =
          (generateInto ⟨errors, policy⟩ out before).state.bytes) ∧
        ∃ b, (generate ⟨.bestEffort, policy⟩ (before ++ after)).result = .ok b ∧
          b.bytes = a.bytes := by
  refine ⟨_, generate_bestEffort policy commands, ?_, ?_, ?_, ?_, ?_, ?_, ?_⟩
  · exact List.flatMap_congr fun c _ => bytes_eq_alone policy c
  · exact List.filterMap_congr fun c _ => fault?_eq_alone policy c
  · rw [generate_failFast]
    cases commands.filterMap (Command.fault? policy) <;> simp
  · intro hnone
    dsimp only at hnone
    rw [generate_failFast, hnone]
  · intro first rest hfirst
    dsimp only at hfirst
    rw [generate_failFast, hfirst]
  · intro c _ out
    rw [Command.result_encodeInto, Command.state_encodeInto, bytes_eq_alone, fault?_eq_alone]
    cases h : c.encode policy with
    | ok e =>
      rw [alone_of_ok h]
      refine ⟨fun b hb => ?_, nofun⟩
      cases hb
      exact ⟨rfl, rfl⟩
    | error fault =>
      rw [alone_of_error h]
      refine ⟨nofun, fun other hother => ?_⟩
      cases hother
      exact ⟨rfl, List.append_nil out⟩
  · rintro before c after fault rfl hfails
    have hencode := encode_of_alone_error hfails
    refine ⟨fun errors out => bytes_generateInto_concat hencode out before, _,
      generate_bestEffort policy (before ++ after), ?_⟩
    simp [Command.bytes_of_error hencode]

theorem generate_policies_agree_on_unknown_mnemonic :
    let commands : List Command :=
      [⟨.known .load, ["1"], 1⟩, ⟨.unsupported "JMP", ["2"], 2⟩, ⟨.known .sub, ["3"], 3⟩]
    (∃ a : Assembly, (generate ⟨.bestEffort, .mask⟩ commands).result = .ok a ∧
      a.bytes = [0xCA, 1, 0, 0, 0xAF, 3, 0, 0] ∧
      a.diagnostics = [⟨2, .unknownMnemonic "JMP"⟩]) ∧
    (generate ⟨.failFast, .mask⟩ commands).result = .error ⟨2, .unknownMnemonic "JMP"⟩ ∧
    (commands[1].encodeInto .mask [0xCA, 1, 0, 0]).state = [0xCA, 1, 0, 0] := by
  intro commands
  obtain ⟨a, hok, hbytes, hdiagnostics, -, -, hfirst, hbuffer, -⟩ :=
    generate_policies_agree .mask commands
  have hdiagnostics : a.diagnostics = [⟨2, .unknownMnemonic "JMP"⟩] :=
    hdiagnostics.trans (by decide)
  have hkept := (hbuffer commands[1] (by decide) [0xCA, 1, 0, 0]).2 ⟨2, .unknownMnemonic "JMP"⟩ rfl
  exact ⟨⟨a, hok, hbytes.trans (by decide), hdiagnostics⟩, hfirst _ _ hdiagnostics, hkept.2⟩

end Uvm
