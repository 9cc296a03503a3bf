import Uvm.Proofs.Diagnosis
import Uvm.Proofs.Emission
import Uvm.Proofs.Numerals

/-! The events of a run against what the run does. First come the definitions of the labels, up to
the first bad one, then what became of each command, up to where the settings let the run go; and a
run that ends before it comes to the commands has no event of theirs. What the events tell of bytes
and faults is what the run returns. -/
namespace Uvm

/-- The event of a definition that is made. -/
def LabelDef.event (d : LabelDef) : Event :=
  { level := .debug, line := d.line, message := "label defined", label := some (d.name, d.index) }

/-- What is told of an instruction, its operand before masking, and its bytes. -/
def encodedMessage (op : Op) (v : Nat) (bytes : List UInt8) : Text :=
  op.mnemonic ++ " " ++ Text.decimal v ++ " -> [" ++
    List.intercalate ", " (bytes.map Text.hexPairUpper) ++ "]"

/-- The bytes that an event tells of. -/
def Event.Tells (event : Event) (bytes : List UInt8) : Prop :=
  ∃ op v, event.message = encodedMessage op v bytes

/-- The definitions of the label lines above the first bad one, in order. -/
structure Program.Made (lines : List Line) (made : List LabelDef) : Prop where
  ordered : made.Pairwise fun d e => d.line < e.line
  mem_iff : ∀ d, d ∈ made ↔ Line.At lines d.line (.label d.name) ∧
    d.index = (lines.take (d.line - 1)).countP Line.isInstruction ∧
    ∀ l ≤ d.line, ∀ name, ¬ BadLabel lines l name

/-- What the log says of a command that found one buffer and left another: what the command is
encoded to, which is what it appended, or why it is dropped. -/
inductive Command.Logged (policy : OnOverflow) (command : Command) (found left : List UInt8) :
    Event → Prop where
  | encoded {op : Op} {token : Text} {v : Nat} {bytes : List UInt8}
      (known : command.mnemonic = .known op) (single : command.operands = [token])
      (parsed : Literal.parse token = .ok v) (encoded : Uvm.encode op v policy = .ok bytes)
      (appended : left = found ++ bytes) :
      Logged policy command found left
        { level := .debug
          line := command.line
          message := encodedMessage op v (left.drop found.length)
          label := none }
  | dropped {fault : Fault} (refused : (command.encodeInto policy found).result = .error fault)
      (kept : left = found) :
      Logged policy command found left
        { level := .warn
          line := command.line
          message := "skipping `" ++ command.source ++ "`: " ++ fault.message
          label := none }

/-- The buffer where a run over some commands ends. -/
def buffer (settings : Settings) (commands : List Command) : List UInt8 :=
  (generateInto settings .empty commands).state.bytes

/-- The events of commands: one for each command that the run comes to, in order. Best effort comes
to all of them and fail fast to those before the first that cannot be encoded. -/
structure Logs (settings : Settings) (commands : List Command) (events : List Event) : Prop where
  each : ∀ k event, events[k]? = some event → ∃ c : Command, commands[k]? = some c ∧
    c.Logged settings.overflow (buffer settings (commands.take k))
      (buffer settings (commands.take (k + 1))) event
  all : settings.errors = .bestEffort → events.length = commands.length
  encodable : settings.errors = .failFast → ∀ c ∈ commands.take events.length,
    ∀ out, (c.encodeInto settings.overflow out).result = .ok ()
  stopped : settings.errors = .failFast → ∀ c, commands[events.length]? = some c →
    ∀ out, ∃ fault, (c.encodeInto settings.overflow out).result = .error fault

/-- What the events of a run that succeeds tell of bytes is the machine code and can be read in no
other way, and the warnings are for the diagnostics, one for each and in order. -/
structure Accounts (logged : List Event) (a : Assembly) : Prop where
  bytes : ∃ codes, List.Forall₂ Event.Tells (logged.filter fun e => e.level = .debug) codes ∧
    codes.flatten = a.bytes ∧
    ∀ other, List.Forall₂ Event.Tells (logged.filter fun e => e.level = .debug) other →
      other = codes
  warnings : List.Forall₂ (fun (event : Event) fault => event.line = fault.line ∧
      ∃ c : Command, event.message = "skipping `" ++ c.source ++ "`: " ++ fault.message)
    (logged.filter fun e => e.level = .warn) a.diagnostics

/-- The message of an event settles which bytes it tells of: neither a mnemonic nor a numeral holds
a space, and bytes are pairs of digits. -/
theorem Event.Tells.unique {event : Event} {bytes other : List UInt8} (h : event.Tells bytes)
    (hother : event.Tells other) : bytes = other := by
  obtain ⟨op, v, hmessage⟩ := h
  obtain ⟨op', v', hmessage'⟩ := hother
  have hspace (op : Op) : ' ' ∉ op.mnemonic := by cases op <;> decide
  have hnumeral (v : Nat) : ' ' ∉ Text.decimal v :=
    (Text.spells_decimal v).not_mem_of_mark (by decide) (by decide)
  have hparts (op : Op) (v : Nat) (bytes : List UInt8) : encodedMessage op v bytes =
      op.mnemonic ++ ' ' :: (Text.decimal v ++ ' ' :: ("-> [" ++
        List.intercalate ", " (bytes.map Text.hexPairUpper) ++ "]")) := by
    simp [encodedMessage]
  rw [hmessage, hparts, hparts] at hmessage'
  obtain ⟨-, hrest⟩ := Text.cut_unique (hspace op) (hspace op') hmessage'
  obtain ⟨-, hlist⟩ := Text.cut_unique (hnumeral v) (hnumeral v') hrest
  have hwidth (b : UInt8) : (Text.hexPairUpper b).length = 2 := rfl
  exact Text.intercalate_map_inj (by decide) hwidth (fun _ _ => Text.hexPairUpper_inj)
    (List.append_cancel_left (List.append_cancel_right hlist))

namespace Labels

/-- The definitions that are made before the first that is refused. -/
def made (labels : Labels) : List LabelDef → List LabelDef
  | [] => []
  | d :: rest =>
    match labels.extend d.name d.index d.line with
    | .error _ => []
    | .ok next => d :: next.made rest

/-- The definitions that are made can be made, and the one that follows them cannot. -/
theorem made_spec (labels : Labels) (defs : List LabelDef) :
    ∃ after next, defs = labels.made defs ++ after ∧
      labels.extendAll (labels.made defs) = .ok next ∧
      ∀ d rest, after = d :: rest → ∃ fault, next.extend d.name d.index d.line = .error fault := by
  induction defs generalizing labels with
  | nil => exact ⟨[], labels, rfl, rfl, nofun⟩
  | cons d rest ih =>
    cases hextend : labels.extend d.name d.index d.line with
    | error fault =>
      refine ⟨d :: rest, labels, by simp only [made, hextend, List.nil_append], ?_, ?_⟩
      · simp only [made, hextend, extendAll]
      · intro e others heq
        obtain ⟨rfl, -⟩ := List.cons.inj heq
        exact ⟨fault, hextend⟩
    | ok extended =>
      obtain ⟨after, next, hdefs, hmade, hrefused⟩ := ih extended
      refine ⟨after, next, ?_, ?_, hrefused⟩
      · simp only [made, hextend, List.cons_append, ← hdefs]
      · simp only [made, hextend, extendAll, hmade]

end Labels

namespace Program

variable {lines : List Line}

theorem events_scanFrom (program : Program) (line : Nat) (texts : List Text) :
    (program.scanFrom line texts).events =
      (program.labels.made (defsFrom line program.commands.length (texts.map Line.read))).map
        LabelDef.event := by
  induction texts generalizing program line with
  | nil => rfl
  | cons text rest ih =>
    rw [scanFrom, scanLine, List.map_cons]
    cases hread : Line.read text with
    | blank => exact ih program (line + 1)
    | instruction mnemonic operands =>
      have hrest := ih
        { program with commands := program.commands ++ [⟨.ofText mnemonic, operands, line⟩] }
        (line + 1)
      rw [List.length_append, List.length_singleton] at hrest
      exact hrest
    | label name =>
      simp only [defsFrom, Labels.made, Labels.define_eq]
      cases program.labels.extend name program.commands.length line with
      | error fault => rfl
      | ok labels => exact congrArg (_ :: ·) (ih { program with labels } (line + 1))

theorem mem_defs_table_iff {d : LabelDef} :
    d ∈ (table lines).defs ↔ Line.At lines d.line (.label d.name) ∧
      d.index = (lines.take (d.line - 1)).countP Line.isInstruction := by
  rw [table, mem_defsFrom_iff, Line.at_iff_append]
  constructor
  · rintro ⟨before, after, rfl, hindex, hline⟩
    have hbefore : d.line - 1 = before.length := by omega
    rw [hbefore, List.take_left]
    exact ⟨⟨before, after, rfl, by omega⟩, by omega⟩
  · rintro ⟨⟨before, after, rfl, hline⟩, hindex⟩
    have hbefore : d.line - 1 = before.length := by omega
    rw [hbefore, List.take_left] at hindex
    exact ⟨before, after, rfl, by omega, by omega⟩

theorem made_table (lines : List Line) : Made lines (Labels.empty.made (table lines).defs) := by
  obtain ⟨after, next, hdefs, hmade, hrefused⟩ := Labels.made_spec .empty (table lines).defs
  have hsorted := pairwise_line_defsFrom 1 0 lines
  rw [show defsFrom 1 0 lines = (table lines).defs from rfl, hdefs] at hsorted
  obtain ⟨hordered, htail, hcross⟩ := List.pairwise_append.mp hsorted
  refine ⟨hordered, fun d => ⟨fun hd => ?_, ?_⟩⟩
  · have hmem : d ∈ (table lines).defs := by
      rw [hdefs]
      exact List.mem_append_left _ hd
    obtain ⟨hline, hindex⟩ := mem_defs_table_iff.mp hmem
    refine ⟨hline, hindex, fun l hl => not_badLabel_above hdefs hmade fun e he => ?_⟩
    exact Nat.lt_of_le_of_lt hl (hcross d hd e he)
  · rintro ⟨hline, hindex, hgood⟩
    have hmem : d ∈ (table lines).defs := mem_defs_table_iff.mpr ⟨hline, hindex⟩
    rw [hdefs, List.mem_append] at hmem
    obtain hmem | hmem := hmem
    · exact hmem
    · -- Then the first refused definition stands on the same line or above it.
      cases after with
      | nil => cases hmem
      | cons first rest =>
        obtain ⟨fault, hfault⟩ := hrefused first rest rfl
        have hbad := badLabel_of_refused hdefs hmade hfault
        have hle : first.line ≤ d.line := by
          obtain rfl | hmem := List.mem_cons.mp hmem
          · exact Nat.le_refl _
          · exact Nat.le_of_lt ((List.pairwise_cons.mp htail).1 d hmem)
        exact absurd hbad (hgood first.line hle first.name)

end Program

namespace Command

/-- The event of a command. -/
def event (policy : OnOverflow) (command : Command) : Event :=
  match command.encode policy with
  | .ok e => .encoded command.line e.op e.value e.bytes
  | .error fault => .dropped command fault

variable {policy : OnOverflow} {command : Command}

theorem event_of_ok {e : Encoded} (h : command.encode policy = .ok e) :
    command.event policy = .encoded command.line e.op e.value e.bytes := by
  rw [event, h]

theorem event_of_error {fault : Fault} (h : command.encode policy = .error fault) :
    command.event policy = .dropped command fault := by
  rw [event, h]

/-- The event of a command is what the log says of it, whatever it finds in the buffer. -/
theorem logged_event (policy : OnOverflow) (command : Command) (found : List UInt8) :
    command.Logged policy found (found ++ command.bytes policy) (command.event policy) := by
  cases h : command.encode policy with
  | ok e =>
    obtain ⟨hknown, ⟨token, hsingle, hparse⟩, hfits, hbytes⟩ := encode_eq_ok_iff.mp h
    have hlogged : command.Logged policy found (found ++ e.bytes) _ :=
      .encoded hknown hsingle hparse (Uvm.encode_eq_ok_iff.mpr ⟨hfits, hbytes⟩) rfl
    rw [List.drop_left] at hlogged
    rw [event_of_ok h, bytes_of_ok h]
    exact hlogged
  | error fault =>
    rw [event_of_error h, bytes_of_error h, List.append_nil]
    refine .dropped ?_ rfl
    rw [result_encodeInto, fault?_of_error h]

/-- The events of the commands that are encoded tell of their bytes. -/
theorem forall₂_tells (policy : OnOverflow) (commands : List Command) :
    ∃ codes, List.Forall₂ Event.Tells
        ((commands.map (event policy)).filter fun e => e.level = .debug) codes ∧
      codes.flatten = commands.flatMap (bytes policy) := by
  induction commands with
  | nil => exact ⟨[], .nil, rfl⟩
  | cons c rest ih =>
    obtain ⟨codes, htells, hflatten⟩ := ih
    rw [List.map_cons, List.flatMap_cons, ← hflatten]
    cases h : c.encode policy with
    | ok e =>
      rw [event_of_ok h, bytes_of_ok h, List.filter_cons_of_pos (by rfl)]
      exact ⟨e.bytes :: codes, .cons ⟨e.op, e.value, rfl⟩ htells, rfl⟩
    | error fault =>
      rw [event_of_error h, bytes_of_error h, List.filter_cons_of_neg (by simp [Event.dropped])]
      exact ⟨codes, htells, rfl⟩

/-- The warnings among the events of commands are for their faults. -/
theorem forall₂_warnings (policy : OnOverflow) (commands : List Command) :
    List.Forall₂ (fun (event : Event) fault => event.line = fault.line ∧
        ∃ c : Command, event.message = "skipping `" ++ c.source ++ "`: " ++ fault.message)
      ((commands.map (event policy)).filter fun e => e.level = .warn)
      (commands.filterMap (fault? policy)) := by
  induction commands with
  | nil => exact .nil
  | cons c rest ih =>
    rw [List.map_cons, List.filterMap_cons]
    cases h : c.encode policy with
    | ok e =>
      rw [event_of_ok h, fault?_of_ok h, List.filter_cons_of_neg (by simp [Event.encoded])]
      exact ih
    | error fault =>
      rw [event_of_error h, fault?_of_error h, List.filter_cons_of_pos (by rfl)]
      exact .cons ⟨(line_of_encode_error h).symm, c, rfl⟩ ih

end Command

variable {settings : Settings} {commands : List Command}

/-- The run comes to the first commands, and fail fast ends at one that cannot be encoded. -/
theorem reached_append (settings : Settings) (commands : List Command) :
    ∃ rest, reached settings commands ++ rest = commands ∧ ∀ c, settings.errors = .failFast →
      rest.head? = some c → ∃ fault, c.fault? settings.overflow = some fault := by
  cases herrors : settings.errors with
  | bestEffort =>
    rw [reached_of_bestEffort herrors]
    exact ⟨[], List.append_nil _, nofun⟩
  | failFast =>
    rw [reached_of_failFast herrors]
    refine ⟨_, List.takeWhile_append_dropWhile, fun c _ hc => ?_⟩
    have hstop := List.head?_dropWhile_not (fun c => (c.fault? settings.overflow).isNone) commands
    rw [hc] at hstop
    exact Option.isSome_iff_exists.mp (by simpa using hstop)

theorem take_reached (settings : Settings) (commands : List Command) :
    commands.take (reached settings commands).length = reached settings commands := by
  obtain ⟨rest, hsplit, -⟩ := reached_append settings commands
  have hprefix : reached settings commands <+: commands := ⟨rest, hsplit⟩
  exact (List.prefix_iff_eq_take.mp hprefix).symm

/-- Fail fast comes to no command that cannot be encoded. -/
theorem fault?_of_mem_reached (h : settings.errors = .failFast) {c : Command}
    (hc : c ∈ reached settings commands) : c.fault? settings.overflow = none := by
  rw [reached_of_failFast h] at hc
  simpa using List.mem_takeWhile_imp hc

/-- A run that succeeds has come to all commands. -/
theorem reached_of_ok {a : Assembly} (h : (generate settings commands).result = .ok a) :
    reached settings commands = commands := by
  obtain ⟨errors, policy⟩ := settings
  cases errors with
  | bestEffort => rfl
  | failFast =>
    obtain ⟨hencoded, -⟩ := generate_failFast_eq_ok_iff.mp h
    rw [reached_of_failFast rfl, List.takeWhile_eq_self_iff]
    intro c hc
    rw [Command.fault?_eq_none_iff.mpr (hencoded c hc)]
    rfl

theorem events_generate (settings : Settings) (commands : List Command) :
    (generate settings commands).events =
      (reached settings commands).map (Command.event settings.overflow) := by
  induction commands with
  | nil => cases herrors : settings.errors <;> simp [reached, herrors, generate_nil, Traced.ok]
  | cons c rest ih =>
    rw [generate_cons]
    cases h : c.encode settings.overflow with
    | ok e =>
      rw [reached_cons_of_ok h, List.map_cons, Command.event_of_ok h, ← ih]
      rfl
    | error fault =>
      cases herrors : settings.errors with
      | failFast =>
        rw [reached_cons_of_error h herrors]
        rfl
      | bestEffort =>
        rw [reached_of_bestEffort herrors] at ih ⊢
        rw [List.map_cons, Command.event_of_error h, ← ih]
        rfl

/-- A run over the first commands comes to all of them as long as the whole run does. -/
theorem reached_take {k : Nat} (hk : k ≤ (reached settings commands).length) :
    reached settings (commands.take k) = commands.take k := by
  cases herrors : settings.errors with
  | bestEffort => exact reached_of_bestEffort herrors _
  | failFast =>
    rw [reached_of_failFast herrors, List.takeWhile_eq_self_iff]
    intro c hc
    have hreached : c ∈ reached settings commands := by
      rw [← take_reached]
      exact List.take_subset_take_left commands hk hc
    rw [fault?_of_mem_reached herrors hreached]
    rfl

theorem buffer_take {k : Nat} (hk : k ≤ (reached settings commands).length) :
    buffer settings (commands.take k) =
      (commands.take k).flatMap (Command.bytes settings.overflow) := by
  rw [buffer, bytes_generateInto, reached_take hk]
  rfl

theorem logs_generate (settings : Settings) (commands : List Command) :
    Logs settings commands (generate settings commands).events := by
  have hlength : (generate settings commands).events.length =
      (reached settings commands).length := by
    rw [events_generate, List.length_map]
  constructor
  · intro k event hevent
    rw [events_generate, List.getElem?_map, Option.map_eq_some_iff] at hevent
    obtain ⟨c, hc, rfl⟩ := hevent
    obtain ⟨hlt, -⟩ := List.getElem?_eq_some_iff.mp hc
    rw [← take_reached, List.getElem?_take_of_lt hlt] at hc
    have hgrown : buffer settings (commands.take (k + 1)) =
        buffer settings (commands.take k) ++ c.bytes settings.overflow := by
      rw [buffer_take (Nat.succ_le_of_lt hlt), buffer_take (Nat.le_of_lt hlt), List.take_add_one,
        hc, List.flatMap_append]
      simp
    refine ⟨c, hc, ?_⟩
    rw [hgrown]
    exact c.logged_event settings.overflow _
  · intro hbest
    rw [hlength, reached_of_bestEffort hbest]
  · intro hfast c hc out
    rw [hlength, take_reached] at hc
    rw [Command.result_encodeInto, fault?_of_mem_reached hfast hc]
  · intro hfast c hc out
    obtain ⟨rest, hsplit, hstop⟩ := reached_append settings commands
    have hnext : commands[(reached settings commands).length]? = rest.head? := by
      calc
        _ = (reached settings commands ++ rest)[(reached settings commands).length]? := by
          rw [hsplit]
        _ = rest.head? := by
          rw [List.getElem?_append_right (Nat.le_refl _), Nat.sub_self, List.head?_eq_getElem?]
    rw [hlength, hnext] at hc
    obtain ⟨fault, hfault⟩ := hstop c hfast hc
    refine ⟨fault, ?_⟩
    rw [Command.result_encodeInto, hfault]

/-- A run that succeeds has told of all its bytes and faults. -/
theorem accounts_generate {a : Assembly} (h : (generate settings commands).result = .ok a) :
    Accounts (generate settings commands).events a := by
  obtain ⟨hbytes, hdiagnostics⟩ := of_generate_eq_ok h
  rw [events_generate, reached_of_ok h]
  constructor
  · obtain ⟨codes, htells, hflatten⟩ := Command.forall₂_tells settings.overflow commands
    refine ⟨codes, htells, hflatten.trans hbytes.symm, fun other hother => ?_⟩
    exact List.right_unique_forall₂' (fun _ _ _ h h' => h.unique h') hother htells
  · rw [hdiagnostics]
    exact Command.forall₂_warnings settings.overflow commands

theorem events_resolveTraced (texts : List Text) :
    (resolveTraced texts).events = (Program.scan texts).events := by
  unfold resolveTraced
  cases h : (Program.scan texts).result with
  | ok program => exact (Traced.events_andThen_of_ok h _).trans (List.append_nil _)
  | error fault => exact Traced.events_andThen_of_error h _

theorem events_assembleTraced (settings : Settings) (source : Text) :
    ∃ logged, (assembleTraced settings source).events =
        (Labels.empty.made (Program.table (Program.linesOf source)).defs).map LabelDef.event ++
          logged ∧
      (∀ fault, resolveSource source = .error fault → logged = []) ∧
      ∀ commands, resolveSource source = .ok commands →
        logged = (generate settings commands).events := by
  have hlabels : (resolveTraced (Text.lines source)).events =
      (Labels.empty.made (Program.table (Program.linesOf source)).defs).map LabelDef.event := by
    rw [events_resolveTraced]
    exact Program.events_scanFrom .empty 1 (Text.lines source)
  rw [← hlabels]
  cases h : resolveSource source with
  | error fault =>
    refine ⟨[], ?_, fun _ _ => rfl, ?_⟩
    · rw [assembleTraced, Traced.events_andThen_of_error h, List.append_nil]
    · intro commands hok
      cases hok
  | ok commands =>
    refine ⟨(generate settings commands).events, Traced.events_andThen_of_ok h _, ?_, ?_⟩
    · intro fault hfault
      cases hfault
    · intro other hother
      cases hother
      rfl

/-- The events of a run are those of the label lines above the first bad one and then, if both
passes succeed, one for each command that the run comes to. When the run succeeds, these account for
the machine code and the diagnostics. -/
theorem assembleTraced_transcript (settings : Settings) (source : Text) :
    let run := assembleTraced settings source
    ∃ (made : List LabelDef) (logged : List Event),
      run.events = made.map LabelDef.event ++ logged ∧
      Program.Made (Program.linesOf source) made ∧
      (∀ fault, resolveSource source = .error fault → logged = []) ∧
      (∀ commands, resolveSource source = .ok commands → Logs settings commands logged) ∧
      ∀ a, run.result = .ok a → Accounts logged a := by
  intro run
  obtain ⟨logged, hevents, hfault, hcommands⟩ := events_assembleTraced settings source
  refine ⟨_, logged, hevents, Program.made_table _, hfault, ?_, ?_⟩
  · intro commands hok
    rw [hcommands commands hok]
    exact logs_generate settings commands
  · intro a ha
    obtain ⟨commands, hok, hgenerate⟩ := assemble_eq_ok_iff.mp ha
    rw [hcommands commands hok]
    exact accounts_generate hgenerate

theorem assembleTraced_transcript_with_dropped_command :
    let source : Text := "top:\nREAD 65537\nJMP top\nend:\nSUB end"
    let run := assembleTraced ⟨.bestEffort, .mask⟩ source
    let repeated : Text := "top:\nLOAD 1\ntop:\nend:"
    resolveSource source = .ok [⟨.known .read, ["65537"], 2⟩, ⟨.unsupported "JMP", ["0"], 3⟩,
      ⟨.known .sub, ["2"], 5⟩] ∧
    (∃ (made : List LabelDef) (logged : List Event) (codes : List (List UInt8)) (event : Event),
      run.events = made.map LabelDef.event ++ logged ∧
      List.Forall₂ Event.Tells (logged.filter fun e => e.level = .debug) codes ∧
      codes.flatten = [0x9C, 1, 0, 0xAF, 2, 0, 0] ∧
      logged.filter (fun e => e.level = .warn) = [event] ∧ event.line = 3) ∧
    resolveSource repeated = .error ⟨3, .duplicateLabel "top" 1⟩ ∧
    ∃ made : List LabelDef, Program.Made (Program.linesOf repeated) made ∧
      made.map LabelDef.event = [⟨.debug, 1, "label defined", some ("top", 0)⟩] := by
  intro source run repeated
  have hcommands : resolveSource source = .ok [⟨.known .read, ["65537"], 2⟩,
      ⟨.unsupported "JMP", ["0"], 3⟩, ⟨.known .sub, ["2"], 5⟩] := by rfl
  have hresult : run.result =
      .ok ⟨[0x9C, 1, 0, 0xAF, 2, 0, 0], [⟨3, .unknownMnemonic "JMP"⟩]⟩ := by rfl
  have hfault : resolveSource repeated = .error ⟨3, .duplicateLabel "top" 1⟩ := by rfl
  refine ⟨hcommands, ?_, hfault, ?_⟩
  · obtain ⟨made, logged, hevents, -, -, -, hdone⟩ :=
      assembleTraced_transcript ⟨.bestEffort, .mask⟩ source
    obtain ⟨⟨codes, htells, hcodes, -⟩, hwarnings⟩ := hdone _ hresult
    obtain ⟨event, rest, ⟨hline, -⟩, hrest, hwarning⟩ := List.forall₂_cons_right_iff.mp hwarnings
    rw [List.forall₂_nil_right_iff.mp hrest] at hwarning
    exact ⟨made, logged, codes, event, hevents, htells, hcodes, hwarning, hline⟩
  · obtain ⟨made, logged, hevents, hmade, hnone, -⟩ := assembleTraced_transcript {} repeated
    rw [hnone _ hfault, List.append_nil] at hevents
    exact ⟨made, hmade, hevents.symm.trans (by rfl)⟩

end Uvm
