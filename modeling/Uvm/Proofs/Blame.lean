import Uvm.Proofs.Diagnosis
import Uvm.Proofs.Emission
import Uvm.Proofs.Inversion

/-! Faults point at what is wrong. Whatever an assembler reports, under whatever settings, is
`Blamed` on a line of the source: the line itself, as it is read, holds what the fault names, and it
is wrong for the reason that the fault gives. A number that was put in place of a label is never
reported as a literal. -/
namespace Uvm

namespace Literal

/-- Only a mark without digits has none. -/
theorem parse_eq_noDigits_iff {token : Text} (hne : token ≠ [])
    (hblank : ∀ c ∈ token, Text.isBlank c = false) :
    parse token = .error .noDigits ↔ token = "0x".toList ∨ token = "0X".toList := by
  rw [parse, Text.trim_eq_self_of_no_blank hblank]
  obtain ⟨mark, digits, hmark, rfl, h⟩ | ⟨hplain, h⟩ := radixDigits_cases token
  · rw [h]
    cases digits with
    | nil => rcases hmark with rfl | rfl <;> simp
    | cons c rest => simpa using value_ne_noDigits 16 (c :: rest)
  · rw [h]
    obtain ⟨c, rest, rfl⟩ := List.exists_cons_of_ne_nil hne
    constructor
    · intro hvalue
      exact absurd hvalue (value_ne_noDigits 10 (c :: rest))
    · rintro (hx | hX)
      · exact absurd hx (hplain 'x' [] (.inl rfl))
      · exact absurd hX (hplain 'X' [] (.inr rfl))

end Literal

namespace Command

/-- Why a command cannot be encoded. -/
inductive Refused (command : Command) : Cause → Prop where
  | unknownMnemonic {text : Text} (unsupported : command.mnemonic = .unsupported text) :
      Refused command (.unknownMnemonic text)
  | operandCount {op : Op} (known : command.mnemonic = .known op)
      (wrong : command.operands.length ≠ 1) :
      Refused command (.operandCount op command.operands.length)
  | badLiteral {op : Op} {token : Text} {fault : Literal.Fault}
      (known : command.mnemonic = .known op) (single : command.operands = [token])
      (refused : Literal.parse token = .error fault) : Refused command (.badLiteral token fault)
  | overflow {op : Op} {token : Text} {v : Nat} (known : command.mnemonic = .known op)
      (single : command.operands = [token]) (parsed : Literal.parse token = .ok v)
      (wide : op.fieldBound ≤ v) : Refused command (.overflow ⟨op, v⟩)

theorem refused_of_encode {policy : OnOverflow} {command : Command} {fault : Fault}
    (h : command.encode policy = .error fault) : command.Refused fault.cause := by
  unfold encode at h
  cases hmnemonic : command.mnemonic with
  | unsupported text =>
    simp only [hmnemonic] at h
    cases h
    exact .unknownMnemonic hmnemonic
  | known op =>
    simp only [hmnemonic] at h
    split at h
    · next token hsingle =>
      cases hparse : Literal.parse token with
      | error cause =>
        simp only [hparse] at h
        cases h
        exact .badLiteral hmnemonic hsingle hparse
      | ok v =>
        simp only [hparse] at h
        cases hencode : Uvm.encode op v policy with
        | ok bytes => simp [hencode] at h
        | error overflow =>
          simp only [hencode] at h
          cases h
          obtain ⟨⟨-, hwide⟩, rfl⟩ := encode_eq_error_iff.mp hencode
          exact .overflow hmnemonic hsingle hparse hwide
    · next hother =>
      cases h
      refine .operandCount hmnemonic fun hone => ?_
      obtain ⟨token, hsingle⟩ := List.length_eq_one_iff.mp hone
      exact hother token hsingle

theorem refused_of_fault? {policy : OnOverflow} {command : Command} {fault : Fault}
    (h : command.fault? policy = some fault) : command.Refused fault.cause := by
  cases hencode : command.encode policy with
  | ok e =>
    rw [fault?_of_ok hencode] at h
    cases h
  | error other =>
    rw [fault?_of_error hencode] at h
    cases h
    exact refused_of_encode hencode

end Command

theorem Line.At.bounds {lines : List Line} {n : Nat} {line : Line} (h : At lines n line) :
    1 ≤ n ∧ n ≤ lines.length := by
  obtain ⟨p, hp, rfl⟩ := h
  obtain ⟨hlt, -⟩ := List.getElem?_eq_some_iff.mp hp
  omega

namespace Program

/-- The fault is on its line: what it names is read there, and has what the fault says. -/
inductive Blamed (lines : List Line) : Fault → Prop where
  | unknownMnemonic {n : Nat} {mnemonic : Text} {operands : List Text}
      (on_line : Line.At lines n (.instruction mnemonic operands))
      (unknown : ∀ op : Op, mnemonic ≠ op.mnemonic) : Blamed lines ⟨n, .unknownMnemonic mnemonic⟩
  | operandCount {n : Nat} {op : Op} {operands : List Text}
      (on_line : Line.At lines n (.instruction op.mnemonic operands))
      (wrong : operands.length ≠ 1) : Blamed lines ⟨n, .operandCount op operands.length⟩
  | badLiteral {n : Nat} {op : Op} {token : Text} {fault : Literal.Fault}
      (on_line : Line.At lines n (.instruction op.mnemonic [token]))
      (no_label : ∀ l, ¬ Line.At lines l (.label token))
      (refused : Literal.parse token = .error fault)
      (no_digits : fault = .noDigits ↔ token = "0x".toList ∨ token = "0X".toList) :
      Blamed lines ⟨n, .badLiteral token fault⟩
  | overflow {n : Nat} {op : Op} {token : Text} {v : Nat}
      (on_line : Line.At lines n (.instruction op.mnemonic [token]))
      (worth : Worth lines token v) (wide : 2 ^ op.fieldBits ≤ v) :
      Blamed lines ⟨n, .overflow ⟨op, v⟩⟩
  | unresolvedLabel {n : Nat} {mnemonic token : Text} {operands : List Text}
      (on_line : Line.At lines n (.instruction mnemonic operands)) (operand : token ∈ operands)
      (no_label : ∀ l, ¬ Line.At lines l (.label token)) :
      Blamed lines ⟨n, .unresolvedLabel token⟩
  | badLabel {n : Nat} {name : Text} (on_line : Line.At lines n (.label name))
      (invalid : ¬ Labels.ValidName name) : Blamed lines ⟨n, .badLabel name⟩
  | duplicateLabel {n first : Nat} {name : Text} (on_line : Line.At lines n (.label name))
      (above : first < n) (defined : Line.At lines first (.label name)) :
      Blamed lines ⟨n, .duplicateLabel name first⟩

variable {lines : List Line}

theorem Blamed.bounds {fault : Fault} (h : Blamed lines fault) :
    1 ≤ fault.line ∧ fault.line ≤ lines.length := by
  cases h with
  | unknownMnemonic on_line => exact on_line.bounds
  | operandCount on_line => exact on_line.bounds
  | badLiteral on_line => exact on_line.bounds
  | overflow on_line => exact on_line.bounds
  | unresolvedLabel on_line => exact on_line.bounds
  | badLabel on_line => exact on_line.bounds
  | duplicateLabel on_line => exact on_line.bounds

theorem FirstFault.blamed {fault : Fault} (h : FirstFault lines fault) : Blamed lines fault := by
  cases h with
  | badLabel bad _ invalid => exact .badLabel bad.on_line invalid
  | duplicateLabel bad _ _ above defined => exact .duplicateLabel bad.on_line above defined
  | unresolvedLabel _ dangling =>
    obtain ⟨mnemonic, operands, hline, hj⟩ := dangling.on_line
    exact .unresolvedLabel hline (List.mem_of_getElem? hj) dangling.undefined

theorem Resolvable.wellLabelled (h : Resolvable lines) : WellLabelled lines :=
  wellLabelled_iff.mpr ⟨h.names_valid, h.names_distinct⟩

/-- The number in place of a label is a literal, so a bad one was in the source. -/
theorem rewrite_eq_self_of_parse_error (hlabels : WellLabelled lines)
    (hcount : (Line.instructions lines).length < 2 ^ 64) {token : Text} {fault : Literal.Fault}
    (h : Literal.parse ((table lines).rewrite token) = .error fault) :
    (table lines).rewrite token = token ∧ ∀ l, ¬ Line.At lines l (.label token) := by
  unfold Labels.rewrite at h ⊢
  cases hget : (table lines).get? token with
  | some k =>
    have hk : k < 2 ^ 64 :=
      Nat.lt_of_le_of_lt ((get?_table_iff hlabels).mp hget).le_length hcount
    simp only [hget, Literal.parse_decimal hk] at h
    cases h
  | none =>
    refine ⟨rfl, fun l hl => ?_⟩
    obtain ⟨k, hk⟩ := (exists_get?_table_iff hlabels).mpr ⟨l, hl⟩
    rw [hget] at hk
    cases hk

/-- What is refused of a command after labels are replaced is wrong with the line it stands on. -/
theorem Resolvable.blamed_of_fault? (h : Resolvable lines)
    (hcount : (Line.instructions lines).length < 2 ^ 64) {policy : OnOverflow} {c : Command}
    (hc : c ∈ commandsFrom 1 lines) (hoperands : ∀ o ∈ c.operands, Line.IsOperand o)
    {fault : Fault} (hfault : ((table lines).rewriteCommand c).fault? policy = some fault) :
    Blamed lines fault := by
  obtain ⟨mnemonic, hline, hmnemonic⟩ := mem_commandsFrom_one_iff.mp hc
  have hnumber := Command.line_of_fault? hfault
  have hrefused := Command.refused_of_fault? hfault
  obtain ⟨n, cause⟩ := fault
  obtain rfl : n = c.line := hnumber
  have hknown {op : Op} (hop : c.mnemonic = .known op) : mnemonic = op.mnemonic :=
    Mnemonic.ofText_eq_known_iff.mp (hmnemonic.symm.trans hop)
  cases hrefused with
  | @unknownMnemonic text unsupported =>
    obtain ⟨rfl, hnone⟩ :=
      Mnemonic.ofText_eq_unsupported_iff.mp (hmnemonic.symm.trans unsupported)
    exact .unknownMnemonic hline hnone
  | @operandCount op known wrong =>
    rw [hknown known] at hline
    simp only [Labels.rewriteCommand, List.length_map] at wrong ⊢
    exact .operandCount hline wrong
  | @badLiteral op token cause known single refused =>
    obtain ⟨o, hsingle, rfl⟩ := List.map_eq_singleton_iff.mp single
    rw [hsingle] at hline hoperands
    rw [hknown known] at hline
    have ho := hoperands o List.mem_cons_self
    obtain ⟨hsame, hnone⟩ := rewrite_eq_self_of_parse_error h.wellLabelled hcount refused
    rw [hsame] at refused ⊢
    refine .badLiteral hline hnone refused ?_
    rw [← Literal.parse_eq_noDigits_iff ho.nonempty ho.not_blank, refused, Except.error.injEq]
  | @overflow op token v known single parsed wide =>
    obtain ⟨o, hsingle, rfl⟩ := List.map_eq_singleton_iff.mp single
    have hmem : o ∈ c.operands := by simp [hsingle]
    have hresolves := h.operands_known c hc o hmem
    rw [hsingle, hknown known] at hline
    rw [Op.fieldBound_eq_two_pow] at wide
    exact .overflow hline
      ((worth_iff h.wellLabelled hcount (hoperands o hmem)).mpr ⟨hresolves, parsed⟩) wide

/-- Faults of commands come in the order of their lines. -/
theorem pairwise_line_faults (policy : OnOverflow) (lines : List Line) :
    ((resolved lines).filterMap (Command.fault? policy)).Pairwise fun f g => f.line < g.line := by
  have hcommands : (resolved lines).Pairwise fun c d => c.line < d.line := by
    rw [resolved, List.pairwise_map]
    exact pairwise_line_commandsFrom 1 lines
  rw [List.pairwise_filterMap]
  apply hcommands.imp
  intro c d hlt f hf g hg
  rw [Command.line_of_fault? hf, Command.line_of_fault? hg]
  exact hlt

end Program

/-- The fault ends the run, or is among the diagnostics of a run that succeeds. -/
def Reported (settings : Settings) (source : Text) (fault : Fault) : Prop :=
  assemble settings source = .error fault ∨
    ∃ a, assemble settings source = .ok a ∧ fault ∈ a.diagnostics

/-- What is reported comes from resolving or from one of the resolved commands. -/
theorem Reported.origin {settings : Settings} {source : Text} {fault : Fault}
    (h : Reported settings source fault) :
    resolveSource source = .error fault ∨ ∃ commands, resolveSource source = .ok commands ∧
      fault ∈ commands.filterMap (Command.fault? settings.overflow) := by
  rcases h with herror | ⟨a, hok, hmem⟩
  · rw [assemble_eq_bind, bind_eq_error_iff] at herror
    refine herror.imp_right fun ⟨commands, hresolve, hgenerate⟩ => ⟨commands, hresolve, ?_⟩
    exact List.mem_of_head? (generate_eq_error_iff.mp hgenerate).2
  · obtain ⟨commands, hresolve, hgenerate⟩ := assemble_eq_ok_iff.mp hok
    rw [(of_generate_eq_ok hgenerate).2] at hmem
    exact .inr ⟨commands, hresolve, hmem⟩

/-- Every fault that is reported has the number of a line of the source and is blamed on that line
by what is read there; and the diagnostics of a run come in the order of their lines, at most one
for each. -/
theorem reported_faults_blamed (settings : Settings) (source : Text)
    (hcount : (Line.instructions (Program.linesOf source)).length < 2 ^ 64) :
    (∀ fault, Reported settings source fault →
      1 ≤ fault.line ∧ fault.line ≤ (Text.lines source).length ∧
      Program.Blamed (Program.linesOf source) fault) ∧
    ∀ a, assemble settings source = .ok a →
      a.diagnostics.Pairwise fun f g => f.line < g.line := by
  constructor
  · intro fault hreported
    have hblamed : Program.Blamed (Program.linesOf source) fault := by
      obtain herror | ⟨commands, hresolve, hmem⟩ := hreported.origin
      · exact (firstFault_of_resolve_eq_error herror).blamed
      · obtain ⟨hresolvable, rfl⟩ := resolveSource_eq_ok_iff.mp hresolve
        obtain ⟨c', hc', hfault⟩ := List.mem_filterMap.mp hmem
        obtain ⟨c, hc, rfl⟩ := List.mem_map.mp hc'
        obtain ⟨mnemonic, hline, -⟩ := Program.mem_commandsFrom_one_iff.mp hc
        exact hresolvable.blamed_of_fault? hcount hc (Program.isOperand_of_at hline) hfault
    obtain ⟨hfirst, hlast⟩ := hblamed.bounds
    rw [Program.linesOf, List.length_map] at hlast
    exact ⟨hfirst, hlast, hblamed⟩
  · intro a hok
    obtain ⟨commands, hresolve, hgenerate⟩ := assemble_eq_ok_iff.mp hok
    obtain ⟨-, rfl⟩ := resolveSource_eq_ok_iff.mp hresolve
    rw [(of_generate_eq_ok hgenerate).2]
    exact Program.pairwise_line_faults settings.overflow _

theorem reported_faults_blamed_on_several_lines :
    let source : Text := "jmp 1\n\nfar:\nREAD 0x ; far\nload 1 2\nREAD 65536\nSUB far"
    let a : Assembly := ⟨[0xAF, 1, 0, 0], [⟨1, .unknownMnemonic "JMP"⟩,
      ⟨4, .badLiteral "0x" .noDigits⟩, ⟨5, .operandCount .load 2⟩,
      ⟨6, .overflow ⟨.read, 65536⟩⟩]⟩
    (Line.instructions (Program.linesOf source)).length < 2 ^ 64 ∧
    assemble ⟨.bestEffort, .reject⟩ source = .ok a ∧
    (∀ fault ∈ a.diagnostics, Program.Blamed (Program.linesOf source) fault) ∧
    a.diagnostics.Pairwise fun f g => f.line < g.line := by
  intro source a
  have hcount : (Line.instructions (Program.linesOf source)).length < 2 ^ 64 := by decide
  have hok : assemble ⟨.bestEffort, .reject⟩ source = .ok a := by rfl
  obtain ⟨hblamed, hsorted⟩ := reported_faults_blamed ⟨.bestEffort, .reject⟩ source hcount
  exact ⟨hcount, hok, fun fault hfault => (hblamed fault (.inr ⟨a, hok, hfault⟩)).2.2,
    hsorted a hok⟩

end Uvm
