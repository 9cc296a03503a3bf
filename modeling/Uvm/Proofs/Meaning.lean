import Uvm.Proofs.Generation
import Uvm.Proofs.Reading

/-! What a source means, said without the two passes. An operand is worth the number of instructions
before the label it names, or the number its digits denote; a source is well formed when all its
labels can be told apart and every instruction has a meaning. Assembling under `failFast` accepts
exactly these sources, and the machine code decodes to what they mean. -/
namespace Uvm

namespace Program

/-- A line gives the name to the place after `k` instructions. -/
def Defines (lines : List Line) (name : Text) (k : Nat) : Prop :=
  ∃ before after, lines = before ++ .label name :: after ∧ k = before.countP Line.isInstruction

/-- What an operand is worth in a source. -/
inductive Worth (lines : List Line) : Text → Nat → Prop where
  | label {name : Text} {k : Nat} (defined : Defines lines name k) : Worth lines name k
  | literal {token : Text} {v : Nat} (denoted : Literal.Denotes token v) (bounded : v < 2 ^ 64) :
      Worth lines token v

/-- The words of an instruction line ask for an instruction with an operand of value `v`. -/
structure Means (policy : OnOverflow) (lines : List Line) (words : Text × List Text) (op : Op)
    (v : Nat) : Prop where
  named : words.1 = op.mnemonic
  operand : ∃ token, words.2 = [token] ∧ Worth lines token v
  fits : policy = .reject → v < 2 ^ op.fieldBits

/-- Every label has a name of its own, and one that labels may have. -/
structure WellLabelled (lines : List Line) : Prop where
  names_valid : ∀ name, .label name ∈ lines → Labels.ValidName name
  names_distinct : (Line.labelNames lines).Nodup

/-- All labels can be told apart and every instruction line means something. -/
structure WellFormed (policy : OnOverflow) (lines : List Line) : Prop
    extends WellLabelled lines where
  meant : ∀ mnemonic operands, .instruction mnemonic operands ∈ lines →
    ∃ op v, Means policy lines (mnemonic, operands) op v

/-- A decoded instruction is the only one its line asks for, its operand taken modulo the field. -/
def Realized (policy : OnOverflow) (lines : List Line) (words : Text × List Text) (d : Decoded) :
    Prop :=
  ∃ v, (∀ op w, Means policy lines words op w ↔ op = d.op ∧ w = v) ∧
    d.operand = v % 2 ^ d.op.fieldBits

variable {lines : List Line} {policy : OnOverflow}

theorem names_table (lines : List Line) : (table lines).names = Line.labelNames lines :=
  map_name_defsFrom 1 0 lines

theorem wellLabelled_iff :
    WellLabelled lines ↔
      (∀ d ∈ (table lines).defs, Labels.ValidName d.name) ∧ (table lines).names.Nodup := by
  have hnames : (∀ d ∈ (table lines).defs, Labels.ValidName d.name) ↔
      ∀ name ∈ (table lines).names, Labels.ValidName name := by
    rw [Labels.names, List.forall_mem_map]
  rw [hnames, names_table]
  simp only [Line.mem_labelNames_iff]
  exact ⟨fun h => ⟨h.names_valid, h.names_distinct⟩, fun h => ⟨h.1, h.2⟩⟩

theorem get?_table_iff (h : WellLabelled lines) {name : Text} {k : Nat} :
    (table lines).get? name = some k ↔ Defines lines name k := by
  rw [Labels.get?_eq_some_iff (wellLabelled_iff.mp h).2, Defines]
  constructor
  · rintro ⟨d, hd, rfl, rfl⟩
    obtain ⟨before, after, hlines, hindex, -⟩ := mem_defsFrom_iff.mp hd
    exact ⟨before, after, hlines, by omega⟩
  · rintro ⟨before, after, hlines, rfl⟩
    refine ⟨⟨name, before.countP Line.isInstruction, 1 + before.length⟩, ?_, rfl, rfl⟩
    exact mem_defsFrom_iff.mpr ⟨before, after, hlines, (Nat.zero_add _).symm, rfl⟩

theorem Defines.le_length {name : Text} {k : Nat} (h : Defines lines name k) :
    k ≤ (Line.instructions lines).length := by
  obtain ⟨before, after, rfl, rfl⟩ := h
  rw [Line.length_instructions, List.countP_append]
  omega

/-- A name never denotes a number. -/
theorem Defines.not_denotes (hlabels : WellLabelled lines) {name : Text} {k v : Nat}
    (h : Defines lines name k) : ¬ Literal.Denotes name v := by
  intro hdenotes
  obtain ⟨before, after, hlines, -⟩ := h
  obtain ⟨c, rest, rfl, hdigit⟩ := hdenotes.starts_with_digit
  have hline : .label (c :: rest) ∈ lines := by simp [hlines]
  have hvalid := hlabels.names_valid _ hline
  rw [hvalid.not_numeric c rfl] at hdigit
  cases hdigit

/-- Replacing labels and then parsing finds what an operand is worth. -/
theorem worth_iff (hlabels : WellLabelled lines)
    (hcount : (Line.instructions lines).length < 2 ^ 64) {token : Text}
    (htoken : Line.IsOperand token) {v : Nat} :
    Worth lines token v ↔
      (table lines).Resolves token ∧ Literal.parse ((table lines).rewrite token) = .ok v := by
  have hbound : Literal.bound = 2 ^ 64 := rfl
  rw [Labels.Resolves, Labels.rewrite]
  -- A label is rewritten to decimal digits, which have to come back as the same number.
  cases hget : (table lines).get? token with
  | some k =>
    have hdefines := (get?_table_iff hlabels).mp hget
    have hk : k < Literal.bound := hbound ▸ Nat.lt_of_le_of_lt hdefines.le_length hcount
    simp only [Literal.parse_decimal hk, Option.isSome_some, true_or, true_and, Except.ok.injEq]
    constructor
    · intro hworth
      cases hworth with
      | label defined =>
        have hv := (get?_table_iff hlabels).mpr defined
        rw [hget] at hv
        exact Option.some.inj hv
      | literal denoted => exact absurd denoted (hdefines.not_denotes hlabels)
    · rintro rfl
      exact .label hdefines
  | none =>
    simp only [Option.isSome_none, Bool.false_eq_true, false_or,
      Literal.parse_eq_ok_iff htoken.not_blank, Literal.looksNumeric_iff htoken.not_blank, hbound]
    constructor
    · intro hworth
      cases hworth with
      | label defined =>
        rw [(get?_table_iff hlabels).mpr defined] at hget
        cases hget
      | literal denoted bounded => exact ⟨denoted.starts_with_digit, denoted, bounded⟩
    · rintro ⟨-, denoted, bounded⟩
      exact .literal denoted bounded

theorem means_iff (hlabels : WellLabelled lines)
    (hcount : (Line.instructions lines).length < 2 ^ 64) {mnemonic : Text} (command : Command)
    (hname : command.mnemonic = .ofText mnemonic)
    (hoperands : ∀ o ∈ command.operands, Line.IsOperand o) {op : Op} {v : Nat} :
    Means policy lines (mnemonic, command.operands) op v ↔
      (∀ o ∈ command.operands, (table lines).Resolves o) ∧
        ((table lines).rewriteCommand command).item? policy = some (op, v) := by
  rw [Command.item?_eq_some_iff, Op.fieldBound_eq_two_pow]
  constructor
  · rintro ⟨hop, ⟨token, hsingle, hworth⟩, hfits⟩
    dsimp only at hop hsingle
    rw [hsingle] at hoperands ⊢
    obtain ⟨hresolves, hparse⟩ :=
      (worth_iff hlabels hcount (hoperands token List.mem_cons_self)).mp hworth
    refine ⟨by simpa using hresolves, ?_, ⟨_, ?_, hparse⟩, hfits⟩
    · exact hname.trans (Mnemonic.ofText_eq_known_iff.mpr hop)
    · simp [Labels.rewriteCommand, hsingle]
  · rintro ⟨hresolves, hop, ⟨t, hmap, hparse⟩, hfits⟩
    obtain ⟨token, hsingle, rfl⟩ := List.map_eq_singleton_iff.mp hmap
    have hmem : token ∈ command.operands := by simp [hsingle]
    refine ⟨Mnemonic.ofText_eq_known_iff.mp (hname.symm.trans hop), ⟨token, hsingle, ?_⟩, hfits⟩
    exact (worth_iff hlabels hcount (hoperands token hmem)).mpr ⟨hresolves token hmem, hparse⟩

/-- The two passes and the encoder accept what has a meaning. -/
theorem wellFormed_iff (hcount : (Line.instructions lines).length < 2 ^ 64)
    (hoperands : ∀ words ∈ Line.instructions lines, ∀ o ∈ words.2, Line.IsOperand o) :
    WellFormed policy lines ↔
      Resolvable lines ∧ ∀ c ∈ resolved lines, ∃ i, c.item? policy = some i := by
  constructor
  · intro h
    have hlabels := h.toWellLabelled
    have hcommand : ∀ c ∈ commandsFrom 1 lines, (∀ o ∈ c.operands, (table lines).Resolves o) ∧
        ∃ i, ((table lines).rewriteCommand c).item? policy = some i := by
      intro c hc
      obtain ⟨mnemonic, hline, hname⟩ := mem_commandsFrom_iff.mp ⟨c, hc, rfl, rfl⟩
      obtain ⟨op, v, hmeans⟩ := h.meant mnemonic c.operands hline
      have hwords := hoperands _ (Line.mem_instructions_iff.mpr hline)
      obtain ⟨hresolves, hitem⟩ := (means_iff hlabels hcount c hname hwords).mp hmeans
      exact ⟨hresolves, _, hitem⟩
    obtain ⟨hvalid, hdistinct⟩ := wellLabelled_iff.mp hlabels
    refine ⟨⟨hvalid, hdistinct, fun c hc => (hcommand c hc).1⟩, fun c hc => ?_⟩
    obtain ⟨c, hmem, rfl⟩ := List.mem_map.mp hc
    exact (hcommand c hmem).2
  · rintro ⟨hresolvable, hitems⟩
    have hlabels := wellLabelled_iff.mpr ⟨hresolvable.names_valid, hresolvable.names_distinct⟩
    refine ⟨hlabels, fun mnemonic operands hline => ?_⟩
    obtain ⟨c, hc, hname, rfl⟩ := mem_commandsFrom_iff.mpr ⟨mnemonic, hline, rfl⟩
    obtain ⟨⟨op, v⟩, hitem⟩ := hitems _ (List.mem_map_of_mem hc)
    have hwords := hoperands _ (Line.mem_instructions_iff.mpr hline)
    exact ⟨op, v, (means_iff hlabels hcount c hname hwords).mpr
      ⟨hresolvable.operands_known c hc, hitem⟩⟩

theorem forall₂_items {labels : Labels} {R : Text × List Text → Op × Nat → Prop} (line : Nat)
    (h : ∀ words ∈ Line.instructions lines, ∀ line, ∃ i,
      (labels.rewriteCommand ⟨.ofText words.1, words.2, line⟩).item? policy = some i ∧ R words i) :
    List.Forall₂ R (Line.instructions lines)
      (((commandsFrom line lines).map labels.rewriteCommand).filterMap (Command.item? policy)) := by
  induction lines generalizing line with
  | nil => exact .nil
  | cons l rest ih =>
    cases l with
    | blank => exact ih (line + 1) h
    | label name => exact ih (line + 1) h
    | instruction mnemonic operands =>
      rw [Line.instructions, List.forall_mem_cons] at h
      obtain ⟨i, hitem, hrelated⟩ := h.1 line
      rw [Line.instructions, commandsFrom, List.map_cons, List.filterMap_cons_some hitem]
      exact .cons hrelated (ih (line + 1) h.2)

/-- Line by line, the instructions encoded are the ones meant, and each line means one only. -/
theorem forall₂_meant (h : WellFormed policy lines)
    (hcount : (Line.instructions lines).length < 2 ^ 64)
    (hoperands : ∀ words ∈ Line.instructions lines, ∀ o ∈ words.2, Line.IsOperand o) :
    List.Forall₂ (fun words i => ∀ op v, Means policy lines words op v ↔ (op, v) = i)
      (Line.instructions lines) ((resolved lines).filterMap (Command.item? policy)) := by
  refine forall₂_items 1 fun ⟨mnemonic, operands⟩ hwords line => ?_
  have hiff (op : Op) (v : Nat) : Means policy lines (mnemonic, operands) op v ↔
      (∀ o ∈ operands, (table lines).Resolves o) ∧
        ((table lines).rewriteCommand ⟨.ofText mnemonic, operands, line⟩).item? policy =
          some (op, v) :=
    means_iff h.toWellLabelled hcount ⟨_, _, line⟩ rfl (hoperands _ hwords)
  obtain ⟨op, v, hmeans⟩ := h.meant mnemonic operands (Line.mem_instructions_iff.mp hwords)
  have hitem := ((hiff op v).mp hmeans).2
  refine ⟨(op, v), hitem, fun op' v' => ⟨fun hmeans' => ?_, ?_⟩⟩
  · have hitem' := ((hiff op' v').mp hmeans').2
    rw [hitem] at hitem'
    exact (Option.some.inj hitem').symm
  · rintro ⟨rfl, rfl⟩
    exact hmeans

theorem forall₂_realized (h : WellFormed policy lines)
    (hcount : (Line.instructions lines).length < 2 ^ 64)
    (hoperands : ∀ words ∈ Line.instructions lines, ∀ o ∈ words.2, Line.IsOperand o) :
    List.Forall₂ (Realized policy lines) (Line.instructions lines)
      (((resolved lines).filterMap (Command.item? policy)).map fun i => .ofCode i.1 i.2) := by
  rw [List.forall₂_map_right_iff]
  refine (forall₂_meant h hcount hoperands).imp fun words i hi => ⟨i.2, fun op w => ?_, ?_⟩
  · rw [hi, Prod.ext_iff]
    rfl
  · rw [← Op.fieldBound_eq_two_pow]
    rfl

theorem isOperand_of_mem_linesOf {source : Text} :
    ∀ words ∈ Line.instructions (linesOf source), ∀ o ∈ words.2, Line.IsOperand o := by
  intro words hwords
  obtain ⟨text, -, hread⟩ := List.mem_map.mp (Line.mem_instructions_iff.mp hwords)
  exact (Line.of_read_instruction hread).2

end Program

theorem assemble_failFast_eq_ok_iff {policy : OnOverflow} {source : Text} {a : Assembly} :
    assemble ⟨.failFast, policy⟩ source = .ok a ↔
      (Program.Resolvable (Program.linesOf source) ∧
        ∀ c ∈ Program.resolved (Program.linesOf source), ∃ i, c.item? policy = some i) ∧
      a = ⟨(Program.resolved (Program.linesOf source)).flatMap (Command.bytes policy), []⟩ := by
  simp only [assemble_eq_ok_iff, resolveSource_eq_ok_iff, generate_failFast_eq_ok_iff]
  constructor
  · rintro ⟨commands, ⟨hresolvable, rfl⟩, hitems, rfl⟩
    exact ⟨⟨hresolvable, hitems⟩, rfl⟩
  · rintro ⟨⟨hresolvable, hitems⟩, rfl⟩
    exact ⟨_, ⟨hresolvable, rfl⟩, hitems, rfl⟩

/-- Fail-fast assembling accepts exactly the well-formed sources. Its machine code is swept to the
end and holds one instruction for each instruction line, in order: the one that the line means, its
operand taken modulo the field. -/
theorem assemble_failFast_meaning (source : Text) (policy : OnOverflow)
    (hcount : (Line.instructions (Program.linesOf source)).length < 2 ^ 64) :
    ((∃ a, assemble ⟨.failFast, policy⟩ source = .ok a) ↔
      Program.WellFormed policy (Program.linesOf source)) ∧
    ∀ a, assemble ⟨.failFast, policy⟩ source = .ok a →
      a.diagnostics = [] ∧ (sweep a.bytes).stoppedAt = none ∧
      List.Forall₂ (fun words d => Program.Realized policy (Program.linesOf source) words d.2)
        (Line.instructions (Program.linesOf source)) (sweep a.bytes).instructions := by
  have hwell : Program.WellFormed policy (Program.linesOf source) ↔ _ :=
    Program.wellFormed_iff hcount Program.isOperand_of_mem_linesOf
  refine ⟨?_, fun a ha => ?_⟩
  · simp only [assemble_failFast_eq_ok_iff, ← hwell]
    exact ⟨fun ⟨_, h, _⟩ => h, fun h => ⟨_, h, rfl⟩⟩
  · obtain ⟨haccepted, hbytes⟩ := assemble_failFast_eq_ok_iff.mp ha
    have hrealized := Program.forall₂_realized (hwell.mpr haccepted) hcount
      Program.isOperand_of_mem_linesOf
    obtain ⟨commands, hresolve, hgenerate⟩ := assemble_eq_ok_iff.mp ha
    obtain ⟨-, rfl⟩ := resolveSource_eq_ok_iff.mp hresolve
    obtain ⟨hstop, hsweep⟩ := sweep_generate hgenerate
    refine ⟨by rw [hbytes], hstop, ?_⟩
    rw [← hsweep, List.forall₂_map_right_iff] at hrealized
    exact hrealized

theorem assemble_failFast_meaning_with_labels :
    let source : Text := "top:\nload end\n  read 0x12345 ; too wide\nend:\nSUB top"
    let lines := Program.linesOf source
    let a : Assembly := ⟨[0xCA, 2, 0, 0, 0x9C, 0x45, 0x23, 0xAF, 0, 0, 0], []⟩
    (Line.instructions lines).length < 2 ^ 64 ∧ assemble ⟨.failFast, .mask⟩ source = .ok a ∧
      Program.WellFormed .mask lines ∧ ¬ Program.WellFormed .reject lines ∧
      (sweep a.bytes).instructions.length = 3 := by
  intro source lines a
  have hcount : (Line.instructions lines).length < 2 ^ 64 := by decide
  have hok : assemble ⟨.failFast, .mask⟩ source = .ok a := by rfl
  have hmask := assemble_failFast_meaning source .mask hcount
  have hreject := assemble_failFast_meaning source .reject hcount
  refine ⟨hcount, hok, hmask.1.mp ⟨a, hok⟩, fun hwell => ?_, ?_⟩
  · obtain ⟨b, hb⟩ := hreject.1.mpr hwell
    cases hb
  · exact (hmask.2 a hok).2.2.length_eq.symm

end Uvm
