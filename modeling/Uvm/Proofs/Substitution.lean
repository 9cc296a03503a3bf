import Uvm.Proofs.History
import Uvm.Proofs.LabelFree

/-! Putting an index in place of a label is final. Once it is done, every operand is meant as a
literal, and no table that can come about holds such a name, so that no table changes the commands
again. For the same reason more labels do not matter to commands that have been resolved without
them. -/
namespace Uvm

/-- What replacing labels leaves alone: the mnemonic, the number of operands and the line. -/
def Command.shape (command : Command) : Mnemonic × Nat × Nat :=
  (command.mnemonic, command.operands.length, command.line)

namespace Labels

/-- A table that calls of `define` lead to. -/
def Reachable (labels : Labels) : Prop := ∃ calls, labels = after calls

/-- Every binding of a table is one of the other table, too. -/
def Within (labels other : Labels) : Prop :=
  ∀ name k, labels.get? name = some k → other.get? name = some k

theorem Reachable.valid {labels : Labels} (h : labels.Reachable) : labels.Valid := by
  obtain ⟨calls, rfl⟩ := h
  exact valid_after calls

theorem Reachable.run {labels : Labels} (h : labels.Reachable) (more : List LabelDef) :
    (Session.run add labels more).Reachable := by
  obtain ⟨calls, rfl⟩ := h
  exact ⟨calls ++ more, (Session.run_append _ _ _).symm⟩

/-- No call takes a binding away or changes it. -/
theorem within_run (labels : Labels) (more : List LabelDef) :
    labels.Within (Session.run add labels more) := by
  intro name k hk
  have hdefs : Session.run add labels more =
      ⟨labels.defs ++ Session.accepted add labels more⟩ := by
    rw [← defs_run]
  rw [hdefs, get?_append, hk, Option.some_or]

/-- A table has nothing to say about an operand that is meant as a literal. -/
theorem Valid.rewrite_eq_self {labels : Labels} (h : labels.Valid) {operand : Text}
    (hnumeric : Literal.looksNumeric operand = true) : labels.rewrite operand = operand := by
  rw [rewrite, h.get?_eq_none hnumeric]

theorem Within.rewrite_eq {labels other : Labels} (h : labels.Within other) (hother : other.Valid)
    {operand : Text} (hresolves : labels.Resolves operand) :
    other.Resolves operand ∧ other.rewrite operand = labels.rewrite operand := by
  cases hget : labels.get? operand with
  | some k =>
    have hk := h operand k hget
    refine ⟨.inl (by rw [hk]; rfl), ?_⟩
    rw [rewrite, rewrite, hk, hget]
  | none =>
    have hnumeric : Literal.looksNumeric operand = true := hresolves.resolve_left (by simp [hget])
    refine ⟨.inr hnumeric, ?_⟩
    rw [hother.rewrite_eq_self hnumeric, rewrite, hget]

theorem shape_rewriteCommand (labels : Labels) (command : Command) :
    (labels.rewriteCommand command).shape = command.shape := by
  simp [Command.shape, rewriteCommand]

/-- Commands without labels stay as they are. -/
theorem Valid.resolve_of_numeric {labels : Labels} (h : labels.Valid) {commands : List Command}
    (hnumeric : ∀ c ∈ commands, ∀ o ∈ c.operands, Literal.looksNumeric o = true) :
    labels.resolve commands = .ok commands := by
  refine resolve_eq_ok_iff.mpr ⟨fun c hc o ho => .inr (hnumeric c hc o ho), ?_⟩
  have hsame : ∀ c ∈ commands, labels.rewriteCommand c = c := by
    intro c hc
    have hoperands : c.operands.map labels.rewrite = c.operands.map id :=
      List.map_congr_left fun o ho => h.rewrite_eq_self (hnumeric c hc o ho)
    rw [rewriteCommand, hoperands, List.map_id]
  rw [List.map_congr_left hsame, List.map_id']

theorem Within.resolve_eq {labels other : Labels} (h : labels.Within other) (hother : other.Valid)
    {commands resolved : List Command} (hresolve : labels.resolve commands = .ok resolved) :
    other.resolve commands = .ok resolved := by
  obtain ⟨hknown, rfl⟩ := resolve_eq_ok_iff.mp hresolve
  refine resolve_eq_ok_iff.mpr ⟨fun c hc o ho => (h.rewrite_eq hother (hknown c hc o ho)).1, ?_⟩
  refine List.map_congr_left fun c hc => ?_
  have hoperands : c.operands.map labels.rewrite = c.operands.map other.rewrite :=
    List.map_congr_left fun o ho => (h.rewrite_eq hother (hknown c hc o ho)).2.symm
  rw [rewriteCommand, rewriteCommand, hoperands]

/-- Resolved commands differ from the commands they come from in their operands only, and each of
these is meant as a literal. No table changes them again, and a table that holds all the bindings of
the first makes the same of the original commands; so does the first after any further calls. -/
theorem resolve_final {labels other : Labels} (hlabels : labels.Reachable)
    (hother : other.Reachable) {commands resolved : List Command}
    (h : labels.resolve commands = .ok resolved) :
    resolved.map Command.shape = commands.map Command.shape ∧
    (∀ c ∈ resolved, ∀ o ∈ c.operands, Literal.looksNumeric o = true) ∧
    other.resolve resolved = .ok resolved ∧
    (labels.Within other → other.resolve commands = .ok resolved) ∧
    ∀ more, (Session.run add labels more).resolve commands = .ok resolved := by
  obtain ⟨hknown, hresolved⟩ := resolve_eq_ok_iff.mp h
  have hnumeric : ∀ c ∈ resolved, ∀ o ∈ c.operands, Literal.looksNumeric o = true := by
    intro c hc o ho
    rw [hresolved] at hc
    obtain ⟨d, hd, rfl⟩ := List.mem_map.mp hc
    obtain ⟨operand, hoperand, rfl⟩ := List.mem_map.mp ho
    exact (hknown d hd operand hoperand).looksNumeric_rewrite
  refine ⟨?_, hnumeric, hother.valid.resolve_of_numeric hnumeric, ?_, fun more => ?_⟩
  · rw [hresolved, List.map_map]
    exact List.map_congr_left fun c _ => labels.shape_rewriteCommand c
  · intro hwithin
    exact hwithin.resolve_eq hother.valid h
  · exact (labels.within_run more).resolve_eq (hlabels.run more).valid h

theorem resolve_final_with_more_labels :
    let labels := after [⟨"top", 0, 1⟩, ⟨"end", 12, 2⟩]
    let other := after [⟨"x", 3, 1⟩, ⟨"end", 12, 2⟩, ⟨"top", 0, 3⟩, ⟨"12", 5, 4⟩]
    let commands : List Command :=
      [⟨.known .load, ["end", " 0xZZ"], 3⟩, ⟨.unsupported "JMP", ["top"], 4⟩]
    let resolved : List Command :=
      [⟨.known .load, ["12", " 0xZZ"], 3⟩, ⟨.unsupported "JMP", ["0"], 4⟩]
    labels.Reachable ∧ other.Reachable ∧ labels.resolve commands = .ok resolved ∧
      labels.Within other ∧ other.resolve resolved = .ok resolved ∧
      other.resolve commands = .ok resolved := by
  intro labels other commands resolved
  have hlabels : labels.Reachable := ⟨_, rfl⟩
  have hother : other.Reachable := ⟨_, rfl⟩
  have hresolve : labels.resolve commands = .ok resolved := by decide
  have hwithin : labels.Within other := by
    intro name k hk
    obtain ⟨d, hd, rfl, rfl⟩ := (get?_eq_some_iff (by decide)).mp hk
    have hbindings : ∀ d ∈ labels.defs, other.get? d.name = some d.index := by decide
    exact hbindings d hd
  obtain ⟨-, -, hfinal, hmore, -⟩ := resolve_final hlabels hother hresolve
  exact ⟨hlabels, hother, hresolve, hwithin, hfinal, hmore hwithin⟩

end Labels

end Uvm
