import Uvm.Proofs.Binding

/-! Which fault of the lines is reported. A label line is bad when its name cannot be bound, an
operand dangles when it has no meaning. The first bad label line is reported before all else;
without one, the first dangling operand; and without that there is no fault. Settings have no say
in it. -/
namespace Uvm

namespace Labels

theorem of_extend_eq_error {labels : Labels} {name : Text} {index line : Nat} {fault : Fault}
    (h : labels.extend name index line = .error fault) :
    (¬ ValidName name ∧ fault = ⟨line, .badLabel name⟩) ∨
      ValidName name ∧ ∃ d ∈ labels.defs, d.name = name ∧
        fault = ⟨line, .duplicateLabel name d.line⟩ := by
  unfold extend at h
  rw [← isName_iff]
  cases hname : isName name with
  | false =>
    simp only [hname] at h
    cases h
    exact .inl ⟨Bool.false_ne_true, rfl⟩
  | true =>
    cases hfind : labels.find? name with
    | none => simp [hname, hfind] at h
    | some d =>
      simp only [hname, hfind] at h
      cases h
      have hsame : d.name = name := by simpa using List.find?_some hfind
      exact .inr ⟨rfl, d, List.mem_of_find?_eq_some hfind, hsame, rfl⟩

/-- Definitions are made up to the first that is refused. -/
theorem of_extendAll_eq_error {labels : Labels} {defs : List LabelDef} {fault : Fault}
    (h : labels.extendAll defs = .error fault) :
    ∃ before d after next, defs = before ++ d :: after ∧ labels.extendAll before = .ok next ∧
      next.extend d.name d.index d.line = .error fault := by
  induction defs generalizing labels with
  | nil => cases h
  | cons d rest ih =>
    rw [extendAll] at h
    cases hextend : labels.extend d.name d.index d.line with
    | error first =>
      rw [hextend] at h
      cases h
      exact ⟨[], d, rest, labels, rfl, rfl, hextend⟩
    | ok extended =>
      rw [hextend] at h
      obtain ⟨before, e, after, next, rfl, hbefore, hrefused⟩ := ih h
      refine ⟨d :: before, e, after, next, rfl, ?_, hrefused⟩
      rw [extendAll, hextend]
      exact hbefore

theorem resolveOperand_of_not_resolves {labels : Labels} {line : Nat} {operand : Text}
    (h : ¬ labels.Resolves operand) :
    labels.resolveOperand line operand = .error ⟨line, .unresolvedLabel operand⟩ := by
  rw [Resolves, not_or] at h
  cases hget : labels.get? operand with
  | some k => simp [hget] at h
  | none => simp only [resolveOperand, hget, h.2, Bool.false_eq_true, ↓reduceIte]

/-- Operands are replaced up to the first without a meaning. -/
theorem of_resolveOperands_eq_error {labels : Labels} {line : Nat} {operands : List Text}
    {fault : Fault} (h : labels.resolveOperands line operands = .error fault) :
    ∃ before token after, operands = before ++ token :: after ∧
      (∀ o ∈ before, labels.Resolves o) ∧ ¬ labels.Resolves token ∧
      fault = ⟨line, .unresolvedLabel token⟩ := by
  induction operands with
  | nil => cases h
  | cons operand rest ih =>
    rw [resolveOperands] at h
    by_cases hfirst : labels.Resolves operand
    · rw [resolveOperand_eq_ok_iff.mpr ⟨hfirst, rfl⟩] at h
      obtain ⟨before, token, after, rfl, hbefore, htoken⟩ := ih (map_eq_error_iff.mp h)
      exact ⟨operand :: before, token, after, rfl,
        List.forall_mem_cons.mpr ⟨hfirst, hbefore⟩, htoken⟩
    · rw [resolveOperand_of_not_resolves hfirst] at h
      cases h
      exact ⟨[], operand, rest, rfl, List.forall_mem_nil _, hfirst, rfl⟩

/-- Commands are resolved up to the first with an operand that cannot be. -/
theorem of_resolve_eq_error {labels : Labels} {commands : List Command} {fault : Fault}
    (h : labels.resolve commands = .error fault) :
    ∃ before c after, commands = before ++ c :: after ∧
      (∀ b ∈ before, ∀ o ∈ b.operands, labels.Resolves o) ∧
      labels.resolveOperands c.line c.operands = .error fault := by
  induction commands with
  | nil => cases h
  | cons command rest ih =>
    rw [resolve] at h
    cases hfirst : labels.resolveOperands command.line command.operands with
    | error first =>
      rw [hfirst] at h
      cases h
      exact ⟨[], command, rest, rfl, List.forall_mem_nil _, hfirst⟩
    | ok operands =>
      rw [hfirst] at h
      have hknown := (resolveOperands_eq_ok_iff.mp hfirst).1
      obtain ⟨before, c, after, rfl, hbefore, hc⟩ := ih (map_eq_error_iff.mp h)
      exact ⟨command :: before, c, after, rfl, List.forall_mem_cons.mpr ⟨hknown, hbefore⟩, hc⟩

end Labels

namespace Program

/-- The label on line `l` cannot be bound: its name is not allowed, or a line above has it too. -/
structure BadLabel (lines : List Line) (l : Nat) (name : Text) : Prop where
  on_line : Line.At lines l (.label name)
  refused : ¬ Labels.ValidName name ∨ ∃ earlier < l, Line.At lines earlier (.label name)

/-- Operand `j` on line `l` has no meaning: it names no label and does not start with a digit. -/
structure Dangling (lines : List Line) (l j : Nat) (token : Text) : Prop where
  on_line : ∃ mnemonic operands, Line.At lines l (.instruction mnemonic operands) ∧
    operands[j]? = some token
  undefined : ∀ k, ¬ Line.At lines k (.label token)
  not_numeric : ∀ c, token.head? = some c → c.isDigit = false

/-- The fault to be reported: that of the first bad label or, if there is none, that of the first
dangling operand. -/
inductive FirstFault (lines : List Line) : Fault → Prop where
  | badLabel {l : Nat} {name : Text} (bad : BadLabel lines l name)
      (first : ∀ k other, BadLabel lines k other → l ≤ k) (invalid : ¬ Labels.ValidName name) :
      FirstFault lines ⟨l, .badLabel name⟩
  | duplicateLabel {l earlier : Nat} {name : Text} (bad : BadLabel lines l name)
      (first : ∀ k other, BadLabel lines k other → l ≤ k) (valid : Labels.ValidName name)
      (above : earlier < l) (defined : Line.At lines earlier (.label name)) :
      FirstFault lines ⟨l, .duplicateLabel name earlier⟩
  | unresolvedLabel {l j : Nat} {token : Text} (labelled : ∀ k name, ¬ BadLabel lines k name)
      (dangling : Dangling lines l j token)
      (first : ∀ k i other, Dangling lines k i other → l < k ∨ l = k ∧ j ≤ i) :
      FirstFault lines ⟨l, .unresolvedLabel token⟩

variable {lines : List Line}

/-- In a list sorted by line, what comes before an entry is what stands on lines above it. -/
theorem mem_before_of_lt {α : Type} {line : α → Nat} {before after : List α} {x y : α}
    (hsorted : (before ++ y :: after).Pairwise fun a b => line a < line b)
    (hx : x ∈ before ++ y :: after) (habove : line x < line y) : x ∈ before := by
  obtain ⟨-, htail, -⟩ := List.pairwise_append.mp hsorted
  rw [List.mem_append, List.mem_cons] at hx
  obtain hx | rfl | hx := hx
  · exact hx
  · omega
  · have := (List.pairwise_cons.mp htail).1 x hx
    omega

theorem pairwise_line_defsFrom (line index : Nat) (lines : List Line) :
    (defsFrom line index lines).Pairwise fun d e => d.line < e.line := by
  induction lines generalizing line index with
  | nil => exact .nil
  | cons l rest ih =>
    cases l with
    | blank => exact ih (line + 1) index
    | instruction mnemonic operands => exact ih (line + 1) (index + 1)
    | label name =>
      refine List.pairwise_cons.mpr ⟨fun e he => ?_, ih (line + 1) index⟩
      obtain ⟨before, _, -, -, hline⟩ := mem_defsFrom_iff.mp he
      dsimp only
      omega

theorem at_label_iff {l : Nat} {name : Text} :
    Line.At lines l (.label name) ↔ ∃ d ∈ (table lines).defs, d.name = name ∧ d.line = l := by
  rw [Line.at_iff_append]
  constructor
  · rintro ⟨before, after, hlines, rfl⟩
    refine ⟨⟨name, before.countP Line.isInstruction, before.length + 1⟩, ?_, rfl, rfl⟩
    exact mem_defsFrom_iff.mpr
      ⟨before, after, hlines, (Nat.zero_add _).symm, Nat.add_comm before.length 1⟩
  · rintro ⟨d, hd, rfl, rfl⟩
    obtain ⟨before, after, hlines, -, hline⟩ := mem_defsFrom_iff.mp hd
    exact ⟨before, after, hlines, by omega⟩

/-- Where the labels have names of their own, a label is on one line only. -/
theorem WellLabelled.at_label_unique (h : WellLabelled lines) {name : Text} {l k : Nat}
    (hl : Line.At lines l (.label name)) (hk : Line.At lines k (.label name)) : l = k := by
  obtain ⟨d, hd, rfl, rfl⟩ := at_label_iff.mp hl
  obtain ⟨e, he, hname, rfl⟩ := at_label_iff.mp hk
  rw [List.inj_on_of_nodup_map (wellLabelled_iff.mp h).2 he hd hname]

/-- Among definitions that can all be made, none is for a bad label. -/
theorem not_badLabel_of_defs {defs : List LabelDef} (hvalid : ∀ d ∈ defs, Labels.ValidName d.name)
    (hdistinct : (defs.map LabelDef.name).Nodup) {l : Nat} {name : Text}
    (hdefs : ∀ d ∈ (table lines).defs, d.line ≤ l → d ∈ defs) : ¬ BadLabel lines l name := by
  rintro ⟨honline, hrefused⟩
  obtain ⟨d, hd, rfl, rfl⟩ := at_label_iff.mp honline
  have hmade : d ∈ defs := hdefs d hd (Nat.le_refl _)
  obtain hinvalid | ⟨earlier, habove, hearlier⟩ := hrefused
  · exact hinvalid (hvalid d hmade)
  · obtain ⟨e, he, hname, rfl⟩ := at_label_iff.mp hearlier
    have hmade' : e ∈ defs := hdefs e he (Nat.le_of_lt habove)
    have hsame : e = d := List.inj_on_of_nodup_map hdistinct hmade' hmade hname
    rw [hsame] at habove
    exact Nat.lt_irrefl _ habove

theorem WellLabelled.not_badLabel (h : WellLabelled lines) (l : Nat) (name : Text) :
    ¬ BadLabel lines l name := by
  obtain ⟨hvalid, hdistinct⟩ := wellLabelled_iff.mp h
  exact not_badLabel_of_defs hvalid hdistinct fun d hd _ => hd

/-- Above the first definition that cannot be made, no label is bad. -/
theorem not_badLabel_above {before after : List LabelDef} {next : Labels}
    (hdefs : (table lines).defs = before ++ after)
    (hbefore : Labels.empty.extendAll before = .ok next) {l : Nat}
    (habove : ∀ d ∈ after, l < d.line) (name : Text) : ¬ BadLabel lines l name := by
  obtain ⟨hvalid, hdistinct, -⟩ := Labels.extendAll_empty_eq_ok_iff.mp hbefore
  refine not_badLabel_of_defs hvalid hdistinct fun e he hle => ?_
  rw [hdefs, List.mem_append] at he
  obtain he | he := he
  · exact he
  · have := habove e he
    omega

/-- The first definition that cannot be made is that of a bad label. -/
theorem badLabel_of_refused {before after : List LabelDef} {d : LabelDef} {next : Labels}
    {fault : Fault} (hdefs : (table lines).defs = before ++ d :: after)
    (hbefore : Labels.empty.extendAll before = .ok next)
    (hrefused : next.extend d.name d.index d.line = .error fault) :
    BadLabel lines d.line d.name := by
  obtain ⟨-, -, rfl⟩ := Labels.extendAll_empty_eq_ok_iff.mp hbefore
  have hsorted : (before ++ d :: after).Pairwise fun d e => d.line < e.line :=
    hdefs ▸ pairwise_line_defsFrom 1 0 lines
  refine ⟨at_label_iff.mpr ⟨d, by simp [hdefs], rfl, rfl⟩, ?_⟩
  obtain ⟨hinvalid, -⟩ | ⟨-, e, he, hsame, -⟩ := Labels.of_extend_eq_error hrefused
  · exact .inl hinvalid
  · refine .inr ⟨e.line, (List.pairwise_append.mp hsorted).2.2 e he d List.mem_cons_self, ?_⟩
    exact at_label_iff.mpr ⟨e, by rw [hdefs]; exact List.mem_append_left _ he, hsame, rfl⟩

/-- A fault in defining the labels of the lines is that of the first bad one. -/
theorem firstFault_of_extendAll {fault : Fault}
    (h : Labels.empty.extendAll (table lines).defs = .error fault) : FirstFault lines fault := by
  obtain ⟨before, d, after, next, hdefs, hbefore, hrefused⟩ := Labels.of_extendAll_eq_error h
  have hbad := badLabel_of_refused hdefs hbefore hrefused
  have hsorted : (before ++ d :: after).Pairwise fun d e => d.line < e.line :=
    hdefs ▸ pairwise_line_defsFrom 1 0 lines
  obtain ⟨-, htail, hcross⟩ := List.pairwise_append.mp hsorted
  have hfirst : ∀ k other, BadLabel lines k other → d.line ≤ k := by
    intro k other
    contrapose!
    intro hk
    refine not_badLabel_above hdefs hbefore (fun e he => ?_) other
    obtain rfl | he := List.mem_cons.mp he
    · exact hk
    · exact Nat.lt_trans hk ((List.pairwise_cons.mp htail).1 e he)
  obtain ⟨-, -, rfl⟩ := Labels.extendAll_empty_eq_ok_iff.mp hbefore
  obtain ⟨hinvalid, rfl⟩ | ⟨hname, e, he, hsame, rfl⟩ := Labels.of_extend_eq_error hrefused
  · exact .badLabel hbad hfirst hinvalid
  · have hearlier : Line.At lines e.line (.label d.name) :=
      at_label_iff.mpr ⟨e, by rw [hdefs]; exact List.mem_append_left _ he, hsame, rfl⟩
    exact .duplicateLabel hbad hfirst hname (hcross e he d List.mem_cons_self) hearlier

theorem isOperand_of_at {texts : List Text} {l : Nat} {mnemonic : Text} {operands : List Text}
    (h : Line.At (texts.map Line.read) l (.instruction mnemonic operands)) :
    ∀ o ∈ operands, Line.IsOperand o := by
  obtain ⟨p, hp, -⟩ := h
  rw [List.getElem?_map, Option.map_eq_some_iff] at hp
  obtain ⟨text, -, hread⟩ := hp
  exact (Line.of_read_instruction hread).2

theorem dangling_iff (h : WellLabelled lines) {l j : Nat} {mnemonic token : Text}
    {operands : List Text} (hline : Line.At lines l (.instruction mnemonic operands))
    (hj : operands[j]? = some token) (htoken : Line.IsOperand token) :
    Dangling lines l j token ↔ ¬ (table lines).Resolves token := by
  constructor
  · rintro hdangling (hlabel | hnumeric)
    · rw [Option.isSome_iff_exists, exists_get?_table_iff h] at hlabel
      obtain ⟨k, hk⟩ := hlabel
      exact hdangling.undefined k hk
    · obtain ⟨c, rest, rfl, hdigit⟩ := (Literal.looksNumeric_iff htoken.not_blank).mp hnumeric
      rw [hdangling.not_numeric c rfl] at hdigit
      cases hdigit
  · intro hnot
    refine ⟨⟨mnemonic, operands, hline, hj⟩, fun k hk => hnot (.inl ?_), fun c hc => ?_⟩
    · rw [Option.isSome_iff_exists, exists_get?_table_iff h]
      exact ⟨k, hk⟩
    · rw [Bool.eq_false_iff]
      intro hdigit
      obtain ⟨rest, rfl⟩ := List.head?_eq_some_iff.mp hc
      exact hnot (.inr ((Literal.looksNumeric_iff htoken.not_blank).mpr ⟨c, rest, rfl, hdigit⟩))

/-- A dangling operand belongs to a command and is not resolved there. -/
theorem Dangling.exists_command {texts : List Text} {l j : Nat} {token : Text}
    (h : Dangling (texts.map Line.read) l j token) (hlabels : WellLabelled (texts.map Line.read)) :
    ∃ c ∈ commandsFrom 1 (texts.map Line.read), c.line = l ∧ c.operands[j]? = some token ∧
      ¬ (table (texts.map Line.read)).Resolves token := by
  obtain ⟨mnemonic, operands, hline, hj⟩ := h.on_line
  have htoken := isOperand_of_at hline token (List.mem_of_getElem? hj)
  refine ⟨⟨.ofText mnemonic, operands, l⟩, ?_, rfl, hj, ?_⟩
  · exact mem_commandsFrom_one_iff.mpr ⟨mnemonic, hline, rfl⟩
  · exact (dangling_iff hlabels hline hj htoken).mp h

/-- A fault in resolving the commands of the lines is that of the first dangling operand. -/
theorem firstFault_of_resolve {texts : List Text} {fault : Fault}
    (hlabels : WellLabelled (texts.map Line.read))
    (h : (table (texts.map Line.read)).resolve (commandsFrom 1 (texts.map Line.read)) =
      .error fault) : FirstFault (texts.map Line.read) fault := by
  obtain ⟨before, c, after, hcommands, hbefore, hc⟩ := Labels.of_resolve_eq_error h
  obtain ⟨passed, token, rest, hoperands, hpassed, hnot, rfl⟩ :=
    Labels.of_resolveOperands_eq_error hc
  have hsorted : (before ++ c :: after).Pairwise fun c d => c.line < d.line :=
    hcommands ▸ pairwise_line_commandsFrom 1 _
  have hmem : c ∈ commandsFrom 1 (texts.map Line.read) := by simp [hcommands]
  obtain ⟨mnemonic, hline, -⟩ := mem_commandsFrom_one_iff.mp hmem
  have hj : c.operands[passed.length]? = some token := by simp [hoperands]
  have htoken := isOperand_of_at hline token (List.mem_of_getElem? hj)
  refine .unresolvedLabel hlabels.not_badLabel
    ((dangling_iff hlabels hline hj htoken).mpr hnot) fun k i other hother => ?_
  obtain ⟨b, hb, rfl, hi, hresolves⟩ := hother.exists_command hlabels
  obtain habove | hsame | hbelow := Nat.lt_trichotomy b.line c.line
  · -- On a line above, all operands have been resolved.
    rw [hcommands] at hb
    have hpast := mem_before_of_lt hsorted hb habove
    exact absurd (hbefore b hpast other (List.mem_of_getElem? hi)) hresolves
  · -- On the same line, those before the token have been.
    obtain ⟨_, hbline, -⟩ := mem_commandsFrom_one_iff.mp hb
    rw [hsame] at hbline
    have hshared : b.operands = c.operands := (Line.instruction.inj (hbline.unique hline)).2
    rw [hshared, hoperands] at hi
    refine .inr ⟨hsame.symm, ?_⟩
    by_contra hlt
    rw [List.getElem?_append_left (Nat.lt_of_not_le hlt)] at hi
    exact hresolves (hpassed other (List.mem_of_getElem? hi))
  · exact .inl hbelow

/-- A fault to be reported is the fault of something. -/
theorem not_firstFault_of_flawless (hlabels : ∀ l name, ¬ BadLabel lines l name)
    (hoperands : ∀ l j token, ¬ Dangling lines l j token) (fault : Fault) :
    ¬ FirstFault lines fault := by
  intro h
  cases h with
  | badLabel bad => exact hlabels _ _ bad
  | duplicateLabel bad => exact hlabels _ _ bad
  | unresolvedLabel labelled dangling => exact hoperands _ _ _ dangling

theorem BadLabel.unique {l k : Nat} {name other : Text} (h : BadLabel lines l name)
    (hother : BadLabel lines k other) (hfirst : ∀ k other, BadLabel lines k other → l ≤ k)
    (hfirst' : ∀ l name, BadLabel lines l name → k ≤ l) : l = k ∧ name = other := by
  obtain rfl : l = k := Nat.le_antisymm (hfirst k other hother) (hfirst' l name h)
  exact ⟨rfl, Line.label.inj (h.on_line.unique hother.on_line)⟩

/-- Above the first bad label, no name is defined twice. -/
theorem earlier_le_of_first {l i j : Nat} {name : Text}
    (hfirst : ∀ k other, BadLabel lines k other → l ≤ k) (hi : i < l)
    (hdefined : Line.At lines i (.label name)) (hdefined' : Line.At lines j (.label name)) :
    i ≤ j := by
  by_contra hlt
  have hbad : BadLabel lines i name := ⟨hdefined, .inr ⟨j, Nat.lt_of_not_le hlt, hdefined'⟩⟩
  have := hfirst i name hbad
  omega

theorem Dangling.unique {l k j i : Nat} {token other : Text} (h : Dangling lines l j token)
    (hother : Dangling lines k i other) (hfirst : l < k ∨ l = k ∧ j ≤ i)
    (hfirst' : k < l ∨ k = l ∧ i ≤ j) : l = k ∧ token = other := by
  obtain ⟨_, operands, hline, hj⟩ := h.on_line
  obtain ⟨_, operands', hline', hi⟩ := hother.on_line
  obtain rfl : l = k := by omega
  obtain rfl : j = i := by omega
  obtain rfl : operands = operands' := (Line.instruction.inj (hline.unique hline')).2
  rw [hj] at hi
  exact ⟨rfl, Option.some.inj hi⟩

theorem FirstFault.unique {fault other : Fault} (h : FirstFault lines fault)
    (hother : FirstFault lines other) : fault = other := by
  cases h with
  | badLabel bad first invalid =>
    cases hother with
    | badLabel bad' first' invalid' =>
      obtain ⟨rfl, rfl⟩ := bad.unique bad' first first'
      rfl
    | duplicateLabel bad' first' valid' above' defined' =>
      obtain ⟨rfl, rfl⟩ := bad.unique bad' first first'
      exact absurd valid' invalid
    | unresolvedLabel labelled => exact absurd bad (labelled _ _)
  | duplicateLabel bad first valid above defined =>
    cases hother with
    | badLabel bad' first' invalid' =>
      obtain ⟨rfl, rfl⟩ := bad.unique bad' first first'
      exact absurd valid invalid'
    | duplicateLabel bad' first' valid' above' defined' =>
      obtain ⟨rfl, rfl⟩ := bad.unique bad' first first'
      rw [Nat.le_antisymm (earlier_le_of_first first above defined defined')
        (earlier_le_of_first first above' defined' defined)]
    | unresolvedLabel labelled => exact absurd bad (labelled _ _)
  | unresolvedLabel labelled dangling first =>
    cases hother with
    | badLabel bad' => exact absurd bad' (labelled _ _)
    | duplicateLabel bad' => exact absurd bad' (labelled _ _)
    | unresolvedLabel labelled' dangling' first' =>
      obtain ⟨rfl, rfl⟩ :=
        dangling.unique dangling' (first _ _ _ dangling') (first' _ _ _ dangling)
      rfl

end Program

theorem firstFault_of_resolve_eq_error {texts : List Text} {fault : Fault}
    (h : resolve texts = .error fault) : Program.FirstFault (texts.map Line.read) fault := by
  rw [resolve_eq_bind, bind_eq_error_iff] at h
  obtain hlines | ⟨program, hlines, hresolve⟩ := h
  · rw [Program.ofLines_eq_map, map_eq_error_iff] at hlines
    exact Program.firstFault_of_extendAll hlines
  · obtain ⟨hlabels, rfl⟩ := Program.ofLines_eq_ok_iff_wellLabelled.mp hlines
    exact Program.firstFault_of_resolve hlabels hresolve

theorem flawless_of_resolve_eq_ok {texts : List Text} {commands : List Command}
    (h : resolve texts = .ok commands) :
    (∀ l name, ¬ Program.BadLabel (texts.map Line.read) l name) ∧
      ∀ l j token, ¬ Program.Dangling (texts.map Line.read) l j token := by
  rw [resolve_eq_bind, bind_eq_ok_iff] at h
  obtain ⟨program, hlines, hresolve⟩ := h
  obtain ⟨hlabels, rfl⟩ := Program.ofLines_eq_ok_iff_wellLabelled.mp hlines
  obtain ⟨hknown, -⟩ := Labels.resolve_eq_ok_iff.mp hresolve
  refine ⟨hlabels.not_badLabel, fun l j token hdangling => ?_⟩
  obtain ⟨c, hc, -, hj, hnot⟩ := hdangling.exists_command hlabels
  exact hnot (hknown c hc token (List.mem_of_getElem? hj))

/-- Resolving fails with the fault of the first bad label, whatever else is wrong and wherever;
without a bad label, with the fault of the first operand that has no meaning; and never otherwise.
Assembling fails with the same fault under all settings. -/
theorem resolve_first_fault (texts : List Text) :
    let lines := texts.map Line.read
    (∀ fault, resolve texts = .error fault ↔ Program.FirstFault lines fault) ∧
    ((∃ commands, resolve texts = .ok commands) ↔
      (∀ l name, ¬ Program.BadLabel lines l name) ∧
        ∀ l j token, ¬ Program.Dangling lines l j token) ∧
    ∀ (source : Text) (settings : Settings) (fault : Fault), Text.lines source = texts →
      Program.FirstFault lines fault → assemble settings source = .error fault := by
  intro lines
  have herror : ∀ fault, resolve texts = .error fault ↔ Program.FirstFault lines fault := by
    intro fault
    refine ⟨firstFault_of_resolve_eq_error, fun hfirst => ?_⟩
    cases hresolve : resolve texts with
    | ok commands =>
      obtain ⟨hlabels, hoperands⟩ := flawless_of_resolve_eq_ok hresolve
      exact absurd hfirst (Program.not_firstFault_of_flawless hlabels hoperands fault)
    | error other => rw [hfirst.unique (firstFault_of_resolve_eq_error hresolve)]
  refine ⟨herror, ⟨fun ⟨_, hok⟩ => flawless_of_resolve_eq_ok hok, fun hnone => ?_⟩, ?_⟩
  · cases hresolve : resolve texts with
    | ok commands => exact ⟨commands, rfl⟩
    | error fault =>
      have hfirst := firstFault_of_resolve_eq_error hresolve
      exact absurd hfirst (Program.not_firstFault_of_flawless hnone.1 hnone.2 fault)
  · rintro source settings fault rfl hfirst
    rw [assemble_eq_bind, resolveSource, (herror fault).mpr hfirst]
    rfl

theorem resolve_first_fault_before_unresolved_operand :
    let source : Text := "JMP nowhere\na:\nLOAD\na:\n9lives:"
    let lines := (Text.lines source).map Line.read
    Program.FirstFault lines ⟨4, .duplicateLabel "a" 2⟩ ∧
      assemble ⟨.bestEffort, .mask⟩ source = .error ⟨4, .duplicateLabel "a" 2⟩ := by
  intro source lines
  have herror : resolve (Text.lines source) = .error ⟨4, .duplicateLabel "a" 2⟩ := by rfl
  obtain ⟨hfirst, -, hassemble⟩ := resolve_first_fault (Text.lines source)
  have hfault : Program.FirstFault lines ⟨4, .duplicateLabel "a" 2⟩ := (hfirst _).mp herror
  exact ⟨hfault, hassemble source _ _ rfl hfault⟩

end Uvm
