import Uvm.Proofs.Concatenation
import Uvm.Proofs.Session

/-! A table of labels over all the calls of `define` that were made on it. The table holds the calls
that were accepted and nothing else, so a name stands for what its first accepted call said,
whatever was asked for it later; and since all those names are allowed ones, no label is ever taken
for a literal. -/
namespace Uvm.Labels

/-- A call of `define`: the table that it leaves behind, and what became of it. -/
def add (labels : Labels) (d : LabelDef) : Labels × Except Fault Unit :=
  let step := labels.define d.name d.index d.line
  (step.state, step.result)

/-- The table after calls on an empty one, whatever became of each. -/
def after (calls : List LabelDef) : Labels := Session.run add .empty calls

/-- The calls that bound their name, in order. -/
def bound (calls : List LabelDef) : List LabelDef := Session.accepted add .empty calls

/-- The first call that bound a name. -/
def first? (calls : List LabelDef) (name : Text) : Option LabelDef :=
  (bound calls).find? fun d => d.name == name

theorem not_validName_iff {name : Text} :
    ¬ ValidName name ↔ name = [] ∨ (∃ c ∈ name, Text.isBlank c = true ∨ c = ',') ∨
      ∃ c, name.head? = some c ∧ c.isDigit = true := by
  constructor
  · intro h
    by_contra hnone
    simp only [not_or, not_exists, not_and, Bool.not_eq_true] at hnone
    obtain ⟨hne, hwhole, hdigit⟩ := hnone
    exact h ⟨hne, hwhole, hdigit⟩
  · rintro (rfl | ⟨c, hc, hmark⟩ | ⟨c, hc, hdigit⟩) hname
    · exact hname.nonempty rfl
    · obtain ⟨hblank, hcomma⟩ := hname.whole c hc
      rcases hmark with hmark | rfl
      · rw [hblank] at hmark
        cases hmark
      · exact hcomma rfl
    · rw [hname.not_numeric c hc] at hdigit
      cases hdigit

theorem ValidName.looksNumeric_eq_false {name : Text} (h : ValidName name) :
    Literal.looksNumeric name = false := by
  have hname := isName_iff.mpr h
  simp only [isName, Bool.and_eq_true, Bool.not_eq_true'] at hname
  exact hname.1.2

theorem extend_of_not_validName {name : Text} (h : ¬ ValidName name) (labels : Labels)
    (index line : Nat) : labels.extend name index line = .error ⟨line, .badLabel name⟩ := by
  rw [← isName_iff, Bool.not_eq_true] at h
  rw [extend, h]
  rfl

theorem extend_of_find?_eq_none {labels : Labels} {name : Text} (hname : ValidName name)
    (hfind : labels.find? name = none) (index line : Nat) :
    labels.extend name index line = .ok ⟨labels.defs ++ [⟨name, index, line⟩]⟩ :=
  extend_eq_ok_iff.mpr ⟨hname, find?_eq_none_iff.mp hfind, rfl⟩

theorem result_define (labels : Labels) (name : Text) (index line : Nat) :
    (labels.define name index line).result =
      (labels.extend name index line).map fun _ => () := by
  rw [define_eq]
  cases labels.extend name index line <;> rfl

/-- A refused call leaves the table as it was. -/
theorem state_define_of_error {labels : Labels} {name : Text} {index line : Nat} {fault : Fault}
    (h : (labels.define name index line).result = .error fault) :
    (labels.define name index line).state = labels := by
  rw [result_define, map_eq_error_iff] at h
  rw [define_eq, h]
  rfl

theorem define_eq_badLabel_iff {labels : Labels} {name : Text} {index line : Nat} :
    (labels.define name index line).result = .error ⟨line, .badLabel name⟩ ↔
      ¬ ValidName name := by
  rw [result_define, map_eq_error_iff]
  constructor
  · intro h hname
    cases hfind : labels.find? name with
    | none =>
      rw [extend_of_find?_eq_none hname hfind] at h
      cases h
    | some d =>
      rw [extend_of_find? hname hfind] at h
      cases h
  · intro h
    exact extend_of_not_validName h labels index line

theorem define_eq_duplicateLabel_iff {labels : Labels} {name : Text} {index line l : Nat} :
    (labels.define name index line).result = .error ⟨line, .duplicateLabel name l⟩ ↔
      ValidName name ∧ (labels.find? name).map LabelDef.line = some l := by
  rw [result_define, map_eq_error_iff]
  by_cases hname : ValidName name
  · cases hfind : labels.find? name with
    | none => simp [extend_of_find?_eq_none hname hfind]
    | some d => simp [extend_of_find? hname hfind, hname]
  · simp [extend_of_not_validName hname, hname]

theorem define_eq_ok_iff {labels : Labels} {name : Text} {index line : Nat} :
    (labels.define name index line).result = .ok () ↔
      ValidName name ∧ labels.find? name = none := by
  rw [result_define, map_eq_ok_iff]
  simp only [extend_eq_ok_iff, find?_eq_none_iff, and_true, exists_and_left, exists_eq]

theorem add_of_error {labels : Labels} {d : LabelDef} {fault : Fault}
    (h : (labels.add d).2 = .error fault) : (labels.add d).1 = labels :=
  state_define_of_error h

theorem add_of_ok {labels : Labels} {d : LabelDef} (h : (labels.add d).2 = .ok ()) :
    ValidName d.name ∧ (labels.add d).1 = ⟨labels.defs ++ [d]⟩ := by
  obtain ⟨hname, hfind⟩ := define_eq_ok_iff.mp h
  refine ⟨hname, ?_⟩
  rw [add, define_eq, extend_of_find?_eq_none hname hfind]
  rfl

/-- Calls append the definitions that are accepted. -/
theorem defs_run (labels : Labels) (calls : List LabelDef) :
    (Session.run add labels calls).defs = labels.defs ++ Session.accepted add labels calls := by
  have hok (labels : Labels) (d : LabelDef) (h : (labels.add d).2 = .ok ()) :
      (labels.add d).1.defs = labels.defs ++ [d] := by
    rw [(add_of_ok h).2]
  have herror (labels : Labels) (d : LabelDef) (fault : Fault)
      (h : (labels.add d).2 = .error fault) : (labels.add d).1.defs = labels.defs := by
    rw [add_of_error h]
  rw [Session.run_appends hok herror, List.flatMap_singleton']

/-- All names in a table are allowed ones. -/
def Valid (labels : Labels) : Prop := ∀ name ∈ labels.names, ValidName name

theorem valid_run {labels : Labels} (h : labels.Valid) (calls : List LabelDef) :
    (Session.run add labels calls).Valid := by
  refine Session.run_keeps (fun labels d hvalid => ?_) h calls
  cases hadd : (labels.add d).2 with
  | error fault =>
    rw [add_of_error hadd]
    exact hvalid
  | ok =>
    obtain ⟨hname, hnext⟩ := add_of_ok hadd
    intro name hmem
    rw [hnext, names, List.map_append, List.mem_append] at hmem
    rcases hmem with hmem | hmem
    · exact hvalid name hmem
    · rw [List.mem_singleton.mp hmem]
      exact hname

theorem valid_after (calls : List LabelDef) : (after calls).Valid := by
  have hempty : empty.Valid := List.forall_mem_nil _
  exact valid_run hempty calls

/-- What is meant as a literal is not a label. -/
theorem Valid.get?_eq_none {labels : Labels} (h : labels.Valid) {token : Text}
    (hnumeric : Literal.looksNumeric token = true) : labels.get? token = none := by
  rw [get?_eq_none_iff]
  intro hmem
  rw [(h token hmem).looksNumeric_eq_false] at hnumeric
  cases hnumeric

theorem defs_after (calls : List LabelDef) : (after calls).defs = bound calls :=
  defs_run .empty calls

theorem find?_after (calls : List LabelDef) (name : Text) :
    (after calls).find? name = first? calls name := by
  rw [find?, defs_after, first?]

/-- For a name that is not bound yet, the first call is accepted if the name is allowed, and no call
is otherwise. -/
theorem find?_accepted {labels : Labels} {name : Text} (hfresh : labels.find? name = none)
    (calls : List LabelDef) :
    ((Session.accepted add labels calls).find? fun d => d.name == name) =
      if isName name then calls.find? fun d => d.name == name else none := by
  induction calls generalizing labels with
  | nil => simp [Session.accepted]
  | cons d rest ih =>
    cases hadd : (labels.add d).2 with
    | error fault =>
      rw [Session.accepted_of_error hadd, add_of_error hadd, ih hfresh]
      by_cases hsame : d.name = name
      · -- The name is not bound, so it can only be refused for what it is.
        subst hsame
        have hinvalid : ¬ ValidName d.name := by
          intro hname
          rw [add, define_eq_ok_iff.mpr ⟨hname, hfresh⟩] at hadd
          cases hadd
        rw [if_neg (isName_iff.not.mpr hinvalid), if_neg (isName_iff.not.mpr hinvalid)]
      · rw [List.find?_cons_of_neg (by simpa using hsame)]
    | ok =>
      obtain ⟨hname, hnext⟩ := add_of_ok hadd
      rw [Session.accepted_of_ok hadd, hnext]
      by_cases hsame : d.name = name
      · subst hsame
        rw [List.find?_cons_of_pos (by simp), List.find?_cons_of_pos (by simp),
          if_pos (isName_iff.mpr hname)]
      · have hfresh' : (⟨labels.defs ++ [d]⟩ : Labels).find? name = none := by
          rw [find?, List.find?_append, show labels.defs.find? _ = none from hfresh]
          simpa using hsame
        rw [List.find?_cons_of_neg (by simpa using hsame),
          List.find?_cons_of_neg (by simpa using hsame), ih hfresh']

/-- After any calls, a further call is refused for its name exactly when the name is empty, has
white space or a comma in it, or starts with a digit; else it is refused with the line of the call
that bound the name first exactly when there is one; else it is accepted. A refused call changes
nothing. A name stands for the index of the call that bound it first, which is the first call for it
if the name is allowed; there are as many labels as calls were accepted; and nothing that is meant
as a literal is a label. -/
theorem define_after (calls : List LabelDef) :
    (∀ name index line,
      let call := (after calls).define name index line
      (call.result = .error ⟨line, .badLabel name⟩ ↔
        name = [] ∨ (∃ c ∈ name, Text.isBlank c = true ∨ c = ',') ∨
          ∃ c, name.head? = some c ∧ c.isDigit = true) ∧
      (∀ l, call.result = .error ⟨line, .duplicateLabel name l⟩ ↔
        ValidName name ∧ ∃ d, first? calls name = some d ∧ d.line = l) ∧
      (call.result = .ok () ↔ ValidName name ∧ first? calls name = none) ∧
      after (calls ++ [⟨name, index, line⟩]) = call.state ∧
      ∀ fault, call.result = .error fault → call.state = after calls) ∧
    (∀ name, (after calls).get? name = (first? calls name).map LabelDef.index) ∧
    (∀ name, first? calls name =
      if isName name then calls.find? fun d => d.name == name else none) ∧
    (after calls).size = (bound calls).length ∧
    ((after calls).isEmpty = true ↔ (bound calls).length = 0) ∧
    ∀ token, Literal.looksNumeric token = true → (after calls).get? token = none := by
  refine ⟨fun name index line => ⟨?_, fun l => ?_, ?_, ?_, fun fault => state_define_of_error⟩,
    fun name => ?_, fun name => find?_accepted rfl calls, ?_, ?_,
    fun token => (valid_after calls).get?_eq_none⟩
  · rw [define_eq_badLabel_iff, not_validName_iff]
  · rw [define_eq_duplicateLabel_iff, find?_after, Option.map_eq_some_iff]
  · rw [define_eq_ok_iff, find?_after]
  · rw [after, Session.run_append]
    rfl
  · rw [get?, find?_after]
  · rw [size, defs_after]
  · rw [isEmpty, defs_after, List.isEmpty_iff, List.length_eq_zero_iff]

theorem define_after_refused_calls :
    let calls : List LabelDef := [⟨"top", 0, 1⟩, ⟨"9lives", 1, 2⟩, ⟨"top", 5, 3⟩, ⟨"end", 7, 4⟩]
    ((after calls).define "a,b" 9 8).result = .error ⟨8, .badLabel "a,b"⟩ ∧
      ((after calls).define "top" 9 8).result = .error ⟨8, .duplicateLabel "top" 1⟩ ∧
      ((after calls).define "top" 9 8).state = after calls ∧
      (after calls).get? "top" = some 0 ∧ (after calls).size = 2 ∧
      Literal.looksNumeric "9lives" = true ∧ (after calls).get? "9lives" = none := by
  intro calls
  obtain ⟨hcall, hget, hfirst, hsize, -, hliteral⟩ := define_after calls
  have htop : first? calls "top" = some ⟨"top", 0, 1⟩ := (hfirst "top").trans (by decide)
  have hnumeric : Literal.looksNumeric "9lives" = true := by decide
  have hbad : ((after calls).define "a,b" 9 8).result = .error ⟨8, .badLabel "a,b"⟩ :=
    (hcall "a,b" 9 8).1.mpr (.inr (.inl ⟨',', by decide, .inr rfl⟩))
  have hduplicate : ((after calls).define "top" 9 8).result =
      .error ⟨8, .duplicateLabel "top" 1⟩ :=
    ((hcall "top" 9 8).2.1 1).mpr ⟨isName_iff.mp (by decide), _, htop, rfl⟩
  exact ⟨hbad, hduplicate, (hcall "top" 9 8).2.2.2.2 _ hduplicate, by rw [hget, htop]; rfl,
    hsize.trans (by decide), hnumeric, hliteral _ hnumeric⟩

end Uvm.Labels
