import Uvm.Proofs.Diagnosis
import Uvm.Proofs.Numbering

/-! The first pass over lines put one after the other. It makes of them what it makes of each part:
the lower lines go by numbers that count the lines above, and their labels stand for indices that
count the instructions above. Only a name that both parts define stands in the way. -/
namespace Uvm

/-- The definition with some instructions and some lines put above it. -/
def LabelDef.shift (instructions lines : Nat) (d : LabelDef) : LabelDef :=
  ⟨d.name, d.index + instructions, d.line + lines⟩

namespace Program

theorem defsFrom_append (number index : Nat) (above below : List Line) :
    defsFrom number index (above ++ below) =
      defsFrom number index above ++
        defsFrom (number + above.length) (index + above.countP Line.isInstruction) below := by
  induction above generalizing number index with
  | nil => rfl
  | cons line rest ih =>
    have hnext : number + 1 + rest.length = number + (line :: rest).length := by
      rw [List.length_cons]
      omega
    cases line <;>
      simp [defsFrom, ih, hnext, List.countP_cons, Line.isInstruction, Nat.add_assoc,
        Nat.add_comm 1]

theorem defsFrom_shift (number index instructions lines : Nat) (rest : List Line) :
    defsFrom (number + lines) (index + instructions) rest =
      (defsFrom number index rest).map (LabelDef.shift instructions lines) := by
  induction rest generalizing number index with
  | nil => rfl
  | cons line rest ih =>
    have hline := ih (number + 1) index
    have hinstruction := ih (number + 1) (index + 1)
    rw [Nat.add_right_comm] at hline
    rw [Nat.add_right_comm, Nat.add_right_comm index] at hinstruction
    cases line <;> simp [defsFrom, hline, hinstruction, LabelDef.shift]

theorem defs_table_append (above below : List Line) :
    (table (above ++ below)).defs =
      (table above).defs ++
        (table below).defs.map (LabelDef.shift (above.countP Line.isInstruction) above.length) := by
  rw [table, defsFrom_append, defsFrom_shift]
  rfl

theorem commandsFrom_one_append (above below : List Line) :
    commandsFrom 1 (above ++ below) =
      commandsFrom 1 above ++
        (commandsFrom 1 below).map (Command.relocate (· + above.length)) := by
  rw [commandsFrom_append, commandsFrom_add]

end Program

namespace Labels

theorem extendAll_append (labels : Labels) (before after : List LabelDef) :
    labels.extendAll (before ++ after) =
      (labels.extendAll before).bind fun next => next.extendAll after := by
  induction before generalizing labels with
  | nil => rfl
  | cons d rest ih =>
    rw [List.cons_append, extendAll, extendAll]
    cases labels.extend d.name d.index d.line with
    | error fault => rfl
    | ok next => exact ih next

theorem get?_append (defs others : List LabelDef) (name : Text) :
    (⟨defs ++ others⟩ : Labels).get? name =
      ((⟨defs⟩ : Labels).get? name).or ((⟨others⟩ : Labels).get? name) := by
  rw [get?, find?, List.find?_append, Option.map_or]
  rfl

theorem get?_map_shift (instructions lines : Nat) (defs : List LabelDef) (name : Text) :
    (⟨defs.map (LabelDef.shift instructions lines)⟩ : Labels).get? name =
      ((⟨defs⟩ : Labels).get? name).map (· + instructions) := by
  rw [get?, find?, List.find?_map, Option.map_map, get?, Option.map_map]
  rfl

theorem extend_of_find? {labels : Labels} {name : Text} {d : LabelDef} (hname : ValidName name)
    (hfind : labels.find? name = some d) (index line : Nat) :
    labels.extend name index line = .error ⟨line, .duplicateLabel name d.line⟩ := by
  rw [extend, isName_iff.mpr hname, hfind]
  rfl

/-- The first of some definitions with a name that is bound already. -/
theorem exists_first_bound {labels : Labels} {defs : List LabelDef} {d : LabelDef} (hd : d ∈ defs)
    (hbound : d.name ∈ labels.names) :
    ∃ before first after e, defs = before ++ first :: after ∧
      labels.find? first.name = some e ∧ ∀ b ∈ before, b.name ∉ labels.names := by
  have hfound : (defs.find? fun d => (labels.find? d.name).isSome).isSome = true := by
    rw [List.find?_isSome]
    refine ⟨d, hd, ?_⟩
    rw [Option.isSome_iff_ne_none, ne_eq, find?_eq_none_iff, not_not]
    exact hbound
  obtain ⟨first, hfirst⟩ := Option.isSome_iff_exists.mp hfound
  obtain ⟨hsome, before, after, hdefs, hfresh⟩ := List.find?_eq_some_iff_append.mp hfirst
  obtain ⟨e, he⟩ := Option.isSome_iff_exists.mp hsome
  refine ⟨before, first, after, e, hdefs, he, fun b hb => find?_eq_none_iff.mp ?_⟩
  simpa using hfresh b hb

section shifted

variable {labels : Labels} {defs : List LabelDef} (hnodup : labels.names.Nodup)
  (hvalid : ∀ d ∈ defs, ValidName d.name) (hdistinct : (defs.map LabelDef.name).Nodup)
  (instructions lines : Nat)

include hnodup hvalid hdistinct

/-- Definitions that can be made by themselves can be made further down, if their names are not
bound yet. -/
theorem extendAll_shift_of_fresh (hfresh : ∀ d ∈ defs, d.name ∉ labels.names) :
    labels.extendAll (defs.map (LabelDef.shift instructions lines)) =
      .ok ⟨labels.defs ++ defs.map (LabelDef.shift instructions lines)⟩ := by
  refine (extendAll_eq_ok_iff hnodup).mpr ⟨?_, ?_, rfl⟩
  · intro d hd
    obtain ⟨d, hmem, rfl⟩ := List.mem_map.mp hd
    exact hvalid d hmem
  · rw [List.map_map]
    refine List.nodup_append.mpr ⟨hnodup, hdistinct, ?_⟩
    rintro name hname _ hother rfl
    obtain ⟨d, hd, rfl⟩ := List.mem_map.mp hother
    exact hfresh d hd hname

/-- Otherwise they are made up to the first with a name that is bound. -/
theorem extendAll_shift_of_bound {d : LabelDef} (hd : d ∈ defs) (hbound : d.name ∈ labels.names) :
    ∃ before first after e, defs = before ++ first :: after ∧
      labels.find? first.name = some e ∧ (∀ b ∈ before, b.name ∉ labels.names) ∧
      labels.extendAll (defs.map (LabelDef.shift instructions lines)) =
        .error ⟨first.line + lines, .duplicateLabel first.name e.line⟩ := by
  obtain ⟨before, first, after, e, rfl, hfind, hfresh⟩ := exists_first_bound hd hbound
  refine ⟨before, first, after, e, rfl, hfind, hfresh, ?_⟩
  have hbefore := extendAll_shift_of_fresh hnodup (List.forall_mem_append.mp hvalid).1
    (hdistinct.sublist ((List.sublist_append_left _ _).map _)) instructions lines hfresh
  have hstill : (⟨labels.defs ++ before.map (LabelDef.shift instructions lines)⟩ : Labels).find?
      first.name = some e := by
    rw [find?] at hfind ⊢
    rw [List.find?_append, hfind, Option.some_or]
  have hname : ValidName first.name := hvalid first (by simp)
  rw [List.map_append, List.map_cons, extendAll_append, hbefore, Except.bind, extendAll,
    LabelDef.shift]
  dsimp only
  rw [extend_of_find? hname hstill]

end shifted

end Labels

namespace Program

variable {above below : List Text} {p q : Program}

/-- What is wrong with the upper lines stays wrong. -/
theorem ofLines_append_of_error {fault : Fault} (h : ofLines above = .error fault)
    (below : List Text) : ofLines (above ++ below) = .error fault := by
  rw [ofLines_eq_map, map_eq_error_iff] at h
  rw [ofLines_eq_map, map_eq_error_iff, List.map_append, defs_table_append,
    Labels.extendAll_append, h]
  rfl

/-- After the upper lines, the labels of the lower ones remain to be defined. -/
theorem ofLines_append_of_ok (hp : ofLines above = .ok p) (below : List Text) :
    ofLines (above ++ below) =
      (p.labels.extendAll ((table (below.map Line.read)).defs.map
        (LabelDef.shift p.commands.length above.length))).map fun labels =>
          ⟨p.commands ++ (commandsFrom 1 (below.map Line.read)).map
            (Command.relocate (· + above.length)), labels⟩ := by
  obtain ⟨hvalid, hdistinct, rfl⟩ := ofLines_eq_ok_iff.mp hp
  have habove : Labels.empty.extendAll (table (above.map Line.read)).defs =
      .ok (table (above.map Line.read)) :=
    Labels.extendAll_empty_eq_ok_iff.mpr ⟨hvalid, hdistinct, rfl⟩
  rw [ofLines_eq_map, List.map_append, defs_table_append, Labels.extendAll_append, habove,
    commandsFrom_one_append, List.length_map, length_commandsFrom]
  rfl

theorem ofLines_append_of_disjoint (hp : ofLines above = .ok p) (hq : ofLines below = .ok q)
    (hdisjoint : ∀ name, p.labels.get? name = none ∨ q.labels.get? name = none) :
    ofLines (above ++ below) =
      .ok ⟨p.commands ++ q.commands.map (Command.relocate (· + above.length)),
        ⟨p.labels.defs ++ q.labels.defs.map (LabelDef.shift p.commands.length above.length)⟩⟩ := by
  rw [ofLines_append_of_ok hp]
  obtain ⟨-, hdistinct, rfl⟩ := ofLines_eq_ok_iff.mp hp
  obtain ⟨hvalid, hdistinct', rfl⟩ := ofLines_eq_ok_iff.mp hq
  rw [Labels.extendAll_shift_of_fresh hdistinct hvalid hdistinct']
  · rfl
  · intro d hd hname
    rcases hdisjoint d.name with hnone | hnone
    · exact Labels.get?_eq_none_iff.mp hnone hname
    · exact Labels.get?_eq_none_iff.mp hnone (List.mem_map_of_mem hd)

/-- A name that both parts define is reported on the first lower line with a name of the upper
part. -/
theorem ofLines_append_of_shared (hp : ofLines above = .ok p) (hq : ofLines below = .ok q)
    {name : Text} (hname : name ∈ p.labels.names) (hname' : name ∈ q.labels.names) :
    ∃ before d after e, q.labels.defs = before ++ d :: after ∧ p.labels.find? d.name = some e ∧
      (∀ b ∈ before, b.name ∉ p.labels.names) ∧
      ofLines (above ++ below) =
        .error ⟨d.line + above.length, .duplicateLabel d.name e.line⟩ := by
  rw [ofLines_append_of_ok hp]
  obtain ⟨-, hdistinct, rfl⟩ := ofLines_eq_ok_iff.mp hp
  obtain ⟨hvalid, hdistinct', rfl⟩ := ofLines_eq_ok_iff.mp hq
  obtain ⟨d, hd, rfl⟩ := List.mem_map.mp hname'
  simp only [map_eq_error_iff]
  exact Labels.extendAll_shift_of_bound hdistinct hvalid hdistinct' _ _ hd hname

/-- The first pass over two lists of lines, one after the other. A fault of the upper lines is the
fault of all. If both parts are accepted and share no name, so is the whole: its commands are those
of the parts, the lower lines counted on, and its names stand for what they did, lower indices
counted on. A shared name is reported on the first lower line whose name the upper part has, with
the line that defines it there. -/
theorem ofLines_append (above below : List Text) :
    (∀ fault, ofLines above = .error fault → ofLines (above ++ below) = .error fault) ∧
    ∀ p q, ofLines above = .ok p → ofLines below = .ok q →
      ((∀ name, p.labels.get? name = none ∨ q.labels.get? name = none) →
        ∃ r, ofLines (above ++ below) = .ok r ∧
          r.commands = p.commands ++ q.commands.map (Command.relocate (· + above.length)) ∧
          ∀ name, r.labels.get? name =
            (p.labels.get? name).or ((q.labels.get? name).map (· + p.commands.length))) ∧
      ((∃ name, p.labels.get? name ≠ none ∧ q.labels.get? name ≠ none) →
        ∃ l name first, Line.At (below.map Line.read) l (.label name) ∧
          p.labels.get? name ≠ none ∧
          (∀ k other, k < l → Line.At (below.map Line.read) k (.label other) →
            p.labels.get? other = none) ∧
          (∀ i, Line.At (above.map Line.read) i (.label name) ↔ i = first) ∧
          ofLines (above ++ below) =
            .error ⟨l + above.length, .duplicateLabel name first⟩) := by
  refine ⟨fun fault h => ofLines_append_of_error h below, fun p q hp hq => ⟨?_, ?_⟩⟩
  · intro hdisjoint
    refine ⟨_, ofLines_append_of_disjoint hp hq hdisjoint, rfl, fun name => ?_⟩
    rw [Labels.get?_append, Labels.get?_map_shift]
  · rintro ⟨name, hname, hname'⟩
    rw [ne_eq, Labels.get?_eq_none_iff, not_not] at hname hname'
    obtain ⟨before, d, after, e, hdefs, hfind, hfresh, herror⟩ :=
      ofLines_append_of_shared hp hq hname hname'
    obtain ⟨hlabels, rfl⟩ := ofLines_eq_ok_iff_wellLabelled.mp hp
    obtain ⟨-, rfl⟩ := ofLines_eq_ok_iff_wellLabelled.mp hq
    dsimp only at hdefs hfind
    have hsorted : (before ++ d :: after).Pairwise fun b c => b.line < c.line :=
      hdefs ▸ pairwise_line_defsFrom 1 0 _
    refine ⟨d.line, d.name, e.line, at_label_iff.mpr ⟨d, by simp [hdefs], rfl, rfl⟩, ?_, ?_, ?_,
      herror⟩
    · simp [Labels.get?, hfind]
    · intro k other hlt hother
      obtain ⟨b, hb, rfl, rfl⟩ := at_label_iff.mp hother
      rw [hdefs] at hb
      exact Labels.get?_eq_none_iff.mpr (hfresh b (mem_before_of_lt hsorted hb hlt))
    · have hdefined : Line.At (above.map Line.read) e.line (.label d.name) :=
        at_label_iff.mpr
          ⟨e, List.mem_of_find?_eq_some hfind, by simpa using List.find?_some hfind, rfl⟩
      intro i
      constructor
      · intro hi
        exact hlabels.at_label_unique hi hdefined
      · rintro rfl
        exact hdefined

theorem ofLines_append_with_shared_name :
    let above : List Text := ["a:", "LOAD 1", "b:"]
    let below : List Text := ["", "c:", "SUB c"]
    let clashing : List Text := ["c:", "SUB c", "b:", "a:"]
    (∃ r, ofLines (above ++ below) = .ok r ∧
      r.commands = [⟨.known .load, ["1"], 2⟩, ⟨.known .sub, ["c"], 6⟩] ∧
      r.labels.get? "b" = some 1 ∧ r.labels.get? "c" = some 1) ∧
    Line.At (clashing.map Line.read) 3 (.label "b") ∧
    ofLines (above ++ clashing) = .error ⟨6, .duplicateLabel "b" 3⟩ := by
  intro above below clashing
  have habove : ofLines above =
      .ok ⟨[⟨.known .load, ["1"], 2⟩], ⟨[⟨"a", 0, 1⟩, ⟨"b", 1, 3⟩]⟩⟩ := by rfl
  have hbelow : ofLines below = .ok ⟨[⟨.known .sub, ["c"], 3⟩], ⟨[⟨"c", 0, 2⟩]⟩⟩ := by rfl
  have hclashing : ofLines clashing =
      .ok ⟨[⟨.known .sub, ["c"], 2⟩], ⟨[⟨"c", 0, 1⟩, ⟨"b", 1, 3⟩, ⟨"a", 1, 4⟩]⟩⟩ := by rfl
  refine ⟨?_, ?_⟩
  · have hdisjoint := ((ofLines_append above below).2 _ _ habove hbelow).1
    obtain ⟨r, hr, hcommands, hlabels⟩ := hdisjoint fun name => by
      by_cases h : name = ("c" : Text)
      · exact .inl (by rw [h]; rfl)
      · exact .inr (Labels.get?_eq_none_iff.mpr (by simpa [Labels.names] using h))
    refine ⟨r, hr, hcommands, ?_, ?_⟩
    · rw [hlabels]
      rfl
    · rw [hlabels]
      rfl
  · have hshared := ((ofLines_append above clashing).2 _ _ habove hclashing).2
    obtain ⟨l, name, first, hline, -, -, -, herror⟩ := hshared ⟨"b", by decide, by decide⟩
    have hcomputed : ofLines (above ++ clashing) = .error ⟨6, .duplicateLabel "b" 3⟩ := by rfl
    rw [hcomputed] at herror
    obtain ⟨hl, rfl, -⟩ : 6 = l + above.length ∧ ("b" : Text) = name ∧ 3 = first := by
      simpa using herror
    have hlength : above.length = 3 := rfl
    obtain rfl : l = 3 := by omega
    exact ⟨hline, hcomputed⟩

end Program

end Uvm
