import Uvm.Text.Upper
import Uvm.Proofs.Text

/-! Upper-casing twice is upper-casing once, and upper-casing makes neither white space nor
punctuation. Both are read off the table: the runs of code points it leads to are apart from the
runs it starts at. -/
namespace Uvm.Text

namespace CaseRun

/-- The run of one code point. -/
def single (n : Nat) : CaseRun := ⟨n, n, 1, n⟩

/-- The run of the code points that a run leads to. -/
def image (run : CaseRun) : CaseRun :=
  ⟨run.target, run.target + (run.last - run.first), run.step, run.target⟩

/-- A test that two runs share no code point: one ends before the other starts, or one has only
odd code points and the other only even ones. -/
def apart (a b : CaseRun) : Bool :=
  !(b.first.ble a.last && a.first.ble b.last) ||
    (b.step == 2 && (a.step == 2 || a.first == a.last) && (a.first + b.first) % 2 == 1)

theorem covers_iff {run : CaseRun} {n : Nat} : run.covers n = true ↔
    run.first ≤ n ∧ n ≤ run.last ∧ (n - run.first) % run.step = 0 := by
  simp [covers, and_assoc]

theorem single_covers (n : Nat) : (single n).covers n = true :=
  covers_iff.mpr ⟨Nat.le_refl n, Nat.le_refl n, Nat.mod_one _⟩

theorem image_covers {run : CaseRun} {n : Nat} (h : run.covers n = true) :
    run.image.covers (run.map n) = true := by
  obtain ⟨hfirst, hlast, hstep⟩ := covers_iff.mp h
  refine covers_iff.mpr ⟨?_, ?_, ?_⟩
  · exact Nat.le_add_right _ _
  · simp only [image, map]
    omega
  · simpa [image, map] using hstep

theorem not_covers_of_apart {a b : CaseRun} {n : Nat} (h : a.apart b = true)
    (ha : a.covers n = true) : b.covers n = false := by
  rw [Bool.eq_false_iff]
  intro hb
  obtain ⟨hfirst, hlast, hstep⟩ := covers_iff.mp ha
  obtain ⟨hfirst', hlast', hstep'⟩ := covers_iff.mp hb
  have hmeet : (b.first.ble a.last && a.first.ble b.last) = true := by
    simp only [Bool.and_eq_true, Nat.ble_eq]
    omega
  simp only [apart, hmeet, Bool.not_true, Bool.false_or, Bool.and_eq_true, Bool.or_eq_true,
    beq_iff_eq] at h
  obtain ⟨⟨htwo, hstride⟩, hodd⟩ := h
  rw [htwo] at hstep'
  rcases hstride with htwo' | hone
  · rw [htwo'] at hstep
    omega
  · omega

end CaseRun

/-- The code points that upper-casing leads to. -/
def capitals : List CaseRun :=
  caseRuns.map CaseRun.image ++ caseSequences.flatMap fun s => s.2.map CaseRun.single

/-- The code points that upper-casing changes. -/
def smalls : List CaseRun := caseRuns ++ caseSequences.map fun s => CaseRun.single s.1

theorem capitals_apart_smalls : (capitals.all fun a => smalls.all a.apart) = true := by
  decide +kernel

theorem capitals_apart_marks :
    (capitals.all fun a => marks.all fun r => a.apart ⟨r.1, r.2, 1, r.1⟩) = true := by
  decide +kernel

theorem capitals_are_characters :
    (capitals.all fun a =>
      Nat.blt a.last 0xD800 || Nat.blt 0xDFFF a.first && Nat.blt a.last 0x110000) = true := by
  decide +kernel

def IsCapital (n : Nat) : Prop := ∃ a ∈ capitals, a.covers n = true

theorem IsCapital.isValidChar {n : Nat} (h : IsCapital n) : n.isValidChar := by
  obtain ⟨a, ha, hn⟩ := h
  obtain ⟨hfirst, hlast, -⟩ := CaseRun.covers_iff.mp hn
  have hvalid := List.all_eq_true.mp capitals_are_characters a ha
  simp only [Bool.or_eq_true, Bool.and_eq_true, Nat.blt_eq] at hvalid
  rcases hvalid with hlow | ⟨hhigh, hend⟩
  · exact .inl (by omega)
  · exact .inr ⟨by omega, by omega⟩

theorem IsCapital.toNat_ofNat {n : Nat} (h : IsCapital n) : (Char.ofNat n).toNat = n := by
  rw [Char.ofNat, dif_pos h.isValidChar]
  rfl

theorem IsCapital.not_covers {n : Nat} (h : IsCapital n) {b : CaseRun} (hb : b ∈ smalls) :
    b.covers n = false := by
  obtain ⟨a, ha, hn⟩ := h
  have hapart := List.all_eq_true.mp (List.all_eq_true.mp capitals_apart_smalls a ha) b hb
  exact CaseRun.not_covers_of_apart hapart hn

theorem IsCapital.not_mark {c : Char} (h : IsCapital c.toNat) : marks.has c = false := by
  obtain ⟨a, ha, hn⟩ := h
  rw [Ranges.has, List.any_eq_false]
  intro r hr hin
  have hapart := List.all_eq_true.mp (List.all_eq_true.mp capitals_apart_marks a ha) r hr
  have hout := CaseRun.not_covers_of_apart hapart hn
  have hcover : CaseRun.covers ⟨r.1, r.2, 1, r.1⟩ c.toNat = true := by
    simp only [Bool.and_eq_true, decide_eq_true_eq] at hin
    exact CaseRun.covers_iff.mpr ⟨hin.1, hin.2, Nat.mod_one _⟩
  rw [hcover] at hout
  cases hout

/-- What the table has for a code point: a sequence, a run it belongs to, or nothing. -/
theorem upperCodes_of_table (n : Nat) :
    (∃ codes, (n, codes) ∈ caseSequences ∧ upperCodes n = codes) ∨
      (∃ run ∈ caseRuns, run.covers n = true ∧ upperCodes n = [run.map n]) ∨
      upperCodes n = [n] := by
  unfold upperCodes
  cases hseq : caseSequences.lookup n with
  | some codes =>
    obtain ⟨before, after, hsplit, -⟩ := List.lookup_eq_some_iff.mp hseq
    exact .inl ⟨codes, by simp [hsplit], rfl⟩
  | none =>
    cases hrun : caseRuns.find? fun run => run.covers n with
    | none => exact .inr (.inr rfl)
    | some run =>
      have hcover : run.covers n = true := by simpa using List.find?_some hrun
      exact .inr (.inl ⟨run, List.mem_of_find?_eq_some hrun, hcover, rfl⟩)

/-- A code point keeps its place, or it is replaced by code points of the table's other side. -/
theorem upperCodes_cases (n : Nat) :
    upperCodes n = [n] ∨ upperCodes n ≠ [] ∧ ∀ m ∈ upperCodes n, IsCapital m := by
  have hfull : ∀ s ∈ caseSequences, s.2 ≠ [] := by decide
  obtain ⟨codes, hmem, hcodes⟩ | ⟨run, hrun, hcover, hcodes⟩ | hsame := upperCodes_of_table n
  · rw [hcodes]
    refine .inr ⟨hfull _ hmem, fun m hm => ⟨CaseRun.single m, ?_, CaseRun.single_covers m⟩⟩
    apply List.mem_append_right
    exact List.mem_flatMap.mpr ⟨_, hmem, List.mem_map_of_mem hm⟩
  · rw [hcodes]
    refine .inr ⟨by simp, fun m hm => ⟨run.image, ?_, ?_⟩⟩
    · exact List.mem_append_left _ (List.mem_map_of_mem hrun)
    · rw [List.mem_singleton.mp hm]
      exact CaseRun.image_covers hcover
  · exact .inl hsame

theorem upperCodes_of_isCapital {n : Nat} (h : IsCapital n) : upperCodes n = [n] := by
  have hseq : caseSequences.lookup n = none := by
    rw [List.lookup_eq_none_iff]
    intro s hs
    have hout := h.not_covers (List.mem_append_right _ (List.mem_map_of_mem hs))
    rw [bne_iff_ne]
    rintro rfl
    rw [CaseRun.single_covers] at hout
    cases hout
  have hrun : (caseRuns.find? fun run => run.covers n) = none := by
    rw [List.find?_eq_none]
    intro run hmem
    rw [h.not_covers (List.mem_append_left _ hmem)]
    exact Bool.false_ne_true
  rw [upperCodes, hseq, hrun]

theorem upperChar_cases (c : Char) :
    upperChar c = [c] ∨ upperChar c ≠ [] ∧ ∀ d ∈ upperChar c, IsCapital d.toNat := by
  rcases upperCodes_cases c.toNat with hsame | ⟨hne, hcapital⟩
  · left
    rw [upperChar, hsame, List.map_singleton, Char.ofNat_toNat]
  · refine .inr ⟨by simpa [upperChar] using hne, fun d hd => ?_⟩
    obtain ⟨m, hm, rfl⟩ := List.mem_map.mp hd
    rw [(hcapital m hm).toNat_ofNat]
    exact hcapital m hm

theorem upperChar_of_mem_upperChar {c d : Char} (h : d ∈ upperChar c) : upperChar d = [d] := by
  rcases upperChar_cases c with hsame | ⟨-, hcapital⟩
  · rw [hsame, List.mem_singleton] at h
    rw [h, hsame]
  · rw [upperChar, upperCodes_of_isCapital (hcapital d h), List.map_singleton, Char.ofNat_toNat]

theorem upper_upper (t : Text) : upper (upper t) = upper t := by
  simp only [upper, List.flatMap_assoc]
  congr 1
  funext c
  calc (upperChar c).flatMap upperChar = (upperChar c).flatMap fun d => [d] :=
        List.flatMap_congr fun d hd => upperChar_of_mem_upperChar hd
    _ = upperChar c := List.flatMap_singleton' _

theorem upper_ne_nil {t : Text} (h : t ≠ []) : upper t ≠ [] := by
  obtain ⟨c, hc⟩ := List.exists_mem_of_ne_nil t h
  have hne : upperChar c ≠ [] := by
    rcases upperChar_cases c with hsame | ⟨hne, -⟩
    · simp [hsame]
    · exact hne
  intro hnil
  exact hne (List.flatMap_eq_nil_iff.mp hnil c hc)

/-- White space and punctuation in an upper-cased text were in the text before. -/
theorem mem_of_mem_upper {t : Text} {c : Char} (hmark : marks.has c = true) (h : c ∈ upper t) :
    c ∈ t := by
  obtain ⟨d, hd, hc⟩ := List.mem_flatMap.mp h
  rcases upperChar_cases d with hsame | ⟨-, hcapital⟩
  · rw [hsame, List.mem_singleton] at hc
    exact hc ▸ hd
  · rw [(hcapital c hc).not_mark] at hmark
    cases hmark

end Uvm.Text
