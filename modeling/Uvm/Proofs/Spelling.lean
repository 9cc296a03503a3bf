import Uvm.Op
import Uvm.Proofs.Upper
import Mathlib.Data.List.Forall2

/-! Which words name an instruction. A text is upper-cased to a mnemonic letter by letter, because
no mnemonic holds one of the table's sequences; and what is upper-cased to an ASCII capital is that
capital, its small letter, or one of the two other letters that the table leads there. -/
namespace Uvm

namespace Text

/-- The upper cases of more than one character. -/
def sequences : List Text := caseSequences.map fun s => s.2.map Char.ofNat

theorem upperChar_single_or_sequence (c : Char) :
    (∃ d, upperChar c = [d]) ∨ upperChar c ∈ sequences := by
  unfold upperChar
  obtain ⟨codes, hmem, hcodes⟩ | ⟨run, -, -, hcodes⟩ | hsame := upperCodes_of_table c.toNat
  · right
    rw [hcodes]
    exact List.mem_map_of_mem hmem
  · exact .inl ⟨_, by rw [hcodes]; rfl⟩
  · exact .inl ⟨_, by rw [hsame]; rfl⟩

theorem upper_of_forall₂ {t word : Text}
    (h : List.Forall₂ (fun c letter => upperChar c = [letter]) t word) : upper t = word := by
  induction h with
  | nil => rfl
  | cons hletter _ ih =>
    rw [upper, List.flatMap_cons, hletter, ← upper, ih]
    rfl

/-- A word that holds no sequence is the upper case of texts of its own length only. -/
theorem upper_eq_iff {t word : Text} (h : ∀ s ∈ sequences, ¬ s <:+: word) :
    upper t = word ↔ List.Forall₂ (fun c letter => upperChar c = [letter]) t word := by
  refine ⟨?_, upper_of_forall₂⟩
  rintro rfl
  induction t with
  | nil => exact .nil
  | cons c t ih =>
    rw [upper, List.flatMap_cons] at h ⊢
    rcases upperChar_single_or_sequence c with ⟨letter, hletter⟩ | hsequence
    · rw [hletter] at h ⊢
      refine .cons hletter (ih fun s hs hinfix => h s hs ?_)
      exact hinfix.trans (List.suffix_cons letter (upper t)).isInfix
    · -- A sequence would stand at the front of the word.
      exact absurd (List.prefix_append (upperChar c) (upper t)).isInfix (h _ hsequence)

theorem upperChar_eq_singleton_iff {c d : Char} :
    upperChar c = [d] ↔ upperCodes c.toNat = [d.toNat] := by
  constructor
  · intro h
    obtain ⟨m, hm, rfl⟩ := List.map_eq_singleton_iff.mp h
    rcases upperCodes_cases c.toNat with hsame | ⟨-, hcapital⟩
    · obtain rfl : c.toNat = m := by simpa [hsame] using hm
      rw [Char.ofNat_toNat, hm]
    · rw [(hcapital m (by simp [hm])).toNat_ofNat, hm]
  · intro h
    rw [upperChar, h, List.map_singleton, Char.ofNat_toNat]

/-- The ASCII capitals as a run. -/
def asciiCapitals : CaseRun := ⟨0x41, 0x5A, 1, 0x41⟩

theorem exists_of_asciiCapitals {m : Nat} (h : asciiCapitals.covers m = true) :
    ∃ k < 26, m = 0x41 + k := by
  obtain ⟨hfirst, hlast, -⟩ := CaseRun.covers_iff.mp h
  dsimp only [asciiCapitals] at hfirst hlast
  exact ⟨m - 0x41, by omega, by omega⟩

/-- Three runs of the table lead to an ASCII capital. -/
theorem runs_to_asciiCapitals :
    caseRuns.filter (fun run => !run.image.apart asciiCapitals) =
      [⟨0x61, 0x7A, 1, 0x41⟩, ⟨0x0131, 0x0131, 1, 0x49⟩, ⟨0x017F, 0x017F, 1, 0x53⟩] := by
  rfl

/-- The capital itself, its small letter, and for I and S the letter that is not ASCII. -/
def OfCapital (m n : Nat) : Prop :=
  n = m ∨ n = m + 0x20 ∨ m = 0x49 ∧ n = 0x0131 ∨ m = 0x53 ∧ n = 0x017F

theorem ofCapital_of_run {run : CaseRun} (hrun : run ∈ caseRuns) {n : Nat}
    (hn : run.covers n = true) (hm : asciiCapitals.covers (run.map n) = true) :
    OfCapital (run.map n) n := by
  have hmeets : run.image.apart asciiCapitals = false := by
    apply Bool.eq_false_iff.mpr
    intro hapart
    rw [CaseRun.not_covers_of_apart hapart (CaseRun.image_covers hn)] at hm
    cases hm
  have hmem : run ∈ caseRuns.filter fun run => !run.image.apart asciiCapitals := by
    simp [hrun, hmeets]
  obtain ⟨hfirst, hlast, -⟩ := CaseRun.covers_iff.mp hn
  rw [runs_to_asciiCapitals] at hmem
  simp only [List.mem_cons, List.not_mem_nil, or_false] at hmem
  unfold OfCapital CaseRun.map
  rcases hmem with rfl | rfl | rfl <;> dsimp only at hfirst hlast ⊢ <;> omega

theorem upperCodes_of_ofCapital {m n : Nat} (h : asciiCapitals.covers m = true)
    (hn : OfCapital m n) : upperCodes n = [m] := by
  rcases hn with rfl | rfl | ⟨rfl, rfl⟩ | ⟨rfl, rfl⟩
  · apply upperCodes_of_isCapital
    exact ⟨asciiCapitals, List.mem_append_left _ List.mem_cons_self, h⟩
  · have table : ∀ k < 26, upperCodes (0x41 + k + 0x20) = [0x41 + k] := by decide +kernel
    obtain ⟨k, hk, rfl⟩ := exists_of_asciiCapitals h
    exact table k hk
  · decide +kernel
  · decide +kernel

theorem upperCodes_eq_capital_iff {m n : Nat} (h : asciiCapitals.covers m = true) :
    upperCodes n = [m] ↔ OfCapital m n := by
  refine ⟨fun hn => ?_, upperCodes_of_ofCapital h⟩
  obtain ⟨codes, hmem, hcodes⟩ | ⟨run, hrun, hcover, hcodes⟩ | hsame := upperCodes_of_table n
  · -- A sequence is longer than one capital.
    have hlong : ∀ s ∈ caseSequences, s.2.length ≠ 1 := by decide
    rw [hcodes] at hn
    exact absurd (congrArg List.length hn) (hlong _ hmem)
  · rw [hcodes, List.singleton_inj] at hn
    subst hn
    exact ofCapital_of_run hrun hcover h
  · rw [hsame, List.singleton_inj] at hn
    exact .inl hn

theorem toNat_toLower {letter : Char} (h : asciiCapitals.covers letter.toNat = true) :
    letter.toLower.toNat = letter.toNat + 0x20 := by
  have table : ∀ k < 26, (Char.ofNat (0x41 + k)).toLower.toNat = 0x41 + k + 0x20 := by decide
  obtain ⟨k, hk, hletter⟩ := exists_of_asciiCapitals h
  have hrow := table k hk
  rwa [← hletter, Char.ofNat_toNat] at hrow

/-- What is upper-cased to an ASCII capital. -/
theorem upperChar_eq_capital_iff {c letter : Char}
    (h : asciiCapitals.covers letter.toNat = true) :
    upperChar c = [letter] ↔
      c = letter ∨ c = letter.toLower ∨ letter = 'I' ∧ c = 'ı' ∨ letter = 'S' ∧ c = 'ſ' := by
  have code (a b : Char) : a = b ↔ a.toNat = b.toNat := Char.toNat_inj.symm
  rw [upperChar_eq_singleton_iff, upperCodes_eq_capital_iff h]
  simp only [code, toNat_toLower h]
  rfl

end Text

namespace Op

/-- The text is as long as the mnemonic and has its letters in their places, each in either case. A
long s may stand for the S of SUB and a dotless i for the I of WRITE. -/
structure Spelled (op : Op) (t : Text) : Prop where
  length_eq : t.length = op.mnemonic.length
  letters : ∀ i c letter, t[i]? = some c → op.mnemonic[i]? = some letter →
    c = letter ∨ c = letter.toLower ∨ op = .sub ∧ i = 0 ∧ c = 'ſ' ∨ op = .write ∧ i = 2 ∧ c = 'ı'

theorem no_sequence_in_mnemonic (op : Op) : ∀ s ∈ Text.sequences, ¬ s <:+: op.mnemonic := by
  cases op <;> decide +kernel

/-- The letters of mnemonics are ASCII capitals, and I and S stand in one place each. -/
theorem letter_of_mnemonic {op : Op} {i : Nat} {letter : Char}
    (h : op.mnemonic[i]? = some letter) :
    Text.asciiCapitals.covers letter.toNat = true ∧
      (letter = 'I' ↔ op = .write ∧ i = 2) ∧ (letter = 'S' ↔ op = .sub ∧ i = 0) := by
  have table : ∀ i : Fin op.mnemonic.length,
      Text.asciiCapitals.covers (op.mnemonic.get i).toNat = true ∧
        (op.mnemonic.get i = 'I' ↔ op = .write ∧ i.val = 2) ∧
        (op.mnemonic.get i = 'S' ↔ op = .sub ∧ i.val = 0) := by
    cases op <;> decide
  obtain ⟨hi, rfl⟩ := List.getElem?_eq_some_iff.mp h
  exact table ⟨i, hi⟩

theorem upperChar_eq_letter_iff {op : Op} {i : Nat} {c letter : Char}
    (h : op.mnemonic[i]? = some letter) :
    Text.upperChar c = [letter] ↔
      c = letter ∨ c = letter.toLower ∨ op = .sub ∧ i = 0 ∧ c = 'ſ' ∨
        op = .write ∧ i = 2 ∧ c = 'ı' := by
  obtain ⟨hascii, hi, hs⟩ := letter_of_mnemonic h
  rw [Text.upperChar_eq_capital_iff hascii, hi, hs, and_assoc, and_assoc]
  exact or_congr_right (or_congr_right or_comm)

theorem upper_eq_mnemonic_iff {op : Op} {t : Text} :
    Text.upper t = op.mnemonic ↔ op.Spelled t := by
  rw [Text.upper_eq_iff op.no_sequence_in_mnemonic, List.forall₂_iff_get]
  constructor
  · rintro ⟨hlength, hletters⟩
    refine ⟨hlength, fun i c letter hc hletter => (upperChar_eq_letter_iff hletter).mp ?_⟩
    obtain ⟨hi, rfl⟩ := List.getElem?_eq_some_iff.mp hc
    obtain ⟨hi', rfl⟩ := List.getElem?_eq_some_iff.mp hletter
    exact hletters i hi hi'
  · rintro ⟨hlength, hletters⟩
    refine ⟨hlength, fun i hi hi' => ?_⟩
    have hletter := List.getElem?_eq_getElem hi'
    exact (upperChar_eq_letter_iff hletter).mpr
      (hletters i _ _ (List.getElem?_eq_getElem hi) hletter)

end Op

namespace Mnemonic

/-- Exactly the spellings of an instruction, upper-cased, are read as that instruction. Any other
text is kept in upper case. -/
theorem ofText_upper (t : Text) :
    (∀ op : Op, ofText (Text.upper t) = .known op ↔ op.Spelled t) ∧
      ((∀ op : Op, ¬ op.Spelled t) → ofText (Text.upper t) = .unsupported (Text.upper t)) := by
  refine ⟨fun op => ofText_eq_known_iff.trans Op.upper_eq_mnemonic_iff, fun hother => ?_⟩
  apply ofText_eq_unsupported_iff.mpr
  refine ⟨rfl, fun op hop => ?_⟩
  exact hother op (Op.upper_eq_mnemonic_iff.mp hop)

theorem ofText_upper_of_unusual_letters :
    ofText (Text.upper "ſUb") = .known .sub ∧ Op.sub.Spelled "ſUb" ∧
      ofText (Text.upper "wRıTe") = .known .write ∧ Op.write.Spelled "wRıTe" ∧
      (∀ op : Op, ¬ op.Spelled "ßub") ∧ ofText (Text.upper "ßub") = .unsupported "SSUB" := by
  have hsub : ofText (Text.upper "ſUb") = .known .sub := by decide +kernel
  have hwrite : ofText (Text.upper "wRıTe") = .known .write := by decide +kernel
  have hupper : Text.upper "ßub" = "SSUB" := by decide +kernel
  have hother : ∀ op : Op, ¬ op.Spelled "ßub" := by
    intro op hop
    cases op with
    | sub => exact absurd (hop.letters 0 'ß' 'S' rfl rfl) (by decide)
    | load => exact absurd hop.length_eq (by decide)
    | read => exact absurd hop.length_eq (by decide)
    | write => exact absurd hop.length_eq (by decide)
  have hread := (ofText_upper "ßub").2 hother
  rw [hupper] at hread
  refine ⟨hsub, ((ofText_upper _).1 _).mp hsub, hwrite, ((ofText_upper _).1 _).mp hwrite, hother,
    ?_⟩
  rw [hupper]
  exact hread

end Mnemonic

end Uvm
