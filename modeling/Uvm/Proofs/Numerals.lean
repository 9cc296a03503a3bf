import Uvm.Proofs.Literal

/-! The language of literals. A literal has a radix and digits, and `Spells` says what digits are
worth; reading a literal finds their value, or the first thing that is wrong with them. What is
printed in either radix spells the number that was printed, in any case of its letters and behind
any number of zeros, so it is read back. -/
namespace Uvm

namespace Text

/-- The first of some characters that is no digit of the radix. -/
def FirstNonDigit (radix : Nat) (digits : Text) (c : Char) : Prop :=
  ∃ front rest, digits = front ++ c :: rest ∧ (∀ b ∈ front, ∃ d, IsDigit radix b d) ∧
    ∀ d, ¬ IsDigit radix c d

section
variable {radix : Nat} {digits : Text} {v : Nat}

theorem isSome_digit?_iff (hradix : radix ≤ 16) {c : Char} :
    (digit? radix c).isSome = true ↔ ∃ d, IsDigit radix c d := by
  simp only [Option.isSome_iff_exists, digit?_eq_some_iff hradix]

theorem isNone_digit?_iff (hradix : radix ≤ 16) {c : Char} :
    (digit? radix c).isNone = true ↔ ∀ d, ¬ IsDigit radix c d := by
  rw [← Option.not_isSome, Bool.not_eq_true', Bool.eq_false_iff, ne_eq, isSome_digit?_iff hradix,
    not_exists]

theorem firstNonDigit_iff (hradix : radix ≤ 16) {c : Char} :
    FirstNonDigit radix digits c ↔
      digits.find? (fun b => (digit? radix b).isNone) = some c := by
  have hfront (b : Char) : (!(digit? radix b).isNone) = true ↔ ∃ d, IsDigit radix b d := by
    rw [Option.not_isNone, isSome_digit?_iff hradix]
  simp only [List.find?_eq_some_iff_append, isNone_digit?_iff hradix, hfront]
  constructor
  · rintro ⟨front, rest, heq, hgood, hbad⟩
    exact ⟨hbad, front, rest, heq, hgood⟩
  · rintro ⟨hbad, front, rest, heq, hgood⟩
    exact ⟨front, rest, heq, hgood, hbad⟩

theorem Spells.unique (hradix : radix ≤ 16) (h : Spells radix digits v) {w : Nat}
    (hw : Spells radix digits w) : v = w :=
  ((spells_iff hradix).mp h).2.trans ((spells_iff hradix).mp hw).2.symm

/-- Zeros in front of a numeral are worth nothing, however many there are. -/
theorem Spells.zeros_append (h : Spells radix digits v) (hradix : 0 < radix) (count : Nat) :
    Spells radix (List.replicate count '0' ++ digits) v := by
  induction count with
  | zero => exact h
  | succ count ih =>
    obtain ⟨values, hvalues, rfl⟩ := ih
    refine ⟨0 :: values, .cons ⟨hradix, .inl rfl⟩ hvalues, ?_⟩
    rw [List.reverse_cons, Nat.ofDigits_append, Nat.ofDigits_singleton, Nat.mul_zero, Nat.add_zero]

theorem toNat_lt_of_toUpper {c : Char} (h : c.toUpper.toNat < 128) : c.toNat < 128 := by
  by_cases hlower : c.val ≥ 'a'.val ∧ c.val ≤ 'z'.val
  · have hle := UInt32.le_iff_toNat_le.mp hlower.2
    rw [Char.toNat_val] at hle
    exact Nat.lt_of_le_of_lt hle (by decide)
  · have hsame : c.toUpper = c := dif_neg hlower
    rwa [hsame] at h

theorem toUpper_toUpper_digitChar {d : Nat} (h : d < 16) :
    (Nat.digitChar d).toUpper.toUpper = (Nat.digitChar d).toUpper := by
  interval_cases d <;> decide

/-- A digit may be written in either case. -/
theorem IsDigit.of_toUpper_eq {b c : Char} {d : Nat} (h : IsDigit radix b d) (hradix : radix ≤ 16)
    (hcase : c.toUpper = b.toUpper) : IsDigit radix c d := by
  obtain ⟨hd, hb⟩ := h
  have table : ∀ d < 16, (Nat.digitChar d).toUpper.toNat < 128 ∧
      ∀ n < 128, (Char.ofNat n).toUpper = (Nat.digitChar d).toUpper →
        Char.ofNat n = Nat.digitChar d ∨ Char.ofNat n = (Nat.digitChar d).toUpper := by
    decide +kernel
  obtain ⟨hascii, hrow⟩ := table d (by omega)
  have hc : c.toUpper = (Nat.digitChar d).toUpper := by
    rcases hb with rfl | rfl
    · exact hcase
    · rw [hcase, toUpper_toUpper_digitChar (by omega)]
  have hrow := hrow c.toNat (toNat_lt_of_toUpper (hc ▸ hascii))
  rw [Char.ofNat_toNat] at hrow
  exact ⟨hd, hrow hc⟩

theorem Spells.of_map_toUpper_eq (h : Spells radix digits v) (hradix : radix ≤ 16)
    {spelling : Text} (hcase : spelling.map Char.toUpper = digits.map Char.toUpper) :
    Spells radix spelling v := by
  obtain ⟨values, hvalues, rfl⟩ := h
  refine ⟨values, ?_, rfl⟩
  induction hvalues generalizing spelling with
  | nil =>
    rw [List.map_eq_nil_iff.mp hcase]
    exact .nil
  | cons hdigit _ ih =>
    cases spelling with
    | nil => cases hcase
    | cons c spelling =>
      obtain ⟨hhead, htail⟩ := List.cons_eq_cons.mp hcase
      exact .cons (hdigit.of_toUpper_eq hradix hhead) (ih htail)

theorem IsDigit.toUpper {c : Char} {d : Nat} (h : IsDigit radix c d) (hradix : radix ≤ 16) :
    IsDigit radix c.toUpper d := by
  obtain ⟨hd, rfl | rfl⟩ := h
  · exact ⟨hd, .inr rfl⟩
  · exact ⟨hd, .inr (toUpper_toUpper_digitChar (by omega))⟩

theorem Spells.map_toUpper (h : Spells radix digits v) (hradix : radix ≤ 16) :
    Spells radix (digits.map Char.toUpper) v := by
  obtain ⟨values, hvalues, rfl⟩ := h
  refine ⟨values, List.forall₂_map_left_iff.mpr ?_, rfl⟩
  exact hvalues.imp fun c d hdigit => hdigit.toUpper hradix

/-- No digit of a numeral is taken for white space or punctuation. -/
theorem Spells.not_mark (h : Spells radix digits v) (hradix : radix ≤ 16) :
    ∀ c ∈ digits, marks.has c = false := by
  have table : ∀ d < 16, marks.has (Nat.digitChar d) = false ∧
      marks.has (Nat.digitChar d).toUpper = false := by
    decide
  intro c hc
  obtain ⟨d, hd, hdigit⟩ :=
    (isSome_digit?_iff hradix).mp (((spells_iff hradix).mp h).1 c hc)
  rcases hdigit with rfl | rfl
  · exact (table d (by omega)).1
  · exact (table d (by omega)).2

theorem Spells.not_mem_of_mark (h : Spells radix digits v) (hradix : radix ≤ 16) {c : Char}
    (hc : marks.has c = true) : c ∉ digits := by
  intro hmem
  rw [h.not_mark hradix c hmem] at hc
  cases hc

/-- Neither does the mark of hexadecimal digits hold any. -/
theorem Spells.not_mem_marked (h : Spells 16 digits v) {mark c : Char}
    (hmark : mark = 'x' ∨ mark = 'X') (hc : marks.has c = true) : c ∉ '0' :: mark :: digits := by
  intro hmem
  rcases List.mem_cons.mp hmem with rfl | hmem
  · exact absurd hc (by decide)
  · rcases List.mem_cons.mp hmem with rfl | hmem
    · rcases hmark with rfl | rfl <;> exact absurd hc (by decide)
    · exact h.not_mem_of_mark (by decide) hc hmem

end

theorem spells_hex (n : Nat) : Spells 16 (hex n) n := spells_toDigits (by decide) n

theorem hex_ne_nil (n : Nat) : hex n ≠ [] := Nat.toDigits_ne_nil

theorem spells_padded_hex (width n : Nat) : Spells 16 (List.leftpad width '0' (hex n)) n :=
  (spells_hex n).zeros_append (by decide) _

theorem hexMarked_inj {width n m : Nat} (h : hexMarked width n = hexMarked width m) : n = m := by
  obtain ⟨-, h⟩ := List.cons_eq_cons.mp h
  obtain ⟨-, h⟩ := List.cons_eq_cons.mp h
  apply (spells_padded_hex width n).unique (by decide)
  rw [h]
  exact spells_padded_hex width m

theorem decimal_inj {n m : Nat} (h : decimal n = decimal m) : n = m := by
  apply (spells_decimal n).unique (by decide)
  rw [h]
  exact spells_decimal m

theorem not_mem_hexMarked {c : Char} (hc : marks.has c = true) (width n : Nat) :
    c ∉ hexMarked width n :=
  (spells_padded_hex width n).not_mem_marked (.inl rfl) hc

theorem spells_hexPair (b : UInt8) : Spells 16 (hexPair b) b.toNat := by
  have hb := b.toNat_lt
  have hhigh : IsDigit 16 (Nat.digitChar (b.toNat / 16)) (b.toNat / 16) := ⟨by omega, .inl rfl⟩
  have hlow : IsDigit 16 (Nat.digitChar (b.toNat % 16)) (b.toNat % 16) := ⟨by omega, .inl rfl⟩
  have hfirst : Spells 16 [Nat.digitChar (b.toNat / 16)] (b.toNat / 16) :=
    ⟨[b.toNat / 16], .cons hhigh .nil, Nat.ofDigits_singleton.symm⟩
  have hpair := hfirst.append_digit hlow
  rwa [Nat.div_add_mod'] at hpair

theorem spells_hexPairUpper (b : UInt8) : Spells 16 (hexPairUpper b) b.toNat :=
  (spells_hexPair b).map_toUpper (by decide)

theorem hexPairUpper_inj {b c : UInt8} (h : hexPairUpper b = hexPairUpper c) : b = c := by
  apply UInt8.toNat_inj.mp
  apply (spells_hexPairUpper b).unique (by decide)
  rw [h]
  exact spells_hexPairUpper c

end Text

namespace Literal

/-- The radix of a trimmed literal and the digits behind its mark, if it has one. -/
inductive Parts : Text → Nat → Text → Prop where
  | hex {mark : Char} {digits : Text} (marked : mark = 'x' ∨ mark = 'X') :
      Parts ('0' :: mark :: digits) 16 digits
  | decimal {t : Text}
      (unmarked : ∀ mark digits, mark = 'x' ∨ mark = 'X' → t ≠ '0' :: mark :: digits) :
      Parts t 10 t

theorem parts_iff {t : Text} {radix : Nat} {digits : Text} :
    Parts t radix digits ↔ radix = (radixDigits t).1 ∧ digits = (radixDigits t).2 := by
  obtain ⟨mark, rest, hmark, rfl, h⟩ | ⟨hplain, h⟩ := radixDigits_cases t
  · rw [h]
    constructor
    · intro hparts
      cases hparts with
      | hex => exact ⟨rfl, rfl⟩
      | decimal unmarked => exact absurd rfl (unmarked mark rest hmark)
    · rintro ⟨rfl, rfl⟩
      exact .hex hmark
  · rw [h]
    constructor
    · intro hparts
      cases hparts with
      | hex marked => exact absurd rfl (hplain _ _ marked)
      | decimal => exact ⟨rfl, rfl⟩
    · rintro ⟨rfl, rfl⟩
      exact .decimal hplain

section
variable {radix : Nat} {digits : Text}

theorem value_of_firstNonDigit (hradix : radix ≤ 16) {c : Char}
    (h : Text.FirstNonDigit radix digits c) : value radix digits = .error (.badDigit c) := by
  rw [value, (Text.firstNonDigit_iff hradix).mp h]

theorem value_of_spells (hradix : radix ≤ 16) {v : Nat} (h : Text.Spells radix digits v) :
    value radix digits = if v < bound then .ok v else .error .outOfRange := by
  obtain ⟨hall, rfl⟩ := (Text.spells_iff hradix).mp h
  have hgood : digits.find? (fun c => (Text.digit? radix c).isNone) = none := by
    apply List.find?_eq_none.mpr
    intro c hc
    rw [Option.isNone_eq_false_iff.mpr (hall c hc)]
    exact Bool.false_ne_true
  rw [value, hgood]

/-- Digits of the radix spell a number, and other characters have a first one. -/
theorem firstNonDigit_or_spells (hradix : radix ≤ 16) (digits : Text) :
    (∃ c, Text.FirstNonDigit radix digits c) ∨ ∃ v, Text.Spells radix digits v := by
  cases hbad : digits.find? fun c => (Text.digit? radix c).isNone with
  | some c => exact .inl ⟨c, (Text.firstNonDigit_iff hradix).mpr hbad⟩
  | none =>
    refine .inr ⟨_, (Text.spells_iff hradix).mpr ⟨fun c hc => ?_, rfl⟩⟩
    rw [← Option.not_isNone, Bool.not_eq_true']
    exact Bool.eq_false_iff.mpr (List.find?_eq_none.mp hbad c hc)

theorem value_eq_badDigit_iff (hradix : radix ≤ 16) {c : Char} :
    value radix digits = .error (.badDigit c) ↔ Text.FirstNonDigit radix digits c := by
  constructor
  · intro h
    obtain ⟨b, hb⟩ | ⟨v, hv⟩ := firstNonDigit_or_spells hradix digits
    · rw [value_of_firstNonDigit hradix hb] at h
      cases h
      exact hb
    · rw [value_of_spells hradix hv] at h
      split at h <;> cases h
  · exact value_of_firstNonDigit hradix

theorem value_eq_outOfRange_iff (hradix : radix ≤ 16) :
    value radix digits = .error .outOfRange ↔ ∃ v, Text.Spells radix digits v ∧ bound ≤ v := by
  constructor
  · intro h
    obtain ⟨b, hb⟩ | ⟨v, hv⟩ := firstNonDigit_or_spells hradix digits
    · rw [value_of_firstNonDigit hradix hb] at h
      cases h
    · rw [value_of_spells hradix hv] at h
      split at h
      · cases h
      · next hwide => exact ⟨v, hv, Nat.le_of_not_lt hwide⟩
  · rintro ⟨v, hv, hwide⟩
    rw [value_of_spells hradix hv, if_neg (Nat.not_lt_of_le hwide)]

end

theorem parse_eq_of_no_digits {token : Text} (h : (radixDigits (Text.trim token)).2 = []) :
    parse token = .error .noDigits := by
  unfold parse
  split
  · rfl
  · next hne heq =>
    rw [heq] at h
    exact absurd h (by simpa using hne)

theorem parse_eq_value {token : Text} (h : (radixDigits (Text.trim token)).2 ≠ []) :
    parse token =
      value (radixDigits (Text.trim token)).1 (radixDigits (Text.trim token)).2 := by
  unfold parse
  split
  · next heq =>
    rw [heq] at h
    exact absurd rfl h
  · next heq => rw [heq]

/-- A numeral in one piece is read back, in either radix and behind zeros. -/
theorem parse_zeros_decimal {v : Nat} (h : v < bound) (zeros : Nat) :
    parse (List.replicate zeros '0' ++ Text.decimal v) = .ok v := by
  have hspells := (Text.spells_decimal v).zeros_append (by decide) zeros
  have hsome : List.replicate zeros '0' ++ Text.decimal v ≠ [] := by simp [Text.decimal_ne_nil]
  refine (parse_eq_ok_iff fun c hc => ?_).mpr ⟨.decimal hsome hspells, h⟩
  exact (Text.not_mark_iff.mp (hspells.not_mark (by decide) c hc)).1

/-- Hexadecimal digits behind either mark are read as what they spell. -/
theorem parse_marked {digits : Text} {v : Nat} (h : Text.Spells 16 digits v) (hsome : digits ≠ [])
    (hv : v < bound) {mark : Char} (hmark : mark = 'x' ∨ mark = 'X') :
    parse ('0' :: mark :: digits) = .ok v := by
  have hblank : ∀ c ∈ '0' :: mark :: digits, Text.isBlank c = false := by
    intro c hc
    apply Bool.eq_false_iff.mpr
    intro hblank
    exact h.not_mem_marked hmark (Text.marks_has_iff.mpr (.inl hblank)) hc
  exact (parse_eq_ok_iff hblank).mpr ⟨.hex hmark hsome h, hv⟩

theorem parse_zeros_hex {v : Nat} (h : v < bound) (zeros : Nat) {mark : Char} {spelling : Text}
    (hmark : mark = 'x' ∨ mark = 'X')
    (hcase : spelling.map Char.toUpper = (Text.hex v).map Char.toUpper) :
    parse ('0' :: mark :: (List.replicate zeros '0' ++ spelling)) = .ok v := by
  have hspells :=
    ((Text.spells_hex v).of_map_toUpper_eq (by decide) hcase).zeros_append (by decide) zeros
  have hsome : List.replicate zeros '0' ++ spelling ≠ [] := by
    intro hnil
    rw [(List.append_eq_nil_iff.mp hnil).2] at hcase
    exact Text.hex_ne_nil v (List.map_eq_nil_iff.mp hcase.symm)
  exact parse_marked hspells hsome h hmark

/-- Every token has one radix and one row of digits, those of the trimmed token. Reading it fails
because there are no digits, because of the first character that is no digit, whatever comes before
or after it, or because the digits are worth 2^64 or more, and in no other case; else it gives what
they are worth. So each number of 64 bits is read back from its decimal digits, and from its
hexadecimal ones behind either mark and in any case, with as many zeros in front as there may be. -/
theorem parse_language :
    (∀ token : Text, ∃ t radix digits,
      (∀ other, Text.Trimmed token other ↔ other = t) ∧
      (∀ r ds, Parts t r ds ↔ r = radix ∧ ds = digits) ∧
      (parse token = .error .noDigits ↔ digits = []) ∧
      (∀ c, parse token = .error (.badDigit c) ↔ Text.FirstNonDigit radix digits c) ∧
      (∀ v, parse token = .ok v ↔ digits ≠ [] ∧ Text.Spells radix digits v ∧ v < 2 ^ 64) ∧
      (parse token = .error .outOfRange ↔ ∃ v, Text.Spells radix digits v ∧ 2 ^ 64 ≤ v)) ∧
    ∀ v, v < 2 ^ 64 → ∀ zeros : Nat,
      parse (List.replicate zeros '0' ++ Text.decimal v) = .ok v ∧
      ∀ (mark : Char) (spelling : Text), mark = 'x' ∨ mark = 'X' →
        spelling.map Char.toUpper = (Text.hex v).map Char.toUpper →
        parse ('0' :: mark :: (List.replicate zeros '0' ++ spelling)) = .ok v := by
  have hbound : bound = 2 ^ 64 := rfl
  rw [← hbound]
  refine ⟨fun token => ⟨Text.trim token, (radixDigits (Text.trim token)).1,
    (radixDigits (Text.trim token)).2, fun other => Text.trimmed_iff, fun r ds => parts_iff, ?_⟩,
    fun v hv zeros => ⟨parse_zeros_decimal hv zeros, fun mark spelling hmark hcase =>
      parse_zeros_hex hv zeros hmark hcase⟩⟩
  have hradix := radixDigits_le (Text.trim token)
  by_cases hsome : (radixDigits (Text.trim token)).2 = []
  · -- No digits would spell zero, but a literal needs one.
    have hnone : ∀ v, Text.Spells (radixDigits (Text.trim token)).1 [] v → v = 0 :=
      fun v hv => ((Text.spells_iff hradix).mp hv).2
    rw [parse_eq_of_no_digits hsome, hsome]
    refine ⟨by simp, fun c => ?_, by simp, ?_⟩
    · simp [Text.FirstNonDigit]
    · simp only [Except.error.injEq, reduceCtorEq, false_iff]
      rintro ⟨v, hv, hwide⟩
      rw [hnone v hv] at hwide
      exact absurd hwide (by decide)
  · rw [parse_eq_value hsome]
    refine ⟨?_, fun c => value_eq_badDigit_iff hradix, fun v => ?_, value_eq_outOfRange_iff hradix⟩
    · exact ⟨fun h => absurd h (value_ne_noDigits _ _), fun h => absurd h hsome⟩
    · rw [value_eq_ok_iff hradix]
      exact ⟨fun h => ⟨hsome, h⟩, fun h => h.2⟩

theorem parse_language_at_64_bits :
    parse (List.replicate 40 '0' ++ Text.decimal (2 ^ 64 - 1)) = .ok (2 ^ 64 - 1) ∧
    parse ('0' :: 'X' :: (List.replicate 40 '0' ++ "FfffffFFFFffFFfF".toList)) =
      .ok (2 ^ 64 - 1) ∧
    parse "\u3000 18446744073709551616e\t" = .error (.badDigit 'e') ∧
    (∃ t radix digits, Text.Trimmed "\u3000 18446744073709551616e\t" t ∧ Parts t radix digits ∧
      Text.FirstNonDigit radix digits 'e') ∧
    parse "18446744073709551616" = .error .outOfRange := by
  obtain ⟨hread, hback⟩ := parse_language
  obtain ⟨hdecimal, hhex⟩ := hback (2 ^ 64 - 1) (by decide) 40
  have hbad : parse "\u3000 18446744073709551616e\t" = .error (.badDigit 'e') := by decide
  obtain ⟨t, radix, digits, htrim, hparts, -, hdigit, -, -⟩ :=
    hread "\u3000 18446744073709551616e\t"
  refine ⟨hdecimal, hhex 'X' _ (.inr rfl) (by decide), hbad, ?_, by decide⟩
  exact ⟨t, radix, digits, (htrim t).mpr rfl, (hparts radix digits).mpr ⟨rfl, rfl⟩,
    (hdigit 'e').mp hbad⟩

end Literal

end Uvm
