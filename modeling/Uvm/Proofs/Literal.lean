import Uvm.Literal
import Uvm.Proofs.Text
import Mathlib.Data.List.Forall2
import Mathlib.Data.Nat.Digits.Defs
import Mathlib.Tactic.IntervalCases
import Mathlib.Tactic.Ring

/-! What literals denote. `Denotes` says it by the digits and their weights; a token without white
space is accepted exactly when it denotes a number of 64 bits, and a number printed in decimal
denotes itself. -/
namespace Uvm

namespace Text

/-- A digit of a radix up to 16, in either case, and its value. -/
def IsDigit (radix : Nat) (c : Char) (d : Nat) : Prop :=
  d < radix ∧ (c = Nat.digitChar d ∨ c = (Nat.digitChar d).toUpper)

/-- The digits of a number, the most significant first. -/
def Spells (radix : Nat) (digits : Text) (v : Nat) : Prop :=
  ∃ values, List.Forall₂ (IsDigit radix) digits values ∧ v = Nat.ofDigits radix values.reverse

theorem digitValue_digitChar {d : Nat} (h : d < 16) :
    digitValue (Nat.digitChar d) = some d ∧ digitValue (Nat.digitChar d).toUpper = some d := by
  interval_cases d <;> decide

theorem toNat_lt_of_digitValue {c : Char} {d : Nat} (h : digitValue c = some d) :
    c.toNat < 128 := by
  by_contra hc
  have hnone : digitValue c = none := by
    have hle (b : Char) (hb : b.toNat < 128) : ¬ c ≤ b := by
      rw [Char.le_def, UInt32.le_iff_toNat_le, Char.toNat_val, Char.toNat_val]
      omega
    simp [digitValue, hle '9' (by decide), hle 'z' (by decide), hle 'Z' (by decide)]
  rw [hnone] at h
  cases h

theorem digitChar_of_digitValue {c : Char} {d : Nat} (h : digitValue c = some d) (hd : d < 16) :
    c = Nat.digitChar d ∨ c = (Nat.digitChar d).toUpper := by
  have table : ∀ n < 128, ∀ d ∈ digitValue (Char.ofNat n), d < 16 →
      Char.ofNat n = Nat.digitChar d ∨ Char.ofNat n = (Nat.digitChar d).toUpper := by
    decide
  have hrow := table c.toNat (toNat_lt_of_digitValue h)
  rw [Char.ofNat_toNat] at hrow
  exact hrow d h hd

theorem digit?_eq_some_iff {radix : Nat} (hradix : radix ≤ 16) {c : Char} {d : Nat} :
    digit? radix c = some d ↔ IsDigit radix c d := by
  simp only [digit?, Option.filter_eq_some_iff, decide_eq_true_eq]
  constructor
  · rintro ⟨hvalue, hd⟩
    exact ⟨hd, digitChar_of_digitValue hvalue (by omega)⟩
  · rintro ⟨hd, rfl | rfl⟩
    · exact ⟨(digitValue_digitChar (by omega)).1, hd⟩
    · exact ⟨(digitValue_digitChar (by omega)).2, hd⟩

theorem foldl_digits {radix : Nat} {digits : Text} {values : List Nat}
    (h : List.Forall₂ (fun c d => digit? radix c = some d) digits values) (start : Nat) :
    digits.foldl (fun value c => value * radix + (digit? radix c).getD 0) start =
      start * radix ^ digits.length + Nat.ofDigits radix values.reverse := by
  induction h generalizing start with
  | nil => simp
  | @cons c d digits values hc hrest ih =>
    rw [List.foldl_cons, ih, hc, List.reverse_cons, Nat.ofDigits_append, List.length_reverse,
      ← hrest.length_eq, Nat.ofDigits_singleton, Option.getD_some, List.length_cons]
    ring

theorem positional_eq_ofDigits {radix : Nat} {digits : Text} {values : List Nat}
    (h : List.Forall₂ (fun c d => digit? radix c = some d) digits values) :
    positional radix digits = Nat.ofDigits radix values.reverse := by
  rw [positional, foldl_digits h, Nat.zero_mul, Nat.zero_add]

theorem isSome_of_forall₂_digit? {radix : Nat} {digits : Text} {values : List Nat}
    (h : List.Forall₂ (fun c d => digit? radix c = some d) digits values) :
    ∀ c ∈ digits, (digit? radix c).isSome = true := by
  induction h with
  | nil => simp
  | cons hc _ ih => simpa [hc] using ih

/-- What is spelled is decided digit by digit, and its value is the positional one. -/
theorem spells_iff {radix : Nat} (hradix : radix ≤ 16) {digits : Text} {v : Nat} :
    Spells radix digits v ↔
      (∀ c ∈ digits, (digit? radix c).isSome = true) ∧ v = positional radix digits := by
  have hdigit : IsDigit radix = fun c d => digit? radix c = some d := by
    funext c d
    exact propext (digit?_eq_some_iff hradix).symm
  rw [Spells, hdigit]
  constructor
  · rintro ⟨values, hvalues, rfl⟩
    exact ⟨isSome_of_forall₂_digit? hvalues, (positional_eq_ofDigits hvalues).symm⟩
  · rintro ⟨hall, rfl⟩
    have hvalues : List.Forall₂ (fun c d => digit? radix c = some d) digits
        (digits.map fun c => (digit? radix c).getD 0) := by
      rw [List.forall₂_map_right_iff, List.forall₂_same]
      intro c hc
      obtain ⟨d, hd⟩ := Option.isSome_iff_exists.mp (hall c hc)
      simp [hd]
    exact ⟨_, hvalues, positional_eq_ofDigits hvalues⟩

theorem Spells.append_digit {radix : Nat} {digits : Text} {v : Nat} (h : Spells radix digits v)
    {c : Char} {d : Nat} (hc : IsDigit radix c d) :
    Spells radix (digits ++ [c]) (v * radix + d) := by
  obtain ⟨values, hvalues, rfl⟩ := h
  refine ⟨values ++ [d], List.rel_append hvalues (.cons hc .nil), ?_⟩
  rw [List.reverse_append, List.reverse_singleton, List.singleton_append, Nat.ofDigits_cons,
    Nat.mul_comm, Nat.add_comm]

/-- The digits that a number is printed with spell it. -/
theorem spells_toDigits {radix : Nat} (hone : 1 < radix) (n : Nat) :
    Spells radix (Nat.toDigits radix n) n := by
  induction n using Nat.strongRecOn with
  | ind n ih =>
    rw [Nat.toDigits_eq_if hone]
    split
    · next hlt =>
      have hdigit : IsDigit radix (Nat.digitChar n) n := ⟨hlt, .inl rfl⟩
      exact ⟨[n], .cons hdigit .nil, Nat.ofDigits_singleton.symm⟩
    · next hge =>
      have hdigit : IsDigit radix (Nat.digitChar (n % radix)) (n % radix) :=
        ⟨Nat.mod_lt n (by omega), .inl rfl⟩
      have hspells := (ih (n / radix) (Nat.div_lt_self (by omega) hone)).append_digit hdigit
      rwa [Nat.div_add_mod'] at hspells

theorem digit?_ten_of_isDigit {c : Char} (h : c.isDigit = true) :
    digit? 10 c = some (c.toNat - '0'.toNat) := by
  rw [Char.isDigit_iff_toNat] at h
  have hrange : '0' ≤ c ∧ c ≤ '9' := by
    simpa [Char.le_def, UInt32.le_iff_toNat_le] using h
  have hlt : c.toNat - '0'.toNat < 10 := by
    have : '9'.toNat = '0'.toNat + 9 := rfl
    omega
  rw [digit?, digitValue, if_pos hrange, Option.filter_some, decide_eq_true hlt]
  rfl

theorem isDigit_of_isSome_digit? {c : Char} (h : (digit? 10 c).isSome = true) :
    c.isDigit = true := by
  obtain ⟨d, hd⟩ := Option.isSome_iff_exists.mp h
  obtain ⟨hlt, hc⟩ := (digit?_eq_some_iff (by decide)).mp hd
  have table : ∀ d < 10, (Nat.digitChar d).isDigit ∧ (Nat.digitChar d).toUpper.isDigit := by decide
  rcases hc with rfl | rfl
  · exact (table d hlt).1
  · exact (table d hlt).2

theorem isDigit_of_mem_decimal {n : Nat} {c : Char} (h : c ∈ decimal n) : c.isDigit = true :=
  Nat.isDigit_of_mem_toDigits (by decide) (by decide) h

theorem decimal_ne_nil (n : Nat) : decimal n ≠ [] := Nat.toDigits_ne_nil

theorem spells_decimal (n : Nat) : Spells 10 (decimal n) n := spells_toDigits (by decide) n

end Text

namespace Literal

/-- The number that a token stands for, whatever its size: decimal digits, or hexadecimal digits
after a mark. -/
inductive Denotes : Text → Nat → Prop where
  | decimal {digits : Text} {v : Nat} (some : digits ≠ []) (spelled : Text.Spells 10 digits v) :
      Denotes digits v
  | hex {mark : Char} {digits : Text} {v : Nat} (marked : mark = 'x' ∨ mark = 'X')
      (some : digits ≠ []) (spelled : Text.Spells 16 digits v) : Denotes ('0' :: mark :: digits) v

theorem denotes_decimal (n : Nat) : Denotes (Text.decimal n) n :=
  .decimal (Text.decimal_ne_nil n) (Text.spells_decimal n)

/-- A token that denotes a number starts with a digit. -/
theorem Denotes.starts_with_digit {token : Text} {v : Nat} (h : Denotes token v) :
    ∃ c rest, token = c :: rest ∧ c.isDigit = true := by
  cases h with
  | decimal some spelled =>
    cases token with
    | nil => exact absurd rfl some
    | cons c rest =>
      have hall := ((Text.spells_iff (by decide)).mp spelled).1
      exact ⟨c, rest, rfl, Text.isDigit_of_isSome_digit? (hall c List.mem_cons_self)⟩
  | hex => exact ⟨'0', _, rfl, by decide⟩

theorem value_eq_ok_iff {radix : Nat} (hradix : radix ≤ 16) {digits : Text} {v : Nat} :
    value radix digits = .ok v ↔ Text.Spells radix digits v ∧ v < bound := by
  rw [Text.spells_iff hradix, value]
  cases hbad : digits.find? fun c => (Text.digit? radix c).isNone with
  | some c =>
    have hc : (Text.digit? radix c).isNone = true := by simpa using List.find?_some hbad
    have hmem := List.mem_of_find?_eq_some hbad
    simp only [reduceCtorEq, false_iff]
    rintro ⟨⟨hall, -⟩, -⟩
    exact absurd (hall c hmem) (by simp [Option.isNone_iff_eq_none.mp hc])
  | none =>
    have hall : ∀ c ∈ digits, (Text.digit? radix c).isSome = true := by
      intro c hc
      simpa [Option.isSome_iff_ne_none] using List.find?_eq_none.mp hbad c hc
    by_cases hlt : Text.positional radix digits < bound
    · simp only [hlt, ↓reduceIte, Except.ok.injEq]
      constructor
      · rintro rfl
        exact ⟨⟨hall, rfl⟩, hlt⟩
      · rintro ⟨⟨-, rfl⟩, -⟩
        rfl
    · simp only [hlt, ↓reduceIte, reduceCtorEq, false_iff]
      rintro ⟨⟨-, rfl⟩, hv⟩
      exact hlt hv

theorem value_ne_noDigits (radix : Nat) (digits : Text) :
    value radix digits ≠ .error .noDigits := by
  unfold value
  split
  · simp
  · dsimp only
    split <;> simp

theorem radixDigits_cases (t : Text) :
    (∃ mark digits, (mark = 'x' ∨ mark = 'X') ∧ t = '0' :: mark :: digits ∧
      radixDigits t = (16, digits)) ∨
    ((∀ mark digits, mark = 'x' ∨ mark = 'X' → t ≠ '0' :: mark :: digits) ∧
      radixDigits t = (10, t)) := by
  unfold radixDigits
  split
  · exact .inl ⟨'x', _, .inl rfl, rfl, rfl⟩
  · exact .inl ⟨'X', _, .inr rfl, rfl, rfl⟩
  · next hx hX =>
    refine .inr ⟨?_, rfl⟩
    rintro mark digits (rfl | rfl) rfl
    · exact hx _ rfl
    · exact hX _ rfl

theorem radixDigits_le (t : Text) : (radixDigits t).1 ≤ 16 := by
  obtain ⟨_, _, -, -, h⟩ | ⟨-, h⟩ := radixDigits_cases t
  · rw [h]
  · simp [h]

/-- A mark is no decimal digit, so a token denotes a number in one way only. -/
theorem denotes_iff {t : Text} {v : Nat} :
    Denotes t v ↔
      (radixDigits t).2 ≠ [] ∧ Text.Spells (radixDigits t).1 (radixDigits t).2 v := by
  obtain ⟨mark, digits, hmark, rfl, h⟩ | ⟨hplain, h⟩ := radixDigits_cases t
  · rw [h]
    constructor
    · intro hd
      cases hd with
      | decimal _ spelled =>
        have hall := ((Text.spells_iff (by decide)).mp spelled).1 mark (by simp)
        rcases hmark with rfl | rfl <;> exact absurd hall (by decide)
      | hex _ some spelled => exact ⟨some, spelled⟩
    · rintro ⟨some, spelled⟩
      exact .hex hmark some spelled
  · rw [h]
    constructor
    · intro hd
      cases hd with
      | decimal some spelled => exact ⟨some, spelled⟩
      | hex marked => exact absurd rfl (hplain _ _ marked)
    · rintro ⟨some, spelled⟩
      exact .decimal some spelled

/-- A token in one piece is accepted exactly when it denotes a number of 64 bits. -/
theorem parse_eq_ok_iff {token : Text} (hblank : ∀ c ∈ token, Text.isBlank c = false) {v : Nat} :
    parse token = .ok v ↔ Denotes token v ∧ v < bound := by
  rw [denotes_iff, parse, Text.trim_eq_self_of_no_blank hblank]
  have hradix := radixDigits_le token
  generalize radixDigits token = split at hradix
  obtain ⟨radix, digits⟩ := split
  cases digits with
  | nil => simp
  | cons c rest =>
    rw [and_assoc, ← value_eq_ok_iff hradix]
    simp

theorem parse_decimal {n : Nat} (h : n < bound) : parse (Text.decimal n) = .ok n := by
  refine (parse_eq_ok_iff fun c hc => ?_).mpr ⟨denotes_decimal n, h⟩
  exact (Text.not_mark_iff.mp (Text.isDigit_not_mark (Text.isDigit_of_mem_decimal hc))).1

theorem looksNumeric_iff {token : Text} (hblank : ∀ c ∈ token, Text.isBlank c = false) :
    looksNumeric token = true ↔ ∃ c rest, token = c :: rest ∧ c.isDigit = true := by
  rw [looksNumeric, Text.trim_eq_self_of_no_blank hblank]
  cases token with
  | nil => simp
  | cons c rest =>
    constructor
    · intro h
      exact ⟨c, rest, rfl, Text.isDigit_of_isSome_digit? h⟩
    · rintro ⟨_, _, heq, hdigit⟩
      cases heq
      simp only [Text.digit?_ten_of_isDigit hdigit, Option.isSome_some]

end Literal
end Uvm
