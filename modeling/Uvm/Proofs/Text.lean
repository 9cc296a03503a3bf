import Uvm.Text.Basic
import Mathlib.Data.List.DropRight
import Mathlib.Data.List.Forall2

/-! Texts put together from pieces and taken apart again: trimming, separators and lines. Whatever
is printed with separators between its pieces is read back piece by piece. -/
namespace Uvm.Text

/-- `core` is the text without the white space at its two ends. -/
structure Trimmed (t core : Text) : Prop where
  around : ∃ left right, t = left ++ core ++ right ∧
    (∀ c ∈ left, isBlank c = true) ∧ ∀ c ∈ right, isBlank c = true
  first : ∀ c, core.head? = some c → isBlank c = false
  last : ∀ c, core.getLast? = some c → isBlank c = false

/-- The lines of a text with every carriage return kept. -/
def cut : Text → List Text
  | [] => []
  | '\n' :: rest => [] :: cut rest
  | c :: rest => consFirst c (cut rest)

/-- The text with a carriage return before every line feed. -/
def returns (t : Text) : Text := t.flatMap fun c => if c = '\n' then ['\r', '\n'] else [c]

/-- White space and the punctuation that has a meaning in a line of source. -/
def marks : Ranges := blanks ++ [(0x2C, 0x2C), (0x3A, 0x3B)]

theorem marks_has_iff {c : Char} :
    marks.has c = true ↔ isBlank c = true ∨ c = ',' ∨ c = ':' ∨ c = ';' := by
  have code (d : Char) : c = d ↔ c.toNat = d.toNat := Char.toNat_inj.symm
  rw [marks, Ranges.has, List.any_append, Bool.or_eq_true]
  apply or_congr Iff.rfl
  simp only [code, List.any_cons, List.any_nil, Bool.or_false, Bool.or_eq_true, Bool.and_eq_true,
    decide_eq_true_eq, Char.reduceToNat]
  omega

theorem not_mark_iff {c : Char} :
    marks.has c = false ↔ isBlank c = false ∧ c ≠ ',' ∧ c ≠ ':' ∧ c ≠ ';' := by
  rw [Bool.eq_false_iff, ne_eq, marks_has_iff]
  simp

theorem isDigit_not_mark {c : Char} (h : c.isDigit = true) : marks.has c = false := by
  simp only [Char.isDigit_iff_toNat, Char.reduceToNat] at h
  simp only [marks, blanks, Ranges.has, List.cons_append, List.nil_append, List.any_cons,
    List.any_nil, Bool.or_false, Bool.or_eq_false_iff, Bool.and_eq_false_iff,
    decide_eq_false_iff_not]
  omega

theorem trim_eq_rdropWhile (t : Text) : trim t = (t.dropWhile isBlank).rdropWhile isBlank := rfl

theorem mem_of_mem_trim {t : Text} {c : Char} (h : c ∈ trim t) : c ∈ t :=
  (List.dropWhile_sublist isBlank).subset ((List.rdropWhile_prefix isBlank _).subset h)

theorem head?_trim_not_blank {t : Text} {c : Char} (h : (trim t).head? = some c) :
    isBlank c = false := by
  obtain ⟨rest, hrest⟩ := List.rdropWhile_prefix isBlank (t.dropWhile isBlank)
  have hhead : (t.dropWhile isBlank).head? = some c := by
    rw [← hrest, List.head?_append, ← trim_eq_rdropWhile, h]
    rfl
  have hnot := List.head?_dropWhile_not isBlank t
  rw [hhead] at hnot
  exact hnot

/-- Only white space at an end is taken away. -/
theorem trim_eq_self {t : Text} (first : ∀ c, t.head? = some c → isBlank c = false)
    (last : ∀ c, t.getLast? = some c → isBlank c = false) : trim t = t := by
  have hfirst : t.dropWhile isBlank = t := by
    cases t with
    | nil => rfl
    | cons c rest => simp [first c rfl]
  rw [trim_eq_rdropWhile, hfirst, List.rdropWhile_eq_self_iff]
  intro hne
  simp [last _ (List.getLast?_eq_some_getLast hne)]

theorem trim_eq_self_of_no_blank {t : Text} (h : ∀ c ∈ t, isBlank c = false) : trim t = t :=
  trim_eq_self (fun c hc => h c (List.mem_of_head? hc)) (fun c hc => h c (List.mem_of_getLast? hc))

theorem trim_cons_blank {c : Char} (h : isBlank c = true) (t : Text) : trim (c :: t) = trim t := by
  rw [trim, List.dropWhile_cons_of_pos h, trim]

theorem trim_append_blank {c : Char} (h : isBlank c = true) (t : Text) :
    trim (t ++ [c]) = trim t := by
  rw [trim, trim, List.dropWhile_append]
  by_cases hempty : (t.dropWhile isBlank).isEmpty = true
  · rw [if_pos hempty, List.isEmpty_iff.mp hempty, List.dropWhile_cons_of_pos h]
    rfl
  · rw [if_neg hempty, List.reverse_append, List.reverse_singleton, List.singleton_append,
      List.dropWhile_cons_of_pos h]

theorem trim_blanks_append {left : Text} (h : ∀ c ∈ left, isBlank c = true) (t : Text) :
    trim (left ++ t) = trim t := by
  induction left with
  | nil => rfl
  | cons c left ih =>
    obtain ⟨hc, hleft⟩ := List.forall_mem_cons.mp h
    rw [List.cons_append, trim_cons_blank hc, ih hleft]

theorem trim_append_blanks {right : Text} (h : ∀ c ∈ right, isBlank c = true) (t : Text) :
    trim (t ++ right) = trim t := by
  induction right generalizing t with
  | nil => rw [List.append_nil]
  | cons c right ih =>
    obtain ⟨hc, hright⟩ := List.forall_mem_cons.mp h
    rw [List.append_cons, ih hright, trim_append_blank hc]

theorem trim_dropWhile (t : Text) : trim (t.dropWhile isBlank) = trim t := by
  rw [trim, trim, List.dropWhile_idempotent]

theorem dropWhile_append_cons {p : Char → Bool} {c : Char} (h : p c = false) (front rest : Text) :
    (front ++ c :: rest).dropWhile p = front.dropWhile p ++ c :: rest := by
  induction front with
  | nil => simp [h]
  | cons d front ih => by_cases hd : p d = true <;> simp [hd, ih]

/-- Trimming does not reach behind a character that is not white space. -/
theorem trim_append_cons {c : Char} (h : isBlank c = false) (front rest : Text) :
    trim (front ++ c :: rest) = front.dropWhile isBlank ++ c :: rest.rdropWhile isBlank := by
  rw [trim, dropWhile_append_cons h, List.reverse_append, List.reverse_cons, List.append_assoc,
    List.singleton_append, dropWhile_append_cons h, List.rdropWhile]
  simp

theorem getLast?_trim_not_blank {t : Text} {c : Char} (h : (trim t).getLast? = some c) :
    isBlank c = false := by
  rw [trim_eq_rdropWhile] at h
  have hne : (t.dropWhile isBlank).rdropWhile isBlank ≠ [] := by
    intro hnil
    rw [hnil] at h
    cases h
  rw [List.getLast?_eq_some_getLast hne] at h
  rw [← Option.some.inj h, Bool.eq_false_iff]
  exact List.rdropWhile_last_not isBlank _ hne

theorem trimmed_iff {t core : Text} : Trimmed t core ↔ core = trim t := by
  constructor
  · rintro ⟨⟨left, right, rfl, hleft, hright⟩, hfirst, hlast⟩
    rw [trim_append_blanks hright, trim_blanks_append hleft, trim_eq_self hfirst hlast]
  · rintro rfl
    refine ⟨⟨t.takeWhile isBlank, (t.dropWhile isBlank).rtakeWhile isBlank, ?_, ?_, ?_⟩,
      fun c => head?_trim_not_blank, fun c => getLast?_trim_not_blank⟩
    · rw [List.append_assoc, trim_eq_rdropWhile, List.rdropWhile_append_rtakeWhile,
        List.takeWhile_append_dropWhile]
    · exact fun c hc => List.mem_takeWhile_imp hc
    · exact fun c hc => List.mem_rtakeWhile_imp hc

/-- A text is cut at the first of its separators in one way only. -/
theorem cut_unique {separator : Char} {x y s t : Text} (hx : separator ∉ x) (hy : separator ∉ y)
    (h : x ++ separator :: s = y ++ separator :: t) : x = y ∧ s = t := by
  have hlength : x.length = y.length := by
    have hplace := congrArg (List.idxOf separator) h
    rwa [List.idxOf_append_of_notMem hx, List.idxOf_append_of_notMem hy, List.idxOf_cons_self,
      List.idxOf_cons_self] at hplace
  obtain ⟨hfront, hrest⟩ := List.append_inj h hlength
  exact ⟨hfront, (List.cons_eq_cons.mp hrest).2⟩

theorem mem_intercalate {separator : Text} {ts : List Text} {c : Char}
    (h : c ∈ separator.intercalate ts) : c ∈ separator ∨ ∃ t ∈ ts, c ∈ t := by
  induction ts with
  | nil => simp at h
  | cons t ts ih =>
    by_cases hts : ts = []
    · subst hts
      rw [List.intercalate_singleton] at h
      exact .inr ⟨t, List.mem_cons_self, h⟩
    · rw [List.intercalate_cons_of_ne_nil hts, List.mem_append, List.mem_append] at h
      rcases h with (h | h) | h
      · exact .inr ⟨t, List.mem_cons_self, h⟩
      · exact .inl h
      · exact (ih h).imp_right fun ⟨u, hu, hc⟩ => ⟨u, List.mem_cons_of_mem _ hu, hc⟩

theorem intercalate_ne_nil {separator : Text} {ts : List Text} (hts : ts ≠ [])
    (h : ∀ t ∈ ts, t ≠ []) : separator.intercalate ts ≠ [] := by
  obtain ⟨t, ts, rfl⟩ := List.exists_cons_of_ne_nil hts
  have ht := h t List.mem_cons_self
  cases ts with
  | nil => rwa [List.intercalate_singleton]
  | cons u ts => simp [List.intercalate_cons_cons, ht]

theorem append_intercalate (separator : Text) {ts : List Text} (h : ts ≠ []) :
    separator ++ separator.intercalate ts = ts.flatMap (separator ++ ·) := by
  induction ts with
  | nil => exact absurd rfl h
  | cons t ts ih =>
    cases ts with
    | nil => simp
    | cons u ts =>
      rw [List.intercalate_cons_cons, List.flatMap_cons, ← ih (List.cons_ne_nil u ts),
        List.append_assoc, List.append_assoc]

section
variable {α : Type} {f : α → Text} {width : Nat}

/-- Pieces of one width can be told apart in the text that they make up. -/
theorem flatMap_inj_of_length (hwidth : 0 < width) (hlength : ∀ a, (f a).length = width)
    (hf : f.Injective) : (List.flatMap f).Injective := by
  intro xs
  induction xs with
  | nil =>
    intro ys h
    cases ys with
    | nil => rfl
    | cons y ys =>
      have hshort := congrArg List.length h
      simp [hlength] at hshort
      omega
  | cons x xs ih =>
    intro ys h
    cases ys with
    | nil =>
      have hshort := congrArg List.length h
      simp [hlength] at hshort
      omega
    | cons y ys =>
      rw [List.flatMap_cons, List.flatMap_cons] at h
      obtain ⟨hfirst, hrest⟩ := List.append_inj h ((hlength x).trans (hlength y).symm)
      rw [hf hfirst, ih hrest]

theorem intercalate_map_inj {separator : Text} (hwidth : 0 < width)
    (hlength : ∀ a, (f a).length = width) (hf : f.Injective) :
    (fun xs : List α => separator.intercalate (xs.map f)).Injective := by
  have hsome (xs : List α) (hxs : xs ≠ []) : separator.intercalate (xs.map f) ≠ [] := by
    refine intercalate_ne_nil (by simpa using hxs) (List.forall_mem_map.mpr fun a _ => ?_)
    exact List.ne_nil_of_length_pos (by rw [hlength]; exact hwidth)
  have hpieces (xs : List α) (hxs : xs ≠ []) : separator ++ separator.intercalate (xs.map f) =
      xs.flatMap fun a => separator ++ f a := by
    rw [append_intercalate separator (by simpa using hxs), List.flatMap_map]
  intro xs ys h
  dsimp only at h
  by_cases hxs : xs = []
  · by_contra hne
    rw [hxs] at h hne
    exact hsome ys (Ne.symm hne) h.symm
  · have hys : ys ≠ [] := by
      rintro rfl
      exact hsome xs hxs h
    have hmarked (a : α) : (separator ++ f a).length = separator.length + width := by
      rw [List.length_append, hlength]
    apply flatMap_inj_of_length (by omega) hmarked
    · intro a b hab
      exact hf (List.append_cancel_left hab)
    · rw [← hpieces xs hxs, h, hpieces ys hys]

end

/-- The last character of joined texts is the last character of the last of them. -/
theorem getLast?_intercalate {separator : Text} {ts : List Text} {c : Char}
    (h : ∀ t ∈ ts, t ≠ []) (hc : (separator.intercalate ts).getLast? = some c) :
    ∃ t ∈ ts, t.getLast? = some c := by
  induction ts with
  | nil => simp at hc
  | cons t ts ih =>
    have hrest := fun u hu => h u (List.mem_cons_of_mem _ hu)
    by_cases hts : ts = []
    · subst hts
      rw [List.intercalate_singleton] at hc
      exact ⟨t, List.mem_cons_self, hc⟩
    · rw [List.intercalate_cons_of_ne_nil hts,
        List.getLast?_append_of_ne_nil _ (intercalate_ne_nil hts hrest)] at hc
      obtain ⟨u, hu, hc⟩ := ih hrest hc
      exact ⟨u, List.mem_cons_of_mem _ hu, hc⟩

theorem lines_cons {c : Char} {t : Text} (hline : c ≠ '\n')
    (hreturn : c = '\r' → t.head? ≠ some '\n') : lines (c :: t) = consFirst c (lines t) := by
  rw [lines.eq_def]
  split <;> simp_all

/-- A line feed ends a line that holds neither line feeds nor carriage returns. -/
theorem lines_append_line_feed {t : Text} (hline : '\n' ∉ t) (hreturn : '\r' ∉ t) (rest : Text) :
    lines (t ++ '\n' :: rest) = t :: lines rest := by
  induction t with
  | nil => simp [lines]
  | cons c t ih =>
    obtain ⟨hc, hline⟩ := List.ne_and_not_mem_of_not_mem_cons hline
    obtain ⟨hc', hreturn⟩ := List.ne_and_not_mem_of_not_mem_cons hreturn
    rw [List.cons_append, lines_cons (Ne.symm hc) (fun h => absurd h.symm hc'), ih hline hreturn]
    rfl

theorem lines_eq_singleton {t : Text} (hne : t ≠ []) (hline : '\n' ∉ t) : lines t = [t] := by
  induction t with
  | nil => exact absurd rfl hne
  | cons c t ih =>
    obtain ⟨hc, hline⟩ := List.ne_and_not_mem_of_not_mem_cons hline
    have hhead : t.head? ≠ some '\n' := fun h => hline (List.mem_of_head? h)
    rw [lines_cons (Ne.symm hc) fun _ => hhead]
    cases t with
    | nil => simp [lines, consFirst]
    | cons d t =>
      rw [ih (by simp) hline]
      rfl

/-- Lines that are not empty and hold no line end are read back from the text they are joined
to. The last of them needs no line feed. -/
theorem lines_intercalate {ts : List Text} (h : ∀ t ∈ ts, t ≠ [] ∧ '\n' ∉ t ∧ '\r' ∉ t) :
    lines (List.intercalate "\n" ts) = ts := by
  induction ts with
  | nil => rfl
  | cons t ts ih =>
    obtain ⟨hne, hline, hreturn⟩ := h t List.mem_cons_self
    have hrest := ih fun u hu => h u (List.mem_cons_of_mem _ hu)
    cases ts with
    | nil =>
      rw [List.intercalate_singleton]
      exact lines_eq_singleton hne hline
    | cons u ts =>
      have hjoin : List.intercalate "\n" (t :: u :: ts) =
          t ++ '\n' :: List.intercalate "\n" (u :: ts) := by
        simp [List.intercalate_cons_cons]
      rw [hjoin, lines_append_line_feed hline hreturn, hrest]

theorem cut_cons {c : Char} (h : c ≠ '\n') (t : Text) : cut (c :: t) = consFirst c (cut t) := by
  rw [cut.eq_def]
  split <;> simp_all

theorem cut_append_line_feed {t : Text} (h : '\n' ∉ t) (rest : Text) :
    cut (t ++ '\n' :: rest) = t :: cut rest := by
  induction t with
  | nil => rfl
  | cons c t ih =>
    obtain ⟨hc, ht⟩ := List.ne_and_not_mem_of_not_mem_cons h
    rw [List.cons_append, cut_cons hc.symm, ih ht]
    rfl

theorem cut_eq_singleton {t : Text} (hne : t ≠ []) (h : '\n' ∉ t) : cut t = [t] := by
  induction t with
  | nil => exact absurd rfl hne
  | cons c t ih =>
    obtain ⟨hc, ht⟩ := List.ne_and_not_mem_of_not_mem_cons h
    rw [cut_cons hc.symm]
    cases t with
    | nil => rfl
    | cons d t =>
      rw [ih (by simp) ht]
      rfl

theorem cut_unlines_append {above : List Text} (h : ∀ t ∈ above, '\n' ∉ t) (rest : Text) :
    cut (unlines above ++ rest) = above ++ cut rest := by
  induction above with
  | nil => rfl
  | cons t above ih =>
    obtain ⟨ht, habove⟩ := List.forall_mem_cons.mp h
    have hsplit : unlines (t :: above) ++ rest = t ++ '\n' :: (unlines above ++ rest) := by
      simp [unlines]
    rw [hsplit, cut_append_line_feed ht, ih habove, List.cons_append]

/-- A text is some lines with their line feeds and a last line without one. -/
theorem exists_unlines (t : Text) :
    ∃ above line, (∀ u ∈ above, '\n' ∉ u) ∧ '\n' ∉ line ∧ t = unlines above ++ line := by
  induction t with
  | nil => exact ⟨[], [], by simp, by simp, rfl⟩
  | cons c t ih =>
    obtain ⟨above, line, habove, hline, rfl⟩ := ih
    by_cases hc : c = '\n'
    · refine ⟨[] :: above, line, List.forall_mem_cons.mpr ⟨by simp, habove⟩, hline, ?_⟩
      simp [unlines, hc]
    · cases above with
      | nil => exact ⟨[], c :: line, by simp, by simp [Ne.symm hc, hline], rfl⟩
      | cons first above =>
        obtain ⟨hfirst, hrest⟩ := List.forall_mem_cons.mp habove
        refine ⟨(c :: first) :: above, line, ?_, hline, ?_⟩
        · exact List.forall_mem_cons.mpr ⟨by simp [Ne.symm hc, hfirst], hrest⟩
        · simp [unlines]

theorem returns_cons (c : Char) (t : Text) :
    returns (c :: t) = (if c = '\n' then ['\r', '\n'] else [c]) ++ returns t := rfl

theorem head?_returns (t : Text) : (returns t).head? ≠ some '\n' := by
  cases t with
  | nil => simp [returns]
  | cons c t =>
    rw [returns_cons]
    by_cases hc : c = '\n' <;> simp [hc]

/-- The carriage returns that were put in are the ones that go with their line feeds. -/
theorem lines_returns (t : Text) : lines (returns t) = cut t := by
  induction t with
  | nil => rfl
  | cons c t ih =>
    rw [returns_cons]
    by_cases hc : c = '\n'
    · subst hc
      rw [cut, ← ih]
      rfl
    · rw [if_neg hc, List.singleton_append, lines_cons hc fun _ => head?_returns t, ih, cut_cons hc]

theorem forall₂_consFirst {R : Text → Text → Prop} (c : Char) (hnil : R [c] [c])
    (hcons : ∀ a b, R a b → R (c :: a) (c :: b)) {as bs : List Text} (h : List.Forall₂ R as bs) :
    List.Forall₂ R (consFirst c as) (consFirst c bs) := by
  cases h with
  | nil => exact .cons hnil .nil
  | cons hfirst hrest => exact .cons (hcons _ _ hfirst) hrest

/-- A line is what stands there, less a carriage return at its end perhaps. -/
theorem forall₂_lines_cut (t : Text) :
    List.Forall₂ (fun line raw => raw = line ∨ raw = line ++ ['\r']) (lines t) (cut t) := by
  fun_induction lines t with
  | case1 => exact .nil
  | case2 rest ih => exact .cons (.inl rfl) ih
  | case3 rest ih => exact .cons (.inr rfl) ih
  | case4 c rest hline hreturn ih =>
    rw [cut_cons hline]
    refine forall₂_consFirst c (.inl rfl) ?_ ih
    rintro a b (rfl | rfl)
    · exact .inl rfl
    · exact .inr rfl

end Uvm.Text
