import Uvm.Proofs.Text

/-! Longest prefixes and runs. A prefix is the longest when no longer one will do, and the runs of a
text are its maximal stretches in the order of their positions. One pass over the text finds them,
and so does splitting it at the other characters, once or a second time within the pieces. -/
namespace Uvm.Text

/-- The maximal non-empty runs of characters that satisfy `p`, in order. -/
def runs (p : Char → Bool) : Text → List Text
  | [] => []
  | c :: rest =>
    if p c then
      match rest with
      | d :: _ => if p d then consFirst c (runs p rest) else [c] :: runs p rest
      | [] => [[c]]
    else runs p rest

/-- The longest prefix of a text whose characters all satisfy `p`. -/
structure LongestPrefix (p : Char → Bool) (t front : Text) : Prop where
  isPrefix : front <+: t
  holds : ∀ c ∈ front, p c = true
  longest : ∀ other, other <+: t → (∀ c ∈ other, p c = true) → other <+: front

/-- The characters from `start` on and before `stop` satisfy `p`, and those next to them, if there
are any, do not. -/
structure Run (p : Char → Bool) (t : Text) (start stop : Nat) : Prop where
  nonempty : start < stop
  within : ∀ i, start ≤ i → i < stop → ∃ c, t[i]? = some c ∧ p c = true
  before : ∀ i c, i + 1 = start → t[i]? = some c → p c = false
  behind : ∀ c, t[stop]? = some c → p c = false

/-- The words are all the runs of a text, from left to right. -/
def Runs (p : Char → Bool) (t : Text) (words : List Text) : Prop :=
  ∃ spans : List (Nat × Nat), spans.Pairwise (fun a b => a.1 < b.1) ∧
    (∀ span, span ∈ spans ↔ Run p t span.1 span.2) ∧
    words = spans.map fun span => t.extract span.1 span.2

variable {p q : Char → Bool} {t : Text}

theorem longestPrefix_takeWhile (p : Char → Bool) (t : Text) :
    LongestPrefix p t (t.takeWhile p) := by
  refine ⟨List.takeWhile_prefix p, fun c hc => List.mem_takeWhile_imp hc, ?_⟩
  rintro other ⟨rest, rfl⟩ hother
  rw [List.takeWhile_append_of_pos hother]
  exact List.prefix_append other _

theorem longestPrefix_iff {front : Text} : LongestPrefix p t front ↔ front = t.takeWhile p := by
  constructor
  · intro h
    have hmax := longestPrefix_takeWhile p t
    have hle := hmax.longest front h.isPrefix h.holds
    have hge := h.longest _ hmax.isPrefix hmax.holds
    exact hle.eq_of_length_le hge.length_le
  · rintro rfl
    exact longestPrefix_takeWhile p t

theorem runs_cons_of_not {c : Char} (h : p c = false) (t : Text) : runs p (c :: t) = runs p t := by
  rw [runs.eq_def]
  simp [h]

/-- A run ends where the next character is no part of it. -/
theorem runs_append {w rest : Text} (hne : w ≠ []) (hw : ∀ c ∈ w, p c = true)
    (stop : ∀ c, rest.head? = some c → p c = false) : runs p (w ++ rest) = w :: runs p rest := by
  induction w with
  | nil => exact absurd rfl hne
  | cons c w ih =>
    have hc : p c = true := hw c List.mem_cons_self
    cases w with
    | nil =>
      cases rest with
      | nil => simp [runs, hc]
      | cons d rest => simp [runs, hc, stop d rfl]
    | cons d w =>
      have hd : p d = true := hw d (by simp)
      have htail := ih (by simp) fun x hx => hw x (List.mem_cons_of_mem _ hx)
      rw [List.cons_append, List.cons_append, runs, if_pos hc]
      simp only [hd, ↓reduceIte]
      rw [← List.cons_append, htail]
      rfl

theorem mem_consFirst {c : Char} {ws : List Text} {w : Text} (h : w ∈ consFirst c ws) :
    w ∈ ws ∨ ∃ v, w = c :: v ∧ (v = [] ∨ v ∈ ws) := by
  cases ws with
  | nil => exact .inr ⟨[], List.mem_singleton.mp h, .inl rfl⟩
  | cons first rest =>
    rcases List.mem_cons.mp h with rfl | h
    · exact .inr ⟨first, rfl, .inr List.mem_cons_self⟩
    · exact .inl (List.mem_cons_of_mem _ h)

/-- Runs are not empty, and their characters are characters of the text that satisfy `p`. -/
theorem of_mem_runs {t w : Text} (h : w ∈ runs p t) :
    w ≠ [] ∧ ∀ c ∈ w, p c = true ∧ c ∈ t := by
  have later {c : Char} {t w : Text} (ih : w ≠ [] ∧ ∀ x ∈ w, p x = true ∧ x ∈ t) :
      w ≠ [] ∧ ∀ x ∈ w, p x = true ∧ x ∈ c :: t :=
    ⟨ih.1, fun x hx => ⟨(ih.2 x hx).1, List.mem_cons_of_mem _ (ih.2 x hx).2⟩⟩
  fun_induction runs p t generalizing w with
  | case1 => simp at h
  | case2 c hc d rest hd ih =>
    rcases mem_consFirst h with h | ⟨v, rfl, rfl | hv⟩
    · exact later (ih h)
    · simp [hc]
    · refine ⟨by simp, fun x hx => ?_⟩
      rcases List.mem_cons.mp hx with rfl | hx
      · exact ⟨hc, List.mem_cons_self⟩
      · exact (later (ih hv)).2 x hx
  | case3 c hc d rest hd ih =>
    rcases List.mem_cons.mp h with rfl | h
    · simp [hc]
    · exact later (ih h)
  | case4 c hc =>
    rw [List.mem_singleton.mp h]
    simp [hc]
  | case5 c rest hc ih => exact later (ih h)

theorem runs_append_of_not {gap : Text} (h : ∀ c ∈ gap, p c = false) (t : Text) :
    runs p (gap ++ t) = runs p t := by
  induction gap with
  | nil => rfl
  | cons c gap ih =>
    obtain ⟨hc, hgap⟩ := List.forall_mem_cons.mp h
    rw [List.cons_append, runs_cons_of_not hc, ih hgap]

/-- Pieces of the right characters, printed with other characters between them and behind them, are
the runs of what was printed. -/
theorem runs_intercalate {separator tail : Text} {ws : List Text} (hne : separator ≠ [])
    (hseparator : ∀ c ∈ separator, p c = false) (htail : ∀ c ∈ tail, p c = false)
    (hws : ∀ w ∈ ws, w ≠ [] ∧ ∀ c ∈ w, p c = true) :
    runs p (separator.intercalate ws ++ tail) = ws := by
  have hend : runs p tail = [] := by
    have hgap := runs_append_of_not htail []
    rwa [List.append_nil, runs] at hgap
  induction ws with
  | nil => exact hend
  | cons w ws ih =>
    obtain ⟨⟨hwne, hw⟩, hrest⟩ := List.forall_mem_cons.mp hws
    cases ws with
    | nil =>
      have hstop : ∀ c, tail.head? = some c → p c = false :=
        fun c hc => htail c (List.mem_of_head? hc)
      rw [List.intercalate_singleton, runs_append hwne hw hstop, hend]
    | cons v ws =>
      have hstop : ∀ c, (separator ++ (separator.intercalate (v :: ws) ++ tail)).head? = some c →
          p c = false := by
        intro c hc
        rw [List.head?_append_of_ne_nil _ hne] at hc
        exact hseparator c (List.mem_of_head? hc)
      rw [List.intercalate_cons_cons, List.append_assoc, List.append_assoc,
        runs_append hwne hw hstop, runs_append_of_not hseparator, ih hrest]

theorem runs_cons_ne_nil {c : Char} (h : p c = true) (t : Text) : runs p (c :: t) ≠ [] := by
  cases t with
  | nil => simp [runs, h]
  | cons d t =>
    by_cases hd : p d = true
    · rw [runs, if_pos h]
      simp only [hd, ↓reduceIte]
      cases runs p (d :: t) <;> simp [consFirst]
    · simp [runs, h, hd]

/-- The runs before a character that is in none and those behind it. -/
theorem runs_append_cons {c : Char} (h : p c = false) (front rest : Text) :
    runs p (front ++ c :: rest) = runs p front ++ runs p rest := by
  fun_induction runs p front with
  | case1 => exact runs_cons_of_not h rest
  | case2 d hd e front he ih =>
    obtain ⟨first, others, hruns⟩ := List.exists_cons_of_ne_nil (runs_cons_ne_nil he front)
    rw [hruns] at ih ⊢
    rw [List.cons_append, List.cons_append, runs, if_pos hd]
    simp only [he, ↓reduceIte]
    rw [← List.cons_append, ih]
    rfl
  | case3 d hd e front he ih =>
    rw [List.cons_append, List.cons_append, runs, if_pos hd]
    simp only [he, Bool.false_eq_true, ↓reduceIte]
    rw [← List.cons_append, ih]
    rfl
  | case4 d hd => simp [runs, hd, h]
  | case5 d front hd ih =>
    rw [List.cons_append, runs_cons_of_not (Bool.eq_false_iff.mpr hd), ih]

/-- A text has no gap, or is cut in two by one. -/
theorem gap_induction {motive : Text → Prop} (p : Char → Bool)
    (whole : ∀ t, (∀ c ∈ t, p c = true) → motive t)
    (gap : ∀ front c rest, p c = false → motive front → motive rest →
      motive (front ++ c :: rest)) (t : Text) : motive t := by
  induction hlength : t.length using Nat.strongRecOn generalizing t with
  | ind n ih =>
    by_cases h : ∀ c ∈ t, p c = true
    · exact whole t h
    · simp only [not_forall, Bool.not_eq_true] at h
      obtain ⟨c, hc, hgap⟩ := h
      obtain ⟨front, rest, rfl⟩ := List.append_of_mem hc
      rw [List.length_append, List.length_cons] at hlength
      exact gap front c rest hgap (ih _ (by omega) front rfl) (ih _ (by omega) rest rfl)

theorem runs_of_forall (h : ∀ c ∈ t, p c = true) : runs p t = if t = [] then [] else [t] := by
  by_cases hne : t = []
  · rw [if_pos hne, hne, runs]
  · have hwhole : runs p (t ++ []) = t :: runs p [] := runs_append hne h nofun
    rw [List.append_nil, runs] at hwhole
    rw [if_neg hne, hwhole]

/-- The pieces between the gaps of a text, without the empty ones, are its runs. -/
theorem filter_splitOnP (p : Char → Bool) (t : Text) :
    ((t.splitOnP fun c => !p c).filter fun w => !w.isEmpty) = runs p t := by
  induction t using gap_induction p with
  | whole t h =>
    rw [List.splitOnP_eq_singleton (by simpa using h), runs_of_forall h]
    by_cases hne : t = [] <;> simp [hne]
  | gap front c rest hc ihfront ihrest =>
    rw [List.splitOnP_append_cons front rest (by simp [hc]), List.filter_append, ihfront, ihrest,
      runs_append_cons hc]

theorem mem_of_mem_splitOnP {w : Text} {c : Char} (h : w ∈ t.splitOnP fun c => !p c)
    (hc : c ∈ w) : c ∈ t := by
  induction t using gap_induction p with
  | whole t hp =>
    rw [List.splitOnP_eq_singleton (by simpa using hp), List.mem_singleton] at h
    rwa [← h]
  | gap front d rest hd ihfront ihrest =>
    rw [List.splitOnP_append_cons front rest (by simp [hd]), List.mem_append] at h
    rcases h with h | h
    · exact List.mem_append_left _ (ihfront h)
    · exact List.mem_append_right _ (List.mem_cons_of_mem _ (ihrest h))

theorem words_eq_runs (t : Text) : words t = runs (fun c => !isBlank c) t := by
  simpa [words] using filter_splitOnP (fun c => !isBlank c) t

theorem runs_congr (h : ∀ c ∈ t, p c = q c) : runs p t = runs q t := by
  induction t using gap_induction p with
  | whole t hp =>
    have hq : ∀ c ∈ t, q c = true := fun c hc => by rw [← h c hc, hp c hc]
    rw [runs_of_forall hp, runs_of_forall hq]
  | gap front c rest hc ihfront ihrest =>
    have hq : q c = false := by rw [← h c (by simp), hc]
    rw [runs_append_cons hc, runs_append_cons hq, ihfront fun d hd => h d (by simp [hd]),
      ihrest fun d hd => h d (by simp [hd])]

/-- The runs within the runs are those of the characters that belong to both. -/
theorem flatMap_runs (p q : Char → Bool) (t : Text) :
    (runs p t).flatMap (runs q) = runs (fun c => p c && q c) t := by
  induction t using gap_induction p with
  | whole t h =>
    have hboth : runs (fun c => p c && q c) t = runs q t :=
      runs_congr fun c hc => by rw [h c hc, Bool.true_and]
    rw [runs_of_forall h, hboth]
    by_cases hne : t = []
    · simp [hne, runs]
    · simp [hne]
  | gap front c rest hc ihfront ihrest =>
    rw [runs_append_cons hc, List.flatMap_append, ihfront, ihrest, runs_append_cons (by simp [hc])]

/-- Runs behind a border stay runs when it is taken away, and the other way round. -/
theorem run_append_iff {front : Text} {start stop : Nat}
    (border : ∀ c d, front.getLast? = some c → t.head? = some d → p d = true → p c = false) :
    Run p (front ++ t) (front.length + start) (front.length + stop) ↔ Run p t start stop := by
  have hget (i : Nat) : (front ++ t)[front.length + i]? = t[i]? := by
    rw [List.getElem?_append_right (Nat.le_add_right _ _), Nat.add_sub_cancel_left]
  constructor
  · intro h
    have hnonempty := h.nonempty
    refine ⟨by omega, fun i hi hi' => ?_, fun i c hi hc => ?_, fun c hc => ?_⟩
    · rw [← hget]
      exact h.within _ (by omega) (by omega)
    · exact h.before (front.length + i) c (by omega) (by rw [hget, hc])
    · exact h.behind c (by rw [hget, hc])
  · intro h
    have hnonempty := h.nonempty
    refine ⟨by omega, fun i hi hi' => ?_, fun i c hi hc => ?_, fun c hc => ?_⟩
    · obtain ⟨j, rfl⟩ := Nat.exists_eq_add_of_le (Nat.le_of_add_right_le hi)
      rw [hget]
      exact h.within j (by omega) (by omega)
    · cases start with
      | zero =>
        -- The run is at the front of the rest, so the border is right before it.
        obtain ⟨d, hd, hholds⟩ := h.within 0 (Nat.le_refl 0) hnonempty
        have hlast : front.getLast? = some c := by
          rw [List.getElem?_append_left (by omega)] at hc
          rw [List.getLast?_eq_getElem?, ← hc]
          congr 1
          omega
        rw [← List.head?_eq_getElem?] at hd
        exact border c d hlast hd hholds
      | succ j =>
        obtain rfl : i = front.length + j := by omega
        rw [hget] at hc
        exact h.before j c rfl hc
    · rw [hget] at hc
      exact h.behind c hc

theorem not_run_nil {start stop : Nat} : ¬ Run p [] start stop := by
  intro h
  obtain ⟨c, hc, -⟩ := h.within start (Nat.le_refl _) h.nonempty
  cases hc

theorem not_run_cons_zero {c : Char} (hc : p c = false) {stop : Nat} :
    ¬ Run p (c :: t) 0 stop := by
  intro h
  obtain ⟨d, hd, hholds⟩ := h.within 0 (Nat.le_refl 0) h.nonempty
  cases hd
  rw [hc] at hholds
  cases hholds

/-- A run that starts in a stretch of good characters with a bad one behind it is all of it. -/
theorem run_of_lt_length {w : Text} (hw : ∀ c ∈ w, p c = true)
    (stops : ∀ c, t.head? = some c → p c = false) {start stop : Nat} (hin : start < w.length) :
    Run p (w ++ t) start stop ↔ start = 0 ∧ stop = w.length := by
  have hgood : ∀ i c, i < w.length → (w ++ t)[i]? = some c → p c = true := by
    intro i c hi hc
    rw [List.getElem?_append_left hi] at hc
    exact hw c (List.mem_of_getElem? hc)
  have hborder : ∀ c, (w ++ t)[w.length]? = some c → p c = false := by
    intro c hc
    rw [List.getElem?_append_right (Nat.le_refl _), Nat.sub_self, ← List.head?_eq_getElem?] at hc
    exact stops c hc
  have hsome : ∀ i, i < w.length → ∃ c, (w ++ t)[i]? = some c := by
    intro i hi
    exact ⟨w[i], by rw [List.getElem?_append_left hi, List.getElem?_eq_getElem hi]⟩
  constructor
  · intro h
    refine ⟨?_, Nat.le_antisymm ?_ ?_⟩
    · by_contra hstart
      obtain ⟨c, hc⟩ := hsome (start - 1) (by omega)
      have hbad := h.before (start - 1) c (by omega) hc
      rw [hgood _ c (by omega) hc] at hbad
      cases hbad
    · by_contra hlong
      obtain ⟨c, hc, hholds⟩ := h.within w.length (by omega) (by omega)
      rw [hborder c hc] at hholds
      cases hholds
    · by_contra hshort
      obtain ⟨c, hc⟩ := hsome stop (by omega)
      have hbad := h.behind c hc
      rw [hgood stop c (by omega) hc] at hbad
      cases hbad
  · rintro ⟨rfl, rfl⟩
    refine ⟨hin, fun i _ hi => ?_, fun i c hi => by omega, hborder⟩
    obtain ⟨c, hc⟩ := hsome i hi
    exact ⟨c, hc, hgood i c hi hc⟩

/-- Where a text is put in front of another, its places move on by the length of that text. -/
def shift (n : Nat) (span : Nat × Nat) : Nat × Nat := (n + span.1, n + span.2)

theorem extract_append_shift (front t : Text) (span : Nat × Nat) :
    (front ++ t).extract (shift front.length span).1 (shift front.length span).2 =
      t.extract span.1 span.2 := by
  simp only [shift, List.extract_eq_take_drop, List.drop_append, Nat.add_sub_cancel_left,
    List.drop_eq_nil_of_le (Nat.le_add_right _ _), List.nil_append, Nat.add_sub_add_left]

theorem le_of_mem_map_shift {n : Nat} {spans : List (Nat × Nat)} {span : Nat × Nat}
    (h : span ∈ spans.map (shift n)) : n ≤ span.1 := by
  obtain ⟨original, -, rfl⟩ := List.mem_map.mp h
  exact Nat.le_add_right n _

theorem pairwise_map_shift {spans : List (Nat × Nat)} (h : spans.Pairwise fun a b => a.1 < b.1)
    (n : Nat) : (spans.map (shift n)).Pairwise fun a b => a.1 < b.1 := by
  rw [List.pairwise_map]
  exact h.imp fun hlt => Nat.add_lt_add_left hlt n

theorem mem_map_shift_iff_run {front : Text} {spans : List (Nat × Nat)} {span : Nat × Nat}
    (border : ∀ c d, front.getLast? = some c → t.head? = some d → p d = true → p c = false)
    (hspans : ∀ span, span ∈ spans ↔ Run p t span.1 span.2) (hle : front.length ≤ span.1) :
    span ∈ spans.map (shift front.length) ↔ Run p (front ++ t) span.1 span.2 := by
  obtain ⟨start, stop⟩ := span
  constructor
  · intro h
    obtain ⟨original, horiginal, hshift⟩ := List.mem_map.mp h
    cases hshift
    exact (run_append_iff border).mpr ((hspans original).mp horiginal)
  · intro h
    have hnonempty := h.nonempty
    dsimp only at hle hnonempty
    obtain ⟨s, rfl⟩ := Nat.exists_eq_add_of_le hle
    obtain ⟨e, rfl⟩ := Nat.exists_eq_add_of_le (Nat.le_trans hle (Nat.le_of_lt hnonempty))
    exact List.mem_map.mpr ⟨(s, e), (hspans (s, e)).mpr ((run_append_iff border).mp h), rfl⟩

theorem map_extract_shift (front t : Text) (spans : List (Nat × Nat)) :
    ((spans.map (shift front.length)).map fun span => (front ++ t).extract span.1 span.2) =
      spans.map fun span => t.extract span.1 span.2 := by
  rw [List.map_map]
  exact List.map_congr_left fun span _ => extract_append_shift front t span

theorem runs_nil : Runs p [] [] :=
  ⟨[], .nil, fun _ => ⟨fun h => absurd h List.not_mem_nil, fun h => absurd h not_run_nil⟩, rfl⟩

theorem Runs.gap {words : List Text} (h : Runs p t words) {c : Char} (hc : p c = false) :
    Runs p (c :: t) words := by
  obtain ⟨spans, hsorted, hspans, rfl⟩ := h
  have hborder : ∀ b d, [c].getLast? = some b → t.head? = some d → p d = true → p b = false := by
    intro b d hb _ _
    cases hb
    exact hc
  refine ⟨spans.map (shift [c].length), pairwise_map_shift hsorted _, fun span => ?_,
    (map_extract_shift [c] t spans).symm⟩
  by_cases hle : [c].length ≤ span.1
  · exact mem_map_shift_iff_run hborder hspans hle
  · have hzero : span.1 = 0 := by
      rw [List.length_singleton] at hle
      omega
    rw [hzero]
    exact ⟨fun hmem => absurd (le_of_mem_map_shift hmem) hle,
      fun hrun => absurd hrun (not_run_cons_zero hc)⟩

theorem Runs.word {words : List Text} (h : Runs p t words) {w : Text} (hne : w ≠ [])
    (hw : ∀ c ∈ w, p c = true) (stops : ∀ c, t.head? = some c → p c = false) :
    Runs p (w ++ t) (w :: words) := by
  obtain ⟨spans, hsorted, hspans, rfl⟩ := h
  have hpos : 0 < w.length := List.length_pos_iff.mpr hne
  have hborder : ∀ c d, w.getLast? = some c → t.head? = some d → p d = true → p c = false := by
    intro c d _ hd hholds
    rw [stops d hd] at hholds
    cases hholds
  refine ⟨(0, w.length) :: spans.map (shift w.length), ?_, fun span => ?_, ?_⟩
  · refine List.pairwise_cons.mpr ⟨fun span hspan => ?_, pairwise_map_shift hsorted _⟩
    exact Nat.lt_of_lt_of_le hpos (le_of_mem_map_shift hspan)
  · rw [List.mem_cons, Prod.ext_iff]
    by_cases hle : w.length ≤ span.1
    · rw [← mem_map_shift_iff_run hborder hspans hle, or_iff_right]
      rintro ⟨hzero, -⟩
      dsimp only at hzero
      omega
    · rw [run_of_lt_length hw stops (Nat.lt_of_not_le hle), or_iff_left]
      exact fun hmem => hle (le_of_mem_map_shift hmem)
  · rw [List.map_cons, map_extract_shift, List.extract_eq_take_drop, List.drop_zero, Nat.sub_zero,
      List.take_left]

/-- A list of places in order holds what it holds in one way only. -/
theorem Runs.unique {words others : List Text} (h : Runs p t words) (hothers : Runs p t others) :
    words = others := by
  obtain ⟨spans, hsorted, hspans, rfl⟩ := h
  obtain ⟨spans', hsorted', hspans', rfl⟩ := hothers
  have hnodup {l : List (Nat × Nat)} (hl : l.Pairwise fun a b => a.1 < b.1) : l.Nodup := by
    apply hl.imp
    rintro a b hlt rfl
    exact Nat.lt_irrefl _ hlt
  have hperm : spans.Perm spans' := by
    apply (List.perm_ext_iff_of_nodup (hnodup hsorted) (hnodup hsorted')).mpr
    intro span
    rw [hspans, hspans']
  have hsame : spans = spans' :=
    List.Perm.eq_of_pairwise (fun a b _ _ hab hba => absurd hba (Nat.lt_asymm hab)) hsorted
      hsorted' hperm
  rw [hsame]

theorem runs_runs (p : Char → Bool) (t : Text) : Runs p t (runs p t) := by
  -- One step takes away a character between the runs or a whole run.
  induction hlength : t.length using Nat.strongRecOn generalizing t with
  | ind n ih =>
    cases t with
    | nil => exact runs_nil
    | cons c rest =>
      rw [List.length_cons] at hlength
      by_cases hc : p c = true
      · have hsplit : c :: rest =
            (c :: rest).takeWhile p ++ (c :: rest).dropWhile p :=
          List.takeWhile_append_dropWhile.symm
        have hne : (c :: rest).takeWhile p ≠ [] := by simp [hc]
        have hholds : ∀ b ∈ (c :: rest).takeWhile p, p b = true :=
          fun b hb => List.mem_takeWhile_imp hb
        have hstops : ∀ b, ((c :: rest).dropWhile p).head? = some b → p b = false := by
          intro b hb
          have hnot := List.head?_dropWhile_not p (c :: rest)
          rw [hb] at hnot
          exact hnot
        have hshorter : ((c :: rest).dropWhile p).length < n := by
          have hdrop := (List.dropWhile_sublist (l := rest) p).length_le
          rw [List.dropWhile_cons_of_pos hc]
          omega
        rw [hsplit, runs_append hne hholds hstops]
        exact (ih _ hshorter _ rfl).word hne hholds hstops
      · have hnot : p c = false := Bool.eq_false_iff.mpr hc
        rw [runs_cons_of_not hnot]
        exact (ih rest.length (by omega) rest rfl).gap hnot

theorem runs_iff {words : List Text} : Runs p t words ↔ words = runs p t := by
  constructor
  · intro h
    exact h.unique (runs_runs p t)
  · rintro rfl
    exact runs_runs p t

end Uvm.Text
