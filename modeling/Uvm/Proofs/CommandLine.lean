import Mathlib.Data.List.TakeWhile
import Uvm.Tool.Arguments

/-! Which command lines make sense, and what they give. `Spelled` says how an option is written,
`Reads` how a command line is put together from options and other arguments, and reading accepts
just these. What was given is then what the words before `--` ask for, and an option can be taken
out of a command line again without a trace. -/
namespace Uvm.Tool

/-- The word that an option is called by. -/
def dashed (name : Text) : Text := '-' :: '-' :: name

/-- What the value of an option has to be, if it can have one. -/
def Takes.accepts? : Takes → Option Accepts
  | nothing => none
  | value accepts => some accepts
  | optionalValue accepts _ => some accepts

/-- The value of an option, the words that give it, and the argument after these. -/
inductive Grammar.Spelled (grammar : Grammar) (name : Text) :
    Option Text → List Text → Option Text → Prop where
  | flag {next : Option Text} (known : grammar.options.lookup name = some .nothing) :
      Spelled grammar name none [dashed name] next
  | attached {takes : Takes} {accepts : Accepts} {v : Text} {next : Option Text}
      (known : grammar.options.lookup name = some takes) (valued : takes.accepts? = some accepts)
      (accepted : accepts.ok v = true) :
      Spelled grammar name (some v) [dashed name ++ '=' :: v] next
  | spaced {takes : Takes} {accepts : Accepts} {v : Text} {next : Option Text}
      (known : grammar.options.lookup name = some takes) (valued : takes.accepts? = some accepts)
      (plain : isValue v = true) (accepted : accepts.ok v = true) :
      Spelled grammar name (some v) [dashed name, v] next
  | default {accepts : Accepts} {v : Text} {next : Option Text}
      (known : grammar.options.lookup name = some (.optionalValue accepts v))
      (alone : ∀ w, next = some w → isValue w = false) :
      Spelled grammar name (some v) [dashed name] next

/-- Names of options that are not requests and can be told apart from their value. -/
structure IsOptionName (name : Text) : Prop where
  nonempty : name ≠ []
  whole : '=' ∉ name
  not_help : name ≠ "help".toList
  not_version : name ≠ "version".toList

/-- A command line that makes sense after what is already given, and what is given after it. -/
inductive Grammar.Reads (grammar : Grammar) :
    Arguments → Bool → List Text → Arguments → Prop where
  | done (given : Arguments) (ended : Bool) : Reads grammar given ended [] given
  | positional {given more result : Arguments} {ended : Bool} {arg : Text} {rest : List Text}
      (plain : (ended || isValue arg) = true) (taken : grammar.positional? given arg = some more)
      (onward : Reads grammar more ended rest result) :
      Reads grammar given ended (arg :: rest) result
  | dashes {given result : Arguments} {rest : List Text}
      (onward : Reads grammar given true rest result) :
      Reads grammar given false (dashed [] :: rest) result
  | option {given result : Arguments} {name : Text} {value : Option Text}
      {words rest : List Text} (named : IsOptionName name) (fresh : given.has name = false)
      (spelled : grammar.Spelled name value words rest.head?)
      (onward : Reads grammar (given.addOption name value) false rest result) :
      Reads grammar given false (words ++ rest) result

/-- The argument is an option with this name, whatever is attached to it. -/
def Calls (arg name : Text) : Prop := arg = dashed name ∨ dashed name ++ ['='] <+: arg

instance (arg name : Text) : Decidable (Calls arg name) := inferInstanceAs (Decidable (_ ∨ _))

/-- An argument before the first `--` calls for the option. -/
def Asks (args : List Text) (name : Text) : Prop :=
  ∃ arg ∈ args.takeWhile (· != dashed []), Calls arg name

instance (args : List Text) (name : Text) : Decidable (Asks args name) :=
  inferInstanceAs (Decidable (∃ arg ∈ args.takeWhile (· != dashed []), Calls arg name))

/-- What was given besides one option. -/
def Arguments.without (given : Arguments) (name : Text) : Arguments :=
  { given with options := given.options.filter fun o => o.1 != name }

/-! ## The words of an option -/

theorem splitAttached_of_whole {name : Text} (h : '=' ∉ name) :
    splitAttached name = (name, none) := by
  have hname : name.takeWhile (· != '=') = name := by
    rw [List.takeWhile_eq_self_iff]
    intro c hc
    rw [bne_iff_ne]
    rintro rfl
    exact h hc
  simp [splitAttached, hname]

theorem splitAttached_append {name : Text} (h : '=' ∉ name) (v : Text) :
    splitAttached (name ++ '=' :: v) = (name, some v) := by
  have hname : (name ++ '=' :: v).takeWhile (· != '=') = name := by
    rw [List.takeWhile_append_of_pos, List.takeWhile_cons_of_neg (by decide), List.append_nil]
    intro c hc
    rw [bne_iff_ne]
    rintro rfl
    exact h hc
  simp [splitAttached, hname]

/-- A name and what is attached to it are the two sides of the first equals sign. -/
theorem splitAttached_cases (t : Text) :
    ('=' ∉ t ∧ splitAttached t = (t, none)) ∨
      ∃ name v, '=' ∉ name ∧ t = name ++ '=' :: v ∧ splitAttached t = (name, some v) := by
  by_cases h : '=' ∈ t
  · obtain ⟨name, v, rfl, hname⟩ := List.eq_append_cons_of_mem h
    exact .inr ⟨name, v, hname, rfl, splitAttached_append hname v⟩
  · exact .inl ⟨h, splitAttached_of_whole h⟩

theorem value?_attached_iff {takes : Takes} {v : Text} {next value : Option Text} {used : Bool} :
    takes.value? (some v) next = some (value, used) ↔
      ∃ accepts, takes.accepts? = some accepts ∧ accepts.ok v = true ∧ value = some v ∧
        used = false := by
  cases takes with
  | nothing => simp [Takes.value?, Takes.accepts?]
  | value accepts | optionalValue accepts _ =>
    constructor
    · intro h
      by_cases hok : accepts.ok v = true
      · simp only [Takes.value?, hok, ↓reduceIte] at h
        cases h
        exact ⟨accepts, rfl, hok, rfl, rfl⟩
      · simp [Takes.value?, hok] at h
    · rintro ⟨_, ⟨⟩, hok, rfl, rfl⟩
      simp [Takes.value?, hok]

/-- Without a value attached, the next argument is the value, or there is none, or there is one that
the option stands for. -/
theorem spelled_of_value? {grammar : Grammar} {name : Text} {takes : Takes}
    (known : grammar.options.lookup name = some takes) {next value : Option Text} {used : Bool}
    (h : takes.value? none next = some (value, used)) :
    (used = false ∧ grammar.Spelled name value [dashed name] next) ∨
      used = true ∧ ∃ v, next = some v ∧
        ∀ after, grammar.Spelled name value [dashed name, v] after := by
  cases takes with
  | nothing =>
    cases h
    exact .inl ⟨rfl, .flag known⟩
  | value accepts =>
    cases next with
    | none => cases h
    | some v =>
      by_cases hgood : (isValue v && accepts.ok v) = true
      · simp only [Takes.value?, hgood, ↓reduceIte] at h
        cases h
        obtain ⟨hplain, hok⟩ := Bool.and_eq_true_iff.mp hgood
        exact .inr ⟨rfl, v, rfl, fun after => .spaced known rfl hplain hok⟩
      · simp [Takes.value?, hgood] at h
  | optionalValue accepts d =>
    cases next with
    | none =>
      cases h
      exact .inl ⟨rfl, .default known nofun⟩
    | some v =>
      by_cases hplain : isValue v = true
      · by_cases hok : accepts.ok v = true
        · simp only [Takes.value?, hplain, hok, Bool.not_true, Bool.false_eq_true,
            ↓reduceIte] at h
          cases h
          exact .inr ⟨rfl, v, rfl, fun after => .spaced known rfl hplain hok⟩
        · simp [Takes.value?, hplain, hok] at h
      · simp only [Takes.value?, hplain, Bool.not_false, ↓reduceIte] at h
        cases h
        refine .inl ⟨rfl, .default known ?_⟩
        rintro w ⟨⟩
        exact Bool.eq_false_iff.mpr hplain

/-! ## Reading -/

section
variable {grammar : Grammar} {given more result : Arguments} {name option word : Text}
  {attached next value : Option Text} {used : Bool} {words rest args : List Text}

theorem long_eq_ok_iff (hsplit : splitAttached option = (name, attached)) :
    grammar.long given option next = .ok (more, used) ↔
      name ≠ "help".toList ∧ name ≠ "version".toList ∧ given.has name = false ∧
        ∃ takes value, grammar.options.lookup name = some takes ∧
          takes.value? attached next = some (value, used) ∧ more = given.addOption name value := by
  constructor
  · intro h
    simp only [Grammar.long, hsplit] at h
    split at h
    · cases h
    split at h
    · cases h
    split at h
    · cases h
    rename_i hhelp hversion hgiven
    split at h
    · rename_i v u hvalue
      obtain ⟨takes, hknown, hvalue⟩ := Option.bind_eq_some_iff.mp hvalue
      cases h
      exact ⟨hhelp, hversion, Bool.eq_false_iff.mpr hgiven, takes, v, hknown, hvalue, rfl⟩
    · cases h
  · rintro ⟨hhelp, hversion, hgiven, takes, v, hknown, hvalue, rfl⟩
    simp only [Grammar.long, hsplit, if_neg hhelp, if_neg hversion, hgiven, Bool.false_eq_true,
      ↓reduceIte, hknown, Option.bind_some, hvalue]

theorem readFrom_positional {ended : Bool} (plain : (ended || isValue word) = true)
    (taken : grammar.positional? given word = some more) :
    grammar.readFrom given ended (word :: rest) = grammar.readFrom more ended rest := by
  rw [Grammar.readFrom.eq_def]
  simp only [plain, ↓reduceIte, taken]

theorem readFrom_dashes :
    grammar.readFrom given false (dashed [] :: rest) = grammar.readFrom given true rest := by
  rw [Grammar.readFrom.eq_def]
  rfl

theorem readFrom_option (hword : isValue word = false) (hdashes : word ≠ dashed [])
    (h : grammar.option given rest.head? word = .ok (more, false)) :
    grammar.readFrom given false (word :: rest) = grammar.readFrom more false rest := by
  have hends : word ≠ "--".toList := hdashes
  rw [Grammar.readFrom.eq_def]
  simp only [hword, Bool.or_self, Bool.false_eq_true, ↓reduceIte, hends, h]

theorem readFrom_option_value {v : Text} (hword : isValue word = false) (hdashes : word ≠ dashed [])
    (h : grammar.option given (some v) word = .ok (more, true)) :
    grammar.readFrom given false (word :: v :: rest) = grammar.readFrom more false rest := by
  have hends : word ≠ "--".toList := hdashes
  rw [Grammar.readFrom.eq_def]
  simp only [hword, Bool.or_self, Bool.false_eq_true, ↓reduceIte, hends, List.head?_cons, h]

theorem IsOptionName.dashed_ne (named : IsOptionName name) (more : Text) :
    dashed name ++ more ≠ dashed [] := by
  intro h
  have hname : name ++ more = [] := by simpa [dashed] using h
  exact named.nonempty (List.append_eq_nil_iff.mp hname).1

/-- An option is read as it is spelled. -/
theorem Grammar.Spelled.readFrom_append (named : IsOptionName name) (fresh : given.has name = false)
    (h : grammar.Spelled name value words rest.head?) :
    grammar.readFrom given false (words ++ rest) =
      grammar.readFrom (given.addOption name value) false rest := by
  have halone := splitAttached_of_whole named.whole
  have hword : dashed name ≠ dashed [] := by simpa using named.dashed_ne []
  cases h with
  | flag known =>
    apply readFrom_option rfl hword
    exact (long_eq_ok_iff halone).mpr
      ⟨named.not_help, named.not_version, fresh, _, _, known, rfl, rfl⟩
  | attached known valued accepted =>
    apply readFrom_option rfl (named.dashed_ne _)
    refine (long_eq_ok_iff (splitAttached_append named.whole _)).mpr
      ⟨named.not_help, named.not_version, fresh, _, _, known, ?_, rfl⟩
    exact value?_attached_iff.mpr ⟨_, valued, accepted, rfl, rfl⟩
  | @spaced takes accepts v _ known valued plain accepted =>
    apply readFrom_option_value rfl hword
    refine (long_eq_ok_iff halone).mpr
      ⟨named.not_help, named.not_version, fresh, takes, _, known, ?_, rfl⟩
    cases takes <;> cases valued <;> simp [Takes.value?, plain, accepted]
  | @default accepts v _ known alone =>
    have hvalue : (Takes.optionalValue accepts v).value? none rest.head? =
        some (some v, false) := by
      cases hnext : rest.head? with
      | none => rfl
      | some w => simp [Takes.value?, alone w hnext]
    apply readFrom_option rfl hword
    exact (long_eq_ok_iff halone).mpr
      ⟨named.not_help, named.not_version, fresh, _, _, known, hvalue, rfl⟩

theorem Grammar.Reads.readFrom_eq {ended : Bool} (h : grammar.Reads given ended args result) :
    grammar.readFrom given ended args = .run result := by
  induction h with
  | done given ended => rfl
  | positional plain taken _ ih => rw [readFrom_positional plain taken, ih]
  | dashes _ ih => rw [readFrom_dashes, ih]
  | option named fresh spelled _ ih => rw [spelled.readFrom_append named fresh, ih]

/-- An argument that is accepted as an option spells one, with the next argument if this is used
up. -/
theorem spelled_of_option (hnames : grammar.options.lookup [] = none)
    (h : grammar.option given next word = .ok (more, used)) :
    ∃ name value, IsOptionName name ∧ given.has name = false ∧ more = given.addOption name value ∧
      ((used = false ∧ grammar.Spelled name value [word] next) ∨
        used = true ∧ ∃ v, next = some v ∧
          ∀ after, grammar.Spelled name value [word, v] after) := by
  have hnonempty : ∀ {name takes}, grammar.options.lookup name = some takes → name ≠ [] := by
    rintro _ takes hknown rfl
    rw [hnames] at hknown
    cases hknown
  unfold Grammar.option at h
  split at h
  · rename_i option
    obtain ⟨hwhole, hsplit⟩ | ⟨name, v, hwhole, rfl, hsplit⟩ := splitAttached_cases option
    · obtain ⟨hhelp, hversion, fresh, takes, value, known, hvalue, rfl⟩ :=
        (long_eq_ok_iff hsplit).mp h
      exact ⟨option, value, ⟨hnonempty known, hwhole, hhelp, hversion⟩, fresh, rfl,
        spelled_of_value? known hvalue⟩
    · obtain ⟨hhelp, hversion, fresh, takes, value, known, hvalue, rfl⟩ :=
        (long_eq_ok_iff hsplit).mp h
      obtain ⟨accepts, valued, accepted, rfl, rfl⟩ := value?_attached_iff.mp hvalue
      exact ⟨name, some v, ⟨hnonempty known, hwhole, hhelp, hversion⟩, fresh, rfl,
        .inl ⟨rfl, .attached known valued accepted⟩⟩
  · cases h
  · cases h
  · cases h

theorem Grammar.option_ne_run (arguments : Arguments) :
    grammar.option given next word ≠ .error (.run arguments) := by
  intro h
  unfold Grammar.option at h
  split at h
  · simp only [Grammar.long] at h
    split at h
    · split at h <;> cases h
    split at h
    · split at h <;> cases h
    split at h
    · cases h
    split at h <;> cases h
  · cases h
  · cases h
  · cases h

theorem reads_of_readFrom (hnames : grammar.options.lookup [] = none) {ended : Bool}
    (h : grammar.readFrom given ended args = .run result) :
    grammar.Reads given ended args result := by
  fun_induction Grammar.readFrom grammar given ended args with
  | case1 given ended =>
    obtain rfl : given = result := Request.run.inj h
    exact .done given ended
  | case2 given ended arg rest plain more taken ih => exact .positional plain taken (ih h)
  | case3 => cases h
  | case4 given ended rest plain ih =>
    obtain rfl : ended = false := by grind
    exact .dashes (ih h)
  | case5 given ended arg rest plain hends request hoption =>
    simp only [hoption] at h
    subst h
    exact absurd hoption (Grammar.option_ne_run result)
  | case6 given ended arg plain hends more v rest hoption ih =>
    obtain rfl : ended = false := by grind
    simp only [hoption] at h
    obtain ⟨name, value, named, fresh, rfl, ⟨⟨⟩, _⟩ | ⟨_, _, ⟨⟩, spelled⟩⟩ :=
      spelled_of_option hnames hoption
    exact Grammar.Reads.option named fresh (spelled rest.head?) (ih h)
  | case7 given ended arg plain hends more used rest hunused hoption ih =>
    obtain rfl : ended = false := by grind
    obtain ⟨name, value, named, fresh, rfl, ⟨rfl, spelled⟩ | ⟨rfl, v, hv, _⟩⟩ :=
      spelled_of_option hnames hoption
    · simp only [hoption] at h
      exact Grammar.Reads.option named fresh spelled (ih h)
    · -- A value that is used up is there, and then the case before this one applies.
      obtain ⟨tail, rfl⟩ := List.head?_eq_some_iff.mp hv
      exact (hunused v tail rfl rfl).elim

theorem readFrom_eq_run_iff (hnames : grammar.options.lookup [] = none) {ended : Bool} :
    grammar.readFrom given ended args = .run result ↔ grammar.Reads given ended args result :=
  ⟨reads_of_readFrom hnames, Grammar.Reads.readFrom_eq⟩

/-! ## What the words ask for -/

theorem asks_cons {arg : Text} : Asks (arg :: rest) name ↔
    arg ≠ dashed [] ∧ (Calls arg name ∨ Asks rest name) := by
  unfold Asks
  by_cases h : arg = dashed []
  · simp [h]
  · simp [h]

theorem calls_dashed_iff {t : Text} (whole : '=' ∉ name) :
    Calls (dashed t) name ↔ (splitAttached t).1 = name := by
  constructor
  · rintro (h | ⟨v, h⟩)
    · obtain rfl : t = name := by simpa [dashed] using h
      rw [splitAttached_of_whole whole]
    · obtain rfl : name ++ '=' :: v = t := by simpa [dashed] using h
      rw [splitAttached_append whole]
  · rintro rfl
    obtain ⟨_, hsplit⟩ | ⟨name, v, _, rfl, hsplit⟩ := splitAttached_cases t
    · exact .inl (by rw [hsplit])
    · exact .inr ⟨v, by simp [hsplit, dashed]⟩

theorem not_calls_of_isValue {v : Text} (plain : isValue v = true) : ¬ Calls v name := by
  rintro (rfl | ⟨w, rfl⟩) <;> cases plain

theorem asks_value_cons {v : Text} (plain : isValue v = true) :
    Asks (v :: rest) name ↔ Asks rest name := by
  have hdashes : v ≠ dashed [] := by
    rintro rfl
    cases plain
  simp [asks_cons, hdashes, not_calls_of_isValue plain]

/-- The words of an option ask for nothing else. -/
theorem Grammar.Spelled.asks_append {other : Text} (named : IsOptionName name)
    (whole : '=' ∉ other) (h : grammar.Spelled name value words next) :
    Asks (words ++ rest) other ↔ name = other ∨ Asks rest other := by
  have hword : dashed name ≠ dashed [] := by simpa using named.dashed_ne []
  have hcalls : Calls (dashed name) other ↔ name = other := by
    rw [calls_dashed_iff whole, splitAttached_of_whole named.whole]
  cases h with
  | flag _ | default _ _ => simp [asks_cons, hword, hcalls]
  | spaced _ _ plain _ => simp [asks_cons, hword, hcalls, asks_value_cons plain]
  | @attached _ _ v _ _ _ _ =>
    have hwords : Calls (dashed name ++ '=' :: v) other ↔ name = other := by
      rw [show dashed name ++ '=' :: v = dashed (name ++ '=' :: v) from rfl,
        calls_dashed_iff whole, splitAttached_append named.whole]
    rw [List.singleton_append, asks_cons, hwords]
    simp [named.dashed_ne]

@[simp] theorem has_addOption (given : Arguments) (name other : Text) (value : Option Text) :
    (given.addOption name value).has other = (given.has other || name == other) := by
  simp [Arguments.has, Arguments.addOption]

@[simp] theorem has_addPositional (given : Arguments) (arg other : Text) :
    (given.addPositional arg).has other = given.has other := rfl

theorem positional?_eq_some_iff {arg : Text} : grammar.positional? given arg = some more ↔
    ∃ accepts, grammar.positionals[given.positionals.length]? = some accepts ∧
      accepts.ok arg = true ∧ more = given.addPositional arg := by
  unfold Grammar.positional?
  constructor
  · intro h
    split at h
    · rename_i accepts hslot
      split at h
      · exact ⟨accepts, hslot, by assumption, (Option.some.inj h).symm⟩
      · cases h
    · cases h
  · rintro ⟨accepts, hslot, hok, rfl⟩
    rw [hslot]
    exact if_pos hok

/-- What is given in the end is what was given before and what the words ask for. -/
theorem Grammar.Reads.has_iff {other : Text} (whole : '=' ∉ other) {ended : Bool}
    (h : grammar.Reads given ended args result) :
    result.has other = true ↔ given.has other = true ∨ ended = false ∧ Asks args other := by
  induction h with
  | done given ended => simp [Asks]
  | @positional given more result ended arg rest plain taken _ ih =>
    obtain ⟨_, _, _, rfl⟩ := positional?_eq_some_iff.mp taken
    cases ended with
    | true => simpa using ih
    | false => simpa [asks_value_cons plain] using ih
  | dashes _ ih => simpa [asks_cons] using ih
  | option named fresh spelled _ ih =>
    rw [ih, spelled.asks_append named whole]
    simp [or_assoc]

theorem Grammar.Reads.has_iff_asks {other : Text} (whole : '=' ∉ other)
    (h : grammar.Reads {} false args result) : result.has other = true ↔ Asks args other := by
  simpa [Arguments.has] using h.has_iff whole

/-! ## Taking an option out -/

theorem without_eq_self (h : given.has name = false) : given.without name = given := by
  have hkept : given.options.filter (fun o => o.1 != name) = given.options := by
    rw [List.filter_eq_self]
    simpa [Arguments.has] using h
  rw [Arguments.without, hkept]

theorem has_without {other : Text} (hne : other ≠ name) :
    (given.without name).has other = given.has other := by
  rw [Bool.eq_iff_iff]
  simp only [Arguments.has, Arguments.without, List.any_filter, List.any_eq_true]
  grind

theorem value?_without {other : Text} (hne : other ≠ name) :
    (given.without name).value? other = given.value? other := by
  have hfind : (given.options.filter fun o => o.1 != name).find? (fun o => o.1 == other) =
      given.options.find? fun o => o.1 == other := by
    rw [List.find?_filter]
    congr 1
    grind
  rw [Arguments.value?, Arguments.without, hfind, Arguments.value?]

theorem value?_without_self : (given.without name).value? name = none := by
  have hgone : (given.options.filter fun o => o.1 != name).find? (fun o => o.1 == name) = none := by
    rw [List.find?_eq_none]
    intro o ho
    simpa using (List.mem_filter.mp ho).2
  rw [Arguments.value?, Arguments.without, hgone, Option.bind_none]

theorem addOption_without_self :
    (given.addOption name value).without name = given.without name := by
  simp [Arguments.without, Arguments.addOption]

theorem addOption_without {other : Text} (hne : other ≠ name) :
    (given.addOption other value).without name = (given.without name).addOption other value := by
  simp [Arguments.without, Arguments.addOption, hne]

/-- Once an option is given, what follows does not depend on it. -/
theorem Grammar.Reads.without {ended : Bool} (h : grammar.Reads given ended args result)
    (hgiven : given.has name = true) :
    grammar.Reads (given.without name) ended args (result.without name) := by
  induction h with
  | done given ended => exact .done _ ended
  | positional plain taken _ ih =>
    obtain ⟨accepts, hslot, hok, rfl⟩ := positional?_eq_some_iff.mp taken
    exact .positional plain (positional?_eq_some_iff.mpr ⟨accepts, hslot, hok, rfl⟩) (ih hgiven)
  | dashes _ ih => exact .dashes (ih hgiven)
  | @option given result other value words rest named fresh spelled _ ih =>
    have hne : other ≠ name := by
      rintro rfl
      rw [fresh] at hgiven
      cases hgiven
    have onward := ih (by simp [hgiven])
    rw [addOption_without hne] at onward
    exact .option named (by rw [has_without hne, fresh]) spelled onward

theorem value?_addOption_self (h : given.has name = false) :
    (given.addOption name value).value? name = value := by
  have hnone : given.options.find? (fun o => o.1 == name) = none := by
    simpa [Arguments.has] using h
  simp [Arguments.value?, Arguments.addOption, List.find?_append, hnone]

theorem value?_addOption (h : given.has name = true) (other : Text) :
    (given.addOption other value).value? name = given.value? name := by
  obtain ⟨o, ho⟩ : ∃ o, given.options.find? (fun o => o.1 == name) = some o := by
    rw [← Option.isSome_iff_exists, List.find?_isSome]
    simpa [Arguments.has] using h
  simp [Arguments.value?, Arguments.addOption, List.find?_append, ho]

/-- An option keeps the value that it was given. -/
theorem Grammar.Reads.value?_eq {ended : Bool} (h : grammar.Reads given ended args result)
    (hgiven : given.has name = true) : result.value? name = given.value? name := by
  induction h with
  | done => rfl
  | positional _ taken _ ih =>
    obtain ⟨_, _, _, rfl⟩ := positional?_eq_some_iff.mp taken
    exact ih hgiven
  | dashes _ ih => exact ih hgiven
  | @option given result other _ _ _ _ _ _ _ ih =>
    rw [ih (by simp [hgiven]), value?_addOption hgiven]

theorem has_of_value? {v : Text} (h : given.value? name = some v) : given.has name = true := by
  obtain ⟨o, ho, _⟩ := Option.bind_eq_some_iff.mp h
  have hname := List.find?_some ho
  exact List.any_eq_true.mpr ⟨o, List.mem_of_find?_eq_some ho, hname⟩

/-- An option that is not a mere flag has a value whenever it is given. -/
theorem Grammar.Reads.value?_ne_none {takes : Takes} {ended : Bool}
    (h : grammar.Reads given ended args result)
    (known : grammar.options.lookup name = some takes) (valued : takes ≠ .nothing)
    (hgiven : given.has name = true → given.value? name ≠ none) (hresult : result.has name = true) :
    result.value? name ≠ none := by
  induction h with
  | done => exact hgiven hresult
  | positional _ taken _ ih =>
    obtain ⟨_, _, _, rfl⟩ := positional?_eq_some_iff.mp taken
    exact ih hgiven hresult
  | dashes _ ih => exact ih hgiven hresult
  | @option given result other value words rest _ fresh spelled _ ih =>
    apply ih _ hresult
    intro hmore
    by_cases hold : given.has name = true
    · rw [value?_addOption hold]
      exact hgiven hold
    · obtain rfl : other = name := by simpa [hold] using hmore
      rw [value?_addOption_self fresh]
      rintro rfl
      cases spelled with
      | flag known' => exact valued (Option.some.inj (known.symm.trans known'))

theorem Grammar.Reads.has_eq_false {takes : Takes} (h : grammar.Reads {} false args result)
    (known : grammar.options.lookup name = some takes) (valued : takes ≠ .nothing)
    (hnone : result.value? name = none) : result.has name = false := by
  rw [Bool.eq_false_iff]
  intro hgiven
  exact h.value?_ne_none known valued nofun hgiven hnone

/-- No option of the grammar depends on what comes after its words. -/
def Grammar.Explicit (grammar : Grammar) : Prop :=
  ∀ name accepts v, grammar.options.lookup name ≠ some (.optionalValue accepts v)

theorem Grammar.Spelled.of_explicit (explicit : grammar.Explicit)
    (h : grammar.Spelled name value words next) (after : Option Text) :
    grammar.Spelled name value words after := by
  cases h with
  | flag known => exact .flag known
  | attached known valued accepted => exact .attached known valued accepted
  | spaced known valued plain accepted => exact .spaced known valued plain accepted
  | default known _ => exact (explicit _ _ _ known).elim

/-- An option stands somewhere in the command line, and without its words the rest is read as
before. -/
theorem Grammar.Reads.split (explicit : grammar.Explicit) {ended : Bool}
    (h : grammar.Reads given ended args result) (hfresh : given.has name = false)
    (hresult : result.has name = true) :
    ∃ before words behind, args = before ++ words ++ behind ∧
      grammar.Spelled name (result.value? name) words behind.head? ∧
      grammar.Reads given ended (before ++ behind) (result.without name) := by
  induction h with
  | done given =>
    rw [hfresh] at hresult
    cases hresult
  | @positional given more result ended arg rest plain taken _ ih =>
    have hmore : more.has name = false := by
      obtain ⟨_, _, _, rfl⟩ := positional?_eq_some_iff.mp taken
      exact hfresh
    obtain ⟨before, words, behind, rfl, spelled, onward⟩ := ih hmore hresult
    exact ⟨arg :: before, words, behind, rfl, spelled, .positional plain taken onward⟩
  | dashes _ ih =>
    obtain ⟨before, words, behind, rfl, spelled, onward⟩ := ih hfresh hresult
    exact ⟨dashed [] :: before, words, behind, rfl, spelled, .dashes onward⟩
  | @option given result other value words rest named fresh spelled onward ih =>
    by_cases hname : other = name
    · -- The words are those of this option, and what follows does not look at it.
      subst hname
      have hvalue : result.value? other = value := by
        rw [onward.value?_eq (by simp), value?_addOption_self fresh]
      have hrest : grammar.Reads _ false rest (result.without other) := onward.without (by simp)
      rw [addOption_without_self, without_eq_self fresh] at hrest
      exact ⟨[], words, rest, rfl, hvalue ▸ spelled, hrest⟩
    · -- Words further on can go: this option is spelled the same whatever comes next.
      obtain ⟨before, words', behind, rfl, spelled', onward'⟩ :=
        ih (by simp [hfresh, hname]) hresult
      refine ⟨words ++ before, words', behind, by simp, spelled', ?_⟩
      rw [List.append_assoc]
      exact .option named fresh (spelled.of_explicit explicit _) onward'

end

end Uvm.Tool
