import Uvm.Disk
import Uvm.Proofs.CommandLine
import Uvm.Tool.Standard

/-! What the tools do to files. It does not depend on how the command line and the configuration are
read, nor on the file system, as long as a write is done as a whole or not at all: a run that fails
leaves all files as they are, and a run that succeeds writes at most one file. The assembler writes
its sample or the machine code of its source, the disassembler the text that it prints when it is
not told to write it. -/
namespace Uvm

/-- What is written as text is read back as this text. -/
theorem ofUtf8?_utf8 (t : Text) : ofUtf8? (utf8 t) = some t := by
  have hbytes : (⟨(utf8 t).toArray⟩ : ByteArray) = (String.ofList t).toByteArray := rfl
  rw [ofUtf8?, hbytes, String.fromUTF8?, dif_pos (String.ofList t).isValidUTF8]
  exact congrArg some String.toList_ofList

/-- What there is to see of a file system: what its files hold, and to which file a path leads when
it is written to. -/
structure View (σ File : Type) where
  holds : σ → File → Option (List UInt8)
  leads : σ → Text → Option File

variable {σ File : Type}

namespace View

/-- All files are as before. -/
def Same (view : View σ File) (s after : σ) : Prop :=
  ∀ file, view.holds after file = view.holds s file

/-- How the files are after some content was written to a path: the file that the path leads to
holds the content and every other file is as before. A path that leads to no file, as that of a
device, changes none. -/
inductive Saved (view : View σ File) (s : σ) (path : Text) (content : List UInt8) (after : σ) :
    Prop where
  | file {file : File} (leads : view.leads s path = some file)
      (holds : view.holds after file = some content)
      (kept : ∀ other, other ≠ file → view.holds after other = view.holds s other)
  | elsewhere (leads : view.leads s path = none) (same : view.Same s after)

end View

namespace FileSystem

/-- A write that is refused changes no file, and one that is not saves the whole content. -/
structure Atomic (files : FileSystem σ) (view : View σ File) : Prop where
  refused : ∀ s path content fault, (files.write s path content).2 = .error fault →
    view.Same s (files.write s path content).1
  written : ∀ s path content, (files.write s path content).2 = .ok () →
    view.Saved s path content (files.write s path content).1

/-- The file at a path can be read as a text. -/
def HoldsText (files : FileSystem σ) (s : σ) (path t : Text) : Prop :=
  ∃ bytes, files.read s path = .ok bytes ∧ ofUtf8? bytes = some t

end FileSystem

namespace Plan

variable {α β : Type}

theorem runOn_bind (files : FileSystem σ) (plan : Plan α) (next : α → Plan β) (s : σ) :
    (plan.bind next).runOn files s =
      (next (plan.runOn files s).1).runOn files (plan.runOn files s).2 := by
  induction plan generalizing s with
  | done result => rfl
  | read path k ih => exact ih _ s
  | write path content k ih => exact ih _ _

theorem runOn_readText (files : FileSystem σ) (path : Text) (s : σ) :
    ∃ answer, (Plan.readText path).runOn files s = (answer, s) ∧
      ∀ t, answer = .ok t → files.HoldsText s path t := by
  simp only [Plan.readText, Plan.runOn]
  cases hread : files.read s path with
  | error fault => exact ⟨_, rfl, nofun⟩
  | ok bytes =>
    cases htext : ofUtf8? bytes with
    | none =>
      simp only [htext]
      exact ⟨_, rfl, nofun⟩
    | some t =>
      simp only [htext]
      refine ⟨_, rfl, ?_⟩
      rintro _ ⟨⟩
      exact ⟨bytes, hread, htext⟩

end Plan

namespace Disk

/-- The files of a disk, each at its place. -/
def view : View Disk Place where
  holds disk place :=
    match disk.entryAt place with
    | some (.file content) => some content
    | _ => none
  leads disk path :=
    match disk.target path with
    | .ok (.name parent name) =>
      if disk.entryAt (parent ++ [name]) = some .device then none else some (parent ++ [name])
    | _ => none

variable {disk : Disk}

theorem entryAt_of_ne_nil {place : Place} (h : place ≠ []) :
    disk.entryAt place = (disk.entries.find? fun e => e.1 == place).map (·.2) := by
  cases place with
  | nil => exact (h rfl).elim
  | cons => rfl

theorem entryAt_insert_self {place : Place} (h : place ≠ []) (entry : Entry) :
    (disk.insert place entry).entryAt place = some entry := by
  have hgone : (disk.entries.filter fun e => e.1 != place).find? (fun e => e.1 == place) =
      none := by
    simp
  rw [entryAt_of_ne_nil h, insert, List.find?_append, hgone]
  simp

theorem entryAt_insert_of_ne {place other : Place} (h : other ≠ place) (entry : Entry) :
    (disk.insert place entry).entryAt other = disk.entryAt other := by
  by_cases hother : other = []
  · subst hother
    rfl
  have hkept : (disk.entries.filter fun e => e.1 != place).find? (fun e => e.1 == other) =
      disk.entries.find? fun e => e.1 == other := by
    rw [List.find?_filter]
    congr 1
    grind
  rw [entryAt_of_ne_nil hother, entryAt_of_ne_nil hother, insert, List.find?_append, hkept]
  simp [h.symm]

theorem saved_insert {path : Text} {parent : Place} {name : Text} (content : List UInt8)
    (htarget : disk.target path = .ok (.name parent name))
    (hentry : disk.entryAt (parent ++ [name]) ≠ some .device) :
    view.Saved disk path content (disk.insert (parent ++ [name]) (.file content)) := by
  have hleads : view.leads disk path = some (parent ++ [name]) := by
    simp only [view, htarget, if_neg hentry]
  refine .file hleads ?_ fun other hother => ?_
  · simp only [view, entryAt_insert_self (List.append_ne_nil_of_right_ne_nil parent
      (List.cons_ne_nil name [])) (.file content)]
  · simp only [view, entryAt_insert_of_ne hother]

/-- What a disk does with a write: it refuses it and stays as it is, or it saves the content. -/
theorem write_cases (disk : Disk) (path : Text) (content : List UInt8) :
    (∃ fault, disk.write path content = (disk, .error fault)) ∨
      ∃ after, disk.write path content = (after, .ok ()) ∧
        view.Saved disk path content after := by
  unfold write
  cases htarget : disk.target path with
  | error fault => exact .inl ⟨fault, rfl⟩
  | ok target =>
    cases target with
    | folder => exact .inl ⟨_, rfl⟩
    | name parent name =>
      dsimp only
      split
      · exact .inl ⟨_, rfl⟩
      split
      · exact .inl ⟨_, rfl⟩
      split
      · exact .inl ⟨_, rfl⟩
      · next hdevice =>
        refine .inr ⟨disk, rfl, .elsewhere ?_ fun _ => rfl⟩
        simp only [view, htarget, hdevice, ↓reduceIte]
      · next hdevice => exact .inr ⟨_, rfl, saved_insert content htarget hdevice⟩

theorem files_atomic : files.Atomic view := by
  constructor
  · intro disk path content fault h
    rcases disk.write_cases path content with ⟨_, hwrite⟩ | ⟨after, hwrite, -⟩
    · change view.Same disk (disk.write path content).1
      rw [hwrite]
      exact fun _ => rfl
    · rw [show files.write disk path content = _ from hwrite] at h
      cases h
  · intro disk path content h
    rcases disk.write_cases path content with ⟨_, hwrite⟩ | ⟨after, hwrite, hsaved⟩
    · rw [show files.write disk path content = _ from hwrite] at h
      cases h
    · rw [show files.write disk path content = _ from hwrite]
      exact hsaved

end Disk

namespace Tool

/-- A run that fails leaves all files as they are, and one that succeeds leaves the file system in a
state that it may leave it in. -/
structure Ends (view : View σ File) (s : σ) (good : σ → Prop) (ended : Report × σ) : Prop where
  unchanged : ended.1.code ≠ 0 → view.Same s ended.2
  changed : ended.1.code = 0 → good ended.2

section
variable {files : FileSystem σ} {view : View σ File} {s : σ} {good : σ → Prop}

theorem ends_of_failed {report : Report} (h : report.code ≠ 0) : Ends view s good (report, s) :=
  ⟨fun _ _ => rfl, fun hzero => (h hzero).elim⟩

theorem ends_of_good (report : Report) (h : good s) : Ends view s good (report, s) :=
  ⟨fun _ _ => rfl, fun _ => h⟩

/-- A file is written last: from then on nothing can fail. -/
theorem ends_write (hfiles : files.Atomic view) {path : Text} {content : List UInt8}
    {next : Except FileFault Unit → Plan Report}
    (hfailed : ∀ fault, ∃ report, next (.error fault) = .done report ∧ report.code ≠ 0)
    (hdone : ∃ report, next (.ok ()) = .done report ∧ report.code = 0)
    (hgood : ∀ after, view.Saved s path content after → good after) :
    Ends view s good ((Plan.write path content next).runOn files s) := by
  rw [Plan.runOn]
  cases hwrite : (files.write s path content).2 with
  | error fault =>
    obtain ⟨report, hnext, hcode⟩ := hfailed fault
    simp only [hwrite, hnext]
    exact ⟨fun _ => hfiles.refused s path content fault hwrite, fun hzero => (hcode hzero).elim⟩
  | ok =>
    obtain ⟨report, hnext, hcode⟩ := hdone
    simp only [hwrite, hnext]
    exact ⟨fun hne => (hne hcode).elim, fun _ => hgood _ (hfiles.written s path content hwrite)⟩

theorem ends_readText {path : Text} {next : Except Text Text → Plan Report}
    (hunread : ∀ message, Ends view s good ((next (.error message)).runOn files s))
    (hread : ∀ t, files.HoldsText s path t → Ends view s good ((next (.ok t)).runOn files s)) :
    Ends view s good (((Plan.readText path).bind next).runOn files s) := by
  obtain ⟨answer, hrun, hholds⟩ := Plan.runOn_readText files path s
  rw [Plan.runOn_bind, hrun]
  cases answer with
  | error message => exact hunread message
  | ok t => exact hread t (hholds t rfl)

end

theorem reading_eq_run_iff {Options : Type} {help version : Text}
    {options? : Arguments → Option Options} {request : Request} {options : Options} :
    request.reading help version options? = .run options ↔
      ∃ given, request = .run given ∧ options? given = some options := by
  cases request with
  | run given => cases h : options? given <;> simp [Request.reading, h]
  | help | version | refused => simp [Request.reading]

namespace Assembler

/-- The options are those that the words of the command line ask for. -/
structure Options.Follows (options : Options) (args : List Text) : Prop where
  selfCheck : options.selfCheck = true ↔ Asks args "self-check"
  writeSample : options.writeSample ≠ none ↔ Asks args "write-sample"
  showCommands : options.showCommands = true ↔ Asks args "ir"
  bestEffort : options.bestEffort = true ↔ Asks args "best-effort"
  rejectOverflow : options.rejectOverflow = true ↔ Asks args "reject-overflow"
  config : options.config ≠ none ↔ Asks args "config"

/-- Command lines are read as they are meant. -/
def Setup.Follows (setup : Setup) : Prop :=
  ∀ args options, setup.parse args = .run options → options.Follows args

/-- The settings in the configuration file, or the default ones if none is asked for. -/
inductive Setup.Configured (setup : Setup) (files : FileSystem σ) (s : σ) (args : List Text)
    (options : Options) : Settings → Prop where
  | default (unasked : ¬ Asks args "config") : Configured setup files s args options {}
  | file {path t : Text} {settings : Settings} (asked : options.config = some path)
      (holds : files.HoldsText s path t) (parsed : setup.config t = some settings) :
      Configured setup files s args options settings

/-- How the assembler may leave the files when it succeeds. -/
inductive Setup.Saves (setup : Setup) (files : FileSystem σ) (view : View σ File) (s : σ)
    (args : List Text) : σ → Prop where
  | exit {report : Report} (reads : setup.parse args = .exit report) :
      Saves setup files view s args s
  | nothing {options : Options} (reads : setup.parse args = .run options)
      (idle : Asks args "self-check" ∨ ¬ Asks args "write-sample" ∧
        (Asks args "ir" ∨ options.input = none ∨ options.output = none)) :
      Saves setup files view s args s
  | sample {options : Options} {path : Text} {bytes : List UInt8} {after : σ}
      (reads : setup.parse args = .run options) (unchecked : ¬ Asks args "self-check")
      (asked : Asks args "write-sample") (named : options.writeSample = some path)
      (content : ofUtf8? bytes = some Reference.sample) (saved : view.Saved s path bytes after) :
      Saves setup files view s args after
  | code {options : Options} {input output source : Text} {configured : Settings}
      {assembly : Assembly} {after : σ} (reads : setup.parse args = .run options)
      (unchecked : ¬ Asks args "self-check") (no_sample : ¬ Asks args "write-sample")
      (no_commands : ¬ Asks args "ir") (first : options.input = some input)
      (second : options.output = some output)
      (config : setup.Configured files s args options configured)
      (holds : files.HoldsText s input source)
      (assembled : assemble
        { errors := if Asks args "best-effort" then .bestEffort else configured.errors
          overflow := if Asks args "reject-overflow" then .reject else configured.overflow }
        source = .ok assembly)
      (nonempty : assembly.bytes ≠ []) (saved : view.Saved s output assembly.bytes after) :
      Saves setup files view s args after

section
variable {setup : Setup} {files : FileSystem σ} {view : View σ File} {s : σ} {good : σ → Prop}
  {args : List Text} {options : Options}

theorem runOn_readConfig (setup : Setup) (files : FileSystem σ) (s : σ)
    (hoptions : options.Follows args) :
    ∃ answer, (setup.readConfig options.config).runOn files s = (answer, s) ∧
      ∀ settings, answer = .ok settings →
        setup.Configured files s args options settings := by
  cases hconfig : options.config with
  | none =>
    refine ⟨.ok {}, rfl, ?_⟩
    rintro _ ⟨⟩
    exact .default fun hasks => hoptions.config.mpr hasks hconfig
  | some path =>
    obtain ⟨answer, hrun, hholds⟩ := Plan.runOn_readText files path s
    rw [Setup.readConfig, Plan.runOn_bind, hrun]
    cases answer with
    | error message => exact ⟨_, rfl, nofun⟩
    | ok t =>
      cases hparse : setup.config t with
      | none =>
        simp only [hparse]
        exact ⟨_, rfl, nofun⟩
      | some settings =>
        simp only [hparse]
        refine ⟨_, rfl, ?_⟩
        rintro _ ⟨⟩
        exact .file hconfig (hholds t rfl) hparse

/-- The reference encodings are right under all settings. -/
theorem selfCheck_code (before : Text) (settings : Settings) :
    (selfCheck before settings).code = 0 := by
  have hright : (Reference.check settings).countP (fun check => !check.passed) = 0 := by
    obtain ⟨errors, overflow⟩ := settings
    cases errors <;> cases overflow <;> decide +kernel
  simp only [selfCheck, hright, ↓reduceIte]
  rfl

theorem summary_code (test : Bool) (settings : Settings) (bytes : List UInt8) :
    (summary test settings bytes).code = 0 := by
  cases test with
  | false => rfl
  | true =>
    rw [summary, if_pos rfl]
    exact selfCheck_code _ settings

theorem writeSample_ends (hfiles : files.Atomic view) {path : Text}
    (hgood : ∀ bytes after, ofUtf8? bytes = some Reference.sample →
      view.Saved s path bytes after → good after) :
    Ends view s good ((writeSample path).runOn files s) :=
  ends_write hfiles (fun _ => ⟨_, rfl, nofun⟩) ⟨_, rfl, rfl⟩ fun after =>
    hgood _ after (ofUtf8?_utf8 Reference.sample)

theorem printCommands_ends (input : Option Text) (hgood : good s) :
    Ends view s good ((printCommands input).runOn files s) := by
  cases input with
  | none => exact ends_of_good _ hgood
  | some path =>
    apply ends_readText
    · intro message
      exact ends_of_good _ hgood
    · intro source _
      cases hresolve : resolveSource source with
      | error fault =>
        simp only [hresolve]
        exact ends_of_good _ hgood
      | ok commands =>
        simp only [hresolve]
        exact ends_of_good _ hgood

theorem assembleFile_ends (hfiles : files.Atomic view) {test : Bool} {settings : Settings}
    {input output : Text}
    (hgood : ∀ source assembly after, files.HoldsText s input source →
      assemble settings source = .ok assembly → assembly.bytes ≠ [] →
      view.Saved s output assembly.bytes after → good after) :
    Ends view s good ((assembleFile test settings input output).runOn files s) := by
  apply ends_readText
  · intro message
    exact ends_of_failed nofun
  intro source hholds
  cases hassemble : assemble settings source with
  | error fault =>
    simp only [hassemble]
    exact ends_of_failed nofun
  | ok assembly =>
    simp only [hassemble]
    by_cases hempty : assembly.bytes.isEmpty = true
    · simp only [hempty, ↓reduceIte]
      exact ends_of_failed nofun
    · simp only [hempty, Bool.false_eq_true, ↓reduceIte]
      have hbytes : assembly.bytes ≠ [] := by simpa using hempty
      refine ends_write hfiles (fun _ => ⟨_, rfl, nofun⟩)
        ⟨_, rfl, summary_code test settings _⟩ ?_
      intro after hsaved
      exact hgood source assembly after hholds hassemble hbytes hsaved

theorem override_eq (hoptions : options.Follows args) (configured : Settings) :
    options.override configured =
      { errors := if Asks args "best-effort" then .bestEffort else configured.errors
        overflow := if Asks args "reject-overflow" then .reject else configured.overflow } := by
  simp only [Options.override, hoptions.bestEffort, hoptions.rejectOverflow]

theorem execute_ends (hfiles : files.Atomic view) (hoptions : options.Follows args)
    (reads : setup.parse args = .run options) :
    Ends view s (setup.Saves files view s args) ((setup.execute options).runOn files s) := by
  obtain ⟨answer, hrun, hconfig⟩ := runOn_readConfig setup files s hoptions
  rw [Setup.execute, Plan.runOn_bind, hrun]
  cases answer with
  | error failure => exact ends_of_failed nofun
  | ok configured =>
    simp only [override_eq hoptions]
    by_cases hcheck : options.selfCheck = true
    · simp only [hcheck, ↓reduceIte]
      exact ends_of_good _ (.nothing reads (.inl (hoptions.selfCheck.mp hcheck)))
    have hunchecked : ¬ Asks args "self-check" := by rwa [← hoptions.selfCheck]
    simp only [hcheck, Bool.false_eq_true, ↓reduceIte]
    cases hpath : options.writeSample with
    | some path =>
      have hasked : Asks args "write-sample" := hoptions.writeSample.mp (by simp [hpath])
      apply writeSample_ends hfiles
      intro bytes after hcontent hsaved
      exact .sample reads hunchecked hasked hpath hcontent hsaved
    | none =>
      have hsample : ¬ Asks args "write-sample" :=
        fun hasked => hoptions.writeSample.mpr hasked hpath
      by_cases hcommands : options.showCommands = true
      · simp only [hcommands, ↓reduceIte]
        apply printCommands_ends
        exact .nothing reads (.inr ⟨hsample, .inl (hoptions.showCommands.mp hcommands)⟩)
      have hprinted : ¬ Asks args "ir" := by rwa [← hoptions.showCommands]
      simp only [hcommands, Bool.false_eq_true, ↓reduceIte]
      split
      · next input output hfirst hsecond =>
        apply assembleFile_ends hfiles
        intro source assembly after hholds hassemble hbytes hsaved
        exact .code reads hunchecked hsample hprinted hfirst hsecond (hconfig configured rfl)
          hholds hassemble hbytes hsaved
      · next hmissing =>
        refine ends_of_good _ (.nothing reads (.inr ⟨hsample, .inr ?_⟩))
        cases hfirst : options.input with
        | none => exact .inl rfl
        | some input =>
          cases hsecond : options.output with
          | none => exact .inr rfl
          | some output => exact (hmissing input output hfirst hsecond).elim

theorem run_ends (hfiles : files.Atomic view) (hsetup : setup.Follows) (s : σ)
    (args : List Text) :
    Ends view s (setup.Saves files view s args) ((setup.run args).runOn files s) := by
  unfold Setup.run
  cases hread : setup.parse args with
  | exit report => exact ends_of_good _ (.exit hread)
  | run options => exact execute_ends hfiles (hsetup args options hread) hread

end

/-- The assembler as it is called reads command lines as they are meant. -/
theorem standard_follows : standard.Follows := by
  intro args options h
  change (grammar.read args).reading help version (fun given => some (.ofArguments given)) =
    .run options at h
  obtain ⟨given, hread, hgiven⟩ := reading_eq_run_iff.mp h
  obtain rfl := Option.some.inj hgiven
  have reads : grammar.Reads {} false args given := (readFrom_eq_run_iff rfl).mp hread
  have hvalue {name : Text} {takes : Takes} (hname : '=' ∉ name)
      (hknown : grammar.options.lookup name = some takes) (htakes : takes ≠ .nothing) :
      given.value? name ≠ none ↔ Asks args name := by
    rw [← reads.has_iff_asks hname]
    refine ⟨fun hsome => ?_, reads.value?_ne_none hknown htakes nofun⟩
    obtain ⟨v, hv⟩ := Option.ne_none_iff_exists'.mp hsome
    exact has_of_value? hv
  have hsample : grammar.options.lookup "write-sample".toList =
      some (.optionalValue .path "sample.asm") := rfl
  have hconfig : grammar.options.lookup "config".toList = some (.value .path) := rfl
  exact {
    selfCheck := reads.has_iff_asks (by decide)
    writeSample := hvalue (by decide) hsample nofun
    showCommands := reads.has_iff_asks (by decide)
    bestEffort := reads.has_iff_asks (by decide)
    rejectOverflow := reads.has_iff_asks (by decide)
    config := hvalue (by decide) hconfig nofun }

end Assembler

namespace Disassembler

/-- The words that tell the disassembler where to write. -/
inductive OutWords (path : Text) : List Text → Prop where
  | spaced : OutWords path [dashed "out", path]
  | attached : OutWords path [dashed "out" ++ '=' :: path]

/-- Command lines are read as they are meant: there is an output file only when it is asked for, and
without the words that ask for it, the rest is read as before. -/
structure Setup.Follows (setup : Setup) : Prop where
  unasked : ∀ args options, setup.parse args = .run options → options.out = none →
    ¬ Asks args "out"
  without : ∀ args options path, setup.parse args = .run options → options.out = some path →
    ∃ before words behind, args = before ++ words ++ behind ∧ OutWords path words ∧
      setup.parse (before ++ behind) = .run { options with out := none }

/-- How the disassembler may leave the files when it succeeds. What it writes is what it prints when
the words that tell it to write are taken out of the command line. -/
inductive Setup.Saves (setup : Setup) (files : FileSystem σ) (view : View σ File) (s : σ)
    (args : List Text) : σ → Prop where
  | exit {report : Report} (reads : setup.parse args = .exit report) :
      Saves setup files view s args s
  | nothing (unasked : ¬ Asks args "out") : Saves setup files view s args s
  | listing {before words behind : List Text} {path text : Text} {bytes : List UInt8} {after : σ}
      (parts : args = before ++ words ++ behind) (asked : OutWords path words)
      (printed : (setup.run (before ++ behind)).runOn files s = (.printed text, s))
      (content : ofUtf8? bytes = some text) (saved : view.Saved s path bytes after) :
      Saves setup files view s args after

section
variable {setup : Setup} {files : FileSystem σ} {view : View σ File} {s : σ} {good : σ → Prop}
  {args : List Text} {options : Options}

theorem runOn_load (files : FileSystem σ) (path : Text) (skip : Nat) (length : Option Nat)
    (s : σ) : ∃ answer, (load path skip length).runOn files s = (answer, s) := by
  simp only [load, Plan.runOn]
  cases files.read s path with
  | error fault => exact ⟨_, rfl⟩
  | ok content =>
    cases hwindow : window content skip length with
    | error fault =>
      simp only [hwindow]
      exact ⟨_, rfl⟩
    | ok bytes =>
      simp only [hwindow]
      exact ⟨_, rfl⟩

/-- What is printed without a file to write to is what is written to it. -/
theorem execute_out_ends (hfiles : files.Atomic view) {path : Text}
    (hout : options.out = some path)
    (hgood : ∀ text bytes after,
      (setup.execute { options with out := none }).runOn files s = (.printed text, s) →
      ofUtf8? bytes = some text → view.Saved s path bytes after → good after) :
    Ends view s good ((setup.execute options).runOn files s) := by
  obtain ⟨answer, hrun⟩ := runOn_load files options.input options.skip options.length s
  rw [Setup.execute, Plan.runOn_bind, hrun]
  cases answer with
  | error failure => exact ends_of_failed nofun
  | ok bytes =>
    simp only [hout]
    refine ends_write hfiles (fun _ => ⟨_, rfl, nofun⟩) ⟨_, rfl, rfl⟩ ?_
    intro after hsaved
    refine hgood (setup.render options bytes) _ after ?_ (ofUtf8?_utf8 _) hsaved
    rw [Setup.execute, Plan.runOn_bind, hrun]
    rfl

theorem run_ends (hfiles : files.Atomic view) (hsetup : setup.Follows) (s : σ)
    (args : List Text) :
    Ends view s (setup.Saves files view s args) ((setup.run args).runOn files s) := by
  unfold Setup.run
  cases hread : setup.parse args with
  | exit report => exact ends_of_good _ (.exit hread)
  | run options =>
    cases hout : options.out with
    | none =>
      obtain ⟨answer, hrun⟩ := runOn_load files options.input options.skip options.length s
      dsimp only
      rw [Setup.execute, Plan.runOn_bind, hrun]
      cases answer with
      | error failure => exact ends_of_failed nofun
      | ok bytes =>
        simp only [hout]
        exact ends_of_good _ (.nothing (hsetup.unasked args options hread hout))
    | some path =>
      obtain ⟨before, words, behind, hargs, hwords, hrest⟩ :=
        hsetup.without args options path hread hout
      apply execute_out_ends hfiles hout
      intro text bytes after hprinted hcontent hsaved
      refine .listing hargs hwords ?_ hcontent hsaved
      simp only [Setup.run, hrest]
      exact hprinted

end

theorem grammar_explicit : grammar.Explicit := by
  intro name accepts v hknown
  obtain ⟨before, behind, hoptions, _⟩ := List.lookup_eq_some_iff.mp hknown
  have hmem : (name, Takes.optionalValue accepts v) ∈ grammar.options := by simp [hoptions]
  simp [grammar] at hmem

theorem ofArguments?_without {given : Arguments} {options : Options}
    (h : Options.ofArguments? given = some options) :
    Options.ofArguments? (given.without "out") = some { options with out := none } := by
  obtain ⟨input, hinput, rfl⟩ := Option.map_eq_some_iff.mp h
  have hpositionals : (given.without "out").positionals = given.positionals := rfl
  rw [Options.ofArguments?, hpositionals, hinput, Option.map_some, value?_without (by decide),
    value?_without (by decide), value?_without (by decide), has_without (by decide),
    value?_without_self]

theorem outWords_of_spelled {path : Text} {words : List Text} {next : Option Text}
    (h : grammar.Spelled "out" (some path) words next) : OutWords path words := by
  cases h with
  | attached => exact .attached
  | spaced => exact .spaced
  | default known _ => cases known

/-- The disassembler as it is called reads command lines as they are meant. -/
theorem standard_follows : standard.Follows := by
  have hreads {args : List Text} {options : Options} (h : standard.parse args = .run options) :
      ∃ given, grammar.Reads {} false args given ∧ Options.ofArguments? given = some options ∧
        options.out = given.value? "out" := by
    obtain ⟨given, hread, hgiven⟩ := reading_eq_run_iff.mp h
    refine ⟨given, (readFrom_eq_run_iff rfl).mp hread, hgiven, ?_⟩
    obtain ⟨input, -, rfl⟩ := Option.map_eq_some_iff.mp hgiven
    rfl
  constructor
  · intro args options h hout
    obtain ⟨given, reads, -, hvalue⟩ := hreads h
    have hknown : grammar.options.lookup "out".toList = some (.value .text) := rfl
    rw [← reads.has_iff_asks (by decide),
      reads.has_eq_false hknown nofun (hvalue.symm.trans hout)]
    exact Bool.false_ne_true
  · intro args options path h hout
    obtain ⟨given, reads, hgiven, hvalue⟩ := hreads h
    have hpath := hvalue.symm.trans hout
    obtain ⟨before, words, behind, hargs, hspelled, hrest⟩ :=
      reads.split grammar_explicit rfl (has_of_value? hpath)
    rw [hpath] at hspelled
    refine ⟨before, words, behind, hargs, outWords_of_spelled hspelled, ?_⟩
    exact reading_eq_run_iff.mpr
      ⟨_, (readFrom_eq_run_iff rfl).mpr hrest, ofArguments?_without hgiven⟩

end Disassembler

/-- A run of a tool that fails leaves all files as they are. One that succeeds changes at most one
file, and this one holds what it was to hold. -/
theorem run_files {files : FileSystem σ} {view : View σ File} (hfiles : files.Atomic view)
    {assembler : Assembler.Setup} (hassembler : assembler.Follows)
    {disassembler : Disassembler.Setup} (hdisassembler : disassembler.Follows) (s : σ)
    (args : List Text) :
    Ends view s (assembler.Saves files view s args) ((assembler.run args).runOn files s) ∧
      Ends view s (disassembler.Saves files view s args)
        ((disassembler.run args).runOn files s) :=
  ⟨Assembler.run_ends hfiles hassembler s args, Disassembler.run_ends hfiles hdisassembler s args⟩

/-- On a disk, both tools do write their file: the sample where it is asked for, the machine code of
a source under a configuration that only the command line relaxes, although the reference encodings
are still checked after it, and the listing of this code. -/
theorem run_files_on_disk :
    let configured : List Text :=
      ["--config", "strict", "--best-effort", "source", "--test", "/srv/code"]
    let sampled : List Text := ["--write-sample", "../sample"]
    let listed : List Text := ["/srv/old", "--out", "listing"]
    ∃ disk : Disk,
      let coded := (Assembler.standard.run configured).runOn Disk.files disk
      let wrote := (Assembler.standard.run sampled).runOn Disk.files disk
      let told := (Disassembler.standard.run listed).runOn Disk.files disk
      (coded.1.code = 0 ∧
        coded.2.entryAt ["srv", "code"] = some (.file [0xCA, 0x29, 0x02, 0x00]) ∧
        Assembler.standard.Saves Disk.files Disk.view disk configured coded.2) ∧
      (wrote.1.code = 0 ∧ (wrote.2.entryAt ["tmp", "sample"]).isSome = true ∧
        Assembler.standard.Saves Disk.files Disk.view disk sampled wrote.2) ∧
      told.1.code = 0 ∧ (told.2.entryAt ["tmp", "home", "listing"]).isSome = true ∧
        Disassembler.standard.Saves Disk.files Disk.view disk listed told.2 := by
  intro configured sampled listed
  let disk : Disk :=
    ((Disk.fresh.install ["srv", "old"] (.file [0xCA, 0x29, 0x02, 0x00])).install
      ["tmp", "home", "source"] (.file (utf8 "x:\nLOAD 553\nREAD 65536"))).install
      ["tmp", "home", "strict"] (.file (utf8 (Settings.render ⟨.failFast, .reject⟩)))
  have hfiles (args : List Text) := run_files Disk.files_atomic Assembler.standard_follows
    Disassembler.standard_follows disk args
  refine ⟨disk, ⟨?_, ?_, ?_⟩, ⟨?_, ?_, ?_⟩, ?_, ?_, ?_⟩
  · decide +kernel
  · decide +kernel
  · apply (hfiles _).1.changed
    decide +kernel
  · decide +kernel
  · decide +kernel
  · apply (hfiles _).1.changed
    decide +kernel
  · decide +kernel
  · decide +kernel
  · apply (hfiles _).2.changed
    decide +kernel

end Tool

end Uvm
