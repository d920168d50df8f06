import Mana.CommandLine.Run
import Mana.Proofs.Folders
import Mana.Proofs.Rendering
import Mana.Proofs.Text.Utf8

/-! Runs for a source. What a run comes to depends on whether the source is obtained, whether it is shown in a format,
and whether the target of the output takes it. A run that does not succeed leaves every file as it is, unless the target
was opened and then took no output. -/
namespace Mana.CommandLine

section
variable {σ : Type} {settings : Settings} {files : Files (StateM σ)} {stack : Stack} {before : σ}

/-- The text of a source: the source itself, or what the source file with its name holds, every line ending as a newline.
Reading may leave the system in another state. -/
inductive Settings.Obtains (settings : Settings) (files : Files (StateM σ)) (before : σ) : Text → σ → Prop where
  | literal (given : settings.source = some text) (itself : settings.literal = true) :
      settings.Obtains files before text before
  | file (given : settings.source = some name) (named : settings.literal = false) (extended : extension <:+ name)
      (readable : (files.read name).run before = (.ok (Utf8.encode text), later)) :
      settings.Obtains files before text.withNewlines later

theorem Settings.Obtains.unique (obtained : settings.Obtains files before text later)
    (other : settings.Obtains files before text' later') : text = text' ∧ later = later' := by
  cases obtained with
  | literal given itself =>
    cases other with
    | literal given' => exact ⟨Option.some.inj (given.symm.trans given'), rfl⟩
    | file _ named => cases itself.symm.trans named
  | file given named _ readable =>
    cases other with
    | literal _ itself => cases itself.symm.trans named
    | file given' _ _ readable' =>
      cases given.symm.trans given'
      obtain ⟨same, rfl⟩ := Prod.mk.inj (readable.symm.trans readable')
      rw [Utf8.encode_injective (Except.ok.inj same)]
      exact ⟨rfl, rfl⟩

theorem Settings.Obtains.of_file (obtained : settings.Obtains files before text later)
    (given : settings.source = some name) (named : settings.literal = false) :
    extension <:+ name ∧ ∃ raw, (files.read name).run before = (.ok (Utf8.encode raw), later) := by
  cases obtained with
  | literal _ itself => cases itself.symm.trans named
  | file given' _ extended readable =>
    cases given.symm.trans given'
    exact ⟨extended, _, readable⟩

/-- The source is shown: it is obtained, there is a format, and it is free of faults if it is parsed for that. -/
structure Settings.Shows (settings : Settings) (files : Files (StateM σ)) (stack : Stack) (before : σ) (text : Text)
    (format : Format) (output : Text) (later : σ) : Prop where
  obtained : settings.Obtains files before text later
  formatted : settings.format = some format
  clear : format = .tokens ∨ (parseWithin stack.nesting text).diagnostics = []
  rendered : render stack.nesting text format = .ok output

theorem Settings.Obtains.kept {ι : Type} {view : files.View ι} (lawful : view.Lawful)
    (obtained : settings.Obtains files before text later) : view.contents later = view.contents before := by
  cases obtained with
  | literal => rfl
  | file _ _ _ readable => exact lawful.read_kept readable

/-- How a run for a source comes out: its report, with what is logged on the way, and the state after it. -/
inductive Settings.Outcome (settings : Settings) (files : Files (StateM σ)) (stack : Stack) (before : σ)
    (events : List Event) : Report × σ → Prop where
  | unobtained (nothing : ∀ text later, ¬ settings.Obtains files before text later) (trouble : Trouble)
      (read : later = before ∨ ∃ name answer, (files.read name).run before = (answer, later)) :
      settings.Outcome files stack before events (settings.failed events (.stopped trouble), later)
  | formless (obtained : settings.Obtains files before text later) (formless : settings.format = none) :
      settings.Outcome files stack before events (settings.failed events (.stopped .noFormat), later)
  | faulty {format : Format} (obtained : settings.Obtains files before text later)
      (formatted : settings.format = some format) (parsed : format ≠ .tokens)
      (faulty : (parseWithin stack.nesting text).diagnostics ≠ []) : settings.Outcome files stack before events
        (settings.failed events (.faults (parseWithin stack.nesting text).diagnostics), later)
  | exhausted {format : Format} (obtained : settings.Obtains files before text later)
      (formatted : settings.format = some format) (exhausted : stack.render text format = .error .exhausted) :
      settings.Outcome files stack before events (settings.failed events .crashed, later)
  | printed {format : Format} (shows : settings.Shows files stack before text format output later)
      (untargeted : settings.target = none) :
      settings.Outcome files stack before events (⟨.success, Text.closed [output], settings.log events⟩, later)
  | closed {format : Format} (shows : settings.Shows files stack before text format output between)
      (targeted : settings.target = some name) (refused : (files.create name).run between = (.error obstacle, later)) :
      settings.Outcome files stack before events (settings.failed events (.stopped (.closed name obstacle)), later)
  | unwritten {format : Format} (shows : settings.Shows files stack before text format output between)
      (targeted : settings.target = some name) (created : (files.create name).run between = (.ok handle, opened))
      (refused : (files.write handle (Utf8.encode (Text.closed [output]))).run opened = (.error obstacle, later)) :
      settings.Outcome files stack before events (settings.failed events (.stopped (.unwritten obstacle)), later)
  | written {format : Format} (shows : settings.Shows files stack before text format output between)
      (targeted : settings.target = some name) (created : (files.create name).run between = (.ok handle, opened))
      (written : (files.write handle (Utf8.encode (Text.closed [output]))).run opened = (.ok (), later)) :
      settings.Outcome files stack before events (⟨.success, [], settings.log events⟩, later)

theorem Settings.draft_formless (formless : settings.format = none) :
    (settings.draft stack events text).output = .error (.stopped .noFormat) := by
  rw [draft, formless]

theorem Settings.draft_output (formatted : settings.format = some shape) :
    (settings.draft stack events text).output = (stack.render text shape).mapError .ofUnrendered := by
  rw [draft, formatted]
  cases shape with
  | tokens => rfl
  | string | json =>
    dsimp only
    rcases stack.render text _ with (_ | _) | _ <;> rfl

theorem run_bind {first : StateM σ α} {next : α → StateM σ β} (ran : first.run before = (value, later)) :
    (first >>= next).run before = (next value).run later := by
  rw [StateT.run_bind, ran]
  rfl

/-- An output is written to the target as far as that takes it. -/
theorem Settings.outcome_of_target {format : Format} (shows : settings.Shows files stack before text format output between)
    (targeted : settings.target = some name) (events : List Event) : ∃ events', settings.Outcome files stack before events'
      ((settings.writeTo files events name (Text.closed [output])).run between) := by
  rcases created : (files.create name).run between with ⟨obstacle | handle, opened⟩
  · rw [writeTo, run_bind created]
    exact ⟨events, .closed shows targeted created⟩
  · rcases written : (files.write handle (Utf8.encode (Text.closed [output]))).run opened with ⟨obstacle | _, later⟩
    · rw [writeTo, run_bind created, run_bind written]
      exact ⟨events, .unwritten shows targeted created written⟩
    · rw [writeTo, run_bind created, run_bind written]
      exact ⟨events ++ [.wrote name], .written shows targeted created written⟩

theorem Settings.outcome_of_obtained (obtained : settings.Obtains files before text between) (events : List Event) :
    ∃ events', settings.Outcome files stack before events'
      ((settings.deliver files (settings.draft stack events text)).run between) := by
  cases formatted : settings.format with
  | none =>
    rw [deliver, draft_formless formatted]
    exact ⟨_, .formless obtained formatted⟩
  | some format =>
    have drafted : (settings.draft stack events text).output = _ := draft_output formatted
    cases rendered : stack.render text format with
    | error reason =>
      rw [rendered] at drafted
      rw [deliver, drafted]
      cases reason with
      | faults =>
        obtain ⟨parsed, faulty, rfl⟩ := Stack.render_faults rendered
        exact ⟨_, .faulty obtained formatted parsed faulty⟩
      | exhausted => exact ⟨_, .exhausted obtained formatted rendered⟩
    | ok output =>
      rw [rendered] at drafted
      rw [deliver, drafted]
      obtain ⟨clear, whole⟩ := Stack.render_ok rendered
      cases targeted : settings.target with
      | none => exact ⟨_, .printed ⟨obtained, formatted, clear, whole⟩ targeted⟩
      | some name => exact outcome_of_target ⟨obtained, formatted, clear, whole⟩ targeted _

/-- A source file is shown as far as it can be read as text. -/
theorem Settings.outcome_of_file (given : settings.source = some name) (named : settings.literal = false) :
    ∃ events, settings.Outcome files stack before events ((settings.runFile files stack name).run before) := by
  by_cases extended : extension.isSuffixOf name = true
  · rw [runFile, if_pos extended]
    rcases readable : (files.read name).run before with ⟨obstacle | bytes, later⟩
    · rw [run_bind readable]
      refine ⟨_, .unobtained (fun text later obtained => ?_) (.closed name obstacle) (.inr ⟨name, _, readable⟩)⟩
      obtain ⟨_, raw, whole⟩ := obtained.of_file given named
      cases whole.symm.trans readable
    · rw [run_bind readable, draftFile]
      cases decoded : Utf8.decode bytes with
      | error fault =>
        refine ⟨_, .unobtained (fun text later obtained => ?_) (.encoding fault) (.inr ⟨name, _, readable⟩)⟩
        obtain ⟨_, raw, whole⟩ := obtained.of_file given named
        have same := Except.ok.inj (congrArg Prod.fst (readable.symm.trans whole))
        cases decoded.symm.trans (Utf8.decode_iff.mpr same)
      | ok text =>
        cases Utf8.decode_iff.mp decoded
        exact outcome_of_obtained (.file given named (List.isSuffixOf_iff_suffix.mp extended) readable) _
  · rw [runFile, if_neg extended]
    refine ⟨[], .unobtained (fun text later obtained => ?_) .extension (.inl rfl)⟩
    exact extended (List.isSuffixOf_iff_suffix.mpr (obtained.of_file given named).1)

theorem outcome_of_run (accepted : read arguments = .accepted settings) (given : settings.source = some source)
    (alone : settings.repl = false) (files : Files (StateM σ)) (stack : Stack) (before : σ) (user : Option Text)
    (lines : List Text) :
    ∃ events, settings.Outcome files stack before events ((run files stack arguments user lines).run before) := by
  cases itself : settings.literal with
  | true =>
    have task : settings.task = .source source := by simp [Settings.task, alone, given, itself]
    simp only [run, accepted, task]
    exact Settings.outcome_of_obtained (.literal given itself) []
  | false =>
    have task : settings.task = .file source := by simp [Settings.task, alone, given, itself]
    simp only [run, accepted, task]
    exact Settings.outcome_of_file given itself

theorem closed_line (output : Text) : Text.closed [output] = output ++ ['\n'] := by
  rw [Text.closed, List.flatMap_singleton]

theorem Status.code_le (status : Status) : status.code ≤ 2 := by cases status <;> decide

/-- There is room on the stack to show the source. -/
def Settings.Roomy (settings : Settings) (files : Files (StateM σ)) (stack : Stack) (before : σ) : Prop :=
  ∀ text later format, settings.Obtains files before text later → settings.format = some format →
    stack.render text format ≠ .error .exhausted

/-- The source has faults, and is parsed for its format. -/
def Settings.Faulty (settings : Settings) (files : Files (StateM σ)) (stack : Stack) (before : σ) : Prop :=
  ∃ text later format, settings.Obtains files before text later ∧ settings.format = some format ∧ format ≠ .tokens ∧
    (parseWithin stack.nesting text).diagnostics ≠ []

theorem Settings.Shows.not_faulty {format : Format} (shows : settings.Shows files stack before text format output later) :
    ¬ settings.Faulty files stack before := by
  rintro ⟨text', later', format', obtained, formatted, parsed, faulty⟩
  obtain ⟨rfl, rfl⟩ := shows.obtained.unique obtained
  cases shows.formatted.symm.trans formatted
  exact shows.clear.elim parsed faulty

theorem Settings.Shows.unique {format format' : Format}
    (shows : settings.Shows files stack before text format output later)
    (other : settings.Shows files stack before text' format' output' later') : output = output' ∧ later = later' := by
  obtain ⟨rfl, rfl⟩ := shows.obtained.unique other.obtained
  cases shows.formatted.symm.trans other.formatted
  exact ⟨Except.ok.inj (shows.rendered.symm.trans other.rendered), rfl⟩

/-! What an outcome tells of its report and of the system after it. -/

namespace Settings.Outcome
variable {report : Report} {later : σ} {events : List Event}

theorem faulty_iff (roomy : settings.Roomy files stack before)
    (outcome : settings.Outcome files stack before events (report, later)) :
    report.status.code = 1 ↔ settings.Faulty files stack before := by
  constructor
  · intro status
    cases outcome with
    | faulty obtained formatted parsed faulty => exact ⟨_, _, _, obtained, formatted, parsed, faulty⟩
    | exhausted obtained formatted exhausted => exact absurd exhausted (roomy _ _ _ obtained formatted)
    | _ => cases status
  · intro isFaulty
    cases outcome with
    | faulty => rfl
    | exhausted => rfl
    | unobtained nothing =>
      obtain ⟨_, _, _, obtained, _⟩ := isFaulty
      exact absurd obtained (nothing _ _)
    | formless _ formless =>
      obtain ⟨_, _, _, _, formatted, _⟩ := isFaulty
      cases formless.symm.trans formatted
    | printed shows | closed shows | unwritten shows | written shows => exact absurd isFaulty shows.not_faulty

theorem success_iff (outcome : settings.Outcome files stack before events (report, later))
    (roomy : settings.Roomy files stack before) :
    report.status.code = 0 ↔ ∃ text format output between, settings.Shows files stack before text format output between ∧
      ∀ name, settings.target = some name → files.Takes name (Utf8.encode (output ++ ['\n'])) between := by
  simp only [← closed_line]
  constructor
  · intro status
    cases outcome with
    | printed shows untargeted =>
      exact ⟨_, _, _, _, shows, fun name targeted => nomatch untargeted.symm.trans targeted⟩
    | written shows targeted created written =>
      refine ⟨_, _, _, _, shows, fun name targeted' => ?_⟩
      cases targeted.symm.trans targeted'
      exact ⟨_, _, _, created, written⟩
    | _ => cases status
  · rintro ⟨text, format, output, between, shows, takes⟩
    cases outcome with
    | printed | written => rfl
    | unobtained nothing => exact absurd shows.obtained (nothing _ _)
    | formless _ formless => cases formless.symm.trans shows.formatted
    | faulty obtained formatted parsed faulty => exact absurd ⟨_, _, _, obtained, formatted, parsed, faulty⟩ shows.not_faulty
    | exhausted obtained formatted exhausted => exact absurd exhausted (roomy _ _ _ obtained formatted)
    | closed shows' targeted refused =>
      obtain ⟨rfl, rfl⟩ := shows.unique shows'
      obtain ⟨_, _, _, created, _⟩ := takes _ targeted
      cases refused.symm.trans created
    | unwritten shows' targeted created refused =>
      obtain ⟨rfl, rfl⟩ := shows.unique shows'
      obtain ⟨_, _, _, created', written⟩ := takes _ targeted
      cases created.symm.trans created'
      cases refused.symm.trans written

variable {ι : Type} {view : files.View ι}

theorem unchanged (lawful : view.Lawful) (outcome : settings.Outcome files stack before events (report, later))
    (failed : report.status.code ≠ 0) : report.stdout = [] ∧ (view.contents later = view.contents before ∨
      report.status.code = 2 ∧ ∃ name bytes handle between, settings.target = some name ∧
        view.contents between = view.contents before ∧ view.Spoils name bytes handle between later) := by
  cases outcome with
  | unobtained _ _ read =>
    refine ⟨rfl, .inl ?_⟩
    rcases read with rfl | ⟨_, _, read⟩
    · rfl
    · exact lawful.read_kept read
  | formless obtained | faulty obtained | exhausted obtained => exact ⟨rfl, .inl (obtained.kept lawful)⟩
  | closed shows _ refused => exact ⟨rfl, .inl ((lawful.refused_kept refused).trans (shows.obtained.kept lawful))⟩
  | unwritten shows targeted created refused =>
    exact ⟨rfl, .inr ⟨rfl, _, _, _, _, targeted, shows.obtained.kept lawful, lawful.spoils created refused⟩⟩
  | printed | written => exact absurd rfl failed

theorem faults (roomy : settings.Roomy files stack before)
    (outcome : settings.Outcome files stack before events (report, later)) (status : report.status.code = 1) :
    ∃ text, settings.Obtains files before text later ∧ report.stderr = settings.log events ++
      Text.closed ("ParseError:".toList :: (parseWithin stack.nesting text).diagnostics.map fun diagnostic =>
        "\tline ".toList ++ decimal diagnostic.location.line ++ ", col ".toList ++ decimal diagnostic.location.column ++
          ": ".toList ++ diagnostic.message) := by
  cases outcome with
  | faulty obtained =>
    refine ⟨_, obtained, ?_⟩
    rw [failed, Failure.report, errorListing, List.map_map]
    rfl
  | exhausted obtained formatted exhausted => exact absurd exhausted (roomy _ _ _ obtained formatted)
  | _ => cases status

theorem succeeded (lawful : view.Lawful) (outcome : settings.Outcome files stack before events (report, later))
    (status : report.status.code = 0) :
    ∃ text format output between, settings.Shows files stack before text format output between ∧
      view.contents between = view.contents before ∧ report.stderr = settings.log events ∧
      (settings.target = none → report.stdout = output ++ ['\n'] ∧ later = between) ∧
      ∀ name, settings.target = some name → report.stdout = [] ∧
        ∃ handle, view.Receives name (Utf8.encode (output ++ ['\n'])) handle between later := by
  simp only [← closed_line]
  cases outcome with
  | printed shows untargeted =>
    refine ⟨_, _, _, _, shows, shows.obtained.kept lawful, rfl, fun _ => ⟨rfl, rfl⟩, fun name targeted => ?_⟩
    cases untargeted.symm.trans targeted
  | written shows targeted created written =>
    refine ⟨_, _, _, _, shows, shows.obtained.kept lawful, rfl, fun untargeted => ?_, fun name targeted' => ⟨rfl, ?_⟩⟩
    · cases untargeted.symm.trans targeted
    · cases targeted.symm.trans targeted'
      exact ⟨_, lawful.receives created written⟩
  | _ => cases status

end Settings.Outcome

end

variable {σ ι : Type} {settings : Settings} {files : Files (StateM σ)} {stack : Stack} {before : σ}

/-- How a run for a source ends, if there is room on the stack to show it. It is faulty exactly if the source is obtained,
parsed for its format, and has faults, which are then all reported. It succeeds exactly if the source is obtained, shown in
its format, and the target takes the output, if there is one; the output is then printed, or else written to the target and
nowhere else. Any other run is refused. No file changes in a run that does not succeed, but for a target that was opened and
took no output, and all that is logged stands in front of what is reported. -/
theorem run_settled {view : files.View ι} (lawful : view.Lawful) (accepted : read arguments = .accepted settings)
    (given : settings.source = some source) (alone : settings.repl = false) (roomy : settings.Roomy files stack before)
    (user : Option Text) (lines : List Text) :
    ∃ report later events, (run files stack arguments user lines).run before = (report, later) ∧
      (report.status.code = 1 ↔ ∃ text between format, settings.Obtains files before text between ∧
        settings.format = some format ∧ format ≠ .tokens ∧ (parseWithin stack.nesting text).diagnostics ≠ []) ∧
      (report.status.code = 0 ↔ ∃ text format output between, settings.Shows files stack before text format output between ∧
        ∀ name, settings.target = some name → files.Takes name (Utf8.encode (output ++ ['\n'])) between) ∧
      report.status.code ≤ 2 ∧
      (report.status.code ≠ 0 → report.stdout = [] ∧ (view.contents later = view.contents before ∨
        report.status.code = 2 ∧ ∃ name bytes handle between, settings.target = some name ∧
          view.contents between = view.contents before ∧ view.Spoils name bytes handle between later)) ∧
      (report.status.code = 1 → ∃ text, settings.Obtains files before text later ∧ report.stderr = settings.log events ++
        Text.closed ("ParseError:".toList :: (parseWithin stack.nesting text).diagnostics.map fun diagnostic =>
          "\tline ".toList ++ decimal diagnostic.location.line ++ ", col ".toList ++ decimal diagnostic.location.column ++
            ": ".toList ++ diagnostic.message)) ∧
      (report.status.code = 0 → ∃ text format output between,
        settings.Shows files stack before text format output between ∧ view.contents between = view.contents before ∧
        report.stderr = settings.log events ∧ (settings.target = none → report.stdout = output ++ ['\n'] ∧ later = between) ∧
        ∀ name, settings.target = some name → report.stdout = [] ∧
          ∃ handle, view.Receives name (Utf8.encode (output ++ ['\n'])) handle between later) := by
  obtain ⟨events, outcome⟩ := outcome_of_run accepted given alone files stack before user lines
  exact ⟨_, _, events, rfl, outcome.faulty_iff roomy, outcome.success_iff roomy, Status.code_le _, outcome.unchanged lawful,
    outcome.faults roomy, outcome.succeeded lawful⟩

/-- The output may be written over the source, under another name of its file. -/
theorem run_settled_overwritten : ∃ later output handle between,
    (run Folder.files .standard ["a.mana".toList, "-o./a.mana".toList] none []).run
      (.ofFiles [("a.mana".toList, Utf8.encode "x\r\n".toList)]) = (⟨.success, [], []⟩, later) ∧
    Folder.view.Receives "./a.mana".toList (Utf8.encode (output ++ ['\n'])) handle between later ∧
    later = .ofFiles [("a.mana".toList, Utf8.encode "x;\n".toList)] := by
  have accepted : read ["a.mana".toList, "-o./a.mana".toList] =
      .accepted ⟨some "a.mana".toList, false, some .string, some "./a.mana".toList, false, false, false, false⟩ := by
    decide +kernel
  have whole : Settings.Obtains
      ⟨some "a.mana".toList, false, some .string, some "./a.mana".toList, false, false, false, false⟩ Folder.files
      (.ofFiles [("a.mana".toList, Utf8.encode "x\r\n".toList)]) (Text.withNewlines "x\r\n".toList)
      (.ofFiles [("a.mana".toList, Utf8.encode "x\r\n".toList)]) := .file rfl rfl (by decide) rfl
  have roomy : Settings.Roomy
      ⟨some "a.mana".toList, false, some .string, some "./a.mana".toList, false, false, false, false⟩ Folder.files
      .standard (.ofFiles [("a.mana".toList, Utf8.encode "x\r\n".toList)]) := by
    intro text later format obtained formatted
    obtain ⟨same, _⟩ := obtained.unique whole
    cases formatted
    rw [same]
    decide +kernel
  obtain ⟨report, later, events, ran, _, _, _, _, _, shown⟩ :=
    run_settled Folder.view_lawful accepted rfl rfl roomy none []
  have computed : (report, later) = (⟨.success, [], []⟩, .ofFiles [("a.mana".toList, Utf8.encode "x;\n".toList)]) := by
    rw [← ran]
    decide +kernel
  obtain ⟨succeeded, overwritten⟩ := Prod.mk.inj computed
  subst succeeded overwritten
  obtain ⟨_, _, output, between, _, _, _, _, written⟩ := shown rfl
  obtain ⟨_, handle, receives⟩ := written "./a.mana".toList rfl
  exact ⟨_, output, handle, between, ran, receives, rfl⟩

/-- A divider attached to the option leaves it without a format, and then a sound source is refused. The full device can
be opened for a sound source that is then refused, and the null device keeps nothing of an output. -/
theorem run_formless :
    (∃ settings, read ["-s".toList, "x".toList, "-f--".toList] = .accepted settings ∧ settings.source = some "x".toList ∧
      settings.repl = false ∧ settings.verbose = false ∧ settings.Obtains Folder.files [] "x".toList [] ∧
      (parse "x".toList).diagnostics = [] ∧ settings.target = none ∧
      ((run Folder.files .standard ["-s".toList, "x".toList, "-f--".toList] none []).run []).1.status = .refused) ∧
    (∃ settings, read ["-s".toList, "x".toList, "-o/dev/full".toList] = .accepted settings ∧
      settings.Shows Folder.files .standard [] "x".toList .string "x;".toList [] ∧ settings.repl = false ∧
      settings.verbose = false ∧ settings.target = some "/dev/full".toList ∧
      (Folder.files.create "/dev/full".toList).run [] = (.ok Path.fullDevice, []) ∧
      ((run Folder.files .standard ["-s".toList, "x".toList, "-o/dev/full".toList] none []).run []).1.status = .refused) ∧
    ∃ settings, read ["-s".toList, "x".toList, "-o/dev/null".toList] = .accepted settings ∧
      settings.source = some "x".toList ∧ settings.repl = false ∧ settings.verbose = false ∧
      settings.target = some "/dev/null".toList ∧
      (run Folder.files .standard ["-s".toList, "x".toList, "-o/dev/null".toList] none []).run [] =
        (⟨.success, [], []⟩, []) := by
  refine ⟨?_, ?_, ?_⟩
  · refine ⟨⟨some "x".toList, true, none, none, false, false, false, false⟩, ?_, rfl, rfl, rfl, .literal rfl rfl, ?_, rfl,
      ?_⟩
    · decide +kernel
    · decide +kernel
    · decide +kernel
  · refine ⟨⟨some "x".toList, true, some .string, some "/dev/full".toList, false, false, false, false⟩, ?_,
      ⟨.literal rfl rfl, rfl, .inr ?_, ?_⟩, rfl, rfl, rfl, ?_, ?_⟩
    · decide +kernel
    · decide +kernel
    · decide +kernel
    · exact Folder.create_opened (by decide +kernel)
    · decide +kernel
  · refine ⟨⟨some "x".toList, true, some .string, some "/dev/null".toList, false, false, false, false⟩, ?_, rfl, rfl, rfl,
      rfl, ?_⟩
    · decide +kernel
    · change (_ : Report × Folder) = _
      decide +kernel

end Mana.CommandLine
