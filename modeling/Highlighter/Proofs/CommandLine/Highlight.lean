import Highlighter.CommandLine
import Highlighter.Proofs.Fallible
import Highlighter.Proofs.Format.Registry
import Highlighter.Proofs.Markup.Reading
import Highlighter.Proofs.Scan.WellFormed
import Highlighter.Proofs.Settings.Overrides
import Highlighter.Proofs.Text.Lines

/-!
Highlighting from the command line is all or nothing. What a run answers is said by `CommandLine.Answers`,
without layers, registries or steps: the settings that are asked for, the source and the format come in this
order, the first that fails is complained of and nothing is shown, and otherwise the output of the format is
shown to its end (`CommandLine.run_highlight`). The report of a complaint takes one line, and one more for each
line break in what it quotes: the words for a fault in the settings, a path or the name of a format.
-/

set_option autoImplicit false

namespace Highlighter

namespace CommandLine

open Settings

variable {wording : Wording} {inputs : Inputs} {options : Options} {files : Files} {quoted complaint : String}

/-! ### Settings -/

/-- The file of settings that is looked at. -/
def Options.layer (options : Options) : FileLayer :=
  match options.config with
  | some name => ⟨name, true⟩
  | none => ⟨localSettings, false⟩

/-- What the flags put over the file. -/
def Options.overrides (options : Options) : List (KeyPath × Value) :=
  (options.variant.map fun variant => (settingPath "highlight" "variant", .text variant.name)).toList ++
    (options.format.map fun format => (settingPath "output" "format", .text format)).toList

/-- The settings that are asked for: of each flag that is given, and else of the file over the defaults. -/
def Options.settings (options : Options) (files : Files) : Except Fault Settings := do
  let root ← Loader.addFile files defaults options.layer
  let variant ← match options.variant with
    | some variant => pure variant
    | none => sectionValue root "highlight" "variant" >>= variantValue
  let format ← match options.format with
    | some format => pure format
    | none => sectionValue root "output" "format" >>= textValue
  let commonClass ← sectionValue root "html" "class_prefix" >>= textValue
  return { variant, format, commonClass }

/-- Names of settings are in small letters. -/
theorem toLower_names : "highlight".toLower = "highlight" ∧ "variant".toLower = "variant" ∧
    "output".toLower = "output" ∧ "format".toLower = "format" :=
  ⟨Setting.variant.sectionName_toLower, Setting.variant.key_toLower, Setting.format.sectionName_toLower,
    Setting.format.key_toLower⟩

theorem override_variant (loader : Loader) (value : Value) : loader.override "highlight.variant" value =
    .ok (loader.overrideAt (settingPath "highlight" "variant") value) :=
  Setting.variant.override_name loader value

theorem override_format (loader : Loader) (value : Value) : loader.override "output.format" value =
    .ok (loader.overrideAt (settingPath "output" "format") value) :=
  Setting.format.override_name loader value

theorem loader_eq (options : Options) : loader options = .ok ⟨[options.layer], options.overrides⟩ := by
  obtain ⟨path, format, variant, config, verbose⟩ := options
  cases config <;> cases variant <;> cases format <;>
    simp [loader, override_variant, override_format, Loader.overrideAt, Loader.replace, Options.overrides,
      Options.layer, Loader.withFile, Loader.withOptionalFile, settingPath, bind, Except.bind, pure, Except.pure]

/-- The file with the flags put over it. -/
def Options.over (options : Options) (root : Value) : Value :=
  options.overrides.foldl (fun root (path, value) => path.set value root) root

theorem sectionValue_variant (options : Options) (root : Value) :
    sectionValue (options.over root) "highlight" "variant" =
      match options.variant with
      | some variant => .ok (.text variant.name)
      | none => sectionValue root "highlight" "variant" := by
  obtain ⟨isSection, isKey, isOther, _⟩ := toLower_names
  have differs : "output" ≠ "highlight" := by decide
  unfold Options.over Options.overrides
  cases options.variant <;> cases options.format <;>
    simp [sectionValue_set isSection isKey, sectionValue_set_of_ne isOther differs]

theorem sectionValue_format (options : Options) (root : Value) :
    sectionValue (options.over root) "output" "format" =
      match options.format with
      | some format => .ok (.text format)
      | none => sectionValue root "output" "format" := by
  obtain ⟨isOther, _, isSection, isKey⟩ := toLower_names
  have differs : "highlight" ≠ "output" := by decide
  unfold Options.over Options.overrides
  cases options.variant <;> cases options.format <;>
    simp [sectionValue_set isSection isKey, sectionValue_set_of_ne isOther differs]

theorem sectionValue_class (options : Options) (root : Value) :
    sectionValue (options.over root) "html" "class_prefix" = sectionValue root "html" "class_prefix" := by
  obtain ⟨isFirst, _, isSecond, _⟩ := toLower_names
  have differs : "highlight" ≠ "html" := by decide
  have differsToo : "output" ≠ "html" := by decide
  unfold Options.over Options.overrides
  cases options.variant <;> cases options.format <;>
    simp [sectionValue_set_of_ne isFirst differs, sectionValue_set_of_ne isSecond differsToo]

theorem ofValue_over (options : Options) (root : Value) :
    ofValue (options.over root) = (do
      let variant ← match options.variant with
        | some variant => pure variant
        | none => sectionValue root "highlight" "variant" >>= variantValue
      let format ← match options.format with
        | some format => pure format
        | none => sectionValue root "output" "format" >>= textValue
      let commonClass ← sectionValue root "html" "class_prefix" >>= textValue
      return { variant, format, commonClass }) := by
  rw [ofValue, sectionValue_variant, sectionValue_format, sectionValue_class]
  have isText (text : String) : textValue (.text text) = .ok text := rfl
  cases options.variant <;> cases options.format <;>
    simp only [bind_assoc, pure_bind, ok_bind, variantValue_name, isText]

theorem load_loader (options : Options) (files : Files) :
    (loader options >>= (·.load files)) = options.settings files := by
  have isMerged : (⟨[options.layer], options.overrides⟩ : Loader).merged files =
      (Loader.addFile files defaults options.layer).map options.over := by
    rw [Loader.merged, List.foldlM_cons]
    cases Loader.addFile files defaults options.layer <;> rfl
  rw [loader_eq, ok_bind, Loader.load, isMerged, Options.settings]
  cases Loader.addFile files defaults options.layer with
  | error fault => rfl
  | ok root => exact ofValue_over options root

/-! ### Formats -/

/-- The format of this name. -/
def outputFormat? (settings : Settings) : Option Format :=
  [Format.html settings.commonClass, .tree, .yaml, .json].find? (·.name == settings.format)

/-- Markup with the class that is asked for takes the place of the markup that was there. -/
theorem get?_output (settings : Settings) :
    (Registry.standard.register (.html settings.commonClass)).get? settings.format = outputFormat? settings := by
  have html : (Format.html Markup.defaultClass).name = (Format.html settings.commonClass).name := rfl
  unfold outputFormat? Registry.standard
  simp only [Registry.get?_register, List.find?_cons, html]
  cases (Format.html settings.commonClass).name == settings.format
  · cases Format.tree.name == settings.format <;> cases Format.yaml.name == settings.format <;>
      cases Format.json.name == settings.format <;> rfl
  · rfl

/-- The spans of a text fit it, so its markup can be made and read. -/
theorem exists_markup (commonClass : List Char) (table : RuleTable) (source : List Char) :
    ∃ markup, Markup.render commonClass source (table.classify source) = some markup ∧
      Markup.Adds commonClass 0 source (table.classify source) markup :=
  Markup.adds_renderAll commonClass _ (table.check_classify source) (slice?_self source)

theorem exists_render {settings : Settings} {format : Format} (known : outputFormat? settings = some format)
    (table : RuleTable) (source : List Char) :
    ∃ output, format.render source (table.classify source) = .ok output := by
  have isFormat := List.mem_of_find?_eq_some known
  simp only [List.mem_cons, List.not_mem_nil, or_false] at isFormat
  rcases isFormat with rfl | rfl | rfl | rfl
  · obtain ⟨markup, rendered, _⟩ := exists_markup settings.commonClass.toList table source
    exact ⟨markup, by simp only [Format.html, rendered]⟩
  · exact ⟨_, rfl⟩
  · exact ⟨_, rfl⟩
  · exact ⟨_, rfl⟩

/-! ### Answers -/

/-- The bytes of the source. -/
def Options.bytes (options : Options) (inputs : Inputs) : Except ReadError ByteArray :=
  match options.path with
  | some path => inputs.files path
  | none => .ok inputs.stdin

def Options.sourceName (options : Options) : String := options.path.getD "stdin"

/-- The source, which is text. -/
def Options.source (options : Options) (inputs : Inputs) : Except ReadError String :=
  options.bytes inputs >>= decodeText

theorem readSource_eq (inputs : Inputs) (options : Options) :
    readSource inputs options.path = (options.source inputs).mapError (.source options.sourceName) := by
  unfold readSource Options.source Options.bytes Options.sourceName
  cases options.path <;> rfl

/-- What is shown of an output: all of it, and one line break more if there is some and it does not end in one. -/
inductive Shows (output : List Char) : List Char → Prop
  | whole (ends : output = [] ∨ ['\n'] <:+ output) : Shows output output
  | broken (nonempty : output ≠ []) (goesOn : ¬['\n'] <:+ output) : Shows output (output ++ ['\n'])

theorem getLast?_eq_some_iff_suffix {output : List Char} :
    output.getLast? = some '\n' ↔ ['\n'] <:+ output := by
  rw [List.getLast?_eq_some_iff]
  exact exists_congr fun lead => eq_comm

theorem shows_endLine (output : List Char) : Shows output (endLine output) := by
  have isEnd : (output.isEmpty || output.getLast? == some '\n') = true ↔ output = [] ∨ ['\n'] <:+ output := by
    rw [Bool.or_eq_true, List.isEmpty_iff, beq_iff_eq, getLast?_eq_some_iff_suffix]
  unfold endLine
  split
  · next ends => exact .whole (isEnd.1 ends)
  · next goesOn =>
    rw [isEnd, not_or] at goesOn
    exact .broken goesOn.1 goesOn.2

/-- What is complained of at the first step that fails, and the text that is quoted in it. -/
inductive Complains (wording : Wording) (inputs : Inputs) (options : Options) : String → String → Prop
  | settings {fault : Fault} (fails : options.settings inputs.files = .error fault) :
      Complains wording inputs options (wording options inputs.files fault)
        ("configuration: " ++ wording options inputs.files fault)
  | source {settings : Settings} {error : ReadError} (known : options.settings inputs.files = .ok settings)
      (fails : options.source inputs = .error error) :
      Complains wording inputs options options.sourceName s!"cannot read {options.sourceName}: {error.message}"
  | format {settings : Settings} {source : String} (known : options.settings inputs.files = .ok settings)
      (read : options.source inputs = .ok source) (unknown : outputFormat? settings = none) :
      Complains wording inputs options settings.format s!"Format '{settings.format}' not found"

/-- What a line that tells of an error begins with. -/
def errorMark : List Char := "Error: ".toList

/-- The report of a complaint: its lines are one more than the line breaks that it quotes, and only the first tells
of an error unless the complaint has a line break with the mark behind it. -/
structure Reports (quoted complaint report : String) : Prop where
  report_eq : report = "Error: " ++ complaint ++ "\n"
  length_lines : (textLines report.toList).length = quoted.toList.count '\n' + 1
  one_marked_iff : (markedLines errorMark report.toList).length = 1 ↔ ¬ '\n' :: errorMark <:+: complaint.toList

/-- The exit status, the output and the report of an error that a run may end with. -/
inductive Answers (wording : Wording) (inputs : Inputs) (options : Options) : Nat → String → String → Prop
  | complains {quoted complaint report : String} (first : Complains wording inputs options quoted complaint)
      (reports : Reports quoted complaint report) : Answers wording inputs options 1 "" report
  | shown {settings : Settings} {source : String} {format : Format} {output printed : List Char}
      (known : options.settings inputs.files = .ok settings) (read : options.source inputs = .ok source)
      (isFormat : outputFormat? settings = some format)
      (renders : format.render source.toList (settings.variant.table.classify source.toList) = .ok output)
      (shows : Shows output printed) : Answers wording inputs options 0 (String.ofList printed) ""

/-! ### Complaints -/

theorem noBreak_reason (error : ReadError) : '\n' ∉ (": " ++ error.message).toList := by
  cases error <;> decide +kernel

/-- The quoted text is in the complaint as it is, with no line break around it. -/
theorem Complains.exists_around (complains : Complains wording inputs options quoted complaint) :
    ∃ lead rest, complaint.toList = lead ++ quoted.toList ++ rest ∧ '\n' ∉ lead ∧ '\n' ∉ rest := by
  cases complains with
  | settings =>
    refine ⟨"configuration: ".toList, [], ?_, by decide, List.not_mem_nil⟩
    rw [String.toList_append, List.append_nil]
  | @source settings error =>
    refine ⟨"cannot read ".toList, (": " ++ error.message).toList, ?_, by decide, noBreak_reason error⟩
    show ("cannot read " ++ options.sourceName ++ ": " ++ error.message).toList = _
    simp only [String.toList_append, List.append_assoc]
  | @format settings =>
    refine ⟨"Format '".toList, "' not found".toList, ?_, by decide, by decide⟩
    show ("Format '" ++ settings.format ++ "' not found").toList = _
    simp only [String.toList_append]

/-- All line breaks of a complaint are quoted. -/
theorem Complains.count_eq (complains : Complains wording inputs options quoted complaint) :
    complaint.toList.count '\n' = quoted.toList.count '\n' := by
  obtain ⟨lead, rest, split, leads, ends⟩ := complains.exists_around
  rw [split, List.count_append, List.count_append, List.count_eq_zero.2 leads, List.count_eq_zero.2 ends,
    Nat.zero_add, Nat.add_zero]

theorem toList_report (complaint : String) :
    ("Error: " ++ complaint ++ "\n").toList = errorMark ++ complaint.toList ++ ['\n'] := by
  rw [String.toList_append, String.toList_append]
  rfl

theorem Complains.reports (complains : Complains wording inputs options quoted complaint) :
    Reports quoted complaint ("Error: " ++ complaint ++ "\n") where
  report_eq := rfl
  length_lines := by
    have noBreak : errorMark.count '\n' = 0 := by decide
    rw [toList_report, length_textLines_concat, List.count_append, noBreak, Nat.zero_add, complains.count_eq]
  one_marked_iff := by
    rw [toList_report, length_markedLines_eq_one_iff (by decide) (by decide)]

/-! ### Runs -/

section

variable {settings : Settings} {source : String} {format : Format} {output : List Char}

theorem highlight_of_badSettings (wording : Wording) {fault : Fault}
    (fails : options.settings inputs.files = .error fault) :
    highlight wording inputs options = .error (.settings fault (wording options inputs.files fault)) := by
  rw [highlight, load_loader, fails]
  rfl

theorem highlight_of_badSource (wording : Wording) {error : ReadError}
    (known : options.settings inputs.files = .ok settings) (fails : options.source inputs = .error error) :
    highlight wording inputs options = .error (.source options.sourceName error) := by
  rw [highlight, load_loader, known, readSource_eq, fails]
  rfl

theorem highlight_of_source (wording : Wording) (known : options.settings inputs.files = .ok settings)
    (read : options.source inputs = .ok source) :
    highlight wording inputs options =
      match outputFormat? settings with
      | none => .error (.format (.notFound settings.format))
      | some format =>
        ((format.render source.toList (settings.variant.table.classify source.toList)).map endLine).mapError
          .format := by
  have isRender : highlight wording inputs options =
      (((Registry.standard.register (.html settings.commonClass)).render settings.format source.toList
        (settings.variant.table.classify source.toList)).mapError .format).map endLine := by
    rw [highlight, load_loader, known, readSource_eq, read]
    rfl
  rw [isRender, Registry.render, get?_output]
  cases outputFormat? settings with
  | none => rfl
  | some format =>
    dsimp only
    cases format.render source.toList (settings.variant.table.classify source.toList) <;> rfl

theorem highlight_of_render (wording : Wording) (known : options.settings inputs.files = .ok settings)
    (read : options.source inputs = .ok source) (isFormat : outputFormat? settings = some format)
    (renders : format.render source.toList (settings.variant.table.classify source.toList) = .ok output) :
    highlight wording inputs options = .ok (endLine output) := by
  rw [highlight_of_source wording known read, isFormat]
  dsimp only
  rw [renders]
  rfl

/-- The markup that is shown is that of the source, or of the source and a line break. -/
theorem exists_read?_of_shows {commonClass text printed : List Char} {spans : List Span}
    (shows : Shows output printed) (adds : Markup.Adds commonClass 0 text spans output) :
    ∃ shown, Markup.read? commonClass printed = some (shown, spans) ∧
      (shown = text ∨ shown = text ++ ['\n']) := by
  cases shows with
  | whole => exact ⟨text, Markup.read?_of_adds adds, .inl rfl⟩
  | broken =>
    have addsMore := adds.append (Markup.adds_escape ['\n'] _)
    rw [List.append_nil] at addsMore
    exact ⟨text ++ ['\n'], Markup.read?_of_adds addsMore, .inr rfl⟩

theorem outputFormat?_html (isHtml : settings.format = "html") :
    outputFormat? settings = some (.html settings.commonClass) := by
  unfold outputFormat?
  rw [isHtml]
  rfl

end

theorem runCommand_of_error {failure : Failure} (fails : highlight wording inputs options = .error failure) :
    runCommand wording inputs (.highlight options) = { status := 1, complaint := some failure.message } := by
  simp only [runCommand, fails]

theorem runCommand_of_ok {output : List Char} (succeeds : highlight wording inputs options = .ok output) :
    runCommand wording inputs (.highlight options) = { status := 0, output := String.ofList output } := by
  simp only [runCommand, succeeds]

theorem answers_runCommand (wording : Wording) (inputs : Inputs) (options : Options) :
    Answers wording inputs options (runCommand wording inputs (.highlight options)).status
      (runCommand wording inputs (.highlight options)).output
      (runCommand wording inputs (.highlight options)).errorReport := by
  -- One step after the other, in the order in which they may fail.
  cases known : options.settings inputs.files with
  | error fault =>
    have first : Complains wording inputs options _ _ := .settings known
    rw [runCommand_of_error (highlight_of_badSettings wording known)]
    exact .complains first first.reports
  | ok settings =>
    cases read : options.source inputs with
    | error error =>
      have first : Complains wording inputs options _ _ := .source known read
      rw [runCommand_of_error (highlight_of_badSource wording known read)]
      exact .complains first first.reports
    | ok source =>
      cases isFormat : outputFormat? settings with
      | none =>
        have first : Complains wording inputs options _ _ := .format known read isFormat
        have fails : highlight wording inputs options = .error (.format (.notFound settings.format)) := by
          rw [highlight_of_source wording known read, isFormat]
        rw [runCommand_of_error fails]
        exact .complains first first.reports
      | some format =>
        obtain ⟨output, renders⟩ := exists_render isFormat settings.variant.table source.toList
        rw [runCommand_of_ok (highlight_of_render wording known read isFormat renders)]
        exact .shown known read isFormat renders (shows_endLine output)

/-- A run that highlights answers as `Answers` says, and the markup that it shows is that of the source, with one
line break more at most. -/
theorem run_highlight (wording : Wording) (inputs : Inputs) (arguments : List String) (options : Options)
    (accepted : Command.ofArguments arguments = .ok (.highlight options)) :
    Answers wording inputs options (run inputs arguments wording).status (run inputs arguments wording).output
        (run inputs arguments wording).errorReport ∧
      ∀ settings source, options.settings inputs.files = .ok settings → options.source inputs = .ok source →
        settings.format = "html" →
          ∃ shown, Markup.read? settings.commonClass.toList (run inputs arguments wording).output.toList =
              some (shown, settings.variant.table.classify source.toList) ∧
            (shown = source.toList ∨ shown = source.toList ++ ['\n']) := by
  have isRun : run inputs arguments wording = runCommand wording inputs (.highlight options) := by
    rw [run, accepted]
  rw [isRun]
  refine ⟨answers_runCommand wording inputs options, ?_⟩
  intro settings source known read isHtml
  obtain ⟨markup, rendered, adds⟩ :=
    exists_markup settings.commonClass.toList settings.variant.table source.toList
  have renders : (Format.html settings.commonClass).render source.toList
      (settings.variant.table.classify source.toList) = .ok markup := by
    simp only [Format.html, rendered]
  rw [runCommand_of_ok (highlight_of_render wording known read (outputFormat?_html isHtml) renders),
    String.toList_ofList]
  exact exists_read?_of_shows (shows_endLine markup) adds

/-- No file at all. -/
def noFiles : Files := fun _ => .error .notFound

/-- A file that is needed and missing, in words. -/
def namesMissing : Wording
  | _, _, .unreadable file => s!"configuration file \"{file}\" not found"
  | _, _, _ => ""

theorem run_highlight_stdin :
    (Command.ofArguments ["highlight", "-f", "html"] = .ok (.highlight { format := some "html" }) ∧
      Answers namesMissing ⟨"<a".toUTF8, noFiles⟩ { format := some "html" }
        (run ⟨"<a".toUTF8, noFiles⟩ ["highlight", "-f", "html"] namesMissing).status
        (run ⟨"<a".toUTF8, noFiles⟩ ["highlight", "-f", "html"] namesMissing).output
        (run ⟨"<a".toUTF8, noFiles⟩ ["highlight", "-f", "html"] namesMissing).errorReport ∧
      ∃ shown, Markup.read? "token".toList
          (run ⟨"<a".toUTF8, noFiles⟩ ["highlight", "-f", "html"] namesMissing).output.toList =
            some (shown, Variant.v1.table.classify "<a".toList) ∧
        (shown = "<a".toList ∨ shown = "<a".toList ++ ['\n'])) ∧
    Command.ofArguments ["highlight", "-c", "a.toml"] = .ok (.highlight { config := some "a.toml" }) ∧
      Answers namesMissing ⟨.empty, noFiles⟩ { config := some "a.toml" } 1 ""
        "Error: configuration: configuration file \"a.toml\" not found\n" := by
  have accepted : Command.ofArguments ["highlight", "-f", "html"] =
      .ok (.highlight { format := some "html" }) := rfl
  have acceptedToo : Command.ofArguments ["highlight", "-c", "a.toml"] =
      .ok (.highlight { config := some "a.toml" }) := rfl
  obtain ⟨answers, shows⟩ := run_highlight namesMissing ⟨"<a".toUTF8, noFiles⟩ _ _ accepted
  have fails := (run_highlight namesMissing ⟨.empty, noFiles⟩ _ _ acceptedToo).1
  exact ⟨⟨accepted, answers, shows ⟨.v1, "html", "token"⟩ "<a" rfl rfl rfl⟩, acceptedToo, fails⟩

/-- A name with a line break in it makes the report two lines, both of which tell of an error. -/
theorem run_highlight_brokenName :
    Command.ofArguments ["highlight", "-f", "a\nError: b"] =
        .ok (.highlight { format := some "a\nError: b" }) ∧
      run ⟨.empty, noFiles⟩ ["highlight", "-f", "a\nError: b"] =
        { status := 1, complaint := some "Format 'a\nError: b' not found" } ∧
      textLines (run ⟨.empty, noFiles⟩ ["highlight", "-f", "a\nError: b"]).errorReport.toList =
        ["Error: Format 'a".toList, "Error: b' not found".toList] ∧
      (markedLines errorMark
        (run ⟨.empty, noFiles⟩ ["highlight", "-f", "a\nError: b"]).errorReport.toList).length ≠ 1 := by
  have accepted : Command.ofArguments ["highlight", "-f", "a\nError: b"] =
      .ok (.highlight { format := some "a\nError: b" }) := rfl
  have known : Options.settings { format := some "a\nError: b" } noFiles =
      .ok ⟨.v1, "a\nError: b", "token"⟩ := rfl
  have read : Options.source { format := some "a\nError: b" } ⟨.empty, noFiles⟩ = .ok "" := rfl
  have unknown : outputFormat? ⟨.v1, "a\nError: b", "token"⟩ = none := by decide +kernel
  have fails : highlight .silent ⟨.empty, noFiles⟩ { format := some "a\nError: b" } =
      .error (.format (.notFound "a\nError: b")) := by
    rw [highlight_of_source .silent known read, unknown]
  have isRun : run ⟨.empty, noFiles⟩ ["highlight", "-f", "a\nError: b"] =
      { status := 1, complaint := some "Format 'a\nError: b' not found" } := by
    rw [run, accepted]
    exact runCommand_of_error fails
  rw [isRun]
  exact ⟨accepted, rfl, by decide +kernel, by decide +kernel⟩

end CommandLine

end Highlighter
