import TemplateLint.Proofs.Command.Counts
import TemplateLint.Proofs.Command.Fixes
import TemplateLint.Proofs.Command.Stages
import TemplateLint.Proofs.Files.Walks
import TemplateLint.Proofs.Lint.FixSafety

/-! The exit status of a run: what makes a run fail, and that nothing else does. -/
namespace TemplateLint.Command
open Files (FileTree)

/-- The configuration of a run, from the directory that was asked for or the working directory. -/
def configuration (options : LintOptions) (workspace : Workspace) :
    Except LoadError (Config × LogEvent) :=
  match options.config with
  | some directory => Config.load workspace.files directory directory
  | none => Config.load workspace.files "" workspace.directory

/-- The documents that patterns stand for and that could be loaded, with their results. -/
def lintedDocuments (options : LintOptions) (linter : Linter) (files : FileTree) :
    List LintedDocument :=
  (loadedDocuments files (Files.Documents.collect files options.patterns)).map
    (LintedDocument.ofLoaded linter)

def findings (options : LintOptions) (linter : Linter) (files : FileTree) : List Diagnostic :=
  (lintedDocuments options linter files).flatMap fun d => d.result.diagnostics

/-- Why a run with documents does not end well. -/
inductive Failure (options : LintOptions) (workspace : Workspace) : Prop
  | config {e : LoadError} (h : configuration options workspace = .error e)
  | unknownRule {config : Config} {event : LogEvent} {rule : String} {level : RuleLevel}
      (h : configuration options workspace = .ok (config, event))
      (hlevel : (rule, level) ∈ config.rules)
      (hunknown : ∀ r ∈ Registry.recommended, r.name ≠ rule)
  | document {path : String} {e : LoadError}
      (hpath : path ∈ Files.Documents.collect workspace.files options.patterns)
      (h : RootNode.load workspace.files path path = .error e)
  | diagnostic {linter : Linter} {d : Diagnostic}
      (hlinter : (prepare options workspace).1 = .ok linter)
      (hd : d ∈ findings options linter workspace.files) (h : d.severity = .error)
  | fix {linter : Linter} (hlinter : (prepare options workspace).1 = .ok linter)
      (hfix : options.fix = true)
      (h : FailsToSave workspace.files
        ((lintedDocuments options linter workspace.files).filterMap LintedDocument.fixed?))
  | warnings {linter : Linter} {most : Nat}
      (hlinter : (prepare options workspace).1 = .ok linter)
      (hmost : options.maxWarnings = some most)
      (h : most < countOf .warning (findings options linter workspace.files))

theorem prepare_eq (options : LintOptions) (workspace : Workspace) :
    prepare options workspace =
      match configuration options workspace with
      | .error e => (.error e.message, [])
      | .ok (config, event) =>
        ((Linter.recommended.configure config).mapError UnknownRule.message, [event]) := by
  unfold prepare configuration
  cases options.config <;> rfl

theorem exists_prepare_eq_error_iff {options : LintOptions} {workspace : Workspace} :
    (∃ message, (prepare options workspace).1 = .error message) ↔
      (∃ e, configuration options workspace = .error e) ∨
        ∃ config event, configuration options workspace = .ok (config, event) ∧
          ∃ entry ∈ config.rules, ∀ r ∈ Registry.recommended, r.name ≠ entry.1 := by
  rw [prepare_eq]
  cases configuration options workspace with
  | error e => simp
  | ok found =>
    obtain ⟨config, event⟩ := found
    dsimp only [Linter.configure]
    rw [exists_mapError_eq_error_iff, Linter.exists_setLevels_eq_error_iff]
    constructor
    · exact fun h => .inr ⟨config, event, rfl, h⟩
    · rintro (⟨e, he⟩ | ⟨config', event', heq, h⟩)
      · cases he
      · cases heq
        exact h

theorem foldl_add_failed (options : LintOptions) (linter : Linter) (files : FileTree)
    (paths : List String) (linted : Linted) :
    ((paths.map (lintDocument linter files)).foldl (Linted.add options.verbose) linted).failed =
      linted.failed + paths.countP fun path => !(RootNode.load files path path).toBool := by
  induction paths generalizing linted with
  | nil => rfl
  | cons path paths ih =>
    rw [List.map_cons, List.foldl_cons, ih, List.countP_cons]
    unfold lintDocument
    cases RootNode.load files path path with
    | error e => exact Nat.add_right_comm ..
    | ok root => rfl

theorem lintDocuments_failed_pos_iff (options : LintOptions) (linter : Linter) (files : FileTree)
    (paths : List String) : 0 < (lintDocuments options linter files paths).failed ↔
      ∃ path ∈ paths, ∃ e, RootNode.load files path path = .error e := by
  have hfailed : (lintDocuments options linter files paths).failed = _ :=
    foldl_add_failed options linter files paths .empty
  rw [hfailed, Linted.empty, Nat.zero_add, List.countP_pos_iff]
  refine exists_congr fun path => and_congr_right fun _ => ?_
  cases RootNode.load files path path <;> simp [Except.toBool]

section Counts
variable (options : LintOptions) (linter : Linter) (files : FileTree)

theorem lintDocuments_summary :
    (lintDocuments options linter files
      (Files.Documents.collect files options.patterns)).summary =
      { Summary.empty.addAll (findings options linter files) with
        files := (lintedDocuments options linter files).length } := by
  rw [Linted.summary, lintDocuments_documents]
  rfl

theorem lintDocuments_summary_errors_pos_iff :
    0 < (lintDocuments options linter files
      (Files.Documents.collect files options.patterns)).summary.errors ↔
      ∃ d ∈ findings options linter files, d.severity = .error := by
  rw [lintDocuments_summary, Summary.addAll_eq]
  simp [Summary.empty, countOf]

theorem lintDocuments_summary_warnings :
    (lintDocuments options linter files
      (Files.Documents.collect files options.patterns)).summary.warnings =
      countOf .warning (findings options linter files) := by
  rw [lintDocuments_summary, Summary.addAll_eq]
  exact Nat.zero_add _

end Counts

theorem tooManyWarnings_iff (options : LintOptions) (summary : Summary) :
    tooManyWarnings options summary = true ↔
      ∃ most, options.maxWarnings = some most ∧ most < summary.warnings := by
  simp [tooManyWarnings, Option.any_eq_true]

theorem runLinter_status_eq (options : LintOptions) (linter : Linter) (files : FileTree)
    (paths : List String) (elapsed : String) :
    let linted := lintDocuments options linter files paths
    (runLinter options linter files paths elapsed).status =
      if 0 < linted.summary.errors ∨
        0 < linted.failed + (writeFixes options files linted.documents).failed ∨
        tooManyWarnings options linted.summary = true then 1 else 0 := by
  intro linted
  -- Whether too many warnings are an offence of their own is asked only when nothing has failed.
  have hexceeded (failed exceeded : Bool) :
      (failed || !failed && exceeded) = (failed || exceeded) := by
    cases failed <;> rfl
  unfold runLinter
  dsimp only
  rw [hexceeded]
  simp only [Summary.hasErrors, Bool.or_eq_true, decide_eq_true_eq, or_assoc]
  rfl

/-- The run over documents fails for one of four reasons. -/
theorem runLinter_status_iff (options : LintOptions) (linter : Linter) (files : FileTree)
    (elapsed : String) :
    let paths := Files.Documents.collect files options.patterns
    let found := findings options linter files
    let failure := (∃ d ∈ found, d.severity = .error) ∨
      (∃ path ∈ paths, ∃ e, RootNode.load files path path = .error e) ∨
      (options.fix = true ∧ FailsToSave files
        ((lintedDocuments options linter files).filterMap LintedDocument.fixed?)) ∨
      ∃ most, options.maxWarnings = some most ∧ most < countOf .warning found
    let status := (runLinter options linter files paths elapsed).status
    (status = 1 ↔ failure) ∧ (status = 0 ↔ ¬failure) := by
  intro paths found failure status
  have hfailure : (0 < (lintDocuments options linter files paths).summary.errors ∨
      0 < (lintDocuments options linter files paths).failed +
        (writeFixes options files (lintDocuments options linter files paths).documents).failed ∨
      tooManyWarnings options (lintDocuments options linter files paths).summary = true) ↔
        failure := by
    rw [lintDocuments_summary_errors_pos_iff, Nat.add_pos_iff_pos_or_pos, or_assoc,
      lintDocuments_failed_pos_iff, failed_writeFixes_pos_iff, tooManyWarnings_iff,
      lintDocuments_summary_warnings, lintDocuments_documents]
    rfl
  have hstatus : status = _ := runLinter_status_eq options linter files paths elapsed
  rw [← hfailure, hstatus]
  split
  next h => exact ⟨iff_of_true rfl h, iff_of_false Nat.one_ne_zero (not_not.mpr h)⟩
  next h => exact ⟨iff_of_false Nat.zero_ne_one h, iff_of_true rfl h⟩

section Failures
variable {options : LintOptions} {workspace : Workspace}

theorem failure_of_error {message : String}
    (h : (prepare options workspace).1 = .error message) : Failure options workspace := by
  rcases exists_prepare_eq_error_iff.mp ⟨message, h⟩ with
    ⟨e, he⟩ | ⟨config, event, hconfig, ⟨rule, level⟩, hlevel, hunknown⟩
  · exact .config he
  · exact .unknownRule hconfig hlevel hunknown

theorem failure_iff_of_ok {linter : Linter} (h : (prepare options workspace).1 = .ok linter) :
    Failure options workspace ↔
      (∃ d ∈ findings options linter workspace.files, d.severity = .error) ∨
      (∃ path ∈ Files.Documents.collect workspace.files options.patterns,
        ∃ e, RootNode.load workspace.files path path = .error e) ∨
      (options.fix = true ∧ FailsToSave workspace.files
        ((lintedDocuments options linter workspace.files).filterMap LintedDocument.fixed?)) ∨
      ∃ most, options.maxWarnings = some most ∧
        most < countOf .warning (findings options linter workspace.files) := by
  have hno (message : String) : (prepare options workspace).1 ≠ .error message := by
    rw [h]
    nofun
  have huse {other : Linter} (hother : (prepare options workspace).1 = .ok other) :
      other = linter := Except.ok.inj (hother.symm.trans h)
  constructor
  · intro hfailure
    cases hfailure with
    | config he =>
      obtain ⟨message, hmessage⟩ := exists_prepare_eq_error_iff.mpr (.inl ⟨_, he⟩)
      exact absurd hmessage (hno message)
    | unknownRule hconfig hlevel hunknown =>
      obtain ⟨message, hmessage⟩ :=
        exists_prepare_eq_error_iff.mpr (.inr ⟨_, _, hconfig, _, hlevel, hunknown⟩)
      exact absurd hmessage (hno message)
    | document hpath he => exact .inr (.inl ⟨_, hpath, _, he⟩)
    | diagnostic hlinter hd herror => exact .inl ⟨_, huse hlinter ▸ hd, herror⟩
    | fix hlinter hfix hfails => exact .inr (.inr (.inl ⟨hfix, huse hlinter ▸ hfails⟩))
    | warnings hlinter hmost hlt => exact .inr (.inr (.inr ⟨_, hmost, huse hlinter ▸ hlt⟩))
  · rintro (⟨d, hd, herror⟩ | ⟨path, hpath, e, he⟩ | ⟨hfix, hfails⟩ | ⟨most, hmost, hlt⟩)
    · exact .diagnostic h hd herror
    · exact .document hpath he
    · exact .fix h hfix hfails
    · exact .warnings h hmost hlt

theorem runLint_status_iff (h : Files.Documents.collect workspace.files options.patterns ≠ [])
    (elapsed : String) :
    ((runLint options workspace elapsed).status = 1 ↔ Failure options workspace) ∧
      ((runLint options workspace elapsed).status = 0 ↔ ¬Failure options workspace) := by
  cases hprepare : (prepare options workspace).1 with
  | error message =>
    obtain ⟨stderr, hrun⟩ := runLint_of_error options workspace elapsed h hprepare
    have hfailure := failure_of_error hprepare
    rw [hrun]
    exact ⟨iff_of_true rfl hfailure, iff_of_false Nat.one_ne_zero (not_not.mpr hfailure)⟩
  | ok linter =>
    obtain ⟨stderr, hrun⟩ := runLint_of_ok options workspace elapsed h hprepare
    rw [hrun, failure_iff_of_ok hprepare]
    exact runLinter_status_iff options linter workspace.files elapsed

end Failures

/-- What a run writes has nothing to do with what it shows. -/
theorem runLinter_shown (options : LintOptions) (format : String) (quiet verbose : Bool)
    (linter : Linter) (files : FileTree) (elapsed elapsed' : String) :
    let paths := Files.Documents.collect files options.patterns
    let outcome := runLinter options linter files paths elapsed
    let other := runLinter { options with format, quiet, verbose } linter files paths elapsed'
    other.status = outcome.status ∧ other.written = outcome.written ∧
      other.files = outcome.files := by
  intro paths outcome other
  obtain ⟨hone, hzero⟩ := runLinter_status_iff options linter files elapsed
  obtain ⟨hone', hzero'⟩ :=
    runLinter_status_iff { options with format, quiet, verbose } linter files elapsed'
  have hsilent : (writeFixes { options with format, quiet, verbose } files
      (lintDocuments { options with format, quiet, verbose } linter files paths).documents).silent =
      (writeFixes options files (lintDocuments options linter files paths).documents).silent := by
    rw [silent_writeFixes, silent_writeFixes, lintDocuments_documents, lintDocuments_documents]
  refine ⟨?_, (congrArg FixRun.written hsilent :), (congrArg FixRun.files hsilent :)⟩
  by_cases h : outcome.status = 1
  · exact (hone'.mpr (hone.mp h)).trans h.symm
  · have hnot := fun hfailure => h (hone.mpr hfailure)
    exact (hzero'.mpr hnot).trans (hzero.mpr hnot).symm

theorem runLint_shown (options : LintOptions) (format : String) (quiet verbose : Bool)
    (workspace : Workspace) (elapsed elapsed' : String) :
    let outcome := runLint options workspace elapsed
    let other := runLint { options with format, quiet, verbose } workspace elapsed'
    other.status = outcome.status ∧ other.written = outcome.written ∧
      other.files = outcome.files := by
  intro outcome other
  by_cases hcollect : Files.Documents.collect workspace.files options.patterns = []
  · obtain ⟨stderr, hrun⟩ := runLint_of_nil options workspace elapsed hcollect
    obtain ⟨stderr', hrun'⟩ := runLint_of_nil
        { options with format, quiet, verbose } workspace elapsed' hcollect
    rw [show outcome = _ from hrun, show other = _ from hrun']
    exact ⟨rfl, rfl, rfl⟩
  · cases hprepare : (prepare options workspace).1 with
    | error message =>
      obtain ⟨stderr, hrun⟩ := runLint_of_error options workspace elapsed hcollect hprepare
      obtain ⟨stderr', hrun'⟩ := runLint_of_error
        { options with format, quiet, verbose } workspace elapsed' hcollect hprepare
      rw [show outcome = _ from hrun, show other = _ from hrun']
      exact ⟨rfl, rfl, rfl⟩
    | ok linter =>
      obtain ⟨stderr, hrun⟩ := runLint_of_ok options workspace elapsed hcollect hprepare
      obtain ⟨stderr', hrun'⟩ := runLint_of_ok
        { options with format, quiet, verbose } workspace elapsed' hcollect hprepare
      rw [show outcome = _ from hrun, show other = _ from hrun']
      exact runLinter_shown options format quiet verbose linter workspace.files elapsed elapsed'

end TemplateLint.Command
