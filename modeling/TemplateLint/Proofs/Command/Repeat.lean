import TemplateLint.Proofs.Command.WrittenFixes
import TemplateLint.Proofs.Template.RoundTrip

/-! Another run with fixes over the tree that one has left: it finds the same documents, shows the
same and leaves everything as it is. -/
namespace TemplateLint.Command
open Files (FileTree FixedPath Intact)

theorem rules_of_prepare {options : LintOptions} {workspace : Workspace} {linter : Linter}
    (h : (prepare options workspace).1 = .ok linter) : linter.rules = .recommended := by
  rw [prepare_eq] at h
  cases hconfig : configuration options workspace with
  | error e =>
    rw [hconfig] at h
    cases h
  | ok found =>
    rw [hconfig] at h
    dsimp only at h
    cases hlevels : Linter.recommended.configure found.1 with
    | error e =>
      rw [hlevels] at h
      cases h
    | ok linter' =>
      rw [hlevels] at h
      cases h
      exact Linter.setLevels_rules hlevels

/-! Trees with other fixed templates -/

section Intact
variable {root t : FileTree} (hroot : root.Proper) (h : Intact root t)
include hroot h

theorem load_intact {path : String} (hpath : Files.isDocument path = true) :
    (RootNode.load t path path).toOption = (RootNode.load root path path).toOption := by
  rw [toOption_load, toOption_load, h.read_eq hroot (Files.not_endsWith_fixedSuffix hpath)]

theorem config_load_intact {directory shown : String} {found : Config × LogEvent}
    (hfound : Config.load root directory shown = .ok found) :
    Config.load t directory shown = .ok found := by
  have hpath : (Files.Path.join directory Config.fileName).endsWith Files.fixedSuffix = false := by
    have hends : (Files.Path.join directory Config.fileName).endsWith Config.fileName = true :=
      Files.Path.endsWith_join directory (Files.Path.endsWith_iff.mpr List.suffix_rfl)
    rw [← Bool.not_eq_true, Files.Path.endsWith_iff]
    intro hfixed
    rcases List.suffix_or_suffix_of_suffix hfixed (Files.Path.endsWith_iff.mp hends) with
      hsuffix | hsuffix <;>
      exact absurd hsuffix (by decide)
  have hread := h.read_eq hroot hpath
  unfold Config.load at *
  dsimp only at *
  rw [h.contains_eq hroot hpath]
  split
  next hcontains =>
    rw [if_pos hcontains] at hfound
    cases htext : root.read (Files.Path.join directory Config.fileName) with
    | error e =>
      rw [htext] at hfound
      cases hfound
    | ok text =>
      rw [htext] at hfound hread
      rw [toOption_eq_some_iff.mp hread]
      exact hfound
  next hcontains =>
    rw [if_neg hcontains] at hfound
    exact hfound

theorem prepare_intact {options : LintOptions} {directory : String} {linter : Linter}
    (hlinter : (prepare options ⟨directory, root⟩).1 = .ok linter) :
    (prepare options ⟨directory, t⟩).1 = .ok linter := by
  have hconfig {found : Config × LogEvent}
      (hfound : configuration options ⟨directory, root⟩ = .ok found) :
      configuration options ⟨directory, t⟩ = .ok found := by
    unfold configuration at *
    cases hoption : options.config <;> rw [hoption] at hfound <;>
      exact config_load_intact hroot h hfound
  rw [prepare_eq] at *
  cases hfound : configuration options ⟨directory, root⟩ with
  | error e =>
    rw [hfound] at hlinter
    cases hlinter
  | ok found =>
    rw [hfound] at hlinter
    rw [hconfig hfound]
    exact hlinter

theorem loadedDocuments_intact {paths : List String}
    (hpaths : ∀ path ∈ paths, Files.isDocument path = true) :
    loadedDocuments t paths = loadedDocuments root paths := by
  refine List.filterMap_congr fun path hpath => ?_
  rw [load_intact hroot h (hpaths path hpath)]

theorem lintDocuments_failed_intact (options : LintOptions) (linter : Linter)
    {paths : List String} (hpaths : ∀ path ∈ paths, Files.isDocument path = true) :
    (lintDocuments options linter t paths).failed =
      (lintDocuments options linter root paths).failed := by
  have hfailed (files : FileTree) : (lintDocuments options linter files paths).failed = _ :=
    foldl_add_failed options linter files paths .empty
  have hbool (files : FileTree) (path : String) :
      (RootNode.load files path path).toBool =
        (RootNode.load files path path).toOption.isSome := by
    cases RootNode.load files path path <;> rfl
  rw [hfailed, hfailed]
  refine congrArg _ (List.countP_congr fun path hpath => ?_)
  rw [hbool, hbool, load_intact hroot h (hpaths path hpath)]

end Intact

/-! Two runs that find the same -/

theorem summary_congr {linted linted' : Linted} (h : linted.documents = linted'.documents) :
    linted.summary = linted'.summary := by
  rw [Linted.summary, Linted.summary, h]

theorem reportText_congr (options : LintOptions) (format : Report.Format)
    {linted linted' : Linted} (h : linted.documents = linted'.documents) :
    reportText options format linted = reportText options format linted' := by
  rw [reportText, reportText, summary_congr h, Linted.report, Linted.report, h]

section Congruence
variable {options : LintOptions} {linter : Linter} {files files' : FileTree}
  {paths paths' : List String} (hdocuments : (lintDocuments options linter files paths).documents =
    (lintDocuments options linter files' paths').documents)
include hdocuments

theorem runLinter_stdout_congr
    (hwritten : (writeFixes options files
        (lintDocuments options linter files paths).documents).written =
      (writeFixes options files' (lintDocuments options linter files' paths').documents).written)
    (elapsed : String) : (runLinter options linter files paths elapsed).stdout =
      (runLinter options linter files' paths' elapsed).stdout := by
  unfold runLinter closingText
  dsimp only
  rw [reportText_congr options _ hdocuments, summary_congr hdocuments, hwritten]

theorem runLinter_status_congr (hfailed : (lintDocuments options linter files paths).failed =
      (lintDocuments options linter files' paths').failed)
    (hfixes : (writeFixes options files
        (lintDocuments options linter files paths).documents).failed =
      (writeFixes options files' (lintDocuments options linter files' paths').documents).failed)
    (elapsed elapsed' : String) : (runLinter options linter files paths elapsed).status =
      (runLinter options linter files' paths' elapsed').status := by
  rw [runLinter_status_eq, runLinter_status_eq, summary_congr hdocuments, hfailed, hfixes]

end Congruence

section Again
variable {options : LintOptions} (hfix : options.fix = true) {files : FileTree}
  (hfiles : files.Proper) {linter : Linter} (hrules : linter.rules = .recommended)
include hfix hfiles hrules

/-- Whatever fixed templates there are in a tree, the same run finds the same documents in it and
writes the same files. -/
theorem runLinter_intact {t : FileTree} (h : Intact files t) (elapsed elapsed' : String) :
    let paths := Files.Documents.collect files options.patterns
    let outcome := runLinter options linter files paths elapsed
    let other := runLinter options linter t paths elapsed'
    lintedDocuments options linter t = lintedDocuments options linter files ∧
      other.stdout = (runLinter options linter files paths elapsed').stdout ∧
      other.status = outcome.status ∧
      other.files = (fixedTemplates options linter files).foldl WrittenFile.saveIn t := by
  intro paths outcome other
  have hpaths : ∀ path ∈ paths, Files.isDocument path = true :=
    fun path hpath => Files.Documents.isDocument_of_mem_collect hpath
  have hlinted : lintedDocuments options linter t = lintedDocuments options linter files := by
    rw [lintedDocuments, lintedDocuments, h.collect_eq hfiles,
      loadedDocuments_intact hfiles h hpaths]
  have hdocuments : (lintDocuments options linter t paths).documents =
      (lintDocuments options linter files paths).documents := by
    rw [lintDocuments_documents, lintDocuments_documents, loadedDocuments_intact hfiles h hpaths]
  have hsaved : (lintDocuments options linter files paths).documents =
      lintedDocuments options linter files := lintDocuments_documents ..
  have hsilent := silent_writeFixes_intact hfix hfiles hrules h
  have hsilent' := silent_writeFixes_intact hfix hfiles hrules (.refl hfiles)
  refine ⟨hlinted, runLinter_stdout_congr hdocuments ?_ elapsed',
    runLinter_status_congr hdocuments (lintDocuments_failed_intact hfiles h options linter hpaths)
      ?_ elapsed' elapsed, ?_⟩
  · rw [hdocuments, hsaved]
    exact (congrArg FixRun.written hsilent).trans (congrArg FixRun.written hsilent').symm
  · rw [hdocuments, hsaved]
    exact (congrArg FixRun.failed hsilent).trans (congrArg FixRun.failed hsilent').symm
  · have hfixes := congrArg FixRun.files hsilent
    rw [← hsaved, ← hdocuments] at hfixes
    exact hfixes

end Again

theorem runLint_fixes {options : LintOptions} {workspace : Workspace} {linter : Linter}
    (hlinter : (prepare options workspace).1 = .ok linter) (elapsed : String) :
    let fixes := writeFixes options workspace.files
      (lintedDocuments options linter workspace.files)
    (runLint options workspace elapsed).written = fixes.written ∧
      (runLint options workspace elapsed).files = fixes.files := by
  intro fixes
  by_cases hcollect : Files.Documents.collect workspace.files options.patterns = []
  · obtain ⟨stderr, hrun⟩ := runLint_of_nil options workspace elapsed hcollect
    have hfixes : fixes = ⟨workspace.files, [], 0, []⟩ := by
      dsimp only [fixes]
      rw [lintedDocuments, hcollect]
      exact ite_self _
    rw [hrun, hfixes]
    exact ⟨rfl, rfl⟩
  · obtain ⟨stderr, hrun⟩ := runLint_of_ok options workspace elapsed hcollect hlinter
    have hlinted : (lintDocuments options linter workspace.files
        (Files.Documents.collect workspace.files options.patterns)).documents =
        lintedDocuments options linter workspace.files := lintDocuments_documents ..
    rw [hrun]
    dsimp only [fixes]
    rw [← hlinted]
    exact ⟨rfl, rfl⟩

end TemplateLint.Command
