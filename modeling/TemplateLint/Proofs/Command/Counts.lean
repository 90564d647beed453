import TemplateLint.Command.Run
import TemplateLint.Proofs.Files.Order
import TemplateLint.Proofs.Lint.Counts

/-! The counts of a run of the command, over the documents that could be loaded. -/
namespace TemplateLint.Command
open Files (FileTree)

theorem toOption_load (files : FileTree) (path : String) :
    (RootNode.load files path path).toOption =
      (files.read path).toOption.bind fun text => (RootNode.ofDocument text).toOption := by
  unfold RootNode.load
  cases files.read path with
  | error e => rfl
  | ok text =>
    dsimp only [Except.toOption, Option.bind_some]
    cases RootNode.ofDocument text <;> rfl

/-- The documents that can be loaded, in the order of their paths. -/
def loadedDocuments (files : FileTree) (paths : List String) : List (String × RootNode) :=
  paths.filterMap fun path => (RootNode.load files path path).toOption.map (path, ·)

theorem loadedDocuments_cons (files : FileTree) (path : String) (paths : List String) :
    loadedDocuments files (path :: paths) =
      ((RootNode.load files path path).toOption.map (path, ·)).toList ++
        loadedDocuments files paths := by
  rw [loadedDocuments, List.filterMap_cons]
  cases (RootNode.load files path path).toOption <;> rfl

theorem loadedDocuments_fst_sublist (files : FileTree) (paths : List String) :
    ((loadedDocuments files paths).map Prod.fst).Sublist paths := by
  unfold loadedDocuments
  induction paths with
  | nil => exact List.Sublist.refl _
  | cons path paths ih =>
    rw [List.filterMap_cons]
    cases (RootNode.load files path path).toOption with
    | none => exact ih.cons path
    | some root => exact ih.cons_cons path

/-- Leaving out what could not be loaded keeps the order. -/
theorem loadedDocuments_pairwise (files : FileTree) {paths : List String}
    (hpaths : paths.Pairwise fun a b =>
      Files.Path.isBefore (Files.Path.components a) (Files.Path.components b) = true) :
    (loadedDocuments files paths).Pairwise fun a b =>
      Files.Path.isBefore (Files.Path.components a.1) (Files.Path.components b.1) = true :=
  List.pairwise_map.mp (hpaths.sublist (loadedDocuments_fst_sublist files paths))

/-- A document that was loaded, with its result. -/
def LintedDocument.ofLoaded (linter : Linter) (document : String × RootNode) : LintedDocument :=
  ⟨document.1, document.2.source, linter.lint document.2 document.1⟩

theorem foldl_add_documents (options : LintOptions) (linter : Linter) (files : FileTree)
    (paths : List String) (linted : Linted) :
    ((paths.map (lintDocument linter files)).foldl (Linted.add options.verbose) linted).documents =
      linted.documents ++
        (loadedDocuments files paths).map (LintedDocument.ofLoaded linter) := by
  unfold loadedDocuments
  induction paths generalizing linted with
  | nil => exact (List.append_nil _).symm
  | cons path paths ih =>
    rw [List.map_cons, List.foldl_cons, ih, List.filterMap_cons]
    unfold lintDocument
    cases RootNode.load files path path with
    | error e => rfl
    | ok root => exact List.append_assoc ..

theorem lintDocuments_documents (options : LintOptions) (linter : Linter) (files : FileTree)
    (paths : List String) : (lintDocuments options linter files paths).documents =
      (loadedDocuments files paths).map (LintedDocument.ofLoaded linter) :=
  foldl_add_documents options linter files paths .empty

theorem lintDocuments_results (options : LintOptions) (linter : Linter) (files : FileTree)
    (paths : List String) :
    (lintDocuments options linter files paths).documents.map (·.result) =
      (linter.lintFiles (loadedDocuments files paths)).1 := by
  rw [lintDocuments_documents, List.map_map]
  rfl

theorem Linted.summary_eq (l : Linted) :
    l.summary = Summary.ofResults (l.documents.map (·.result)) := by
  rw [← Summary.addAll_flatMap, List.flatMap_map, List.length_map]
  rfl

/-- The counts agree wherever they are kept. Those of a context are right after any operations on a
fresh one, and so are those of a result. The summary over several templates adds up the results, one
for each template, and does not depend on the order of the templates. A run of the command has the
results and the summary of linting the documents that could be loaded, which stand in strictly
ascending order of their paths. -/
theorem counts_agree :
    (∀ source filename (ops : List Context.Operation),
      let ctx := ops.foldl Context.perform (.start source filename)
      ctx.errors = ctx.diagnostics.toList.countP (fun d => d.severity = .error) ∧
        ctx.warnings = ctx.diagnostics.toList.countP fun d => d.severity = .warning) ∧
    (∀ (linter : Linter) (files : List (String × RootNode)),
      let (results, summary) := linter.lintFiles files
      (∀ i : Nat, results[i]? = files[i]?.map fun (filename, root) => linter.lint root filename) ∧
        (∀ r ∈ results, r.errors = r.diagnostics.countP (fun d => d.severity = .error) ∧
          r.warnings = r.diagnostics.countP fun d => d.severity = .warning) ∧
        summary.errors = (results.map LintResult.errors).sum ∧
        summary.warnings = (results.map LintResult.warnings).sum ∧
        summary.fixable = (results.map LintResult.fixableCount).sum ∧
        summary.files = files.length ∧
        ∀ files', files'.Perm files → (linter.lintFiles files').2 = summary) ∧
    ∀ (options : LintOptions) (linter : Linter) (files : FileTree),
      let paths := Files.Documents.collect files options.patterns
      let linted := lintDocuments options linter files paths
      let loaded := loadedDocuments files paths
      linted.documents.map (·.result) = (linter.lintFiles loaded).1 ∧
        linted.summary = (linter.lintFiles loaded).2 ∧
        loaded.Pairwise fun a b =>
          Files.Path.isBefore (Files.Path.components a.1) (Files.Path.components b.1) = true := by
  refine ⟨?_, ?_, ?_⟩
  · intro source filename ops
    exact (Context.counted_start source filename).foldl_perform ops
  · intro linter files
    have htotals : (linter.lintFiles files).2 = _ := linter.lintFiles_totals
    exact ⟨fun i => List.getElem?_map .., fun r hr => linter.counts_of_mem_lintFiles hr,
      congrArg Summary.errors htotals, congrArg Summary.warnings htotals,
      congrArg Summary.fixable htotals, congrArg Summary.files htotals,
      fun files' hperm => linter.lintFiles_summary_perm hperm⟩
  · intro options linter files paths linted loaded
    refine ⟨lintDocuments_results options linter files paths, ?_, ?_⟩
    · rw [Linted.summary_eq, lintDocuments_results, linter.lintFiles_summary]
    · exact loadedDocuments_pairwise files (Files.Documents.ofFindings_pairwise _)

end TemplateLint.Command
