import Mathlib.Data.List.Nodup
import TemplateLint.Proofs.Command.Status
import TemplateLint.Proofs.Report.Positions
import TemplateLint.Proofs.Template.RoundTrip
import TemplateLint.Proofs.Text.Trimming

/-! What a run shows as JSON: an entry for each document that could be loaded, made from that
document alone. -/
namespace TemplateLint.Command
open Files (FileTree)
open Json (Value)

/-- What is shown of a document, from its own result and template. -/
def entry (linter : Linter) (document : String × RootNode) : Value :=
  Report.resultValue [(document.1, document.2.source)] (linter.lint document.2 document.1)

theorem trim_pretty_array (vs : List Value) :
    (Text.trim (Value.array vs).pretty.toList).isEmpty = false := by
  have hmem : '[' ∈ (Value.array vs).pretty.toList := by
    rw [Value.pretty, String.toList_ofList]
    cases vs with
    | nil => exact List.mem_cons_self
    | cons v vs => exact List.mem_append_left _ (List.mem_append_left _ List.mem_cons_self)
  have hwhite (c : Char) (hc : Text.isWhiteSpace c = true) : decide (c = '[') = false := by
    rw [decide_eq_false_iff_not]
    rintro rfl
    exact absurd hc (by decide)
  have hfilter := Text.filter_trim hwhite (Value.array vs).pretty.toList
  cases htrim : Text.trim (Value.array vs).pretty.toList with
  | nil =>
    rw [htrim, List.filter_nil, eq_comm, List.filter_eq_nil_iff] at hfilter
    exact absurd (decide_eq_true rfl) (hfilter _ hmem)
  | cons c cs => rfl

section Loaded
variable (files : FileTree) (paths : List String)

theorem loadedDocuments_map_fst : (loadedDocuments files paths).map Prod.fst =
    paths.filter fun path => (RootNode.load files path path).toBool := by
  unfold loadedDocuments
  induction paths with
  | nil => rfl
  | cons path paths ih =>
    rw [List.filterMap_cons, List.filter_cons, ← ih]
    cases RootNode.load files path path <;> rfl

/-- Those that could be loaded can be loaded again, and all of them. -/
theorem loadedDocuments_loaded :
    loadedDocuments files ((loadedDocuments files paths).map Prod.fst) =
      loadedDocuments files paths := by
  rw [loadedDocuments_map_fst, loadedDocuments, loadedDocuments, List.filterMap_filter]
  refine List.filterMap_congr fun path _ => ?_
  cases RootNode.load files path path <;> rfl

end Loaded

/-- In a report on several documents each has the entry that it has alone. -/
theorem map_resultValue_eq {linter : Linter} {documents : List (String × RootNode)}
    (hdistinct : (documents.map Prod.fst).Nodup) :
    (documents.map fun d => linter.lint d.2 d.1).map
        (Report.resultValue (documents.map fun d => (d.1, d.2.source))) =
      documents.map (entry linter) := by
  rw [List.map_map]
  refine List.map_congr_left fun d hd => ?_
  have hfind : Report.Sources.find (documents.map fun d => (d.1, d.2.source)) d.1 =
      d.2.source := by
    refine Report.Sources.find_eq fun source => ⟨fun hmem => ?_, fun heq => ?_⟩
    · obtain ⟨d', hd', heq⟩ := List.mem_map.mp hmem
      obtain ⟨hpath, hsource⟩ := Prod.mk.inj heq
      rw [← hsource, List.inj_on_of_nodup_map hdistinct hd' hd hpath]
    · exact List.mem_map.mpr ⟨d, hd, heq ▸ rfl⟩
  have hself : Report.Sources.find [(d.1, d.2.source)] d.1 = d.2.source :=
    Report.Sources.find_eq fun source => by simp
  have hname : (linter.lint d.2 d.1).filename = d.1 := rfl
  rw [Function.comp_apply, entry, Report.resultValue, Report.resultValue, hname, hfind, hself]

theorem countOf_eq_zero_iff (ds : List Diagnostic) :
    (countOf .error ds = 0 ∧ countOf .warning ds = 0) ↔ ds = [] := by
  constructor
  · rintro ⟨herrors, hwarnings⟩
    refine List.eq_nil_iff_forall_not_mem.mpr fun d hd => ?_
    have herror := List.countP_eq_zero.mp herrors d hd
    have hwarning := List.countP_eq_zero.mp hwarnings d hd
    cases hseverity : d.severity <;> simp_all
  · rintro rfl
    exact ⟨rfl, rfl⟩

/-- There is nothing to count when nothing was found. -/
theorem summary_eq_zero_iff (linted : Linted) :
    (linted.summary.errors = 0 ∧ linted.summary.warnings = 0) ↔
      ∀ d ∈ linted.documents, d.result.diagnostics = [] := by
  rw [Linted.summary, Summary.addAll_eq, ← List.flatMap_eq_nil_iff, ← countOf_eq_zero_iff]
  simp [Summary.empty]

/-- A report with some text in it is left out of a quiet run without findings only. -/
theorem reportText_eq (options : LintOptions) {format : Report.Format} {linted : Linted}
    {text : String} (hreport : linted.report format = text)
    (htext : (Text.trim text.toList).isEmpty = false) : reportText options format linted =
      if options.quiet = true ∧ ∀ d ∈ linted.documents, d.result.diagnostics = [] then ""
      else text := by
  have hshown : (!options.quiet || decide (0 < linted.summary.errors) ||
      decide (0 < linted.summary.warnings)) = true ↔
        ¬(options.quiet = true ∧ ∀ d ∈ linted.documents, d.result.diagnostics = []) := by
    rw [← summary_eq_zero_iff]
    cases options.quiet <;> simp [Nat.pos_iff_ne_zero, imp_iff_not_or]
  rw [reportText, hreport]
  dsimp only
  rw [htext, if_neg Bool.false_ne_true, if_congr hshown rfl rfl, ite_not]

/-- The report of a run as JSON depends on the documents that could be loaded only. -/
theorem runLinter_stdout_json {options : LintOptions} (hformat : options.format = "json")
    (linter : Linter) (files : FileTree) {paths : List String} (hpaths : paths.Nodup)
    (elapsed : String) :
    (runLinter options linter files paths elapsed).stdout =
      if options.quiet = true ∧
          ∀ d ∈ loadedDocuments files paths, (linter.lint d.2 d.1).diagnostics = [] then ""
      else (Value.array ((loadedDocuments files paths).map (entry linter))).pretty := by
  have hdistinct : ((loadedDocuments files paths).map Prod.fst).Nodup :=
    hpaths.sublist (loadedDocuments_fst_sublist files paths)
  have hdocuments := lintDocuments_documents options linter files paths
  have hreport : (lintDocuments options linter files paths).report .json =
      (Value.array ((loadedDocuments files paths).map (entry linter))).pretty := by
    rw [← map_resultValue_eq hdistinct, Linted.report, hdocuments, List.map_map, List.map_map]
    rfl
  have hstdout : (runLinter options linter files paths elapsed).stdout =
      reportText options .json (lintDocuments options linter files paths) := by
    have hname : Report.Format.ofName options.format = .json := by
      rw [hformat]
      rfl
    unfold runLinter
    dsimp only
    rw [hname]
    exact String.append_empty
  rw [hstdout, reportText_eq options hreport (trim_pretty_array _), hdocuments]
  simp only [List.forall_mem_map]
  rfl

theorem runLint_stdout_json {options : LintOptions} (hformat : options.format = "json")
    {workspace : Workspace}
    (hcollect : Files.Documents.collect workspace.files options.patterns ≠ []) {linter : Linter}
    (hlinter : (prepare options workspace).1 = .ok linter) (elapsed : String) :
    let documents := loadedDocuments workspace.files
      (Files.Documents.collect workspace.files options.patterns)
    (runLint options workspace elapsed).stdout =
      if options.quiet = true ∧ ∀ d ∈ documents, (linter.lint d.2 d.1).diagnostics = [] then ""
      else (Value.array (documents.map (entry linter))).pretty := by
  obtain ⟨stderr, hrun⟩ := runLint_of_ok options workspace elapsed hcollect hlinter
  rw [hrun]
  exact runLinter_stdout_json hformat linter workspace.files (Files.Documents.nodup_collect _ _)
    elapsed

/-- The entries make up one array that can be read. -/
theorem isJson_entries {linter : Linter} {documents : List (String × RootNode)}
    (hdistinct : (documents.map Prod.fst).Nodup)
    (hcounts : ∀ d ∈ documents,
      (linter.lint d.2 d.1).diagnostics.length ≤ Json.maxSignificand) :
    Json.IsJson (Value.array (documents.map (entry linter))).pretty
      (.array (documents.map (entry linter))) := by
  rw [← map_resultValue_eq hdistinct]
  refine Report.isJson_jsonReport _ fun r hr => ?_
  obtain ⟨d, hd, rfl⟩ := List.mem_map.mp hr
  obtain ⟨herrors, hwarnings⟩ := linter.lint_counts d.2 d.1
  rw [herrors, hwarnings]
  exact ⟨Nat.le_trans List.countP_le_length (hcounts d hd),
    Nat.le_trans List.countP_le_length (hcounts d hd)⟩

end TemplateLint.Command
