import TemplateLint.Proofs.Command.Saving
import TemplateLint.Proofs.Command.Status

/-! What a run with fixes writes: for each document with an applied fix the output of its fixes,
beside the document, and nothing else. -/
namespace TemplateLint.Command
open Files (FileTree FixedPath Intact Beside)

/-- The files that a run with fixes has to write. -/
def fixedTemplates (options : LintOptions) (linter : Linter) (files : FileTree) :
    List WrittenFile :=
  (lintedDocuments options linter files).filterMap LintedDocument.fixed?

theorem LintedDocument.fixed?_eq {files : FileTree} {d : LintedDocument} {target stem : String}
    {way : List String} (h : Beside files d.path target way stem) {outcome : FixOutcome}
    (houtcome : d.result.applyFixes? d.source = some outcome) :
    d.fixed? = if outcome.applied = 0 then none else some ⟨target, outcome.output⟩ := by
  rw [fixed?, houtcome, Option.bind_some, h.fixedPath]
  rfl

section Documents
variable {files : FileTree} {paths : List String}
  (hpaths : ∀ path ∈ paths, Files.isDocument path = true)

theorem load_of_mem_loadedDocuments {path : String} {root : RootNode}
    (h : (path, root) ∈ loadedDocuments files paths) :
    path ∈ paths ∧ (RootNode.load files path path).toOption = some root := by
  obtain ⟨path', hmem, hload⟩ := List.mem_filterMap.mp h
  obtain ⟨root', hload, heq⟩ := Option.map_eq_some_iff.mp hload
  cases heq
  exact ⟨hmem, hload⟩

include hpaths

/-- A document that could be loaded has a place for its fixed template. -/
theorem exists_beside_of_mem_loadedDocuments {path : String} {root : RootNode}
    (h : (path, root) ∈ loadedDocuments files paths) :
    ∃ target way stem, Beside files path target way stem := by
  obtain ⟨hmem, hload⟩ := load_of_mem_loadedDocuments h
  rw [toOption_load] at hload
  obtain ⟨text, hread, -⟩ := Option.bind_eq_some_iff.mp hload
  obtain ⟨t, hfind, -⟩ :
      ∃ t, (files.find path).toOption = some t ∧ t.text? = some text := by
    rw [files.toOption_read] at hread
    exact Option.bind_eq_some_iff.mp hread
  obtain ⟨before, stem, hpath⟩ :=
    Files.exists_documentPath (hpaths path hmem) (toOption_eq_some_iff.mp hread)
  obtain ⟨target, way, hbeside⟩ := hpath.exists_beside hfind
  exact ⟨target, way, stem, hbeside⟩

end Documents

/-- Documents at one place are the same. -/
theorem eq_of_place?_eq {files : FileTree} {paths : List String} {path path' : String}
    {root root' : RootNode} (h : (path, root) ∈ loadedDocuments files paths)
    (h' : (path', root') ∈ loadedDocuments files paths)
    (hplace : files.place? path = files.place? path') : root = root' := by
  have hload := (load_of_mem_loadedDocuments h).2
  have hload' := (load_of_mem_loadedDocuments h').2
  rw [toOption_load, files.read_place?] at hload hload'
  rw [hplace, hload'] at hload
  exact (Option.some.inj hload).symm

section FixedTemplates
variable {options : LintOptions} {linter : Linter} (hrules : linter.rules = .recommended)
  (files : FileTree)
include hrules

theorem exists_beside_of_mem_lintedDocuments {d : LintedDocument}
    (h : d ∈ lintedDocuments options linter files) :
    ∃ target way stem outcome, Beside files d.path target way stem ∧
      d.result.applyFixes? d.source = some outcome ∧
      d.fixed? = if outcome.applied = 0 then none else some ⟨target, outcome.output⟩ := by
  obtain ⟨⟨path, root⟩, hmem, rfl⟩ := List.mem_map.mp h
  obtain ⟨target, way, stem, hbeside⟩ :=
    exists_beside_of_mem_loadedDocuments
      (fun _ hpath => Files.Documents.isDocument_of_mem_collect hpath) hmem
  obtain ⟨outcome, houtcome⟩ := Linter.exists_applyFixes? hrules root path
  exact ⟨target, way, stem, outcome, hbeside, houtcome,
    LintedDocument.fixed?_eq (d := .ofLoaded linter (path, root)) hbeside houtcome⟩

/-- A file that a run has to write is the fixed template of a document. -/
theorem exists_of_mem_fixedTemplates {file : WrittenFile}
    (h : file ∈ fixedTemplates options linter files) :
    ∃ path root way stem outcome,
      (path, root) ∈ loadedDocuments files (Files.Documents.collect files options.patterns) ∧
      Beside files path file.path way stem ∧
      (linter.lint root path).applyFixes? root.source = some outcome ∧
      file.content = outcome.output := by
  obtain ⟨d, hd, hfile⟩ := List.mem_filterMap.mp h
  obtain ⟨target, way, stem, outcome, hbeside, houtcome, hfixed⟩ :=
    exists_beside_of_mem_lintedDocuments hrules files hd
  obtain ⟨⟨path, root⟩, hmem, rfl⟩ := List.mem_map.mp hd
  rw [hfixed] at hfile
  split at hfile
  next => cases hfile
  next =>
    obtain rfl := Option.some.inj hfile
    exact ⟨path, root, way, stem, outcome, hmem, hbeside, houtcome, rfl⟩

theorem fixedPath_fixedTemplates :
    ∀ file ∈ fixedTemplates options linter files, FixedPath file.path := by
  intro file hfile
  obtain ⟨path, root, way, stem, outcome, -, hbeside, -⟩ :=
    exists_of_mem_fixedTemplates hrules files hfile
  exact hbeside.isFixed

/-- Fixed templates at one place are those of one document, under different paths perhaps. -/
theorem agree_fixedTemplates : Agree files (fixedTemplates options linter files) := by
  intro file hfile file' hfile' place hplace hplace'
  obtain ⟨path, root, way, stem, outcome, hmem, hbeside, houtcome, hcontent⟩ :=
    exists_of_mem_fixedTemplates hrules files hfile
  obtain ⟨path', root', way', stem', outcome', hmem', hbeside', houtcome', hcontent'⟩ :=
    exists_of_mem_fixedTemplates hrules files hfile'
  obtain rfl : root = root' :=
    eq_of_place?_eq hmem hmem' (hbeside.place?_eq hbeside' hplace hplace')
  have hsame : (linter.lint root path).applyFixes? root.source =
      (linter.lint root path').applyFixes? root.source :=
    congrArg (applyFixes? root.source) (Linter.diagnostics_eq hrules root path path')
  rw [houtcome, houtcome'] at hsame
  rw [hcontent, hcontent', Option.some.inj hsame]

end FixedTemplates

/-! What a run with fixes writes -/

/-- Whether a fix of the document is applied. -/
def LintedDocument.isFixed (d : LintedDocument) : Bool :=
  (d.result.applyFixes? d.source).any fun outcome => outcome.applied ≠ 0

/-- What a run with fixes writes for its documents, and what it leaves alone. -/
structure WritesFixed (files : FileTree) (documents : List LintedDocument) (fixes : FixRun) :
    Prop where
  /-- The fixes of a document always have an outcome, which is written beside the document if a fix
  has been applied. -/
  beside : ∀ d ∈ documents, ∃ before stem target outcome,
    Files.Path.components d.path = before ++ [.name (stem ++ Files.documentSuffix)] ∧
    Files.Path.components target = before ++ [.name (stem ++ Files.fixedSuffix)] ∧
    Files.fixedPath? d.path = some target ∧
    d.result.applyFixes? d.source = some outcome ∧
    d.fixed? = if outcome.applied = 0 then none else some ⟨target, outcome.output⟩
  distinct : ∀ d ∈ documents, ∀ d' ∈ documents,
    Files.Path.components d.path ≠ Files.Path.components d'.path → ∀ target target',
      Files.fixedPath? d.path = some target → Files.fixedPath? d'.path = some target' →
        Files.Path.components target ≠ Files.Path.components target'
  written : fixes.written = (documents.filterMap LintedDocument.fixed?).filter (·.fits files)
  counted : fixes.written.length + fixes.failed = documents.countP LintedDocument.isFixed
  files_eq : fixes.files = fixes.written.foldl WrittenFile.saveIn files
  read : ∀ file ∈ fixes.written, fixes.files.read file.path = .ok file.content
  /-- The files in the tree, by the names that lead to them. -/
  elsewhere : ∀ way, (∀ file ∈ fixes.written, files.target? file.path ≠ some way) →
    (fixes.files.at? way).filter (!·.isDirectory) = (files.at? way).filter (!·.isDirectory)
  unchanged : ∀ path, path.endsWith Files.fixedSuffix = false →
    (fixes.files.read path).toOption = (files.read path).toOption

section Fixes
variable {options : LintOptions} (hfix : options.fix = true) {files : FileTree}
  (hfiles : files.Proper) {linter : Linter} (hrules : linter.rules = .recommended)
include hfix hfiles hrules

/-- The fixed templates are written to any tree that differs in such files only. -/
theorem silent_writeFixes_intact {t : FileTree} (h : Intact files t) :
    (writeFixes options t (lintedDocuments options linter files)).silent =
      { files := (fixedTemplates options linter files).foldl WrittenFile.saveIn t
        written := (fixedTemplates options linter files).filter (·.fits files)
        failed := (fixedTemplates options linter files).countP (!·.fits files)
        stderr := [] } := by
  rw [silent_writeFixes, if_pos hfix, ← fixedTemplates,
    foldl_save_eq hfiles (fixedPath_fixedTemplates hrules files) h]
  simp

/-- What is written for a run, and that nothing else is. -/
theorem writesFixed_writeFixes :
    WritesFixed files (lintedDocuments options linter files)
      (writeFixes options files (lintedDocuments options linter files)) := by
  have hsilent := silent_writeFixes_intact hfix hfiles hrules (.refl hfiles)
  have hpaths : ∀ file ∈ fixedTemplates options linter files, FixedPath file.path :=
    fixedPath_fixedTemplates hrules files
  have hagree : Agree files (fixedTemplates options linter files) :=
    agree_fixedTemplates hrules files
  obtain ⟨hwritten, hfailed, htree⟩ : _ ∧ _ ∧ _ :=
    ⟨congrArg FixRun.written hsilent, congrArg FixRun.failed hsilent,
      congrArg FixRun.files hsilent⟩
  dsimp only [FixRun.silent] at hwritten hfailed htree
  have hbeside {d : LintedDocument} (hd : d ∈ lintedDocuments options linter files) :=
    exists_beside_of_mem_lintedDocuments hrules files hd
  refine ⟨fun d hd => ?_, fun d hd d' hd' hne target target' htarget htarget' => ?_, hwritten, ?_,
    ?_, fun file hfile => ?_, fun way hway => ?_, fun path hpath => ?_⟩
  · obtain ⟨target, way, stem, outcome, hbeside, houtcome, hfixed⟩ := hbeside hd
    obtain ⟨before, hdocument, htarget⟩ := hbeside.directory
    exact ⟨before, stem, target, outcome, hdocument, htarget, hbeside.fixedPath, houtcome, hfixed⟩
  · obtain ⟨_, way, stem, _, hbeside₁, -⟩ := hbeside hd
    obtain ⟨_, way', stem', _, hbeside₂, -⟩ := hbeside hd'
    obtain rfl := Option.some.inj (hbeside₁.fixedPath.symm.trans htarget)
    obtain rfl := Option.some.inj (hbeside₂.fixedPath.symm.trans htarget')
    exact hbeside₁.components_ne hbeside₂ hne
  · have hfixed : (lintedDocuments options linter files).countP LintedDocument.isFixed =
        (fixedTemplates options linter files).length := by
      rw [fixedTemplates, List.length_filterMap_eq_countP]
      refine List.countP_congr fun d hd => ?_
      obtain ⟨target, way, stem, outcome, -, houtcome, hfixed⟩ := hbeside hd
      rw [LintedDocument.isFixed, houtcome, hfixed]
      by_cases hnone : outcome.applied = 0 <;> simp [hnone]
    rw [hwritten, hfailed, hfixed, ← List.countP_eq_length_filter]
    simpa using (List.length_eq_countP_add_countP (WrittenFile.fits files)).symm
  · rw [htree, hwritten, foldl_saveIn_filter hfiles hpaths (.refl hfiles)]
  · rw [hwritten] at hfile
    obtain ⟨hmem, hfits⟩ := List.mem_filter.mp hfile
    rw [htree, read_foldl_saveIn hfiles hpaths hagree hmem hfits]
  · rw [htree]
    refine filter_at?_foldl_saveIn hfiles hpaths (.refl hfiles) fun file hmem htarget => ?_
    refine hway file ?_ htarget
    rw [hwritten, List.mem_filter, file.fits_eq, htarget]
    exact ⟨hmem, rfl⟩
  · rw [htree, (intact_foldl_saveIn (.refl hfiles) hpaths).read_eq hfiles hpath]

end Fixes

end TemplateLint.Command
