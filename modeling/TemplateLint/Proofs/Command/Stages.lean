import TemplateLint.Command.Run

/-! How far a run gets: it finds no documents, or has no linter for them, or is a run over them. -/
namespace TemplateLint.Command

theorem run_of_lint {arguments : List String} {options : LintOptions}
    (h : Request.ofArguments? arguments = some (.lint options)) (workspace : Workspace)
    (elapsed : String) : run arguments workspace elapsed = runLint options workspace elapsed := by
  rw [run, h]

/-- Without a configuration each rule has its own level. -/
theorem prepare_of_not_contains {options : LintOptions} {workspace : Workspace}
    (hoption : options.config = none)
    (h : workspace.files.contains Config.fileName = false) :
    (prepare options workspace).1 = .ok .recommended := by
  have hjoin : Files.Path.join "" Config.fileName = Config.fileName := by
    simp [Files.Path.join]
  unfold prepare Config.load
  rw [hoption]
  dsimp only
  rw [hjoin, h]
  rfl

section Stages
variable (options : LintOptions) (workspace : Workspace) (elapsed : String)

theorem runLint_of_nil (h : Files.Documents.collect workspace.files options.patterns = []) :
    ∃ stderr, runLint options workspace elapsed = ⟨0, "", stderr, [], workspace.files⟩ := by
  unfold runLint
  rw [h]
  exact ⟨_, rfl⟩

/-- Without a linter the run stops before the first document is looked at. -/
theorem runLint_of_error {message : String}
    (h : Files.Documents.collect workspace.files options.patterns ≠ [])
    (hprepare : (prepare options workspace).1 = .error message) :
    ∃ stderr, runLint options workspace elapsed = ⟨1, "", stderr, [], workspace.files⟩ := by
  obtain ⟨path, paths, hpaths⟩ := List.exists_cons_of_ne_nil h
  obtain ⟨events, hevents⟩ : ∃ events, prepare options workspace = (.error message, events) :=
    ⟨_, Prod.ext hprepare rfl⟩
  unfold runLint
  rw [hpaths]
  dsimp only
  rw [hevents]
  exact ⟨_, rfl⟩

theorem runLint_of_ok {linter : Linter}
    (h : Files.Documents.collect workspace.files options.patterns ≠ [])
    (hprepare : (prepare options workspace).1 = .ok linter) :
    ∃ stderr, runLint options workspace elapsed =
      { runLinter options linter workspace.files
          (Files.Documents.collect workspace.files options.patterns) elapsed with stderr } := by
  obtain ⟨path, paths, hpaths⟩ := List.exists_cons_of_ne_nil h
  obtain ⟨events, hevents⟩ : ∃ events, prepare options workspace = (.ok linter, events) :=
    ⟨_, Prod.ext hprepare rfl⟩
  unfold runLint
  rw [hpaths]
  dsimp only
  rw [hevents]
  exact ⟨_, rfl⟩

end Stages
end TemplateLint.Command
