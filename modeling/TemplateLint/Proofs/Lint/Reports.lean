import Mathlib.Data.List.Forall2
import TemplateLint.Proofs.Lint.Run
import TemplateLint.Proofs.Rule.Verdict

/-! What a linter with the recommended rules reports about a template, event by event. -/
namespace TemplateLint
open BananaInBox

namespace Linter
variable {linter : Linter}

theorem activeRules_recommended (hrules : linter.rules = .recommended) :
    linter.activeRules = [] ∨ ∃ override, linter.activeRules = [⟨bananaInBox, override⟩] := by
  have hactive : linter.activeRules = (linter.activate? bananaInBox).toList := by
    unfold activeRules
    rw [hrules]
    cases h : linter.activate? bananaInBox <;> simp [Registry.recommended, h]
  unfold activate? at hactive
  rw [hactive]
  cases linter.level? bananaInBox.name with
  | none => exact Or.inr ⟨none, rfl⟩
  | some level =>
    cases hs : level.severity? with
    | none => exact Or.inl (by simp [hs])
    | some severity => exact Or.inr ⟨some severity, by simp [hs]⟩

theorem lint_of_activeRules_eq_nil (root : RootNode) (filename : String)
    (h : linter.activeRules = []) : (linter.lint root filename).diagnostics = [] := by
  have hrun := foldl_run_nil_found root.visits (.start root.source filename)
  simp only [lint, lintLogged, RootNode.visitAll, h, hrun.1]
  rfl

theorem lintLogged_of_activeRules (root : RootNode) (filename : String)
    {override : Option Severity} (h : linter.activeRules = [⟨bananaInBox, override⟩]) :
    (linter.lint root filename).diagnostics =
        root.events.flatMap (fun e => Note.reports override (answer root.source filename e)) ∧
      (linter.lintLogged root filename).2 = startEvent root filename linter.activeRules ::
        root.events.flatMap (fun e => Note.logs (answer root.source filename e)) ++
          [endEvent (linter.lint root filename)] := by
  have hrun := foldl_run_found override root.visits (.start root.source filename)
  rw [RootNode.filterMap_visits] at hrun
  obtain ⟨hdiag, hlog⟩ := hrun
  constructor
  · simp only [lint, lintLogged, RootNode.visitAll, h, hdiag]
    rfl
  · simp only [lint, lintLogged, RootNode.visitAll, h, hlog]
    rfl

/-- Whatever level the rule has, a diagnostic is the report of a box at some event, with the
severity that belongs to the level. -/
theorem exists_of_mem_diagnostics (hrules : linter.rules = .recommended) {root : RootNode}
    {filename : String} {d : Diagnostic} (hd : d ∈ (linter.lint root filename).diagnostics) :
    ∃ override, ∃ event ∈ root.events,
      d ∈ Note.reports override (answer root.source filename event) := by
  rcases activeRules_recommended hrules with h | ⟨override, h⟩
  · rw [lint_of_activeRules_eq_nil root filename h] at hd
    exact absurd hd List.not_mem_nil
  · rw [(lintLogged_of_activeRules root filename h).1] at hd
    obtain ⟨event, hevent, hd⟩ := List.mem_flatMap.mp hd
    exact ⟨override, event, hevent, hd⟩

/-- The linter reports exactly what there is to report: every event binding in document order gives
its diagnostic, its warning or nothing, as its verdict says, and there are no other diagnostics and
no other warnings. -/
theorem lint_reports_exactly (root : RootNode) (filename : String) :
    ∃ answers : List (List Diagnostic × List LogEvent),
      List.Forall₂ (fun event a => Verdict root.source.toList event a.1 a.2) root.events answers ∧
      (recommended.lint root filename).diagnostics = answers.flatMap Prod.fst ∧
      (recommended.lintLogged root filename).2.filter (·.level = .warn) =
        answers.flatMap Prod.snd := by
  obtain ⟨hdiag, hlog⟩ :=
    lintLogged_of_activeRules root filename (show recommended.activeRules = [⟨bananaInBox, none⟩]
      from rfl)
  refine ⟨root.events.map fun e => (Note.reports none (answer root.source filename e),
    (Note.logs (answer root.source filename e)).filter (·.level = .warn)), ?_, ?_, ?_⟩
  · rw [List.forall₂_map_right_iff, List.forall₂_same]
    exact fun event _ => verdict_check event (.start root.source filename)
  · rw [hdiag, List.flatMap_map]
  · have hstart : (startEvent root filename recommended.activeRules).level ≠ .warn := by
      simp [startEvent]
    have hend : (endEvent (recommended.lint root filename)).level ≠ .warn := by
      simp [endEvent]
    rw [hlog, List.flatMap_map, List.filter_append, List.filter_cons, List.filter_flatMap]
    simp [hstart, hend]

end Linter
end TemplateLint
