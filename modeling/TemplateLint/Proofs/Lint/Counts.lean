import Mathlib.Algebra.GroupWithZero.Nat
import TemplateLint.Lint.Linter

/-! Counts: the numbers that a context carries along are those of what has been reported, and the
summary of several templates adds up their results. -/
namespace TemplateLint

/-- How many of the diagnostics have a severity. -/
def countOf (s : Severity) (ds : List Diagnostic) : Nat := ds.countP fun d => d.severity = s

namespace Context

/-- What can be done with a context. -/
inductive Operation where
  | enterRule (name : String) (override : Option Severity)
  | report (d : Diagnostic)
  | writeLog (e : LogEvent)
  | pushElement (tag : String)
  | popElement

def perform (ctx : Context) : Operation → Context
  | .enterRule name override => ctx.enterRule name override
  | .report d => ctx.report d
  | .writeLog e => ctx.writeLog e
  | .pushElement tag => ctx.pushElement tag
  | .popElement => ctx.popElement

def Operation.ofNote : Note → Operation
  | .report d => .report d
  | .log e => .writeLog e

theorem perform_ofNote (ctx : Context) (n : Note) : ctx.perform (.ofNote n) = ctx.note n := by
  cases n <;> rfl

/-- The counts are those of the diagnostics. -/
def Counted (ctx : Context) : Prop :=
  ctx.errors = countOf .error ctx.diagnostics.toList ∧
    ctx.warnings = countOf .warning ctx.diagnostics.toList

theorem counted_start (source filename : String) : (start source filename).Counted := ⟨rfl, rfl⟩

/-- A diagnostic is counted under the severity that it gets, not under the one that it comes
with. -/
theorem Counted.report {ctx : Context} (h : ctx.Counted) (d : Diagnostic) :
    (ctx.report d).Counted := by
  obtain ⟨herrors, hwarnings⟩ := h
  unfold Counted countOf Context.report at *
  rw [Array.toList_push, List.countP_append, List.countP_append, List.countP_singleton,
    List.countP_singleton, ← herrors, ← hwarnings]
  cases ctx.override.getD d.severity <;> exact ⟨rfl, rfl⟩

theorem Counted.perform {ctx : Context} (h : ctx.Counted) (op : Operation) :
    (ctx.perform op).Counted := by
  cases op with
  | report d => exact h.report d
  | _ => exact h

theorem Counted.foldl_perform {ctx : Context} (h : ctx.Counted) (ops : List Operation) :
    (ops.foldl Context.perform ctx).Counted := by
  induction ops generalizing ctx with
  | nil => exact h
  | cons op ops ih => exact ih (h.perform op)

end Context

/-- Asking a rule is entering it and taking its notes. -/
theorem ActiveRule.exists_ask_eq (a : ActiveRule) (visit : Visit) (ctx : Context) :
    ∃ ops : List Context.Operation, a.ask visit ctx = ops.foldl Context.perform ctx := by
  refine ⟨.enterRule a.rule.name a.override ::
    (a.notes (ctx.enterRule a.rule.name a.override) visit).map .ofNote, ?_⟩
  rw [List.foldl_cons, List.foldl_map]
  simp only [Context.perform_ofNote]
  rfl

theorem Visit.exists_run_eq (rules : List ActiveRule) (visit : Visit) (ctx : Context) :
    ∃ ops : List Context.Operation, visit.run rules ctx = ops.foldl Context.perform ctx := by
  have hask : ∀ ctx : Context, ∃ ops : List Context.Operation,
      rules.foldl (fun ctx a => a.ask visit ctx) ctx = ops.foldl Context.perform ctx := by
    induction rules with
    | nil => exact fun ctx => ⟨[], rfl⟩
    | cons a rules ih =>
      intro ctx
      obtain ⟨ops, hops⟩ := a.exists_ask_eq visit ctx
      obtain ⟨ops', hops'⟩ := ih (a.ask visit ctx)
      exact ⟨ops ++ ops', by rw [List.foldl_cons, hops', hops, List.foldl_append]⟩
  cases visit with
  | enter e =>
    obtain ⟨ops, hops⟩ := hask (ctx.pushElement e.tag)
    exact ⟨.pushElement e.tag :: ops, hops⟩
  | leave => exact ⟨[.popElement], rfl⟩
  | _ => exact hask ctx

/-- Whatever the rules are, a walk does nothing to the context but these operations. -/
theorem RootNode.exists_visitAll_eq (rules : List ActiveRule) (root : RootNode) (ctx : Context) :
    ∃ ops : List Context.Operation, root.visitAll rules ctx = ops.foldl Context.perform ctx := by
  unfold RootNode.visitAll
  induction root.visits generalizing ctx with
  | nil => exact ⟨[], rfl⟩
  | cons visit visits ih =>
    obtain ⟨ops, hops⟩ := visit.exists_run_eq rules ctx
    obtain ⟨ops', hops'⟩ := ih (visit.run rules ctx)
    exact ⟨ops ++ ops', by rw [List.foldl_cons, hops', hops, List.foldl_append]⟩

/-- The counts of a result are those of its diagnostics. -/
theorem Linter.lint_counts (linter : Linter) (root : RootNode) (filename : String) :
    (linter.lint root filename).errors = countOf .error (linter.lint root filename).diagnostics ∧
      (linter.lint root filename).warnings =
        countOf .warning (linter.lint root filename).diagnostics := by
  obtain ⟨ops, hops⟩ :=
    root.exists_visitAll_eq linter.activeRules (.start root.source filename)
  have hcounted := (Context.counted_start root.source filename).foldl_perform ops
  rw [← hops] at hcounted
  exact hcounted

namespace Summary

theorem addAll_eq (s : Summary) (ds : List Diagnostic) :
    s.addAll ds = ⟨s.errors + countOf .error ds, s.warnings + countOf .warning ds,
      s.fixable + ds.countP Diagnostic.hasFix, s.files⟩ := by
  unfold addAll countOf
  induction ds generalizing s with
  | nil => rfl
  | cons d ds ih =>
    rw [List.foldl_cons, ih, List.countP_cons, List.countP_cons, List.countP_cons]
    unfold add
    cases d.severity <;> cases d.hasFix <;> simp <;> omega

theorem addAll_append (s : Summary) (ds es : List Diagnostic) :
    s.addAll (ds ++ es) = (s.addAll ds).addAll es :=
  List.foldl_append

/-- Adding up results one by one is adding all their diagnostics. -/
theorem foldl_addAll (s : Summary) (results : List LintResult) :
    results.foldl (fun s r => s.addAll r.diagnostics) s =
      s.addAll (results.flatMap LintResult.diagnostics) := by
  induction results generalizing s with
  | nil => rfl
  | cons r results ih => rw [List.foldl_cons, ih, List.flatMap_cons, addAll_append]

/-- The summary of some results. -/
def ofResults (results : List LintResult) : Summary :=
  ⟨(results.map fun r => countOf .error r.diagnostics).sum,
    (results.map fun r => countOf .warning r.diagnostics).sum,
    (results.map LintResult.fixableCount).sum, results.length⟩

theorem addAll_flatMap (results : List LintResult) :
    { empty.addAll (results.flatMap LintResult.diagnostics) with files := results.length } =
      ofResults results := by
  rw [addAll_eq]
  simp only [countOf, List.countP_flatMap, empty, Nat.zero_add]
  rfl

theorem ofResults_perm {results results' : List LintResult} (h : results.Perm results') :
    ofResults results = ofResults results' := by
  unfold ofResults
  rw [(h.map _).sum_nat, (h.map _).sum_nat, (h.map _).sum_nat, h.length_eq]

end Summary

namespace Linter
variable (linter : Linter) {files files' : List (String × RootNode)}

theorem counts_of_mem_lintFiles {r : LintResult} (hr : r ∈ (linter.lintFiles files).1) :
    r.errors = countOf .error r.diagnostics ∧ r.warnings = countOf .warning r.diagnostics := by
  obtain ⟨⟨filename, root⟩, -, rfl⟩ := List.mem_map.mp hr
  exact linter.lint_counts root filename

theorem lintFiles_summary :
    (linter.lintFiles files).2 = Summary.ofResults (linter.lintFiles files).1 := by
  have hlength : (linter.lintFiles files).1.length = files.length := List.length_map ..
  rw [← Summary.addAll_flatMap, hlength, ← Summary.foldl_addAll]
  rfl

/-- Counting all diagnostics again gives the sums of what the results have counted. -/
theorem lintFiles_totals : (linter.lintFiles files).2 =
    ⟨((linter.lintFiles files).1.map LintResult.errors).sum,
      ((linter.lintFiles files).1.map LintResult.warnings).sum,
      ((linter.lintFiles files).1.map LintResult.fixableCount).sum, files.length⟩ := by
  have herrors : (linter.lintFiles files).1.map LintResult.errors =
      (linter.lintFiles files).1.map fun r => countOf .error r.diagnostics :=
    List.map_congr_left fun r hr => (linter.counts_of_mem_lintFiles hr).1
  have hwarnings : (linter.lintFiles files).1.map LintResult.warnings =
      (linter.lintFiles files).1.map fun r => countOf .warning r.diagnostics :=
    List.map_congr_left fun r hr => (linter.counts_of_mem_lintFiles hr).2
  have hlength : (linter.lintFiles files).1.length = files.length := List.length_map ..
  rw [lintFiles_summary, Summary.ofResults, herrors, hwarnings, hlength]

theorem lintFiles_summary_perm (hperm : files'.Perm files) :
    (linter.lintFiles files').2 = (linter.lintFiles files).2 := by
  rw [lintFiles_summary, lintFiles_summary]
  exact Summary.ofResults_perm (hperm.map _)

end Linter
end TemplateLint
