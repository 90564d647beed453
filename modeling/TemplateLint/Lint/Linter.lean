import TemplateLint.Config
import TemplateLint.Diagnostic.Apply
import TemplateLint.Diagnostic.Summary
import TemplateLint.Lint.Visit
import TemplateLint.Rule.BananaInBox

/-!
Linting a template: each rule that is not off is asked at every visit, in the order of the
registry.
-/

namespace TemplateLint

/-- A rule that takes part in a run, and the severity its reports get. -/
structure ActiveRule where
  rule : Rule
  override : Option Severity

namespace ActiveRule

/-- What the rule has to say at a visit. -/
def notes (a : ActiveRule) (ctx : Context) : Visit → List Note
  | .template root => a.rule.onTemplate root ctx
  | .enter e => a.rule.onElement e ctx
  | .input e binding => a.rule.onInput e binding ctx
  | .output e event => a.rule.onOutput e event ctx
  | .leave => []

/-- Asks the rule, and adds what it says to the context. -/
def ask (a : ActiveRule) (visit : Visit) (ctx : Context) : Context :=
  let ctx := ctx.enterRule a.rule.name a.override
  (a.notes ctx visit).foldl Context.note ctx

end ActiveRule

namespace Visit

/-- The context in which the rules are asked. -/
def arrive (visit : Visit) (ctx : Context) : Context :=
  match visit with
  | .enter e => ctx.pushElement e.tag
  | .leave => ctx.popElement
  | _ => ctx

/-- Asks the rules in their order. Nobody is asked when an element is left. -/
def run (rules : List ActiveRule) (visit : Visit) (ctx : Context) : Context :=
  let ctx := visit.arrive ctx
  match visit with
  | .leave => ctx
  | _ => rules.foldl (fun ctx a => a.ask visit ctx) ctx

end Visit

/-- The context after the whole way through the template. -/
def RootNode.visitAll (rules : List ActiveRule) (root : RootNode) (ctx : Context) : Context :=
  root.visits.foldl (fun ctx visit => visit.run rules ctx) ctx

/-- What linting one template found. -/
structure LintResult where
  filename : String
  diagnostics : List Diagnostic
  errors : Nat
  warnings : Nat
deriving Repr, DecidableEq, Inhabited

namespace LintResult

def hasErrors (r : LintResult) : Bool := 0 < r.errors

def hasDiagnostics (r : LintResult) : Bool := !r.diagnostics.isEmpty

def fixableCount (r : LintResult) : Nat := r.diagnostics.countP Diagnostic.hasFix

def applyFixes? (r : LintResult) (source : String) : Option FixOutcome :=
  TemplateLint.applyFixes? source r.diagnostics

end LintResult

structure Linter where
  rules : Registry
  /-- The levels that have been set, the last one first. -/
  levels : List (String × RuleLevel)

/-- The rule that a level was to be set for is not in the registry. -/
structure UnknownRule where
  name : String
deriving Repr, DecidableEq, Inhabited

def UnknownRule.message (e : UnknownRule) : String := "unknown rule `" ++ e.name ++ "`"

namespace Linter

def ofRules (rules : Registry) : Linter := ⟨rules, []⟩

def recommended : Linter := ofRules .recommended

def level? (linter : Linter) (rule : String) : Option RuleLevel := linter.levels.lookup rule

def setLevel (linter : Linter) (rule : String) (level : RuleLevel) : Except UnknownRule Linter :=
  if linter.rules.contains rule then .ok { linter with levels := (rule, level) :: linter.levels }
  else .error ⟨rule⟩

def setLevels (linter : Linter) (levels : List (String × RuleLevel)) :
    Except UnknownRule Linter :=
  levels.foldlM (fun linter (rule, level) => linter.setLevel rule level) linter

def configure (linter : Linter) (config : Config) : Except UnknownRule Linter :=
  linter.setLevels config.rules

def register (linter : Linter) (r : Rule) : Linter :=
  { linter with rules := linter.rules.register r }

def isEnabled (linter : Linter) (rule : String) : Bool :=
  linter.rules.contains rule && linter.level? rule ≠ some .off

/-- How a rule takes part; not at all when it is off. -/
def activate? (linter : Linter) (r : Rule) : Option ActiveRule :=
  match linter.level? r.name with
  | none => some ⟨r, none⟩
  | some level => level.severity?.map fun severity => ⟨r, some severity⟩

def activeRules (linter : Linter) : List ActiveRule := linter.rules.filterMap linter.activate?

def startEvent (root : RootNode) (filename : String) (rules : List ActiveRule) : LogEvent :=
  ⟨.debug, "linting " ++ filename ++ " (" ++ toString (Text.byteLength root.source.toList) ++
    " bytes, " ++ toString rules.length ++ " active rule(s))"⟩

def endEvent (r : LintResult) : LogEvent :=
  ⟨.debug, r.filename ++ ": " ++ toString r.errors ++ " error(s), " ++ toString r.warnings ++
    " warning(s)"⟩

/-- Lints a template, and tells what happened on the way. -/
def lintLogged (linter : Linter) (root : RootNode) (filename : String) :
    LintResult × List LogEvent :=
  let rules := linter.activeRules
  let ctx := root.visitAll rules (.start root.source filename)
  let result := ⟨filename, ctx.diagnostics.toList, ctx.errors, ctx.warnings⟩
  (result, startEvent root filename rules :: ctx.log.toList ++ [endEvent result])

def lint (linter : Linter) (root : RootNode) (filename : String) : LintResult :=
  (linter.lintLogged root filename).1

/-- Lints several templates, and counts over all of them. -/
def lintFiles (linter : Linter) (files : List (String × RootNode)) : List LintResult × Summary :=
  let results := files.map fun (filename, root) => linter.lint root filename
  let summary : Summary := results.foldl (fun s r => s.addAll r.diagnostics) .empty
  (results, { summary with files := files.length })

end Linter

end TemplateLint
