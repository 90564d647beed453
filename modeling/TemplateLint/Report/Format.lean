import TemplateLint.Lint.Linter
import TemplateLint.Report.Snippet
import TemplateLint.Text.LineIndex

/-!
The results of a run as text for a terminal, or as JSON for tools.
-/

namespace TemplateLint.Report

open Json (Value)

inductive Format where
  | text
  | json
deriving Repr, DecidableEq, Inhabited

/-- The format of a name; every unknown name means text. -/
def Format.ofName (name : String) : Format := if name = "json" then .json else .text

def Format.name : Format → String
  | .text => "text"
  | .json => "json"

/-- The templates of a run, with the names of their files. -/
abbrev Sources := List (String × String)

/-- The template of a file: the last one of that name, and an empty one for an unknown name. -/
def Sources.find (sources : Sources) (filename : String) : String :=
  (sources.reverse.lookup filename).getD ""

def severityCode : Severity → Nat
  | .error => 2
  | .warning => 1

/-- The first edit of a fix, as a range and its new text. -/
def fixMember (d : Diagnostic) : List (String × Value) :=
  match d.fix.bind (·.edits.head?) with
  | none => []
  | some e =>
    [("fix", .object [("range", .array [.natural e.start.toNat, .natural e.stop.toNat]),
      ("text", .string e.newText)])]

def messageValue (index : Text.LineIndex) (d : Diagnostic) : Value :=
  let (line, column) := index.lineColumn d.start.toNat
  let (endLine, endColumn) := index.lineColumn d.stop.toNat
  .object <|
    [("ruleId", .string d.rule), ("severity", .natural (severityCode d.severity)),
      ("message", .string d.message), ("line", .natural line), ("column", .natural column),
      ("endLine", .natural endLine), ("endColumn", .natural endColumn)] ++ fixMember d

def resultValue (sources : Sources) (r : LintResult) : Value :=
  let index := Text.LineIndex.ofString (sources.find r.filename)
  .object [("file", .string r.filename),
    ("messages", .array (r.diagnostics.map (messageValue index))),
    ("errorCount", .natural r.errors), ("warningCount", .natural r.warnings)]

def jsonReport (results : List LintResult) (sources : Sources) : String :=
  (Value.array (results.map (resultValue sources))).pretty

/-- The line above a diagnostic: where it is, how severe, and from which rule. -/
def headLine (filename : String) (index : Text.LineIndex) (d : Diagnostic) : String :=
  let (line, column) := index.lineColumn d.start.toNat
  filename ++ ":" ++ toString line ++ ":" ++ toString column ++ "  " ++ d.severity.name ++ "  " ++
    d.rule ++ "\n"

def diagnosticText (filename source : String) (index : Text.LineIndex) (d : Diagnostic) : String :=
  let fix := match d.fix with
    | some f => "  fix: " ++ f.message ++ "\n"
    | none => ""
  headLine filename index d ++ (snippet? filename source.toList d).getD "" ++ fix ++ "\n"

def resultText (sources : Sources) (r : LintResult) : String :=
  let source := sources.find r.filename
  let index := Text.LineIndex.ofString source
  String.join (r.diagnostics.map (diagnosticText r.filename source index))

def textReport (results : List LintResult) (sources : Sources) : String :=
  String.join (results.map (resultText sources))

def Format.report (format : Format) (results : List LintResult) (sources : Sources) : String :=
  match format with
  | .json => jsonReport results sources
  | .text => textReport results sources

end TemplateLint.Report
