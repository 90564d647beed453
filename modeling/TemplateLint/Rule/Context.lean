import TemplateLint.Diagnostic.Basic

/-!
What a rule sees of the run through one template, and what it may hand back: diagnostics and
events for the log.
-/

namespace TemplateLint

inductive LogLevel where
  | trace
  | debug
  | info
  | warn
deriving Repr, DecidableEq, Inhabited

def LogLevel.name : LogLevel → String
  | .trace => "TRACE"
  | .debug => "DEBUG"
  | .info => "INFO"
  | .warn => "WARN"

structure LogEvent where
  level : LogLevel
  message : String
deriving Repr, DecidableEq, Inhabited

def LogEvent.line (e : LogEvent) : String := e.level.name ++ " " ++ e.message

structure Context where
  /-- The text of the template and the name of its file. -/
  source : String
  filename : String
  /-- The rule that is being asked, and the severity its reports get instead of their own. -/
  currentRule : String
  override : Option Severity
  /-- The tags of the elements around the current node, the innermost first. -/
  elements : List String
  /-- What has been reported, in order, and how many errors and warnings there are in it. -/
  diagnostics : Array Diagnostic
  errors : Nat
  warnings : Nat
  log : Array LogEvent
deriving Repr, Inhabited

/-- What a rule hands back. -/
inductive Note where
  | report (d : Diagnostic)
  | log (e : LogEvent)
deriving Repr, DecidableEq

namespace Context

def start (source filename : String) : Context :=
  ⟨source, filename, "", none, [], #[], 0, 0, #[]⟩

def enterRule (ctx : Context) (name : String) (override : Option Severity) : Context :=
  { ctx with currentRule := name, override }

def count (ctx : Context) : Severity → Context
  | .error => { ctx with errors := ctx.errors + 1 }
  | .warning => { ctx with warnings := ctx.warnings + 1 }

/-- Adds a diagnostic, with the overriding severity when there is one. -/
def report (ctx : Context) (d : Diagnostic) : Context :=
  let d := { d with severity := ctx.override.getD d.severity }
  { ctx.count d.severity with diagnostics := ctx.diagnostics.push d }

def writeLog (ctx : Context) (e : LogEvent) : Context := { ctx with log := ctx.log.push e }

def note (ctx : Context) : Note → Context
  | .report d => ctx.report d
  | .log e => ctx.writeLog e

def pushElement (ctx : Context) (tag : String) : Context :=
  { ctx with elements := tag :: ctx.elements }

def popElement (ctx : Context) : Context := { ctx with elements := ctx.elements.tail }

def currentElement? (ctx : Context) : Option String := ctx.elements.head?

def depth (ctx : Context) : Nat := ctx.elements.length

end Context

end TemplateLint
