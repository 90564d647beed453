import TemplateLint.Command.Arguments
import TemplateLint.Files.Documents
import TemplateLint.Load
import TemplateLint.Report.Format

/-!
A run of the command over a tree of files. The documents are linted one by one; one that cannot be
loaded fails the run, and changes nothing for the others.
-/

namespace TemplateLint.Command

open Files (FileTree)

/-- Where a command runs: the name of the working directory and what is in it. -/
structure Workspace where
  directory : String
  files : FileTree

/-- A fixed template that was written. -/
structure WrittenFile where
  path : String
  content : String
deriving Repr, DecidableEq

/-- Whether a run may read files of a name. -/
def mayRead (name : String) : Bool :=
  Files.isDocument name || name = Config.fileName || Files.IgnoreLayer.fileNames.contains name

/-- What a run leaves behind. -/
structure Outcome where
  /-- Zero when all is well. -/
  status : Nat
  stdout : String
  stderr : List String
  written : List WrittenFile
  files : FileTree

/-- Warnings are always shown, traces never, and the rest when asked for. -/
def shows (verbose : Bool) (e : LogEvent) : Bool :=
  match e.level with
  | .warn => true
  | .info | .debug => verbose
  | .trace => false

def logLines (verbose : Bool) (events : List LogEvent) : List String :=
  (events.filter (shows verbose)).map LogEvent.line

/-- A document that was loaded and linted. -/
structure LintedDocument where
  path : String
  source : String
  result : LintResult
deriving Repr, DecidableEq

/-- The linter of a run, and what is logged on the way. -/
def prepare (options : LintOptions) (workspace : Workspace) :
    Except String Linter × List LogEvent :=
  let (directory, shown) := match options.config with
    | some directory => (directory, directory)
    | none => ("", workspace.directory)
  match Config.load workspace.files directory shown with
  | .error e => (.error e.message, [])
  | .ok (config, event) =>
    ((Linter.recommended.configure config).mapError UnknownRule.message, [event])

/-- Loads a document and lints it. -/
def lintDocument (linter : Linter) (files : FileTree) (path : String) :
    Except LoadError (LintedDocument × List LogEvent) := do
  let root ← RootNode.load files path path
  let (result, events) := linter.lintLogged root path
  return (⟨path, root.source, result⟩, events)

/-- The documents that could be loaded, how many could not, and what is written to the log. -/
structure Linted where
  documents : List LintedDocument
  failed : Nat
  stderr : List String
deriving Repr, DecidableEq

namespace Linted

def empty : Linted := ⟨[], 0, []⟩

def add (verbose : Bool) (l : Linted) :
    Except LoadError (LintedDocument × List LogEvent) → Linted
  | .ok (document, events) =>
    { l with documents := l.documents ++ [document], stderr := l.stderr ++ logLines verbose events }
  | .error e => { l with failed := l.failed + 1, stderr := l.stderr ++ [e.message] }

def summary (l : Linted) : Summary :=
  let summary := Summary.empty.addAll (l.documents.flatMap fun d => d.result.diagnostics)
  { summary with files := l.documents.length }

/-- The report of the run. -/
def report (l : Linted) (format : Report.Format) : String :=
  format.report (l.documents.map (·.result)) (l.documents.map fun d => (d.path, d.source))

end Linted

def lintDocuments (options : LintOptions) (linter : Linter) (files : FileTree)
    (paths : List String) : Linted :=
  (paths.map (lintDocument linter files)).foldl (Linted.add options.verbose) .empty

/-- The fixed templates so far, how many could not be written, and the tree that holds them. -/
structure FixRun where
  files : FileTree
  written : List WrittenFile
  failed : Nat
  stderr : List String

namespace FixRun

def write (verbose : Bool) (run : FixRun) (target : String) (outcome : FixOutcome) : FixRun :=
  match run.files.write target outcome.output with
  | .ok files =>
    let event : LogEvent :=
      ⟨.info, target ++ ": applied " ++ toString outcome.applied ++ " fix(es)"⟩
    { run with
      files, written := run.written ++ [⟨target, outcome.output⟩]
      stderr := run.stderr ++ logLines verbose [event] }
  | .error e =>
    { run with
      failed := run.failed + 1
      stderr := run.stderr ++ ["Failed to write " ++ target ++ ": " ++ e.message] }

/-- Writes the fixed template of a document, when a fix applies. -/
def add (verbose : Bool) (run : FixRun) (d : LintedDocument) : FixRun :=
  match d.result.applyFixes? d.source with
  | none => run
  | some outcome =>
    let event : LogEvent :=
      ⟨.warn, d.path ++ ": skipped " ++ toString outcome.skipped ++ " overlapping fix(es)"⟩
    let run :=
      if 0 < outcome.skipped then { run with stderr := run.stderr ++ logLines verbose [event] }
      else run
    if outcome.applied = 0 then run
    else
      match Files.fixedPath? d.path with
      | some target => run.write verbose target outcome
      | none => run

end FixRun

def writeFixes (options : LintOptions) (files : FileTree) (documents : List LintedDocument) :
    FixRun :=
  let start : FixRun := ⟨files, [], 0, []⟩
  if options.fix then documents.foldl (FixRun.add options.verbose) start else start

/-- Whether there are more warnings than allowed. -/
def tooManyWarnings (options : LintOptions) (summary : Summary) : Bool :=
  options.maxWarnings.any fun most => most < summary.warnings

/-- The text of the report, which is left out of a quiet run without findings. -/
def reportText (options : LintOptions) (format : Report.Format) (linted : Linted) : String :=
  let summary := linted.summary
  if !options.quiet || 0 < summary.errors || 0 < summary.warnings then
    let text := linted.report format
    if (Text.trim text.toList).isEmpty then "" else text
  else ""

/-- What follows the report of a text run. -/
def closingText (options : LintOptions) (summary : Summary) (fixes : FixRun) (elapsed : String) :
    String :=
  let wrote := if options.fix then
      "\nWrote " ++ toString fixes.written.length ++ " fixed template(s)\n"
    else ""
  wrote ++ "\n" ++ summary.line ++ "\nLinted " ++ toString summary.files ++ " files in " ++
    elapsed ++ "\n"

/-- The run over the documents, once the linter is ready. -/
def runLinter (options : LintOptions) (linter : Linter) (files : FileTree) (paths : List String)
    (elapsed : String) : Outcome :=
  let linted := lintDocuments options linter files paths
  let summary := linted.summary
  let format := Report.Format.ofName options.format
  let fixes := writeFixes options files linted.documents
  let isFailed := summary.hasErrors || 0 < linted.failed + fixes.failed
  let isExceeded := !isFailed && tooManyWarnings options summary
  let excess := match options.maxWarnings with
    | some most =>
      ["", "Too many warnings (" ++ toString summary.warnings ++ " > max " ++ toString most ++ ")"]
    | none => []
  { status := if isFailed || isExceeded then 1 else 0
    stdout := reportText options format linted ++
      match format with
      | .text => closingText options summary fixes elapsed
      | .json => ""
    stderr := linted.stderr ++ fixes.stderr ++ if isExceeded then excess else []
    written := fixes.written
    files := fixes.files }

/-- Says that a walk has passed by a hidden entry. -/
def hiddenEvent (path : String) : LogEvent :=
  ⟨.debug, "ignoring " ++ path ++ ": Ignore(IgnoreMatch(Hidden))"⟩

/-- The run of the lint command. The configuration is read only when there is something to lint. -/
def runLint (options : LintOptions) (workspace : Workspace) (elapsed : String) : Outcome :=
  let stop (status : Nat) (stderr : List String) : Outcome :=
    ⟨status, "", stderr, [], workspace.files⟩
  let hidden := (Files.Documents.hidden workspace.files options.patterns).map hiddenEvent
  match Files.Documents.collect workspace.files options.patterns with
  | [] =>
    stop 0 <| logLines options.verbose hidden ++
      ["No " ++ Files.documentSuffix ++ " files found matching patterns: " ++
        Text.quoteList options.patterns]
  | paths =>
    let found : LogEvent := ⟨.info, "found " ++ toString paths.length ++ " document(s)"⟩
    let (linter, events) := prepare options workspace
    let stderr := logLines options.verbose (hidden ++ found :: events)
    match linter with
    | .error message => stop 1 (stderr ++ [message])
    | .ok linter =>
      let outcome := runLinter options linter workspace.files paths elapsed
      { outcome with stderr := stderr ++ outcome.stderr }

def programName : String := "lacquer"

def version : String := "0.3.0"

/-- A run with the given arguments. What it shows of the time it took is given too. -/
def run (arguments : List String) (workspace : Workspace) (elapsed : String) : Outcome :=
  match Request.ofArguments? arguments with
  | none => ⟨2, "", ["usage error"], [], workspace.files⟩
  | some .version => ⟨0, programName ++ " " ++ version ++ "\n", [], [], workspace.files⟩
  | some (.lint options) => runLint options workspace elapsed

end TemplateLint.Command
