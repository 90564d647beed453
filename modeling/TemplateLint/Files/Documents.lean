import TemplateLint.Files.Glob
import TemplateLint.Files.Walk

/-!
The template documents that patterns stand for. A pattern with wildcards is a glob; any other is a
file, or a directory that is walked.
-/

namespace TemplateLint.Files

/-- How the name of a template document ends. -/
def documentSuffix : String := ".ast.json"

/-- How the name of a fixed template ends. -/
def fixedSuffix : String := ".fixed.html"

def isDocument (path : String) : Bool := (Path.fileName? path).any (·.endsWith documentSuffix)

/-- Installed packages, which no glob looks into. -/
def packageDirectory : String := "node_modules"

def isInPackages (path : String) : Bool := (Path.components path).contains (.name packageDirectory)

/-- Where the fixed template of a document is written: beside it, under its own suffix. -/
def fixedPath? (document : String) : Option String := do
  let name ← Path.fileName? document
  if name.endsWith documentSuffix then
    return Path.withFileName document ((name.dropEnd documentSuffix.length).toString ++ fixedSuffix)
  else none

namespace Documents

def isGlob (pattern : String) : Bool := pattern.any fun c => c = '*' || c = '?' || c = '['

/-- The standard input, which holds no documents. -/
def standardInput : String := "-"

/-- Whether a pattern is looked for at all: what lies outside of the tree is not. -/
def isInside (pattern : String) : Bool := !pattern.startsWith "/" && pattern ≠ standardInput

/-- What a pattern comes across in a tree, in no particular order. -/
inductive Finding where
  | glob (paths : List String)
  | walk (entries : List WalkEntry)
deriving Repr, DecidableEq

namespace Finding

/-- The documents in a finding. A directory that is walked may lie among installed packages. -/
def documents : Finding → List String
  | .glob paths => paths.filter fun path => isDocument path && !isInPackages path
  | .walk entries => (entries.filterMap WalkEntry.found?).filter isDocument

/-- The hidden entries that a walk has passed by. -/
def hidden : Finding → List String
  | .glob _ => []
  | .walk entries => entries.filterMap WalkEntry.hidden?

end Finding

/-- What a pattern stands for. One that is not valid stands for nothing. -/
def find (root : FileTree) (pattern : String) : Finding :=
  if isInside pattern then
    if isGlob pattern then
      match Glob.ofString? pattern with
      | some g => .glob ((g.hits root).map Prod.fst)
      | none => .glob []
    else .walk (root.walk pattern)
  else .walk []

/-- Not after the other path. -/
def isNotAfter (a b : String) : Bool := !Path.isBefore (Path.components b) (Path.components a)

/-- Of neighbours with the same components only the first. -/
def withoutRepeats : List String → List String
  | [] => []
  | path :: paths =>
    match withoutRepeats paths with
    | [] => [path]
    | next :: rest =>
      if Path.components path = Path.components next then path :: rest else path :: next :: rest

/-- The documents in findings, ordered by the components of their paths, each once. -/
def ofFindings (findings : List Finding) : List String :=
  withoutRepeats ((findings.flatMap Finding.documents).mergeSort isNotAfter)

/-- The documents that patterns stand for. -/
def collect (root : FileTree) (patterns : List String) : List String :=
  ofFindings (patterns.map (find root))

/-- The hidden entries that the walks of patterns pass by. -/
def hidden (root : FileTree) (patterns : List String) : List String :=
  (patterns.map (find root)).flatMap Finding.hidden

end Documents

end TemplateLint.Files
