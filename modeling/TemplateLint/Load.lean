import TemplateLint.Config
import TemplateLint.Files.Tree
import TemplateLint.Rule.Context
import TemplateLint.Template.Decode

/-!
Reading documents and configurations from files. Messages show a path as the caller names it, which
need not be the path below the working directory.
-/

namespace TemplateLint

open Files (FileTree FileError Path.join)

inductive LoadError where
  /-- A file could not be read. -/
  | access (path : String) (cause : FileError)
  /-- A configuration or a document could not be decoded from its text. -/
  | config (path text : String) (cause : Json.Error)
  | document (path text : String) (cause : Json.Error)
deriving Repr, DecidableEq

namespace LoadError

def message : LoadError → String
  | .access path cause => "failed to access " ++ path ++ ": " ++ cause.message
  | .config path text cause => "invalid config " ++ path ++ ": " ++ cause.message text
  | .document path text cause => "invalid template document " ++ path ++ ": " ++ cause.message text

end LoadError

/-- Reads a document. -/
def RootNode.load (root : FileTree) (path shown : String) : Except LoadError RootNode :=
  match root.read path with
  | .error e => .error (.access shown e)
  | .ok text => (RootNode.ofDocument text).mapError (.document shown text)

namespace Config

def fileName : String := "lacquer.config.json"

/-- Reads the configuration of a directory, and tells what was found. A directory without one has
the empty configuration. -/
def load (root : FileTree) (directory shown : String) : Except LoadError (Config × LogEvent) :=
  let path := Path.join directory fileName
  let shownPath := Path.join shown fileName
  if root.contains path then
    match root.read path with
    | .error e => .error (.access shownPath e)
    | .ok text =>
      match Config.ofText text with
      | .error e => .error (.config shownPath text e)
      | .ok config =>
        .ok (config, ⟨.debug, "loaded " ++ shownPath ++ " with " ++ toString config.rules.length ++
          " rule override(s)"⟩)
  else .ok (.empty, ⟨.debug, "no " ++ fileName ++ " in " ++ shown⟩)

end Config

end TemplateLint
