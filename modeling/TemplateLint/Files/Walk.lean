import TemplateLint.Files.Ignore.Rule
import TemplateLint.Files.Tree

/-!
Walking a directory. Hidden entries are left out, and so is what ignore files leave out; these may
lie in any directory from the entry's own up to the top of the tree.
-/

namespace TemplateLint.Files

/-- The ignore rules of one directory. Those of a repository count only inside of one. -/
structure IgnoreLayer where
  general : IgnoreRules
  repository : IgnoreRules
  /-- Rules that a repository keeps for itself. -/
  excluded : IgnoreRules
  isRepository : Bool
deriving Repr

namespace IgnoreLayer

def rulesAt (directory : FileTree) (path : String) : IgnoreRules :=
  match directory.read path with
  | .ok text => IgnoreRules.ofText text
  | .error _ => []

/-- The names of the files that hold rules. -/
def fileNames : List String := [".ignore", ".gitignore", "exclude"]

def ofDirectory (t : FileTree) : IgnoreLayer where
  general := rulesAt t ".ignore"
  repository := rulesAt t ".gitignore"
  excluded := rulesAt t ".git/info/exclude"
  isRepository := t.contains ".git"

end IgnoreLayer

/-- A layer, and the way from its directory to the one that is being walked. -/
structure IgnoreScope where
  layer : IgnoreLayer
  path : String
deriving Repr

namespace IgnoreScope

def ofDirectory (t : FileTree) : IgnoreScope := ⟨.ofDirectory t, ""⟩

def deeper (name : String) (s : IgnoreScope) : IgnoreScope :=
  { s with path := Path.join s.path name }

/-- What the rules of one kind say about an entry of the directory. -/
def verdict? (rules : IgnoreLayer → IgnoreRules) (name : String) (isDirectory : Bool)
    (s : IgnoreScope) : Option Verdict :=
  (rules s.layer).verdict? (Path.join s.path name) isDirectory

end IgnoreScope

/-- The directories around an entry, the nearest first. -/
abbrev IgnoreScopes := List IgnoreScope

namespace IgnoreScopes

/-- The scopes inside of a directory. -/
def enter (scopes : IgnoreScopes) (name : String) (directory : FileTree) : IgnoreScopes :=
  .ofDirectory directory :: scopes.map (·.deeper name)

/-- The scopes of the repository around an entry: none outside of one, and none beyond its top. -/
def repositoryScopes (scopes : IgnoreScopes) : IgnoreScopes :=
  if scopes.any (·.layer.isRepository) then
    let inner := scopes.takeWhile fun s => !s.layer.isRepository
    scopes.take (inner.length + 1)
  else []

/-- The nearest directory with something to say decides; general rules come before those of a
repository. -/
def verdict? (scopes : IgnoreScopes) (name : String) (isDirectory : Bool) : Option Verdict :=
  let nearest (rules : IgnoreLayer → IgnoreRules) (scopes : IgnoreScopes) : Option Verdict :=
    scopes.findSome? (·.verdict? rules name isDirectory)
  let inside := scopes.repositoryScopes
  (nearest (·.general) scopes).or
    ((nearest (·.repository) inside).or (nearest (·.excluded) inside))

def isHidden (name : String) : Bool := name.startsWith "."

end IgnoreScopes

/-- What a walk comes across, with its path. -/
inductive WalkEntry where
  | found (path : String)
  /-- An entry that is left out for its name, and not by a rule. -/
  | hidden (path : String)
deriving Repr, DecidableEq

namespace WalkEntry

def found? : WalkEntry → Option String
  | .found path => some path
  | .hidden _ => none

def hidden? : WalkEntry → Option String
  | .found _ => none
  | .hidden path => some path

end WalkEntry

namespace FileTree

mutual

/-- A walk below a directory, with the directory's own path in front. -/
def walkBelow (scopes : IgnoreScopes) (base : String) : FileTree → List WalkEntry
  | .directory entries => walkEntries scopes base entries
  | _ => []

/-- A rule may bring back a hidden entry. -/
def walkEntries (scopes : IgnoreScopes) (base : String) :
    List (String × FileTree) → List WalkEntry
  | [] => []
  | (name, t) :: rest =>
    let path := Path.join base name
    let rest := walkEntries scopes base rest
    match scopes.verdict? name t.isDirectory, IgnoreScopes.isHidden name with
    | some .leaveOut, _ => rest
    | none, true => .hidden path :: rest
    | _, _ => .found path :: walkBelow (scopes.enter name t) path t ++ rest

end

end FileTree

namespace Location

/-- The scopes of what is above a place, with the way from there. -/
def scopesAbove (path : String) : List (String × FileTree) → IgnoreScopes
  | [] => []
  | (name, t) :: above => ⟨.ofDirectory t, path⟩ :: scopesAbove (Path.join name path) above

def scopes (l : Location) : IgnoreScopes := .ofDirectory l.here :: scopesAbove l.name l.above

end Location

/-- A walk from a path. The path itself is never left out. -/
def FileTree.walk (root : FileTree) (path : String) : List WalkEntry :=
  match root.locate path with
  | .ok l => .found path :: l.here.walkBelow l.scopes path
  | .error _ => []

end TemplateLint.Files
