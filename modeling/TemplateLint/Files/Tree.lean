import TemplateLint.Files.Path

/-!
Files and directories below a working directory, without links. Paths are looked up and files are
written as the system does it, with its errors. What lies outside of the tree is not there.
-/

namespace TemplateLint.Files

inductive FileTree where
  | text (content : String)
  /-- A file that is not UTF-8 text. -/
  | binary
  | directory (entries : List (String × FileTree))
deriving Repr, Inhabited

inductive FileError where
  | notFound
  | notDirectory
  | isDirectory
  | notText
deriving Repr, DecidableEq

def FileError.message : FileError → String
  | .notFound => "No such file or directory (os error 2)"
  | .notDirectory => "Not a directory (os error 20)"
  | .isDirectory => "Is a directory (os error 21)"
  | .notText => "stream did not contain valid UTF-8"

namespace FileTree

def isDirectory : FileTree → Bool
  | .directory _ => true
  | _ => false

/-- What a directory holds; a file holds nothing. -/
def entries : FileTree → List (String × FileTree)
  | .directory entries => entries
  | _ => []

def child? (t : FileTree) (name : String) : Option FileTree := t.entries.lookup name

/-- Replaces or adds an entry. -/
def put (t : FileTree) (name : String) (new : FileTree) : FileTree :=
  if (t.child? name).isSome then
    .directory (t.entries.map fun (n, old) => if n = name then (n, new) else (n, old))
  else .directory (t.entries ++ [(name, new)])

/-- Puts something at the end of a way of names. Directories that are missing are added. -/
def insert : FileTree → List String → FileTree → FileTree
  | _, [], new => new
  | t, name :: names, new =>
    t.put name (insert ((t.child? name).getD (.directory [])) names new)

end FileTree

/-- The way from a place in the tree up to the working directory, each with its name. -/
structure Location where
  here : FileTree
  name : String
  above : List (String × FileTree)

namespace Location

def top (root : FileTree) : Location := ⟨root, "", []⟩

def up? (l : Location) : Option Location :=
  match l.above with
  | [] => none
  | (name, t) :: above => some ⟨t, name, above⟩

def down? (l : Location) (name : String) : Option Location :=
  (l.here.child? name).map fun t => ⟨t, name, (l.name, l.here) :: l.above⟩

/-- One segment of a path further. -/
def step (l : Location) (segment : String) : Except FileError Location :=
  if !l.here.isDirectory then .error .notDirectory
  else if segment = "" || segment = "." then .ok l
  else
    match if segment = ".." then l.up? else l.down? segment with
    | some l => .ok l
    | none => .error .notFound

/-- The whole tree, with another subtree at this place. -/
def rebuild (new : FileTree) (name : String) : List (String × FileTree) → FileTree
  | [] => new
  | (n, t) :: above => rebuild (t.put name new) n above

end Location

namespace FileTree

/-- The place of a path. -/
def locate (root : FileTree) (path : String) : Except FileError Location :=
  if path.isEmpty || path.startsWith "/" then .error .notFound
  else (Path.segments path).foldlM Location.step (.top root)

def find (root : FileTree) (path : String) : Except FileError FileTree :=
  (root.locate path).map Location.here

def contains (root : FileTree) (path : String) : Bool := (root.find path).toBool

def isDirectoryAt (root : FileTree) (path : String) : Bool :=
  match root.find path with
  | .ok t => t.isDirectory
  | .error _ => false

def read (root : FileTree) (path : String) : Except FileError String := do
  match ← root.find path with
  | .text content => return content
  | .binary => throw .notText
  | .directory _ => throw .isDirectory

/-- The tree after writing a file. Its directory has to be there. -/
def write (root : FileTree) (path content : String) : Except FileError FileTree := do
  let segments := Path.segments path
  let l ← segments.dropLast.foldlM Location.step (.top root)
  if !l.here.isDirectory then throw .notDirectory
  let name := segments.getLastD ""
  match l.here.child? name with
  | some (.directory _) => throw .isDirectory
  | _ => return Location.rebuild (l.here.put name (.text content)) l.name l.above

mutual

/-- All that is below, with its path behind `base`. -/
def descendants (base : String) : FileTree → List (String × FileTree)
  | .directory entries => descendantsOfAll base entries
  | _ => []

def descendantsOfAll (base : String) : List (String × FileTree) → List (String × FileTree)
  | [] => []
  | (name, t) :: rest =>
    let path := Path.join base name
    (path, t) :: descendants path t ++ descendantsOfAll base rest

end

end FileTree

end TemplateLint.Files
