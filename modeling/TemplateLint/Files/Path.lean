/-!
Paths as they are written, and the components that they are compared by. Repeated separators and
single dots after the first component make no difference.
-/

namespace TemplateLint.Files

inductive Component where
  | root
  | current
  | parent
  | name (s : String)
deriving Repr, DecidableEq

namespace Component

/-- Where a component is sorted; names come last. -/
def rank : Component → Nat
  | .root => 0
  | .current => 1
  | .parent => 2
  | .name _ => 3

def isBefore (a b : Component) : Bool :=
  match a, b with
  | .name s, .name t => s < t
  | a, b => a.rank < b.rank

end Component

namespace Path

/-- What stands between the separators. -/
def segments (path : String) : List String := (path.toList.splitOn '/').map String.ofList

def componentOf? (segment : String) : Option Component :=
  if segment = "" || segment = "." then none
  else if segment = ".." then some .parent
  else some (.name segment)

/-- The components of a path. A leading separator or single dot is a component too. -/
def components (path : String) : List Component :=
  match segments path with
  | [] => []
  | first :: rest =>
    let rest := rest.filterMap componentOf?
    if first = "" then (if path.isEmpty then [] else .root :: rest)
    else if first = "." then .current :: rest
    else (componentOf? first).toList ++ rest

/-- The order of paths by their components. -/
def isBefore : List Component → List Component → Bool
  | [], [] => false
  | [], _ :: _ => true
  | _ :: _, [] => false
  | a :: as, b :: bs => if a = b then isBefore as bs else a.isBefore b

/-- The last component, when it is a name. -/
def fileName? (path : String) : Option String :=
  match (components path).getLast? with
  | some (.name s) => some s
  | _ => none

/-- A path inside another. -/
def join (base path : String) : String :=
  if path.startsWith "/" || base.isEmpty then path
  else if base.endsWith "/" then base ++ path
  else base ++ "/" ++ path

/-- Segments without those at their end that are no components. -/
def trimSegments (segments : List String) : List String :=
  match segments with
  | [] => []
  | first :: rest => first :: (rest.reverse.dropWhile fun s => s = "" || s = ".").reverse

/-- The path as written, up to its last component. -/
def parent (path : String) : String :=
  "/".intercalate (trimSegments (trimSegments (segments path)).dropLast)

/-- The path with another file name. -/
def withFileName (path name : String) : String := join (parent path) name

end Path

end TemplateLint.Files
