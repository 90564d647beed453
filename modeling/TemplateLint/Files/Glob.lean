import TemplateLint.Files.Tree
import TemplateLint.Files.Wildcard

/-!
Glob patterns for paths. A wildcard stays inside one segment of a path, and `**` as a whole segment
stands for any number of directories.
-/

namespace TemplateLint.Files

/-- One segment of a glob pattern. -/
inductive GlobSegment where
  | anyDepth
  | name (w : Wildcard)
deriving Repr, DecidableEq

namespace Glob

/-- The ranges of a class: `a-z` is a range, any other character stands for itself. -/
def classRanges : List Char → List (Char × Char)
  | a :: '-' :: b :: cs => (a, b) :: classRanges cs
  | c :: cs => (c, c) :: classRanges cs
  | [] => []

/-- The class that follows an opening bracket, and what comes after it. A closing bracket right at
the start of the class belongs to it. -/
def class? (cs : List Char) : Option (WildcardToken × List Char) :=
  let (isNegated, cs) := match cs with
    | '!' :: cs => (true, cs)
    | cs => (false, cs)
  match cs with
  | [] => none
  | first :: cs =>
    match cs.dropWhile (· ≠ ']') with
    | [] => none
    | _ :: rest =>
      some (.oneOf isNegated (classRanges (first :: cs.takeWhile (· ≠ ']'))), rest)

/-- Reads the wildcards of a pattern; nothing when a class is not closed, or when two or more stars
stand together and are not a whole segment. `isStart` at the start of a segment; the fuel is the
length of the pattern. -/
def wildcard? (isStart : Bool) : Nat → List Char → Option Wildcard
  | _, [] => some []
  | 0, _ => none
  | fuel + 1, c :: cs =>
    match c with
    | '?' => (wildcard? false fuel cs).map (.any :: ·)
    | '*' =>
      match cs with
      | '*' :: cs =>
        match isStart, cs with
        | true, [] => some [.many]
        | true, '/' :: cs => (wildcard? true fuel cs).map (.many :: ·)
        | _, _ => none
      | cs => (wildcard? false fuel cs).map (.many :: ·)
    | '[' => do
      let (token, cs) ← class? cs
      let rest ← wildcard? false fuel cs
      return token :: rest
    | c => (wildcard? (c = '/') fuel cs).map (.char c :: ·)

def readWildcard? (pattern : String) : Option Wildcard :=
  wildcard? true pattern.length pattern.toList

def readSegment? (segment : String) : Option GlobSegment :=
  if segment = "**" then some .anyDepth else (readWildcard? segment).map .name

/-- The same pattern without `**` right after `**`. -/
def collapse : List GlobSegment → List GlobSegment
  | .anyDepth :: .anyDepth :: ss => collapse (.anyDepth :: ss)
  | s :: ss => s :: collapse ss
  | [] => []

end Glob

/-- A glob pattern. One that ends with a separator finds directories only. -/
structure Glob where
  segments : List GlobSegment
  onlyDirectories : Bool
deriving Repr, DecidableEq

namespace Glob

/-- Reads a pattern, which has to be valid as a whole and segment by segment. -/
def ofString? (pattern : String) : Option Glob := do
  let _ ← readWildcard? pattern
  let onlyDirectories := pattern.endsWith "/"
  let segments := Path.segments pattern
  let segments := if onlyDirectories then segments.dropLast else segments
  return ⟨collapse (← segments.mapM readSegment?), onlyDirectories⟩

/-- A path that was found, and what is there. -/
abbrev Hit := String × FileTree

/-- The path is the working directory itself. -/
def isHere (path : String) : Bool := Path.components path = [.current]

/-- A path below a directory; below the working directory it is the name alone. -/
def below (directory name : String) : String :=
  if isHere directory then name else Path.join directory name

/-- The entry of a directory that is named in the pattern itself. -/
def literalHit? (root : FileTree) (directory name : String) : Option Hit :=
  if name = "." || name = ".." then
    if root.isDirectoryAt directory then
      let path := below directory name
      some (path, (root.find path).toOption.getD (.directory []))
    else none
  else
    let path := below directory name
    (root.find path).toOption.map (path, ·)

/-- `.` and `..`, for a wildcard that begins with a dot. -/
def dotHits (root : FileTree) (directory : String) (w : Wildcard) : List Hit :=
  if w.head? = some (.char '.') then
    [".", ".."].filterMap fun name =>
      if w.accepts name.toList then
        let path := Path.join directory name
        (root.find path).toOption.map (path, ·)
      else none
  else []

/-- What a wildcard finds in a directory. -/
def nameHits (root : FileTree) (directory : String) (w : Wildcard) : List Hit :=
  match w.literal? with
  | some name => (literalHit? root directory name).toList
  | none =>
    match root.find directory with
    | .ok (.directory entries) =>
      (entries.filter fun (name, _) => w.accepts name.toList).map
        (fun (name, t) => (below directory name, t)) ++ dotHits root directory w
    | _ => []

/-- All that is below a directory. -/
def descendants (root : FileTree) (directory : String) : List Hit :=
  match root.find directory with
  | .ok t => t.descendants (if isHere directory then "" else directory)
  | .error _ => []

/-- What the segments find from a directory on. -/
def hitsFrom (root : FileTree) (directory : String) : List GlobSegment → List Hit
  | [] => []
  | .anyDepth :: [] => (descendants root directory).filter fun (_, t) => t.isDirectory
  | .anyDepth :: .anyDepth :: ss => hitsFrom root directory (.anyDepth :: ss)
  | .anyDepth :: .name w :: ss =>
    let found := (descendants root directory).filter fun (path, _) =>
      (Path.fileName? path).any fun name => w.accepts name.toList
    match ss with
    | [] => found
    | ss => found.flatMap fun (path, _) => hitsFrom root path ss
  | .name w :: ss =>
    let found := nameHits root directory w
    match ss with
    | [] => found
    | ss => found.flatMap fun (path, _) => hitsFrom root path ss

/-- The paths that a pattern finds. -/
def hits (root : FileTree) (g : Glob) : List Hit :=
  (hitsFrom root "." g.segments).filter fun (_, t) => !g.onlyDirectories || t.isDirectory

end Glob

end TemplateLint.Files
