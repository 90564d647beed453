import TemplateLint.Files.Ignore.Reader
import TemplateLint.Text.Blank

/-!
The lines of an ignore file. A line is a wildcard path: with a separator inside it starts at the
directory of the file, without one it is found at any depth.
-/

namespace TemplateLint.Files

structure IgnoreRule where
  patterns : List IgnorePattern
  /-- The rule brings back what a rule before it has left out. -/
  isException : Bool
  onlyDirectories : Bool
deriving Repr, DecidableEq

namespace IgnoreRule

def isAnyDepth (line : List Char) : Bool := line = ['*', '*']

/-- Blanks at the end of a line do not count, unless the last one is escaped. -/
def trimEnd (line : List Char) : List Char :=
  if [' ', '\\'].isPrefixOf line.reverse then line
  else Text.trimRight line

/-- Takes the separator from the end of a line, with its escape; whether there was one. -/
def trimSeparator (line : List Char) : Bool × List Char :=
  match line.reverse with
  | '/' :: '\\' :: cs => (true, cs.reverse)
  | '/' :: cs => (true, cs.reverse)
  | _ => (false, line)

/-- The text of the wildcard path: at any depth when there is no separator in it, and only what is
inside of a directory when it ends with two stars. -/
def patternText (isAnchored : Bool) (line : List Char) : List Char :=
  let text :=
    if isAnchored || line.contains '/' || isAnyDepth line then line
    else '*' :: '*' :: '/' :: line
  if ['*', '*', '/'].isPrefixOf text.reverse then text ++ ['/', '*'] else text

/-- What stands before the pattern: an exclamation mark for an exception, and a separator for a
path that starts at the directory of the file. Both may be escaped, as may a hash. -/
def marks (line : List Char) : Bool × Bool × List Char :=
  match line with
  | '\\' :: '!' :: cs => (false, false, '!' :: cs)
  | '\\' :: '#' :: cs => (false, false, '#' :: cs)
  | '!' :: '/' :: cs => (true, true, cs)
  | '!' :: cs => (true, false, cs)
  | '/' :: cs => (false, true, cs)
  | cs => (false, false, cs)

/-- Reads a line. Comments, empty lines and malformed patterns are no rules. -/
def ofLine? (line : List Char) : Option IgnoreRule :=
  if line.head? = some '#' then none
  else
    let line := trimEnd line
    if line.isEmpty then none
    else
      let (isException, isAnchored, line) := marks line
      let (onlyDirectories, line) := trimSeparator line
      (IgnoreReader.patterns? (patternText isAnchored line)).map
        (⟨·, isException, onlyDirectories⟩)

def concerns (r : IgnoreRule) (path : String) (isDirectory : Bool) : Bool :=
  (isDirectory || !r.onlyDirectories) && r.patterns.any (·.accepts path.toUTF8.toList)

end IgnoreRule

/-- What rules say about a path. -/
inductive Verdict where
  | leaveOut
  | keep
deriving Repr, DecidableEq

def IgnoreRule.verdict (r : IgnoreRule) : Verdict := if r.isException then .keep else .leaveOut

abbrev IgnoreRules := List IgnoreRule

namespace IgnoreRules

/-- A line without the carriage return at its end. -/
def chomp (line : String) : List Char :=
  match line.toList.reverse with
  | '\r' :: cs => cs.reverse
  | _ => line.toList

/-- The rules of a file, which may begin with a byte order mark. -/
def ofText (text : String) : IgnoreRules :=
  let lines := (text.splitOn "\n").map chomp
  let lines := match lines with
    | [] => []
    | first :: rest => first.dropWhile (· = '\ufeff') :: rest
  lines.filterMap IgnoreRule.ofLine?

/-- The last rule that concerns a path decides. -/
def verdict? (rules : IgnoreRules) (path : String) (isDirectory : Bool) : Option Verdict :=
  (rules.reverse.find? (·.concerns path isDirectory)).map IgnoreRule.verdict

end IgnoreRules

end TemplateLint.Files
