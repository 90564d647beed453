import TemplateLint.Diagnostic.Basic
import TemplateLint.Report.Excerpt
import TemplateLint.Text.Width

/-!
A diagnostic drawn for a terminal: its message, the lines of the template around its range with the
range marked, and its help. A range inside one line is underlined; a longer one has a bracket to the
left of its lines.
-/

namespace TemplateLint.Report

/-- Terminal styles, by the parameters that select them. -/
inductive Style where
  | severity (s : Severity)
  | help
  | link
  | lineNumber
  | highlight
deriving Repr, DecidableEq

def Style.parameters : Style → String
  | .severity .error => "38;2;225;80;80;1"
  | .severity .warning => "38;2;244;191;117;1"
  | .help => "38;2;106;159;181"
  | .link => "38;2;92;157;255;1"
  | .lineNumber => "2"
  | .highlight => "38;2;246;87;248"

/-- A text in a style. -/
def Style.paint (s : Style) (text : String) : String :=
  "\x1b[" ++ s.parameters ++ "m" ++ text ++ "\x1b[0m"

def spaces (n : Nat) : String := String.ofList (List.replicate n ' ')

def severityIcon : Severity → String
  | .error => "×"
  | .warning => "⚠"

/-- A line without the spaces at its end. -/
def trimSpaces (line : List Char) : List Char :=
  (line.reverse.dropWhile (· = ' ')).reverse

/-- A text with the first of its lines after one lead, and the others after another. -/
def indentLines (first other text : String) : String :=
  match text.splitOn "\n" with
  | [] => ""
  | l :: ls =>
    String.join <| ((first ++ l) :: ls.map (other ++ ·)).map fun line =>
      String.ofList (trimSpaces line.toList) ++ "\n"

def header (d : Diagnostic) : String :=
  let style := Style.severity d.severity
  indentLines ("  " ++ style.paint (severityIcon d.severity) ++ " ")
    ("  " ++ style.paint "│" ++ " ") (style.paint d.message)

def footer : Option String → String
  | none => ""
  | some help => indentLines (Style.help.paint "  help: ") (spaces 8) help

/-- The range of a diagnostic. -/
structure Range where
  start : Nat
  length : Nat

namespace Range

def ofDiagnostic (d : Diagnostic) : Range := ⟨d.start.toNat, d.stop.toNat - d.start.toNat⟩

def stop (r : Range) : Nat := r.start + r.length

/-- The end of the range, where an empty range counts as one byte. -/
def shownStop (r : Range) : Nat := r.start + max r.length 1

end Range

namespace Line

def stop (l : Line) : Nat := l.start + l.length

def startsHere (l : Line) (r : Range) : Bool := l.start ≤ r.start && r.start < l.stop

def endsHere (l : Line) (r : Range) : Bool := l.start < r.shownStop && r.shownStop ≤ l.stop

def passesThrough (l : Line) (r : Range) : Bool := r.start < l.start && l.stop < r.shownStop

/-- Some of the range is on the line. -/
def touches (l : Line) (r : Range) : Bool :=
  l.startsHere r || l.passesThrough r || l.endsHere r

/-- All of the range is on the line. -/
def holds (l : Line) (r : Range) : Bool := l.start ≤ r.start && r.stop ≤ l.stop

/-- The line has its part of the bracket beside it. -/
def hasBracket (l : Line) (r : Range) : Bool :=
  l.touches r && !(l.startsHere r && l.endsHere r)

/-- Columns before a byte offset of the text, which is rounded to a character; one more when the
offset is past the text. -/
def columnsBefore (l : Line) (offset : Nat) (up : Bool) : Nat :=
  let inside := offset - l.start
  let rec take (left : Nat) : List Char → List Char
    | [] => []
    | c :: cs =>
      if left = 0 then []
      else if c.utf8Size ≤ left then c :: take (left - c.utf8Size) cs
      else if up then [c]
      else []
  let past := if Text.byteLength l.text < inside then 1 else 0
  Text.width (take inside l.text) + past

end Line

/-- The part of the bracket beside a line. -/
def bracketPart (l : Line) (r : Range) : String :=
  let h := Style.highlight.paint
  if !l.hasBracket r then spaces 4
  else if l.start ≤ r.start then h "╭" ++ h "─" ++ h "▶" ++ " "
  else if l.start ≤ r.stop && r.stop ≤ l.stop then h "╰" ++ h "─" ++ h "▶" ++ " "
  else h "│" ++ spaces 3

/-- The marks under the range. -/
def underline (l : Line) (r : Range) : String :=
  let left := l.columnsBefore r.start false
  if r.length = 0 then Style.highlight.paint (spaces left ++ "▲")
  else
    let right := max (l.columnsBefore r.stop true) (left + 1)
    Style.highlight.paint <|
      spaces left ++ String.ofList (List.replicate (right - left) '─')

/-- The lines of an excerpt with the range marked; numbers take `numberWidth` columns. -/
def drawLines (lines : List Line) (r : Range) (numberWidth : Nat) : String :=
  let hasBracket := lines.any fun l => l.hasBracket r && !l.holds r
  String.join <| lines.map fun l =>
    let number := toString l.number
    let bracket := if hasBracket then bracketPart l r else ""
    " " ++ Style.lineNumber.paint (spaces (numberWidth - number.length) ++ number) ++ " │ " ++
      bracket ++ String.ofList (Text.expandTabs l.text) ++ "\n" ++
      if l.touches r && l.holds r then
        " " ++ spaces numberWidth ++ " · " ++ underline l r ++ "\n"
      else ""

/-- The drawing; nothing when the range is not inside the template. -/
def snippet? (filename : String) (source : List Char) (d : Diagnostic) : Option String := do
  let r := Range.ofDiagnostic d
  let place ← excerpt? source ⟨r.start, r.length, 0, 0⟩
  let around ← excerpt? source ⟨r.start, r.length, 1, 1⟩
  let lines := around.lines source
  let numberWidth := match lines.getLast? with
    | some l => (toString l.number).length
    | none => 1
  let margin := spaces (numberWidth + 2)
  return "\n" ++ header d ++ margin ++ "╭─[" ++ Style.link.paint filename ++ ":" ++
    toString (place.line + 1) ++ ":" ++ toString (place.column + 1) ++ "]\n" ++
    drawLines lines r numberWidth ++ margin ++ "╰────\n" ++ footer d.help

end TemplateLint.Report
