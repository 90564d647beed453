/-!
The arguments of a run. Each option may be given once, in any place among the patterns; after two
dashes everything is a pattern.
-/

namespace TemplateLint.Command

structure LintOptions where
  /-- Where documents are looked for. -/
  patterns : List String
  /-- Fixed templates are written beside their documents. -/
  fix : Bool
  /-- The directory of the configuration, when it is not the working directory. -/
  config : Option String
  format : String
  maxWarnings : Option Nat
  /-- A run without findings reports nothing. -/
  quiet : Bool
  verbose : Bool
deriving Repr, DecidableEq

inductive Request where
  | version
  | lint (options : LintOptions)
deriving Repr, DecidableEq

inductive Flag where
  | fix
  | quiet
  | verbose
deriving Repr, DecidableEq

inductive Setting where
  | config
  | format
  | maxWarnings
deriving Repr, DecidableEq

/-- What has been given of an argument list. -/
structure Given where
  patterns : List String
  flags : List Flag
  config : Option String
  format : Option String
  maxWarnings : Option Nat
deriving Repr, DecidableEq

namespace Given

def nothing : Given := ⟨[], [], none, none, none⟩

def addPatterns (g : Given) (patterns : List String) : Given :=
  { g with patterns := g.patterns ++ patterns }

def setFlag? (g : Given) (f : Flag) : Option Given :=
  if g.flags.contains f then none else some { g with flags := f :: g.flags }

end Given

/-- A count: decimal digits, possibly after a plus sign, for a number of 64 bits. -/
def readCount? (text : String) : Option Nat :=
  let digits := match text.toList with
    | '+' :: cs => cs
    | cs => cs
  if digits.isEmpty || !digits.all Char.isDigit then none
  else
    let n := digits.foldl (fun n c => 10 * n + (c.toNat - '0'.toNat)) 0
    if n < UInt64.size then some n else none

namespace Given

/-- Takes a value. The directory of the configuration may not be empty. -/
def set? (g : Given) (s : Setting) (value : String) : Option Given :=
  match s with
  | .config =>
    if g.config.isSome || value.isEmpty then none else some { g with config := some value }
  | .format => if g.format.isSome then none else some { g with format := some value }
  | .maxWarnings =>
    if g.maxWarnings.isSome then none
    else (readCount? value).map fun n => { g with maxWarnings := some n }

end Given

def flagOfName? : String → Option Flag
  | "fix" => some .fix
  | "quiet" => some .quiet
  | "verbose" => some .verbose
  | _ => none

def settingOfName? : String → Option Setting
  | "config" => some .config
  | "format" => some .format
  | "max-warnings" => some .maxWarnings
  | _ => none

def flagOfLetter? : Char → Option Flag
  | 'q' => some .quiet
  | _ => none

def settingOfLetter? : Char → Option Setting
  | 'c' => some .config
  | 'f' => some .format
  | _ => none

/-- A setting whose value has not come yet, and what has been given before it. -/
abbrev Progress := Option Setting × Given

/-- Reads an option that is spelled out, with its value after an equals sign. -/
def readLong? (g : Given) (text : List Char) : Option Progress :=
  let name := String.ofList (text.takeWhile (· ≠ '='))
  let value := match text.dropWhile (· ≠ '=') with
    | [] => none
    | _ :: cs => some (String.ofList cs)
  match flagOfName? name, settingOfName? name, value with
  | some f, _, none => (g.setFlag? f).map (none, ·)
  | none, some s, none => some (some s, g)
  | none, some s, some value => (g.set? s value).map (none, ·)
  | _, _, _ => none

/-- Reads letters that stand together. The first one that takes a value takes the letters after
it, without an equals sign between. -/
def readLetters? (g : Given) : List Char → Option Progress
  | [] => some (none, g)
  | c :: cs =>
    match flagOfLetter? c, settingOfLetter? c, cs with
    | some f, _, cs => do readLetters? (← g.setFlag? f) cs
    | none, some s, [] => some (some s, g)
    | none, some s, '=' :: cs => (g.set? s (String.ofList cs)).map (none, ·)
    | none, some s, cs => (g.set? s (String.ofList cs)).map (none, ·)
    | none, none, _ => none

/-- One dash alone is no option. -/
def isOption (argument : String) : Bool := argument.startsWith "-" && argument ≠ "-"

/-- Reads arguments up to their end; a value may not look like an option. -/
def readAll? : Progress → List String → Option Given
  | (none, g), [] => some g
  | (some _, _), [] => none
  | (some s, g), argument :: rest =>
    if isOption argument then none
    else (g.set? s argument).bind fun g => readAll? (none, g) rest
  | (none, g), argument :: rest =>
    match argument.toList with
    | ['-', '-'] => some (g.addPatterns rest)
    | '-' :: '-' :: cs => (readLong? g cs).bind fun p => readAll? p rest
    | '-' :: c :: cs => (readLetters? g (c :: cs)).bind fun p => readAll? p rest
    | _ => readAll? (none, g.addPatterns [argument]) rest

/-- What is looked for when no pattern is given. -/
def defaultPattern : String := "./**/*.ast.json"

def defaultFormat : String := "text"

def Given.options (g : Given) : LintOptions where
  patterns := if g.patterns.isEmpty then [defaultPattern] else g.patterns
  fix := g.flags.contains .fix
  config := g.config
  format := g.format.getD defaultFormat
  maxWarnings := g.maxWarnings
  quiet := g.flags.contains .quiet
  verbose := g.flags.contains .verbose

/-- The names of the command that lints. -/
def lintNames : List String := ["lint", "patina"]

def asksForVersion (argument : String) : Bool :=
  argument = "--version" || argument.startsWith "-v" || argument.startsWith "-V"

/-- Reads the arguments of a run. Nothing when they are not understood. Without any, the working
directory is linted. -/
def Request.ofArguments? : List String → Option Request
  | [] => some (.lint Given.nothing.options)
  | first :: rest =>
    if lintNames.contains first then
      (readAll? (none, .nothing) rest).map fun g => .lint g.options
    else if asksForVersion first then some .version
    else if first = "--" && rest.isEmpty then some (.lint Given.nothing.options)
    else none

end TemplateLint.Command
