import TemplateLint.Rule.Basic
import TemplateLint.Text.Blank
import TemplateLint.Text.Slice

/-!
The rule `angular/banana-in-box`. A two-way binding is written `[(name)]`, the banana in the box.
Written `([name])` it is an event binding for an event called `[name]`, which never fires. The rule
finds such a box in the text of an attribute before its value, and its fix swaps the brackets.
-/

namespace TemplateLint.BananaInBox

def info : RuleInfo where
  name := "angular/banana-in-box"
  description := "Ensure that the two-way data binding syntax is correct."
  rationale := "The parens \"()\" should have been inside the brackets \"[]\"."
  category := .functionality
  fixable := true
  defaultSeverity := .error

/-- A name with a `[` and a `]` somewhere after it. The parentheses of an event binding are not
part of its name, so every name of a box is one of these. -/
def detect (name : List Char) : Bool := (name.dropWhile (· ≠ '[')).any (· = ']')

/-- The byte offset at which `a` followed by `b` stands first, in a text that begins at `offset`. -/
def firstPair? (a b : Char) (offset : Nat) : List Char → Option Nat
  | x :: y :: cs =>
    if x = a && y = b then some offset else firstPair? a b (offset + x.utf8Size) (y :: cs)
  | _ => none

/-- The byte offset at which `a` followed by `b` stands last. -/
def lastPair? (a b : Char) (offset : Nat) : List Char → Option Nat
  | x :: y :: cs =>
    lastPair? a b (offset + x.utf8Size) (y :: cs) <|>
      if x = a && y = b then some offset else none
  | _ => none

/-- A box `([…])` in a text. -/
structure Box where
  /-- Byte offsets of the opening and the closing pair. -/
  start : Nat
  stop : Nat
  /-- The text between them, without the blanks at its ends. -/
  content : List Char
deriving Repr, DecidableEq

namespace Box

/-- Length in bytes, with the brackets. -/
def length (b : Box) : Nat := b.stop - b.start + 2

/-- The box written the right way round. -/
def swapped (b : Box) : List Char := ['[', '('] ++ b.content ++ [')', ']']

end Box

/-- The box from the first `([` to the last `])`, when the second comes after the first. -/
def locate? (text : List Char) : Option Box := do
  let start ← firstPair? '(' '[' 0 text
  let stop ← lastPair? ']' ')' 0 text
  if stop < start + 2 then none
  else
    let content ← Text.slice? text (start + 2) stop
    return ⟨start, stop, Text.trim content⟩

/-- The text of an attribute before its value. -/
def attributeKey (text : List Char) : List Char := text.takeWhile (· ≠ '=')

/-- Adds to an offset, while the sum is an offset too. -/
def offsetAdd? (offset : UInt32) (n : Nat) : Option UInt32 :=
  let sum := offset.toNat + n
  if sum < UInt32.size then some sum.toUInt32 else none

/-- The place in the template of a box in an attribute that begins at `base`; nothing when the
template has another text there. -/
def templateRange? (source : List Char) (base : UInt32) (key : List Char) (b : Box) :
    Option (UInt32 × UInt32) := do
  let region ← Text.slice? key b.start (b.start + b.length)
  let start ← offsetAdd? base b.start
  let stop ← offsetAdd? start b.length
  if Text.slice? source start.toNat stop.toNat = some region then some (start, stop) else none

def message : String := "Invalid binding syntax. Use [(expr)] instead"

/-- The report of a box that stands between these offsets of the template. -/
def diagnosticOf (b : Box) (start stop : UInt32) : Diagnostic :=
  let text := String.ofList b.swapped
  { rule := info.name
    severity := info.defaultSeverity
    message := message
    start, stop
    help := some ("Write `" ++ text ++ "` to bind both ways")
    fix := some ⟨"Replace with `" ++ text ++ "`", [⟨start, stop, text⟩]⟩ }

def foundEvent (filename : String) (b : Box) (start stop : UInt32) : LogEvent :=
  ⟨.trace, "banana-in-box at " ++ toString start.toNat ++ ".." ++ toString stop.toNat ++ " in " ++
    filename ++ ": `" ++ String.ofList b.swapped ++ "`"⟩

def mismatchEvent (filename : String) (event : BoundEvent) : LogEvent :=
  ⟨.warn, filename ++ ": span of `" ++ event.name ++ "` at offset " ++
    toString event.span.start.offset.toNat ++ " does not match the template, skipping"⟩

/-- What the rule has to say about an event binding. -/
def check (event : BoundEvent) (ctx : Context) : List Note :=
  if detect event.name.toList then
    let key := attributeKey event.span.source.toList
    match locate? key with
    | none => []
    | some b =>
      match templateRange? ctx.source.toList event.span.start.offset key b with
      | none => [.log (mismatchEvent ctx.filename event)]
      | some (start, stop) =>
        [.log (foundEvent ctx.filename b start stop), .report (diagnosticOf b start stop)]
  else []

end TemplateLint.BananaInBox

namespace TemplateLint

/-- The rule against `([name])`. -/
def bananaInBox : Rule where
  info := BananaInBox.info
  onOutput := fun _ event ctx => BananaInBox.check event ctx

/-- The rules that a linter has when nothing else is said. -/
def Registry.recommended : Registry := [bananaInBox]

end TemplateLint
