import TemplateLint.Json.Value
import TemplateLint.Json.Decode

/-!
What a rule reports: a message about a range of the template, and possibly a fix.
-/

namespace TemplateLint

open Json (Value)

inductive Severity where
  | error
  | warning
deriving Repr, DecidableEq, Inhabited

def Severity.name : Severity → String
  | .error => "error"
  | .warning => "warning"

def Severity.names : List (String × Severity) := [("error", .error), ("warning", .warning)]

def Severity.decoder : Json.Decoder Severity := Json.Decode.choice Severity.names

/-- Puts `newText` in the place of the bytes from `start` to `stop`. -/
structure TextEdit where
  start : UInt32
  stop : UInt32
  newText : String
deriving Repr, DecidableEq, Inhabited

/-- How many bytes the edit replaces. -/
def TextEdit.length (e : TextEdit) : Nat := e.stop.toNat - e.start.toNat

def TextEdit.isEmpty (e : TextEdit) : Bool := e.start = e.stop

/-- A change of the template that belongs together. -/
structure Fix where
  message : String
  edits : List TextEdit
deriving Repr, DecidableEq, Inhabited

structure Diagnostic where
  rule : String
  severity : Severity
  message : String
  start : UInt32
  stop : UInt32
  help : Option String
  fix : Option Fix
deriving Repr, DecidableEq, Inhabited

def Diagnostic.hasFix (d : Diagnostic) : Bool := d.fix.isSome

def TextEdit.toJson (e : TextEdit) : Value :=
  .object [("start", .natural e.start.toNat), ("end", .natural e.stop.toNat),
    ("newText", .string e.newText)]

def Fix.toJson (f : Fix) : Value :=
  .object [("message", .string f.message), ("edits", .array (f.edits.map TextEdit.toJson))]

end TemplateLint
