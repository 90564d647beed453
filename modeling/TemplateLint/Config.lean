import TemplateLint.Diagnostic.Basic

/-!
The configuration of a linter: a level for each rule that is not to keep its own severity.
-/

namespace TemplateLint

open Json (Value Fields)

inductive RuleLevel where
  | off
  | warn
  | error
deriving Repr, DecidableEq, Inhabited

namespace RuleLevel

def name : RuleLevel → String
  | .off => "off"
  | .warn => "warn"
  | .error => "error"

/-- Warnings may be spelled out. -/
def names : List (String × RuleLevel) :=
  [("off", .off), ("warn", .warn), ("warning", .warn), ("error", .error)]

/-- The severity of the reports at a level; nothing when the rule is off. -/
def severity? : RuleLevel → Option Severity
  | .off => none
  | .warn => some .warning
  | .error => some .error

def decoder : Json.Decoder RuleLevel := Json.Decode.choice names

theorem lookup_name (l : RuleLevel) : names.lookup l.name = some l := by cases l <;> decide

end RuleLevel

structure Config where
  /-- Where the schema of the file is to be found, for editors. -/
  schema : Option String
  /-- The rules with a level of their own. -/
  rules : List (String × RuleLevel)
deriving Repr, DecidableEq, Inhabited

namespace Config

def empty : Config := ⟨none, []⟩

def level? (c : Config) (rule : String) : Option RuleLevel := c.rules.lookup rule

def fields : Fields Config :=
  ((Fields.done Config.mk).optional "$schema" (Json.Decode.optional Json.Decode.string)
    none).optional "rules" (Json.Decode.map RuleLevel.decoder) []

def decoder : Json.Decoder Config := Json.Decode.record "LintConfig" fields

def ofText (text : String) : Except Json.Error Config := Json.decode decoder text

def toJson (c : Config) : Value :=
  let schema := match c.schema with
    | some s => [("$schema", Value.string s)]
    | none => []
  .object (schema ++ [("rules", .object (c.rules.map fun (name, l) => (name, .string l.name)))])

end Config

end TemplateLint
