import TemplateLint.Diagnostic.Basic

/-!
Counts over a run.
-/

namespace TemplateLint

open Json (Value)

structure Summary where
  errors : Nat
  warnings : Nat
  fixable : Nat
  files : Nat
deriving Repr, DecidableEq, Inhabited

namespace Summary

def empty : Summary := ⟨0, 0, 0, 0⟩

def add (s : Summary) (d : Diagnostic) : Summary :=
  let s :=
    match d.severity with
    | .error => { s with errors := s.errors + 1 }
    | .warning => { s with warnings := s.warnings + 1 }
  if d.hasFix then { s with fixable := s.fixable + 1 } else s

def addAll (s : Summary) (ds : List Diagnostic) : Summary := ds.foldl add s

def hasErrors (s : Summary) : Bool := 0 < s.errors

def toJson (s : Summary) : Value :=
  .object [("error_count", .natural s.errors), ("warning_count", .natural s.warnings),
    ("fixable_count", .natural s.fixable), ("file_count", .natural s.files)]

/-- A count with its noun, in the singular for one. -/
def plural (count : Nat) (noun : String) : String :=
  if count = 1 then "1 " ++ noun else toString count ++ " " ++ noun ++ "s"

/-- One line about the run. -/
def line (s : Summary) : String :=
  let files := plural s.files "file"
  if s.errors = 0 && s.warnings = 0 then "No problems found in " ++ files
  else
    plural s.errors "error" ++ ", " ++ plural s.warnings "warning" ++ " in " ++ files ++
      if 0 < s.fixable then " (" ++ toString s.fixable ++ " fixable with --fix)" else ""

end Summary

end TemplateLint
