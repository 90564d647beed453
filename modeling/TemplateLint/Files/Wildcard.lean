/-!
Wildcards in the name of a file.
-/

namespace TemplateLint.Files

inductive WildcardToken where
  | char (c : Char)
  /-- Any one character. -/
  | any
  /-- Any number of characters. -/
  | many
  /-- One character inside, or outside, of inclusive ranges. -/
  | oneOf (isNegated : Bool) (ranges : List (Char × Char))
deriving Repr, DecidableEq

/-- The character of a token that stands for nothing else. -/
def WildcardToken.char? : WildcardToken → Option Char
  | .char c => some c
  | _ => none

abbrev Wildcard := List WildcardToken

namespace Wildcard

def inClass (isNegated : Bool) (ranges : List (Char × Char)) (c : Char) : Bool :=
  (ranges.any fun (low, high) => decide (low ≤ c) && decide (c ≤ high)) != isNegated

def accepts : Wildcard → List Char → Bool
  | [], [] => true
  | [], _ :: _ => false
  | .many :: ts, [] => accepts ts []
  | .many :: ts, c :: cs => accepts ts (c :: cs) || accepts (.many :: ts) cs
  | _ :: _, [] => false
  | .char a :: ts, c :: cs => a = c && accepts ts cs
  | .any :: ts, _ :: cs => accepts ts cs
  | .oneOf isNegated ranges :: ts, c :: cs => inClass isNegated ranges c && accepts ts cs
termination_by ts cs => ts.length + cs.length

/-- The text of a wildcard that has only characters. -/
def literal? (w : Wildcard) : Option String :=
  (w.mapM WildcardToken.char?).map String.ofList

end Wildcard

end TemplateLint.Files
