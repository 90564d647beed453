/-!
Patterns for paths in ignore files. Wildcards stand for bytes; a separator is matched by itself, by
the tokens for directories, and by a negated class.
-/

namespace TemplateLint.Files

inductive IgnoreToken where
  | byte (b : UInt8)
  /-- Any one byte that is no separator. -/
  | any
  /-- Any number of bytes that are no separators. -/
  | many
  | oneOf (isNegated : Bool) (ranges : List (UInt8 × UInt8))
  /-- Any directories in front. -/
  | leading
  /-- A separator, or two with any directories between them. -/
  | between
  /-- Anything below. -/
  | below
deriving Repr, DecidableEq

abbrev IgnorePattern := List IgnoreToken

namespace IgnorePattern

/-- A slash. -/
def separator : UInt8 := 47

/-- What is left after each separator. -/
def afterSeparators : List UInt8 → List (List UInt8)
  | [] => []
  | b :: bs => if b = separator then bs :: afterSeparators bs else afterSeparators bs

/-- What is left after any number of bytes that are no separators. -/
def withinSegment : List UInt8 → List (List UInt8)
  | [] => [[]]
  | b :: bs => if b = separator then [b :: bs] else (b :: bs) :: withinSegment bs

def suffixes : List UInt8 → List (List UInt8)
  | [] => [[]]
  | b :: bs => (b :: bs) :: suffixes bs

def matchesBytes : IgnorePattern → List UInt8 → Bool
  | [], bytes => bytes.isEmpty
  | .many :: ts, bytes => (withinSegment bytes).any (matchesBytes ts)
  | .leading :: ts, bytes => matchesBytes ts bytes || (afterSeparators bytes).any (matchesBytes ts)
  | .byte _ :: _, [] => false
  | .byte a :: ts, b :: bytes => a = b && matchesBytes ts bytes
  | .any :: _, [] => false
  | .any :: ts, b :: bytes => b ≠ separator && matchesBytes ts bytes
  | .oneOf _ _ :: _, [] => false
  | .oneOf isNegated ranges :: ts, b :: bytes =>
    (ranges.any fun (low, high) => decide (low ≤ b) && decide (b ≤ high)) != isNegated &&
      matchesBytes ts bytes
  | .between :: _, [] => false
  | .between :: ts, b :: bytes =>
    b = separator && (matchesBytes ts bytes || (afterSeparators bytes).any (matchesBytes ts))
  | .below :: _, [] => false
  | .below :: ts, b :: bytes => b = separator && (suffixes bytes).any (matchesBytes ts)

/-- Whether a path is named; directories alone name every path. -/
def accepts (p : IgnorePattern) (path : List UInt8) : Bool :=
  p = [.leading] || p.matchesBytes path

end IgnorePattern

end TemplateLint.Files
