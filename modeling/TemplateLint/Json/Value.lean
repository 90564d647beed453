/-!
JSON values and the two ways of writing them: compact, and indented by two spaces.
-/

namespace TemplateLint.Json

/-- A JSON value as it is written out. The members of an object keep their order. -/
inductive Value where
  | null
  | boolean (b : Bool)
  | natural (n : Nat)
  | string (s : String)
  | array (items : List Value)
  | object (members : List (String × Value))
deriving Repr, Inhabited

def hexDigit (n : Nat) : Char := Nat.digitChar n

/-- One character between quotes. Only quotes, backslashes and controls are escaped. -/
def escapeChar (c : Char) : List Char :=
  match c with
  | '"' => ['\\', '"']
  | '\\' => ['\\', '\\']
  | '\x08' => ['\\', 'b']
  | '\x0c' => ['\\', 'f']
  | '\n' => ['\\', 'n']
  | '\r' => ['\\', 'r']
  | '\t' => ['\\', 't']
  | c =>
    if c.toNat < 0x20 then
      ['\\', 'u', '0', '0', hexDigit (c.toNat / 16), hexDigit (c.toNat % 16)]
    else [c]

def stringText (s : String) : List Char := '"' :: s.toList.flatMap escapeChar ++ ['"']

def naturalText (n : Nat) : List Char := Nat.toDigits 10 n

def booleanText : Bool → List Char
  | true => ['t', 'r', 'u', 'e']
  | false => ['f', 'a', 'l', 's', 'e']

def nullText : List Char := ['n', 'u', 'l', 'l']

namespace Value

mutual

/-- Without any blanks. -/
def compactText : Value → List Char
  | .null => nullText
  | .boolean b => booleanText b
  | .natural n => naturalText n
  | .string s => stringText s
  | .array items => '[' :: compactItems items
  | .object members => '\x7b' :: compactMembers members

/-- The items and the closing bracket. -/
def compactItems : List Value → List Char
  | [] => [']']
  | v :: vs => v.compactText ++ compactMoreItems vs

/-- The items after the first. -/
def compactMoreItems : List Value → List Char
  | [] => [']']
  | v :: vs => ',' :: v.compactText ++ compactMoreItems vs

def compactMembers : List (String × Value) → List Char
  | [] => ['\x7d']
  | (k, v) :: ms => stringText k ++ ':' :: v.compactText ++ compactMoreMembers ms

def compactMoreMembers : List (String × Value) → List Char
  | [] => ['\x7d']
  | (k, v) :: ms => ',' :: stringText k ++ ':' :: v.compactText ++ compactMoreMembers ms

end

def compact (v : Value) : String := String.ofList v.compactText

/-- A line break and the indentation of a depth. -/
def lineBreak (depth : Nat) : List Char := '\n' :: List.replicate (2 * depth) ' '

mutual

/-- Each item and member on a line of its own; empty arrays and objects stay on one line. -/
def prettyText (depth : Nat) : Value → List Char
  | .null => nullText
  | .boolean b => booleanText b
  | .natural n => naturalText n
  | .string s => stringText s
  | .array [] => ['[', ']']
  | .array (v :: vs) =>
    '[' :: lineBreak (depth + 1) ++ v.prettyText (depth + 1) ++ prettyMoreItems depth vs
  | .object [] => ['\x7b', '\x7d']
  | .object ((k, v) :: ms) =>
    '\x7b' :: lineBreak (depth + 1) ++ stringText k ++ [':', ' '] ++ v.prettyText (depth + 1) ++
      prettyMoreMembers depth ms

def prettyMoreItems (depth : Nat) : List Value → List Char
  | [] => lineBreak depth ++ [']']
  | v :: vs =>
    ',' :: lineBreak (depth + 1) ++ v.prettyText (depth + 1) ++ prettyMoreItems depth vs

def prettyMoreMembers (depth : Nat) : List (String × Value) → List Char
  | [] => lineBreak depth ++ ['\x7d']
  | (k, v) :: ms =>
    ',' :: lineBreak (depth + 1) ++ stringText k ++ [':', ' '] ++ v.prettyText (depth + 1) ++
      prettyMoreMembers depth ms

end

def pretty (v : Value) : String := String.ofList (v.prettyText 0)

end Value

end TemplateLint.Json
